import Karphin.Common.IniFile.Defs

/-!
# Gecko codes

How the codes of a game are read from its global and its local file, and how they are written to the local one.
-/

namespace Karphin.Gecko

open Common

structure Code where
  address : UInt32
  data : UInt32
  originalLine : Str
  deriving DecidableEq

structure GeckoCode where
  codes : List Code := []
  name : Str := []
  creator : Str := []
  notes : List Str := []
  enabled : Bool := false
  defaultEnabled : Bool := false
  userDefined : Bool := false
  deriving DecidableEq

/-! ## Reading a section -/

def deserializeLine (line : Str) : Option Code :=
  match splitString line ' ' with
  | first :: second :: _ =>
      match tryParseHex first, tryParseHex second with
      | some address, some data => some ⟨address, data, line⟩
      | _, _ => none
  | _ => none

def codeLine (line : Str) : Code := (deserializeLine line).getD ⟨0, 0, line⟩

def titleCode (userDefined enabled : Bool) (title : Str) : GeckoCode where
  name := stripWhitespace (title.takeWhile (· ≠ '['))
  creator := ((title.dropWhile (· ≠ '[')).drop 1).takeWhile (· ≠ ']')
  enabled := enabled
  userDefined := userDefined

structure Reader where
  gcodes : List GeckoCode
  gcode : GeckoCode

def Reader.addCode (r : Reader) : List GeckoCode := if r.gcode.name ≠ [] then r.gcodes ++ [r.gcode] else r.gcodes

/-- One round of the loop over the lines. The first two characters of the title of an enabled code are skipped. -/
def Reader.readLine (userDefined : Bool) (r : Reader) (line : Str) : Reader :=
  match line.head? with
  | some '+' => ⟨r.addCode, titleCode userDefined true (line.drop 2)⟩
  | some '$' => ⟨r.addCode, titleCode userDefined false (line.drop 1)⟩
  | some '*' => { r with gcode := { r.gcode with notes := r.gcode.notes ++ [line.drop 1] } }
  | _ => { r with gcode := { r.gcode with codes := r.gcode.codes ++ [codeLine line] } }

def keepsLine (line : Str) : Bool := line ≠ [] && line.head? ≠ some '#'

def readCodes (userDefined : Bool) (gcodes : List GeckoCode) (lines : List Str) : List GeckoCode :=
  ((lines.filter keepsLine).foldl (Reader.readLine userDefined) ⟨gcodes, {}⟩).addCode

/-! ## Enabled and disabled codes -/

def setEnabled (enabled : Bool) (codes : List GeckoCode) (line : Str) : List GeckoCode :=
  if line.head? ≠ some '$' then codes
  else codes.map fun code => if line.drop 1 = code.name then { code with enabled := enabled } else code

def readEnabledOrDisabled (ini : IniFile) (sectionName : Str) (enabled : Bool) (codes : List GeckoCode) :
    List GeckoCode := (ini.getLines sectionName false).foldl (setEnabled enabled) codes

def readEnabledAndDisabled (ini : IniFile) (sectionName : Str) (codes : List GeckoCode) : List GeckoCode :=
  readEnabledOrDisabled ini (sectionName ++ "_Disabled".toList) false
    (readEnabledOrDisabled ini (sectionName ++ "_Enabled".toList) true codes)

/-! ## Loading and saving -/

def gecko : Str := "Gecko".toList

def loadGlobal (globalIni : IniFile) : List GeckoCode :=
  (readEnabledAndDisabled globalIni gecko (readCodes false [] (globalIni.getLines gecko false))).map
    fun code => { code with defaultEnabled := code.enabled }

def loadCodes (globalIni localIni : IniFile) : List GeckoCode :=
  readEnabledAndDisabled localIni gecko (readCodes true (loadGlobal globalIni) (localIni.getLines gecko false))

def makeGeckoCodeTitle (code : GeckoCode) : Str :=
  '$' :: code.name ++ if code.creator ≠ [] then " [".toList ++ code.creator ++ [']'] else []

def saveGeckoCode (gcode : GeckoCode) : List Str :=
  if gcode.userDefined then
    makeGeckoCodeTitle gcode :: gcode.codes.map Code.originalLine ++ gcode.notes.map fun note => '*' :: note
  else []

/-- The lines of the codes that are enabled, or disabled, and are not so by default. -/
def changedLines (enabled : Bool) (gcodes : List GeckoCode) : List Str :=
  (gcodes.filter fun code => code.enabled ≠ code.defaultEnabled && code.enabled = enabled).map fun code => '$' :: code.name

def saveCodes (inifile : IniFile) (gcodes : List GeckoCode) : IniFile :=
  ((inifile.setLines gecko (gcodes.flatMap saveGeckoCode)).setLines
    "Gecko_Enabled".toList (changedLines true gcodes)).setLines "Gecko_Disabled".toList (changedLines false gcodes)

end Karphin.Gecko

/-!
# Codes that were read

What the fields of a code that was read cannot have, so that the lines it is saved as are read as the same code.
-/

namespace Karphin.Gecko

open Common Lib

def Stripped (s : Str) : Prop := stripWhitespace s = s

theorem stripped_stripWhitespace (s : Str) : Stripped (stripWhitespace s) := stripWhitespace_idem s

theorem Stripped.getLast {s : Str} (h : Stripped s) {c : Char} (hc : s.getLast? = some c) : isWhitespace c = false := by
  rw [← h] at hc
  exact getLast?_trim_not hc

theorem stripped_of_ends {s : Str} (hhead : ∀ c, s.head? = some c → isWhitespace c = false)
    (hlast : ∀ c, s.getLast? = some c → isWhitespace c = false) : Stripped s := trim_eq_self hhead hlast

theorem stripped_dollar {name : Str} (hname : Stripped name) : Stripped ('$' :: name) := by
  apply stripped_of_ends
  · intro c hc
    cases hc
    rfl
  · intro c hc
    cases name with
    | nil =>
        cases hc
        rfl
    | cons d rest => exact hname.getLast hc

structure GeckoCode.Read (code : GeckoCode) : Prop where
  name : Stripped code.name
  bracket : '[' ∉ code.name
  creator : ']' ∉ code.creator
  codeLines : ∀ c ∈ code.codes, c = codeLine c.originalLine ∧ Stripped c.originalLine ∧ keepsLine c.originalLine = true ∧
    c.originalLine.head? ∉ [some '+', some '$', some '*']
  note : ∀ note ∈ code.notes, Stripped ('*' :: note)

/-! ## What is read -/

theorem codeLine_originalLine (line : Str) : (codeLine line).originalLine = line := by
  rw [codeLine, deserializeLine]
  split
  · split <;> rfl
  · rfl

theorem read_titleCode (userDefined enabled : Bool) (title : Str) : (titleCode userDefined enabled title).Read := by
  constructor
  · exact stripped_stripWhitespace _
  · intro hmem
    have hne := List.mem_takeWhile_imp (mem_of_mem_stripWhitespace hmem)
    exact decide_eq_true_iff.mp hne rfl
  · intro hmem
    have hne := List.mem_takeWhile_imp hmem
    exact decide_eq_true_iff.mp hne rfl
  · exact fun _ hmem => absurd hmem List.not_mem_nil
  · exact fun _ hmem => absurd hmem List.not_mem_nil

/-- The codes of a reader, of which the last one may have no name yet. -/
structure Reader.Good (userDefined : Bool) (r : Reader) : Prop where
  gcodes : ∀ code ∈ r.gcodes, code.Read ∧ code.name ≠ [] ∧ code.userDefined = userDefined ∧ code.defaultEnabled = false
  gcode : r.gcode.Read
  user : r.gcode.name ≠ [] → r.gcode.userDefined = userDefined
  default : r.gcode.defaultEnabled = false

namespace Reader.Good

variable {userDefined : Bool} {r : Reader}

theorem addCode (h : r.Good userDefined) : ∀ code ∈ r.addCode,
    code.Read ∧ code.name ≠ [] ∧ code.userDefined = userDefined ∧ code.defaultEnabled = false := by
  rw [Reader.addCode]
  split
  next hname =>
    refine List.forall_mem_append.mpr ⟨h.gcodes, fun code hcode => ?_⟩
    rw [List.mem_singleton.mp hcode]
    exact ⟨h.gcode, hname, h.user hname, h.default⟩
  next => exact h.gcodes

theorem title (h : r.Good userDefined) (enabled : Bool) (title : Str) :
    Reader.Good userDefined ⟨r.addCode, titleCode userDefined enabled title⟩ :=
  ⟨h.addCode, read_titleCode .., fun _ => rfl, rfl⟩

theorem readLine {line : Str} (h : r.Good userDefined) (hline : Stripped line) (hkeep : keepsLine line = true) :
    (r.readLine userDefined line).Good userDefined := by
  rw [Reader.readLine]
  split
  next => exact h.title true _
  next => exact h.title false _
  next hstar =>
    obtain ⟨note, rfl⟩ := List.head?_eq_some_iff.mp hstar
    refine ⟨h.gcodes, ⟨h.gcode.name, h.gcode.bracket, h.gcode.creator, h.gcode.codeLines, ?_⟩, h.user, h.default⟩
    exact List.forall_mem_append.mpr ⟨h.gcode.note, fun other hother => List.mem_singleton.mp hother ▸ hline⟩
  next hplus hdollar hstar =>
    refine ⟨h.gcodes, ⟨h.gcode.name, h.gcode.bracket, h.gcode.creator, ?_, h.gcode.note⟩, h.user, h.default⟩
    refine List.forall_mem_append.mpr ⟨h.gcode.codeLines, fun c hc => ?_⟩
    rw [List.mem_singleton.mp hc, codeLine_originalLine]
    refine ⟨rfl, hline, hkeep, ?_⟩
    simp only [List.mem_cons, List.not_mem_nil, or_false, not_or]
    exact ⟨hplus, hdollar, hstar⟩

theorem run {lines : List Str} (h : r.Good userDefined) (hlines : ∀ line ∈ lines, Stripped line ∧ keepsLine line = true) :
    (lines.foldl (Reader.readLine userDefined) r).Good userDefined := by
  induction lines generalizing r with
  | nil => exact h
  | cons line lines ih =>
      obtain ⟨⟨hline, hkeep⟩, hrest⟩ := List.forall_mem_cons.mp hlines
      exact ih (h.readLine hline hkeep) hrest

end Reader.Good

theorem readCodes_append (userDefined : Bool) (gcodes : List GeckoCode) (lines : List Str) :
    readCodes userDefined gcodes lines = gcodes ++ readCodes userDefined [] lines := by
  have hadd : ∀ r : Reader, Reader.addCode ⟨gcodes ++ r.gcodes, r.gcode⟩ = gcodes ++ r.addCode := by
    intro r
    rw [Reader.addCode, Reader.addCode]
    split
    · exact List.append_assoc ..
    · rfl
  have hline : ∀ (r : Reader) (line : Str), Reader.readLine userDefined ⟨gcodes ++ r.gcodes, r.gcode⟩ line =
      ⟨gcodes ++ (r.readLine userDefined line).gcodes, (r.readLine userDefined line).gcode⟩ := by
    intro r line
    rw [Reader.readLine, Reader.readLine]
    split
    · rw [hadd]
    · rw [hadd]
    · rfl
    · rfl
  have hrun : ∀ (lines : List Str) (r : Reader), lines.foldl (Reader.readLine userDefined) ⟨gcodes ++ r.gcodes, r.gcode⟩ =
      ⟨gcodes ++ (lines.foldl (Reader.readLine userDefined) r).gcodes,
        (lines.foldl (Reader.readLine userDefined) r).gcode⟩ := by
    intro lines
    induction lines with
    | nil => exact fun _ => rfl
    | cons line lines ih =>
        intro r
        rw [List.foldl_cons, List.foldl_cons, hline, ih]
  have hstart := hrun (lines.filter keepsLine) ⟨[], {}⟩
  rw [List.append_nil] at hstart
  rw [readCodes, hstart, hadd, readCodes]

theorem readCodes_good (userDefined : Bool) (ini : IniFile) (sectionName : Str) :
    ∀ code ∈ readCodes userDefined [] (ini.getLines sectionName false),
      code.Read ∧ code.name ≠ [] ∧ code.userDefined = userDefined ∧ code.defaultEnabled = false := by
  have hlines : ∀ line ∈ ini.getLines sectionName false, Stripped line := by
    intro line hline
    rw [IniFile.getLines] at hline
    split at hline
    · cases hline
    · obtain ⟨raw, -, rfl⟩ := List.mem_map.mp hline
      exact stripped_stripWhitespace raw
  have hstart : Reader.Good userDefined ⟨[], {}⟩ :=
    ⟨fun _ h => absurd h List.not_mem_nil,
      ⟨rfl, List.not_mem_nil, List.not_mem_nil, fun _ h => absurd h List.not_mem_nil,
        fun _ h => absurd h List.not_mem_nil⟩,
      fun h => absurd rfl h, rfl⟩
  apply (hstart.run _).addCode
  intro line hline
  obtain ⟨hmem, hkeep⟩ := List.mem_filter.mp hline
  exact ⟨hlines line hmem, hkeep⟩

end Karphin.Gecko

/-!
## Reading the codes that were saved

The lines of a code are read as the code, though as one that is not enabled.
-/

namespace Karphin.Gecko

open Common Lib

def GeckoCode.disable (code : GeckoCode) : GeckoCode := { code with enabled := false }

structure GeckoCode.Saved (code : GeckoCode) : Prop where
  read : code.Read
  name : code.name ≠ []
  user : code.userDefined = true
  default : code.defaultEnabled = false

variable {code : GeckoCode}

theorem takeWhile_name (h : code.Read) (rest : Str) :
    (code.name ++ rest).takeWhile (· ≠ '[') = code.name ++ rest.takeWhile (· ≠ '[') ∧
      (code.name ++ rest).dropWhile (· ≠ '[') = rest.dropWhile (· ≠ '[') := by
  have hne : ∀ c ∈ code.name, decide (c ≠ '[') = true := by
    intro c hc
    rw [decide_eq_true_iff]
    rintro rfl
    exact h.bracket hc
  exact ⟨List.takeWhile_append_of_pos hne, List.dropWhile_append_of_pos hne⟩

theorem titleCode_title (h : code.Read) : titleCode true false ((makeGeckoCodeTitle code).drop 1) =
    { name := code.name, creator := code.creator, userDefined := true } := by
  have hname : stripWhitespace code.name = code.name := h.name
  by_cases hcreator : code.creator = []
  · obtain ⟨htake, hdrop⟩ := takeWhile_name h []
    rw [makeGeckoCodeTitle, if_neg (not_not.mpr hcreator), List.append_nil, List.drop_succ_cons, List.drop_zero]
    rw [List.append_nil, List.takeWhile_nil, List.append_nil] at htake
    rw [List.append_nil, List.dropWhile_nil] at hdrop
    rw [titleCode, htake, hdrop, hname, hcreator]
    rfl
  · obtain ⟨htake, hdrop⟩ := takeWhile_name h (" [".toList ++ code.creator ++ [']'])
    have hne : ∀ c ∈ code.creator, decide (c ≠ ']') = true := by
      intro c hc
      rw [decide_eq_true_iff]
      rintro rfl
      exact h.creator hc
    have hspace : (" [".toList ++ code.creator ++ [']']).takeWhile (· ≠ '[') = [' '] := rfl
    have hopen : (" [".toList ++ code.creator ++ [']']).dropWhile (· ≠ '[') = '[' :: (code.creator ++ [']']) := rfl
    have hlong : stripWhitespace (code.name ++ [' ']) = code.name := by
      rw [stripWhitespace, trim_concat (by decide)]
      exact h.name
    rw [makeGeckoCodeTitle, if_pos hcreator, List.cons_append, List.drop_succ_cons, List.drop_zero, titleCode, htake,
      hdrop, hspace, hopen, hlong, List.drop_succ_cons, List.drop_zero, List.takeWhile_append_of_pos hne,
      List.takeWhile_cons_of_neg (by simp), List.append_nil]

theorem readLine_title (r : Reader) (h : code.Read) : r.readLine true (makeGeckoCodeTitle code) =
    ⟨r.addCode, { name := code.name, creator := code.creator, userDefined := true }⟩ := by
  have hhead : (makeGeckoCodeTitle code).head? = some '$' := rfl
  rw [Reader.readLine, hhead, titleCode_title h]
  rfl

theorem readLine_codes (r : Reader) {codes : List Code} (h : ∀ c ∈ codes, c = codeLine c.originalLine ∧
    c.originalLine.head? ∉ [some '+', some '$', some '*']) :
    (codes.map Code.originalLine).foldl (Reader.readLine true) r =
      { r with gcode := { r.gcode with codes := r.gcode.codes ++ codes } } := by
  induction codes generalizing r with
  | nil => rw [List.append_nil]; rfl
  | cons c codes ih =>
      obtain ⟨⟨hc, hhead⟩, hrest⟩ := List.forall_mem_cons.mp h
      have hline : r.readLine true c.originalLine =
          { r with gcode := { r.gcode with codes := r.gcode.codes ++ [c] } } := by
        simp only [List.mem_cons, List.not_mem_nil, or_false, not_or] at hhead
        rw [Reader.readLine]
        split
        next hplus => exact absurd hplus hhead.1
        next hdollar => exact absurd hdollar hhead.2.1
        next hstar => exact absurd hstar hhead.2.2
        next => rw [← hc]
      rw [List.map_cons, List.foldl_cons, hline, ih _ hrest, List.append_assoc, List.singleton_append]

theorem readLine_notes (r : Reader) (notes : List Str) :
    (notes.map fun note => '*' :: note).foldl (Reader.readLine true) r =
      { r with gcode := { r.gcode with notes := r.gcode.notes ++ notes } } := by
  induction notes generalizing r with
  | nil => rw [List.append_nil]; rfl
  | cons note notes ih =>
      have hline : r.readLine true ('*' :: note) =
          { r with gcode := { r.gcode with notes := r.gcode.notes ++ [note] } } := rfl
      rw [List.map_cons, List.foldl_cons, hline, ih, List.append_assoc, List.singleton_append]

theorem readLines_saved (r : Reader) (h : code.Saved) :
    (saveGeckoCode code).foldl (Reader.readLine true) r = ⟨r.addCode, code.disable⟩ := by
  have hcodes : ∀ c ∈ code.codes, c = codeLine c.originalLine ∧ c.originalLine.head? ∉ [some '+', some '$', some '*'] :=
    fun c hc => ⟨(h.read.codeLines c hc).1, (h.read.codeLines c hc).2.2.2⟩
  rw [saveGeckoCode, if_pos h.user, List.cons_append, List.foldl_cons, readLine_title r h.read, List.foldl_append,
    readLine_codes _ hcodes, readLine_notes, GeckoCode.disable, h.user, h.default, List.nil_append, List.nil_append]

theorem line_of_mem_saveGeckoCode (h : code.Read) : ∀ line ∈ saveGeckoCode code,
    stripWhitespace line = line ∧ keepsLine line = true := by
  intro line hline
  rw [saveGeckoCode] at hline
  split at hline
  · rw [List.cons_append, List.mem_cons, List.mem_append] at hline
    rcases hline with rfl | hcode | hnote
    · refine ⟨?_, rfl⟩
      rw [makeGeckoCodeTitle]
      split
      · apply stripped_of_ends
        · intro c hc
          cases hc
          rfl
        · intro c hc
          rw [← List.append_assoc, List.getLast?_concat] at hc
          cases hc
          rfl
      · rw [List.append_nil]
        exact stripped_dollar h.name
    · obtain ⟨c, hc, rfl⟩ := List.mem_map.mp hcode
      obtain ⟨-, hstripped, hkeep, -⟩ := h.codeLines c hc
      exact ⟨hstripped, hkeep⟩
    · obtain ⟨note, hmem, rfl⟩ := List.mem_map.mp hnote
      exact ⟨h.note note hmem, rfl⟩
  · cases hline

theorem readCodes_saved {codes : List GeckoCode} (h : ∀ code ∈ codes, code.Saved) :
    readCodes true [] ((codes.flatMap saveGeckoCode).map stripWhitespace) = codes.map GeckoCode.disable := by
  have hlines : ∀ line ∈ codes.flatMap saveGeckoCode, stripWhitespace line = line ∧ keepsLine line = true := by
    intro line hline
    obtain ⟨code, hcode, hline⟩ := List.mem_flatMap.mp hline
    exact line_of_mem_saveGeckoCode (h code hcode).read line hline
  have hrun : ∀ (codes : List GeckoCode) (r : Reader), (∀ code ∈ codes, code.Saved) →
      ((codes.flatMap saveGeckoCode).foldl (Reader.readLine true) r).addCode =
        r.addCode ++ codes.map GeckoCode.disable := by
    intro codes
    induction codes with
    | nil => exact fun r _ => (List.append_nil _).symm
    | cons code codes ih =>
        intro r h
        obtain ⟨hcode, hrest⟩ := List.forall_mem_cons.mp h
        have hadd : Reader.addCode ⟨r.addCode, code.disable⟩ = r.addCode ++ [code.disable] := if_pos hcode.name
        rw [List.flatMap_cons, List.foldl_append, readLines_saved r hcode, ih _ hrest, hadd, List.map_cons,
          List.append_assoc, List.singleton_append]
  rw [List.map_congr_left fun line hline => (hlines line hline).1, List.map_id', readCodes,
    List.filter_eq_self.mpr fun line hline => (hlines line hline).2, hrun codes _ h]
  rfl

end Karphin.Gecko
