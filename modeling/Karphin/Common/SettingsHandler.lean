import Karphin.Lib.FinNumerals
import Karphin.Lib.Text

/-!
# `setting.txt`

Settings are lines of a key and a value, encrypted byte for byte with a key that rotates. A decoder stops at a byte of zero, so
a line that would encrypt to one is written again behind a line feed.
-/

namespace Karphin.Common

open Lib

def settingsSize : Nat := 0x100

def initialSeed : UInt32 := 0x73B5DBFA

def lf : UInt8 := 0x0A
def cr : UInt8 := 0x0D
def equals : UInt8 := 0x3D

def rotateKey (key : UInt32) : UInt32 := (key >>> 31) ||| (key <<< 1)

structure SettingsHandler where
  buffer : Vector UInt8 settingsSize
  position : Nat
  key : UInt32
  decoded : List UInt8
  position_le : position ≤ settingsSize

namespace SettingsHandler

/-- `SettingsHandler::SettingsHandler()` -/
def fresh : SettingsHandler where
  buffer := Vector.replicate settingsSize 0
  position := 0
  key := initialSeed
  decoded := []
  position_le := Nat.zero_le _

def decryptBytes : List UInt8 → UInt32 → List UInt8
  | [], _ => []
  | byte :: bytes, key => (byte ^^^ key.toUInt8) :: decryptBytes bytes (rotateKey key)

def decrypt (handler : SettingsHandler) : SettingsHandler where
  buffer := handler.buffer
  position := settingsSize
  key := rotateKey^[settingsSize - handler.position] handler.key
  decoded :=
    (handler.decoded ++ decryptBytes (handler.buffer.toList.drop handler.position) handler.key).filter (· ≠ cr)
  position_le := le_rfl

/-- `SettingsHandler::SettingsHandler(const Buffer& buffer)` -/
def ofBuffer (buffer : Vector UInt8 settingsSize) : SettingsHandler := decrypt { fresh with buffer }

def getBytes (handler : SettingsHandler) : Vector UInt8 settingsSize := handler.buffer

def valueFrom (decoded : List UInt8) (start : Nat) : List UInt8 :=
  let delimFound :=
    match find [lf] (decoded.drop start) with
    | some i => start + i
    | none => decoded.length - 1
  (decoded.drop start).take (delimFound - start)

def getValue (handler : SettingsHandler) (key : List UInt8) : List UInt8 :=
  match find (lf :: (key ++ [equals])) handler.decoded with
  | some found => valueFrom handler.decoded (found + (key.length + 2))
  | none =>
      if find (key ++ [equals]) handler.decoded = some 0 then valueFrom handler.decoded (key.length + 1) else []

def writeByte (handler : SettingsHandler) (byte : UInt8) : SettingsHandler :=
  if hposition : handler.position < settingsSize then
    { handler with
      buffer := handler.buffer.set handler.position (byte ^^^ handler.key.toUInt8)
      position := handler.position + 1
      key := rotateKey handler.key
      position_le := hposition }
  else handler

/-- `WriteLine`, which calls itself behind a line feed where the line has encrypted to a byte of zero. -/
def writeLine : Nat → SettingsHandler → List UInt8 → Option SettingsHandler
  | 0, _, _ => none
  | fuel + 1, handler, str =>
      let written := str.foldl writeByte handler
      if 0 ∈ (written.buffer.toList.take written.position).drop handler.position then
        let back := { written with position := handler.position, key := handler.key, position_le := handler.position_le }
        writeLine fuel (back.writeByte lf) str
      else some written

def settingLine (setting : List UInt8 × List UInt8) : List UInt8 := setting.1 ++ equals :: setting.2

def addSetting (fuel : Nat) (handler : SettingsHandler) (setting : List UInt8 × List UInt8) : Option SettingsHandler :=
  writeLine fuel handler (settingLine setting ++ [cr, lf])

def addSettings (fuel : Nat) (settings : List (List UInt8 × List UInt8)) : Option SettingsHandler :=
  settings.foldlM (addSetting fuel) fresh

/-! ## The key -/

def keyAt (i : Nat) : UInt32 := rotateKey^[i] initialSeed

theorem keyAt_succ (i : Nat) : keyAt (i + 1) = rotateKey (keyAt i) := Function.iterate_succ_apply' rotateKey i initialSeed

theorem keyAt_add_period (i : Nat) : keyAt (i + 32) = keyAt i := by
  rw [keyAt, Function.iterate_add_apply]
  rfl

theorem keyAt_ne (i : Nat) : (keyAt i).toUInt8 ≠ lf ∧ (keyAt i).toUInt8 ≠ equals := by
  induction i using Nat.strong_induction_on with
  | _ i ih =>
      rcases Nat.lt_or_ge i 32 with hlt | hge
      · have hall : ∀ j < 32, (keyAt j).toUInt8 ≠ lf ∧ (keyAt j).toUInt8 ≠ equals := by decide
        exact hall i hlt
      · have hback := keyAt_add_period (i - 32)
        rw [Nat.sub_add_cancel hge] at hback
        rw [hback]
        exact ih (i - 32) (by omega)

theorem decryptBytes_getElem? (bytes : List UInt8) (key : UInt32) (i : Nat) :
    (decryptBytes bytes key)[i]? = bytes[i]?.map (· ^^^ (rotateKey^[i] key).toUInt8) := by
  induction bytes generalizing key i with
  | nil => simp [decryptBytes]
  | cons byte bytes ih =>
      cases i with
      | zero => simp [decryptBytes]
      | succ i => simpa [decryptBytes, Function.iterate_succ_apply] using ih (rotateKey key) i

/-! ## Writing -/

structure Holds (handler : SettingsHandler) (text : List UInt8) : Prop where
  position : handler.position = text.length
  key : handler.key = keyAt text.length
  bytes : ∀ i < text.length, handler.buffer[i]? = text[i]?.map (· ^^^ (keyAt i).toUInt8)

def ZeroFrom (buffer : Vector UInt8 settingsSize) (position : Nat) : Prop :=
  ∀ i < settingsSize, position ≤ i → buffer[i]? = some 0

theorem holds_fresh : Holds fresh [] where
  position := rfl
  key := rfl
  bytes i h := absurd h (Nat.not_lt_zero i)

theorem zeroFrom_fresh : ZeroFrom fresh.buffer 0 := by
  intro i hi _
  simp [fresh, hi]

theorem ZeroFrom.mono {buffer : Vector UInt8 settingsSize} {position position' : Nat} (h : ZeroFrom buffer position)
    (hle : position ≤ position') : ZeroFrom buffer position' :=
  fun i hi hpos => h i hi (hle.trans hpos)

theorem writeByte_holds {handler : SettingsHandler} {text : List UInt8} (h : handler.Holds text)
    (hroom : text.length < settingsSize) (byte : UInt8) :
    (handler.writeByte byte).Holds (text ++ [byte]) ∧
      ∀ i > text.length, (handler.writeByte byte).buffer[i]? = handler.buffer[i]? := by
  have hposition : handler.position < settingsSize := h.position ▸ hroom
  rw [writeByte, dif_pos hposition]
  refine ⟨⟨?_, ?_, ?_⟩, ?_⟩
  · rw [List.length_append, List.length_singleton]
    exact congrArg (· + 1) h.position
  · rw [List.length_append, List.length_singleton, keyAt_succ]
    exact congrArg rotateKey h.key
  · intro i hi
    rw [List.length_append, List.length_singleton] at hi
    rcases Nat.lt_succ_iff_lt_or_eq.mp hi with hlt | rfl
    · rw [Vector.getElem?_set_ne _ (by rw [h.position]; exact (Nat.ne_of_lt hlt).symm), h.bytes i hlt,
        List.getElem?_append_left hlt]
    · simp [h.position, h.key]
  · intro i hi
    exact Vector.getElem?_set_ne hposition (by rw [h.position]; exact Nat.ne_of_lt hi)

theorem foldl_writeByte {handler : SettingsHandler} {text : List UInt8} (h : handler.Holds text)
    (str : List UInt8) (hroom : text.length + str.length ≤ settingsSize) :
    (str.foldl writeByte handler).Holds (text ++ str) ∧
      ∀ i ≥ text.length + str.length, (str.foldl writeByte handler).buffer[i]? = handler.buffer[i]? := by
  induction str generalizing handler text with
  | nil => exact ⟨by rwa [List.append_nil], fun _ _ => rfl⟩
  | cons byte str ih =>
      rw [List.length_cons] at hroom
      obtain ⟨hholds, hsame⟩ := writeByte_holds h (by omega) byte
      have hlength : (text ++ [byte]).length = text.length + 1 := by simp
      obtain ⟨hall, hrest⟩ := ih hholds (by omega)
      rw [List.append_assoc, List.singleton_append] at hall
      refine ⟨hall, fun i hi => ?_⟩
      rw [List.length_cons] at hi
      exact (hrest i (by omega)).trans (hsame i (by omega))

theorem position_writeByte (handler : SettingsHandler) (byte : UInt8) :
    (handler.writeByte byte).position = min settingsSize (handler.position + 1) := by
  rw [writeByte]
  split
  next h => exact (Nat.min_eq_right h).symm
  next h => exact le_antisymm (le_min handler.position_le (Nat.le_succ _)) ((Nat.min_le_left _ _).trans (Nat.not_lt.mp h))

theorem position_foldl_writeByte (str : List UInt8) (handler : SettingsHandler) :
    (str.foldl writeByte handler).position = min settingsSize (handler.position + str.length) := by
  induction str generalizing handler with
  | nil => exact (Nat.min_eq_right handler.position_le).symm
  | cons byte str ih =>
      rw [List.foldl_cons, ih, List.length_cons, position_writeByte]
      omega

def NoZero (text : List UInt8) : Prop := ∀ i, text[i]? ≠ some (keyAt i).toUInt8

theorem noZero_nil : NoZero [] := by
  intro i
  simp

theorem NoZero.append {text str : List UInt8} (htext : NoZero text)
    (hstr : ∀ i < str.length, str[i]? ≠ some (keyAt (text.length + i)).toUInt8) : NoZero (text ++ str) := by
  intro i
  rcases Nat.lt_or_ge i text.length with hlt | hge
  · rw [List.getElem?_append_left hlt]
    exact htext i
  · rw [List.getElem?_append_right hge]
    intro heq
    have hlt := (List.getElem?_eq_some_iff.mp heq).1
    refine hstr _ hlt ?_
    rwa [Nat.add_sub_cancel' hge]

theorem NoZero.append_lf {text : List UInt8} (htext : NoZero text) : NoZero (text ++ [lf]) := by
  refine htext.append ?_
  intro i hi heq
  obtain rfl : i = 0 := by simpa using hi
  exact (keyAt_ne text.length).1 (Option.some.inj heq).symm

theorem Holds.noZero_iff {handler : SettingsHandler} {text : List UInt8} (h : handler.Holds text) {i : Nat}
    (hi : i < text.length) : handler.buffer[i]? ≠ some 0 ↔ text[i]? ≠ some (keyAt i).toUInt8 := by
  rw [h.bytes i hi, List.getElem?_eq_getElem hi]
  simp [UInt8.xor_eq_zero_iff]

theorem Holds.of_append {handler : SettingsHandler} {text str : List UInt8} (h : handler.Holds (text ++ str))
    (hle : text.length ≤ settingsSize) :
    Holds { handler with position := text.length, key := keyAt text.length, position_le := hle } text where
  position := rfl
  key := rfl
  bytes i hi := by
    have hbyte := h.bytes i (by rw [List.length_append]; omega)
    rwa [List.getElem?_append_left hi] at hbyte

theorem le_position_writeLine {fuel : Nat} {handler handler' : SettingsHandler} {str : List UInt8}
    (h : writeLine fuel handler str = some handler') :
    min settingsSize (handler.position + str.length) ≤ handler'.position := by
  induction fuel generalizing handler with
  | zero => cases h
  | succ fuel ih =>
      rw [writeLine] at h
      split at h
      next =>
        have hle := ih h
        rw [position_writeByte] at hle
        dsimp only at hle
        omega
      next =>
        cases h
        rw [position_foldl_writeByte]

theorem writeLine_terminates (handler : SettingsHandler) (str : List UInt8) :
    ∃ handler', ∀ fuel > settingsSize - handler.position, writeLine fuel handler str = some handler' := by
  generalize hn : settingsSize - handler.position = n
  induction n generalizing handler with
  | zero =>
      refine ⟨str.foldl writeByte handler, fun fuel hfuel => ?_⟩
      obtain ⟨fuel, rfl⟩ := Nat.exists_eq_succ_of_ne_zero (Nat.ne_of_gt hfuel)
      have hempty : ((str.foldl writeByte handler).buffer.toList.take (str.foldl writeByte handler).position).drop
          handler.position = [] := by
        rw [List.drop_eq_nil_iff, List.length_take, position_foldl_writeByte]
        omega
      rw [writeLine, if_neg (by rw [hempty]; exact List.not_mem_nil)]
  | succ n ih =>
      have hroom : handler.position < settingsSize := by omega
      have hnext : ∀ buffer : Vector UInt8 settingsSize, ∀ decoded,
          settingsSize - (writeByte ⟨buffer, handler.position, handler.key, decoded, handler.position_le⟩ lf).position
            = n := by
        intro buffer decoded
        rw [position_writeByte]
        dsimp only
        omega
      by_cases hzero : 0 ∈ ((str.foldl writeByte handler).buffer.toList.take (str.foldl writeByte handler).position).drop
          handler.position
      · obtain ⟨handler', hall⟩ := ih _ (hnext (str.foldl writeByte handler).buffer (str.foldl writeByte handler).decoded)
        refine ⟨handler', fun fuel hfuel => ?_⟩
        obtain ⟨fuel, rfl⟩ := Nat.exists_eq_succ_of_ne_zero (Nat.ne_of_gt (Nat.zero_lt_of_lt hfuel))
        rw [writeLine, if_pos hzero]
        exact hall fuel (by omega)
      · refine ⟨str.foldl writeByte handler, fun fuel hfuel => ?_⟩
        obtain ⟨fuel, rfl⟩ := Nat.exists_eq_succ_of_ne_zero (Nat.ne_of_gt (Nat.zero_lt_of_lt hfuel))
        rw [writeLine, if_neg hzero]

/-- A handler whose bytes hold a text without zeros, and nothing behind it. -/
structure Wrote (handler : SettingsHandler) (text : List UInt8) : Prop where
  holds : handler.Holds text
  noZero : NoZero text
  zeros : ZeroFrom handler.buffer text.length

theorem writeLine_wrote {fuel : Nat} {handler handler' : SettingsHandler} {text str : List UInt8}
    (h : writeLine fuel handler str = some handler') (hholds : handler.Holds text) (hno : NoZero text)
    (hzeros : ZeroFrom handler.buffer (text.length + str.length)) (hroom : handler'.position < settingsSize) :
    ∃ feeds, handler'.Wrote (text ++ (List.replicate feeds lf ++ str)) := by
  induction fuel generalizing handler text with
  | zero => cases h
  | succ fuel ih =>
      have hle := le_position_writeLine h
      rw [hholds.position] at hle
      have hfits : text.length + str.length < settingsSize := by omega
      obtain ⟨hwritten, hsame⟩ := foldl_writeByte hholds str hfits.le
      have hbeyond : ZeroFrom (str.foldl writeByte handler).buffer (text.length + str.length) :=
        fun i hi hpos => (hsame i hpos).trans (hzeros i hi hpos)
      rw [writeLine] at h
      split at h
      next =>
        have hback := hwritten.of_append (by omega)
        obtain ⟨hlf, hkept⟩ := writeByte_holds hback (by omega) lf
        have hlength : (text ++ [lf]).length = text.length + 1 := by simp
        have hzeros' : ZeroFrom _ ((text ++ [lf]).length + str.length) := fun i hi hpos =>
          (hkept i (by omega)).trans (hbeyond i hi (by omega))
        simp only [hholds.position, hholds.key] at h
        obtain ⟨feeds, hfeeds⟩ := ih h hlf hno.append_lf hzeros'
        refine ⟨feeds + 1, ?_⟩
        rwa [List.append_assoc, ← List.append_assoc [lf]] at hfeeds
      next hnone =>
        cases h
        have hstr : ∀ i < str.length, str[i]? ≠ some (keyAt (text.length + i)).toUInt8 := ?_
        · exact ⟨0, hwritten, hno.append hstr, by rwa [List.replicate_zero, List.nil_append, List.length_append]⟩
        intro i hi heq
        have hlt : text.length + i < (text ++ str).length := by rw [List.length_append]; omega
        have hbyte : (str.foldl writeByte handler).buffer[text.length + i]? = some 0 := by
          by_contra hne
          have := (hwritten.noZero_iff hlt).mp hne
          rw [List.getElem?_append_right (Nat.le_add_right _ _), Nat.add_sub_cancel_left] at this
          exact this heq
        refine hnone (List.mem_iff_getElem?.mpr ⟨i, ?_⟩)
        rw [List.getElem?_drop, hholds.position, List.getElem?_take_of_lt (by rw [hwritten.position]; exact hlt),
          ← hbyte]
        simp

/-! ## The settings -/

/-- Keys and values that stand on one line each, and keys that differ. -/
structure Writable (settings : List (List UInt8 × List UInt8)) : Prop where
  keys : (settings.map Prod.fst).Nodup
  nonempty : ∀ setting ∈ settings, setting.1 ≠ []
  key : ∀ setting ∈ settings, cr ∉ setting.1 ∧ lf ∉ setting.1 ∧ equals ∉ setting.1
  value : ∀ setting ∈ settings, cr ∉ setting.2 ∧ lf ∉ setting.2

theorem Writable.not_mem_line {settings : List (List UInt8 × List UInt8)} (h : Writable settings)
    {setting : List UInt8 × List UInt8} (hmem : setting ∈ settings) :
    cr ∉ settingLine setting ∧ lf ∉ settingLine setting := by
  obtain ⟨hcr, hlf, -⟩ := h.key setting hmem
  obtain ⟨hcr', hlf'⟩ := h.value setting hmem
  have hne : cr ≠ equals ∧ lf ≠ equals := by decide
  simp [settingLine, hcr, hlf, hcr', hlf', hne]

def Lines (settings : List (List UInt8 × List UInt8)) (text : List UInt8) : Prop :=
  ∃ lines : List (List UInt8), text.filter (· ≠ cr) = lines.flatMap (· ++ [lf]) ∧
    lines.filter (· ≠ []) = settings.map settingLine

theorem lines_nil : Lines [] [] := ⟨[], rfl, rfl⟩

theorem Lines.append {settings : List (List UInt8 × List UInt8)} {text : List UInt8} (h : Lines settings text)
    {setting : List UInt8 × List UInt8} (hcr : cr ∉ settingLine setting) (feeds : Nat) :
    Lines (settings ++ [setting]) (text ++ (List.replicate feeds lf ++ (settingLine setting ++ [cr, lf]))) := by
  obtain ⟨lines, htext, hlines⟩ := h
  refine ⟨lines ++ (List.replicate feeds [] ++ [settingLine setting]), ?_, ?_⟩
  · have hkept : (settingLine setting).filter (· ≠ cr) = settingLine setting :=
      List.filter_eq_self.mpr fun c hc => decide_eq_true fun heq => hcr (heq ▸ hc)
    have hfeeds : (List.replicate feeds lf).filter (· ≠ cr) = (List.replicate feeds []).flatMap (· ++ [lf]) := by
      induction feeds with
      | zero => rfl
      | succ feeds ih => rw [List.replicate_succ, List.replicate_succ, List.flatMap_cons, ← ih]; rfl
    rw [List.filter_append, List.filter_append, List.filter_append, htext, hkept, hfeeds, List.flatMap_append,
      List.flatMap_append, List.flatMap_singleton]
    rfl
  · have hne : settingLine setting ≠ [] := by simp [settingLine]
    simpa [hne] using hlines

theorem addSettings_wrote {fuel : Nat} {settings : List (List UInt8 × List UInt8)} {handler : SettingsHandler}
    (h : addSettings fuel settings = some handler) (hwritable : ∀ setting ∈ settings, cr ∉ settingLine setting)
    (hroom : handler.position < settingsSize) : ∃ text, handler.Wrote text ∧ Lines settings text := by
  induction settings using List.reverseRecOn generalizing handler with
  | nil =>
      cases h
      exact ⟨[], ⟨holds_fresh, noZero_nil, zeroFrom_fresh⟩, lines_nil⟩
  | append_singleton settings setting ih =>
      rw [addSettings, List.foldlM_append] at h
      obtain ⟨before, hbefore, hlast⟩ := Option.bind_eq_some_iff.mp h
      rw [List.foldlM_cons] at hlast
      obtain ⟨last, hlast, heq⟩ := Option.bind_eq_some_iff.mp hlast
      cases heq
      have hle := le_position_writeLine hlast
      obtain ⟨text, hwrote, hlines⟩ := ih hbefore (fun other hother => hwritable other (List.mem_append_left _ hother))
        (by omega)
      obtain ⟨feeds, hfeeds⟩ := writeLine_wrote hlast hwrote.holds hwrote.noZero
        (hwrote.zeros.mono (Nat.le_add_right _ _)) hroom
      exact ⟨_, hfeeds, hlines.append (hwritable setting (by simp)) feeds⟩

theorem addSettings_terminates (settings : List (List UInt8 × List UInt8)) :
    ∃ handler, ∀ fuel > settingsSize, addSettings fuel settings = some handler := by
  induction settings using List.reverseRecOn with
  | nil => exact ⟨fresh, fun _ _ => rfl⟩
  | append_singleton settings setting ih =>
      obtain ⟨before, hbefore⟩ := ih
      obtain ⟨handler, hhandler⟩ := writeLine_terminates before (settingLine setting ++ [cr, lf])
      refine ⟨handler, fun fuel hfuel => ?_⟩
      have hall := hbefore fuel hfuel
      rw [addSettings] at hall ⊢
      rw [List.foldlM_append, hall]
      simpa [addSetting] using hhandler fuel (by omega)

/-! ## Reading -/

theorem Wrote.decoded_ofBuffer {handler : SettingsHandler} {text : List UInt8} (h : handler.Wrote text) :
    ∃ rest, (ofBuffer handler.getBytes).decoded = text.filter (· ≠ cr) ++ rest ∧ lf ∉ rest ∧ equals ∉ rest := by
  have hbyte := decryptBytes_getElem? handler.buffer.toList initialSeed
  have hprefix : text <+: decryptBytes handler.buffer.toList initialSeed := by
    rw [List.prefix_iff_getElem?]
    intro i hi
    rw [hbyte, Vector.getElem?_toList, h.holds.bytes i hi, List.getElem?_eq_getElem hi]
    simp [keyAt, UInt8.xor_assoc]
  obtain ⟨rest, hsplit⟩ := hprefix
  have hrest : ∀ byte ∈ rest, byte ≠ lf ∧ byte ≠ equals := by
    intro byte hmem
    obtain ⟨i, hi⟩ := List.mem_iff_getElem?.mp hmem
    have hstored := hbyte (text.length + i)
    rw [← hsplit, List.getElem?_append_right (Nat.le_add_right _ _), Nat.add_sub_cancel_left, hi,
      Vector.getElem?_toList] at hstored
    obtain ⟨stored, hstored, hxor⟩ := Option.map_eq_some_iff.mp hstored.symm
    have hlt : text.length + i < settingsSize := (Vector.getElem?_eq_some_iff.mp hstored).1
    rw [h.zeros _ hlt (Nat.le_add_right _ _)] at hstored
    cases hstored
    rw [← hxor, UInt8.zero_xor]
    exact keyAt_ne (text.length + i)
  refine ⟨rest.filter (· ≠ cr), ?_, ?_, ?_⟩
  · have hdecoded : (ofBuffer handler.getBytes).decoded =
        (decryptBytes handler.buffer.toList initialSeed).filter (· ≠ cr) := rfl
    rw [hdecoded, ← hsplit, List.filter_append]
  · exact fun hmem => (hrest _ (List.mem_of_mem_filter hmem)).1 rfl
  · exact fun hmem => (hrest _ (List.mem_of_mem_filter hmem)).2 rfl

theorem valueFrom_eq {decoded before value : List UInt8} (after : List UInt8)
    (h : decoded = before ++ (value ++ lf :: after)) (hlf : lf ∉ value) : valueFrom decoded before.length = value := by
  rw [valueFrom, h, List.drop_left, find_delim_append hlf]
  simp

theorem not_prefix_settingLine {key : List UInt8} {other : List UInt8 × List UInt8} (hkey : equals ∉ key)
    (hother : equals ∉ other.1) (hne : key ≠ other.1) : ¬key ++ [equals] <+: settingLine other := by
  rintro ⟨t, ht⟩
  rw [List.append_assoc, List.singleton_append, settingLine] at ht
  have hlength := (find_delim_append (s := t) hkey).symm.trans ((congrArg _ ht).trans (find_delim_append hother))
  exact hne (List.append_inj ht (Option.some.inj hlength)).1

theorem exists_line {settings : List (List UInt8 × List UInt8)} (h : Writable settings)
    {setting : List UInt8 × List UInt8} (hmem : setting ∈ settings) {lines : List (List UInt8)}
    (hlines : lines.filter (· ≠ []) = settings.map settingLine) :
    ∃ before after, lines = before ++ settingLine setting :: after ∧
      ∀ line, line ∈ before ∨ line ∈ after → lf ∉ line ∧ ¬setting.1 ++ [equals] <+: line := by
  obtain ⟨first, last, rfl⟩ := List.append_of_mem hmem
  rw [List.map_append, List.map_cons] at hlines
  obtain ⟨before, middle, rfl, hbefore, hmiddle⟩ := List.filter_eq_append_iff.mp hlines
  obtain ⟨empty, after, rfl, hempty, -, hafter⟩ := List.filter_eq_cons_iff.mp hmiddle
  refine ⟨before ++ empty, after, by rw [List.append_assoc], ?_⟩
  have hnil : lf ∉ ([] : List UInt8) ∧ ¬setting.1 ++ [equals] <+: [] := by simp
  have hline : ∀ other, other ∈ first ∨ other ∈ last →
      lf ∉ settingLine other ∧ ¬setting.1 ++ [equals] <+: settingLine other := by
    intro other hother
    have hall : other ∈ first ++ setting :: last := by
      rcases hother with hother | hother
      · exact List.mem_append_left _ hother
      · exact List.mem_append_right _ (List.mem_cons_of_mem _ hother)
    have hne : setting.1 ≠ other.1 := by
      have hkeys := h.keys
      rw [List.map_append, List.map_cons, List.nodup_append, List.nodup_cons] at hkeys
      rcases hother with hother | hother
      · exact fun heq => hkeys.2.2 other.1 (List.mem_map_of_mem hother) setting.1 List.mem_cons_self heq.symm
      · exact fun heq => hkeys.2.1.1 (heq ▸ List.mem_map_of_mem hother)
    exact ⟨(h.not_mem_line hall).2, not_prefix_settingLine (h.key setting hmem).2.2 (h.key other hall).2.2 hne⟩
  have hfiltered : ∀ line, line ∈ before.filter (· ≠ []) ∨ line ∈ after.filter (· ≠ []) →
      lf ∉ line ∧ ¬setting.1 ++ [equals] <+: line := by
    rintro line (hmem | hmem)
    · rw [hbefore] at hmem
      obtain ⟨other, hother, rfl⟩ := List.mem_map.mp hmem
      exact hline other (.inl hother)
    · rw [hafter] at hmem
      obtain ⟨other, hother, rfl⟩ := List.mem_map.mp hmem
      exact hline other (.inr hother)
  intro line hmem
  by_cases hne : line = []
  · exact hne ▸ hnil
  · rcases hmem with hmem | hmem
    · rcases List.mem_append.mp hmem with hmem | hmem
      · exact hfiltered line (.inl (List.mem_filter.mpr ⟨hmem, decide_eq_true hne⟩))
      · exact absurd (decide_eq_true hne) (hempty line hmem)
    · exact hfiltered line (.inr (List.mem_filter.mpr ⟨hmem, decide_eq_true hne⟩))

theorem getValue_eq {settings : List (List UInt8 × List UInt8)} (h : Writable settings) {handler : SettingsHandler}
    {lines : List (List UInt8)} {rest : List UInt8}
    (hdecoded : handler.decoded = lines.flatMap (· ++ [lf]) ++ rest)
    (hlines : lines.filter (· ≠ []) = settings.map settingLine) (hlf : lf ∉ rest) (hequals : equals ∉ rest)
    {setting : List UInt8 × List UInt8} (hmem : setting ∈ settings) : handler.getValue setting.1 = setting.2 := by
  obtain ⟨before, after, rfl, hother⟩ := exists_line h hmem hlines
  have hpattern : lf ∉ setting.1 ++ [equals] := by
    have hne : lf ≠ equals := by decide
    simp [(h.key setting hmem).2.1, hne]
  have hvalue := (h.value setting hmem).2
  have hpre : setting.1 ++ [equals] <+: settingLine setting := ⟨setting.2, by simp [settingLine]⟩
  have hrest : ¬setting.1 ++ [equals] <+: rest := fun hpre => hequals (hpre.subset (by simp))
  rw [List.flatMap_append, List.flatMap_cons, List.append_assoc, List.append_assoc, List.append_assoc,
    List.singleton_append] at hdecoded
  cases before with
  | nil =>
      have hnone := find_lines_eq_none hpattern (h.not_mem_line hmem).2
        (fun line hline => hother line (.inr hline)) hlf hrest
      have hthere : find (setting.1 ++ [equals])
          (settingLine setting ++ lf :: (after.flatMap (· ++ [lf]) ++ rest)) = some 0 :=
        find_of_prefix (hpre.trans (List.prefix_append _ _))
      have hlength : setting.1.length + 1 = (setting.1 ++ [equals]).length := by simp
      rw [List.flatMap_nil, List.nil_append] at hdecoded
      rw [getValue, hdecoded, hnone]
      dsimp only
      rw [if_pos hthere, hlength]
      exact valueFrom_eq (after.flatMap (· ++ [lf]) ++ rest) (by simp [settingLine]) hvalue
  | cons first before =>
      rw [List.flatMap_cons, List.append_assoc, List.append_assoc, List.singleton_append] at hdecoded
      have hfound := find_lines hpattern (hother first (.inl List.mem_cons_self)).1
        (fun line hline => hother line (.inl (List.mem_cons_of_mem _ hline)))
        (hpre.trans (List.prefix_append _ (lf :: (after.flatMap (· ++ [lf]) ++ rest))))
      rw [getValue, hdecoded, hfound]
      dsimp only
      have hlength : first.length + (before.flatMap (· ++ [lf])).length + (setting.1.length + 2) =
          (first ++ lf :: (before.flatMap (· ++ [lf]) ++ (setting.1 ++ [equals]))).length := by
        simp
        omega
      rw [hlength]
      exact valueFrom_eq (after.flatMap (· ++ [lf]) ++ rest) (by simp [settingLine]) hvalue

/-- Adding settings ends, writes no byte of zero, and what it writes is read back where the buffer has not run full. -/
theorem addSettings_roundTrip {settings : List (List UInt8 × List UInt8)} (hwritable : Writable settings) :
    ∃ handler, (∀ fuel > settingsSize, addSettings fuel settings = some handler) ∧
      (handler.position < settingsSize →
        (∀ i < handler.position, handler.getBytes[i]? ≠ some 0) ∧
        ∀ setting ∈ settings, (ofBuffer handler.getBytes).getValue setting.1 = setting.2) := by
  obtain ⟨handler, hall⟩ := addSettings_terminates settings
  refine ⟨handler, hall, fun hroom => ?_⟩
  obtain ⟨text, hwrote, lines, htext, hlines⟩ := addSettings_wrote (hall (settingsSize + 1) (Nat.lt_succ_self _))
    (fun setting hmem => (hwritable.not_mem_line hmem).1) hroom
  refine ⟨fun i hi => ?_, fun setting hmem => ?_⟩
  · rw [hwrote.holds.position] at hi
    exact (hwrote.holds.noZero_iff hi).mpr (hwrote.noZero i)
  · obtain ⟨rest, hdecoded, hlf, hequals⟩ := hwrote.decoded_ofBuffer
    rw [htext] at hdecoded
    exact getValue_eq hwritable hdecoded hlines hlf hequals hmem

/-- A setting that is written behind two line feeds, and one behind it. -/
theorem addSettings_roundTrip_behindFeeds :
    ((addSettings 257 [([0xFA, 0xE9], [0x61]), ([0x66], [])]).map fun handler => handler.getBytes.toList.take 8) =
      some [0xF0, 0xFE, 0x13, 0x3A, 0x9A, 0x2F, 0x91, 0x33] ∧
      ∃ handler, (∀ fuel > settingsSize, addSettings fuel [([0xFA, 0xE9], [0x61]), ([0x66], [])] = some handler) ∧
        (handler.position < settingsSize →
          (∀ i < handler.position, handler.getBytes[i]? ≠ some 0) ∧
          ∀ setting ∈ [([0xFA, 0xE9], [0x61]), ([0x66], [])],
            (ofBuffer handler.getBytes).getValue setting.1 = setting.2) :=
  ⟨by decide, addSettings_roundTrip ⟨by decide, by decide, by decide, by decide⟩⟩

end SettingsHandler

end Karphin.Common
