import Karphin.Common.IniFile.Defs

/-!
# Lines that are set

The lines that are set in a section are read from it, and those of the other sections stay.
-/

namespace Karphin.Common.IniFile

variable {ini : IniFile} {s : Section} {name other : Str} {lines : List Str}

theorem setLines_cons_of_eq (h : caseInsensitiveEquals s.name name = true) :
    setLines (s :: ini) name lines = s.setLines lines :: ini := by
  rw [setLines, getOrCreateSection, List.findIdx?_cons, if_pos h]
  rfl

theorem setLines_cons_of_ne (h : caseInsensitiveEquals s.name name = false) :
    setLines (s :: ini) name lines = s :: setLines ini name lines := by
  rw [setLines, getOrCreateSection, List.findIdx?_cons, h, if_neg Bool.false_ne_true, setLines, getOrCreateSection]
  cases List.findIdx? (fun sect => caseInsensitiveEquals sect.name name) ini <;> rfl

theorem getSection_cons_of_eq (h : caseInsensitiveEquals s.name name = true) :
    getSection (s :: ini) name = some s := List.find?_cons_of_pos h

theorem getSection_cons_of_ne (h : caseInsensitiveEquals s.name name = false) :
    getSection (s :: ini) name = getSection ini name :=
  List.find?_cons_of_neg (by rw [h]; exact Bool.false_ne_true)

theorem getSection_setLines_self (ini : IniFile) (name : Str) (lines : List Str) :
    ∃ s, (ini.setLines name lines).getSection name = some s ∧ s.lines = lines := by
  induction ini with
  | nil => exact ⟨_, getSection_cons_of_eq (caseInsensitiveEquals_refl name), rfl⟩
  | cons s ini ih =>
      cases hname : caseInsensitiveEquals s.name name with
      | true =>
          rw [setLines_cons_of_eq hname]
          exact ⟨_, getSection_cons_of_eq hname, rfl⟩
      | false =>
          rw [setLines_cons_of_ne hname, getSection_cons_of_ne hname]
          exact ih

theorem getSection_setLines_of_ne (h : caseInsensitiveEquals name other = false) (ini : IniFile) (lines : List Str) :
    (ini.setLines name lines).getSection other = ini.getSection other := by
  induction ini with
  | nil => exact getSection_cons_of_ne h
  | cons s ini ih =>
      cases hname : caseInsensitiveEquals s.name name with
      | true =>
          have hother : caseInsensitiveEquals s.name other = false := by
            rw [← h, caseInsensitiveEquals, caseInsensitiveEquals, caseInsensitiveEquals_iff.mp hname]
          have hset : caseInsensitiveEquals (s.setLines lines).name other = false := hother
          rw [setLines_cons_of_eq hname, getSection_cons_of_ne hset, getSection_cons_of_ne hother]
      | false =>
          rw [setLines_cons_of_ne hname]
          cases hother : caseInsensitiveEquals s.name other with
          | true => rw [getSection_cons_of_eq hother, getSection_cons_of_eq hother]
          | false => rw [getSection_cons_of_ne hother, getSection_cons_of_ne hother, ih]

theorem getLines_setLines_self (ini : IniFile) (name : Str) (lines : List Str) :
    (ini.setLines name lines).getLines name false = lines.map stripWhitespace := by
  obtain ⟨s, hs, rfl⟩ := getSection_setLines_self ini name lines
  rw [getLines, hs]
  rfl

theorem getLines_setLines_of_ne (h : caseInsensitiveEquals name other = false) (ini : IniFile) (lines : List Str)
    (removeComments : Bool) :
    (ini.setLines name lines).getLines other removeComments = ini.getLines other removeComments := by
  rw [getLines, getSection_setLines_of_ne h, getLines]

end Karphin.Common.IniFile

/-!
## What is loaded

Sections and keys have distinct names, and none of their parts has an end of line or what the part ends at.
-/

namespace Karphin.Common

open Lib

/-! ## Lines -/

variable {line : Str} {c : Char}

theorem parseLine_of_hash (h : line.head? = some '#') : parseLine line = ([], []) := if_pos h

theorem parseLine_append {key value : Str} (hkey : '=' ∉ key) (hhash : (key ++ '=' :: value).head? ≠ some '#') :
    parseLine (key ++ '=' :: value) = (stripWhitespace key, stripQuotes (stripWhitespace value)) := by
  have hne : ∀ d ∈ key, (decide (d ≠ '=')) = true := by
    intro d hd
    rw [decide_eq_true_iff]
    rintro rfl
    exact hkey hd
  rw [parseLine, if_neg hhash, List.dropWhile_append_of_pos hne, List.takeWhile_append_of_pos hne,
    List.dropWhile_cons_of_neg (by simp), List.takeWhile_cons_of_neg (by simp), List.append_nil]

structure Assigned (kv : Str × Str) : Prop where
  keyLine : '\n' ∉ kv.1
  valueLine : '\n' ∉ kv.2
  equals : '=' ∉ kv.1
  stripped : stripWhitespace kv.1 = kv.1
  nonempty : ¬(kv.1 = [] ∧ kv.2 = [])

theorem parseLine_assigned (hline : '\n' ∉ line) (hraw : isRaw line = false) : Assigned (parseLine line) := by
  rw [isRaw, Bool.or_eq_false_iff, Bool.and_eq_false_iff, decide_eq_false_iff_not, decide_eq_false_iff_not] at hraw
  have hnonempty : ¬((parseLine line).1 = [] ∧ (parseLine line).2 = []) := by
    rintro ⟨hkey, hvalue⟩
    exact hraw.1.elim (· hkey) (· hvalue)
  by_cases hhash : line.head? = some '#'
  · rw [parseLine_of_hash hhash] at hnonempty
    exact absurd ⟨rfl, rfl⟩ hnonempty
  · cases hrest : line.dropWhile (· ≠ '=') with
    | nil =>
        rw [parseLine, if_neg hhash, hrest] at hnonempty
        exact absurd ⟨rfl, rfl⟩ hnonempty
    | cons d rest =>
        have hparse : parseLine line =
            (stripWhitespace (line.takeWhile (· ≠ '=')), stripQuotes (stripWhitespace rest)) := by
          rw [parseLine, if_neg hhash, hrest]
        have hkey : ∀ d ∈ stripWhitespace (line.takeWhile (· ≠ '=')), d ∈ line ∧ d ≠ '=' := by
          intro d hd
          have htake := mem_of_mem_stripWhitespace hd
          have hequals := List.mem_takeWhile_imp htake
          exact ⟨(List.takeWhile_prefix _).mem htake, decide_eq_true_iff.mp hequals⟩
        have hvalue : ∀ d ∈ stripQuotes (stripWhitespace rest), d ∈ line := by
          intro d hd
          have hmem : d ∈ line.dropWhile (· ≠ '=') := by
            rw [hrest]
            exact List.mem_cons_of_mem _ (mem_of_mem_stripWhitespace (mem_of_mem_stripQuotes hd))
          exact (List.dropWhile_sublist _).mem hmem
        rw [hparse] at hnonempty ⊢
        exact ⟨fun h => hline (hkey _ h).1, fun h => hline (hvalue _ h), fun h => (hkey _ h).2 rfl,
          stripWhitespace_idem _, hnonempty⟩

theorem mem_of_mem_removeCR (h : c ∈ removeCR line) : c ∈ line := by
  rw [removeCR] at h
  split at h
  · exact List.dropLast_subset _ h
  · exact h

theorem mem_removeBom {lines : List Str} (h : line ∈ removeBom lines) :
    line ∈ lines ∨ ∃ first ∈ lines, line = first.drop 3 := by
  cases lines with
  | nil => cases h
  | cons first rest =>
      cases h with
      | head =>
          split
          · exact Or.inr ⟨first, List.mem_cons_self, rfl⟩
          · exact Or.inl List.mem_cons_self
      | tail _ h => exact Or.inl (List.mem_cons_of_mem _ h)

/-! ## Sections -/

structure Section.Loaded (s : Section) : Prop where
  nameLine : '\n' ∉ s.name
  nameEnd : ']' ∉ s.name
  value : ∀ kv ∈ s.values, Assigned kv
  distinct : s.values.Pairwise fun a b => caseInsensitiveEquals a.1 b.1 = false
  line : ∀ l ∈ s.lines, '\n' ∉ l ∧ l ≠ [] ∧ l.head? ≠ some '[' ∧ isRaw l = true

namespace Section

variable {s : Section}

@[simp]
theorem set_name (key value : Str) : (s.set key value).name = s.name := by
  rw [set]
  split <;> rfl

@[simp]
theorem set_lines (key value : Str) : (s.set key value).lines = s.lines := by
  rw [set]
  split <;> rfl

@[simp]
theorem addLine_name : (s.addLine line).name = s.name := by
  rw [addLine]
  split
  · rfl
  · exact set_name ..

theorem set_of_new {key value : Str} (h : ∀ kv ∈ s.values, caseInsensitiveEquals kv.1 key = false) :
    s.set key value = { s with values := s.values ++ [(key, value)] } := by
  apply if_neg
  rw [List.any_eq_true]
  rintro ⟨kv, hkv, heq⟩
  rw [h kv hkv] at heq
  cases heq

theorem Loaded.set {kv : Str × Str} (h : s.Loaded) (hkv : Assigned kv) : (s.set kv.1 kv.2).Loaded := by
  by_cases hany : (s.values.any fun old => caseInsensitiveEquals old.1 kv.1) = true
  · rw [Section.set, if_pos hany]
    refine ⟨h.nameLine, h.nameEnd, ?_, ?_, h.line⟩
    · intro new hnew
      obtain ⟨old, hold, rfl⟩ := List.mem_map.mp hnew
      have hassigned := h.value old hold
      split
      next heq =>
        refine ⟨hassigned.keyLine, hkv.valueLine, hassigned.equals, hassigned.stripped, ?_⟩
        rintro ⟨hkey, hvalue⟩
        have hempty : kv.1 = [] := by
          rw [caseInsensitiveEquals_iff, hkey] at heq
          exact List.map_eq_nil_iff.mp heq.symm
        exact hkv.nonempty ⟨hempty, hvalue⟩
      next => exact hassigned
    · have hkeys : ∀ old : Str × Str,
          (if caseInsensitiveEquals old.1 kv.1 then (old.1, kv.2) else old).1 = old.1 := by
        intro old
        split <;> rfl
      simp only [List.pairwise_map, hkeys]
      exact h.distinct
  · have hnew : ∀ old ∈ s.values, caseInsensitiveEquals old.1 kv.1 = false := by
      intro old hold
      rw [List.any_eq_true] at hany
      exact Bool.eq_false_iff.mpr fun heq => hany ⟨old, hold, heq⟩
    rw [set_of_new hnew]
    refine ⟨h.nameLine, h.nameEnd, ?_, ?_, h.line⟩
    · exact List.forall_mem_append.mpr ⟨h.value, fun other hother => List.mem_singleton.mp hother ▸ hkv⟩
    · rw [List.pairwise_append]
      exact ⟨h.distinct, List.pairwise_singleton _ _,
        fun old hold other hother => List.mem_singleton.mp hother ▸ hnew old hold⟩

theorem Loaded.addLine (h : s.Loaded) (hline : '\n' ∉ line) (hne : line ≠ []) (hheader : line.head? ≠ some '[') :
    (s.addLine line).Loaded := by
  rw [Section.addLine]
  cases hraw : isRaw line with
  | true =>
      refine ⟨h.nameLine, h.nameEnd, h.value, h.distinct, ?_⟩
      exact List.forall_mem_append.mpr
        ⟨h.line, fun other hother => List.mem_singleton.mp hother ▸ ⟨hline, hne, hheader, hraw⟩⟩
  | false => exact h.set (parseLine_assigned hline hraw)

end Section

/-! ## Files -/

structure IniFile.Loaded (ini : IniFile) : Prop where
  sections : ∀ s ∈ ini, s.Loaded
  distinct : ini.Pairwise fun a b => caseInsensitiveEquals a.name b.name = false

namespace IniFile

variable {ini : IniFile}

theorem Loaded.nil : Loaded [] := ⟨fun _ h => absurd h List.not_mem_nil, List.Pairwise.nil⟩

theorem Loaded.getOrCreateSection {name : Str} (h : ini.Loaded) (hline : '\n' ∉ name) (hend : ']' ∉ name) :
    (ini.getOrCreateSection name).1.Loaded := by
  rw [IniFile.getOrCreateSection]
  split
  next => exact h
  next hnone =>
    have hnew := List.findIdx?_eq_none_iff.mp hnone
    constructor
    · refine List.forall_mem_append.mpr ⟨h.sections, fun s hs => ?_⟩
      rw [List.mem_singleton.mp hs]
      exact ⟨hline, hend, fun _ hmem => absurd hmem List.not_mem_nil, List.Pairwise.nil,
        fun _ hmem => absurd hmem List.not_mem_nil⟩
    · rw [List.pairwise_append]
      exact ⟨h.distinct, List.pairwise_singleton _ _, fun s hs t ht => List.mem_singleton.mp ht ▸ hnew s hs⟩

theorem Loaded.modify {f : Section → Section} {i : Nat} (h : ini.Loaded) (hf : ∀ s : Section, s.Loaded → (f s).Loaded)
    (hname : ∀ s, (f s).name = s.name) : Loaded (List.modify ini i f) := by
  by_cases hi : i < ini.length
  · obtain ⟨before, s, after, rfl, -, heq⟩ := List.exists_of_modify f hi
    rw [heq]
    obtain ⟨hbefore, hrest⟩ := List.forall_mem_append.mp h.sections
    obtain ⟨hs, hafter⟩ := List.forall_mem_cons.mp hrest
    constructor
    · exact List.forall_mem_append.mpr ⟨hbefore, List.forall_mem_cons.mpr ⟨hf s hs, hafter⟩⟩
    · have hdistinct := h.distinct
      simp only [List.pairwise_append, List.pairwise_cons, List.forall_mem_cons, hname] at hdistinct ⊢
      exact hdistinct
  · rw [List.modify_eq_self (Nat.le_of_not_lt hi)]
    exact h

end IniFile

theorem Loader.readLine_loaded {st : Loader} (h : st.ini.Loaded) (hline : '\n' ∉ line) : (st.readLine line).ini.Loaded := by
  cases line with
  | nil => exact h
  | cons d rest =>
      rw [readLine]
      by_cases hheader : d = '['
      · rw [if_pos hheader]
        split
        · apply h.getOrCreateSection
          · intro hmem
            exact hline (List.mem_cons_of_mem _ ((List.takeWhile_prefix _).mem hmem))
          · intro hmem
            have hne := List.mem_takeWhile_imp hmem
            exact decide_eq_true_iff.mp hne rfl
        · exact h
      · rw [if_neg hheader]
        split
        · exact h
        · apply h.modify
          · intro s hs
            exact hs.addLine hline (List.cons_ne_nil _ _) fun heq => hheader (Option.some_inj.mp heq)
          · exact fun s => Section.addLine_name

theorem Loader.readLines_loaded {st : Loader} {lines : List Str} (h : st.ini.Loaded) (hlines : ∀ l ∈ lines, '\n' ∉ l) :
    (st.readLines lines).ini.Loaded := by
  induction lines generalizing st with
  | nil => exact h
  | cons l lines ih =>
      have hl : '\n' ∉ removeCR l := fun hmem => hlines l List.mem_cons_self (mem_of_mem_removeCR hmem)
      exact ih (readLine_loaded h hl) fun other hother => hlines other (List.mem_cons_of_mem _ hother)

theorem IniFile.load_loaded (file : Str) : (IniFile.load [] file).Loaded := by
  apply Loader.readLines_loaded Loaded.nil
  intro l hl
  rcases mem_removeBom hl with hl | ⟨first, hfirst, rfl⟩
  · exact not_mem_of_mem_pieces hl
  · exact fun hmem => not_mem_of_mem_pieces hfirst (List.mem_of_mem_drop hmem)

end Karphin.Common

/-!
## Reading what was saved

What each line that was written does when it is read, and how many lines can be read at all.
-/

namespace Karphin.Common

open Lib

/-! ## The end of a line -/

theorem removeCR_append {t : Str} (s : Str) (ht : t ≠ []) : removeCR (s ++ t) = s ++ removeCR t := by
  rw [removeCR, removeCR, List.getLast?_append_of_ne_nil s ht]
  split
  · exact List.dropLast_append_of_ne_nil ht
  · rfl

theorem removeCR_eq_self {line : Str} (h : line.getLast? ≠ some '\r') : removeCR line = line := if_neg h

theorem getLast?_ne_of_removeCR {line : Str} (h : removeCR line = line) : line.getLast? ≠ some '\r' := by
  intro hlast
  have hlength := congrArg List.length h
  rw [removeCR, if_pos hlast, List.length_dropLast] at hlength
  cases line with
  | nil => cases hlast
  | cons c rest =>
      rw [List.length_cons] at hlength
      omega

theorem stripWhitespace_removeCR (line : Str) : stripWhitespace (removeCR line) = stripWhitespace line := by
  rw [removeCR]
  split
  next hlast =>
    obtain ⟨rest, rfl⟩ := List.getLast?_eq_some_iff.mp hlast
    rw [List.dropLast_concat, stripWhitespace, stripWhitespace, trim_concat (by decide)]
  next => rfl

def isItem (line : Str) : Bool := removeCR line ≠ [] && (removeCR line).head? ≠ some '['

theorem isItem_iff {line : Str} : isItem line = true ↔ removeCR line ≠ [] ∧ (removeCR line).head? ≠ some '[' := by
  rw [isItem, Bool.and_eq_true, decide_eq_true_iff, decide_eq_true_iff]

/-! ## Counting -/

def Section.size (s : Section) : Nat := s.values.length + s.lines.length

def IniFile.size (ini : IniFile) : Nat := (ini.map Section.size).sum

theorem Section.addLine_size_le (s : Section) (line : Str) : (s.addLine line).size ≤ s.size + 1 := by
  rw [addLine]
  split
  · simp [size]
    omega
  · rw [set]
    split <;> simp [size]
    omega

theorem IniFile.modify_size_le {f : Section → Section} (hf : ∀ s : Section, (f s).size ≤ s.size + 1) (ini : IniFile)
    (i : Nat) : IniFile.size (List.modify ini i f) ≤ ini.size + 1 := by
  by_cases hi : i < ini.length
  · obtain ⟨before, s, after, rfl, -, heq⟩ := List.exists_of_modify f hi
    have hs := hf s
    simp [heq, size]
    omega
  · rw [List.modify_eq_self (Nat.le_of_not_lt hi)]
    exact Nat.le_succ _

theorem IniFile.getOrCreateSection_size (ini : IniFile) (name : Str) :
    (ini.getOrCreateSection name).1.size = ini.size := by
  rw [getOrCreateSection]
  split
  · rfl
  · simp [size, Section.size]

theorem Loader.readLine_size_le (st : Loader) (line : Str) :
    (st.readLine (removeCR line)).ini.size ≤ st.ini.size + (isItem line).toNat := by
  rw [isItem]
  cases removeCR line with
  | nil => exact Nat.le_refl _
  | cons c rest =>
      rw [readLine]
      by_cases hheader : c = '['
      · rw [if_pos hheader]
        split
        · rw [IniFile.getOrCreateSection_size]
          exact Nat.le_add_right _ _
        · exact Nat.le_add_right _ _
      · have hitem : (decide (c :: rest ≠ []) && decide ((c :: rest).head? ≠ some '[')) = true := by
          simp [hheader]
        rw [if_neg hheader, hitem]
        split
        · exact Nat.le_succ _
        · exact IniFile.modify_size_le (fun s => s.addLine_size_le _) _ _

theorem Loader.readLines_size_le (st : Loader) (lines : List Str) :
    (st.readLines lines).ini.size ≤ st.ini.size + lines.countP isItem := by
  induction lines generalizing st with
  | nil => exact Nat.le_refl _
  | cons line lines ih =>
      have hline := st.readLine_size_le line
      have hrest := ih (st.readLine (removeCR line))
      rw [List.countP_cons]
      cases hitem : isItem line with
      | true =>
          rw [hitem, Bool.toNat_true] at hline
          rw [if_pos rfl]
          exact Nat.le_trans hrest (by omega)
      | false =>
          rw [hitem, Bool.toNat_false] at hline
          rw [if_neg Bool.false_ne_true]
          exact Nat.le_trans hrest (by omega)

/-! ## Sections -/

namespace Section

variable {s : Section}

def addLines (s : Section) (lines : List Str) : Section := lines.foldl (fun s line => s.addLine (removeCR line)) s

@[simp]
theorem addLines_name (lines : List Str) : (s.addLines lines).name = s.name := by
  induction lines generalizing s with
  | nil => rfl
  | cons line lines ih => exact ih.trans addLine_name

theorem addLines_lines (lines : List Str) : (s.addLines lines).lines = s.lines ++ (lines.map removeCR).filter isRaw := by
  induction lines generalizing s with
  | nil => exact (List.append_nil _).symm
  | cons line lines ih =>
      rw [addLines, List.foldl_cons, ← addLines, ih, List.map_cons, addLine]
      cases hraw : isRaw (removeCR line) with
      | true => rw [if_pos rfl, List.filter_cons_of_pos hraw, List.append_assoc, List.singleton_append]
      | false =>
          rw [if_neg Bool.false_ne_true, set_lines, List.filter_cons_of_neg (by rw [hraw]; exact Bool.false_ne_true)]

theorem addLines_of_raw {lines : List Str} (h : ∀ line ∈ lines, isRaw (removeCR line) = true) :
    s.addLines lines = { s with lines := s.lines ++ lines.map removeCR } := by
  induction lines generalizing s with
  | nil => rw [List.map_nil, List.append_nil]; rfl
  | cons line lines ih =>
      rw [addLines, List.foldl_cons, ← addLines, ih fun other hother => h other (List.mem_cons_of_mem _ hother),
        addLine, if_pos (h line List.mem_cons_self), List.map_cons, List.append_assoc, List.singleton_append]

@[simp]
theorem removeCR_header : removeCR s.header = s.header := by
  apply removeCR_eq_self
  rw [header, List.getLast?_concat]
  decide

@[simp]
theorem isItem_header : isItem s.header = false := by
  rw [isItem, removeCR_header]
  exact Bool.and_false _

theorem removeCR_writeValue (kv : Str × Str) :
    removeCR (writeValue kv) = (kv.1 ++ [' ']) ++ '=' :: removeCR (' ' :: kv.2) := by
  have hwrite : writeValue kv = (kv.1 ++ [' ', '=']) ++ ' ' :: kv.2 := by
    rw [writeValue, List.append_assoc, List.append_assoc]
    rfl
  rw [hwrite, removeCR_append _ (List.cons_ne_nil _ _)]
  simp

theorem head?_writeValue (kv : Str × Str) : (removeCR (writeValue kv)).head? = (kv.1 ++ [' ']).head? := by
  rw [removeCR_writeValue, List.head?_append_of_ne_nil _ (by simp)]

theorem parseLine_writeValue {kv : Str × Str} (h : Assigned kv) (hhash : kv.1.head? ≠ some '#') :
    parseLine (removeCR (writeValue kv)) = (kv.1, stripQuotes (stripWhitespace kv.2)) := by
  have hkey : '=' ∉ kv.1 ++ [' '] := by
    simp [h.equals]
  have hhead : ((kv.1 ++ [' ']) ++ '=' :: removeCR (' ' :: kv.2)).head? ≠ some '#' := by
    cases hkv : kv.1 with
    | nil => simp
    | cons c rest =>
        rw [hkv] at hhash
        exact hhash
  have hstripped : stripWhitespace (kv.1 ++ [' ']) = kv.1 := by
    rw [stripWhitespace, trim_concat (by decide)]
    exact h.stripped
  rw [removeCR_writeValue, parseLine_append hkey hhead, hstripped, stripWhitespace_removeCR,
    stripWhitespace, trim_cons (by decide), ← stripWhitespace]

end Section

end Karphin.Common
