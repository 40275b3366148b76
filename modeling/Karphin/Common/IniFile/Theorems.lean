import Karphin.Common.IniFile.Lemmas.Reading

/-!
# Saving and loading again

A file that was loaded and saved gives the same sections again exactly when each of them has something that is written, and
all of it is written so that it is read as what it was.
-/

namespace Karphin.Common

open Lib

structure Section.Survives (s : Section) : Prop where
  nonempty : s.values ≠ [] ∨ s.lines ≠ []
  uniform : s.values = [] ∨ s.lines = []
  key : ∀ kv ∈ s.values, kv.1.head? ∉ [some '[', some '#', some '$', some '+', some '*']
  value : ∀ kv ∈ s.values, stripQuotes (stripWhitespace kv.2) = kv.2
  line : ∀ line ∈ s.lines, line.getLast? ≠ some '\r'

def Section.reload (s : Section) : Section := Section.addLines ⟨s.name, [], []⟩ s.body

def Section.isWritten (s : Section) : Bool := s.values ≠ [] || s.lines ≠ []

@[simp]
theorem Section.reload_name {s : Section} : s.reload.name = s.name := addLines_name _

/-! ## The lines of a section -/

namespace Section

variable {s : Section}

theorem body_length_le : s.body.length ≤ s.size := by
  rw [body, size]
  split
  · exact Nat.le_add_left ..
  · rw [List.length_map]
    exact Nat.le_add_right ..

theorem countP_written : s.written.countP isItem ≤ s.body.countP isItem := by
  rw [written, List.countP_append]
  split
  · rw [List.countP_singleton, isItem_header, if_neg Bool.false_ne_true, Nat.zero_add]
  · rw [List.countP_nil, Nat.zero_add]

theorem written_of_isWritten (h : s.isWritten = true) : s.written = s.header :: s.body := by
  rw [isWritten, Bool.or_eq_true, decide_eq_true_iff, decide_eq_true_iff] at h
  rw [written, if_pos h, List.singleton_append]

theorem written_of_not_isWritten (h : s.isWritten = false) : s.written = [] := by
  rw [isWritten, Bool.or_eq_false_iff, decide_eq_false_iff_not, decide_eq_false_iff_not, not_not, not_not] at h
  rw [written, body, h.1, h.2]
  rfl

theorem line_of_mem_written (h : s.Loaded) {line : Str} (hline : line ∈ s.written) : '\n' ∉ line := by
  rw [written, List.mem_append] at hline
  rcases hline with hheader | hbody
  · split at hheader
    · rw [List.mem_singleton.mp hheader, header]
      simp [h.nameLine]
    · cases hheader
  · rw [body] at hbody
    split at hbody
    · exact (h.line line hbody).1
    · obtain ⟨kv, hkv, rfl⟩ := List.mem_map.mp hbody
      have hassigned := h.value kv hkv
      simp [writeValue, hassigned.keyLine, hassigned.valueLine]

/-! ### A section that was read from its own lines -/

theorem addLines_of_assigned {settings : List (Str × Str)} (hnew : ∀ kv ∈ settings, Assigned kv)
    (hdistinct : ((s.values ++ settings).map Prod.fst).Pairwise fun a b => caseInsensitiveEquals a b = false)
    (hitem : ∀ kv ∈ settings, isRaw (removeCR (writeValue kv)) = false) (hhash : ∀ kv ∈ settings, kv.1.head? ≠ some '#') :
    s.addLines (settings.map writeValue) =
      { s with values := s.values ++ settings.map fun kv => (kv.1, stripQuotes (stripWhitespace kv.2)) } := by
  induction settings generalizing s with
  | nil => rw [List.map_nil, List.map_nil, List.append_nil]; rfl
  | cons kv settings ih =>
      obtain ⟨hkv, hrest⟩ := List.forall_mem_cons.mp hnew
      obtain ⟨hraw, hitem⟩ := List.forall_mem_cons.mp hitem
      obtain ⟨hfirst, hhash⟩ := List.forall_mem_cons.mp hhash
      have hfresh : ∀ old ∈ s.values, caseInsensitiveEquals old.1 kv.1 = false := by
        intro old hold
        rw [List.map_append, List.pairwise_append] at hdistinct
        exact hdistinct.2.2 old.1 (List.mem_map_of_mem hold) kv.1 List.mem_cons_self
      have hset : s.addLine (removeCR (writeValue kv)) =
          { s with values := s.values ++ [(kv.1, stripQuotes (stripWhitespace kv.2))] } := by
        rw [addLine, hraw, if_neg Bool.false_ne_true, parseLine_writeValue hkv hfirst]
        exact set_of_new hfresh
      rw [List.map_cons, addLines, List.foldl_cons, ← addLines, hset, ih hrest _ hitem hhash]
      · rw [List.map_cons, List.append_assoc, List.singleton_append]
      · rw [List.map_append, List.map_append, List.map_singleton, List.append_assoc, List.singleton_append]
        rwa [List.map_append, List.map_cons] at hdistinct

theorem Loaded.reload_of_values (h : s.Loaded) (hvalues : s.values ≠ [])
    (hitem : ∀ kv ∈ s.values, isRaw (removeCR (writeValue kv)) = false)
    (hkey : ∀ kv ∈ s.values, kv.1.head? ∉ [some '[', some '#', some '$', some '+', some '*']) :
    s.reload = ⟨s.name, s.values.map fun kv => (kv.1, stripQuotes (stripWhitespace kv.2)), []⟩ := by
  have hdistinct : (((Section.mk s.name [] []).values ++ s.values).map Prod.fst).Pairwise
      fun a b => caseInsensitiveEquals a b = false := List.pairwise_map.mpr h.distinct
  have hhash : ∀ kv ∈ s.values, kv.1.head? ≠ some '#' := by
    intro kv hkv heq
    apply hkey kv hkv
    simp [heq]
  rw [reload, body, if_neg hvalues, addLines_of_assigned h.value hdistinct hitem hhash, List.nil_append]

theorem isRaw_writeValue {kv : Str × Str} (h : Assigned kv)
    (hkey : kv.1.head? ∉ [some '[', some '#', some '$', some '+', some '*'])
    (hvalue : stripQuotes (stripWhitespace kv.2) = kv.2) : isRaw (removeCR (writeValue kv)) = false := by
  simp only [List.mem_cons, List.not_mem_nil, or_false, not_or] at hkey
  obtain ⟨-, hhash, hdollar, hplus, hstar⟩ := hkey
  rw [isRaw, parseLine_writeValue h hhash, hvalue, head?_writeValue]
  have hempty : (decide (kv.1 = []) && decide (kv.2 = [])) = false := by
    rw [Bool.and_eq_false_iff, decide_eq_false_iff_not, decide_eq_false_iff_not]
    exact not_and_or.mp h.nonempty
  rw [hempty, Bool.false_or, decide_eq_false_iff_not]
  cases hkv : kv.1 with
  | nil => decide
  | cons c rest =>
      rw [hkv] at hdollar hplus hstar
      simpa using ⟨by simpa using hdollar, by simpa using hplus, by simpa using hstar⟩

theorem head?_of_isRaw_writeValue {kv : Str × Str} (hitem : isItem (writeValue kv) = true)
    (hraw : isRaw (removeCR (writeValue kv)) = false) :
    kv.1.head? ∉ [some '[', some '#', some '$', some '+', some '*'] := by
  have hbracket := (isItem_iff.mp hitem).2
  have hhash : (removeCR (writeValue kv)).head? ≠ some '#' := by
    intro hhash
    rw [isRaw, parseLine_of_hash hhash] at hraw
    cases hraw
  rw [isRaw, Bool.or_eq_false_iff, decide_eq_false_iff_not] at hraw
  have hspecial := hraw.2
  rw [head?_writeValue] at hbracket hhash hspecial
  cases hkv : kv.1 with
  | nil => decide
  | cons c rest =>
      rw [hkv, List.cons_append, List.head?_cons] at hbracket hhash hspecial
      simp only [List.head?_cons, List.mem_cons, not_or] at hspecial ⊢
      exact ⟨hbracket, hhash, hspecial⟩

theorem Loaded.reload_eq (h : s.Loaded) (hs : s.Survives) : s.reload = s := by
  by_cases hvalues : s.values = []
  · have hself : ∀ line ∈ s.lines, removeCR line = line := fun line hline => removeCR_eq_self (hs.line line hline)
    rw [reload, body, if_pos hvalues]
    rw [addLines_of_raw fun line hline => (hself line hline).symm ▸ (h.line line hline).2.2.2]
    rw [List.map_congr_left hself, List.map_id', List.nil_append]
    exact congrArg (Section.mk s.name · s.lines) hvalues.symm
  · have hlines := hs.uniform.resolve_left hvalues
    have hself : ∀ kv ∈ s.values, (kv.1, stripQuotes (stripWhitespace kv.2)) = kv := by
      intro kv hkv
      rw [hs.value kv hkv]
    rw [h.reload_of_values hvalues
      (fun kv hkv => isRaw_writeValue (h.value kv hkv) (hs.key kv hkv) (hs.value kv hkv)) hs.key]
    rw [List.map_congr_left hself, List.map_id']
    exact congrArg (Section.mk s.name s.values ·) hlines.symm

theorem Loaded.isItem_body (h : s.Loaded) (hs : s.Survives) : ∀ line ∈ s.body, isItem line = true := by
  intro line hline
  rw [isItem_iff]
  rw [body] at hline
  split at hline
  · obtain ⟨-, hne, hhead, -⟩ := h.line line hline
    rw [removeCR_eq_self (hs.line line hline)]
    exact ⟨hne, hhead⟩
  · obtain ⟨kv, hkv, rfl⟩ := List.mem_map.mp hline
    have hkey := hs.key kv hkv
    constructor
    · rw [removeCR_writeValue]
      exact List.append_ne_nil_of_right_ne_nil _ (List.cons_ne_nil _ _)
    · rw [head?_writeValue]
      cases hfirst : kv.1 with
      | nil => decide
      | cons c rest =>
          rw [hfirst] at hkey
          intro heq
          exact hkey (List.mem_cons.mpr (Or.inl heq))

theorem Loaded.survives (h : s.Loaded) (hwritten : s.isWritten = true) (hcount : s.body.countP isItem = s.size)
    (hreload : s.reload = s) : s.Survives := by
  have hlength : s.body.countP isItem = s.body.length :=
    Nat.le_antisymm List.countP_le_length (hcount ▸ body_length_le)
  have hitem := List.countP_eq_length.mp hlength
  have huniform : s.values = [] ∨ s.lines = [] := by
    by_cases hvalues : s.values = []
    · exact Or.inl hvalues
    · rw [hlength, body, if_neg hvalues, List.length_map, size] at hcount
      exact Or.inr (List.eq_nil_of_length_eq_zero (by omega))
  have hlines := congrArg Section.lines hreload
  rw [reload, addLines_lines, List.nil_append] at hlines
  rw [isWritten, Bool.or_eq_true, decide_eq_true_iff, decide_eq_true_iff] at hwritten
  by_cases hvalues : s.values = []
  · rw [body, if_pos hvalues] at hlines
    have hall : (s.lines.map removeCR).filter isRaw = s.lines.map removeCR := by
      apply List.filter_sublist.eq_of_length
      rw [hlines, List.length_map]
    rw [hall] at hlines
    refine ⟨hwritten, huniform, ?_, ?_, ?_⟩
    · rw [hvalues]
      exact fun _ hkv => absurd hkv List.not_mem_nil
    · rw [hvalues]
      exact fun _ hkv => absurd hkv List.not_mem_nil
    · intro line hline
      exact getLast?_ne_of_removeCR (List.map_inj_left.mp (hlines.trans (List.map_id' _).symm) line hline)
  · have hnone := huniform.resolve_left hvalues
    rw [body, if_neg hvalues] at hlines hitem
    rw [hnone, List.filter_eq_nil_iff] at hlines
    have hraw : ∀ kv ∈ s.values, isRaw (removeCR (writeValue kv)) = false := by
      intro kv hkv
      exact Bool.eq_false_iff.mpr (hlines _ (List.mem_map_of_mem (List.mem_map_of_mem hkv)))
    have hkey : ∀ kv ∈ s.values, kv.1.head? ∉ [some '[', some '#', some '$', some '+', some '*'] :=
      fun kv hkv => head?_of_isRaw_writeValue (hitem _ (List.mem_map_of_mem hkv)) (hraw kv hkv)
    refine ⟨hwritten, huniform, hkey, ?_, ?_⟩
    · have hreloaded := congrArg Section.values hreload
      rw [h.reload_of_values hvalues hraw hkey] at hreloaded
      intro kv hkv
      exact congrArg Prod.snd (List.map_inj_left.mp (hreloaded.trans (List.map_id' _).symm) kv hkv)
    · rw [hnone]
      exact fun _ hline => absurd hline List.not_mem_nil

end Section

/-! ## The sections of a file -/

namespace Loader

theorem modify_concat {α : Type} (done : List α) (s : α) (f : α → α) :
    (done ++ [s]).modify done.length f = done ++ [f s] := by
  induction done with
  | nil => rfl
  | cons t done ih => simp [ih]

theorem readLines_append (st : Loader) (lines lines' : List Str) :
    st.readLines (lines ++ lines') = (st.readLines lines).readLines lines' := List.foldl_append

theorem readLine_header {ini : IniFile} {current : Option Nat} {s : Section} (hend : ']' ∉ s.name)
    (hnew : ∀ t ∈ ini, caseInsensitiveEquals t.name s.name = false) :
    readLine ⟨ini, current⟩ (removeCR s.header) = ⟨ini ++ [⟨s.name, [], []⟩], some ini.length⟩ := by
  have hname : ∀ c ∈ s.name, decide (c ≠ ']') = true := by
    intro c hc
    rw [decide_eq_true_iff]
    rintro rfl
    exact hend hc
  have hmem : ']' ∈ s.name ++ [']'] := by simp
  rw [Section.removeCR_header, Section.header, List.cons_append, readLine, if_pos rfl, if_pos hmem,
    List.takeWhile_append_of_pos hname, List.takeWhile_cons_of_neg (by simp), List.append_nil,
    IniFile.getOrCreateSection, List.findIdx?_eq_none_iff.mpr hnew]

theorem readLines_items {done : IniFile} {s : Section} {lines : List Str} (h : ∀ line ∈ lines, isItem line = true) :
    readLines ⟨done ++ [s], some done.length⟩ lines = ⟨done ++ [s.addLines lines], some done.length⟩ := by
  induction lines generalizing s with
  | nil => rfl
  | cons line lines ih =>
      obtain ⟨hline, hrest⟩ := List.forall_mem_cons.mp h
      obtain ⟨hne, hhead⟩ := isItem_iff.mp hline
      have hread : readLine ⟨done ++ [s], some done.length⟩ (removeCR line) =
          ⟨done ++ [s.addLine (removeCR line)], some done.length⟩ := by
        cases hcr : removeCR line with
        | nil => exact absurd hcr hne
        | cons c rest =>
            rw [hcr, List.head?_cons] at hhead
            have hc : c ≠ '[' := fun heq => hhead (congrArg some heq)
            rw [readLine, if_neg hc]
            exact congrArg (Loader.mk · (some done.length)) (modify_concat done s _)
      rw [readLines, List.foldl_cons, hread, ← readLines, ih hrest]
      rfl

theorem readLines_written {done ini : IniFile} {current : Option Nat} (h : ∀ s ∈ ini, ']' ∉ s.name)
    (hdistinct : ((done ++ ini).map Section.name).Pairwise fun a b => caseInsensitiveEquals a b = false)
    (hitem : ∀ s ∈ ini, ∀ line ∈ s.body, isItem line = true) :
    (readLines ⟨done, current⟩ (ini.flatMap Section.written)).ini =
      done ++ (ini.filter Section.isWritten).map Section.reload := by
  induction ini generalizing done current with
  | nil => exact (List.append_nil _).symm
  | cons s ini ih =>
      obtain ⟨hend, h⟩ := List.forall_mem_cons.mp h
      obtain ⟨hbody, hitem⟩ := List.forall_mem_cons.mp hitem
      rw [List.flatMap_cons]
      cases hwritten : s.isWritten with
      | false =>
          rw [Section.written_of_not_isWritten hwritten, List.nil_append, List.filter_cons_of_neg (by simp [hwritten])]
          apply ih h _ hitem
          exact List.Pairwise.sublist (((List.sublist_cons_self s ini).append_left done).map Section.name) hdistinct
      | true =>
          have hnew : ∀ t ∈ done, caseInsensitiveEquals t.name s.name = false := by
            intro t ht
            rw [List.map_append, List.pairwise_append] at hdistinct
            exact hdistinct.2.2 t.name (List.mem_map_of_mem ht) s.name List.mem_cons_self
          rw [Section.written_of_isWritten hwritten, List.cons_append, readLines, List.foldl_cons,
            readLine_header hend hnew, ← readLines, readLines_append, readLines_items hbody, ← Section.reload,
            List.filter_cons_of_pos hwritten, List.map_cons, ih h _ hitem, List.append_assoc, List.singleton_append]
          rw [List.append_assoc, List.singleton_append, List.map_append, List.map_cons, Section.reload_name]
          rwa [List.map_append, List.map_cons] at hdistinct

end Loader

namespace IniFile

variable {ini : IniFile}

theorem removeBom_written (ini : IniFile) : removeBom (ini.flatMap Section.written) = ini.flatMap Section.written := by
  induction ini with
  | nil => rfl
  | cons s ini ih =>
      cases hwritten : s.isWritten with
      | false => rwa [List.flatMap_cons, Section.written_of_not_isWritten hwritten]
      | true =>
          have hheader : s.header.take 3 ≠ bom := by
            intro heq
            have hhead := congrArg List.head? heq
            rw [Section.header] at hhead
            cases hhead
          rw [List.flatMap_cons, Section.written_of_isWritten hwritten, List.cons_append, removeBom, if_neg hheader]

theorem load_save (h : ini.Loaded) :
    load [] ini.save = (Loader.readLines ⟨[], none⟩ (ini.flatMap Section.written)).ini := by
  have hlines : ∀ line ∈ ini.flatMap Section.written, '\n' ∉ line := by
    intro line hline
    obtain ⟨s, hs, hline⟩ := List.mem_flatMap.mp hline
    exact Section.line_of_mem_written (h.sections s hs) hline
  rw [load, save, pieces_lines hlines, removeBom_written]

theorem countP_body_eq_size (hsize : ini.size ≤ (ini.flatMap Section.written).countP isItem) :
    ∀ s ∈ ini, s.body.countP isItem = s.size := by
  have hle : ∀ s : Section, s.body.countP isItem ≤ s.size := fun s =>
    Nat.le_trans List.countP_le_length Section.body_length_le
  have hwritten : ∀ ini : IniFile, (ini.flatMap Section.written).countP isItem ≤ ini.size := by
    intro ini
    induction ini with
    | nil => exact Nat.le_refl _
    | cons s ini ih =>
        rw [List.flatMap_cons, List.countP_append, size, List.map_cons, List.sum_cons]
        exact Nat.add_le_add (Nat.le_trans Section.countP_written (hle s)) ih
  induction ini with
  | nil => exact fun _ hs => absurd hs List.not_mem_nil
  | cons s ini ih =>
      have hfirst := Nat.le_trans (Section.countP_written (s := s)) (hle s)
      have hrest := hwritten ini
      rw [List.flatMap_cons, List.countP_append, size, List.map_cons, List.sum_cons, ← size] at hsize
      refine List.forall_mem_cons.mpr ⟨?_, ih ?_⟩
      · have hbody := Section.countP_written (s := s)
        have hs := hle s
        omega
      · omega

theorem load_save_eq_iff (h : ini.Loaded) : load [] ini.save = ini ↔ ∀ s ∈ ini, s.Survives := by
  have hends : ∀ s ∈ ini, ']' ∉ s.name := fun s hs => (h.sections s hs).nameEnd
  have hdistinct : ((([] : IniFile) ++ ini).map Section.name).Pairwise fun a b => caseInsensitiveEquals a b = false :=
    List.pairwise_map.mpr h.distinct
  rw [load_save h]
  constructor
  · intro hreload
    have hsize := Loader.readLines_size_le ⟨[], none⟩ (ini.flatMap Section.written)
    rw [hreload] at hsize
    have hcount := countP_body_eq_size (Nat.le_trans hsize (Nat.le_of_eq (Nat.zero_add _)))
    have hitem : ∀ s ∈ ini, ∀ line ∈ s.body, isItem line = true := by
      intro s hs
      apply List.countP_eq_length.mp
      exact Nat.le_antisymm List.countP_le_length (hcount s hs ▸ Section.body_length_le)
    rw [Loader.readLines_written hends hdistinct hitem, List.nil_append] at hreload
    have hall : ∀ s ∈ ini, s.isWritten = true := by
      have hlength := congrArg List.length hreload
      rw [List.length_map] at hlength
      exact List.length_filter_eq_length_iff.mp hlength
    rw [List.filter_eq_self.mpr hall] at hreload
    have hself := List.map_inj_left.mp (hreload.trans (List.map_id' ini).symm)
    exact fun s hs => (h.sections s hs).survives (hall s hs) (hcount s hs) (hself s hs)
  · intro hsurvives
    have hitem : ∀ s ∈ ini, ∀ line ∈ s.body, isItem line = true := fun s hs =>
      (h.sections s hs).isItem_body (hsurvives s hs)
    have hall : ∀ s ∈ ini, s.isWritten = true := by
      intro s hs
      rw [Section.isWritten, Bool.or_eq_true, decide_eq_true_iff, decide_eq_true_iff]
      exact (hsurvives s hs).nonempty
    have hself : ∀ s ∈ ini, s.reload = s := fun s hs => (h.sections s hs).reload_eq (hsurvives s hs)
    rw [Loader.readLines_written hends hdistinct hitem, List.filter_eq_self.mpr hall, List.map_congr_left hself,
      List.map_id', List.nil_append]

/-- For every file, one cycle of loading and saving changes nothing exactly when nothing of any section is lost. -/
theorem load_save_load (file : Str) : load [] (load [] file).save = load [] file ↔ ∀ s ∈ load [] file, s.Survives :=
  load_save_eq_iff (load_loaded file)

/-- An empty section, a setting beside a cheat line, a key after a space that would be a comment, a value in two pairs of
quotes, and a raw line with two carriage returns. -/
theorem load_save_load_lost : (["[A]\n", "[A]\nx = 1\n$code\n", "[A]\n #x = 1\n", "[A]\nx = \"\"1\"\"\n",
    "[A]\n$code\r\r\n"].map String.toList).filter (fun file => load [] (load [] file).save = load [] file) = [] := by
  decide

end IniFile

end Karphin.Common
