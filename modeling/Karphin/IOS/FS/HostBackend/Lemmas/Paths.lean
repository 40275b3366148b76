import Karphin.IOS.FS.HostBackend.Defs

/-!
# Paths and the names on the host

A path below another one is below it on the host, as long as the same redirect stands for both.
-/

namespace Karphin.IOS.FS

/-! ## Splitting -/

theorem splitString_cons_slash (w : Bytes) : splitString slash (slash :: w) = [] :: splitString slash w := if_pos rfl

theorem splitString_cons {c : UInt8} (hc : c ≠ slash) (w : Bytes) : splitString slash (c :: w) =
    match splitString slash w with
    | [] => [[c]]
    | piece :: pieces => (c :: piece) :: pieces :=
  (if_neg hc).trans (by cases splitString slash w <;> rfl)

theorem splitString_singleton {c : UInt8} (hc : c ≠ slash) : splitString slash [c] = [[c]] := splitString_cons hc []

theorem intercalate_splitString : ∀ (w : Bytes), w.getLast? ≠ some slash →
    [slash].intercalate (splitString slash w) = w
  | [], _ => rfl
  | [c], h => by
      have hc : c ≠ slash := by simpa using h
      rw [splitString_singleton hc]
      rfl
  | c :: c' :: w, h => by
      have hrest : (c' :: w).getLast? ≠ some slash := by simpa using h
      have ih := intercalate_splitString (c' :: w) hrest
      cases hsplit : splitString slash (c' :: w) with
      | nil =>
          rw [hsplit] at ih
          cases ih
      | cons piece pieces =>
          rw [hsplit] at ih
          by_cases hc : c = slash
          · rw [hc, splitString_cons_slash, hsplit, List.intercalate_cons_cons, ih]
            rfl
          · rw [splitString_cons hc, hsplit]
            cases pieces with
            | nil =>
                rw [List.intercalate_singleton] at ih ⊢
                rw [ih]
            | cons piece' pieces =>
                rw [List.intercalate_cons_cons] at ih ⊢
                rw [← ih]
                rfl

theorem intercalate_append {qs : List Bytes} (hqs : qs ≠ []) : ∀ {ps : List Bytes}, ps ≠ [] →
    [slash].intercalate (ps ++ qs) = [slash].intercalate ps ++ slash :: [slash].intercalate qs
  | [], h => absurd rfl h
  | [p], _ => by
      rw [List.cons_append, List.nil_append, List.intercalate_cons_of_ne_nil hqs, List.intercalate_singleton]
      simp
  | p :: p' :: ps, _ => by
      have ih := intercalate_append hqs (List.cons_ne_nil p' ps)
      rw [List.cons_append, List.intercalate_cons_of_ne_nil (by simp), ih, List.intercalate_cons_cons]
      simp

theorem splitString_ne_nil {w : Bytes} (h : w ≠ []) : splitString slash w ≠ [] := by
  cases w with
  | nil => exact absurd rfl h
  | cons c w =>
      by_cases hc : c = slash
      · rw [hc, splitString_cons_slash]
        nofun
      · rw [splitString_cons hc]
        split <;> nofun

/-! ## Escaping -/

theorem escapeDoubleUnderscores_eq_nil {w : Bytes} (h : escapeDoubleUnderscores w = []) : w = [] := by
  unfold escapeDoubleUnderscores at h
  split at h
  · rfl
  · cases h
  · split at h <;> cases h

theorem escapeFileName_eq_nil {w : Bytes} : escapeFileName w = [] ↔ w = [] := by
  constructor
  · intro h
    rw [escapeFileName] at h
    split at h
    · cases w with
      | nil => rfl
      | cons c w => cases h
    · apply escapeDoubleUnderscores_eq_nil
      cases hescaped : escapeDoubleUnderscores w with
      | nil => rfl
      | cons c cs =>
          rw [hescaped, List.flatMap_cons] at h
          split at h <;> cases h
  · rintro rfl
    rfl

def names (path : Bytes) : List Bytes := ((splitString slash path).filter (· ≠ [])).map escapeFileName

theorem resolve_append (p q : HostPath) : (p ++ q).resolve = p.resolve ++ q.resolve := List.filter_append p q

theorem resolve_escapePath (path : Bytes) : (escapePath path).resolve = names path := by
  rw [names, escapePath, HostPath.resolve, List.filter_map]
  congr 2
  funext w
  simp [escapeFileName_eq_nil]

theorem names_cons_slash (w : Bytes) : names (slash :: w) = names w := by
  rw [names, splitString_cons_slash, List.filter_cons_of_neg (by simp)]
  rfl

theorem splitString_append (y : Bytes) : ∀ (x : Bytes), x ≠ [] → x.getLast? ≠ some slash →
    splitString slash (x ++ slash :: y) = splitString slash x ++ splitString slash y
  | [], h, _ => absurd rfl h
  | [c], _, h => by
      have hc : c ≠ slash := by simpa using h
      rw [List.cons_append, List.nil_append, splitString_cons hc, splitString_cons hc, splitString_cons_slash]
      rfl
  | c :: c' :: w, _, h => by
      have hrest : (c' :: w).getLast? ≠ some slash := by simpa using h
      have ih := splitString_append y (c' :: w) (by simp) hrest
      by_cases hc : c = slash
      · rw [hc, List.cons_append, splitString_cons_slash, splitString_cons_slash, ih]
        rfl
      · rw [List.cons_append, splitString_cons hc, splitString_cons hc, ih]
        cases hsplit : splitString slash (c' :: w) with
        | nil => exact absurd hsplit (splitString_ne_nil (by simp))
        | cons piece pieces => rfl

theorem names_append {x : Bytes} (y : Bytes) (h : x.getLast? ≠ some slash) :
    names (x ++ slash :: y) = names x ++ names y := by
  by_cases hx : x = []
  · subst hx
    exact names_cons_slash y
  · rw [names, splitString_append y x hx h, List.filter_append, List.map_append]
    rfl

theorem names_ne_nil : ∀ {y : Bytes}, y ≠ [] → y.getLast? ≠ some slash → names y ≠ []
  | [], h, _ => absurd rfl h
  | [c], _, h => by
      have hc : c ≠ slash := by simpa using h
      rw [names, splitString_singleton hc]
      simp
  | c :: c' :: w, _, h => by
      have hrest : (c' :: w).getLast? ≠ some slash := by simpa using h
      by_cases hc : c = slash
      · rw [hc, names_cons_slash]
        exact names_ne_nil (by simp) hrest
      · rw [names, splitString_cons hc]
        cases splitString slash (c' :: w) with
        | nil => simp
        | cons piece pieces => simp

/-! ## Valid paths -/

theorem valid_cons {path : Bytes} (h : isValidNonRootPath path = true) :
    ∃ w, path = slash :: w ∧ w ≠ [] ∧ w.getLast? ≠ some slash := by
  simp only [isValidNonRootPath, Bool.and_eq_true, decide_eq_true_eq] at h
  obtain ⟨⟨⟨hlength, -⟩, hhead⟩, hlast⟩ := h
  cases path with
  | nil => cases hhead
  | cons c w =>
      cases hhead
      cases w with
      | nil => exact absurd hlength (Nat.lt_irrefl 1)
      | cons c' w => exact ⟨c' :: w, rfl, by simp, by simpa using hlast⟩

theorem valid_getLast? {path : Bytes} (h : isValidNonRootPath path = true) : path.getLast? ≠ some slash := by
  obtain ⟨w, rfl, hw, hlast⟩ := valid_cons h
  rwa [List.getLast?_cons_of_ne_nil hw]

theorem valid_head? {path : Bytes} (h : isValidNonRootPath path = true) : path.head? = some slash := by
  obtain ⟨w, rfl, -, -⟩ := valid_cons h
  rfl

theorem lastSeparator_append (v : Bytes) {file : Bytes} (h : slash ∉ file) :
    lastSeparator (v ++ slash :: file) = some v.length := by
  have hidx : (file.reverse ++ slash :: v.reverse).idxOf? slash = some file.length := by
    rw [List.idxOf?_eq_some_iff]
    refine ⟨by simp, by simp, ?_⟩
    intro j hj
    rw [List.getElem_append_left (by simpa using hj)]
    intro heq
    apply h
    rw [← heq, ← List.mem_reverse]
    exact List.getElem_mem _
  have hreverse : (v ++ slash :: file).reverse = file.reverse ++ slash :: v.reverse := by simp
  rw [lastSeparator, hreverse, hidx, Option.map_some]
  simp only [List.length_append, List.length_cons]
  congr 1
  omega

theorem split_valid {path : Bytes} (h : isValidNonRootPath path = true) : ∃ v file, path = v ++ slash :: file ∧
    slash ∉ file ∧ file ≠ [] ∧
    splitPathAndBasename path = { parent := if v = [] then [slash] else v, fileName := file } := by
  obtain ⟨w, rfl, hw, hlast⟩ := valid_cons h
  have hmem : slash ∈ (slash :: w).reverse := by simp
  obtain ⟨as, bs, hsplit, has⟩ := List.eq_append_cons_of_mem hmem
  have hpath : slash :: w = bs.reverse ++ slash :: as.reverse := by
    rw [← List.reverse_reverse (slash :: w), hsplit]
    simp
  refine ⟨bs.reverse, as.reverse, hpath, by simpa using has, ?_, ?_⟩
  · intro hnil
    have hend := valid_getLast? h
    rw [hpath, hnil, List.getLast?_concat] at hend
    exact hend rfl
  · rw [hpath, splitPathAndBasename, lastSeparator_append _ (by simpa using has)]
    simp only [SplitPathResult.mk.injEq]
    constructor
    · cases bs.reverse with
      | nil => rfl
      | cons c v => simp
    · rw [← List.drop_drop, List.drop_left]
      rfl

def components (path : Bytes) : List Bytes := splitString slash (path.drop 1)

theorem splitString_of_not_mem : ∀ {w : Bytes}, w ≠ [] → slash ∉ w → splitString slash w = [w]
  | [], h, _ => absurd rfl h
  | [c], _, h => by
      rw [splitString_cons (by simpa using fun hc => h (by simp [hc]))]
      rfl
  | c :: c' :: w, _, h => by
      have hc : c ≠ slash := by
        rintro rfl
        exact h List.mem_cons_self
      rw [splitString_cons hc, splitString_of_not_mem (by simp) fun hmem => h (List.mem_cons_of_mem c hmem)]

theorem splitString_last {file : Bytes} (hne : file ≠ []) (hfile : slash ∉ file) : ∀ (x : Bytes),
    ∃ p ps, splitString slash (x ++ slash :: file) = p :: ps ++ [file]
  | [] => ⟨[], [], by rw [List.nil_append, splitString_cons_slash, splitString_of_not_mem hne hfile]; rfl⟩
  | c :: x => by
      obtain ⟨p, ps, ih⟩ := splitString_last hne hfile x
      by_cases hc : c = slash
      · exact ⟨[], p :: ps, by rw [List.cons_append, hc, splitString_cons_slash, ih]; rfl⟩
      · exact ⟨c :: p, ps, by rw [List.cons_append, splitString_cons hc, ih]; rfl⟩

theorem components_split {path : Bytes} (h : isValidNonRootPath path = true) :
    (splitPathAndBasename path).fileName ∈ components path ∧
      (splitPathAndBasename path).fileName ≠ [] ∧
      ((splitPathAndBasename path).parent = [slash] ∨ (isValidNonRootPath (splitPathAndBasename path).parent = true →
        components path = components (splitPathAndBasename path).parent ++ [(splitPathAndBasename path).fileName])) := by
  obtain ⟨v, file, hpath, hfile, hne, hsplit⟩ := split_valid h
  rw [hsplit]
  cases v with
  | nil =>
      have hcomponents : components path = [file] := by
        rw [components, hpath]
        exact splitString_of_not_mem hne hfile
      exact ⟨by simp [hcomponents], hne, .inl rfl⟩
  | cons c v =>
      have hjoin : components path = splitString slash (v ++ slash :: file) := by
        rw [components, hpath]
        rfl
      have hmem : file ∈ components path := by
        obtain ⟨p, ps, hlast⟩ := splitString_last hne hfile v
        rw [hjoin, hlast]
        simp
      refine ⟨hmem, hne, ?_⟩
      by_cases hv : v = []
      · have hc : c = slash := by
          have hhead := valid_head? h
          rw [hpath] at hhead
          simpa using hhead
        exact .inl (by simp [hv, hc])
      · right
        intro hparent
        simp only [if_neg (List.cons_ne_nil c v)] at hparent ⊢
        have hlast := valid_getLast? hparent
        rw [List.getLast?_cons_of_ne_nil hv] at hlast
        rw [hjoin, splitString_append file v hv hlast, splitString_of_not_mem hne hfile]
        rfl

theorem exists_of_components {p q : Bytes} (hp : isValidNonRootPath p = true) (hq : isValidNonRootPath q = true)
    (h : components p <+: components q) (hne : components p ≠ components q) :
    ∃ y, q = p ++ slash :: y ∧ y ≠ [] ∧ y.getLast? ≠ some slash := by
  obtain ⟨v, rfl, hv, hvlast⟩ := valid_cons hp
  obtain ⟨w, rfl, hw, hwlast⟩ := valid_cons hq
  obtain ⟨rest, hrest⟩ := h
  simp only [components, List.drop_one, List.tail_cons] at hrest hne
  have hjoin : [slash].intercalate (splitString slash v ++ rest) = w := by
    rw [hrest, intercalate_splitString w hwlast]
  have hrestne : rest ≠ [] := by
    rintro rfl
    rw [List.append_nil] at hrest
    exact hne hrest
  have hsplit : w = v ++ slash :: [slash].intercalate rest := by
    rw [← hjoin, intercalate_append hrestne (splitString_ne_nil hv), intercalate_splitString v hvlast]
  have hlast : ([slash].intercalate rest).getLast? ≠ some slash ∧ [slash].intercalate rest ≠ [] := by
    rw [hsplit] at hwlast
    cases hy : [slash].intercalate rest with
    | nil =>
        rw [hy, List.getLast?_concat] at hwlast
        exact absurd rfl hwlast
    | cons c y =>
        rw [hy, List.getLast?_append] at hwlast
        exact ⟨by simpa using hwlast, by simp⟩
  exact ⟨[slash].intercalate rest, congrArg (slash :: ·) hsplit, hlast.2, hlast.1⟩

/-! ## Paths on the host -/

namespace HostFileSystem

variable {s : HostFileSystem} {p y : Bytes}

theorem matchesRedirect_iff {path : Bytes} {r : NandRedirect} : matchesRedirect path r = true ↔
    path = r.sourcePath ∨ r.sourcePath ++ [slash] <+: path := by
  simp only [matchesRedirect, Bool.and_eq_true, List.isPrefixOf_iff_prefix, Bool.or_eq_true, decide_eq_true_eq]
  constructor
  · rintro ⟨⟨t, rfl⟩, hlength | hslash⟩
    · left
      have ht : t = [] := by simpa using hlength
      rw [ht, List.append_nil]
    · right
      cases t with
      | nil => simp at hslash
      | cons c t =>
          have hc : c = slash := by simpa using hslash
          rw [hc, List.prefix_append_right_inj]
          exact ⟨t, rfl⟩
  · rintro (rfl | ⟨t, rfl⟩)
    · exact ⟨List.prefix_rfl, .inl rfl⟩
    · rw [List.append_assoc]
      exact ⟨List.prefix_append _ _, .inr (by simp)⟩

def Unnested (s : HostFileSystem) : Prop :=
  ∀ r ∈ s.nandRedirects, ∀ r' ∈ s.nandRedirects, ¬r.sourcePath ++ [slash] <+: r'.sourcePath

theorem find_redirect (hs : s.Unnested) {r : NandRedirect} (hr : r ∈ s.nandRedirects)
    (hmatch : matchesRedirect p r = true) (y : Bytes) :
    s.nandRedirects.find? (matchesRedirect (p ++ slash :: y)) = s.nandRedirects.find? (matchesRedirect p) := by
  apply List.find?_congr
  intro r' hr'
  have hbelow : p ++ [slash] <+: p ++ slash :: y := ⟨y, by simp⟩
  have hnot : ¬p ++ [slash] <+: r'.sourcePath := by
    intro hpre
    rcases matchesRedirect_iff.mp hmatch with heq | hpr
    · exact hs r hr r' hr' (heq ▸ hpre)
    · exact hs r hr r' hr' (hpr.trans ((List.prefix_append p [slash]).trans hpre))
  rw [Bool.eq_iff_iff, matchesRedirect_iff, matchesRedirect_iff]
  constructor
  · rintro (heq | hpre)
    · exact absurd (heq ▸ hbelow) hnot
    · rcases List.prefix_or_prefix_of_prefix hpre hbelow with h | h
      · rcases List.prefix_concat_iff.mp h with heq | hp
        · exact .inl (List.append_cancel_right heq).symm
        · exact .inr hp
      · rcases List.prefix_concat_iff.mp h with heq | hp
        · exact .inl (List.append_cancel_right heq)
        · exact absurd hp hnot
  · rintro (rfl | hpre)
    · exact .inr hbelow
    · exact .inr (hpre.trans (List.prefix_append _ _))

theorem buildFilename_append (hs : s.Unnested) (hp : p.getLast? ≠ some slash) (hne : p.head? = some slash)
    (hsame : (s.buildFilename (p ++ slash :: y)).isRedirect = (s.buildFilename p).isRedirect) :
    (s.buildFilename (p ++ slash :: y)).hostPath.resolve = (s.buildFilename p).hostPath.resolve ++ names y := by
  cases hfind : s.nandRedirects.find? (matchesRedirect p) with
  | some r =>
      have hr : r ∈ s.nandRedirects := List.mem_of_find?_eq_some hfind
      have hmatch : matchesRedirect p r = true := List.find?_some hfind
      have hlength : r.sourcePath.length ≤ p.length := by
        rcases matchesRedirect_iff.mp hmatch with heq | hpre
        · rw [heq]
        · exact (Nat.le_add_right _ 1).trans (by simpa using hpre.length_le)
      have hdrop : (p.drop r.sourcePath.length).getLast? ≠ some slash := by
        rw [List.getLast?_drop]
        split
        · nofun
        · exact hp
      have hfind' := find_redirect hs hr hmatch y
      rw [hfind] at hfind'
      simp only [buildFilename, hfind, hfind', resolve_append, resolve_escapePath,
        List.drop_append_of_le_length hlength, names_append y hdrop, List.append_assoc]
  | none =>
      cases hfind' : s.nandRedirects.find? (matchesRedirect (p ++ slash :: y)) with
      | some r =>
          simp only [buildFilename, hfind, hfind', hne, if_true] at hsame
          cases hsame
      | none =>
          have hhead : (p ++ slash :: y).head? = some slash := by
            rw [List.head?_append, hne]
            rfl
          simp only [buildFilename, hfind, hfind', hne, hhead, if_true, resolve_append, resolve_escapePath,
            names_append y hp, List.append_assoc]

end HostFileSystem

end Karphin.IOS.FS
