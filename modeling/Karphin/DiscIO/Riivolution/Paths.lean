import Karphin.Lib.FinNumerals
import Karphin.Lib.Text

/-!
# External paths

The path that `MakeAbsoluteFromRelative` makes of one in an XML file lies below the root it starts at.
-/

namespace Karphin.DiscIO.Riivolution

open Lib

abbrev Str := List Char

structure Host where
  fileExists : Str → Bool
  scanDirectory : Str → List Str

def caseInsensitiveEquals (a b : Str) : Bool := a.map Char.toLower = b.map Char.toLower

def attach (host : Host) (result element : Str) : Str :=
  if host.fileExists (result ++ '/' :: element) then result ++ '/' :: element
  else result ++ '/' :: ((host.scanDirectory (result ++ ['/'])).find? (caseInsensitiveEquals element)).getD element

def detach (result : Str) : Str := (result.rdropWhile (· ≠ '/')).dropLast

def visit (host : Host) (s : Nat × Str) (element : Str) : Option (Nat × Str) :=
  if element = ['.'] then some s
  else if element = ['.', '.'] then
    if s.1 = 0 then none else some (s.1 - 1, detach s.2)
  else if element.all (· = '.') then none
  else some (s.1 + 1, attach host s.2 element)

/-- The loop, for `fuel` rounds at most. -/
def walk (host : Host) : (fuel : Nat) → (work : Str) → Nat × Str → Option Str
  | 0, _, s => some s.2
  | fuel + 1, work, s =>
      if work = [] then some s.2
      else
        let rest := work.dropWhile (· ≠ '/')
        match visit host s (work.takeWhile (· ≠ '/')) with
        | none => none
        | some s => if rest = [] then some s.2 else walk host fuel (rest.dropWhile (· = '/')) s

def chosenRoot (sdRoot patchRoot path : Str) : Str := if path.head? = some '/' then sdRoot else patchRoot

def makeAbsoluteFromRelative (host : Host) (sdRoot patchRoot path : Str) : Option Str :=
  let work := trim (· = '/') path
  walk host work.length work (0, chosenRoot sdRoot patchRoot path)

def xmlFolder (xmlPath : Str) : Str := xmlPath.rdropWhile (· ≠ '/')

def patchRoot (host : Host) (sdRoot xmlPath root : Str) : Str :=
  if root = [] then xmlFolder xmlPath
  else (makeAbsoluteFromRelative host sdRoot (xmlFolder xmlPath) root).getD (xmlFolder xmlPath)

/-! ## What a path means -/

def elements (path : Str) : List Str := (pieces '/' path).filter (· ≠ [])

structure Ordinary (e : Str) : Prop where
  no_slash : '/' ∉ e
  no_dots : ∃ c ∈ e, c ≠ '.'

def Below (root path : Str) : Prop := ∃ stack : List Str, path = root ++ stack.flatMap ('/' :: ·) ∧ ∀ e ∈ stack, Ordinary e

def level (e : Str) : Int :=
  if e = ['.'] then 0 else if e = ['.', '.'] then -1 else if e.all (· = '.') then 0 else 1

def ManyDots (e : Str) : Prop := 3 ≤ e.length ∧ e.all (· = '.') = true

/-- Some elements from the first on go up more often than down, from this depth, or there is one of many dots. -/
def Escapes (depth : Int) (es : List Str) : Prop :=
  (∃ k, depth + ((es.take k).map level).sum < 0) ∨ ∃ e ∈ es, ManyDots e

variable {host : Host} {root e : Str} {stack : List Str}

theorem toLower_eq_iff {c d : Char} (hd : d.val < 'A'.val) : c.toLower = d.toLower ↔ c = d := by
  have hdlower : d.toLower = d := by
    rw [Char.toLower, dif_neg]
    exact fun h => absurd h.1 (by simpa using hd)
  constructor
  · rw [hdlower, Char.toLower]
    intro h
    split at h
    next hc =>
      exfalso
      rw [← h, UInt32.lt_iff_toNat_lt, UInt32.toNat_add] at hd
      have hge := UInt32.le_iff_toNat_le.mp hc.1
      have hle := UInt32.le_iff_toNat_le.mp hc.2
      have hshift : ('a'.val - 'A'.val).toNat = 32 := rfl
      have hA : 'A'.val.toNat = 65 := rfl
      have hZ : 'Z'.val.toNat = 90 := rfl
      omega
    next => exact h
  · exact congrArg _

theorem Ordinary.of_caseInsensitiveEquals {e' : Str} (h : Ordinary e) (heq : caseInsensitiveEquals e e' = true) :
    Ordinary e' := by
  have hmap : e.map Char.toLower = e'.map Char.toLower := of_decide_eq_true heq
  constructor
  · intro hmem
    have hlower : Char.toLower '/' ∈ e.map Char.toLower := hmap ▸ List.mem_map_of_mem hmem
    obtain ⟨c, hc, hclower⟩ := List.mem_map.mp hlower
    exact h.no_slash ((toLower_eq_iff (by decide)).mp hclower ▸ hc)
  · obtain ⟨c, hc, hne⟩ := h.no_dots
    have hlower : c.toLower ∈ e'.map Char.toLower := hmap ▸ List.mem_map_of_mem hc
    obtain ⟨c', hc', hclower⟩ := List.mem_map.mp hlower
    refine ⟨c', hc', fun hdot => hne ?_⟩
    exact (toLower_eq_iff (by decide)).mp (hclower.symm.trans (congrArg _ hdot))

theorem attach_eq (host : Host) (result : Str) (h : Ordinary e) :
    ∃ e', Ordinary e' ∧ attach host result e = result ++ '/' :: e' := by
  rw [attach]
  split
  next => exact ⟨e, h, rfl⟩
  next =>
    cases hfind : (host.scanDirectory (result ++ ['/'])).find? (caseInsensitiveEquals e) with
    | none => exact ⟨e, h, rfl⟩
    | some e' => exact ⟨e', h.of_caseInsensitiveEquals (List.find?_some hfind), rfl⟩

/-- What is taken off is the last element, which has no slash. -/
theorem detach_append (result : Str) (h : '/' ∉ e) : detach (result ++ '/' :: e) = result := by
  have hdrop : (result ++ '/' :: e).rdropWhile (· ≠ '/') = result ++ ['/'] := by
    rw [← List.singleton_append, ← List.append_assoc, List.rdropWhile, List.reverse_append, List.dropWhile_append,
      List.dropWhile_eq_nil_iff.mpr]
    · simp
    · intro c hc
      have hne : c ≠ '/' := fun heq => h (heq ▸ List.mem_reverse.mp hc)
      simpa using hne
  rw [detach, hdrop, List.dropLast_concat]

theorem ordinary_of_not_all (hslash : '/' ∉ e) (h : ¬ e.all (· = '.') = true) : Ordinary e := by
  refine ⟨hslash, ?_⟩
  simpa using h

theorem escapes_cons {depth : Int} (hdepth : 0 ≤ depth) (e : Str) (es : List Str) :
    Escapes depth (e :: es) ↔ ManyDots e ∨ Escapes (depth + level e) es := by
  have hlevels : (∃ k, depth + (((e :: es).take k).map level).sum < 0) ↔
      ∃ k, depth + level e + ((es.take k).map level).sum < 0 := by
    constructor
    · rintro ⟨k, hk⟩
      cases k with
      | zero =>
          simp only [List.take_zero, List.map_nil, List.sum_nil] at hk
          omega
      | succ k => exact ⟨k, by simpa [add_assoc] using hk⟩
    · rintro ⟨k, hk⟩
      exact ⟨k + 1, by simpa [add_assoc] using hk⟩
  rw [Escapes, Escapes, hlevels, List.exists_mem_cons_iff]
  exact or_left_comm

/-- An element that is visited leaves a root with ordinary elements, at their number as depth. -/
theorem visit_spec (hstack : ∀ e ∈ stack, Ordinary e) (hne : e ≠ []) (hslash : '/' ∉ e) :
    (visit host (stack.length, root ++ stack.flatMap ('/' :: ·)) e = none ∧
      (ManyDots e ∨ (stack.length : Int) + level e < 0)) ∨
    (¬ ManyDots e ∧ ∃ stack' : List Str, (∀ e ∈ stack', Ordinary e) ∧ (stack'.length : Int) = stack.length + level e ∧
      visit host (stack.length, root ++ stack.flatMap ('/' :: ·)) e =
        some (stack'.length, root ++ stack'.flatMap ('/' :: ·))) := by
  rw [visit, level]
  by_cases hdot : e = ['.']
  · subst hdot
    exact .inr ⟨fun h => absurd h.1 (by decide), stack, hstack, by simp, by simp⟩
  · rw [if_neg hdot, if_neg hdot]
    by_cases hdots : e = ['.', '.']
    · subst hdots
      rw [if_pos rfl, if_pos rfl]
      rcases List.eq_nil_or_concat' stack with rfl | ⟨front, last, rfl⟩
      · exact .inl ⟨rfl, .inr (by decide)⟩
      · refine .inr ⟨fun h => absurd h.1 (by decide), front, fun e he => hstack e (List.mem_append_left _ he), by simp, ?_⟩
        have hlast := (hstack last (by simp)).no_slash
        rw [if_neg (by simp), List.flatMap_append, List.flatMap_singleton, ← List.append_assoc, detach_append _ hlast]
        simp
    · rw [if_neg hdots, if_neg hdots]
      by_cases hall : e.all (· = '.') = true
      · rw [if_pos hall]
        refine .inl ⟨rfl, .inl ⟨?_, hall⟩⟩
        rcases e with _ | ⟨a, _ | ⟨b, _ | ⟨c, e⟩⟩⟩
        · exact absurd rfl hne
        · simp only [List.all_cons, List.all_nil, Bool.and_true, decide_eq_true_eq] at hall
          exact absurd (congrArg (fun x => [x]) hall) hdot
        · simp only [List.all_cons, List.all_nil, Bool.and_true, Bool.and_eq_true, decide_eq_true_eq] at hall
          exact absurd (by rw [hall.1, hall.2]) hdots
        · simp
      · obtain ⟨e', he', hattach⟩ := attach_eq host (root ++ stack.flatMap ('/' :: ·)) (ordinary_of_not_all hslash hall)
        rw [if_neg hall, if_neg hall, hattach]
        refine .inr ⟨fun h => hall h.2, stack ++ [e'], ?_, by simp, by simp⟩
        intro x hx
        rcases List.mem_append.mp hx with hx | hx
        · exact hstack x hx
        · exact List.mem_singleton.mp hx ▸ he'

theorem visits_spec : ∀ {es stack : List Str}, (∀ e ∈ stack, Ordinary e) → (∀ e ∈ es, e ≠ [] ∧ '/' ∉ e) →
    (∀ s, es.foldlM (visit host) (stack.length, root ++ stack.flatMap ('/' :: ·)) = some s → Below root s.2) ∧
      (es.foldlM (visit host) (stack.length, root ++ stack.flatMap ('/' :: ·)) = none ↔ Escapes stack.length es)
  | [], stack, hstack, _ => by
      refine ⟨fun s h => ⟨stack, ?_, hstack⟩, iff_of_false nofun ?_⟩
      · rw [← Option.some.inj h]
      · rintro (⟨k, hk⟩ | ⟨e, he, _⟩)
        · simp only [List.take_nil, List.map_nil, List.sum_nil] at hk
          omega
        · cases he
  | e :: es, stack, hstack, hes => by
      obtain ⟨hne, hslash⟩ := hes e List.mem_cons_self
      rw [List.foldlM_cons, escapes_cons (Int.natCast_nonneg _)]
      rcases @visit_spec host root e stack hstack hne hslash with
        ⟨hvisit, hescapes⟩ | ⟨hdots, stack', hstack', hlen, hvisit⟩
      · rw [hvisit]
        refine ⟨nofun, iff_of_true rfl (hescapes.imp_right fun hneg => .inl ⟨0, ?_⟩)⟩
        simpa using hneg
      · rw [hvisit, ← hlen, or_iff_right hdots]
        exact visits_spec hstack' fun x hx => hes x (List.mem_cons_of_mem _ hx)

/-! ## The loop -/

theorem elements_slash (path : Str) : elements ('/' :: path) = elements path := by simp [elements, pieces]

theorem elements_dropWhile : ∀ path : Str, elements (path.dropWhile (· = '/')) = elements path
  | [] => rfl
  | c :: path => by
      rw [List.dropWhile_cons]
      split
      next hc =>
        rw [elements_dropWhile path, of_decide_eq_true hc, elements_slash]
      next => rfl

theorem exists_first_slash {path : Str} (h : '/' ∈ path) : ∃ e rest, path = e ++ '/' :: rest ∧ '/' ∉ e := by
  induction path with
  | nil => cases h
  | cons c path ih =>
      by_cases hc : c = '/'
      · exact ⟨[], path, by rw [hc]; rfl, List.not_mem_nil⟩
      · obtain ⟨e, rest, rfl, he⟩ := ih ((List.mem_cons.mp h).resolve_left fun heq => hc heq.symm)
        exact ⟨c :: e, rest, rfl, by simp [he, Ne.symm hc]⟩

theorem elements_cons (hslash : '/' ∉ e) (path : Str) : elements (e ++ '/' :: path) = elements e ++ elements path := by
  cases e with
  | nil => exact elements_slash path
  | cons c e =>
      rw [elements, pieces_append hslash]
      simp [elements, pieces_of_not_mem hslash]

theorem elements_concat (path : Str) : elements (path ++ ['/']) = elements path := by
  by_cases h : '/' ∈ path
  · obtain ⟨e, rest, rfl, he⟩ := exists_first_slash h
    rw [List.append_assoc, List.cons_append, elements_cons he, elements_cons he, elements_concat rest]
  · rw [elements_cons h]
    exact List.append_nil _
termination_by path.length
decreasing_by
  subst_vars
  simp only [List.length_append, List.length_cons]
  omega

theorem elements_rdropWhile (path : Str) : elements (path.rdropWhile (· = '/')) = elements path := by
  induction path using List.reverseRecOn with
  | nil => rfl
  | append_singleton path c ih =>
      by_cases hc : c = '/'
      · rw [List.rdropWhile_concat_pos _ _ _ (by simpa using hc), ih, hc, elements_concat]
      · rw [List.rdropWhile_concat_neg _ _ _ (by simpa using hc)]

theorem walk_eq : ∀ (fuel : Nat) {work : Str} (s : Nat × Str), work.length ≤ fuel → work.head? ≠ some '/' →
    walk host fuel work s = ((elements work).foldlM (visit host) s).map Prod.snd
  | 0, work, s, hfuel, _ => by
      rw [List.length_eq_zero_iff.mp (Nat.le_zero.mp hfuel)]
      rfl
  | fuel + 1, work, s, hfuel, hhead => by
      rw [walk]
      split
      next hnil =>
        rw [hnil]
        rfl
      next hne =>
        obtain ⟨c, cs, rfl⟩ := List.exists_cons_of_ne_nil hne
        have hc : c ≠ '/' := fun heq => hhead (congrArg some heq)
        by_cases hslash : '/' ∈ c :: cs
        · obtain ⟨e, rest, hwork, he⟩ := exists_first_slash hslash
          have hall : ∀ x ∈ e, decide (x ≠ '/') = true := fun x hx => decide_eq_true fun heq => he (heq ▸ hx)
          obtain ⟨x, e, rfl⟩ : ∃ x xs, e = x :: xs := by
            cases e with
            | nil => exact absurd (List.cons.inj hwork).1 hc
            | cons x xs => exact ⟨x, xs, rfl⟩
          have hlen := congrArg List.length hwork
          simp only [List.length_append, List.length_cons] at hlen hfuel
          have hdrop := (List.dropWhile_suffix (fun x => decide (x = '/')) : rest.dropWhile _ <:+ rest).length_le
          rw [hwork, List.takeWhile_append_of_pos hall, List.dropWhile_append_of_pos hall, elements_cons he]
          have helement : elements (x :: e) = [x :: e] := by simp [elements, pieces_of_not_mem he]
          simp only [List.takeWhile_cons, List.dropWhile_cons, ne_eq, not_true_eq_false, decide_false, Bool.false_eq_true,
            if_false, List.append_nil, helement, List.singleton_append, List.foldlM_cons]
          cases visit host s (x :: e) with
          | none => rfl
          | some s =>
              simp only [List.cons_ne_nil, if_false, decide_true, if_true]
              rw [walk_eq fuel s (by omega), elements_dropWhile]
              · rfl
              · intro h
                simpa using head?_dropWhile_not h
        · have hall : ∀ x ∈ c :: cs, decide (x ≠ '/') = true := fun x hx => decide_eq_true fun heq => hslash (heq ▸ hx)
          have helement : elements (c :: cs) = [c :: cs] := by simp [elements, pieces_of_not_mem hslash]
          rw [List.takeWhile_eq_self_iff.mpr hall, List.dropWhile_eq_nil_iff.mpr hall, helement]
          cases hvisit : visit host s (c :: cs) with
          | none => simp [hvisit]
          | some s => simp [hvisit]

/-! ## The paths that are made -/

theorem elements_valid (path : Str) : ∀ e ∈ elements path, e ≠ [] ∧ '/' ∉ e := by
  intro e he
  obtain ⟨hmem, hne⟩ := List.mem_filter.mp he
  exact ⟨by simpa using hne, not_mem_of_mem_pieces hmem⟩

theorem makeAbsolute_spec (host : Host) (sdRoot patchRoot path : Str) :
    (∀ result, makeAbsoluteFromRelative host sdRoot patchRoot path = some result →
      Below (chosenRoot sdRoot patchRoot path) result) ∧
    (makeAbsoluteFromRelative host sdRoot patchRoot path = none ↔ Escapes 0 (elements path)) := by
  have hwalk : makeAbsoluteFromRelative host sdRoot patchRoot path =
      ((elements path).foldlM (visit host) (0, chosenRoot sdRoot patchRoot path)).map Prod.snd := by
    rw [makeAbsoluteFromRelative, walk_eq _ _ (Nat.le_refl _), trim, elements_rdropWhile, elements_dropWhile]
    intro h
    simpa using head?_trim_not h
  obtain ⟨hbelow, hnone⟩ := @visits_spec host (chosenRoot sdRoot patchRoot path) (elements path) [] (by simp)
    (elements_valid path)
  rw [List.flatMap_nil, List.append_nil] at hbelow hnone
  rw [hwalk]
  constructor
  · intro result h
    obtain ⟨s, hs, rfl⟩ := Option.map_eq_some_iff.mp h
    exact hbelow s hs
  · rw [Option.map_eq_none_iff]
    exact hnone

/-- A path that is made lies below the root it is relative to, for any patch root. -/
theorem makeAbsolute_contained (host : Host) (sdRoot xmlPath root path : Str) :
    (patchRoot host sdRoot xmlPath root = xmlFolder xmlPath ∨
      Below (chosenRoot sdRoot (xmlFolder xmlPath) root) (patchRoot host sdRoot xmlPath root)) ∧
    (∀ result, makeAbsoluteFromRelative host sdRoot (patchRoot host sdRoot xmlPath root) path = some result →
      Below (chosenRoot sdRoot (patchRoot host sdRoot xmlPath root) path) result) ∧
    (makeAbsoluteFromRelative host sdRoot (patchRoot host sdRoot xmlPath root) path = none ↔ Escapes 0 (elements path)) := by
  refine ⟨?_, makeAbsolute_spec host sdRoot _ path⟩
  generalize hroot : patchRoot host sdRoot xmlPath root = r
  rw [patchRoot] at hroot
  split at hroot
  next => exact .inl hroot.symm
  next =>
    cases hmake : makeAbsoluteFromRelative host sdRoot (xmlFolder xmlPath) root with
    | none => exact .inl (by rw [← hroot, hmake]; rfl)
    | some result =>
        rw [hmake] at hroot
        exact .inr (hroot ▸ (makeAbsolute_spec host sdRoot (xmlFolder xmlPath) root).1 result hmake)

end Karphin.DiscIO.Riivolution
