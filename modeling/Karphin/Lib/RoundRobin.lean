import Mathlib

/-!
# Dealing out a list

The elements of a list are dealt out to `n` lanes, one after the other. A list is determined by its lanes.
-/

namespace Karphin.Lib

variable {α β : Type}

def everyNth (n : Nat) : (c : Nat) → List α → List α
  | _, [] => []
  | 0, x :: l => x :: everyNth n (n - 1) l
  | c + 1, _ :: l => everyNth n c l

def lane (n i : Nat) (l : List α) : List α := everyNth n i l

variable {n i c k : Nat} {l l' : List α}

theorem everyNth_getElem? (hn : 0 < n) : ∀ (l : List α) (c k : Nat), (everyNth n c l)[k]? = l[c + n * k]?
  | [], c, k => by simp [everyNth]
  | x :: l, 0, 0 => by simp [everyNth]
  | x :: l, 0, k + 1 => by
      have hindex : 0 + n * (k + 1) = n - 1 + n * k + 1 := by
        rw [Nat.mul_succ]
        omega
      rw [everyNth, List.getElem?_cons_succ, everyNth_getElem? hn l, hindex, List.getElem?_cons_succ]
  | x :: l, c + 1, k => by
      have hindex : c + 1 + n * k = c + n * k + 1 := by omega
      rw [everyNth, everyNth_getElem? hn l, hindex, List.getElem?_cons_succ]

theorem lane_getElem? (hn : 0 < n) (i k : Nat) (l : List α) : (lane n i l)[k]? = l[i + n * k]? :=
  everyNth_getElem? hn l i k

theorem getElem?_eq_lane (hn : 0 < n) (k : Nat) (l : List α) : l[k]? = (lane n (k % n) l)[k / n]? := by
  rw [lane_getElem? hn, Nat.mod_add_div]

@[simp]
theorem lane_nil (n i : Nat) : lane n i ([] : List α) = [] := by simp [lane, everyNth]

theorem everyNth_append_singleton (hn : 0 < n) (x : α) : ∀ (l : List α) (c : Nat), c < n →
    everyNth n c (l ++ [x]) = everyNth n c l ++ if l.length % n = c then [x] else []
  | [], 0, _ => by simp [everyNth]
  | [], c + 1, _ => by simp [everyNth]
  | y :: l, 0, _ => by
      have hturn : ((y :: l).length % n = 0) = (l.length % n = n - 1) := by
        rw [List.length_cons, Nat.add_mod_eq_ite]
        have hlt := Nat.mod_lt l.length hn
        by_cases hone : n = 1
        · subst hone
          simp [Nat.mod_one]
        · have h1 : 1 % n = 1 := Nat.mod_eq_of_lt (by omega)
          rw [h1]
          split <;> simp only [eq_iff_iff] <;> omega
      rw [List.cons_append, everyNth, everyNth, everyNth_append_singleton hn x l (n - 1) (by omega), List.cons_append]
      simp only [hturn]
  | y :: l, c + 1, hc => by
      have hturn : ((y :: l).length % n = c + 1) = (l.length % n = c) := by
        rw [List.length_cons, Nat.add_mod_eq_ite]
        have hlt := Nat.mod_lt l.length hn
        have h1 : 1 % n = 1 := Nat.mod_eq_of_lt (by omega)
        rw [h1]
        split <;> simp only [eq_iff_iff] <;> omega
      rw [List.cons_append, everyNth, everyNth, everyNth_append_singleton hn x l c (by omega)]
      simp only [hturn]

theorem lane_append_singleton (hi : i < n) (l : List α) (x : α) :
    lane n i (l ++ [x]) = lane n i l ++ if l.length % n = i then [x] else [] :=
  everyNth_append_singleton (by omega) x l i hi

theorem lane_append_other (hi : i < n) (h : l.length % n ≠ i) (x : α) : lane n i (l ++ [x]) = lane n i l := by
  rw [lane_append_singleton hi, if_neg h, List.append_nil]

theorem lane_map (f : α → β) (n i : Nat) (l : List α) : lane n i (l.map f) = (lane n i l).map f := by
  rw [lane, lane]
  induction l generalizing i with
  | nil => simp [everyNth]
  | cons x l ih =>
      cases i with
      | zero => simp only [List.map_cons, everyNth, ih]
      | succ c => simp only [List.map_cons, everyNth, ih]

theorem prefix_of_lanes (hn : 0 < n) (h : ∀ i < n, lane n i l <+: lane n i l') : l <+: l' := by
  rw [List.prefix_iff_getElem?]
  intro k hk
  have hlane := h (k % n) (Nat.mod_lt _ hn)
  rw [List.prefix_iff_getElem?] at hlane
  have hin : (lane n (k % n) l)[k / n]? = some l[k] := by
    rw [← getElem?_eq_lane hn, List.getElem?_eq_getElem hk]
  have hlt : k / n < (lane n (k % n) l).length := by
    by_contra hge
    rw [List.getElem?_eq_none (Nat.le_of_not_lt hge)] at hin
    cases hin
  rw [getElem?_eq_lane hn, hlane _ hlt, ← List.getElem?_eq_getElem hlt, hin]

theorem eq_of_lanes (hn : 0 < n) (h : ∀ i < n, lane n i l = lane n i l') : l = l' := by
  apply List.ext_getElem?
  intro k
  rw [getElem?_eq_lane hn k l, getElem?_eq_lane hn k l', h _ (Nat.mod_lt _ hn)]

theorem lane_filterMap (f : α → Option β) : ∀ (l : List α),
    (∀ before x, before ++ [x] <+: l → (f x).isSome → (before.filterMap f).length % n = before.length % n) →
    ∀ i < n, (lane n i l).filterMap f = lane n i (l.filterMap f) := by
  intro l
  induction l using List.reverseRecOn with
  | nil => simp
  | append_singleton l x ih =>
      intro h i hi
      have hl := ih (fun before y hy => h before y (hy.trans (List.prefix_append ..))) i hi
      have hturn := h l x (List.prefix_refl _)
      rw [lane_append_singleton hi, List.filterMap_append, List.filterMap_append, hl]
      cases hx : f x with
      | none =>
          have hnil : ([x].filterMap f) = [] := by simp [hx]
          rw [hnil, List.append_nil]
          split
          · rw [hnil, List.append_nil]
          · rw [List.filterMap_nil, List.append_nil]
      | some y =>
          have hone : ([x].filterMap f) = [y] := by simp [hx]
          rw [hone, lane_append_singleton hi, hturn (by rw [hx]; rfl)]
          split
          · rw [hone]
          · rfl

end Karphin.Lib
