import Mathlib

/-!
# Trees in a table

A tree may stand in a table, each entry before the entries below it, with the index of the first entry that is not below it
any more. A run of entries is then a list of trees.
-/

namespace Karphin.Lib

variable {next : ℕ → ℕ}

inductive Roots (next : ℕ → ℕ) : ℕ → ℕ → List ℕ → Prop
  | nil (i : ℕ) : Roots next i i []
  | cons {i stop : ℕ} {roots : List ℕ} : i ≠ stop → Roots next (next i) stop roots → Roots next i stop (i :: roots)

/-- What stands from an index to another are trees, of which each entry has a property together with the entry above it. -/
inductive Forest (next : ℕ → ℕ) (P : ℕ → ℕ → Prop) : ℕ → ℕ → ℕ → Prop
  | nil (parent i : ℕ) : Forest next P parent i i
  | cons {parent i stop : ℕ} : P parent i → Forest next P i (i + 1) (next i) → Forest next P parent (next i) stop →
      Forest next P parent i stop

variable {P : ℕ → ℕ → Prop} {parent i stop : ℕ}

theorem Forest.le (h : Forest next P parent i stop) : i ≤ stop := by
  induction h with
  | nil => exact le_rfl
  | cons _ _ _ hbelow hrest => exact (Nat.le_succ _).trans (hbelow.trans hrest)

theorem Forest.cases_lt (h : Forest next P parent i stop) (hlt : i < stop) :
    P parent i ∧ Forest next P i (i + 1) (next i) ∧ Forest next P parent (next i) stop := by
  cases h with
  | nil => exact absurd hlt (lt_irrefl _)
  | cons hentry hbelow hrest => exact ⟨hentry, hbelow, hrest⟩

theorem Forest.tree (h : Forest next P parent i stop) {j : ℕ} (hi : i ≤ j) (hj : j < stop) :
    Forest next P j (j + 1) (next j) ∧ next j ≤ stop := by
  induction h with
  | nil => exact absurd hj (Nat.not_lt.mpr hi)
  | @cons parent i stop hentry hbelow hrest ihbelow ihrest =>
      rcases hi.eq_or_lt with rfl | hlt
      · exact ⟨hbelow, hrest.le⟩
      rcases Nat.lt_or_ge j (next i) with hin | hout
      · obtain ⟨htree, hend⟩ := ihbelow hlt hin
        exact ⟨htree, hend.trans hrest.le⟩
      · exact ihrest hout hj

theorem Forest.property (h : Forest next P parent i stop) (hparent : parent < i) {j : ℕ} (hi : i ≤ j) (hj : j < stop) :
    ∃ above < j, P above j := by
  induction h with
  | nil => exact absurd hj (Nat.not_lt.mpr hi)
  | @cons parent i stop hentry hbelow hrest ihbelow ihrest =>
      rcases hi.eq_or_lt with rfl | hlt
      · exact ⟨parent, hparent, hentry⟩
      rcases Nat.lt_or_ge j (next i) with hin | hout
      · exact ihbelow (Nat.lt_succ_self i) hlt hin
      · exact ihrest (hparent.trans (hbelow.le)) hout hj

/-! ## Roots -/

theorem Forest.exists_roots (h : Forest next P parent i stop) :
    ∃ roots, Roots next i stop roots ∧ roots.length ≤ stop - i ∧
      ∀ j ∈ roots, i ≤ j ∧ j < stop ∧ P parent j := by
  induction h with
  | nil => exact ⟨[], .nil _, Nat.zero_le _, by simp⟩
  | @cons parent i stop hentry hbelow hrest _ ihrest =>
      obtain ⟨roots, hroots, hlength, hmem⟩ := ihrest
      have hbegin := hbelow.le
      have hend := hrest.le
      refine ⟨i :: roots, .cons (by omega) hroots, ?_, fun j hj => ?_⟩
      · rw [List.length_cons]
        omega
      · rcases List.mem_cons.mp hj with rfl | hj
        · exact ⟨le_rfl, by omega, hentry⟩
        · obtain ⟨hlower, hupper, hproperty⟩ := hmem j hj
          exact ⟨by omega, hupper, hproperty⟩

theorem Roots.unique {roots roots' : List ℕ} (h : Roots next i stop roots) (h' : Roots next i stop roots') :
    roots = roots' := by
  induction h generalizing roots' with
  | nil =>
      cases h' with
      | nil => rfl
      | cons hne => exact absurd rfl hne
  | cons hne _ ih =>
      cases h' with
      | nil => exact absurd rfl hne
      | cons _ hrest => rw [ih hrest]

theorem Roots.flatMap {roots : List ℕ} (h : Roots next i stop roots) (hforest : Forest next P parent i stop) :
    roots.flatMap (fun j => List.range' j (next j - j)) = List.range' i (stop - i) := by
  induction h with
  | nil => simp
  | @cons i stop roots hne hroots ih =>
      obtain ⟨-, hbelow, hrest⟩ := hforest.cases_lt (hforest.le.lt_of_ne hne)
      have hbegin := hbelow.le
      have hend := hrest.le
      have hsplit : List.range' i (next i - i) ++ List.range' (next i) (stop - next i) = List.range' i (stop - i) := by
        have hstart : i + (next i - i) = next i := by omega
        have hlength : next i - i + (stop - next i) = stop - i := by omega
        rw [← hlength, ← List.range'_append_1, hstart]
      rw [List.flatMap_cons, ih hrest, hsplit]

theorem Roots.next_le {roots : List ℕ} (h : Roots next i stop roots) (hforest : Forest next P parent i stop) {j q : ℕ}
    (hj : j ∈ roots) (hi : i ≤ q) (hq : q < j) : next q ≤ j := by
  induction h with
  | nil => cases hj
  | @cons i stop roots hne hroots ih =>
      obtain ⟨-, hbelow, hrest⟩ := hforest.cases_lt (hforest.le.lt_of_ne hne)
      rcases List.mem_cons.mp hj with rfl | hj
      · exact absurd hq (Nat.not_lt.mpr hi)
      have hnext : next i ≤ j := by
        obtain ⟨roots', hroots', -, hmem⟩ := hrest.exists_roots
        rw [hroots.unique hroots'] at hj
        exact (hmem j hj).1
      rcases Nat.lt_or_ge q (next i) with hin | hout
      · rcases hi.eq_or_lt with rfl | hlt
        · exact hnext
        · exact (hbelow.tree hlt hin).2.trans hnext
      · exact ih hrest hj hout

theorem Roots.parent_unique {p p' j : ℕ} {roots roots' : List ℕ} (h : Roots next (p + 1) (next p) roots)
    (h' : Roots next (p' + 1) (next p') roots') (hforest : Forest next P p (p + 1) (next p))
    (hforest' : Forest next P p' (p' + 1) (next p')) (hj : j ∈ roots) (hj' : j ∈ roots') : p = p' := by
  have hbounds : ∀ {q roots}, Roots next (q + 1) (next q) roots → Forest next P q (q + 1) (next q) → j ∈ roots →
      q < j ∧ j < next q := by
    intro q roots hroots hforest hj
    obtain ⟨roots', hroots', -, hmem⟩ := hforest.exists_roots
    rw [hroots.unique hroots'] at hj
    exact ⟨(hmem j hj).1, (hmem j hj).2.1⟩
  obtain ⟨hlower, hupper⟩ := hbounds h hforest hj
  obtain ⟨hlower', hupper'⟩ := hbounds h' hforest' hj'
  rcases Nat.lt_trichotomy p p' with hlt | rfl | hlt
  · exact absurd (h.next_le hforest hj hlt hlower') (Nat.not_le.mpr hupper')
  · rfl
  · exact absurd (h'.next_le hforest' hj' hlt hlower) (Nat.not_le.mpr hupper)

end Karphin.Lib
