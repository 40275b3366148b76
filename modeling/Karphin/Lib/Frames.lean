import Mathlib

/-!
# Data that is decoded frame by frame

`step` takes one frame off the front of the data and gives its size. A size of zero means that the data does not hold the
whole frame yet. Where frames that meet may be joined, what they do is compared up to a relation `R`.
-/

namespace Karphin.Lib.Frames

variable {β σ : Type*}

def run (step : List β → σ → Nat × σ) (data : List β) (s : σ) : Nat × σ :=
  if data = [] then (0, s)
  else if (step data s).1 = 0 then (0, (step data s).2)
  else
    ((step data s).1 + (run step (data.drop (step data s).1) (step data s).2).1,
      (run step (data.drop (step data s).1) (step data s).2).2)
termination_by data.length
decreasing_by
  all_goals
    rename_i hdata hsize
    have hlength := List.length_pos_of_ne_nil hdata
    simp only [List.length_drop]
    omega

def feed (step : List β → σ → Nat × σ) : List (List β) → List β × σ → List β × σ
  | [], r => r
  | piece :: pieces, (buffer, s) =>
      let r := run step (buffer ++ piece) s
      feed step pieces ((buffer ++ piece).drop r.1, r.2)

variable {step : List β → σ → Nat × σ} {R : σ → σ → Prop}

@[simp] theorem run_nil (s : σ) : run step [] s = (0, s) := by rw [run, if_pos rfl]

theorem run_stop {data : List β} {s : σ} (hdata : data ≠ []) (h : (step data s).1 = 0) :
    run step data s = (0, (step data s).2) := by
  rw [run, if_neg hdata, if_pos h]

theorem run_frame {data : List β} {s : σ} (hdata : data ≠ []) (h : (step data s).1 ≠ 0) :
    run step data s = ((step data s).1 + (run step (data.drop (step data s).1) (step data s).2).1,
      (run step (data.drop (step data s).1) (step data s).2).2) := by
  rw [run, if_neg hdata, if_neg h]

theorem run_eq_of_step_eq {data : List β} {s t : σ} (hdata : data ≠ []) (h : step data s = step data t) :
    run step data s = run step data t := by
  by_cases hsize : (step data t).1 = 0
  · rw [run_stop hdata hsize, run_stop hdata (by rw [h]; exact hsize), h]
  · rw [run_frame hdata hsize, run_frame hdata (by rw [h]; exact hsize), h]

theorem run_induction (P : List β → σ → Nat × σ → Prop) (hnil : ∀ s, P [] s (0, s))
    (hstop : ∀ data s, data ≠ [] → (step data s).1 = 0 → P data s (0, (step data s).2))
    (hframe : ∀ data s r, data ≠ [] → (step data s).1 ≠ 0 → P (data.drop (step data s).1) (step data s).2 r →
      P data s ((step data s).1 + r.1, r.2)) (data : List β) (s : σ) : P data s (run step data s) := by
  induction data, s using run.induct step with
  | case1 s =>
      rw [run_nil]
      exact hnil s
  | case2 data s hdata hsize =>
      rw [run_stop hdata hsize]
      exact hstop data s hdata hsize
  | case3 data s hdata hsize ih =>
      rw [run_frame hdata hsize]
      exact hframe data s _ hdata hsize ih

/-- The frames do not depend on what follows them. -/
structure Laws (step : List β → σ → Nat × σ) (R : σ → σ → Prop) : Prop where
  equiv : Equivalence R
  congr : ∀ data s t, R s t → (step data s).1 = (step data t).1 ∧ R (step data s).2 (step data t).2
  size_le : ∀ data s, (step data s).1 ≤ data.length
  /-- A frame that was not whole has done nothing that its next try does not do. -/
  retry : ∀ data more s, (step data s).1 = 0 → step (data ++ more) (step data s).2 = step (data ++ more) s
  stable : ∀ data more s, (step data s).1 ≠ 0 → (step data s).1 < data.length → step (data ++ more) s = step data s
  /-- A frame at the end of the data may be joined with the next one. -/
  seam : ∀ data more s, (step data s).1 ≠ 0 → (step data s).1 = data.length →
    step (data ++ more) s = step data s ∨ more ≠ [] ∧ (step more (step data s).2).1 ≠ 0 ∧
      (step (data ++ more) s).1 = data.length + (step more (step data s).2).1 ∧
      R (step (data ++ more) s).2 (step more (step data s).2).2

theorem Laws.run_le (h : Laws step R) (data : List β) (s : σ) : (run step data s).1 ≤ data.length := by
  refine run_induction (fun data s r => r.1 ≤ data.length) (fun _ => Nat.le_refl _) (fun _ _ _ _ => Nat.zero_le _) ?_ data s
  intro data s r _ _ hr
  have hle := h.size_le data s
  rw [List.length_drop] at hr
  change (step data s).1 + r.1 ≤ data.length
  omega

theorem Laws.run_congr (h : Laws step R) (data : List β) (s : σ) : ∀ t, R s t →
    (run step data s).1 = (run step data t).1 ∧ R (run step data s).2 (run step data t).2 := by
  refine run_induction (fun data s r => ∀ t, R s t → r.1 = (run step data t).1 ∧ R r.2 (run step data t).2) ?_ ?_ ?_ data s
  · intro s t hst
    rw [run_nil]
    exact ⟨rfl, hst⟩
  · intro data s hdata hsize t hst
    obtain ⟨heq, hstate⟩ := h.congr data s t hst
    rw [run_stop hdata (heq ▸ hsize)]
    exact ⟨rfl, hstate⟩
  · intro data s r hdata hsize ih t hst
    obtain ⟨heq, hstate⟩ := h.congr data s t hst
    obtain ⟨hrun, hend⟩ := ih _ hstate
    rw [run_frame hdata (heq ▸ hsize), ← heq]
    exact ⟨congrArg ((step data s).1 + ·) hrun, hend⟩

theorem Laws.run_append (h : Laws step R) (more data : List β) (s : σ) :
    (run step (data ++ more) s).1 = (run step data s).1 +
      (run step (data.drop (run step data s).1 ++ more) (run step data s).2).1 ∧
    R (run step (data ++ more) s).2 (run step (data.drop (run step data s).1 ++ more) (run step data s).2).2 := by
  refine run_induction (fun data s r => (run step (data ++ more) s).1 = r.1 + (run step (data.drop r.1 ++ more) r.2).1 ∧
    R (run step (data ++ more) s).2 (run step (data.drop r.1 ++ more) r.2).2) ?_ ?_ ?_ data s
  · intro s
    exact ⟨(Nat.zero_add _).symm, h.equiv.refl _⟩
  · intro data s hdata hsize
    -- The frame is tried again with more data.
    have hne : data ++ more ≠ [] := fun heq => hdata (List.append_eq_nil_iff.mp heq).1
    have hagain := run_eq_of_step_eq hne (h.retry data more s hsize)
    rw [List.drop_zero, hagain, Nat.zero_add]
    exact ⟨rfl, h.equiv.refl _⟩
  · intro data s r hdata hsize ih
    have hne : data ++ more ≠ [] := fun heq => hdata (List.append_eq_nil_iff.mp heq).1
    have hle := h.size_le data s
    have hdrop : (data ++ more).drop (step data s).1 = data.drop (step data s).1 ++ more :=
      List.drop_append_of_le_length hle
    rw [← List.drop_drop]
    -- The same frame comes first.
    have hsame (heq : step (data ++ more) s = step data s) : run step (data ++ more) s =
        ((step data s).1 + (run step (data.drop (step data s).1 ++ more) (step data s).2).1,
          (run step (data.drop (step data s).1 ++ more) (step data s).2).2) := by
      rw [run_frame hne (by rw [heq]; exact hsize), heq, hdrop]
    rcases Nat.lt_or_ge (step data s).1 data.length with hlt | hge
    · rw [hsame (h.stable data more s hsize hlt)]
      exact ⟨by rw [ih.1, Nat.add_assoc], ih.2⟩
    · have hlength := Nat.le_antisymm hle hge
      rcases h.seam data more s hsize hlength with heq | ⟨hmore, hnext, hsum, hstate⟩
      · rw [hsame heq]
        exact ⟨by rw [ih.1, Nat.add_assoc], ih.2⟩
      · -- The frame that ends the data and the first one of the rest are one frame of the whole.
        have hrest : data.drop (step data s).1 = [] := List.drop_eq_nil_of_le hge
        rw [hrest, List.drop_nil, List.nil_append] at ih
        rw [hrest, List.drop_nil, List.nil_append]
        have hwhole : (data ++ more).drop (step (data ++ more) s).1 = more.drop (step more (step data s).2).1 := by
          rw [hsum, List.drop_append, List.drop_eq_nil_of_le (Nat.le_add_right _ _), Nat.add_sub_cancel_left,
            List.nil_append]
        obtain ⟨hsizes, hstates⟩ := h.run_congr (more.drop (step more (step data s).2).1) _ _ hstate
        have hlong : (step (data ++ more) s).1 ≠ 0 := by omega
        have hrun : (run step (data ++ more) s).1 = (step data s).1 + (run step more (step data s).2).1 := by
          rw [run_frame hne hlong, run_frame hmore hnext, hwhole, hsizes]
          omega
        have hend : R (run step (data ++ more) s).2 (run step more (step data s).2).2 := by
          rw [run_frame hne hlong, run_frame hmore hnext, hwhole]
          exact hstates
        exact ⟨by rw [hrun, ih.1, Nat.add_assoc], h.equiv.trans hend ih.2⟩

theorem Laws.feed_append (h : Laws step R) (pieces : List (List β)) : ∀ (data : List β) (s t : σ),
    R t (run step data s).2 →
    (feed step pieces (data.drop (run step data s).1, t)).1 =
      (data ++ pieces.flatten).drop (run step (data ++ pieces.flatten) s).1 ∧
    R (feed step pieces (data.drop (run step data s).1, t)).2 (run step (data ++ pieces.flatten) s).2 := by
  induction pieces with
  | nil =>
      intro data s t ht
      rw [List.flatten_nil, List.append_nil]
      exact ⟨rfl, ht⟩
  | cons piece pieces ih =>
      intro data s t ht
      obtain ⟨hsize, hstate⟩ := h.run_append piece data s
      obtain ⟨hsize', hstate'⟩ := h.run_congr (data.drop (run step data s).1 ++ piece) t _ ht
      rw [List.flatten_cons, ← List.append_assoc]
      have hdrop : (data ++ piece).drop (run step (data ++ piece) s).1 =
          (data.drop (run step data s).1 ++ piece).drop (run step (data.drop (run step data s).1 ++ piece) t).1 := by
        rw [hsize, ← List.drop_drop, List.drop_append_of_le_length (h.run_le data s), hsize']
      have hnext := ih (data ++ piece) s (run step (data.drop (run step data s).1 ++ piece) t).2
        (h.equiv.trans hstate' (h.equiv.symm hstate))
      rw [hdrop] at hnext
      exact hnext

theorem Laws.feed_run (h : Laws step R) (pieces : List (List β)) (s : σ) :
    (feed step pieces ([], s)).1 = pieces.flatten.drop (run step pieces.flatten s).1 ∧
    R (feed step pieces ([], s)).2 (run step pieces.flatten s).2 := by
  have hstart := h.feed_append pieces [] s s
  rw [run_nil] at hstart
  exact hstart (h.equiv.refl s)

end Karphin.Lib.Frames
