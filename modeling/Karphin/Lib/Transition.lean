import Mathlib

/-!
# Runs of a partial step function

A component is a step function `step : σ → α → Option σ`: `none` means that the action is not enabled.
`Reach step ok s₀` collects the states reached from `s₀` by runs whose steps all meet the side condition
`ok`, which may look at the state before the step.
-/

namespace Karphin.Lib

variable {σ α τ : Type*}

inductive Reach (step : σ → α → Option σ) (ok : σ → α → Prop) (s₀ : σ) : σ → Prop
  | refl : Reach step ok s₀ s₀
  | tail {s a s'} : Reach step ok s₀ s → ok s a → step s a = some s' → Reach step ok s₀ s'

def anyStep : σ → α → Prop := fun _ _ => True

def run (step : σ → α → Option σ) : σ → List α → Option σ
  | s, [] => some s
  | s, a :: as => (step s a).bind fun s' => run step s' as

variable {step : σ → α → Option σ} {ok ok' : σ → α → Prop} {s₀ s s' : σ}

theorem Reach.invariant (Inv : σ → Prop) (h₀ : Inv s₀)
    (hstep : ∀ {s a s'}, Inv s → ok s a → step s a = some s' → Inv s') :
    Reach step ok s₀ s → Inv s := by
  intro h
  induction h with
  | refl => exact h₀
  | tail _ hok hs ih => exact hstep ih hok hs

theorem Reach.mono (hok : ∀ s a, ok s a → ok' s a) (h : Reach step ok s₀ s) : Reach step ok' s₀ s := by
  induction h with
  | refl => exact .refl
  | tail _ ha hs ih => exact .tail ih (hok _ _ ha) hs

theorem Reach.trans (h : Reach step ok s₀ s) (h' : Reach step ok s s') : Reach step ok s₀ s' := by
  induction h' with
  | refl => exact h
  | tail _ ha hs ih => exact .tail ih ha hs

theorem reach_of_guarded [∀ s a, Decidable (ok s a)] : ∀ {as : List α} {s s' : σ},
    run (fun s a => if ok s a then step s a else none) s as = some s' → Reach step ok s s'
  | [], s, s', h => by
      simp only [run, Option.some.injEq] at h
      subst h; exact .refl
  | a :: as, s, s', h => by
      simp only [run, Option.bind_eq_some_iff] at h
      obtain ⟨t, ht, hrun⟩ := h
      split at ht
      · next hok => exact (Reach.refl.tail hok ht).trans (reach_of_guarded hrun)
      · cases ht

theorem run_append (as bs : List α) : run step s (as ++ bs) = (run step s as).bind fun s' => run step s' bs := by
  induction as generalizing s with
  | nil => rfl
  | cons a as ih =>
      rw [List.cons_append, run, run, Option.bind_assoc]
      congr
      funext s'
      exact ih

theorem reach_of_run : ∀ {as : List α} {s s' : σ}, run step s as = some s' → Reach step anyStep s s'
  | [], s, s', h => by
      simp only [run, Option.some.injEq] at h
      subst h; exact .refl
  | a :: as, s, s', h => by
      simp only [run, Option.bind_eq_some_iff] at h
      obtain ⟨t, ht, hrun⟩ := h
      exact (Reach.refl.tail trivial ht).trans (reach_of_run hrun)

end Karphin.Lib
