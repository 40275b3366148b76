import Mathlib

/-!
# The last write

A table is built by a loop whose passes each write to it or not. What an entry holds afterwards is what the last pass that
wrote there has written.
-/

namespace Karphin.Lib

variable {α β κ : Type}

theorem foldl_lastWrite {step : (κ → β) → α → κ → β} {key : κ} {hit : α → Option β} (passes : List α)
    (hstep : ∀ table, ∀ a ∈ passes, step table a key = (hit a).getD (table key)) (table : κ → β) :
    passes.foldl step table key = (passes.reverse.findSome? hit).getD (table key) := by
  induction passes generalizing table with
  | nil => rfl
  | cons a passes ih =>
      have hrest : ∀ table, ∀ b ∈ passes, step table b key = (hit b).getD (table key) := fun table b hb =>
        hstep table b (List.mem_cons_of_mem a hb)
      rw [List.foldl_cons, ih hrest, hstep table a List.mem_cons_self, List.reverse_cons, List.findSome?_append,
        List.findSome?_cons]
      cases passes.reverse.findSome? hit with
      | some b => rfl
      | none => cases hit a <;> rfl

theorem findSome?_ite (p : α → Bool) (f : α → β) (passes : List α) :
    passes.findSome? (fun a => if p a = true then some (f a) else none) = (passes.find? p).map f := by
  induction passes with
  | nil => rfl
  | cons a passes ih =>
      rw [List.findSome?_cons, List.find?_cons]
      cases p a with
      | true => rfl
      | false => exact ih

theorem findSome?_of_agree {passes : List α} {hit : α → Option β} {a : α} {b : β} (hmem : a ∈ passes) (ha : hit a = some b)
    (hagree : ∀ a' b', hit a' = some b' → b' = b) : passes.findSome? hit = some b := by
  cases h : passes.findSome? hit with
  | none =>
      rw [List.findSome?_eq_none_iff] at h
      rw [h a hmem] at ha
      cases ha
  | some b' =>
      obtain ⟨a', -, ha'⟩ := List.exists_of_findSome?_eq_some h
      rw [hagree a' b' ha']

end Karphin.Lib
