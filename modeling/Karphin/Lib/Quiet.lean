import Mathlib

/-!
# Quiet readers

A reader takes a value from a state and may leave marks on it that no reader looks at: which entry was used last, that
something was reported. What it takes is then the same from states that differ in marks only, and what it leaves is the
marks, in order.
-/

namespace Karphin.Lib

/-- Marks on a state, and the states that differ in marks only. -/
structure Marking (σ ε : Type) where
  mark : ε → σ → σ
  Alike : σ → σ → Prop
  equivalence : Equivalence Alike
  mark_alike : ∀ e s, Alike (mark e s) s

namespace Marking

variable {σ ε α β ι : Type} (M : Marking σ ε)

def replay (events : List ε) (s : σ) : σ := events.foldl (fun s e => M.mark e s) s

theorem replay_append (events events' : List ε) (s : σ) :
    M.replay (events ++ events') s = M.replay events' (M.replay events s) := List.foldl_append

theorem replay_alike (events : List ε) (s : σ) : M.Alike (M.replay events s) s := by
  induction events generalizing s with
  | nil => exact M.equivalence.refl s
  | cons e events ih => exact M.equivalence.trans (ih (M.mark e s)) (M.mark_alike e s)

structure Quiet (read : σ → α × σ) (events : σ → List ε) : Prop where
  state : ∀ s, (read s).2 = M.replay (events s) s
  value : ∀ {s s'}, M.Alike s s' → (read s).1 = (read s').1
  events : ∀ {s s'}, M.Alike s s' → events s = events s'

namespace Quiet

variable {M} {read : σ → α × σ} {events : σ → List ε}

theorem alike (h : M.Quiet read events) (s : σ) : M.Alike (read s).2 s := by
  rw [h.state]
  exact M.replay_alike (events s) s

theorem look {f : σ → α} (hf : ∀ {s s'}, M.Alike s s' → f s = f s') : M.Quiet (fun s => (f s, s)) fun _ => [] where
  state _ := rfl
  value h := hf h
  events _ := rfl

theorem map (h : M.Quiet read events) (f : α → β) : M.Quiet (fun s => (f (read s).1, (read s).2)) events where
  state := h.state
  value hs := congrArg f (h.value hs)
  events := h.events

theorem bind (h : M.Quiet read events) {next : α → σ → β × σ} {nextEvents : α → σ → List ε}
    (hnext : ∀ a, M.Quiet (next a) (nextEvents a)) :
    M.Quiet (fun s => next (read s).1 (read s).2) fun s => events s ++ nextEvents (read s).1 s where
  state s := by
    rw [(hnext _).state, (hnext _).events (h.alike s), M.replay_append, ← h.state]
  value {s s'} hs := by
    have hboth : M.Alike (read s).2 (read s').2 :=
      M.equivalence.trans (h.alike s) (M.equivalence.trans hs (M.equivalence.symm (h.alike s')))
    rw [h.value hs, (hnext _).value hboth]
  events {s s'} hs := by
    rw [h.events hs, h.value hs, (hnext _).events hs]

theorem foldl {body : ι → σ → α × σ} {bodyEvents : ι → σ → List ε} (hbody : ∀ i, M.Quiet (body i) (bodyEvents i))
    (add : β → α → β) (indices : List ι) (start : β) :
    M.Quiet (fun s => indices.foldl (fun acc i => (add acc.1 (body i acc.2).1, (body i acc.2).2)) (start, s))
      fun s => indices.flatMap fun i => bodyEvents i s := by
  induction indices generalizing start with
  | nil => exact look fun _ => rfl
  | cons i indices ih =>
      have hrest := (hbody i).bind fun a => ih (add start a)
      exact hrest

theorem ite (p : Prop) [Decidable p] (h : M.Quiet read events) {read' : σ → α × σ} {events' : σ → List ε}
    (h' : M.Quiet read' events') :
    M.Quiet (fun s => if p then read s else read' s) fun s => if p then events s else events' s := by
  by_cases hp : p
  · simp only [if_pos hp]
    exact h
  · simp only [if_neg hp]
    exact h'

theorem congr (h : M.Quiet read events) {read' : σ → α × σ} {events' : σ → List ε} (hread : ∀ s, read' s = read s)
    (hevents : ∀ s, events' s = events s) : M.Quiet read' events' := by
  rw [funext hread, funext hevents]
  exact h

end Quiet

end Marking

end Karphin.Lib
