import Mathlib

/-!
# Reading a file from its start

A reader takes what it needs from what is left of the file and fails when there is too little. What was written for it is
read back, and no part of that that ends early is.
-/

namespace Karphin.Lib

variable {α γ β : Type}

abbrev FileReader (β α : Type) := StateT (List β) Option α

namespace FileReader

def readBytes (n : Nat) : FileReader β (List β) := fun file =>
  if n ≤ file.length then some (file.take n, file.drop n) else none

def check (c : Prop) [Decidable c] : FileReader β Unit := if c then pure () else failure

def Cut (p : FileReader β α) (bytes : List β) : Prop := ∀ n < bytes.length, p (bytes.take n) = none

/-- The reader gives `v` for these bytes and reads no further. -/
structure Exact (p : FileReader β α) (bytes : List β) (v : α) : Prop where
  whole : ∀ rest, p (bytes ++ rest) = some (v, rest)
  cut : Cut p bytes

theorem Exact.readBytes {bytes : List β} {n : Nat} (h : bytes.length = n) : Exact (readBytes n) bytes bytes where
  whole rest := by simp [FileReader.readBytes, ← h]
  cut m hm := by
    rw [FileReader.readBytes, List.length_take, if_neg]
    omega

theorem Exact.pure (v : α) : Exact (pure v : FileReader β α) [] v := ⟨fun _ => rfl, nofun⟩

theorem bind_some {p : FileReader β α} {q : α → FileReader β γ} {file rest : List β} {v : α} (h : p file = some (v, rest)) :
    (p >>= q) file = q v rest := by
  show (p file).bind _ = _
  rw [h]
  rfl

theorem bind_none {p : FileReader β α} {q : α → FileReader β γ} {file : List β} (h : p file = none) :
    (p >>= q) file = none := by
  show (p file).bind _ = _
  rw [h]
  rfl

theorem Exact.bind_cut {p : FileReader β α} {q : α → FileReader β γ} {bytes more : List β} {v : α} (hp : Exact p bytes v)
    (hq : Cut (q v) more) : Cut (p >>= q) (bytes ++ more) := by
  intro n hn
  rw [List.length_append] at hn
  rcases Nat.lt_or_ge n bytes.length with hlt | hge
  · rw [List.take_append_of_le_length (Nat.le_of_lt hlt), bind_none (hp.cut n hlt)]
  · rw [List.take_append, List.take_of_length_le hge, bind_some (hp.whole _), hq]
    omega

theorem Exact.bind {p : FileReader β α} {q : α → FileReader β γ} {bytes more : List β} {v : α} {w : γ}
    (hp : Exact p bytes v) (hq : Exact (q v) more w) : Exact (p >>= q) (bytes ++ more) w where
  whole rest := by rw [List.append_assoc, bind_some (hp.whole _), hq.whole]
  cut := hp.bind_cut hq.cut

theorem Exact.map {p : FileReader β α} {bytes : List β} {v : α} (hp : Exact p bytes v) (f : α → γ) :
    Exact (p >>= fun x => Pure.pure (f x)) bytes (f v) := by
  have h : Exact (p >>= fun x => Pure.pure (f x)) (bytes ++ []) (f v) := hp.bind (Exact.pure _)
  rwa [List.append_nil] at h

theorem Exact.check {c : Prop} [Decidable c] (h : c) : Exact (check c : FileReader β Unit) [] () := by
  rw [FileReader.check, if_pos h]
  exact Exact.pure ()

end FileReader

end Karphin.Lib
