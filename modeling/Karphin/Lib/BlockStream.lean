import Mathlib

/-!
# Streams that are computed block by block

A generator holds one block of its output and a position in it, and replaces the block by the next one when its end is
reached. What is read depends on the number of elements that were passed only, not on how they were read.
-/

namespace Karphin.Lib

structure Cursor (β : Type) (size : Nat) where
  block : β
  position : Fin size

namespace Cursor

variable {α β : Type} {size : Nat} (next : β → β) (get : β → Nat → α)

def advance (c : Cursor β size) (n : Nat) : Cursor β size where
  block := next^[(c.position + n) / size] c.block
  position := ⟨(c.position + n) % size, Nat.mod_lt _ c.position.pos⟩

def read (c : Cursor β size) (i : Nat) : α :=
  get (next^[(c.position + i) / size] c.block) ((c.position + i) % size)

def take (c : Cursor β size) (n : Nat) : List α := (List.range n).map (c.read next get)

variable {next get}

theorem ext' {c c' : Cursor β size} (hb : c.block = c'.block) (hp : c.position.1 = c'.position.1) : c = c' := by
  cases c
  cases c'
  simp only [mk.injEq]
  exact ⟨hb, Fin.ext hp⟩

@[simp]
theorem advance_zero (c : Cursor β size) : c.advance next 0 = c := by
  have hp := c.position.2
  apply ext'
  · simp [advance, Nat.div_eq_of_lt hp]
  · simp [advance, Nat.mod_eq_of_lt hp]

theorem advance_advance (c : Cursor β size) (a b : Nat) :
    (c.advance next a).advance next b = c.advance next (a + b) := by
  have hsize := c.position.pos
  have hdiv : (c.position + (a + b)) / size =
      ((c.position + a) % size + b) / size + (c.position + a) / size := by
    have h := Nat.div_add_mod (c.position + a) size
    have heq : c.position + (a + b) = ((c.position + a) % size + b) + size * ((c.position + a) / size) := by omega
    rw [heq, Nat.add_mul_div_left _ _ hsize]
  have hmod : ((c.position + a) % size + b) % size = (c.position + (a + b)) % size := by
    rw [Nat.mod_add_mod, Nat.add_assoc]
  apply ext'
  · simp only [advance]
    rw [hdiv, Function.iterate_add_apply]
  · simp only [advance]
    exact hmod

theorem read_eq (c : Cursor β size) (i : Nat) :
    c.read next get i = get (c.advance next i).block (c.advance next i).position := rfl

theorem read_advance (c : Cursor β size) (a i : Nat) : (c.advance next a).read next get i = c.read next get (a + i) := by
  rw [read_eq, read_eq, advance_advance]

@[simp]
theorem length_take (c : Cursor β size) (n : Nat) : (c.take next get n).length = n := by simp [take]

@[simp]
theorem take_zero (c : Cursor β size) : c.take next get 0 = [] := rfl

theorem take_add (c : Cursor β size) (a b : Nat) :
    c.take next get (a + b) = c.take next get a ++ (c.advance next a).take next get b := by
  have hread : (c.advance next a).read next get = fun i => c.read next get (a + i) := funext (c.read_advance a)
  rw [take, take, take, List.range_add, List.map_append, List.map_map, hread]
  rfl

theorem take_succ (c : Cursor β size) (n : Nat) :
    c.take next get (n + 1) = c.read next get 0 :: (c.advance next 1).take next get n := by
  rw [Nat.add_comm, take_add]
  rfl

theorem advance_within (c : Cursor β size) {n : Nat} (h : c.position + n < size) :
    c.advance next n = ⟨c.block, ⟨c.position + n, h⟩⟩ := by
  apply ext'
  · simp [advance, Nat.div_eq_of_lt h]
  · simp [advance, Nat.mod_eq_of_lt h]

theorem advance_end (c : Cursor β size) {n : Nat} (h : c.position + n = size) :
    c.advance next n = ⟨next c.block, ⟨0, c.position.pos⟩⟩ := by
  have hsize := c.position.pos
  apply ext'
  · simp [advance, h, Nat.div_self hsize]
  · simp [advance, h]

theorem take_within (c : Cursor β size) {n : Nat} (h : c.position + n ≤ size) :
    c.take next get n = (List.range n).map fun i => get c.block (c.position + i) := by
  apply List.map_congr_left
  intro i hi
  have hlt : c.position + i < size := by
    have := List.mem_range.mp hi
    omega
  rw [read_eq, advance_within c hlt]

end Cursor

end Karphin.Lib
