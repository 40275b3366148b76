import Mathlib

/-!
# Maps that are ordered by their keys

A list of entries whose keys increase.
-/

namespace Karphin.Lib

structure OrderedMap (α : Type) where
  entries : List (Nat × α)
  sorted : entries.Pairwise fun a b => a.1 < b.1

namespace OrderedMap

variable {α : Type}

def empty : OrderedMap α := ⟨[], .nil⟩

def emplace (m : OrderedMap α) (key : Nat) (value : α) : OrderedMap α :=
  if m.entries.any (·.1 = key) then m
  else
    ⟨m.entries.filter (·.1 < key) ++ (key, value) :: m.entries.filter (key < ·.1), by
      refine List.pairwise_append.mpr ⟨m.sorted.filter _, List.pairwise_cons.mpr ⟨?_, m.sorted.filter _⟩, ?_⟩
      · intro b hb
        simpa using (List.mem_filter.mp hb).2
      · intro a ha b hb
        have hlt : a.1 < key := by simpa using (List.mem_filter.mp ha).2
        cases List.mem_cons.mp hb with
        | inl heq => rw [heq]; exact hlt
        | inr hmem => exact Nat.lt_trans hlt (by simpa using (List.mem_filter.mp hmem).2)⟩

def upperBound (m : OrderedMap α) (key : Nat) : Option (Nat × α) := m.entries.find? (key < ·.1)

end OrderedMap

end Karphin.Lib
