/-!
# Tables of bit patterns

An entry of a table has a mask and a pattern: it stands for the words that agree with the pattern under the mask. When no
word belongs to two entries, a search finds the entry of a word wherever it is in the table.
-/

namespace Karphin.Lib

structure BitPattern (w : Nat) where
  bits : BitVec w
  mask : BitVec w

namespace BitPattern

variable {w : Nat} {p q : BitPattern w} {word : BitVec w}

def covers (p : BitPattern w) (word : BitVec w) : Bool := word &&& p.mask = p.bits

def apart (p q : BitPattern w) : Bool := p.bits &&& q.mask ≠ q.bits &&& p.mask

/-- The mask of `p` looks at least where that of `q` does, and sees the same there. -/
def refines (p q : BitPattern w) : Bool := p.mask &&& q.mask = q.mask && p.bits &&& q.mask = q.bits

theorem covers_iff : p.covers word = true ↔ word &&& p.mask = p.bits := decide_eq_true_iff

theorem not_both (h : p.apart q = true) (hp : p.covers word = true) : q.covers word = false := by
  rw [covers_iff] at hp
  rw [apart, decide_eq_true_eq] at h
  rw [Bool.eq_false_iff]
  intro hq
  rw [covers_iff] at hq
  apply h
  rw [← hp, ← hq, BitVec.and_assoc, BitVec.and_assoc, BitVec.and_comm q.mask]

theorem covers_of_refines (h : p.refines q = true) (hp : p.covers word = true) : q.covers word = true := by
  rw [covers_iff] at hp ⊢
  rw [refines, Bool.and_eq_true, decide_eq_true_eq, decide_eq_true_eq] at h
  rw [← h.2, ← hp, BitVec.and_assoc, h.1]

theorem covers_bits (h : p.bits &&& p.mask = p.bits) : p.covers p.bits = true := covers_iff.mpr h

theorem find?_of_covers {α : Type} {pattern : α → BitPattern w} {table : List α} {entry : α}
    (hapart : table.Pairwise fun a b => (pattern a).apart (pattern b) = true) (hmem : entry ∈ table)
    (hcovers : (pattern entry).covers word = true) :
    table.find? (fun a => (pattern a).covers word) = some entry := by
  induction table with
  | nil => cases hmem
  | cons a table ih =>
      obtain ⟨ha, hrest⟩ := List.pairwise_cons.mp hapart
      rcases List.mem_cons.mp hmem with rfl | hin
      · exact List.find?_cons_of_pos hcovers
      · have hother : (pattern a).covers word = false := by
          rw [Bool.eq_false_iff]
          intro hcov
          rw [not_both (ha entry hin) hcov] at hcovers
          cases hcovers
        rw [List.find?_cons_of_neg (by rw [hother]; decide)]
        exact ih hrest hin

end BitPattern

end Karphin.Lib
