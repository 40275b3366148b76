import Mathlib

/-!
# Segments

Data that is given by some of its parts. Everything else is filled with one value.
-/

namespace Karphin.Lib

structure Segment (α : Type*) where
  offset : Nat
  data : List α

variable {α : Type*} (fill : α) (size : Nat)

def expand : (position : Nat) → List (Segment α) → List α
  | position, [] => List.replicate (size - position) fill
  | position, s :: segments =>
      List.replicate (s.offset - position) fill ++ s.data ++ expand (s.offset + s.data.length) segments

def Laid : (position : Nat) → List (Segment α) → Prop
  | position, [] => position ≤ size
  | position, s :: segments => position ≤ s.offset ∧ s.data ≠ [] ∧ Laid (s.offset + s.data.length) segments

variable {fill size} {position : Nat} {s : Segment α} {segments : List (Segment α)}

theorem Laid.le : ∀ {segments : List (Segment α)} {position : Nat}, Laid size position segments → position ≤ size
  | [], _, h => h
  | s :: segments, position, h => by
      have hrest := Laid.le h.2.2
      have hstart := h.1
      omega

theorem expand_length : ∀ {segments : List (Segment α)} {position : Nat}, Laid size position segments →
    (expand fill size position segments).length = size - position
  | [], _, _ => List.length_replicate
  | s :: segments, position, h => by
      have hrest := h.2.2.le
      have hstart := h.1
      rw [expand, List.length_append, List.length_append, List.length_replicate, expand_length h.2.2]
      omega

theorem expand_gap {n : Nat} (h : position + n ≤ s.offset) : expand fill size position (s :: segments) =
    List.replicate n fill ++ expand fill size (position + n) (s :: segments) := by
  have hsplit : s.offset - position = n + (s.offset - (position + n)) := by omega
  rw [expand, expand, hsplit, List.replicate_add]
  simp only [List.append_assoc]

theorem expand_data {n : Nat} (h : n ≤ s.data.length) : expand fill size s.offset (s :: segments) =
    s.data.take n ++ expand fill size (s.offset + n) (⟨s.offset + n, s.data.drop n⟩ :: segments) := by
  have hlen : s.offset + n + (s.data.drop n).length = s.offset + s.data.length := by
    rw [List.length_drop]
    omega
  simp only [expand, Nat.sub_self, List.replicate_zero, List.nil_append, hlen]
  rw [← List.append_assoc, List.take_append_drop]

theorem expand_end : expand fill size position (⟨position, []⟩ :: segments) = expand fill size position segments := by
  simp [expand]

theorem expand_nil {n : Nat} (h : position + n ≤ size) :
    expand fill size position [] = List.replicate n fill ++ expand fill size (position + n) [] := by
  have hsplit : size - position = n + (size - (position + n)) := by omega
  rw [expand, expand, hsplit, List.replicate_add]

end Karphin.Lib

/-!
# Tilings

Extents that lie one behind the other, and into how many chunks an extent is cut.
-/

namespace Karphin.Lib

structure Extent where
  offset : Nat
  size : Nat
  deriving DecidableEq

def Tiles (finish : Nat) : (position : Nat) → List Extent → Prop
  | position, [] => position = finish
  | position, e :: extents => e.offset = position ∧ Tiles finish (position + e.size) extents

def endOf (position : Nat) (extents : List Extent) : Nat := position + (extents.map Extent.size).sum

theorem tiles_append {finish position : Nat} {extents rest : List Extent} :
    Tiles finish position (extents ++ rest) ↔
      Tiles (endOf position extents) position extents ∧ Tiles finish (endOf position extents) rest := by
  induction extents generalizing position with
  | nil => simp [Tiles, endOf]
  | cons e extents ih =>
    have hend : endOf position (e :: extents) = endOf (position + e.size) extents := by
      simp [endOf, Nat.add_assoc]
    rw [List.cons_append, Tiles, Tiles, ih, hend, and_assoc]

theorem Tiles.endOf_eq {finish position : Nat} {extents : List Extent} (h : Tiles finish position extents) :
    endOf position extents = finish := by
  induction extents generalizing position with
  | nil => simpa [endOf, Tiles] using h
  | cons e extents ih =>
    rw [← ih h.2]
    simp [endOf, Nat.add_assoc]

theorem Tiles.append {middle finish position : Nat} {extents rest : List Extent} (h : Tiles middle position extents)
    (hrest : Tiles finish middle rest) : Tiles finish position (extents ++ rest) := by
  rw [tiles_append, h.endOf_eq]
  exact ⟨h, hrest⟩

theorem Tiles.le {finish position : Nat} {extents : List Extent} (h : Tiles finish position extents) :
    position ≤ finish := by
  rw [← h.endOf_eq]
  exact Nat.le_add_right _ _

/-! ## Chunks -/

def chunks (chunk size : Nat) : Nat := (size + (chunk - 1)) / chunk

variable {chunk : Nat}

theorem chunks_zero (h : 0 < chunk) : chunks chunk 0 = 0 := by
  rw [chunks, Nat.zero_add]
  exact Nat.div_eq_of_lt (Nat.sub_lt h one_pos)

theorem chunks_add_mul (h : 0 < chunk) (n size : Nat) : chunks chunk (n * chunk + size) = n + chunks chunk size := by
  have hsum : n * chunk + size + (chunk - 1) = size + (chunk - 1) + n * chunk := by omega
  rw [chunks, hsum, Nat.add_mul_div_right _ _ h, Nat.add_comm, chunks]

theorem chunks_of_le {size : Nat} (hpos : 0 < size) (hle : size ≤ chunk) : chunks chunk size = 1 := by
  rw [chunks, Nat.div_eq_of_lt_le] <;> omega

theorem chunks_pos {size : Nat} (hchunk : 0 < chunk) (hsize : 0 < size) : 0 < chunks chunk size := by
  rw [chunks]
  exact Nat.div_pos (by omega) hchunk

theorem chunks_add_eq_iff {size extra : Nat} (hextra : extra < chunk) (hsize : 0 < size) :
    chunks chunk (size + extra) = chunks chunk size ↔
      (size + extra) % chunk = 0 ∨ extra < (size + extra) % chunk := by
  have hchunk : 0 < chunk := by omega
  obtain ⟨n, r, hr, rfl⟩ : ∃ n r, r < chunk ∧ size = n * chunk + (r + 1) := by
    refine ⟨(size - 1) / chunk, (size - 1) % chunk, Nat.mod_lt _ hchunk, ?_⟩
    have := Nat.div_add_mod' (size - 1) chunk
    omega
  have hmod : (n * chunk + (r + 1) + extra) % chunk = (r + 1 + extra) % chunk := by
    rw [Nat.add_assoc, Nat.mul_comm, Nat.mul_add_mod]
  rw [hmod, Nat.add_assoc, chunks_add_mul hchunk, chunks_add_mul hchunk, chunks_of_le (Nat.succ_pos r) hr]
  rcases Nat.lt_or_ge chunk (r + 1 + extra) with hover | hfit
  · -- the bytes in front begin another chunk
    have hrest : r + 1 + extra = 1 * chunk + (r + 1 + extra - chunk) := by omega
    have hlt : r + 1 + extra - chunk < chunk := by omega
    rw [hrest, chunks_add_mul hchunk, chunks_of_le (by omega) hlt.le, Nat.one_mul, Nat.add_mod_left,
      Nat.mod_eq_of_lt hlt]
    omega
  · rw [chunks_of_le (by omega) hfit]
    rcases hfit.eq_or_lt with heq | hlt
    · simp [heq]
    · rw [Nat.mod_eq_of_lt hlt]
      omega

end Karphin.Lib
