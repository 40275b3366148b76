import Mathlib

/-!
# Triangles and strips

Oriented triangles, as a list has them, three vertices each, and as strips have them, which a marker separates.
-/

namespace Karphin.Lib

structure Triangle (α : Type) where
  a : α
  b : α
  c : α
  deriving DecidableEq

variable {α : Type}

namespace Triangle

def vertices (t : Triangle α) : List α := [t.a, t.b, t.c]

def rotate (t : Triangle α) : Triangle α := ⟨t.b, t.c, t.a⟩

def Same (t u : Triangle α) : Prop := u = t ∨ u = t.rotate ∨ u = t.rotate.rotate

theorem Same.refl (t : Triangle α) : t.Same t := Or.inl rfl

def map {β : Type} (f : α → β) (t : Triangle α) : Triangle β := ⟨f t.a, f t.b, f t.c⟩

theorem Same.map {β : Type} (f : α → β) {t u : Triangle α} (h : t.Same u) : (t.map f).Same (u.map f) := by
  rcases h with rfl | rfl | rfl
  · exact Or.inl rfl
  · exact Or.inr (Or.inl rfl)
  · exact Or.inr (Or.inr rfl)

end Triangle

def listTriangles : List α → List (Triangle α)
  | a :: b :: c :: rest => ⟨a, b, c⟩ :: listTriangles rest
  | _ => []

def stripTriangles : (odd : Bool) → List α → List (Triangle α)
  | odd, a :: b :: c :: rest => (if odd then ⟨a, c, b⟩ else ⟨a, b, c⟩) :: stripTriangles (!odd) (b :: c :: rest)
  | _, _ => []

def restartTriangles [DecidableEq α] (marker : α) : (strip : List α) → List α → List (Triangle α)
  | strip, [] => stripTriangles false strip
  | strip, v :: vs =>
      if v = marker then stripTriangles false strip ++ restartTriangles marker [] vs
      else restartTriangles marker (strip ++ [v]) vs

/-- Strips that each have their marker, and the triangles of the same strips as a list. -/
inductive Pieces (marker : α) : List α → List α → Prop
  | nil : Pieces marker [] []
  | strip {strip : List α} {triangles : List (Triangle α)} {strips list : List α} (hmarker : marker ∉ strip)
      (hsame : List.Forall₂ Triangle.Same (stripTriangles false strip) triangles) (hrest : Pieces marker strips list) :
      Pieces marker (strip ++ marker :: strips) (triangles.flatMap Triangle.vertices ++ list)

theorem listTriangles_append (triangles : List (Triangle α)) (list : List α) :
    listTriangles (triangles.flatMap Triangle.vertices ++ list) = triangles ++ listTriangles list := by
  induction triangles with
  | nil => rfl
  | cons t triangles ih =>
      rw [List.flatMap_cons, List.append_assoc, List.cons_append, ← ih]
      rfl

theorem stripTriangles_map {β : Type} (f : α → β) (odd : Bool) (strip : List α) :
    stripTriangles odd (strip.map f) = (stripTriangles odd strip).map (Triangle.map f) := by
  induction strip generalizing odd with
  | nil => rfl
  | cons a strip ih =>
      match strip with
      | [] => rfl
      | [_] => rfl
      | b :: c :: rest =>
          have htail := ih (!odd)
          rw [List.map_cons, List.map_cons] at htail
          rw [List.map_cons, List.map_cons, List.map_cons, stripTriangles, htail, stripTriangles, List.map_cons]
          cases odd <;> rfl

section

variable [DecidableEq α] {marker : α}

theorem restartTriangles_append {strip : List α} (hmarker : marker ∉ strip) (front rest : List α) :
    restartTriangles marker front (strip ++ marker :: rest) =
      stripTriangles false (front ++ strip) ++ restartTriangles marker [] rest := by
  induction strip generalizing front with
  | nil => rw [List.nil_append, restartTriangles, if_pos rfl, List.append_nil]
  | cons v strip ih =>
      have hv : v ≠ marker := fun h => hmarker (h ▸ List.mem_cons_self)
      have htail : marker ∉ strip := fun h => hmarker (List.mem_cons_of_mem _ h)
      rw [List.cons_append, restartTriangles, if_neg hv, ih htail, List.append_assoc, List.singleton_append]

theorem Pieces.triangles {strips list : List α} (h : Pieces marker strips list) :
    List.Forall₂ Triangle.Same (restartTriangles marker [] strips) (listTriangles list) := by
  induction h with
  | nil => exact List.Forall₂.nil
  | strip hmarker hsame _ ih =>
      rw [restartTriangles_append hmarker, listTriangles_append]
      exact List.rel_append hsame ih

end

theorem Pieces.append {marker : α} {strips list strips' list' : List α} (h : Pieces marker strips list)
    (h' : Pieces marker strips' list') : Pieces marker (strips ++ strips') (list ++ list') := by
  induction h with
  | nil => exact h'
  | strip hmarker hsame _ ih =>
      rw [List.append_assoc, List.cons_append, List.append_assoc]
      exact .strip hmarker hsame ih

end Karphin.Lib
