import Mathlib

/-!
# File trees

Directories and files under paths, as on a POSIX host: what lies below a path goes or moves with it. A file is known by
the number of its object, so that a file that is unlinked while it is open keeps its object.
-/

namespace Karphin.Lib

inductive Node
  | dir
  | file (object : Nat)
  deriving DecidableEq

namespace Node

def isDir : Node → Bool
  | .dir => true
  | .file _ => false

end Node

structure FileTree (N : Type*) where
  node : List N → Option Node
  next : Nat
  parent : ∀ p n, node (p ++ [n]) ≠ none → node p = some .dir
  bound : ∀ p o, node p = some (.file o) → o < next

namespace FileTree

variable {N : Type*} {t t' : FileTree N} {p q r : List N}

theorem below (h : t.node p ≠ some .dir) (hpq : p <+: q) (hne : q ≠ p) : t.node q = none := by
  obtain ⟨r, rfl⟩ := hpq
  induction r using List.reverseRecOn with
  | nil => exact absurd (List.append_nil p) hne
  | append_singleton r n ih =>
      have hparent : t.node (p ++ r) ≠ some .dir := by
        by_cases hr : p ++ r = p
        · rw [hr]
          exact h
        · rw [ih hr]
          nofun
      by_contra hnode
      rw [← List.append_assoc] at hnode
      exact hparent (t.parent _ n hnode)

theorem above (h : t.node q ≠ none) (hpq : p <+: q) (hne : q ≠ p) : t.node p = some .dir := by
  by_contra hp
  exact h (below hp hpq hne)

theorem dropLast_dir (h : t.node p ≠ none) (hne : p ≠ []) : t.node p.dropLast = some .dir := by
  apply t.parent _ (p.getLast hne)
  rw [List.dropLast_append_getLast hne]
  exact h

theorem prefix_append_singleton {n : N} (h : p <+: q ++ [n]) (hne : p ≠ q ++ [n]) : p <+: q := by
  rcases List.prefix_concat_iff.mp h with heq | hpre
  · exact absurd heq hne
  · exact hpre

variable [DecidableEq N]

def bare : FileTree N where
  node q := if q = [] then some .dir else none
  next := 0
  parent := by
    intro p n h
    rw [if_neg (by simp)] at h
    exact absurd rfl h
  bound := by
    intro p o h
    split at h <;> cases h

/-! ## Removal -/

def remove (t : FileTree N) (p : List N) : FileTree N where
  node q := if p <+: q then none else t.node q
  next := t.next
  parent := by
    intro q n h
    by_cases hpre : p <+: q ++ [n]
    · rw [if_pos hpre] at h
      exact absurd rfl h
    · rw [if_neg hpre] at h
      rw [if_neg fun hq => hpre (hq.trans (List.prefix_append q [n]))]
      exact t.parent q n h
  bound := by
    intro q o h
    split at h
    · cases h
    · exact t.bound q o h

theorem node_remove (t : FileTree N) (p q : List N) : (t.remove p).node q = if p <+: q then none else t.node q := rfl

theorem node_remove_of_not (h : ¬p <+: q) : (t.remove p).node q = t.node q := if_neg h

theorem node_remove_self (t : FileTree N) (p : List N) : (t.remove p).node p = none := if_pos List.prefix_rfl

/-! ## Creation -/

/-- A path at which something can be made: nothing is there, and it is in a directory. -/
def Free (t : FileTree N) (p : List N) : Prop := t.node p = none ∧ p ≠ [] ∧ t.node p.dropLast = some .dir

instance (t : FileTree N) (p : List N) : Decidable (t.Free p) := inferInstanceAs (Decidable (_ ∧ _ ∧ _))

def insert (t : FileTree N) (p : List N) (k : Node) (hfree : t.Free p) (next : Nat) (hnext : t.next ≤ next)
    (hk : ∀ o, k = .file o → o < next) : FileTree N where
  node q := if q = p then some k else t.node q
  next := next
  parent := by
    intro q n h
    by_cases heq : q ++ [n] = p
    · have hq : q ≠ p := by
        rw [← heq]
        simp
      have hlast : p.dropLast = q := by rw [← heq, List.dropLast_concat]
      rw [if_neg hq, ← hlast]
      exact hfree.2.2
    · rw [if_neg heq] at h
      have hq : t.node q = some .dir := t.parent q n h
      rw [if_neg fun hqp => ?_]
      · exact hq
      · rw [hqp, hfree.1] at hq
        cases hq
  bound := by
    intro q o h
    split at h
    · exact hk o (Option.some.inj h)
    · exact Nat.lt_of_lt_of_le (t.bound q o h) hnext

def createDir (t : FileTree N) (p : List N) : Option (FileTree N) :=
  if h : t.Free p then some (t.insert p .dir h t.next (Nat.le_refl _) nofun) else none

def createFile (t : FileTree N) (p : List N) : Option (FileTree N) :=
  if h : t.Free p then
    some (t.insert p (.file t.next) h (t.next + 1) (Nat.le_succ _) fun o ho => by cases ho; exact Nat.lt_succ_self _)
  else none

theorem createDir_some (h : t.createDir p = some t') :
    t.Free p ∧ ∀ q, t'.node q = if q = p then some .dir else t.node q := by
  rw [createDir] at h
  split at h
  · next hfree =>
      cases h
      exact ⟨hfree, fun _ => rfl⟩
  · cases h

theorem createFile_some (h : t.createFile p = some t') :
    t.Free p ∧ t'.next = t.next + 1 ∧ ∀ q, t'.node q = if q = p then some (.file t.next) else t.node q := by
  rw [createFile] at h
  split at h
  · next hfree =>
      cases h
      exact ⟨hfree, rfl, fun _ => rfl⟩
  · cases h

/-! ## Renaming -/

/-- What can be renamed: it exists and does not move below itself, into a directory, onto nothing or from a file onto
a file. (An empty directory that is replaced by a directory is left out.) -/
def Movable (t : FileTree N) (p q : List N) : Prop :=
  t.node p ≠ none ∧ ¬p <+: q ∧ q ≠ [] ∧ t.node q.dropLast = some .dir ∧
    (t.node q = none ∨ ((t.node q).any (!·.isDir) ∧ (t.node p).any (!·.isDir)))

instance (t : FileTree N) (p q : List N) : Decidable (t.Movable p q) := inferInstanceAs (Decidable (_ ∧ _ ∧ _ ∧ _ ∧ _))

def moved (t : FileTree N) (p q r : List N) : Option Node :=
  if q <+: r then t.node (p ++ r.drop q.length) else if p <+: r then none else t.node r

theorem moved_parent (h : t.Movable p q) (r : List N) (n : N) (hr : t.moved p q (r ++ [n]) ≠ none) :
    t.moved p q r = some .dir := by
  obtain ⟨-, hpq, hq, hdir, -⟩ := h
  rw [moved] at hr ⊢
  by_cases hqr : q <+: r
  · have hdrop : (r ++ [n]).drop q.length = r.drop q.length ++ [n] :=
      List.drop_append_of_le_length hqr.length_le
    rw [if_pos (hqr.trans (List.prefix_append r [n])), hdrop, ← List.append_assoc] at hr
    rw [if_pos hqr]
    exact t.parent _ n hr
  · rw [if_neg hqr]
    by_cases hqn : q = r ++ [n]
    · have hlast : q.dropLast = r := by rw [hqn, List.dropLast_concat]
      rw [if_neg fun hpr => hpq (hqn ▸ hpr.trans (List.prefix_append r [n])), ← hlast]
      exact hdir
    · rw [if_neg fun hpre => hqr (prefix_append_singleton hpre hqn)] at hr
      split at hr
      · exact absurd rfl hr
      · next hpr =>
          rw [if_neg fun h => hpr (h.trans (List.prefix_append r [n]))]
          exact t.parent r n hr

/-- `rename`: what is at `p` and below it is at `q` afterwards. -/
def rename (t : FileTree N) (p q : List N) : Option (FileTree N) :=
  if p = q ∧ t.node p ≠ none then some t
  else if h : t.Movable p q then
    some {
      node := t.moved p q
      next := t.next
      parent := moved_parent h
      bound := by
        intro r o hr
        rw [moved] at hr
        split at hr
        · exact t.bound _ o hr
        · split at hr
          · cases hr
          · exact t.bound _ o hr }
  else none

theorem rename_of_movable (h : t.Movable p q) : ∃ t', t.rename p q = some t' ∧ t'.node = t.moved p q := by
  rw [rename, if_neg, dif_pos h]
  · exact ⟨_, rfl, rfl⟩
  · rintro ⟨rfl, -⟩
    exact h.2.1 List.prefix_rfl

theorem rename_some (h : t.rename p q = some t') :
    (p = q ∧ t.node p ≠ none ∧ t' = t) ∨ (t.Movable p q ∧ t'.node = t.moved p q) := by
  rw [rename] at h
  split at h
  · next heq =>
      cases h
      exact .inl ⟨heq.1, heq.2, rfl⟩
  · split at h
    · next hmovable =>
        cases h
        exact .inr ⟨hmovable, rfl⟩
    · cases h

theorem moved_self (t : FileTree N) (p q : List N) : t.moved p q q = t.node p := by
  rw [moved, if_pos List.prefix_rfl, List.drop_length, List.append_nil]

theorem node_rename (h : t.rename p q = some t') : t'.node q ≠ none := by
  rcases rename_some h with ⟨rfl, hnode, rfl⟩ | ⟨hmovable, hnode⟩
  · exact hnode
  · rw [hnode, moved_self]
    exact hmovable.1

theorem dir_of_rename (h : t.rename p q = some t') (hr : t'.node r = some .dir) :
    t.node r = some .dir ∨ ∃ rest, r = q ++ rest ∧ t.node (p ++ rest) = some .dir := by
  rcases rename_some h with ⟨-, -, rfl⟩ | ⟨-, hnode⟩
  · exact .inl hr
  · rw [hnode, moved] at hr
    split at hr
    · next hpre =>
        obtain ⟨rest, rfl⟩ := hpre
        rw [List.drop_left] at hr
        exact .inr ⟨rest, rfl, hr⟩
    · split at hr
      · cases hr
      · exact .inl hr

theorem node_rename_of_not (h : t.rename p q = some t') (hp : ¬p <+: r) (hq : ¬q <+: r) : t'.node r = t.node r := by
  rcases rename_some h with ⟨-, -, rfl⟩ | ⟨-, hnode⟩
  · rfl
  · rw [hnode, moved, if_neg hq, if_neg hp]

theorem node_rename_file {o : Nat} (h : t.rename p q = some t') (hfile : t.node p = some (.file o)) (hr : t.node r ≠ none)
    (hp : r ≠ p) (hq : r ≠ q) : t'.node r = t.node r := by
  have hsource : ¬p <+: r := fun hpre => hr (below (by rw [hfile]; nofun) hpre hp)
  rcases rename_some h with ⟨-, -, rfl⟩ | ⟨hmovable, -⟩
  · rfl
  · apply node_rename_of_not h hsource
    intro hpre
    apply hr
    apply below _ hpre hq
    rcases hmovable.2.2.2.2 with hnone | ⟨hleaf, -⟩
    · rw [hnone]
      nofun
    · intro hdir
      rw [hdir] at hleaf
      cases hleaf

theorem rename_none_of_missing (h : t.node p = none) : t.rename p q = none := by
  rw [rename, if_neg fun hp => hp.2 h, dif_neg fun hm => hm.1 h]

theorem rename_none_of_below (h : p <+: q) (hne : p ≠ q) : t.rename p q = none := by
  rw [rename, if_neg fun hp => hne hp.1, dif_neg fun hm => hm.2.1 h]

end FileTree

end Karphin.Lib
