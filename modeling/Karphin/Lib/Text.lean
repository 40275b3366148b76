import Mathlib

/-!
# Trimming and lines

Lists without some elements at both ends, and lists that a delimiter cuts into pieces.
-/

namespace Karphin.Lib

variable {α : Type}

/-! ## Trimming -/

def trim (p : α → Bool) (s : List α) : List α := (s.dropWhile p).rdropWhile p

section

variable {p : α → Bool} {s t : List α}

theorem mem_of_mem_trim {c : α} (h : c ∈ trim p s) : c ∈ s :=
  (List.dropWhile_sublist p).mem ((List.rdropWhile_prefix p _).mem h)

theorem head?_dropWhile_not {c : α} (h : (s.dropWhile p).head? = some c) : p c = false := by
  induction s with
  | nil => cases h
  | cons d s ih =>
      rw [List.dropWhile_cons] at h
      split at h
      · exact ih h
      next hd =>
        cases h
        exact Bool.eq_false_iff.mpr hd

theorem head?_trim_not {c : α} (h : (trim p s).head? = some c) : p c = false := by
  obtain ⟨rest, hrest⟩ := List.rdropWhile_prefix p (s.dropWhile p)
  rw [trim] at h
  apply @head?_dropWhile_not _ p s
  rw [← hrest, List.head?_append, h, Option.some_or]

theorem getLast?_trim_not {c : α} (h : (trim p s).getLast? = some c) : p c = false := by
  have hne : (s.dropWhile p).rdropWhile p ≠ [] := by
    intro hnil
    rw [trim, hnil] at h
    cases h
  have hlast := List.rdropWhile_last_not p (s.dropWhile p) hne
  rw [trim, List.getLast?_eq_some_getLast hne, Option.some_inj] at h
  rw [h] at hlast
  exact Bool.eq_false_iff.mpr hlast

theorem trim_eq_self (hhead : ∀ c, s.head? = some c → p c = false) (hlast : ∀ c, s.getLast? = some c → p c = false) :
    trim p s = s := by
  have hfront : s.dropWhile p = s := by
    cases s with
    | nil => rfl
    | cons c s => exact List.dropWhile_cons_of_neg (by rw [hhead c rfl]; exact Bool.false_ne_true)
  rw [trim, hfront, List.rdropWhile_eq_self_iff]
  intro hne
  rw [hlast _ (List.getLast?_eq_some_getLast hne)]
  exact Bool.false_ne_true

@[simp]
theorem trim_trim : trim p (trim p s) = trim p s :=
  trim_eq_self (fun _ => head?_trim_not) (fun _ => getLast?_trim_not)

theorem trim_cons {c : α} (h : p c = true) : trim p (c :: s) = trim p s := by
  rw [trim, List.dropWhile_cons_of_pos h, trim]

theorem trim_concat {c : α} (h : p c = true) : trim p (s ++ [c]) = trim p s := by
  rw [trim, trim, List.dropWhile_append]
  split
  next hnil =>
    rw [List.isEmpty_iff.mp hnil, List.dropWhile_cons_of_pos h]
    rfl
  next => exact List.rdropWhile_concat_pos p _ c h

end

/-! ## Pieces -/

section

variable [DecidableEq α]

/-- The pieces between the delimiters; nothing comes after a delimiter at the end. -/
def pieces (delim : α) : List α → List (List α)
  | [] => []
  | c :: cs =>
      if c = delim then [] :: pieces delim cs
      else
        match pieces delim cs with
        | [] => [[c]]
        | piece :: rest => (c :: piece) :: rest

variable {delim : α}

theorem not_mem_of_mem_pieces {s piece : List α} (h : piece ∈ pieces delim s) : delim ∉ piece := by
  induction s generalizing piece with
  | nil => cases h
  | cons c s ih =>
      rw [pieces] at h
      split at h
      · cases h with
        | head => exact List.not_mem_nil
        | tail _ h => exact ih h
      next hc =>
        split at h
        · rw [List.mem_singleton.mp h, List.mem_singleton]
          exact fun heq => hc heq.symm
        next first rest heq =>
          cases h with
          | head =>
              have hfirst : delim ∉ first := ih (heq ▸ List.mem_cons_self)
              intro hmem
              cases hmem with
              | head => exact hc rfl
              | tail _ hmem => exact hfirst hmem
          | tail _ h => exact ih (heq ▸ List.mem_cons_of_mem _ h)

theorem pieces_append {line : List α} (h : delim ∉ line) (s : List α) :
    pieces delim (line ++ delim :: s) = line :: pieces delim s := by
  induction line with
  | nil => rw [List.nil_append, pieces, if_pos rfl]
  | cons c line ih =>
      have hc : c ≠ delim := fun heq => h (heq ▸ List.mem_cons_self)
      rw [List.cons_append, pieces, if_neg hc, ih fun hmem => h (List.mem_cons_of_mem _ hmem)]

theorem pieces_of_not_mem {c : α} {line : List α} (h : delim ∉ c :: line) : pieces delim (c :: line) = [c :: line] := by
  induction line generalizing c with
  | nil =>
      have hc : c ≠ delim := fun heq => h (heq ▸ List.mem_cons_self)
      rw [pieces, if_neg hc]
      rfl
  | cons d line ih =>
      have hc : c ≠ delim := fun heq => h (heq ▸ List.mem_cons_self)
      rw [pieces, if_neg hc, ih fun hmem => h (List.mem_cons_of_mem _ hmem)]

theorem length_pieces_le (s : List α) : (pieces delim s).length ≤ s.length := by
  induction s with
  | nil => exact le_rfl
  | cons c s ih =>
      rw [pieces]
      split
      · exact Nat.succ_le_succ ih
      · split
        · exact Nat.succ_le_succ (Nat.zero_le _)
        next heq =>
          rw [heq] at ih
          exact ih.trans (Nat.le_succ _)

theorem pieces_lines {lines : List (List α)} (h : ∀ line ∈ lines, delim ∉ line) :
    pieces delim (lines.flatMap (· ++ [delim])) = lines := by
  induction lines with
  | nil => rfl
  | cons line lines ih =>
      rw [List.flatMap_cons, List.append_assoc, List.singleton_append, pieces_append (h line List.mem_cons_self),
        ih fun other hother => h other (List.mem_cons_of_mem _ hother)]

end

/-! ## Finding -/

theorem prefix_line_iff {delim : α} {pattern line s : List α} (h : delim ∉ pattern) : pattern <+: line ++ delim :: s ↔ pattern <+: line := by
  refine ⟨fun hprefix => ?_, fun hprefix => List.prefix_append_of_prefix hprefix⟩
  induction line generalizing pattern with
  | nil =>
      cases pattern with
      | nil => exact List.prefix_rfl
      | cons c pattern => exact absurd ((List.cons_prefix_cons.mp hprefix).1 ▸ List.mem_cons_self) h
  | cons c line ih =>
      cases pattern with
      | nil => exact List.nil_prefix
      | cons d pattern =>
          obtain ⟨heq, htail⟩ := List.cons_prefix_cons.mp hprefix
          exact List.cons_prefix_cons.mpr ⟨heq, ih (fun hmem => h (List.mem_cons_of_mem _ hmem)) htail⟩

section

variable [DecidableEq α]

def find (pattern : List α) : List α → Option Nat
  | [] => if pattern = [] then some 0 else none
  | c :: cs => if pattern <+: c :: cs then some 0 else (find pattern cs).map (· + 1)

variable {delim : α} {pattern line s : List α}

theorem find_of_prefix (h : pattern <+: s) : find pattern s = some 0 := by
  cases s with
  | nil => rw [find, if_pos (List.prefix_nil.mp h)]
  | cons c cs => rw [find, if_pos h]

theorem find_cons_of_not (h : ¬pattern <+: c :: s) : find pattern (c :: s) = (find pattern s).map (· + 1) := by
  rw [find, if_neg h]

theorem find_append (h : delim ∉ line) :
    find (delim :: pattern) (line ++ s) = (find (delim :: pattern) s).map (· + line.length) := by
  induction line with
  | nil => simp
  | cons c line ih =>
      have hne : ¬delim :: pattern <+: c :: (line ++ s) := by
        rintro hprefix
        exact h ((List.cons_prefix_cons.mp hprefix).1 ▸ List.mem_cons_self)
      rw [List.cons_append, find_cons_of_not hne, ih fun hmem => h (List.mem_cons_of_mem _ hmem), Option.map_map]
      rfl

theorem find_delim_append (h : delim ∉ line) : find [delim] (line ++ delim :: s) = some line.length := by
  have hhere : find [delim] (delim :: s) = some 0 := find_of_prefix ⟨s, rfl⟩
  rw [find_append h, hhere]
  simp

theorem find_eq_none_of_not_mem (h : delim ∉ s) : find (delim :: pattern) s = none := by
  have happend : find (delim :: pattern) (s ++ []) = (find (delim :: pattern) []).map (· + s.length) := find_append h
  simpa [find] using happend

variable {lines : List (List α)} {rest : List α}

theorem find_lines (hpattern : delim ∉ pattern) (hline : delim ∉ line)
    (hlines : ∀ other ∈ lines, delim ∉ other ∧ ¬pattern <+: other) (hrest : pattern <+: rest) :
    find (delim :: pattern) (line ++ delim :: (lines.flatMap (· ++ [delim]) ++ rest)) =
      some (line.length + (lines.flatMap (· ++ [delim])).length) := by
  induction lines generalizing line with
  | nil =>
      have hhere : find (delim :: pattern) (delim :: rest) = some 0 :=
        find_of_prefix (List.cons_prefix_cons.mpr ⟨rfl, hrest⟩)
      rw [find_append hline, List.flatMap_nil, List.nil_append, hhere]
      simp
  | cons next lines ih =>
      obtain ⟨hnext, hno⟩ := hlines next List.mem_cons_self
      have hsplit : (next :: lines).flatMap (· ++ [delim]) ++ rest =
          next ++ delim :: (lines.flatMap (· ++ [delim]) ++ rest) := by
        rw [List.flatMap_cons, List.append_assoc, List.append_assoc, List.singleton_append]
      have hne : ¬delim :: pattern <+: delim :: (next ++ delim :: (lines.flatMap (· ++ [delim]) ++ rest)) := by
        rintro hprefix
        exact hno ((prefix_line_iff hpattern).mp (List.cons_prefix_cons.mp hprefix).2)
      rw [hsplit, find_append hline, find_cons_of_not hne,
        ih hnext fun other hother => hlines other (List.mem_cons_of_mem _ hother)]
      simp
      omega

theorem find_lines_eq_none (hpattern : delim ∉ pattern) (hline : delim ∉ line)
    (hlines : ∀ other ∈ lines, delim ∉ other ∧ ¬pattern <+: other) (hrest : delim ∉ rest) (hno : ¬pattern <+: rest) :
    find (delim :: pattern) (line ++ delim :: (lines.flatMap (· ++ [delim]) ++ rest)) = none := by
  induction lines generalizing line with
  | nil =>
      have hne : ¬delim :: pattern <+: delim :: rest := fun hprefix => hno (List.cons_prefix_cons.mp hprefix).2
      rw [find_append hline, List.flatMap_nil, List.nil_append, find_cons_of_not hne, find_eq_none_of_not_mem hrest]
      rfl
  | cons next lines ih =>
      obtain ⟨hnext, hnone⟩ := hlines next List.mem_cons_self
      have hsplit : (next :: lines).flatMap (· ++ [delim]) ++ rest =
          next ++ delim :: (lines.flatMap (· ++ [delim]) ++ rest) := by
        rw [List.flatMap_cons, List.append_assoc, List.append_assoc, List.singleton_append]
      have hne : ¬delim :: pattern <+: delim :: (next ++ delim :: (lines.flatMap (· ++ [delim]) ++ rest)) := by
        rintro hprefix
        exact hnone ((prefix_line_iff hpattern).mp (List.cons_prefix_cons.mp hprefix).2)
      rw [hsplit, find_append hline, find_cons_of_not hne,
        ih hnext fun other hother => hlines other (List.mem_cons_of_mem _ hother)]
      rfl

end

end Karphin.Lib
