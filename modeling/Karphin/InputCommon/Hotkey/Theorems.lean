import Karphin.Lib.FinNumerals
import Karphin.Lib.Transition

/-!
# Hotkeys

A `HotkeyExpression` whose modifiers are pressed suppresses its final input: the table of the suppressions counts, for
each pair of a final input and a modifier, how often it is suppressed.
-/

namespace Karphin.InputCommon

/-- The inputs of the devices, the qualifiers that name them and the states that they can have. -/
structure Inputs (I Q V : Type) where
  isChild : I → I → Bool
  zero : V
  max : V → V → V
  /-- more than `CONDITION_THRESHOLD` -/
  pressed : V → Bool

variable {I Q V : Type} [DecidableEq I]

/-! ## Suppressions -/

/-- `m_suppressions`: a final input and a modifier, and a 16-bit count. -/
abbrev HotkeySuppressions (I : Type) [DecidableEq I] := AList fun _ : I × I => Nat

def suppressionMax : Nat := 2 ^ 16

namespace HotkeySuppressions

def isSuppressed (s : HotkeySuppressions I) (input : Option I) : Bool :=
  match input with
  | none => false
  | some input => s.entries.any fun e => e.1.1 = input

def removeSuppression (s : HotkeySuppressions I) (modifier finalInput : I) : HotkeySuppressions I :=
  match s.lookup (finalInput, modifier) with
  | none => s
  | some level =>
      -- the count is decremented, modulo its size
      if (level + suppressionMax - 1) % suppressionMax = 0 then s.erase (finalInput, modifier)
      else s.insert (finalInput, modifier) ((level + suppressionMax - 1) % suppressionMax)

def addSuppression (s : HotkeySuppressions I) (pair : I × I) : HotkeySuppressions I :=
  s.insert pair (((s.lookup pair).getD 0 + 1) % suppressionMax)

end HotkeySuppressions

/-! ## Expressions -/

structure ControlExpression (I Q : Type) where
  qualifier : Q
  input : Option I := none

namespace ControlExpression

def updateReferences (env : Q → Option I) (c : ControlExpression I Q) : ControlExpression I Q :=
  { c with input := env c.qualifier }

def getValueIgnoringSuppression (inputs : Inputs I Q V) (state : I → V) (c : ControlExpression I Q) : V :=
  match c.input with
  | none => inputs.zero
  | some input => inputs.max inputs.zero (state input)

def getValue (inputs : Inputs I Q V) (state : I → V) (suppressions : HotkeySuppressions I)
    (c : ControlExpression I Q) : V :=
  if suppressions.isSuppressed c.input then inputs.zero else c.getValueIgnoringSuppression inputs state

end ControlExpression

/-- Input is suppressed if it exists in the table with a modifier that is not ignored. -/
def HotkeySuppressions.isSuppressedIgnoringModifiers (inputs : Inputs I Q V) (s : HotkeySuppressions I)
    (input : Option I) (ignoreModifiers : List (ControlExpression I Q)) : Bool :=
  match input with
  | none => false
  | some input => s.entries.any fun e => e.1.1 = input && ignoreModifiers.all fun m =>
      match m.input with
      | none => true
      | some i => !(i = e.1.2 || inputs.isChild i e.1.2 || inputs.isChild e.1.2 i)

structure HotkeyExpression (I Q : Type) where
  modifiers : List (ControlExpression I Q)
  finalInput : ControlExpression I Q
  suppressor : Bool := false
  isBlocked : Bool := false

namespace HotkeyExpression

/-- The pairs that are suppressed; a control without an input gives none. -/
def pairs (h : HotkeyExpression I Q) : List (I × I) :=
  match h.finalInput.input with
  | none => []
  | some finalInput => h.modifiers.filterMap fun m => m.input.map fun modifier => (finalInput, modifier)

def addAll (h : HotkeyExpression I Q) (s : HotkeySuppressions I) : HotkeySuppressions I :=
  h.pairs.foldl .addSuppression s

def removeAll (h : HotkeyExpression I Q) (s : HotkeySuppressions I) : HotkeySuppressions I :=
  h.pairs.foldl (fun s pair => s.removeSuppression pair.2 pair.1) s

def releaseSuppressor (h : HotkeyExpression I Q) (s : HotkeySuppressions I) :
    HotkeyExpression I Q × HotkeySuppressions I :=
  ({ h with suppressor := false }, if h.suppressor then h.removeAll s else s)

def enableSuppression (force : Bool) (h : HotkeyExpression I Q) (s : HotkeySuppressions I) :
    HotkeyExpression I Q × HotkeySuppressions I :=
  if !h.suppressor || force then
    let s := h.addAll s
    ({ h with suppressor := true }, if h.suppressor then h.removeAll s else s)
  else (h, s)

def modifiersPressed (inputs : Inputs I Q V) (state : I → V) (h : HotkeyExpression I Q) (s : HotkeySuppressions I) :
    Bool :=
  h.modifiers.all fun m => inputs.pressed (m.getValue inputs state s)

def getValue (inputs : Inputs I Q V) (state : I → V) (h : HotkeyExpression I Q) (s : HotkeySuppressions I) :
    V × HotkeyExpression I Q × HotkeySuppressions I :=
  let finalInputState := h.finalInput.getValueIgnoringSuppression inputs state
  if h.modifiersPressed inputs state s then
    let isSuppressed := s.isSuppressedIgnoringModifiers inputs h.finalInput.input h.modifiers
    let h := if inputs.pressed finalInputState then h else { h with isBlocked := false }
    -- if some other hotkey suppressed us, require a release of final input to be ready again
    let h := if isSuppressed then { h with isBlocked := true } else h
    if h.isBlocked then (inputs.zero, h, s) else (finalInputState, h.enableSuppression false s)
  else
    let (h, s) := h.releaseSuppressor s
    (inputs.zero, { h with isBlocked := inputs.pressed finalInputState }, s)

def updateReferences (env : Q → Option I) (h : HotkeyExpression I Q) (s : HotkeySuppressions I) :
    HotkeyExpression I Q × HotkeySuppressions I :=
  let h := { h with modifiers := h.modifiers.map (ControlExpression.updateReferences env)
                    finalInput := h.finalInput.updateReferences env }
  if h.suppressor then h.enableSuppression true s else (h, s)

end HotkeyExpression

/-! ## Runs -/

structure Hotkeys (I Q : Type) [DecidableEq I] where
  suppressions : HotkeySuppressions I := ∅
  expressions : List (HotkeyExpression I Q)

namespace Hotkeys

def start (controls : List (List (ControlExpression I Q) × ControlExpression I Q)) : Hotkeys I Q where
  expressions := controls.map fun (modifiers, finalInput) => { modifiers, finalInput }

inductive Action (I Q V : Type)
  | getValue (i : Nat) (state : I → V)
  | updateReferences (i : Nat) (env : Q → Option I)
  | destroy (i : Nat)

def set (s : Hotkeys I Q) (i : Nat) (r : HotkeyExpression I Q × HotkeySuppressions I) : Hotkeys I Q where
  suppressions := r.2
  expressions := s.expressions.set i r.1

def step (inputs : Inputs I Q V) (s : Hotkeys I Q) (a : Action I Q V) : Option (Hotkeys I Q) :=
  match a with
  | .getValue i state =>
      s.expressions[i]?.map fun h => s.set i (h.getValue inputs state s.suppressions).2
  | .updateReferences i env =>
      s.expressions[i]?.map fun h => s.set i (h.updateReferences env s.suppressions)
  | .destroy i =>
      s.expressions[i]?.map fun h =>
        { suppressions := (h.releaseSuppressor s.suppressions).2, expressions := s.expressions.eraseIdx i }

end Hotkeys

end Karphin.InputCommon

/-!
# What the table counts
-/

namespace Karphin.InputCommon

open Karphin.Lib

variable {I Q V : Type} [DecidableEq I]

/-! ## Counts -/

def HotkeySuppressions.Holds (s : HotkeySuppressions I) (count : I × I → Nat) : Prop :=
  ∀ pair, s.lookup pair = (if count pair = 0 then none else some (count pair)) ∧ count pair < suppressionMax

namespace HotkeySuppressions

variable {s : HotkeySuppressions I} {count : I × I → Nat} {pair : I × I}

theorem Holds.getD (h : s.Holds count) (pair : I × I) : (s.lookup pair).getD 0 = count pair := by
  rw [(h pair).1]
  split
  · next hzero => rw [hzero]; rfl
  · rfl

theorem Holds.congr {count' : I × I → Nat} (h : s.Holds count) (heq : ∀ q, count' q = count q) : s.Holds count' := by
  intro q
  rw [heq q]
  exact h q

theorem count_cons_add (pair q : I × I) (l : List (I × I)) : (pair :: l).count q = [pair].count q + l.count q := by
  rw [← List.singleton_append, List.count_append]

theorem count_of_ne {q : I × I} (h : q ≠ pair) : [pair].count q = 0 :=
  List.count_eq_zero.mpr fun hmem => h (List.mem_singleton.mp hmem)

theorem Holds.add (h : s.Holds count) (hmax : count pair + 1 < suppressionMax) :
    (s.addSuppression pair).Holds fun q => count q + [pair].count q := by
  intro q
  rw [addSuppression, h.getD, Nat.mod_eq_of_lt hmax]
  by_cases hq : q = pair
  · subst hq
    simp only [AList.lookup_insert, List.count_singleton_self, Nat.succ_ne_zero, if_false, true_and]
    exact hmax
  · simp only [AList.lookup_insert_ne hq, count_of_ne hq, Nat.add_zero]
    exact h q

theorem Holds.addAll : ∀ {l : List (I × I)} {s : HotkeySuppressions I} {count : I × I → Nat}, s.Holds count →
    (∀ q, count q + l.count q < suppressionMax) → (l.foldl addSuppression s).Holds fun q => count q + l.count q
  | [], s, count, h, _ => h
  | pair :: l, s, count, h, hmax => by
      have hcons : ∀ q, count q + [pair].count q + l.count q = count q + (pair :: l).count q := by
        intro q
        rw [count_cons_add pair q l]
        omega
      have hfirst : count pair + 1 < suppressionMax := by
        have := hmax pair
        rw [List.count_cons_self] at this
        omega
      refine ((h.add hfirst).addAll fun q => ?_).congr fun q => (hcons q).symm
      rw [hcons]
      exact hmax q

theorem Holds.remove (h : s.Holds fun q => count q + [pair].count q) :
    (s.removeSuppression pair.2 pair.1).Holds count := by
  obtain ⟨hlookup, hmax⟩ := h pair
  simp only [List.count_singleton_self, Nat.succ_ne_zero, if_false] at hlookup hmax
  have hlevel : (count pair + 1 + suppressionMax - 1) % suppressionMax = count pair := by
    rw [show count pair + 1 + suppressionMax - 1 = count pair + suppressionMax by omega, Nat.add_mod_right,
      Nat.mod_eq_of_lt (by omega)]
  intro q
  rw [removeSuppression, hlookup]
  simp only [hlevel]
  by_cases hq : q = pair
  · subst hq
    refine ⟨?_, by omega⟩
    split
    · rw [AList.lookup_erase]
    · rw [AList.lookup_insert]
  · have hother := h q
    simp only [count_of_ne hq, Nat.add_zero] at hother
    split
    · rw [AList.lookup_erase_ne hq]
      exact hother
    · rw [AList.lookup_insert_ne hq]
      exact hother

theorem Holds.removeAll : ∀ {l : List (I × I)} {s : HotkeySuppressions I} {count : I × I → Nat},
    s.Holds (fun q => count q + l.count q) →
    (l.foldl (fun s pair => s.removeSuppression pair.2 pair.1) s).Holds count
  | [], s, count, h => h
  | pair :: l, s, count, h => by
      have hcons : ∀ q, count q + l.count q + [pair].count q = count q + (pair :: l).count q := by
        intro q
        rw [count_cons_add pair q l]
        omega
      have hrest : (s.removeSuppression pair.2 pair.1).Holds fun q => count q + l.count q := (h.congr hcons).remove
      rw [List.foldl_cons]
      exact hrest.removeAll

theorem Holds.eq_empty (h : s.Holds fun _ => 0) : s = ∅ := by
  have hnil : s.entries = [] := by
    apply List.eq_nil_iff_forall_not_mem.mpr
    intro e he
    have hnone : s.lookup e.1 = none := (h e.1).1
    rw [AList.lookup_eq_none] at hnone
    exact hnone (AList.mem_keys.mpr (List.mem_map_of_mem he))
  exact AList.ext hnil

theorem isSuppressed_empty (input : Option I) : isSuppressed (∅ : HotkeySuppressions I) input = false := by
  cases input <;> rfl

end HotkeySuppressions

namespace HotkeyExpression

variable {h : HotkeyExpression I Q} {s : HotkeySuppressions I} {count : I × I → Nat}

/-- How often the expression suppresses a pair: as often as its modifiers resolve to it, when it has a suppressor. -/
def own (h : HotkeyExpression I Q) (pair : I × I) : Nat := if h.suppressor then h.pairs.count pair else 0

theorem holds_release (hs : s.Holds fun q => count q + h.own q) : (h.releaseSuppressor s).2.Holds count := by
  rw [releaseSuppressor]
  cases hsuppressor : h.suppressor with
  | false =>
      simp only [own, hsuppressor, Bool.false_eq_true, if_false, Nat.add_zero] at hs ⊢
      exact hs
  | true =>
      simp only [own, hsuppressor, if_true] at hs ⊢
      exact hs.removeAll

theorem holds_enable (hs : s.Holds fun q => count q + h.own q)
    (hmax : h.suppressor = false → ∀ q, count q + h.pairs.count q < suppressionMax) :
    (h.enableSuppression false s).2.Holds fun q => count q + (h.enableSuppression false s).1.own q := by
  rw [enableSuppression]
  cases hsuppressor : h.suppressor with
  | false =>
      simp only [own, hsuppressor, Bool.false_eq_true, if_false, Nat.add_zero, Bool.not_false, Bool.true_or, if_true]
        at hs ⊢
      exact hs.addAll (hmax hsuppressor)
  | true =>
      simp only [own, hsuppressor, Bool.not_true, Bool.false_or, Bool.false_eq_true, if_false] at hs ⊢
      exact hs

def updated (env : Q → Option I) (h : HotkeyExpression I Q) : HotkeyExpression I Q :=
  { h with modifiers := h.modifiers.map (ControlExpression.updateReferences env)
           finalInput := h.finalInput.updateReferences env }

theorem holds_update {env : Q → Option I} (hs : s.Holds fun q => count q + h.own q)
    (hsame : h.suppressor = true → (h.updated env).pairs.Perm h.pairs)
    (hmax : h.suppressor = true → ∀ q, count q + 2 * h.pairs.count q < suppressionMax) :
    (h.updateReferences env s).2.Holds fun q => count q + (h.updateReferences env s).1.own q := by
  rw [updateReferences]
  cases hsuppressor : h.suppressor with
  | false =>
      simp only [own, hsuppressor, Bool.false_eq_true, if_false, Nat.add_zero] at hs ⊢
      exact hs
  | true =>
      have hperm := hsame hsuppressor
      have hcount : ∀ q, (h.updated env).pairs.count q = h.pairs.count q := fun q => hperm.count_eq q
      have hadded : ((h.updated env).addAll s).Holds fun q =>
          count q + h.pairs.count q + (h.updated env).pairs.count q := by
        refine HotkeySuppressions.Holds.addAll ?_ fun q => ?_
        · simpa only [own, hsuppressor, if_true] using hs
        · rw [hcount]
          have := hmax hsuppressor q
          omega
      have hremoved := hadded.removeAll
      refine hremoved.congr fun q => ?_
      simp only [enableSuppression, Bool.or_true, if_true, own]
      exact congrArg (count q + ·) (hcount q)

def enables (inputs : Inputs I Q V) (state : I → V) (h : HotkeyExpression I Q) (s : HotkeySuppressions I) : Bool :=
  h.modifiersPressed inputs state s && !(s.isSuppressedIgnoringModifiers inputs h.finalInput.input h.modifiers ||
    (h.isBlocked && inputs.pressed (h.finalInput.getValueIgnoringSuppression inputs state)))

theorem holds_getValue {inputs : Inputs I Q V} {state : I → V} (hs : s.Holds fun q => count q + h.own q)
    (hmax : h.enables inputs state s = true → h.suppressor = false →
      ∀ q, count q + h.pairs.count q < suppressionMax) :
    (h.getValue inputs state s).2.2.Holds fun q => count q + (h.getValue inputs state s).2.1.own q := by
  have hblock : ∀ isBlocked, HotkeySuppressions.Holds s fun q => count q + ({ h with isBlocked }).own q := fun _ => hs
  rw [getValue]
  cases hmodifiers : h.modifiersPressed inputs state s with
  | false => exact holds_release hs
  | true =>
      cases hsuppressed : s.isSuppressedIgnoringModifiers inputs h.finalInput.input h.modifiers with
      | true =>
          simp only [if_true]
          split
          · exact hs
          · exact hs
      | false =>
          have henable : (h.isBlocked && inputs.pressed (h.finalInput.getValueIgnoringSuppression inputs state)) = false →
              h.suppressor = false → ∀ q, count q + h.pairs.count q < suppressionMax := by
            intro hblocked
            apply hmax
            rw [enables, hmodifiers, hsuppressed, hblocked]
            rfl
          cases hpressed : inputs.pressed (h.finalInput.getValueIgnoringSuppression inputs state) with
          | false =>
              rw [hpressed, Bool.and_false] at henable
              simp only [Bool.false_eq_true, if_false, if_true]
              exact holds_enable (hblock false) (henable rfl)
          | true =>
              rw [hpressed, Bool.and_true] at henable
              simp only [Bool.false_eq_true, if_false, if_true]
              cases hblocked : h.isBlocked with
              | true => exact hs
              | false => exact holds_enable hs (henable hblocked)

end HotkeyExpression

/-! ## Runs -/

namespace Hotkeys

variable {inputs : Inputs I Q V} {s s' : Hotkeys I Q}

def total (s : Hotkeys I Q) (pair : I × I) : Nat := (s.expressions.map (·.own pair)).sum

def Exact (s : Hotkeys I Q) : Prop := s.suppressions.Holds s.total

theorem total_split {i : Nat} {h : HotkeyExpression I Q} (hi : s.expressions[i]? = some h) (q : I × I) :
    s.total q = ((s.expressions.eraseIdx i).map (·.own q)).sum + h.own q := by
  obtain ⟨hlt, hget⟩ := List.getElem?_eq_some_iff.mp hi
  have hperm : (h :: s.expressions.eraseIdx i).Perm s.expressions := by
    rw [← hget]
    exact List.getElem_cons_eraseIdx_perm hlt
  rw [total, ← (hperm.map _).sum_eq, List.map_cons, List.sum_cons, Nat.add_comm]

theorem total_set {i : Nat} {h : HotkeyExpression I Q} (hi : s.expressions[i]? = some h)
    (r : HotkeyExpression I Q × HotkeySuppressions I) (q : I × I) :
    (s.set i r).total q = ((s.expressions.eraseIdx i).map (·.own q)).sum + r.1.own q := by
  have hlt : i < s.expressions.length := (List.getElem?_eq_some_iff.mp hi).1
  have hset : (s.set i r).expressions[i]? = some r.1 := List.getElem?_set_self hlt
  rw [total_split hset, set, List.eraseIdx_set_eq]

theorem Exact.split {i : Nat} {h : HotkeyExpression I Q} (hs : s.Exact) (hi : s.expressions[i]? = some h) :
    s.suppressions.Holds fun q => ((s.expressions.eraseIdx i).map (·.own q)).sum + h.own q :=
  hs.congr fun q => (total_split hi q).symm

theorem Exact.set {i : Nat} {h : HotkeyExpression I Q} {r : HotkeyExpression I Q × HotkeySuppressions I}
    (hi : s.expressions[i]? = some h)
    (hr : r.2.Holds fun q => ((s.expressions.eraseIdx i).map (·.own q)).sum + r.1.own q) : (s.set i r).Exact :=
  hr.congr (total_set hi r)

theorem total_of_released (h : ∀ e ∈ s.expressions, e.suppressor = false) (q : I × I) : s.total q = 0 := by
  rw [total, List.sum_eq_zero]
  intro n hn
  obtain ⟨e, he, rfl⟩ := List.mem_map.mp hn
  rw [HotkeyExpression.own, h e he]
  rfl

def Room (s : Hotkeys I Q) (h : HotkeyExpression I Q) : Prop :=
  ∀ q, s.total q + h.pairs.count q < suppressionMax

/-- A suppressor is made only where the counts have room for it, and the inputs of an expression with a suppressor do
not change. -/
def Keeps (inputs : Inputs I Q V) (s : Hotkeys I Q) : Action I Q V → Prop
  | .getValue i state => ∀ h, s.expressions[i]? = some h → h.enables inputs state s.suppressions = true →
      h.suppressor = false → s.Room h
  | .updateReferences i env => ∀ h, s.expressions[i]? = some h → h.suppressor = true →
      (h.updated env).pairs.Perm h.pairs ∧ s.Room h
  | .destroy _ => True

theorem Exact.step {a : Action I Q V} (hs : s.Exact) (ha : s.Keeps inputs a) (hstep : s.step inputs a = some s') :
    s'.Exact := by
  cases a with
  | getValue i state =>
      obtain ⟨h, hi, rfl⟩ := Option.map_eq_some_iff.mp hstep
      apply Exact.set hi
      apply HotkeyExpression.holds_getValue (hs.split hi)
      intro henables hsuppressor q
      have hroom := ha h hi henables hsuppressor q
      rw [total_split hi] at hroom
      omega
  | updateReferences i env =>
      obtain ⟨h, hi, rfl⟩ := Option.map_eq_some_iff.mp hstep
      apply Exact.set hi
      apply HotkeyExpression.holds_update (hs.split hi)
      · intro hsuppressor
        exact (ha h hi hsuppressor).1
      · intro hsuppressor q
        have hroom := (ha h hi hsuppressor).2 q
        rw [total_split hi, HotkeyExpression.own, if_pos hsuppressor] at hroom
        omega
  | destroy i =>
      obtain ⟨h, hi, rfl⟩ := Option.map_eq_some_iff.mp hstep
      exact HotkeyExpression.holds_release (hs.split hi)

theorem start_released (controls : List (List (ControlExpression I Q) × ControlExpression I Q)) :
    ∀ e ∈ (start controls).expressions, e.suppressor = false := by
  intro e he
  obtain ⟨c, -, rfl⟩ := List.mem_map.mp he
  rfl

theorem start_exact (controls : List (List (ControlExpression I Q) × ControlExpression I Q)) :
    (start controls).Exact := by
  intro q
  rw [total_of_released (start_released controls)]
  exact ⟨AList.lookup_empty q, by decide⟩

theorem total_eq_countP (h : ∀ e ∈ s.expressions, e.suppressor = true → e.pairs.Nodup) (q : I × I) :
    s.total q = s.expressions.countP fun e => e.suppressor && q ∈ e.pairs := by
  rw [total]
  generalize s.expressions = l at h
  induction l with
  | nil => rfl
  | cons e l ih =>
      have hrest : (l.map (·.own q)).sum = l.countP fun e => e.suppressor && q ∈ e.pairs :=
        ih fun e' he' => h e' (List.mem_cons_of_mem _ he')
      rw [List.map_cons, List.sum_cons, List.countP_cons, hrest, Nat.add_comm]
      congr 1
      cases hsuppressor : e.suppressor with
      | false => simp [HotkeyExpression.own, hsuppressor]
      | true =>
          have hnodup := h e List.mem_cons_self hsuppressor
          simp [HotkeyExpression.own, hsuppressor, hnodup.count]

theorem suppressions_eq_empty (hs : s.Exact) (h : ∀ e ∈ s.expressions, e.suppressor = false) :
    s.suppressions = ∅ :=
  HotkeySuppressions.Holds.eq_empty (hs.congr fun q => (total_of_released h q).symm)

/-! ## Few expressions -/

theorem own_le_length (h : HotkeyExpression I Q) (q : I × I) : h.own q ≤ h.pairs.length := by
  rw [HotkeyExpression.own]
  split
  · exact List.count_le_length
  · exact Nat.zero_le _

theorem room_of_length {h : HotkeyExpression I Q}
    (hfew : (s.expressions.map (·.pairs.length)).sum + h.pairs.length < suppressionMax) : s.Room h := by
  intro q
  have htotal : s.total q ≤ (s.expressions.map (·.pairs.length)).sum :=
    List.sum_le_sum fun e _ => own_le_length e q
  have hcount : h.pairs.count q ≤ h.pairs.length := List.count_le_length
  omega

/-- The check of a step that needs no look at the pairs one by one. -/
def keepsFew (s : Hotkeys I Q) : Action I Q V → Bool
  | .getValue i _ => (s.expressions[i]?).all fun h =>
      (s.expressions.map (·.pairs.length)).sum + h.pairs.length < suppressionMax
  | .updateReferences i env => (s.expressions[i]?).all fun h =>
      (h.suppressor → (h.updated env).pairs = h.pairs) ∧
        (s.expressions.map (·.pairs.length)).sum + h.pairs.length < suppressionMax
  | .destroy _ => true

theorem keeps_of_few (s : Hotkeys I Q) (a : Action I Q V) (h : s.keepsFew a = true) : s.Keeps inputs a := by
  cases a with
  | getValue i state =>
      intro e he _ _
      rw [keepsFew, he, Option.all_some, decide_eq_true_eq] at h
      exact room_of_length h
  | updateReferences i env =>
      intro e he hsuppressor
      rw [keepsFew, he, Option.all_some, decide_eq_true_eq] at h
      exact ⟨List.Perm.of_eq (h.1 hsuppressor), room_of_length h.2⟩
  | destroy i => trivial

/-! ## Main result -/

/-- While the inputs of the expressions with a suppressor stay as they are, each pair is counted as often as it is
suppressed, and nothing is left when everything is released. -/
theorem suppressions_exact {controls : List (List (ControlExpression I Q) × ControlExpression I Q)}
    (hreach : Reach (step inputs) (Keeps inputs) (start controls) s) :
    (∀ q, s.suppressions.lookup q = if s.total q = 0 then none else some (s.total q)) ∧
      ((∀ e ∈ s.expressions, e.suppressor = true → e.pairs.Nodup) →
        ∀ q, (s.suppressions.lookup q).getD 0 = s.expressions.countP fun e => e.suppressor && q ∈ e.pairs) ∧
      ((∀ e ∈ s.expressions, e.suppressor = false) →
        s.suppressions = ∅ ∧ ∀ input, s.suppressions.isSuppressed input = false) := by
  have hexact : s.Exact := Reach.invariant Exact (start_exact controls) Exact.step hreach
  refine ⟨fun q => (hexact q).1, ?_, ?_⟩
  · intro hnodup q
    rw [hexact.getD, total_eq_countP hnodup]
  · intro hreleased
    have hempty := suppressions_eq_empty hexact hreleased
    refine ⟨hempty, ?_⟩
    intro input
    rw [hempty]
    exact HotkeySuppressions.isSuppressed_empty input

/-! ## One hotkey -/

def oneHotkey : List (List (ControlExpression Nat Nat) × ControlExpression Nat Nat) :=
  [([{ qualifier := 0 }], { qualifier := 1 })]

def buttons : Inputs Nat Nat Bool where
  isChild _ _ := false
  zero := false
  max := or
  pressed := id

/-- The references are found, the hotkey is pressed, the references are found again where `env` says, the hotkey is
released and destroyed. -/
def pressAndRelease (env : Nat → Option Nat) : List (Action Nat Nat Bool) :=
  [.updateReferences 0 fun q => some (10 * (q + 1)), .getValue 0 fun _ => true, .updateReferences 0 env,
    .getValue 0 fun _ => false, .destroy 0]

def found (q : Nat) : Option Nat := some (10 * (q + 1))

/-- When the inputs stay, the table is empty in the end. -/
theorem pressAndRelease_found :
    ∃ s, Reach (step buttons) (Keeps buttons) (start oneHotkey) s ∧ s.expressions = [] ∧ s.suppressions = ∅ := by
  obtain ⟨s, hrun, hgone⟩ : ∃ s, run (fun s a => if s.keepsFew a then step buttons s a else none) (start oneHotkey)
      (pressAndRelease found) = some s ∧ s.expressions = [] :=
    ⟨_, rfl, rfl⟩
  have hreach : Reach (step buttons) (Keeps buttons) (start oneHotkey) s := (reach_of_guarded hrun).mono keeps_of_few
  have hreleased : ∀ e ∈ s.expressions, e.suppressor = false := by
    rw [hgone]
    intro e he
    cases he
  exact ⟨s, hreach, hgone, ((suppressions_exact hreach).2.2 hreleased).1⟩

/-- When the final input is found elsewhere while the hotkey is pressed, its first pair stays suppressed. -/
theorem pressAndRelease_moved :
    ∃ s, run (step buttons) (start oneHotkey) (pressAndRelease fun q => if q = 0 then some 10 else some 30) = some s ∧
      s.expressions = [] ∧ s.suppressions.lookup (20, 10) = some 1 ∧ s.suppressions.isSuppressed (some 20) = true :=
  ⟨_, rfl, rfl, by decide, by decide⟩

end Hotkeys

end Karphin.InputCommon
