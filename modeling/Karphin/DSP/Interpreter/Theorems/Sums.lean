import Karphin.DSP.Interpreter.Theorems.Flags

/-!
# Sums and differences

The instructions that add to an accumulator, subtract from it or compare it with something leave the exact result in 40 bits,
and flags that tell what it was.
-/

namespace Karphin.DSP

open Karphin.Lib

/-- What an instruction adds or subtracts, and the accumulator that takes the result, if it is not a comparison. -/
structure Sum where
  target : Option (Fin 2)
  left : Int
  right : Int
  subtracts : Bool
  deriving DecidableEq

namespace Sum

def exact (sum : Sum) : Int := if sum.subtracts then sum.left - sum.right else sum.left + sum.right

def wrapped (sum : Sum) : Int := Int.bmod sum.exact (2 ^ 40)

/-- A carry out of the 40 bits; for a difference, that there is no borrow. -/
def carry (sum : Sum) : Bool :=
  if sum.subtracts then sum.right % 2 ^ 40 ≤ sum.left % 2 ^ 40
  else 2 ^ 40 ≤ sum.left % 2 ^ 40 + sum.right % 2 ^ 40

def overflow (sum : Sum) : Bool := sum.exact < -2 ^ 39 ∨ 2 ^ 39 ≤ sum.exact

end Sum

namespace Interpreter

variable {H : Type}

def axPartOf (s : Dsp H) (reg : Fin 4) : Word :=
  match reg.val with
  | 0 => (s.r.ax 0).l
  | 1 => (s.r.ax 1).l
  | 2 => (s.r.ax 0).h
  | _ => (s.r.ax 1).h

def Op.sum (opc : Word) (s : Dsp H) : Op → Option Sum
  | .addr => some ⟨some (field opc 8 1), s.longAcc (field opc 8 1), (axPartOf s (field opc 9 2)).toInt * 0x10000, false⟩
  | .addax => some ⟨some (field opc 8 1), s.longAcc (field opc 8 1), s.longACX (field opc 9 1), false⟩
  | .add => some ⟨some (field opc 8 1), s.longAcc (field opc 8 1), s.longAcc (opposite (field opc 8 1)), false⟩
  | .addaxl => some ⟨some (field opc 8 1), s.longAcc (field opc 8 1), (s.r.ax (field opc 9 1)).l.toNat, false⟩
  | .addi => some ⟨some (field opc 8 1), s.longAcc (field opc 8 1), (s.readIMEM s.pc).toInt * 0x10000, false⟩
  | .addis => some ⟨some (field opc 8 1), s.longAcc (field opc 8 1), shortImmediate opc, false⟩
  | .incm => some ⟨some (field opc 8 1), s.longAcc (field opc 8 1), 0x10000, false⟩
  | .inc => some ⟨some (field opc 8 1), s.longAcc (field opc 8 1), 1, false⟩
  | .subr => some ⟨some (field opc 8 1), s.longAcc (field opc 8 1), (axPartOf s (field opc 9 2)).toInt * 0x10000, true⟩
  | .subax => some ⟨some (field opc 8 1), s.longAcc (field opc 8 1), s.longACX (field opc 9 1), true⟩
  | .sub => some ⟨some (field opc 8 1), s.longAcc (field opc 8 1), s.longAcc (opposite (field opc 8 1)), true⟩
  | .decm => some ⟨some (field opc 8 1), s.longAcc (field opc 8 1), 0x10000, true⟩
  | .dec => some ⟨some (field opc 8 1), s.longAcc (field opc 8 1), 1, true⟩
  | .neg => some ⟨some (field opc 8 1), 0, s.longAcc (field opc 8 1), true⟩
  | .cmp => some ⟨none, s.longAcc 0, s.longAcc 1, true⟩
  | .cmpaxh => some ⟨none, s.longAcc (field opc 11 1), (s.r.ax (field opc 12 1)).h.toInt * 0x10000, true⟩
  | .cmpi => some ⟨none, s.longAcc (field opc 8 1), (s.readIMEM s.pc).toInt * 0x10000, true⟩
  | .cmpis => some ⟨none, s.longAcc (field opc 8 1), shortImmediate opc, true⟩
  | _ => none

end Interpreter

/-! ## Results in forty bits -/

variable {a b v : Int}

theorem convert_emod (v : Int) : dspConvertLongAcc v % 2 ^ 40 = v % 2 ^ 40 := Int.bmod_emod

theorem convert_cases (hlow : -2 ^ 40 ≤ v) (hhigh : v < 2 ^ 40) :
    (v < -2 ^ 39 ∧ dspConvertLongAcc v = v + 2 ^ 40) ∨ (-2 ^ 39 ≤ v ∧ v < 2 ^ 39 ∧ dspConvertLongAcc v = v) ∨
      (2 ^ 39 ≤ v ∧ dspConvertLongAcc v = v - 2 ^ 40) := by
  have hrange := convert_range v
  have hsame := convert_emod v
  omega

theorem toU64_lt_iff (ha : isProperlySignExtended a = true) (hb : isProperlySignExtended b = true) :
    toU64 a < toU64 b ↔ a % 2 ^ 40 < b % 2 ^ 40 := by
  rw [isProperlySignExtended_iff] at ha hb
  rw [toU64, toU64]
  omega

theorem isCarryAdd_eq (ha : isProperlySignExtended a = true) (b : Int) :
    isCarryAdd a (dspConvertLongAcc (a + b)) = decide (2 ^ 40 ≤ a % 2 ^ 40 + b % 2 ^ 40) := by
  rw [isCarryAdd, decide_eq_decide, toU64_lt_iff (convert_proper _) ha, convert_emod]
  omega

theorem isCarrySubtract_eq (ha : isProperlySignExtended a = true) (b : Int) :
    isCarrySubtract a (dspConvertLongAcc (a - b)) = decide (b % 2 ^ 40 ≤ a % 2 ^ 40) := by
  rw [isCarrySubtract, decide_eq_decide, ← Nat.not_lt, toU64_lt_iff ha (convert_proper _), convert_emod]
  omega

theorem isOverflow_eq (ha : isProperlySignExtended a = true) (hlow : -2 ^ 39 ≤ b) (hhigh : b ≤ 2 ^ 39) :
    isOverflow a b (dspConvertLongAcc (a + b)) = decide (a + b < -2 ^ 39 ∨ 2 ^ 39 ≤ a + b) := by
  rw [isProperlySignExtended_iff] at ha
  have hcases := @convert_cases (a + b) (by omega) (by omega)
  rw [isOverflow, Bool.eq_iff_iff, Bool.and_eq_true, bne_iff_ne, bne_iff_ne, ne_eq, ne_eq, decide_eq_decide,
    decide_eq_decide, decide_eq_true_iff]
  omega

theorem isOverS32_eq (h : isProperlySignExtended v = true) : isOverS32 v = decide (v < -2 ^ 31 ∨ 2 ^ 31 ≤ v) := by
  rw [isProperlySignExtended_iff] at h
  have hlow := @Int.le_bmod v (2 ^ 32) (by decide)
  have hhigh := @Int.bmod_lt v (2 ^ 32) (by decide)
  have hsame := @Int.bmod_emod v (2 ^ 32)
  rw [isOverS32, decide_eq_decide]
  omega

/-! ## Flags -/

theorem updateSR64_flags (v : Int) (carry overflow : Bool) (sr : Word) :
    updateSR64 v carry overflow sr &&& srCarry = (if carry then srCarry else 0) ∧
    updateSR64 v carry overflow sr &&& srOverflow = (if overflow then srOverflow else 0) ∧
    updateSR64 v carry overflow sr &&& srOverflowSticky =
      (if overflow then srOverflowSticky else sr &&& srOverflowSticky) ∧
    updateSR64 v carry overflow sr &&& srArithZero = (if v = 0 then srArithZero else 0) ∧
    updateSR64 v carry overflow sr &&& srOverS32 = (if isOverS32 v then srOverS32 else 0) ∧
    updateSR64 v carry overflow sr &&& srTop2Bits =
      (if v / 0x40000000 % 4 = 0 ∨ v / 0x40000000 % 4 = 3 then srTop2Bits else 0) := by
  have hclear : ∀ flag, ~~~srCmpMask &&& flag = 0 → sr &&& ~~~srCmpMask &&& flag = 0 := fun flag hflag => by
    rw [BitVec.and_assoc, hflag]
    exact BitVec.and_zero
  have hkept : sr &&& ~~~srCmpMask &&& srOverflowSticky = sr &&& srOverflowSticky := by
    rw [BitVec.and_assoc]
    rfl
  simp (disch := decide) only [updateSR64, setIf_and_other, setIf_and_self, hclear, hkept, decide_eq_true_eq,
    Bool.or_eq_true, and_self]

/-! ## Sums -/

namespace Sum

variable {sum : Sum}

structure Proper (sum : Sum) : Prop where
  left : isProperlySignExtended sum.left = true
  right : isProperlySignExtended sum.right = true

theorem Proper.carry_eq (h : sum.Proper) :
    (if sum.subtracts then isCarrySubtract sum.left (dspConvertLongAcc sum.exact)
      else isCarryAdd sum.left (dspConvertLongAcc sum.exact)) = sum.carry := by
  rw [Sum.exact, Sum.carry]
  split
  · exact isCarrySubtract_eq h.left _
  · exact isCarryAdd_eq h.left _

theorem Proper.overflow_eq (h : sum.Proper) :
    isOverflow sum.left (if sum.subtracts then -sum.right else sum.right) (dspConvertLongAcc sum.exact) =
      sum.overflow := by
  have hright := isProperlySignExtended_iff.mp h.right
  rw [Sum.overflow, Sum.exact]
  split
  · exact isOverflow_eq h.left (by omega) (by omega)
  · exact isOverflow_eq h.left (by omega) (by omega)

end Sum

namespace Dsp

variable {H : Type} {s t : Dsp H} {sum : Sum}

/-- What the machine does with a sum: the handlers give the flags the operands and the result. -/
def applySum (t : Dsp H) (sum : Sum) : Dsp H :=
  let result := dspConvertLongAcc sum.exact
  let t := match sum.target with
    | some d => t.setLongAcc d sum.exact
    | none => t
  t.setSR (updateSR64 result (if sum.subtracts then isCarrySubtract sum.left result else isCarryAdd sum.left result)
    (isOverflow sum.left (if sum.subtracts then -sum.right else sum.right) result) t.r.sr)

/-- The result of a sum, and all flags that tell of it. The sticky flag is not cleared. -/
structure SumResult (s : Dsp H) (sum : Sum) (s' : Dsp H) : Prop where
  result : ∀ d, sum.target = some d → s'.longAcc d = sum.wrapped
  others : ∀ i, sum.target ≠ some i → s'.r.ac i = s.r.ac i
  carry : s'.isSRFlagSet srCarry = sum.carry
  overflow : s'.isSRFlagSet srOverflow = sum.overflow
  sticky : s'.isSRFlagSet srOverflowSticky = (s.isSRFlagSet srOverflowSticky || sum.overflow)
  sign : s'.isSRFlagSet srSign = decide (sum.wrapped < 0)
  zero : s'.isSRFlagSet srArithZero = decide (sum.wrapped = 0)
  overS32 : s'.isSRFlagSet srOverS32 = decide (sum.wrapped < -2 ^ 31 ∨ 2 ^ 31 ≤ sum.wrapped)
  top2Bits : s'.isSRFlagSet srTop2Bits = decide (sum.wrapped / 2 ^ 31 % 2 = sum.wrapped / 2 ^ 30 % 2)

theorem decide_ite_ne_zero {c : Prop} [Decidable c] {flag : Word} (hflag : flag ≠ 0) :
    decide ((if c then flag else 0) ≠ 0) = decide c := by
  split
  next hc => rw [decide_eq_true hc, decide_eq_true hflag]
  next hc => rw [decide_eq_false hc, decide_eq_false (not_not.mpr rfl)]

theorem applySum_r (t : Dsp H) (sum : Sum) : (t.applySum sum).r.sr =
    updateSR64 (dspConvertLongAcc sum.exact)
      (if sum.subtracts then isCarrySubtract sum.left (dspConvertLongAcc sum.exact)
        else isCarryAdd sum.left (dspConvertLongAcc sum.exact))
      (isOverflow sum.left (if sum.subtracts then -sum.right else sum.right) (dspConvertLongAcc sum.exact)) t.r.sr := by
  rw [applySum]
  cases sum.target <;> rfl

theorem applySum_result (h : sum.Proper) (ht : t.r = s.r) : s.SumResult sum (t.applySum sum) := by
  have hsr := applySum_r t sum
  rw [h.carry_eq, h.overflow_eq, ht] at hsr
  obtain ⟨hcarry, hoverflow, hsticky, hzero, hover, htop⟩ :=
    updateSR64_flags (dspConvertLongAcc sum.exact) sum.carry sum.overflow s.r.sr
  have hsign := updateSR64_sign (dspConvertLongAcc sum.exact) sum.carry sum.overflow s.r.sr
  rw [← hsr] at hcarry hoverflow hsticky hzero hover htop hsign
  refine ⟨fun d hd => ?_, fun i hi => ?_, ?_, ?_, ?_, ?_, ?_, ?_, ?_⟩
  · have hresult := longAcc_setLongAcc t d sum.exact
    rw [applySum, hd]
    exact hresult
  · rw [applySum, ← ht]
    cases hd : sum.target with
    | none => rfl
    | some d => exact Function.update_of_ne (fun heq => hi (hd.trans (congrArg some heq.symm))) _ _
  · rw [isSRFlagSet, hcarry, decide_ite_ne_zero (by decide), Bool.decide_eq_true]
  · rw [isSRFlagSet, hoverflow, decide_ite_ne_zero (by decide), Bool.decide_eq_true]
  · rw [isSRFlagSet, hsticky, isSRFlagSet]
    cases sum.overflow
    · simp
    · simp [srOverflowSticky]
  · rw [isSRFlagSet, hsign, decide_ite_ne_zero (by decide)]
    rfl
  · rw [isSRFlagSet, hzero, decide_ite_ne_zero (by decide)]
    rfl
  · rw [isSRFlagSet, hover, decide_ite_ne_zero (by decide), Bool.decide_eq_true, isOverS32_eq (convert_proper _)]
    rfl
  · rw [isSRFlagSet, htop, decide_ite_ne_zero (by decide), decide_eq_decide, Sum.wrapped]
    rw [← dspConvertLongAcc]
    omega

end Dsp

/-! ## Handlers -/

namespace Interpreter

open Dsp Traced

variable {H : Type} {s : Dsp H} {d : Fin 2} {x : Exec H Int} {sum : Sum} {inst : Word}

theorem addTo_applySum : (addTo d x s).state =
    (x s).state.applySum ⟨some d, s.longAcc d, (x s).value, false⟩ := by
  have hresult := longAcc_setLongAcc (x s).state d (s.longAcc d + (x s).value)
  have hstate : (addTo d x s).state = ((x s).state.setLongAcc d (s.longAcc d + (x s).value)).setSR
      (updateSR64 (((x s).state.setLongAcc d (s.longAcc d + (x s).value)).longAcc d)
        (isCarryAdd (s.longAcc d) (((x s).state.setLongAcc d (s.longAcc d + (x s).value)).longAcc d))
        (isOverflow (s.longAcc d) (x s).value (((x s).state.setLongAcc d (s.longAcc d + (x s).value)).longAcc d))
        (x s).state.r.sr) := rfl
  rw [hstate, hresult]
  rfl

theorem subFrom_applySum : (subFrom d x s).state =
    (x s).state.applySum ⟨some d, s.longAcc d, (x s).value, true⟩ := by
  have hresult := longAcc_setLongAcc (x s).state d (s.longAcc d - (x s).value)
  have hstate : (subFrom d x s).state = ((x s).state.setLongAcc d (s.longAcc d - (x s).value)).setSR
      (updateSR64 (((x s).state.setLongAcc d (s.longAcc d - (x s).value)).longAcc d)
        (isCarrySubtract (s.longAcc d) (((x s).state.setLongAcc d (s.longAcc d - (x s).value)).longAcc d))
        (isOverflow (s.longAcc d) (-(x s).value) (((x s).state.setLongAcc d (s.longAcc d - (x s).value)).longAcc d))
        (x s).state.r.sr) := rfl
  rw [hstate, hresult]
  rfl

theorem compare_applySum : (Interpreter.compare d x s).state =
    (x s).state.applySum ⟨none, s.longAcc d, (x s).value, true⟩ := rfl

theorem neg_applySum (opc : Word) : (Interpreter.neg opc s).state =
    s.applySum ⟨some (field opc 8 1), 0, s.longAcc (field opc 8 1), true⟩ := by
  have hresult := longAcc_setLongAcc s (field opc 8 1) (0 - s.longAcc (field opc 8 1))
  have hstate : (Interpreter.neg opc s).state = (s.setLongAcc (field opc 8 1) (0 - s.longAcc (field opc 8 1))).setSR
      (updateSR64 ((s.setLongAcc (field opc 8 1) (0 - s.longAcc (field opc 8 1))).longAcc (field opc 8 1))
        (isCarrySubtract 0 ((s.setLongAcc (field opc 8 1) (0 - s.longAcc (field opc 8 1))).longAcc (field opc 8 1)))
        (isOverflow 0 (-s.longAcc (field opc 8 1))
          ((s.setLongAcc (field opc 8 1) (0 - s.longAcc (field opc 8 1))).longAcc (field opc 8 1))) s.r.sr) := rfl
  rw [hstate, hresult]
  rfl

theorem axPart_value (reg : Fin 4) : (toMid (axPart reg) s).value = (axPartOf s reg).toInt * 0x10000 := by
  match reg with
  | 0 | 1 | 2 | 3 => rfl

theorem Op.exec_applySum (hw : Hardware H) (inst : Word) (op : Op) (hs : s.Extended) (hsum : op.sum inst s = some sum) :
    sum.Proper ∧ ∃ t : Dsp H, t.r = s.r ∧ (op.exec hw inst s).state = t.applySum sum := by
  have hzero : isProperlySignExtended 0 = true := by decide
  have hone : isProperlySignExtended 1 = true := by decide
  have hmid : isProperlySignExtended 0x10000 = true := by decide
  cases op <;> simp only [Op.sum, Option.some.injEq, reduceCtorEq] at hsum <;> subst hsum
  case addr =>
    refine ⟨⟨hs _, proper_mid _⟩, (toMid (axPart (field inst 9 2)) s).state, (reading_axPart (field inst 9 2)).r s, ?_⟩
    rw [← axPart_value]
    exact addTo_applySum
  case subr =>
    refine ⟨⟨hs _, proper_mid _⟩, (toMid (axPart (field inst 9 2)) s).state, (reading_axPart (field inst 9 2)).r s, ?_⟩
    rw [← axPart_value]
    exact subFrom_applySum
  case addax => exact ⟨⟨hs _, proper_longACX s _⟩, _, rfl, addTo_applySum⟩
  case add => exact ⟨⟨hs _, hs _⟩, _, rfl, addTo_applySum⟩
  case addaxl => exact ⟨⟨hs _, proper_low _⟩, _, rfl, addTo_applySum⟩
  case addi => exact ⟨⟨hs _, proper_mid _⟩, (toMid fetchInstruction s).state, rfl, addTo_applySum⟩
  case addis => exact ⟨⟨hs _, proper_shortImmediate inst⟩, _, rfl, addTo_applySum⟩
  case incm => exact ⟨⟨hs _, hmid⟩, _, rfl, addTo_applySum⟩
  case inc => exact ⟨⟨hs _, hone⟩, _, rfl, addTo_applySum⟩
  case subax => exact ⟨⟨hs _, proper_longACX s _⟩, _, rfl, subFrom_applySum⟩
  case sub => exact ⟨⟨hs _, hs _⟩, _, rfl, subFrom_applySum⟩
  case decm => exact ⟨⟨hs _, hmid⟩, _, rfl, subFrom_applySum⟩
  case dec => exact ⟨⟨hs _, hone⟩, _, rfl, subFrom_applySum⟩
  case neg => exact ⟨⟨hzero, hs _⟩, _, rfl, neg_applySum inst⟩
  case cmp => exact ⟨⟨hs _, hs _⟩, _, rfl, compare_applySum⟩
  case cmpaxh => exact ⟨⟨hs _, proper_mid _⟩, _, rfl, compare_applySum⟩
  case cmpi => exact ⟨⟨hs _, proper_mid _⟩, (toMid fetchInstruction s).state, rfl, compare_applySum⟩
  case cmpis => exact ⟨⟨hs _, proper_shortImmediate inst⟩, _, rfl, compare_applySum⟩

/-! ## Instructions -/

def extension (hw : Hardware H) (inst : Word) (s : Dsp H) : WriteBackLog × Dsp H :=
  if (getOpTemplate inst).extended then (getExtOp inst).exec hw inst s else ([], s)

theorem extension_r (hw : Hardware H) (inst : Word) (s : Dsp H) : (extension hw inst s).2.r = s.r := by
  rw [extension]
  split
  · exact ExtOp.exec_r hw inst _
  · rfl

theorem executeInstruction_state (hw : Hardware H) (inst : Word) (s : Dsp H) : (executeInstruction hw inst s).state =
    applyWriteBackLog (extension hw inst s).1 ((getOp inst).exec hw inst (extension hw inst s).2).state := by
  rw [executeInstruction, extension]
  split <;> rfl

theorem extension_leaves (hw : Hardware H) (inst : Word) (s : Dsp H) : ∃ i, Leaves i (extension hw inst s).1 := by
  rw [extension]
  split
  · by_cases hzero : (field inst 3 3).val + dspRegAXL0 = dspRegACM0 + (0 : Fin 2)
    · refine ⟨1, ExtOp.exec_leaves hw _ ?_⟩
      rintro ⟨-, hone, -⟩
      exact absurd (hzero.symm.trans hone) (by decide)
    · refine ⟨0, ExtOp.exec_leaves hw _ ?_⟩
      rintro ⟨-, hload, -⟩
      exact hzero hload
  · exact ⟨0, .nil⟩

theorem applyWriteBackLog_sr {log : WriteBackLog} {i : Fin 2} (hlog : Leaves i log) :
    (applyWriteBackLog log s).r.sr = s.r.sr := by
  induction log generalizing s with
  | nil => rfl
  | cons e log ih =>
      obtain ⟨he, hrest⟩ := List.forall_mem_cons.mp hlog
      have hstep : (s.opWriteRegister e.2 (Register.ofNat e.1)).r.sr = s.r.sr := by
        cases hreg : Register.ofNat e.1 with
        | sr =>
            rw [hreg] at he
            cases he
        | _ => rfl
      exact (ih hrest).trans hstep

theorem applyWriteBackLog_ac {log : WriteBackLog} {i : Fin 2} (hlog : ∀ e ∈ log, (Register.ofNat e.1).acc ≠ some i) :
    (applyWriteBackLog log s).r.ac i = s.r.ac i := by
  induction log generalizing s with
  | nil => rfl
  | cons e log ih =>
      obtain ⟨he, hrest⟩ := List.forall_mem_cons.mp hlog
      have hstep : (s.opWriteRegister e.2 (Register.ofNat e.1)).r.ac i = s.r.ac i := by
        cases hreg : Register.ofNat e.1 with
        | ach j | acl j | acm j =>
            rw [hreg] at he
            exact Function.update_of_ne (fun heq => he (congrArg some heq.symm)) _ _
        | _ => rfl
      exact (ih hrest).trans hstep

/-- What an instruction leaves of a sum: the flags, and every accumulator that its extension does not write. -/
structure InstructionResult (hw : Hardware H) (inst : Word) (s : Dsp H) (sum : Sum) : Prop where
  handler : s.SumResult sum ((getOp inst).exec hw inst (extension hw inst s).2).state
  flags : (executeInstruction hw inst s).state.r.sr = ((getOp inst).exec hw inst (extension hw inst s).2).state.r.sr
  result : ∀ i, (∀ e ∈ (extension hw inst s).1, (Register.ofNat e.1).acc ≠ some i) →
    (executeInstruction hw inst s).state.r.ac i = ((getOp inst).exec hw inst (extension hw inst s).2).state.r.ac i

/-- Whatever instruction adds, subtracts or compares leaves the exact result in 40 bits and the flags of it. -/
theorem executeInstruction_sum (hw : Hardware H) (hs : s.Extended)
    (hsum : (getOp inst).sum inst (extension hw inst s).2 = some sum) : InstructionResult hw inst s sum := by
  have hr := extension_r hw inst s
  have hstate := executeInstruction_state hw inst s
  obtain ⟨hproper, t, ht, happly⟩ := (getOp inst).exec_applySum hw inst (hs.of_ac (congrArg Regs.ac hr)) hsum
  obtain ⟨i, hleaves⟩ := extension_leaves hw inst s
  refine ⟨?_, ?_, fun j hj => ?_⟩
  · rw [happly]
    exact applySum_result hproper (ht.trans hr)
  · rw [hstate]
    exact applyWriteBackLog_sr hleaves
  · rw [hstate]
    exact applyWriteBackLog_ac hj

/-- `ADD $ac0` of the largest number and one. -/
theorem executeInstruction_sum_add :
    InstructionResult noHardware 0x4c00
      { mem := largeProduct, r := { ac := fun i => if i = 0 then ⟨0xffff, 0xffff, 0x7f⟩ else ⟨1, 0, 0⟩ } }
      ⟨some 0, 2 ^ 39 - 1, 1, false⟩ :=
  executeInstruction_sum noHardware (fun i => by revert i; decide) (by decide)

end Interpreter

end Karphin.DSP
