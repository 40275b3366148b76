import Karphin.DSP.Interpreter.Lemmas.Extensions
import Karphin.Lib.Transition

/-!
# Flags of the accumulators

What the assertions of a handler come down to when both accumulators are extended, and whose sign the sign flag tells
after it.
-/

namespace Karphin.DSP

open Karphin.Lib

variable {H : Type} {s : Dsp H} {i : Fin 2} {v : Int}

/-! ## The sign flag -/

theorem setIf_and_other (c : Bool) {flag other : Word} (h : flag &&& other = 0) (sr : Word) :
    setIf c flag sr &&& other = sr &&& other := by
  rw [setIf]
  split
  · rw [BitVec.and_or_distrib_right, h]
    exact BitVec.or_zero
  · rfl

theorem setIf_and_self (c : Bool) (flag sr : Word) : setIf c flag sr &&& flag = if c then flag else sr &&& flag := by
  rw [setIf]
  split
  · ext k hk
    simp only [BitVec.getElem_and, BitVec.getElem_or]
    cases sr[k] <;> cases flag[k] <;> rfl
  · rfl

theorem updateSR64_sign (v : Int) (carry overflow : Bool) (sr : Word) :
    updateSR64 v carry overflow sr &&& srSign = if v < 0 then srSign else 0 := by
  have hclear : sr &&& ~~~srCmpMask &&& srSign = 0 := by
    rw [BitVec.and_assoc]
    exact BitVec.and_zero
  simp only [updateSR64]
  rw [setIf_and_other _ (by decide), setIf_and_other _ (by decide), setIf_and_self, setIf_and_other _ (by decide),
    setIf_and_other _ (by decide), setIf_and_other _ (by decide), setIf_and_other _ (by decide), hclear]
  simp only [decide_eq_true_eq]

namespace Dsp

def SignOf (s : Dsp H) (i : Fin 2) : Prop := s.isSRFlagSet srSign = decide (s.longAcc i < 0)

theorem isSRFlagSet_updateSR64 (s : Dsp H) (v : Int) (carry overflow : Bool) :
    (s.setSR (updateSR64 v carry overflow s.r.sr)).isSRFlagSet srSign = decide (v < 0) := by
  simp only [isSRFlagSet, setSR, updateSR64_sign]
  by_cases hv : v < 0 <;> simp [hv, srSign]

theorem signOf_updateSR64 (carry overflow : Bool) (h : s.longAcc i = v) :
    (s.setSR (updateSR64 v carry overflow s.r.sr)).SignOf i := by
  rw [SignOf, isSRFlagSet_updateSR64, ← h]
  rfl

theorem SignOf.opWriteRegister (h : s.SignOf i) (val : Word) {reg : Register} (hreg : reg.leaves i = true) :
    (s.opWriteRegister val reg).SignOf i := by
  have hpart : ∀ j (acc : Acc), (j = i → acc.h = (s.r.ac i).h) → (s.setAcc j acc).SignOf i := by
    intro j acc hacc
    rw [SignOf] at h ⊢
    simp only [isSRFlagSet, longAcc, setAcc, Acc.neg_iff] at h ⊢
    by_cases hj : i = j
    · subst hj
      rw [Function.update_self, hacc rfl]
      exact h
    · rw [Function.update_of_ne hj]
      exact h
  cases reg with
  | sr => cases hreg
  | ach j =>
      apply hpart
      intro hj
      simp [Register.leaves, hj] at hreg
  | acl j =>
      apply hpart
      rintro rfl
      rfl
  | acm j =>
      apply hpart
      rintro rfl
      rfl
  | _ => exact h

end Dsp

namespace Interpreter
open Dsp Traced

theorem applyWriteBackLog_signOf {log : WriteBackLog} (hlog : Leaves i log) (h : s.SignOf i) :
    (applyWriteBackLog log s).SignOf i := by
  induction log generalizing s with
  | nil => exact h
  | cons e log ih =>
      obtain ⟨he, hrest⟩ := List.forall_mem_cons.mp hlog
      exact ih hrest (h.opWriteRegister _ he)

/-! ## Families -/

variable {x y : Exec H Int}

/-- An operand: no assertion is made, and the registers stay. -/
structure Reading (x : Exec H Int) : Prop where
  holds : ∀ s, (x s).holds = true
  r : ∀ s, (x s).state.r = s.r

theorem reading_axPart (reg : Fin 4) : Reading (toMid (axPart (H := H) reg)) := by
  match reg with
  | 0 | 1 | 2 | 3 => exact ⟨fun _ => rfl, fun _ => rfl⟩

section
attribute [local simp] getLongAcc setLongAcc setLongProduct setSR updateSR64With updateSR64Value updateSR64Add
  updateSR64Sub sameLongAcc_convert convert_proper

theorem addTo_holds (h : Reading x) (hs : s.Extended) : (addTo i x s).holds = isProperlySignExtended (x s).value := by
  simp [addTo, h.holds, hs i]

theorem subFrom_holds (h : Reading x) (hs : s.Extended) :
    (subFrom i x s).holds = isProperlySignExtended (x s).value := by
  simp [subFrom, h.holds, hs i]

theorem compare_holds (h : Reading x) (hs : s.Extended) :
    (Interpreter.compare i x s).holds = isProperlySignExtended (x s).value := by
  simp [Interpreter.compare, h.holds, hs i]

theorem moveTo_holds (h : Reading x) : (moveTo i x s).holds = isProperlySignExtended (x s).value := by
  simp [moveTo, h.holds]

theorem storeTo_holds (h : Reading x) : (storeTo i x s).holds = true := by
  simp [storeTo, h.holds]

theorem multiplyWith_holds (hx : Reading x) (hy : Reading y) : (multiplyWith i x y s).holds = true := by
  simp [multiplyWith, hx.holds, hy.holds]

theorem neg_holds (opc : Word) (hs : s.Extended) : (Interpreter.neg opc s).holds = true := by
  have hzero : isProperlySignExtended 0 = true := by decide
  have hsame := sameLongAcc_convert (0 - s.longAcc (field opc 8 1))
  simp [Interpreter.neg, hs _, hzero] at hsame ⊢

theorem addpaxz_holds (opc : Word) : (addpaxz opc s).holds = true := by
  simp [addpaxz, getLongProduct, getLongProductRounded, getLongACX]

end

theorem addTo_signOf : (addTo i x s).state.SignOf i := signOf_updateSR64 _ _ rfl

theorem subFrom_signOf : (subFrom i x s).state.SignOf i := signOf_updateSR64 _ _ rfl

theorem storeTo_signOf : (storeTo i x s).state.SignOf i := signOf_updateSR64 _ _ rfl

theorem multiplyWith_signOf : (multiplyWith i x y s).state.SignOf i := signOf_updateSR64 _ _ rfl

theorem moveTo_signOf (h : isProperlySignExtended (x s).value = true) : (moveTo i x s).state.SignOf i :=
  signOf_updateSR64 _ _ ((longAcc_setLongAcc ..).trans (convert_eq_self h))

/-! ## Operands -/

theorem proper_mid (word : Word) : isProperlySignExtended (word.toInt * 0x10000) = true := by
  have hlow := word.le_toInt
  have hhigh := word.toInt_lt
  rw [isProperlySignExtended_iff]
  omega

theorem proper_shortImmediate (opc : Word) : isProperlySignExtended (shortImmediate opc) = true := by
  have hlow := (opc.setWidth 8).le_toInt
  have hhigh := (opc.setWidth 8).toInt_lt
  rw [isProperlySignExtended_iff, shortImmediate]
  omega

theorem proper_low (word : Word) : isProperlySignExtended word.toNat = true := by
  have hlt := word.isLt
  rw [isProperlySignExtended_iff]
  omega

theorem proper_longACX (s : Dsp H) (j : Fin 2) : isProperlySignExtended (s.longACX j) = true := by
  have hlow := ((s.r.ax j).h ++ (s.r.ax j).l).le_toInt
  have hhigh := ((s.r.ax j).h ++ (s.r.ax j).l).toInt_lt
  rw [isProperlySignExtended_iff, longACX]
  omega

theorem proper_axPart (reg : Fin 4) : isProperlySignExtended (toMid (axPart reg) s).value = true := proper_mid _

/-! ## Instructions -/

/-- What is handed to the flags fits into 40 bits: the product and the rounded accumulator are not extended before. -/
def Op.fits (opc : Word) (s : Dsp H) : Op → Bool
  | .tstprod | .movp | .addp | .subp => isProperlySignExtended s.longProduct
  | .movnp => isProperlySignExtended (-s.longProduct)
  | .movpz => isProperlySignExtended s.longProductRounded
  | .clrl => isProperlySignExtended (dspRoundLongAcc (s.longAcc (field opc 8 1)))
  | _ => true

theorem Op.fits_congr {s' : Dsp H} (h : s'.r = s.r) (opc : Word) (op : Op) : op.fits opc s' = op.fits opc s := by
  have hproduct : s'.longProduct = s.longProduct := by rw [longProduct, longProduct, h]
  have hrounded : s'.longProductRounded = s.longProductRounded := by
    rw [longProductRounded, longProductRounded, hproduct]
  cases op <;> simp only [fits, hproduct, hrounded, longAcc, h]

def Op.flagged (opc : Word) : Op → Option (Fin 2)
  | .clr | .abs | .asr16 => some (field opc 11 1)
  | .lsrn | .asrn => some 0
  | .addr | .addax | .add | .addp | .addaxl | .addi | .addis | .incm | .inc
  | .subr | .subax | .sub | .subp | .decm | .dec | .neg
  | .movr | .movax | .mov | .movp | .movnp | .movpz | .clrl | .addpaxz
  | .lsl16 | .lsr16 | .lsl | .lsr | .asl | .asr | .lsrnrx | .asrnrx | .lsrnr | .asrnr
  | .mulac | .mulmv | .mulmvz | .mulxac | .mulxmv | .mulxmvz | .mulcac | .mulcmv | .mulcmvz => some (field opc 8 1)
  | _ => none

theorem reading_mulxProduct (sreg treg : Fin 2) : Reading (mulxProduct (H := H) sreg treg) := by
  match sreg, treg with
  | 0, 0 | 0, 1 | 1, 0 | 1, 1 => exact ⟨fun _ => rfl, fun _ => rfl⟩

theorem selectAX_holds (reg part : Fin 2) : (selectAX reg part s).holds = true := by
  match part with
  | 0 | 1 => rfl

theorem ite_holds {c : Bool} {y z : Exec H Unit} (hy : (y s).holds = true) (hz : (z s).holds = true) :
    ((if c then y else z) s).holds = true := by
  split
  · exact hy
  · exact hz

theorem startLoop_holds (cnt loopPC : Word) {skip : Exec H Unit} (h : (skip s).holds = true) :
    (startLoop cnt loopPC skip s).holds = true := by
  rw [startLoop]
  split
  · rfl
  · exact h

theorem Op.holds (hw : Hardware H) (opc : Word) (op : Op) (hs : s.Extended) :
    (op.exec hw opc s).holds = op.fits opc s := by
  cases op with
  | addp => exact addTo_holds ⟨fun _ => rfl, fun _ => rfl⟩ hs
  | subp => exact subFrom_holds ⟨fun _ => rfl, fun _ => rfl⟩ hs
  | movp | movnp | movpz | clrl => exact moveTo_holds ⟨fun _ => rfl, fun _ => rfl⟩
  | tstprod => exact Bool.and_true _
  | tst => exact (Bool.and_true _).trans (hs _)
  | addr => exact (addTo_holds (reading_axPart _) hs).trans (proper_axPart _)
  | subr => exact (subFrom_holds (reading_axPart _) hs).trans (proper_axPart _)
  | movr => exact (moveTo_holds (reading_axPart _)).trans (proper_axPart _)
  | addi => exact (addTo_holds ⟨fun _ => rfl, fun _ => rfl⟩ hs).trans (proper_mid _)
  | addis => exact (addTo_holds ⟨fun _ => rfl, fun _ => rfl⟩ hs).trans (proper_shortImmediate _)
  | addax => exact (addTo_holds ⟨fun _ => rfl, fun _ => rfl⟩ hs).trans (proper_longACX _ _)
  | subax => exact (subFrom_holds ⟨fun _ => rfl, fun _ => rfl⟩ hs).trans (proper_longACX _ _)
  | movax => exact (moveTo_holds ⟨fun _ => rfl, fun _ => rfl⟩).trans (proper_longACX _ _)
  | add => exact (addTo_holds ⟨fun _ => rfl, fun _ => rfl⟩ hs).trans (hs _)
  | sub => exact (subFrom_holds ⟨fun _ => rfl, fun _ => rfl⟩ hs).trans (hs _)
  | mov => exact (moveTo_holds ⟨fun _ => rfl, fun _ => rfl⟩).trans (hs _)
  | addaxl => exact (addTo_holds ⟨fun _ => rfl, fun _ => rfl⟩ hs).trans (proper_low _)
  | inc | incm => exact addTo_holds ⟨fun _ => rfl, fun _ => rfl⟩ hs
  | dec | decm => exact subFrom_holds ⟨fun _ => rfl, fun _ => rfl⟩ hs
  | clr => exact moveTo_holds ⟨fun _ => rfl, fun _ => rfl⟩
  | cmp => exact (compare_holds ⟨fun _ => rfl, fun _ => rfl⟩ hs).trans (hs _)
  | cmpaxh | cmpi => exact (compare_holds ⟨fun _ => rfl, fun _ => rfl⟩ hs).trans (proper_mid _)
  | cmpis => exact (compare_holds ⟨fun _ => rfl, fun _ => rfl⟩ hs).trans (proper_shortImmediate _)
  | neg => exact neg_holds opc hs
  | addpaxz => exact addpaxz_holds opc
  | abs | lsl16 | lsr16 | asr16 | lsl | lsr | asl | asr => exact storeTo_holds ⟨fun _ => rfl, fun _ => rfl⟩
  | lsrn | asrn | lsrnrx | asrnrx | lsrnr | asrnr => exact storeTo_holds ⟨fun _ => rfl, fun _ => rfl⟩
  | mulac | mulmv | mulmvz | mulcac | mulcmv | mulcmvz =>
      exact multiplyWith_holds ⟨fun _ => rfl, fun _ => rfl⟩ ⟨fun _ => rfl, fun _ => rfl⟩
  | mulxac | mulxmv | mulxmvz => exact multiplyWith_holds ⟨fun _ => rfl, fun _ => rfl⟩ (reading_mulxProduct _ _)
  | callr | jmprcc | ret | rti | ifcc => exact ite_holds rfl rfl
  | call | jcc => exact ite_holds rfl rfl
  | loop | loopi | bloop | bloopi => exact startLoop_holds _ _ rfl
  | mulx => exact (Bool.and_true _).trans ((reading_mulxProduct _ _).holds s)
  | maddx | msubx =>
      simp [exec, Interpreter.maddx, Interpreter.msubx, productTo, multiplyAdd, multiplySub, getLongProduct, multiply, setLongProduct,
        selectAX_holds, fits]
  | _ => rfl

theorem Op.signOf (hw : Hardware H) (opc : Word) (op : Op) (hs : s.Extended) (hfits : op.fits opc s = true)
    (hflagged : op.flagged opc = some i) : (op.exec hw opc s).state.SignOf i := by
  rw [← op.holds hw opc hs] at hfits
  cases op <;> delta flagged at hflagged <;> simp only [Option.some.injEq, reduceCtorEq] at hflagged <;> subst hflagged
  case addr | addax | add | addp | addaxl | addi | addis | incm | inc => exact addTo_signOf
  case subr | subax | sub | subp | decm | dec => exact subFrom_signOf
  case neg | addpaxz => exact signOf_updateSR64 _ _ rfl
  case movr => exact moveTo_signOf (proper_axPart _)
  case clr | movax | mov | movp | movnp | movpz | clrl =>
    exact moveTo_signOf ((moveTo_holds ⟨fun _ => rfl, fun _ => rfl⟩).symm.trans hfits)
  case mulac | mulmv | mulmvz | mulxac | mulxmv | mulxmvz | mulcac | mulcmv | mulcmvz => exact multiplyWith_signOf
  all_goals exact storeTo_signOf

end Interpreter

end Karphin.DSP

/-!
# Accumulators and flags over runs

Every accumulator stays extended from 40 bits. The assertions about the flags hold, and the sign flag is the sign of the
accumulator, as long as what the product register or a rounding hands to the flags fits.
-/

namespace Karphin.DSP.Interpreter

open Karphin.Lib Dsp

variable {H : Type}

/-- Instructions are executed; in between, a fetch, an exception, the end of a loop or the host may change anything but the
accumulators. -/
inductive Action (H : Type)
  | execute (inst : Word)
  | between (f : Dsp H → Dsp H)

/-- The assertions of the instruction hold, and the sign flag is that of an accumulator that it wrote and set the flags
from. -/
def flagsMatch (hw : Hardware H) (inst : Word) (s : Dsp H) : Bool :=
  let outcome := executeInstruction hw inst s
  outcome.holds &&
    ((getOp inst).flagged inst).all fun i => outcome.state.isSRFlagSet srSign == decide (outcome.state.longAcc i < 0)

def next (hw : Hardware H) (s : Dsp H × Bool) : Action H → Option (Dsp H × Bool)
  | .execute inst => some ((executeInstruction hw inst s.1).state, s.2 && flagsMatch hw inst s.1)
  | .between f => if ∀ i, (f s.1).r.ac i = s.1.r.ac i then some (f s.1, s.2) else none

def start (mem : Memory H) : Dsp H × Bool := ((initialState mem).reset, true)

def Separate (inst : Word) (s : Dsp H) : Prop :=
  ∀ i, (getOp inst).flagged inst = some i → extendsAcc inst s i = false

def Fits (s : Dsp H × Bool) : Action H → Prop
  | .execute inst => (getOp inst).fits inst s.1 = true ∧ Separate inst s.1
  | .between _ => True

/-! ## One instruction -/

variable {hw : Hardware H} {inst : Word} {s : Dsp H}

theorem executeInstruction_holds (h : s.Extended) :
    (executeInstruction hw inst s).holds = (getOp inst).fits inst s := by
  obtain ⟨s', log, hr, -, heq⟩ := executeInstruction_cases hw inst s
  rw [heq]
  exact ((getOp inst).holds hw inst (h.of_ac (congrArg Regs.ac hr))).trans ((getOp inst).fits_congr hr inst)

theorem executeInstruction_signOf {i : Fin 2} (h : s.Extended) (hfits : (getOp inst).fits inst s = true)
    (hseparate : Separate inst s) (hflagged : (getOp inst).flagged inst = some i) :
    (executeInstruction hw inst s).state.SignOf i := by
  obtain ⟨s', log, hr, hlog, heq⟩ := executeInstruction_cases hw inst s
  rw [heq]
  apply applyWriteBackLog_signOf (hlog i (hseparate i hflagged))
  apply (getOp inst).signOf hw inst (h.of_ac (congrArg Regs.ac hr)) _ hflagged
  rw [(getOp inst).fits_congr hr]
  exact hfits

theorem flagsMatch_iff (h : s.Extended) (hseparate : Separate inst s) :
    flagsMatch hw inst s = true ↔ (getOp inst).fits inst s = true := by
  simp only [flagsMatch, Bool.and_eq_true, executeInstruction_holds h]
  constructor
  · exact And.left
  · intro hfits
    refine ⟨hfits, ?_⟩
    cases hflagged : (getOp inst).flagged inst with
    | none => rfl
    | some i => exact beq_iff_eq.mpr (executeInstruction_signOf h hfits hseparate hflagged)

/-! ## Runs -/

theorem start_extended (mem : Memory H) : (start mem).1.Extended := fun _ =>
  (by decide : isProperlySignExtended ({} : Acc).val = true)

theorem next_extended {s s' : Dsp H × Bool} {a : Action H} (h : s.1.Extended) (hstep : next hw s a = some s') :
    s'.1.Extended := by
  cases a with
  | execute inst =>
      simp only [next, Option.some.injEq] at hstep
      subst hstep
      exact executeInstruction_extended hw inst h
  | between f =>
      obtain ⟨hac, hs'⟩ := Option.ite_none_right_eq_some.mp hstep
      cases hs'
      exact h.of_ac (funext hac)

/-- From a reset on, whatever is executed, the accumulators are extended, and the flags of the next instruction match exactly
when what is handed to them fits; in a run where it always does, they matched in every instruction. -/
theorem flags_match (hw : Hardware H) (mem : Memory H) :
    (∀ s, Reach (next hw) anyStep (start mem) s → s.1.Extended ∧
      ∀ inst, ((executeInstruction hw inst s.1).holds = true ↔ (getOp inst).fits inst s.1 = true) ∧
        (Separate inst s.1 → (flagsMatch hw inst s.1 = true ↔ (getOp inst).fits inst s.1 = true))) ∧
    ∀ s, Reach (next hw) Fits (start mem) s → s.2 = true := by
  constructor
  · intro s hreach
    have hextended : s.1.Extended :=
      Reach.invariant (fun s => s.1.Extended) (start_extended mem) (fun h _ => next_extended h) hreach
    refine ⟨hextended, ?_⟩
    intro inst
    rw [executeInstruction_holds hextended]
    exact ⟨Iff.rfl, flagsMatch_iff hextended⟩
  · intro s hreach
    have hboth : s.1.Extended ∧ s.2 = true := by
      refine Reach.invariant (fun s => s.1.Extended ∧ s.2 = true) ⟨start_extended mem, rfl⟩ ?_ hreach
      intro s a s' h hfits hstep
      refine ⟨next_extended h.1 hstep, ?_⟩
      cases a with
      | execute inst =>
          simp only [next, Option.some.injEq] at hstep
          subst hstep
          rw [h.2, Bool.true_and]
          exact (flagsMatch_iff h.1 hfits.2).mpr hfits.1
      | between f =>
          obtain ⟨-, hs'⟩ := Option.ite_none_right_eq_some.mp hstep
          cases hs'
          exact h.2
    exact hboth.2

/-! ## A product of more than 40 bits -/

/-- `LRI $prod.h, #0x7f`, `LRI $prod.m1, #0xffff`, `LRI $prod.m2, #0xffff`, `MOVP $ac0` -/
def largeProduct : Memory Unit where
  iram _ := 0
  irom address :=
    match address.toNat with
    | 0 => 0x0096 | 1 => 0x007f
    | 2 => 0x0095 | 3 => 0xffff
    | 4 => 0x0097 | 5 => 0xffff
    | 6 => 0x6e00
    | _ => 0
  dram _ := 0
  coef _ := 0
  ifx := ()

def noHardware : Hardware Unit where
  readIFX mem _ := (0, mem)
  writeIFX mem _ _ := mem

def fetch (s : Dsp Unit) : Dsp Unit := { s with pc := s.pc + 1 }

/-- The flags are those of a positive number, and `$ac0` is negative. -/
theorem movp_largeProduct :
    ∃ s, run (next noHardware) (start largeProduct) [.between fetch, .execute 0x0096, .between fetch, .execute 0x0095,
        .between fetch, .execute 0x0097, .between fetch, .execute 0x6e00] = some s ∧
      (start largeProduct).1.readIMEM 0x8000 = 0x0096 ∧ s.2 = false ∧ s.1.isSRFlagSet srSign = false ∧ s.1.longAcc 0 < 0 :=
  ⟨_, rfl, by decide, by decide, by decide, by decide⟩

end Karphin.DSP.Interpreter
