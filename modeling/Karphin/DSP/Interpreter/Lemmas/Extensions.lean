import Karphin.DSP.Interpreter.Lemmas.Writes

/-!
# Accumulators stay extended

Whatever is executed, both accumulators are extended from 40 bits after it when they were before it, and an instruction
changes no accumulator but the one that it writes.
-/

namespace Karphin.DSP

open Karphin.Lib

variable {H : Type} {s : Dsp H} {i d : Fin 2} {ac : Fin 2 → Acc}

theorem Acc.proper_of_high {acc : Acc} (h : acc.h = 0xFFFFFFFF ∨ acc.h = 0) :
    isProperlySignExtended acc.val = true := by
  rw [Acc.proper_iff]
  rcases h with h | h
  · rw [h]
    decide
  · rw [h]
    decide

theorem extended_update (h : ∀ i, isProperlySignExtended (ac i).val = true) {acc : Acc}
    (hacc : isProperlySignExtended acc.val = true) (i : Fin 2) :
    isProperlySignExtended (Function.update ac d acc i).val = true := by
  by_cases hi : i = d
  · subst hi
    rwa [Function.update_self]
  · rw [Function.update_of_ne hi]
    exact h i

theorem extended_update_low (h : ∀ i, isProperlySignExtended (ac i).val = true) (l m : Word) (i : Fin 2) :
    isProperlySignExtended (Function.update ac d ⟨l, m, (ac d).h⟩ i).val = true := by
  apply extended_update h
  rw [Acc.proper_iff]
  exact (ac d).proper_iff.mp (h d)

theorem stable_extended (d : Fin 2) : Stable (fun ac => ∀ i, isProperlySignExtended (ac i).val = true) d where
  long value h := by
    apply extended_update h
    have hrange := convert_range value
    rw [Acc.val_ofInt (by omega) (by omega)]
    exact convert_proper value
  low _ h := extended_update_low h _ _
  mid _ h := extended_update_low h _ _
  high val h := by
    apply extended_update h
    have hlow := (val.setWidth 8).le_toInt
    have hhigh := (val.setWidth 8).toInt_lt
    have hext : ((val.setWidth 8).signExtend 32).toInt = (val.setWidth 8).toInt :=
      BitVec.toInt_signExtend_of_le (by decide)
    rw [Acc.proper_iff, hext]
    omega
  extend h := extended_update h (Acc.proper_of_high (ite_eq_or_eq ..))

theorem stable_other {acc : Acc} (hi : i ≠ d) : Stable (fun ac => ac i = acc) d where
  long _ h := (Function.update_of_ne hi ..).trans h
  low _ h := (Function.update_of_ne hi ..).trans h
  mid _ h := (Function.update_of_ne hi ..).trans h
  high _ h := (Function.update_of_ne hi ..).trans h
  extend h := (Function.update_of_ne hi ..).trans h

namespace Dsp

theorem Extended.opWriteRegister (h : s.Extended) (val : Word) (reg : Register) :
    (s.opWriteRegister val reg).Extended :=
  stable_opWriteRegister (fun d _ => stable_extended d) val h

end Dsp

namespace Interpreter

theorem Op.exec_extended (hw : Hardware H) (opc : Word) (op : Op) (h : s.Extended) :
    (op.exec hw opc s).state.Extended :=
  op.keeps hw (fun d _ => stable_extended d) s h

theorem Op.exec_other (hw : Hardware H) {opc : Word} {op : Op} (h : op.written opc ≠ some i) (s : Dsp H) :
    (op.exec hw opc s).state.r.ac i = s.r.ac i := by
  have hstable : ∀ d, op.written opc = some d → Stable (fun ac => ac i = s.r.ac i) d := by
    intro d hd
    apply stable_other
    rintro rfl
    exact h hd
  exact op.keeps hw hstable s rfl

end Interpreter

end Karphin.DSP

/-!
## What extensions do

An extension leaves the registers alone until its writes are applied, and these change no flag, and the high part of an
accumulator only when a load extends it.
-/

namespace Karphin.DSP

variable {H : Type} {s : Dsp H} {i : Fin 2}

/-! ## Registers that carry no sign -/

def Register.leaves (i : Fin 2) : Register → Bool
  | .sr => false
  | .ach j => i ≠ j
  | _ => true

theorem Register.leaves_ofNat {n : Nat} (h : n < 4 ∨ dspRegAXL0 ≤ n ∧ n < 0x20) : (ofNat n).leaves i = true := by
  have hall : ∀ n : Fin 0x20, (n.val < 4 ∨ dspRegAXL0 ≤ n.val) → ∀ i, (ofNat n).leaves i = true := by decide
  have hlt : n < 0x20 := by
    rcases h with h | h
    · omega
    · exact h.2
  exact hall ⟨n, hlt⟩ (h.imp_right And.left) i

theorem Register.leaves_ach {n : Nat} (hlow : dspRegACH0 ≤ n) (hhigh : n < dspRegACH0 + 2) (hother : n ≠ dspRegACH0 + i) :
    (ofNat n).leaves i = true := by
  have hall : ∀ i : Fin 2, ∀ n : Fin 0x20, dspRegACH0 ≤ n.val → n.val < dspRegACH0 + 2 → n.val ≠ dspRegACH0 + i →
      (ofNat n).leaves i = true := by decide
  rw [dspRegACH0] at hhigh
  exact hall i ⟨n, by omega⟩ hlow hhigh hother

namespace Dsp

theorem opReadRegister_acl (n : Fin 4) : (s.opReadRegister (.ofNat (n + dspRegACL0))).2 = s := by
  match n with
  | 0 | 1 | 2 | 3 => rfl

theorem opReadRegister_acm (n : Fin 2) : (s.opReadRegister (.ofNat (n + dspRegACM0))).2 = s := by
  match n with
  | 0 | 1 => rfl

end Dsp

namespace Interpreter
open Dsp

/-! ## Registers during an extension -/

theorem storeExt_r (next : Dsp H → Fin 4 → Word) (hw : Hardware H) (opc : Word) : (storeExt next hw opc s).2.r = s.r := by
  simp only [storeExt, writeDMEM_r]
  exact congrArg Dsp.r (opReadRegister_acl (field opc 3 2))

theorem loadExt_r (next : Dsp H → Fin 4 → Word) (hw : Hardware H) (opc : Word) : (loadExt next hw opc s).2.r = s.r := by
  simp only [loadExt]
  split
  · exact readDMEM_r hw _
  · exact readDMEM_r hw _

theorem loadStoreExt_r (store load : Fin 4) (next3 next0 : Dsp H → Fin 4 → Word) (hw : Hardware H) (opc : Word) :
    (loadStoreExt store load next3 next0 hw opc s).2.r = s.r := by
  simp only [loadStoreExt, readDMEM_r, writeDMEM_r]
  exact congrArg Dsp.r (opReadRegister_acm (field opc 0 1))

theorem loadTwice_r (next next3 : Dsp H → Fin 4 → Word) (hw : Hardware H) (first second : Nat) (sreg : Fin 4) :
    (loadTwice next next3 hw first second sreg s).2.r = s.r := by
  simp only [loadTwice, readDMEM_r]

theorem ExtOp.exec_r (hw : Hardware H) (opc : Word) (op : ExtOp) : (op.exec hw opc s).2.r = s.r := by
  cases op with
  | nopExt | dr | ir | nr => rfl
  | mv => exact congrArg Dsp.r (opReadRegister_acl (field opc 0 2))
  | s | sn => exact storeExt_r ..
  | l | ln => exact loadExt_r ..
  | ls | sl | lsn | sln | lsm | slm | lsnm | slnm => exact loadStoreExt_r ..
  | ld | ldn | ldm | ldnm | ldax | ldaxn | ldaxm | ldaxnm => exact loadTwice_r ..

/-! ## Writes of an extension -/

def extendsAcc (inst : Word) (s : Dsp H) (i : Fin 2) : Bool :=
  (getOpTemplate inst).extended && (getExtOp inst = .l || getExtOp inst = .ln) &&
    (field inst 3 3).val + dspRegAXL0 = dspRegACM0 + i && s.isSRFlagSet sr40ModeBit

def Leaves (i : Fin 2) (log : WriteBackLog) : Prop := ∀ e ∈ log, (Register.ofNat e.1).leaves i = true

theorem Leaves.cons {n : Nat} {val : Word} {log : WriteBackLog} (hn : n < 4 ∨ dspRegAXL0 ≤ n ∧ n < 0x20)
    (h : Leaves i log) : Leaves i ((n, val) :: log) :=
  List.forall_mem_cons.mpr ⟨Register.leaves_ofNat hn, h⟩

theorem Leaves.consHigh {n : Nat} {val : Word} {log : WriteBackLog} (hlow : dspRegACH0 ≤ n)
    (hhigh : n < dspRegACH0 + 2) (hother : n ≠ dspRegACH0 + i) (h : Leaves i log) : Leaves i ((n, val) :: log) :=
  List.forall_mem_cons.mpr ⟨Register.leaves_ach hlow hhigh hother, h⟩

theorem Leaves.nil : Leaves i [] := fun _ he => by cases he

theorem loadExt_leaves (next : Dsp H → Fin 4 → Word) (hw : Hardware H) {opc : Word}
    (h : ¬((field opc 3 3).val + dspRegAXL0 = dspRegACM0 + i ∧ s.isSRFlagSet sr40ModeBit = true)) :
    Leaves i (loadExt next hw opc s).1 := by
  have hload := (field opc 3 3).isLt
  have hreg := (field opc 0 2).isLt
  simp only [loadExt]
  split
  · next hmode =>
    have hdiff : (field opc 3 3).val + dspRegAXL0 ≠ dspRegACM0 + i := fun heq => h ⟨heq, hmode.2⟩
    have hmid := hmode.1
    simp only [dspRegACM0, dspRegAXL0, dspRegACH0, dspRegACL0] at *
    apply Leaves.consHigh _ _ _ (Leaves.cons _ (Leaves.cons _ (Leaves.cons _ Leaves.nil)))
    all_goals simp only [dspRegAXL0, dspRegACH0]
    all_goals omega
  · apply Leaves.cons _ (Leaves.cons _ Leaves.nil)
    all_goals simp only [dspRegAXL0]
    all_goals omega

theorem ExtOp.exec_leaves (hw : Hardware H) {opc : Word} (op : ExtOp)
    (h : ¬((op = .l ∨ op = .ln) ∧ (field opc 3 3).val + dspRegAXL0 = dspRegACM0 + i ∧
      s.isSRFlagSet sr40ModeBit = true)) :
    Leaves i (op.exec hw opc s).1 := by
  have h02 := (field opc 0 2).isLt
  have h22 := (field opc 2 2).isLt
  have h42 := (field opc 4 2).isLt
  have h51 := (field opc 5 1).isLt
  have h41 := (field opc 4 1).isLt
  cases op with
  | nopExt => exact .nil
  | dr | ir | nr => exact .cons (.inl h02) .nil
  | mv => exact .cons (by simp only [dspRegAXL0]; omega) .nil
  | s | sn => exact .cons (.inl h02) .nil
  | l => exact loadExt_leaves _ hw fun hload => h ⟨.inl rfl, hload⟩
  | ln => exact loadExt_leaves _ hw fun hload => h ⟨.inr rfl, hload⟩
  | ls | sl | lsn | sln | lsm | slm | lsnm | slnm =>
      exact .cons (by simp only [dspRegAXL0]; omega) (.cons (by decide) (.cons (by decide) .nil))
  | ld | ldn | ldm | ldnm =>
      exact .cons (by simp only [dspRegAXL0]; omega) (.cons (by simp only [dspRegAXL0, dspRegAXL1]; omega)
        (.cons (.inl h02) (.cons (by decide) .nil)))
  | ldax | ldaxn | ldaxm | ldaxnm =>
      exact .cons (by simp only [dspRegAXL0, dspRegAXH0]; omega) (.cons (by simp only [dspRegAXL0]; omega)
        (.cons (.inl (by simp only [Fin.val_castLE]; omega)) (.cons (by decide) .nil)))

/-! ## The writes applied -/

theorem applyWriteBackLog_extended {log : WriteBackLog} (h : s.Extended) : (applyWriteBackLog log s).Extended := by
  induction log generalizing s with
  | nil => exact h
  | cons e log ih => exact ih (h.opWriteRegister _ _)

theorem executeInstruction_cases (hw : Hardware H) (inst : Word) (s : Dsp H) :
    ∃ s' log, s'.r = s.r ∧ (∀ i, extendsAcc inst s i = false → Leaves i log) ∧
      executeInstruction hw inst s =
        { (getOp inst).exec hw inst s' with state := applyWriteBackLog log ((getOp inst).exec hw inst s').state } := by
  rw [executeInstruction]
  split
  · next hextended =>
    refine ⟨_, _, ExtOp.exec_r hw inst _, ?_, rfl⟩
    intro i hi
    apply ExtOp.exec_leaves
    rintro ⟨hop, hreg, hmode⟩
    rcases hop with hop | hop <;> simp [extendsAcc, hextended, hop, hreg, hmode] at hi
  · exact ⟨s, [], rfl, fun _ _ => .nil, rfl⟩

theorem executeInstruction_extended (hw : Hardware H) (inst : Word) (h : s.Extended) :
    (executeInstruction hw inst s).state.Extended := by
  obtain ⟨s', log, hr, -, heq⟩ := executeInstruction_cases hw inst s
  rw [heq]
  exact applyWriteBackLog_extended ((getOp inst).exec_extended hw inst (h.of_ac (congrArg Regs.ac hr)))

end Interpreter

end Karphin.DSP
