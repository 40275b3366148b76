import Karphin.DSP.Interpreter.Lemmas.Operands
import Karphin.DSP.Interpreter.Theorems.Flags

/-!
# Operands of templates and handlers

The templates name what the handlers touch, but for four instructions whose templates look at other bits.
-/

namespace Karphin.DSP.Interpreter

open Karphin.Lib Traced

variable {H : Type} {hw : Hardware H} {inst op2 : Word}

def Op.agrees (inst : Word) : Op → Bool
  | .clrl | .maddc | .msubc => field inst 8 1 = 1
  | .addpaxz => field inst 9 1 = field inst 8 1
  | _ => true

/-! ## Where the bits differ -/

theorem same_iff_of_touches {α : Type} {x : Exec H α} {named rs : List Operand} (h : Touches x rs) (s : Dsp H) :
    (∀ r, r ∈ named ↔ ∃ s, r ∈ (x s).touched) ↔ ∀ r, r ∈ named ↔ r ∈ rs :=
  forall_congr' fun _ => iff_congr Iff.rfl (h.exists_iff s).symm

theorem clrl_bit (hcovers : inst &&& 0xfe00 = 0xfc00) : field inst 11 1 = 1 := by
  have hword : inst &&& 0x0800 = 0x0800 := by
    have hmask : (0x0800 : Word) = 0xfe00 &&& 0x0800 := by decide
    rw [hmask, ← BitVec.and_assoc, hcovers]
    decide
  have hfield : (inst &&& 0x0800).toNat >>> 11 = (field inst 11 1).val := field_of_mask (by decide)
  apply Fin.ext
  rw [← hfield, hword]
  rfl

theorem clrl_same (s : Dsp H) (hcovers : inst &&& 0xfe00 = 0xfc00) :
    (∀ r, r ∈ Op.clrl.named inst op2 ↔ ∃ s, r ∈ (Op.clrl.exec hw inst s).touched) ↔ Op.clrl.agrees inst = true := by
  have hnamed : Op.clrl.named inst op2 = [.ac 1] := by
    delta Op.named Op.params
    simp (disch := decide) only [List.flatMap_cons, List.flatMap_nil, operands_accL, clrl_bit hcovers, List.append_nil]
  have htouches : Touches (Op.clrl.exec hw inst) (List.replicate 2 (.ac (field inst 8 1))) := .of_eq fun _ => rfl
  rw [same_iff_of_touches htouches s, hnamed]
  simp only [List.mem_singleton, List.mem_replicate, Op.agrees, decide_eq_true_eq]
  constructor
  · intro h
    cases (h (.ac 1)).mp rfl with
    | intro _ hr =>
      injection hr with hk
      exact hk.symm
  · intro h r
    rw [h]
    simp

theorem addpaxz_same (s : Dsp H) :
    (∀ r, r ∈ Op.addpaxz.named inst op2 ↔ ∃ s, r ∈ (Op.addpaxz.exec hw inst s).touched) ↔
      Op.addpaxz.agrees inst = true := by
  have hnamed : Op.addpaxz.named inst op2 = [.ac (field inst 9 1), .axl (field inst 8 1), .axh (field inst 8 1)] := by
    delta Op.named Op.params
    simp (disch := decide) only [List.flatMap_cons, List.flatMap_nil, operands_acc, operands_ax, List.append_nil,
      List.cons_append, List.nil_append]
  have htouches : Touches (Op.addpaxz.exec hw inst)
      [.axl (field inst 9 1), .axh (field inst 9 1), .ac (field inst 8 1), .ac (field inst 8 1)] := .of_eq fun _ => rfl
  rw [same_iff_of_touches htouches s, hnamed]
  simp only [List.mem_cons, List.not_mem_nil, or_false, Op.agrees, decide_eq_true_eq]
  constructor
  · intro h
    have hac := (h (.ac (field inst 9 1))).mp (.inl rfl)
    simpa using hac
  · intro h r
    rw [h]
    tauto

theorem multiplyAcc_same {op : Op} (s : Dsp H)
    (hnamed : op.named inst op2 = [.ac (field inst 9 1), if field inst 8 1 = 0 then .axl 1 else .axh 1])
    (htouches : Touches (op.exec hw inst) [.ac (field inst 9 1), .axh (field inst 8 1)]) :
    (∀ r, r ∈ op.named inst op2 ↔ ∃ s, r ∈ (op.exec hw inst s).touched) ↔ field inst 8 1 = 1 := by
  rw [same_iff_of_touches htouches s, hnamed]
  simp only [List.mem_cons, List.not_mem_nil, or_false]
  constructor
  · intro h
    have hax := (h (.axh (field inst 8 1))).mpr (.inr rfl)
    by_cases hbit : field inst 8 1 = 0
    · simp [hbit] at hax
    · simpa [hbit] using hax
  · intro h r
    rw [h]
    rfl

/-! ## Operands under a condition -/

theorem exists_condition (mem : Memory H) (c : Fin 16) : ∃ s : Dsp H, s.checkCondition c = true := by
  have hsplit : ∀ c : Fin 16, c ∈ [0, 2, 4, 6, 8, 11, 12, 15] ∨ c ∈ [1, 3, 7, 9, 10, 13, 14] ∨ c = 5 := by decide
  have hflag : ∀ sr flag, Dsp.isSRFlagSet { mem, r := { sr } : Dsp H } flag = decide (sr &&& flag ≠ 0) := fun _ _ => rfl
  rcases hsplit c with hc | hc | rfl
  · refine ⟨{ mem, r := { sr := 0 } }, ?_⟩
    simp only [Dsp.checkCondition, hflag]
    revert c
    decide
  · refine ⟨{ mem, r := { sr := srOverflow ||| srCarry ||| srOverS32 ||| srLogicZero } }, ?_⟩
    simp only [Dsp.checkCondition, hflag]
    revert c
    decide
  · refine ⟨{ mem, r := { sr := srArithZero } }, ?_⟩
    simp only [Dsp.checkCondition, hflag]
    decide

theorem named_register {op : Op} (hparams : op.params = [⟨.reg, 1, 0, 5, 0x00e0⟩]) :
    op.named inst op2 = (Register.ofNat (field inst 5 3)).operands := by
  rw [Op.named, hparams]
  simp (disch := decide) only [List.flatMap_cons, List.flatMap_nil, operands_regLow, List.append_nil]

theorem conditional_same {op : Op} (mem : Memory H) (hparams : op.params = [⟨.reg, 1, 0, 5, 0x00e0⟩])
    (z : Word → Exec H Unit) (hz : ∀ a, Touches (z a) [])
    (hexec : op.exec hw inst = do
      if ← checkCondition (field inst 0 4) then z (← opReadRegister (field inst 5 3))) :
    ∀ r, r ∈ op.named inst op2 ↔ ∃ s, r ∈ (op.exec hw inst s).touched := by
  intro r
  have htouches := (touches_opReadRegister (H := H) (field inst 5 3)).bind hz
  rw [named_register hparams, hexec]
  constructor
  · intro hr
    obtain ⟨s, hs⟩ := exists_condition mem (field inst 0 4)
    refine ⟨s, ?_⟩
    simp only [bind_touched, DSP.checkCondition, read_touched, read_value, read_state, hs, if_true, List.nil_append]
    exact (htouches s r).mpr (List.mem_append_left _ hr)
  · rintro ⟨s, hr⟩
    by_cases hs : s.checkCondition (field inst 0 4) = true
    · simp only [bind_touched, DSP.checkCondition, read_touched, read_value, read_state, hs, if_true,
        List.nil_append] at hr
      exact (List.append_nil (Register.operands _)) ▸ (htouches s r).mp hr
    · simp only [bind_touched, DSP.checkCondition, read_touched, read_value, read_state, hs, Bool.false_eq_true, if_false,
        List.nil_append] at hr
      cases hr

/-! ## Operands of a handler -/

theorem Op.operands_same (hw : Hardware H) (mem : Memory H) (op : Op) (hcovers : op = .clrl → inst &&& 0xfe00 = 0xfc00)
    (hnamed : op.named inst op2 ≠ []) :
    (∀ r, r ∈ op.named inst op2 ↔ ∃ s, r ∈ (op.exec hw inst s).touched) ↔ op.agrees inst = true := by
  have s : Dsp H := Dsp.initialState mem
  by_cases hplain : op.plain = true
  · have htouches := op.touches_named hw inst op2 hplain hnamed
    have hagrees : op.agrees inst = true := by
      cases op <;> first | rfl | cases hplain
    exact iff_of_true (fun r => htouches.exists_iff s) hagrees
  · cases op <;> try exact absurd rfl hplain
    case clrl => exact clrl_same s (hcovers rfl)
    case addpaxz => exact addpaxz_same s
    case maddc | msubc =>
      rw [agrees, decide_eq_true_eq]
      apply multiplyAcc_same s _ (.of_eq fun _ => rfl)
      delta named params
      simp (disch := decide) only [List.flatMap_cons, List.flatMap_nil, operands_accM, operands_reg19, List.append_nil,
        List.cons_append, List.nil_append]
    case jmprcc => exact iff_of_true (conditional_same mem rfl setPC (fun _ => .of_eq fun _ => rfl) rfl) rfl
    case callr =>
      let z (addr : Word) : Exec H Unit := do
        storeStack 0 (← getPC)
        setPC addr
      exact iff_of_true (conditional_same mem rfl z (fun _ => .of_eq fun _ => rfl) rfl) rfl

/-! ## Destinations -/

def Op.destination (op1 op2 : Word) (op : Op) : Option (Fin 2) :=
  (destinationParam op.params).bind fun p => (p.operands op1 op2).findSome? Operand.acc

theorem findSome?_operands (reg : Register) : reg.operands.findSome? Operand.acc = reg.acc := by
  cases reg <;> rfl

theorem Op.destination_of_written {d : Fin 2} (op : Op) (hagrees : op.agrees inst = true)
    (hcovers : op = .clrl → inst &&& 0xfe00 = 0xfc00) (hnamed : op.named inst op2 ≠ [])
    (hwritten : op.written inst = some d) : op.destination inst op2 = some d := by
  cases op <;> delta written at hwritten <;> simp only [reduceCtorEq, Option.some.injEq] at hwritten <;>
    delta destination params <;> simp (disch := decide) only [destinationParam, Option.bind_some, operands_acc,
      operands_accL, operands_accM, operands_reg18Load, operands_reg, List.findSome?_cons, Operand.acc, findSome?_operands,
      hwritten]
  case clrl =>
    rw [clrl_bit (hcovers rfl)]
    rw [agrees, decide_eq_true_eq] at hagrees
    rw [← hwritten, hagrees]
  case addpaxz =>
    rw [agrees, decide_eq_true_eq] at hagrees
    rw [hagrees, hwritten]
  all_goals exact absurd rfl hnamed

/-! ## Main result -/

set_option maxRecDepth 4000 in
theorem clrl_template : ∀ t ∈ DSP.sOpcodes, getOp t.opcode = .clrl → t.opcodeMask = 0xfe00 ∧ t.opcode = 0xfc00 := by
  decide

end Karphin.DSP.Interpreter
