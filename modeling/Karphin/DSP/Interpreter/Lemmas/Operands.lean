import Karphin.Lib.MaskedTable
import Karphin.DSP.Interpreter.Lemmas.Writes

/-!
# Operands of instructions

Which accumulators, secondary accumulators and address registers the template of an instruction names, and which of the
accumulators is its destination.
-/

namespace Karphin.DSP

def namedRegister : Nat → List Operand
  | 0x20 => [.ac 0]
  | 0x21 => [.ac 1]
  | 0x22 => [.axl 0, .axh 0]
  | 0x23 => [.axl 1, .axh 1]
  | n => (Register.ofNat n).operands

def Param.operands (p : Param) (op1 op2 : Word) : List Operand :=
  if (p.decode op1 op2).1 &&& pReg ≠ 0 then namedRegister (p.decode op1 op2).2 else []

def OpcTemplate.operands (t : OpcTemplate) (op1 op2 : Word) : List Operand := t.params.flatMap (·.operands op1 op2)

def Operand.acc : Operand → Option (Fin 2)
  | .ac i => some i
  | _ => none

/-- The destination comes first; behind the operands of a multiplication, it comes third. -/
def destinationParam : List Param → Option Param
  | [_, _, p] => some p
  | p :: _ => some p
  | [] => none

def OpcTemplate.destination (t : OpcTemplate) (op1 op2 : Word) : Option (Fin 2) :=
  (destinationParam t.params).bind fun p => (p.operands op1 op2).findSome? Operand.acc

open Interpreter

/-! ## Parameters as fields -/

variable {op1 op2 mask : Word} {shift size : Nat}

theorem field_of_mask {width : Nat} (h : mask.toNat >>> shift = 2 ^ width - 1) :
    (op1 &&& mask).toNat >>> shift = (field op1 shift width).val := by
  rw [BitVec.toNat_and, Nat.shiftRight_and_distrib, h, Nat.and_two_pow_sub_one_eq_mod]
  rfl

theorem field_of_double_mask (h : mask.toNat >>> shift = 2) :
    (op1 &&& mask).toNat >>> shift = (field op1 (shift + 1) 1).val * 2 := by
  have hbit : ∀ n : Nat, n &&& 2 = n >>> 1 % 2 * 2 := fun n => by
    rw [Nat.shiftRight_eq_div_pow, ← Nat.toNat_testBit]
    exact Nat.and_two_pow n 1
  rw [BitVec.toNat_and, Nat.shiftRight_and_distrib, h, hbit, ← Nat.shiftRight_add]
  rfl

def ParType.named (type : ParType) (val : Nat) : List Operand :=
  if (type.decode val).1 &&& pReg ≠ 0 then namedRegister (type.decode val).2 else []

section
variable {type : ParType} {width : Nat}

theorem operands_of_field {f : Fin (2 ^ width) → List Operand} (hmask : mask.toNat >>> shift = 2 ^ width - 1)
    (hf : ∀ k, type.named k.val = f k) :
    Param.operands ⟨type, size, 0, shift, mask⟩ op1 op2 = f (field op1 shift width) := by
  rw [← hf, ← field_of_mask hmask]
  rfl

theorem operands_of_double_field {f : Fin 2 → List Operand} (hmask : mask.toNat >>> shift = 2)
    (hf : ∀ k : Fin 2, type.named (k.val * 2) = f k) :
    Param.operands ⟨type, size, 0, shift, mask⟩ op1 op2 = f (field op1 (shift + 1) 1) := by
  have hk := hf (field op1 (shift + 1) 1)
  rw [← hk, ← field_of_double_mask hmask]
  rfl

end

theorem operands_plain {type : ParType} {loc : Nat} (hkind : type.toNat &&& 0xff ≠ 0x10) (hreg : type.toNat &&& pReg = 0) :
    Param.operands ⟨type, size, loc, shift, mask⟩ op1 op2 = [] := by
  simp only [Param.operands, Param.decode, ParType.decode, hkind, hreg, if_false, ne_eq, not_true_eq_false]

/-! ## One bit -/

theorem operands_acc (h : mask.toNat >>> shift = 1) :
    Param.operands ⟨.acc, size, 0, shift, mask⟩ op1 op2 = [.ac (field op1 shift 1)] :=
  @operands_of_field _ _ _ _ _ _ 1 (fun k => [.ac k]) h (by decide)

theorem operands_accL (h : mask.toNat >>> shift = 1) :
    Param.operands ⟨.accL, size, 0, shift, mask⟩ op1 op2 = [.ac (field op1 shift 1)] :=
  @operands_of_field _ _ _ _ _ _ 1 (fun k => [.ac k]) h (by decide)

theorem operands_accM (h : mask.toNat >>> shift = 1) :
    Param.operands ⟨.accM, size, 0, shift, mask⟩ op1 op2 = [.ac (field op1 shift 1)] :=
  @operands_of_field _ _ _ _ _ _ 1 (fun k => [.ac k]) h (by decide)

theorem operands_accH (h : mask.toNat >>> shift = 1) :
    Param.operands ⟨.accH, size, 0, shift, mask⟩ op1 op2 = [.ac (field op1 shift 1)] :=
  @operands_of_field _ _ _ _ _ _ 1 (fun k => [.ac k]) h (by decide)

theorem operands_accD (h : mask.toNat >>> shift = 1) :
    Param.operands ⟨.accD, size, 0, shift, mask⟩ op1 op2 = [.ac (opposite (field op1 shift 1))] :=
  @operands_of_field _ _ _ _ _ _ 1 (fun k => [.ac (opposite k)]) h (by decide)

theorem operands_accMD (h : mask.toNat >>> shift = 1) :
    Param.operands ⟨.accMD, size, 0, shift, mask⟩ op1 op2 = [.ac (opposite (field op1 shift 1))] :=
  @operands_of_field _ _ _ _ _ _ 1 (fun k => [.ac (opposite k)]) h (by decide)

theorem operands_ax (h : mask.toNat >>> shift = 1) :
    Param.operands ⟨.ax, size, 0, shift, mask⟩ op1 op2 = [.axl (field op1 shift 1), .axh (field op1 shift 1)] :=
  @operands_of_field _ _ _ _ _ _ 1 (fun k => [.axl k, .axh k]) h (by decide)

theorem operands_reg18 (h : mask.toNat >>> shift = 1) :
    Param.operands ⟨.reg18, size, 0, shift, mask⟩ op1 op2 = [.axl (field op1 shift 1)] :=
  @operands_of_field _ _ _ _ _ _ 1 (fun k => [.axl k]) h (by decide)

theorem operands_reg1A (h : mask.toNat >>> shift = 1) :
    Param.operands ⟨.reg1A, size, 0, shift, mask⟩ op1 op2 = [.axh (field op1 shift 1)] :=
  @operands_of_field _ _ _ _ _ _ 1 (fun k => [.axh k]) h (by decide)

/-! ## One bit above a clear one -/

theorem operands_regM18 (h : mask.toNat >>> shift = 2) :
    Param.operands ⟨.regM18, size, 0, shift, mask⟩ op1 op2 = [if field op1 (shift + 1) 1 = 0 then .axl 0 else .axh 0] :=
  @operands_of_double_field _ _ _ _ _ _ (fun k => [if k = 0 then .axl 0 else .axh 0]) h (by decide)

theorem operands_regM19 (h : mask.toNat >>> shift = 2) :
    Param.operands ⟨.regM19, size, 0, shift, mask⟩ op1 op2 = [if field op1 (shift + 1) 1 = 0 then .axl 1 else .axh 1] :=
  @operands_of_double_field _ _ _ _ _ _ (fun k => [if k = 0 then .axl 1 else .axh 1]) h (by decide)

theorem operands_reg19 (h : mask.toNat >>> shift = 2) :
    Param.operands ⟨.reg19, size, 0, shift, mask⟩ op1 op2 = [if field op1 (shift + 1) 1 = 0 then .axl 1 else .axh 1] :=
  @operands_of_double_field _ _ _ _ _ _ (fun k => [if k = 0 then .axl 1 else .axh 1]) h (by decide)

/-! ## Wider fields -/

theorem operands_ar (h : mask.toNat >>> shift = 2 ^ 2 - 1) :
    Param.operands ⟨.reg, size, 0, shift, mask⟩ op1 op2 = [.ar (field op1 shift 2)] :=
  @operands_of_field _ _ _ _ _ _ 2 (fun k => [.ar k]) h (by decide)

theorem operands_prg (h : mask.toNat >>> shift = 2 ^ 2 - 1) :
    Param.operands ⟨.prg, size, 0, shift, mask⟩ op1 op2 = [.ar (field op1 shift 2)] :=
  @operands_of_field _ _ _ _ _ _ 2 (fun k => [.ar k]) h (by decide)

theorem operands_reg04 (h : mask.toNat >>> shift = 2 ^ 2 - 1) :
    Param.operands ⟨.reg04, size, 0, shift, mask⟩ op1 op2 = [] :=
  @operands_of_field _ _ _ _ _ _ 2 (fun _ => []) h (by decide)

theorem operands_axPart (h : mask.toNat >>> shift = 2 ^ 2 - 1) :
    Param.operands ⟨.reg18, size, 0, shift, mask⟩ op1 op2 = (Register.ofNat ((field op1 shift 2) + dspRegAXL0)).operands :=
  @operands_of_field _ _ _ _ _ _ 2 (fun k => (Register.ofNat (k + dspRegAXL0)).operands) h (by decide)

theorem operands_reg1C (h : mask.toNat >>> shift = 2 ^ 2 - 1) :
    Param.operands ⟨.reg1C, size, 0, shift, mask⟩ op1 op2 = (Register.ofNat ((field op1 shift 2) + dspRegACL0)).operands :=
  @operands_of_field _ _ _ _ _ _ 2 (fun k => (Register.ofNat (k + dspRegACL0)).operands) h (by decide)

theorem operands_reg18Load (h : mask.toNat >>> shift = 2 ^ 3 - 1) :
    Param.operands ⟨.reg18, size, 0, shift, mask⟩ op1 op2 = (Register.ofNat ((field op1 shift 3) + dspRegAXL0)).operands :=
  @operands_of_field _ _ _ _ _ _ 3 (fun k => (Register.ofNat (k + dspRegAXL0)).operands) h (by decide)

theorem operands_regLow (h : mask.toNat >>> shift = 2 ^ 3 - 1) :
    Param.operands ⟨.reg, size, 0, shift, mask⟩ op1 op2 = (Register.ofNat (field op1 shift 3)).operands :=
  @operands_of_field _ _ _ _ _ _ 3 (fun k => (Register.ofNat k).operands) h (by decide)

theorem operands_reg (h : mask.toNat >>> shift = 2 ^ 5 - 1) :
    Param.operands ⟨.reg, size, 0, shift, mask⟩ op1 op2 = (Register.ofNat (field op1 shift 5)).operands :=
  @operands_of_field _ _ _ _ _ _ 5 (fun k => (Register.ofNat k).operands) h (by decide)

end Karphin.DSP

/-!
# The two tables

Every template of the assembler's table lies within one entry of the interpreter's table, so that one handler executes all
words of a template.
-/

namespace Karphin.DSP

open Karphin.Lib

def OpcTemplate.pattern (t : OpcTemplate) : BitPattern 16 := ⟨t.opcode, t.opcodeMask⟩

namespace Interpreter

def InterpreterOpInfo.pattern {F : Type} (info : InterpreterOpInfo F) : BitPattern 16 := ⟨info.opcode, info.opcodeMask⟩

theorem sOpcodes_apart : sOpcodes.Pairwise fun a b => a.pattern.apart b.pattern = true := by
  decide +kernel

theorem templates_refine : ∀ t ∈ DSP.sOpcodes, (sOpcodes.any fun info => t.pattern.refines info.pattern) = true := by
  decide +kernel

set_option maxRecDepth 4000 in
theorem templates_covers : ∀ t ∈ DSP.sOpcodes, t.opcode &&& t.opcodeMask = t.opcode := by decide

theorem getOp_of_covers {info : InterpreterOpInfo Op} {inst : Word} (hmem : info ∈ sOpcodes)
    (hcovers : info.pattern.covers inst = true) : getOp inst = info.function := by
  have hfind := BitPattern.find?_of_covers sOpcodes_apart hmem hcovers
  exact congrArg (fun found : Option (InterpreterOpInfo Op) => (found.map (·.function)).getD .nop) hfind

theorem getOp_of_template {t : OpcTemplate} {inst : Word} (ht : t ∈ DSP.sOpcodes) (hcovers : t.covers inst = true) :
    getOp inst = getOp t.opcode := by
  obtain ⟨info, hmem, hrefines⟩ := List.any_eq_true.mp (templates_refine t ht)
  have hself : t.pattern.covers t.opcode = true := BitPattern.covers_bits (templates_covers t ht)
  rw [getOp_of_covers hmem (BitPattern.covers_of_refines hrefines hcovers),
    getOp_of_covers hmem (BitPattern.covers_of_refines hrefines hself)]

end Interpreter

end Karphin.DSP

/-!
## Operands of handlers

The parameters of the templates by handler, and which registers a handler touches.
-/

namespace Karphin.DSP.Interpreter

open Karphin.Lib

variable {H : Type} {s : Dsp H}

/-! ## Parameters by handler -/

def Op.params : Op → List Param
  | .dar | .iar | .subarn => [⟨.reg, 1, 0, 0, 0x0003⟩]
  | .addarn => [⟨.reg, 1, 0, 0, 0x0003⟩, ⟨.reg04, 1, 0, 2, 0x000c⟩]
  | .call | .jcc => [⟨.addrI, 2, 1, 0, 0xffff⟩]
  | .jmprcc | .callr => [⟨.reg, 1, 0, 5, 0x00e0⟩]
  | .sbclr | .sbset => [⟨.imm, 1, 0, 0, 0x0007⟩]
  | .lri => [⟨.reg, 1, 0, 0, 0x001f⟩, ⟨.imm, 2, 1, 0, 0xffff⟩]
  | .lr => [⟨.reg, 1, 0, 0, 0x001f⟩, ⟨.mem, 2, 1, 0, 0xffff⟩]
  | .sr => [⟨.mem, 2, 1, 0, 0xffff⟩, ⟨.reg, 1, 0, 0, 0x001f⟩]
  | .mrr => [⟨.reg, 1, 0, 5, 0x03e0⟩, ⟨.reg, 1, 0, 0, 0x001f⟩]
  | .si => [⟨.mem, 1, 0, 0, 0x00ff⟩, ⟨.imm, 2, 1, 0, 0xffff⟩]
  | .lris => [⟨.reg18, 1, 0, 8, 0x0700⟩, ⟨.imm, 1, 0, 0, 0x00ff⟩]
  | .lrs => [⟨.reg18, 1, 0, 8, 0x0700⟩, ⟨.mem, 1, 0, 0, 0x00ff⟩]
  | .srsh => [⟨.mem, 1, 0, 0, 0x00ff⟩, ⟨.accH, 1, 0, 8, 0x0100⟩]
  | .srs => [⟨.mem, 1, 0, 0, 0x00ff⟩, ⟨.reg1C, 1, 0, 8, 0x0300⟩]
  | .loop => [⟨.reg, 1, 0, 0, 0x001f⟩]
  | .bloop => [⟨.reg, 1, 0, 0, 0x001f⟩, ⟨.addrI, 2, 1, 0, 0xffff⟩]
  | .loopi => [⟨.imm, 1, 0, 0, 0x00ff⟩]
  | .bloopi => [⟨.imm, 1, 0, 0, 0x00ff⟩, ⟨.addrI, 2, 1, 0, 0xffff⟩]
  | .ilrr | .ilrrd | .ilrri | .ilrrn => [⟨.accM, 1, 0, 8, 0x0100⟩, ⟨.prg, 1, 0, 0, 0x0003⟩]
  | .lrr | .lrrd | .lrri | .lrrn => [⟨.reg, 1, 0, 0, 0x001f⟩, ⟨.prg, 1, 0, 5, 0x0060⟩]
  | .srr | .srrd | .srri | .srrn => [⟨.prg, 1, 0, 5, 0x0060⟩, ⟨.reg, 1, 0, 0, 0x001f⟩]
  | .lsl | .lsr | .asl | .asr => [⟨.acc, 1, 0, 8, 0x0100⟩, ⟨.imm, 1, 0, 0, 0x003f⟩]
  | .addis | .cmpis => [⟨.accM, 1, 0, 8, 0x0100⟩, ⟨.imm, 1, 0, 0, 0x00ff⟩]
  | .addi | .xori | .andi | .ori | .cmpi | .andf | .andcf => [⟨.accM, 1, 0, 8, 0x0100⟩, ⟨.imm, 2, 1, 0, 0xffff⟩]
  | .addp | .subp | .movp | .inc | .dec | .neg | .movnp | .lsl16 | .lsr16 | .movpz => [⟨.acc, 1, 0, 8, 0x0100⟩]
  | .notc | .incm | .decm => [⟨.accM, 1, 0, 8, 0x0100⟩]
  | .clr | .asr16 | .abs | .tst => [⟨.acc, 1, 0, 11, 0x0800⟩]
  | .clrl => [⟨.accL, 1, 0, 11, 0x0800⟩]
  | .tstaxh => [⟨.reg1A, 1, 0, 8, 0x0100⟩]
  | .xorr | .andr | .orr => [⟨.accM, 1, 0, 8, 0x0100⟩, ⟨.reg1A, 1, 0, 9, 0x0200⟩]
  | .andc | .orc | .xorc => [⟨.accM, 1, 0, 8, 0x0100⟩, ⟨.accMD, 1, 0, 8, 0x0100⟩]
  | .lsrnrx | .asrnrx => [⟨.acc, 1, 0, 8, 0x0100⟩, ⟨.reg1A, 1, 0, 9, 0x0200⟩]
  | .lsrnr | .asrnr => [⟨.acc, 1, 0, 8, 0x0100⟩, ⟨.accMD, 1, 0, 8, 0x0100⟩]
  | .addr | .subr | .movr => [⟨.acc, 1, 0, 8, 0x0100⟩, ⟨.reg18, 1, 0, 9, 0x0600⟩]
  | .addax | .subax | .movax => [⟨.acc, 1, 0, 8, 0x0100⟩, ⟨.ax, 1, 0, 9, 0x0200⟩]
  | .add | .sub | .mov => [⟨.acc, 1, 0, 8, 0x0100⟩, ⟨.accD, 1, 0, 8, 0x0100⟩]
  | .addaxl => [⟨.acc, 1, 0, 8, 0x0100⟩, ⟨.reg18, 1, 0, 9, 0x0200⟩]
  | .addpaxz => [⟨.acc, 1, 0, 9, 0x0200⟩, ⟨.ax, 1, 0, 8, 0x0100⟩]
  | .cmpaxh => [⟨.acc, 1, 0, 11, 0x0800⟩, ⟨.reg1A, 1, 0, 12, 0x1000⟩]
  | .mul => [⟨.reg18, 1, 0, 11, 0x0800⟩, ⟨.reg1A, 1, 0, 11, 0x0800⟩]
  | .mulmvz | .mulac | .mulmv =>
      [⟨.reg18, 1, 0, 11, 0x0800⟩, ⟨.reg1A, 1, 0, 11, 0x0800⟩, ⟨.acc, 1, 0, 8, 0x0100⟩]
  | .mulx => [⟨.regM18, 1, 0, 11, 0x1000⟩, ⟨.regM19, 1, 0, 10, 0x0800⟩]
  | .mulxmvz | .mulxac | .mulxmv =>
      [⟨.regM18, 1, 0, 11, 0x1000⟩, ⟨.regM19, 1, 0, 10, 0x0800⟩, ⟨.acc, 1, 0, 8, 0x0100⟩]
  | .mulc => [⟨.accM, 1, 0, 12, 0x1000⟩, ⟨.reg1A, 1, 0, 11, 0x0800⟩]
  | .mulcmvz | .mulcac | .mulcmv =>
      [⟨.accM, 1, 0, 12, 0x1000⟩, ⟨.reg1A, 1, 0, 11, 0x0800⟩, ⟨.acc, 1, 0, 8, 0x0100⟩]
  | .maddx | .msubx => [⟨.regM18, 1, 0, 8, 0x0200⟩, ⟨.regM19, 1, 0, 7, 0x0100⟩]
  | .maddc | .msubc => [⟨.accM, 1, 0, 9, 0x0200⟩, ⟨.reg19, 1, 0, 7, 0x0100⟩]
  | .madd | .msub => [⟨.reg18, 1, 0, 8, 0x0100⟩, ⟨.reg1A, 1, 0, 8, 0x0100⟩]
  | _ => []

theorem params_of_template : ∀ t ∈ DSP.sOpcodes, t.params = (getOp t.opcode).params := by
  decide +kernel

def Op.named (op1 op2 : Word) (op : Op) : List Operand := op.params.flatMap (·.operands op1 op2)

/-! ## What a family touches -/

section
open Traced

variable {x y : Exec H Int} {d : Fin 2} {rs rs' : List Operand}

theorem touches_mid {x : Exec H Word} (h : Touches x rs) : Touches (toMid x) rs := by
  intro s r
  rw [toMid, bind_touched, pure_touched, List.append_nil]
  exact h s r

theorem touches_axPart (reg : Fin 4) :
    Touches (axPart (H := H) reg) (Register.ofNat (reg + dspRegAXL0)).operands := by
  match reg with
  | 0 | 1 | 2 | 3 => exact .of_eq fun _ => rfl

theorem touches_selectAX (reg part : Fin 2) :
    Touches (selectAX (H := H) reg part) [if part = 0 then .axl reg else .axh reg] := by
  match part with
  | 0 | 1 => exact .of_eq fun _ => rfl

theorem touches_between {α : Type} {x : Exec H α} {z : Exec H Unit} {n : Nat} (h : Touches x rs)
    (hz : ∀ s, (z s).touched = .ac d :: ((x s).touched ++ List.replicate n (.ac d))) : Touches z (.ac d :: rs) := by
  intro s r
  rw [hz]
  simp only [List.mem_cons, List.mem_append, List.mem_replicate, h s r]
  tauto

theorem touches_before {z : Exec H Unit} {n : Nat} (h : Touches x rs)
    (hz : ∀ s, (z s).touched = (x s).touched ++ List.replicate (n + 1) (.ac d)) : Touches z (.ac d :: rs) := by
  intro s r
  rw [hz]
  simp only [List.mem_cons, List.mem_append, List.mem_replicate, h s r]
  tauto

theorem touches_addTo (h : Touches x rs) : Touches (addTo d x) (.ac d :: rs) := @touches_between _ _ _ _ _ _ 2 h fun _ => rfl

theorem touches_subFrom (h : Touches x rs) : Touches (subFrom d x) (.ac d :: rs) :=
  @touches_between _ _ _ _ _ _ 2 h fun _ => rfl

theorem touches_compare (h : Touches x rs) : Touches (Interpreter.compare d x) (.ac d :: rs) :=
  @touches_between _ _ _ _ _ _ 0 h fun _ => rfl

theorem touches_moveTo (h : Touches x rs) : Touches (moveTo d x) (.ac d :: rs) :=
  @touches_before _ _ _ _ _ 0 h fun _ => rfl

theorem touches_storeTo (h : Touches x (rs ++ [.ac d])) : Touches (storeTo d x) (.ac d :: rs) := by
  have htouches : Touches (storeTo d x) (.ac d :: (rs ++ [.ac d])) := @touches_before _ _ _ _ _ 1 h fun _ => rfl
  apply htouches.congr
  intro r
  simp only [List.mem_cons, List.mem_append, List.not_mem_nil]
  tauto

theorem touches_logicMid {x : Exec H Word} (f : Word → Word → Word) (h : Touches x rs) :
    Touches (logicMid d f x) (.ac d :: rs) :=
  @touches_between _ _ _ _ _ _ 2 h fun _ => rfl

theorem touches_neg (opc : Word) : Touches (Interpreter.neg (H := H) opc) [.ac (field opc 8 1)] := by
  have hall : ∀ s, (Interpreter.neg (H := H) opc s).touched = List.replicate 3 (.ac (field opc 8 1)) := fun _ => rfl
  intro s r
  rw [hall]
  simp

theorem touches_productTo (h : Touches x rs) : Touches (productTo x) rs := by
  have hall : ∀ s, (productTo x s).touched = (x s).touched ++ [] := fun _ => rfl
  intro s r
  rw [hall, List.append_nil]
  exact h s r

theorem touches_multiplyWith {a b : Operand} (hx : Touches x rs) (hrs : ∀ r ∈ rs, r = .ac d) (hy : Touches y [a, b]) :
    Touches (multiplyWith d x y) [a, b, .ac d] := by
  have hall : ∀ s, (multiplyWith d x y s).touched = (x s).touched ++ ((y (x s).state).touched ++ [.ac d, .ac d]) :=
    fun _ => rfl
  intro s r
  rw [hall]
  simp only [List.mem_append, List.mem_cons, hx s r, hy _ r, List.not_mem_nil, or_false]
  constructor
  · rintro (hr | (hr | hr) | hr | hr)
    · exact .inr (.inr (hrs r hr))
    · exact .inl hr
    · exact .inr (.inl hr)
    · exact .inr (.inr hr)
    · exact .inr (.inr hr)
  · rintro (hr | hr | hr)
    · exact .inr (.inl (.inl hr))
    · exact .inr (.inl (.inr hr))
    · exact .inr (.inr (.inl hr))

theorem touches_mulxProduct (sreg treg : Fin 2) :
    Touches (mulxProduct (H := H) sreg treg)
      [if sreg = 0 then .axl 0 else .axh 0, if treg = 0 then .axl 1 else .axh 1] :=
  (touches_selectAX 0 sreg).bind fun _ => (touches_selectAX 1 treg).bind fun _ => .of_eq fun _ => rfl

theorem touches_load (reg : Nat) (val : Word) : Touches (load (H := H) reg val) (Register.ofNat reg).operands := by
  obtain ⟨extended, hall, hsub⟩ : ∃ extended : List Operand,
      (∀ s, (load (H := H) reg val s).touched = (Register.ofNat reg).operands ++ extended) ∧
        ∀ r ∈ extended, r ∈ (Register.ofNat reg).operands :=
    ⟨_, fun _ => rfl, by cases Register.ofNat reg <;> simp [Register.operands]⟩
  intro s r
  rw [hall, List.mem_append]
  exact ⟨fun hr => hr.elim id (hsub r), .inl⟩

theorem touches_opReadRegister (reg : Nat) :
    Touches (DSP.opReadRegister (H := H) reg) (Register.ofNat reg).operands := .of_eq fun _ => rfl

theorem operands_ofNat_ar (k : Fin 4) : (Register.ofNat k).operands = [.ar k] := by
  match k with
  | 0 | 1 | 2 | 3 => rfl

theorem operands_ofNat_ach (k : Fin 2) : (Register.ofNat (k + dspRegACH0)).operands = [.ac k] := by
  match k with
  | 0 | 1 => rfl

theorem operands_ofNat_acm (k : Fin 2) : Register.ofNat (dspRegACM0 + k) = .acm k := by
  match k with
  | 0 | 1 => rfl

section
variable {hw : Hardware H} {opc : Word} {after : Fin 4 → Exec H Unit}

def OnlyAr (after : Fin 4 → Exec H Unit) : Prop := ∀ k s r, r ∈ (after k s).touched → r = .ar k

theorem touches_loadThrough (h : OnlyAr after) :
    Touches (loadThrough hw opc after) ((Register.ofNat (field opc 0 5)).operands ++ [.ar (field opc 5 2)]) := by
  intro s r
  have hload := touches_load (H := H) (field opc 0 5)
  simp only [loadThrough, bind_touched, List.mem_append, hload _ _ r, touches_opReadRegister _ _ r, operands_ofNat_ar,
    Interpreter.readDMEM, take_touched, List.mem_singleton, List.not_mem_nil, false_or]
  constructor
  · rintro (hr | hr | hr)
    · exact .inr hr
    · exact .inl hr
    · exact .inr (h _ _ _ hr)
  · rintro (hr | hr)
    · exact .inr (.inl hr)
    · exact .inl hr

theorem touches_storeThrough (h : OnlyAr after) :
    Touches (storeThrough hw opc after) (.ar (field opc 5 2) :: (Register.ofNat (field opc 0 5)).operands) := by
  intro s r
  simp only [storeThrough, bind_touched, List.mem_append, List.mem_cons, touches_opReadRegister _ _ r, getAr, read_touched,
    Interpreter.writeDMEM, write_touched, List.not_mem_nil, false_or, or_false]
  constructor
  · rintro (hr | hr | hr)
    · exact .inl hr
    · exact .inr hr
    · exact .inl (h _ _ _ hr)
  · rintro (hr | hr)
    · exact .inl hr
    · exact .inr (.inl hr)

theorem touches_loadInstruction (h : OnlyAr after) :
    Touches (loadInstruction opc after) [.ac (field opc 8 1), .ar (field opc 0 2)] := by
  intro s r
  simp only [loadInstruction, bind_touched, List.mem_append, List.mem_cons, getAr, read_touched, Interpreter.readIMEM,
    setAccMid, DSP.conditionalExtendAccum, write_touched, operands_ofNat_acm, List.not_mem_nil, or_false,
    false_or]
  constructor
  · rintro (hr | hr | hr | hr)
    · exact .inr hr
    · exact .inl hr
    · exact .inl hr
    · exact .inr (h _ _ _ hr)
  · rintro (hr | hr)
    · exact .inr (.inl hr)
    · exact .inl hr

theorem onlyAr_keepAr : OnlyAr (keepAr (H := H)) := fun _ _ _ hr => by cases hr

theorem onlyAr_twice (h : ∀ k s, (after k s).touched = [.ar k, .ar k]) : OnlyAr after := by
  intro k s r hr
  rw [h] at hr
  simpa using hr

end

theorem touches_startLoop (cnt loopPC : Word) {skip : Exec H Unit} (h : Touches skip []) :
    Touches (startLoop cnt loopPC skip) [] := by
  rw [startLoop]
  split
  · exact .of_eq fun _ => rfl
  · exact h

/-! ## Handlers -/

/-- A handler touches what its templates name: not when its operand depends on a condition, nor where a template looks at
other bits than the handler. -/
def Op.plain : Op → Bool
  | .callr | .jmprcc | .clrl | .addpaxz | .maddc | .msubc => false
  | _ => true

theorem Op.touches_named (hw : Hardware H) (inst op2 : Word) (op : Op) (hplain : op.plain = true)
    (hnamed : op.named inst op2 ≠ []) : Touches (op.exec hw inst) (op.named inst op2) := by
  cases op <;> delta named params at hnamed ⊢ <;> simp (disch := decide) only [List.flatMap_cons, List.flatMap_nil,
    operands_plain, operands_acc, operands_accL, operands_accM, operands_accH, operands_accD,
    operands_accMD, operands_ax, operands_reg18, operands_reg1A, operands_regM18, operands_regM19, operands_ar, operands_prg,
    operands_reg04, operands_axPart, operands_reg1C, operands_reg18Load, operands_reg, List.append_nil, List.cons_append,
    List.nil_append, ne_eq, not_true_eq_false] at hnamed ⊢
  case addr => exact touches_addTo (touches_mid (touches_axPart _))
  case subr => exact touches_subFrom (touches_mid (touches_axPart _))
  case movr => exact touches_moveTo (touches_mid (touches_axPart _))
  case addp | addi | addis | incm | inc | add | addaxl | addax => exact touches_addTo (.of_eq fun _ => rfl)
  case subp | decm | dec | sub | subax => exact touches_subFrom (.of_eq fun _ => rfl)
  case movp | movnp | movpz | mov | movax | clr => exact touches_moveTo (.of_eq fun _ => rfl)
  case cmpaxh | cmpi | cmpis => exact touches_compare (.of_eq fun _ => rfl)
  case xorr | andr | orr | andc | orc | xorc | notc | xori | andi | ori => exact touches_logicMid _ (.of_eq fun _ => rfl)
  case andf | andcf | tst | tstaxh => exact .of_eq fun _ => rfl
  case lsl16 | lsr16 | lsl | lsr | asl | asr | abs | asr16 => exact touches_storeTo (.of_eq fun _ => rfl)
  case lsrnrx | asrnrx | lsrnr | asrnr => exact touches_storeTo (.of_eq fun _ => rfl)
  case neg => exact touches_neg _
  case mul | mulc | madd | msub => exact .of_eq fun _ => rfl
  case mulx => exact touches_productTo (touches_mulxProduct _ _)
  case maddx | msubx =>
    exact touches_productTo ((touches_selectAX _ _).bind fun _ => (touches_selectAX _ _).bind fun _ => .of_eq fun _ => rfl)
  case mulmv | mulmvz | mulcmv | mulcmvz =>
    exact @touches_multiplyWith _ _ _ _ [] _ _ (.of_eq fun _ => rfl) (by simp) (.of_eq fun _ => rfl)
  case mulac | mulcac =>
    exact @touches_multiplyWith _ _ _ _ [.ac (field inst 8 1)] _ _ (.of_eq fun _ => rfl) (by simp) (.of_eq fun _ => rfl)
  case mulxmv | mulxmvz =>
    exact @touches_multiplyWith _ _ _ _ [] _ _ (.of_eq fun _ => rfl) (by simp) (touches_mulxProduct _ _)
  case mulxac =>
    exact @touches_multiplyWith _ _ _ _ [.ac (field inst 8 1)] _ _ (.of_eq fun _ => rfl) (by simp)
      (touches_mulxProduct _ _)
  case lri => exact (Touches.of_eq fun _ => rfl : Touches _ []).bind fun _ => touches_load _ _
  case lris => exact touches_load _ _
  case lrs | lr =>
    exact (Touches.of_eq fun _ => rfl : Touches _ []).bind fun _ => (Touches.of_eq fun _ => rfl : Touches _ []).bind
      fun _ => touches_load _ _
  case mrr =>
    apply ((touches_opReadRegister _).bind fun _ => touches_load _ _).congr
    intro r
    rw [List.mem_append, List.mem_append, or_comm]
  case sr =>
    rw [← List.append_nil (Register.operands _)]
    exact (Touches.of_eq fun _ => rfl : Touches _ []).bind fun _ => (touches_opReadRegister _).bind fun _ => .of_eq fun _ => rfl
  case srsh =>
    rw [← operands_ofNat_ach, ← List.append_nil (Register.operands _)]
    exact (Touches.of_eq fun _ => rfl : Touches _ []).bind fun _ => (touches_opReadRegister _).bind fun _ => .of_eq fun _ => rfl
  case srs =>
    rw [← List.append_nil (Register.operands _)]
    exact (Touches.of_eq fun _ => rfl : Touches _ []).bind fun _ => (touches_opReadRegister _).bind fun _ => .of_eq fun _ => rfl
  case loop | bloop =>
    rw [← List.append_nil (Register.operands _)]
    exact (touches_opReadRegister _).bind fun _ => (Touches.of_eq fun _ => rfl : Touches _ []).bind fun _ =>
      touches_startLoop _ _ (.of_eq fun _ => rfl)
  case dar | iar | subarn | addarn =>
    exact (Touches.of_eq fun _ => rfl : Touches _ [.ar (field inst 0 2), .ar (field inst 0 2)]).congr (by simp)
  case lrr => exact touches_loadThrough onlyAr_keepAr
  case lrrd | lrri | lrrn => exact touches_loadThrough (onlyAr_twice fun _ _ => rfl)
  case srr => exact touches_storeThrough onlyAr_keepAr
  case srrd | srri | srrn => exact touches_storeThrough (onlyAr_twice fun _ _ => rfl)
  case ilrr => exact touches_loadInstruction onlyAr_keepAr
  case ilrrd | ilrri | ilrrn => exact touches_loadInstruction (onlyAr_twice fun _ _ => rfl)
  all_goals cases hplain

end

end Karphin.DSP.Interpreter
