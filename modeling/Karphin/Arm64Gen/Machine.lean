import Karphin.Arm64Gen.LogicalImm

/-!
# The machine

The general-purpose registers, and the meaning that the architecture gives to the instructions that move values into them and
add to them.
-/

namespace Karphin.Arm64Gen

/-! ## Registers -/

/-- A general-purpose register: its number, and whether it is the view of 64 bits. -/
structure ARM64Reg where
  is64Bit : Bool
  num : Fin 32
  deriving DecidableEq

namespace ARM64Reg

def zr : ARM64Reg := ⟨true, 31⟩

def wzr : ARM64Reg := ⟨false, 31⟩

def encodeRegTo32 (num : Fin 32) : ARM64Reg := ⟨false, num⟩

def encodeRegTo64 (num : Fin 32) : ARM64Reg := ⟨true, num⟩

end ARM64Reg

def width (b64Bit : Bool) : Nat := if b64Bit then 64 else 32

structure Flags where
  n : Bool
  z : Bool
  c : Bool
  v : Bool
  deriving DecidableEq

structure Cpu where
  x : Fin 31 → BitVec 64
  sp : BitVec 64
  flags : Flags

namespace Cpu

def readZ (s : Cpu) (r : Fin 32) : BitVec 64 := if h : r.val < 31 then s.x ⟨r.val, h⟩ else 0

def readSP (s : Cpu) (r : Fin 32) : BitVec 64 := if h : r.val < 31 then s.x ⟨r.val, h⟩ else s.sp

def writeZ (s : Cpu) (r : Fin 32) (v : BitVec 64) : Cpu :=
  if h : r.val < 31 then { s with x := Function.update s.x ⟨r.val, h⟩ v } else s

def writeSP (s : Cpu) (r : Fin 32) (v : BitVec 64) : Cpu :=
  if h : r.val < 31 then { s with x := Function.update s.x ⟨r.val, h⟩ v } else { s with sp := v }

end Cpu

/-! ## Instructions -/

/-- Immediates have the sizes of their fields. `pos` counts shifts by 16 bits. -/
inductive Instr
  | movz (b64Bit : Bool) (rd : Fin 32) (imm : BitVec 16) (pos : Nat)
  | movn (b64Bit : Bool) (rd : Fin 32) (imm : BitVec 16) (pos : Nat)
  | movk (b64Bit : Bool) (rd : Fin 32) (imm : BitVec 16) (pos : Nat)
  | adr (rd : Fin 32) (imm : BitVec 21)
  | adrp (rd : Fin 32) (imm : BitVec 21)
  | orrImm (b64Bit : Bool) (rd rn : Fin 32) (imm : LogicalImm)
  | orrReg (b64Bit : Bool) (rd rn rm : Fin 32)
  | addSubImm (b64Bit sub flags : Bool) (rd rn : Fin 32) (imm : BitVec 12) (shift : Bool)
  | addSubReg (b64Bit sub flags : Bool) (rd rn rm : Fin 32)
  deriving DecidableEq

def addWithCarry {w : Nat} (a b : BitVec w) (carry : Bool) : BitVec w × Flags :=
  let result := a + b + BitVec.ofNat w carry.toNat
  (result,
    { n := result.msb
      z := result = 0
      c := 2 ^ w ≤ a.toNat + b.toNat + carry.toNat
      v := result.toInt ≠ a.toInt + b.toInt + carry.toNat })

def addSub {w : Nat} (sub : Bool) (a b : BitVec w) : BitVec w × Flags :=
  if sub then addWithCarry a (~~~b) true else addWithCarry a b false

def insertPart {w : Nat} (v : BitVec w) (imm : BitVec 16) (pos : Nat) : BitVec w :=
  v &&& ~~~((BitVec.allOnes 16).setWidth w <<< (16 * pos)) ||| imm.setWidth w <<< (16 * pos)

def GPRSize.ofBool (b64Bit : Bool) : GPRSize := if b64Bit then .b64 else .b32

namespace Instr

/-- The state after an instruction at `pc`, if the encoding is defined. What is written to a view of 32 bits is extended with
zeros. -/
def exec (pc : BitVec 64) (s : Cpu) : Instr → Option Cpu
  | movz b64Bit rd imm pos =>
      if 16 * pos < width b64Bit then some (s.writeZ rd ((insertPart (0 : BitVec (width b64Bit)) imm pos).setWidth 64))
      else none
  | movn b64Bit rd imm pos =>
      if 16 * pos < width b64Bit then
        some (s.writeZ rd ((~~~(insertPart (0 : BitVec (width b64Bit)) imm pos)).setWidth 64))
      else none
  | movk b64Bit rd imm pos =>
      if 16 * pos < width b64Bit then
        some (s.writeZ rd ((insertPart ((s.readZ rd).setWidth (width b64Bit)) imm pos).setWidth 64))
      else none
  | adr rd imm => some (s.writeZ rd (pc + imm.signExtend 64))
  | adrp rd imm => some (s.writeZ rd ((pc &&& ~~~(0xfff : BitVec 64)) + imm.signExtend 64 <<< 12))
  | orrImm b64Bit rd rn imm =>
      match imm.decode (GPRSize.ofBool b64Bit) with
      | some value =>
          some (s.writeSP rd (((s.readZ rn).setWidth (GPRSize.ofBool b64Bit).bits ||| value).setWidth 64))
      | none => none
  | orrReg b64Bit rd rn rm =>
      some (s.writeZ rd (((s.readZ rn).setWidth (width b64Bit) ||| (s.readZ rm).setWidth (width b64Bit)).setWidth 64))
  | addSubImm b64Bit sub flags rd rn imm shift =>
      let operand := imm.setWidth (width b64Bit) <<< (if shift then 12 else 0)
      let (result, nzcv) := addSub sub ((s.readSP rn).setWidth (width b64Bit)) operand
      -- Only without the flags the destination can be the stack pointer.
      if flags then some { s.writeZ rd (result.setWidth 64) with flags := nzcv }
      else some (s.writeSP rd (result.setWidth 64))
  | addSubReg b64Bit sub flags rd rn rm =>
      let (result, nzcv) := addSub sub ((s.readZ rn).setWidth (width b64Bit)) ((s.readZ rm).setWidth (width b64Bit))
      let s := s.writeZ rd (result.setWidth 64)
      some (if flags then { s with flags := nzcv } else s)

end Instr

def run : BitVec 64 → List Instr → Cpu → Option Cpu
  | _, [], s => some s
  | pc, i :: code, s => (i.exec pc s).bind (run (pc + 4) code)

/-! ## Emitting -/

abbrev Emit := Option (List Instr)

namespace ARM64XEmitter

def encodeMOVWideInst (instr : Bool → Fin 32 → BitVec 16 → Nat → Instr) (Rd : ARM64Reg) (imm : BitVec 32) (pos : Nat) :
    Emit :=
  if imm &&& ~~~(0xffff : BitVec 32) = 0 then some [instr Rd.is64Bit Rd.num (imm.setWidth 16) pos] else none

def movz (Rd : ARM64Reg) (imm : BitVec 32) (pos : Nat) : Emit := encodeMOVWideInst .movz Rd imm pos

def movn (Rd : ARM64Reg) (imm : BitVec 32) (pos : Nat) : Emit := encodeMOVWideInst .movn Rd imm pos

def movk (Rd : ARM64Reg) (imm : BitVec 32) (pos : Nat) : Emit := encodeMOVWideInst .movk Rd imm pos

def adr (Rd : ARM64Reg) (imm : BitVec 32) : Emit := some [.adr Rd.num (imm.setWidth 21)]

def adrp (Rd : ARM64Reg) (imm : BitVec 64) : Emit := some [.adrp Rd.num (((imm.sshiftRight 12).setWidth 32).setWidth 21)]

def orr (Rd Rn : ARM64Reg) (imm : LogicalImm) : Emit :=
  if imm.valid && (Rn.is64Bit || !imm.n) then some [.orrImm Rn.is64Bit Rd.num Rn.num imm] else none

def encodeAddSubImmInst (sub flags : Bool) (Rd Rn : ARM64Reg) (imm : BitVec 32) (shift : Bool) : Emit :=
  if imm &&& ~~~(0xfff : BitVec 32) = 0 then some [.addSubImm Rd.is64Bit sub flags Rd.num Rn.num (imm.setWidth 12) shift]
  else none

/-- `EncodeArithmeticInst` with a register that is not shifted. -/
def encodeArithmeticInst (sub flags : Bool) (Rd Rn Rm : ARM64Reg) : Emit :=
  some [.addSubReg Rd.is64Bit sub flags Rd.num Rn.num Rm.num]

def mov (Rd Rm : ARM64Reg) : Emit := some [.orrReg Rd.is64Bit Rd.num 31 Rm.num]

end ARM64XEmitter

/-! ## Registers and sums -/

namespace Cpu

variable {r : Fin 32}

theorem readZ_writeZ (s : Cpu) (hr : r.val < 31) (v : BitVec 64) : (s.writeZ r v).readZ r = v := by
  rw [readZ, writeZ, dif_pos hr, dif_pos hr]
  exact Function.update_self ..

theorem writeZ_writeZ (s : Cpu) (hr : r.val < 31) (u v : BitVec 64) : (s.writeZ r u).writeZ r v = s.writeZ r v := by
  rw [writeZ, writeZ, writeZ, dif_pos hr, dif_pos hr, dif_pos hr, Function.update_idem]

theorem readSP_eq (s : Cpu) (hr : r.val < 31) : s.readSP r = s.readZ r := by
  rw [readSP, readZ, dif_pos hr, dif_pos hr]

theorem writeSP_eq (s : Cpu) (hr : r.val < 31) (v : BitVec 64) : s.writeSP r v = s.writeZ r v := by
  rw [writeSP, writeZ, dif_pos hr, dif_pos hr]

end Cpu

theorem width_le (b64Bit : Bool) : width b64Bit ≤ 64 := by
  cases b64Bit <;> decide

theorem width_eq (b64Bit : Bool) : width b64Bit = 16 * (width b64Bit / 16) := by
  cases b64Bit <;> rfl

theorem addSub_fst {w : Nat} (sub : Bool) (a b : BitVec w) : (addSub sub a b).1 = if sub then a - b else a + b := by
  cases sub with
  | false => simp [addSub, addWithCarry]
  | true => simp [addSub, addWithCarry, BitVec.sub_eq_add_neg, BitVec.neg_eq_not_add, BitVec.add_assoc]

namespace Instr

theorem exec_addSubImm (pc : BitVec 64) (s : Cpu) (b64Bit sub : Bool) {rd rn : Fin 32} (hd : rd.val < 31)
    (hn : rn.val < 31) (imm : BitVec 12) (shift : Bool) :
    exec pc s (addSubImm b64Bit sub false rd rn imm shift) =
      some (s.writeZ rd ((if sub then
          (s.readZ rn).setWidth (width b64Bit) - imm.setWidth (width b64Bit) <<< (if shift then 12 else 0)
        else (s.readZ rn).setWidth (width b64Bit) + imm.setWidth (width b64Bit) <<< (if shift then 12 else 0)).setWidth 64)) := by
  rw [exec, Cpu.readSP_eq s hn, ← addSub_fst, ← Cpu.writeSP_eq s hd]
  rfl

end Instr

/-! ## Masks -/

theorem and_not_low (k : Nat) {x : BitVec 32} (h : x.toNat < 2 ^ k) : x &&& ~~~(BitVec.ofNat 32 (2 ^ k - 1)) = 0 := by
  refine BitVec.eq_of_getLsbD_eq fun i hi => ?_
  rw [BitVec.getLsbD_and, BitVec.getLsbD_not, BitVec.getLsbD_ofNat, Nat.testBit_two_pow_sub_one]
  by_cases hk : i < k
  · simp [hi, hk]
  · have hbit : x.getLsbD i = false := Nat.testBit_lt_two_pow (h.trans_le (Nat.pow_le_pow_right (by decide) (by omega)))
    simp [hbit]

namespace ARM64XEmitter

theorem encodeMOVWideInst_eq (instr : Bool → Fin 32 → BitVec 16 → Nat → Instr) (Rd : ARM64Reg) (imm : BitVec 16)
    (pos : Nat) :
    encodeMOVWideInst instr Rd (imm.setWidth 32) pos = some [instr Rd.is64Bit Rd.num imm pos] := by
  have hsmall : (imm.setWidth 32).toNat < 2 ^ 16 := by
    rw [BitVec.toNat_setWidth_of_le (by decide)]
    exact imm.isLt
  have hmask : imm.setWidth 32 &&& ~~~(0xffff : BitVec 32) = 0 := and_not_low 16 hsmall
  rw [encodeMOVWideInst, if_pos hmask, BitVec.setWidth_setWidth_of_le _ (by decide), BitVec.setWidth_eq]

theorem encodeAddSubImmInst_eq (sub flags : Bool) (Rd Rn : ARM64Reg) {imm : BitVec 32} (h : imm.toNat < 2 ^ 12)
    (shift : Bool) :
    encodeAddSubImmInst sub flags Rd Rn imm shift =
      some [.addSubImm Rd.is64Bit sub flags Rd.num Rn.num (imm.setWidth 12) shift] := by
  have hmask : imm &&& ~~~(0xfff : BitVec 32) = 0 := and_not_low 12 h
  rw [encodeAddSubImmInst, if_pos hmask]

end ARM64XEmitter

end Karphin.Arm64Gen
