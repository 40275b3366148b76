import Karphin.PowerPC.Tables

/-!
# The interpreter

The registers and the interpreter functions of the integer, condition register and carry instructions
(`Interpreter_Integer.cpp`, `Interpreter_SystemRegisters.cpp`, `ConditionRegister.h`). The instructions that
reach memory, the segment and special purpose registers or the floating point unit are parameters of the
model (`Unmodelled`).
-/

namespace Karphin.PowerPC

/-- The part of the CPU state that the modelled instructions work on. `rest` stands for everything else:
memory, LR, CTR and the other special purpose registers, the floating point registers, pending exceptions. -/
structure PowerPCState (ρ : Type) where
  gpr : Fin 32 → BitVec 32
  cr : Fin 8 → BitVec 64
  xerCa : BitVec 8
  /-- Format: `(SO << 1) | OV`. -/
  xerSoOv : BitVec 8
  xerStringctrl : BitVec 16
  fpscr : BitVec 32
  msr : BitVec 32
  rest : ρ

variable {ρ : Type}

/-! ## Condition register -/

def PPCToInternal (value : BitVec 4) : BitVec 64 :=
  0x100000000#64 |||
    (BitVec.ofBool (value.getLsbD 0)).setWidth 64 <<< 59 |||
    (BitVec.ofBool (!value.getLsbD 1)).setWidth 64 |||
    (BitVec.ofBool (!value.getLsbD 2)).setWidth 64 <<< 63 |||
    (BitVec.ofBool (value.getLsbD 3)).setWidth 64 <<< 62

def crFieldOf (bit : BitVec 5) : Fin 8 := (bit.extractLsb' 2 3).toFin

namespace PowerPCState

def setGpr (s : PowerPCState ρ) (r : Fin 32) (value : BitVec 32) : PowerPCState ρ :=
  { s with gpr := Function.update s.gpr r value }

def setCr (s : PowerPCState ρ) (field : Fin 8) (value : BitVec 64) : PowerPCState ρ :=
  { s with cr := Function.update s.cr field value }

def SetField (s : PowerPCState ρ) (field : Fin 8) (value : BitVec 4) : PowerPCState ρ :=
  s.setCr field (PPCToInternal value)

def GetField (s : PowerPCState ρ) (field : Fin 8) : BitVec 4 :=
  let crVal := s.cr field
  ((crVal >>> 59).setWidth 4 &&& 0b1001#4) |||
    (BitVec.ofBool (crVal.setWidth 32 == 0#32)).setWidth 4 <<< 1 |||
    (BitVec.ofBool ((0#64).slt crVal)).setWidth 4 <<< 2

def GetBit (s : PowerPCState ρ) (bit : BitVec 5) : Bool :=
  (s.GetField (crFieldOf bit) >>> (3 - (bit &&& 3#5).toNat)).getLsbD 0

def SetBit (s : PowerPCState ρ) (bit : BitVec 5) (value : Bool) : PowerPCState ρ :=
  let mask := 0x8#4 >>> (bit &&& 3#5).toNat
  if value then s.SetField (crFieldOf bit) (s.GetField (crFieldOf bit) ||| mask)
  else s.SetField (crFieldOf bit) (s.GetField (crFieldOf bit) &&& ~~~mask)

def GetCR (s : PowerPCState ρ) : BitVec 32 :=
  (List.finRange 8).foldl (fun cr i => cr ||| (s.GetField i).setWidth 32 <<< (28 - i.val * 4)) 0

def SetCR (s : PowerPCState ρ) (cr : BitVec 32) : PowerPCState ρ :=
  { s with cr := fun i => PPCToInternal (cr.extractLsb' (28 - i.val * 4) 4) }

/-! ## XER -/

def SetCarry (s : PowerPCState ρ) (ca : Bool) : PowerPCState ρ :=
  { s with xerCa := (BitVec.ofBool ca).setWidth 8 }

def GetCarry (s : PowerPCState ρ) : BitVec 32 := s.xerCa.setWidth 32

def GetXER (s : PowerPCState ρ) : BitVec 32 :=
  s.xerStringctrl.setWidth 32 ||| s.xerCa.setWidth 32 <<< 29 ||| s.xerSoOv.setWidth 32 <<< 30

def GetXER_SO (s : PowerPCState ρ) : BitVec 32 := (s.xerSoOv >>> 1).setWidth 32

def SetXER_OV (s : PowerPCState ρ) (value : Bool) : PowerPCState ρ :=
  let ov := (BitVec.ofBool value).setWidth 8
  { s with xerSoOv := ((s.xerSoOv &&& 0xFE#8) ||| ov) ||| ov <<< 1 }

end PowerPCState

namespace Interpreter

open PowerPCState

/-! ## Helpers -/

def Helper_UpdateCR0 (s : PowerPCState ρ) (value : BitVec 32) : PowerPCState ρ :=
  let crVal := value.signExtend 64
  -- GT must stay unset when the SO bit turns the zero into a positive number
  let crVal := if value = 0 then crVal ||| 1#64 <<< 63 else crVal
  s.setCr 0 ((crVal &&& ~~~(1#64 <<< 59)) ||| (s.GetXER_SO.setWidth 64 <<< 59))

def Helper_Carry (value1 value2 : BitVec 32) : Bool := (~~~value1).ult value2

def HasAddOverflowed (x y result : BitVec 32) : Bool := ((x ^^^ result) &&& (y ^^^ result)) >>> 31 != 0

def overflow (inst : UGeckoInstruction) (value : Bool) (s : PowerPCState ρ) : PowerPCState ρ :=
  if inst.OE then s.SetXER_OV value else s

def record (inst : UGeckoInstruction) (result : BitVec 32) (s : PowerPCState ρ) : PowerPCState ρ :=
  if inst.Rc then Helper_UpdateCR0 s result else s

def Helper_IntCompare (s : PowerPCState ρ) (inst : UGeckoInstruction) (less greater : Bool) :
    PowerPCState ρ :=
  let crField : BitVec 4 := if less then 8#4 else if greater then 4#4 else 2#4
  s.SetField inst.CRFD (if s.GetXER_SO != 0 then crField ||| 1#4 else crField)

/-! ## Immediate forms -/

def addi (inst : UGeckoInstruction) (s : PowerPCState ρ) : PowerPCState ρ :=
  s.setGpr inst.RD (if inst.RA ≠ 0 then s.gpr inst.RA + inst.SIMM_16 else inst.SIMM_16)

def addis (inst : UGeckoInstruction) (s : PowerPCState ρ) : PowerPCState ρ :=
  s.setGpr inst.RD (if inst.RA ≠ 0 then s.gpr inst.RA + inst.SIMM_16 <<< 16 else inst.SIMM_16 <<< 16)

def addic (inst : UGeckoInstruction) (s : PowerPCState ρ) : PowerPCState ρ :=
  let a := s.gpr inst.RA
  (s.setGpr inst.RD (a + inst.SIMM_16)).SetCarry (Helper_Carry a inst.SIMM_16)

def addic_rc (inst : UGeckoInstruction) (s : PowerPCState ρ) : PowerPCState ρ :=
  let s := addic inst s
  Helper_UpdateCR0 s (s.gpr inst.RD)

def logicalImmediate (f : BitVec 32 → BitVec 32 → BitVec 32) (inst : UGeckoInstruction)
    (s : PowerPCState ρ) : PowerPCState ρ :=
  s.setGpr inst.RA (f (s.gpr inst.RS) inst.UIMM)

def ori (inst : UGeckoInstruction) : PowerPCState ρ → PowerPCState ρ := logicalImmediate (· ||| ·) inst
def oris (inst : UGeckoInstruction) : PowerPCState ρ → PowerPCState ρ :=
  logicalImmediate (fun a i => a ||| i <<< 16) inst
def xori (inst : UGeckoInstruction) : PowerPCState ρ → PowerPCState ρ := logicalImmediate (· ^^^ ·) inst
def xoris (inst : UGeckoInstruction) : PowerPCState ρ → PowerPCState ρ :=
  logicalImmediate (fun a i => a ^^^ i <<< 16) inst

def andi_rc (inst : UGeckoInstruction) (s : PowerPCState ρ) : PowerPCState ρ :=
  let s := logicalImmediate (· &&& ·) inst s
  Helper_UpdateCR0 s (s.gpr inst.RA)

def andis_rc (inst : UGeckoInstruction) (s : PowerPCState ρ) : PowerPCState ρ :=
  let s := logicalImmediate (fun a i => a &&& i <<< 16) inst s
  Helper_UpdateCR0 s (s.gpr inst.RA)

def cmpi (inst : UGeckoInstruction) (s : PowerPCState ρ) : PowerPCState ρ :=
  let a := s.gpr inst.RA
  Helper_IntCompare s inst (a.slt inst.SIMM_16) (inst.SIMM_16.slt a)

def cmpli (inst : UGeckoInstruction) (s : PowerPCState ρ) : PowerPCState ρ :=
  let a := s.gpr inst.RA
  Helper_IntCompare s inst (a.ult inst.UIMM) (inst.UIMM.ult a)

def mulli (inst : UGeckoInstruction) (s : PowerPCState ρ) : PowerPCState ρ :=
  s.setGpr inst.RD (s.gpr inst.RA * inst.SIMM_16)

/-- The carry is computed from `gpr[RA]` after the destination has been written. -/
def subfic (inst : UGeckoInstruction) (s : PowerPCState ρ) : PowerPCState ρ :=
  let s := s.setGpr inst.RD (inst.SIMM_16 - s.gpr inst.RA)
  s.SetCarry (s.gpr inst.RA == 0 || Helper_Carry (0 - s.gpr inst.RA) inst.SIMM_16)

/-! ## Rotates, shifts and logical instructions

All of them end with `if (inst.Rc) Helper_UpdateCR0(gpr[RA])`. -/

def writeA (inst : UGeckoInstruction) (s : PowerPCState ρ) (value : BitVec 32) : PowerPCState ρ :=
  record inst value (s.setGpr inst.RA value)

def rlwimix (inst : UGeckoInstruction) (s : PowerPCState ρ) : PowerPCState ρ :=
  let mask := MakeRotationMask inst.MB inst.ME
  writeA inst s ((s.gpr inst.RA &&& ~~~mask) ||| ((s.gpr inst.RS).rotateLeft inst.SH &&& mask))

def rlwinmx (inst : UGeckoInstruction) (s : PowerPCState ρ) : PowerPCState ρ :=
  writeA inst s ((s.gpr inst.RS).rotateLeft inst.SH &&& MakeRotationMask inst.MB inst.ME)

def rlwnmx (inst : UGeckoInstruction) (s : PowerPCState ρ) : PowerPCState ρ :=
  writeA inst s ((s.gpr inst.RS).rotateLeft (s.gpr inst.RB &&& 0x1F).toNat &&&
    MakeRotationMask inst.MB inst.ME)

def logical (f : BitVec 32 → BitVec 32 → BitVec 32) (inst : UGeckoInstruction) (s : PowerPCState ρ) :
    PowerPCState ρ :=
  writeA inst s (f (s.gpr inst.RS) (s.gpr inst.RB))

def andx (inst : UGeckoInstruction) : PowerPCState ρ → PowerPCState ρ := logical (· &&& ·) inst
def andcx (inst : UGeckoInstruction) : PowerPCState ρ → PowerPCState ρ :=
  logical (fun a b => a &&& ~~~b) inst
def eqvx (inst : UGeckoInstruction) : PowerPCState ρ → PowerPCState ρ :=
  logical (fun a b => ~~~(a ^^^ b)) inst
def nandx (inst : UGeckoInstruction) : PowerPCState ρ → PowerPCState ρ :=
  logical (fun a b => ~~~(a &&& b)) inst
def norx (inst : UGeckoInstruction) : PowerPCState ρ → PowerPCState ρ :=
  logical (fun a b => ~~~(a ||| b)) inst
def orx (inst : UGeckoInstruction) : PowerPCState ρ → PowerPCState ρ := logical (· ||| ·) inst
def orcx (inst : UGeckoInstruction) : PowerPCState ρ → PowerPCState ρ :=
  logical (fun a b => a ||| ~~~b) inst
def xorx (inst : UGeckoInstruction) : PowerPCState ρ → PowerPCState ρ := logical (· ^^^ ·) inst
def slwx (inst : UGeckoInstruction) : PowerPCState ρ → PowerPCState ρ :=
  logical (fun a amount => if amount &&& 0x20 != 0 then 0 else a <<< (amount &&& 0x1F).toNat) inst
def srwx (inst : UGeckoInstruction) : PowerPCState ρ → PowerPCState ρ :=
  logical (fun a amount => if amount &&& 0x20 != 0 then 0 else a >>> (amount &&& 0x1F).toNat) inst

def cntlzwx (inst : UGeckoInstruction) (s : PowerPCState ρ) : PowerPCState ρ :=
  writeA inst s (s.gpr inst.RS).clz

def extsbx (inst : UGeckoInstruction) (s : PowerPCState ρ) : PowerPCState ρ :=
  writeA inst s (((s.gpr inst.RS).setWidth 8).signExtend 32)

def extshx (inst : UGeckoInstruction) (s : PowerPCState ρ) : PowerPCState ρ :=
  writeA inst s (((s.gpr inst.RS).setWidth 16).signExtend 32)

/-- The carry of an arithmetic shift right: a one was shifted out of a negative number. -/
def shiftCarry (rrs : BitVec 32) (amount : Nat) : Bool :=
  rrs.slt 0 && decide (0 < amount) && rrs <<< (32 - amount) != 0

def srawx (inst : UGeckoInstruction) (s : PowerPCState ρ) : PowerPCState ρ :=
  let rb := s.gpr inst.RB
  let rrs := s.gpr inst.RS
  let amount := (rb &&& 0x1F).toNat
  let result := if rb &&& 0x20 != 0 then (if rrs &&& 0x80000000 != 0 then 0xFFFFFFFF#32 else 0)
    else rrs.sshiftRight amount
  let carry := if rb &&& 0x20 != 0 then rrs &&& 0x80000000 != 0 else shiftCarry rrs amount
  record inst result ((s.setGpr inst.RA result).SetCarry carry)

def srawix (inst : UGeckoInstruction) (s : PowerPCState ρ) : PowerPCState ρ :=
  let rrs := s.gpr inst.RS
  let result := rrs.sshiftRight inst.SH
  record inst result ((s.setGpr inst.RA result).SetCarry (shiftCarry rrs inst.SH))

def cmp (inst : UGeckoInstruction) (s : PowerPCState ρ) : PowerPCState ρ :=
  let a := s.gpr inst.RA
  let b := s.gpr inst.RB
  Helper_IntCompare s inst (a.slt b) (b.slt a)

def cmpl (inst : UGeckoInstruction) (s : PowerPCState ρ) : PowerPCState ρ :=
  let a := s.gpr inst.RA
  let b := s.gpr inst.RB
  Helper_IntCompare s inst (a.ult b) (b.ult a)

/-! ## Arithmetic -/

/-- `gpr[RD] = result`, then OV and CR0 as the instruction word asks for. -/
def arithmetic (inst : UGeckoInstruction) (s : PowerPCState ρ) (result : BitVec 32) (ov : Bool) :
    PowerPCState ρ :=
  record inst result (overflow inst ov (s.setGpr inst.RD result))

/-- `gpr[RD] = result` with a carry, then OV and CR0 as the instruction word asks for. -/
def arithmeticCarry (inst : UGeckoInstruction) (s : PowerPCState ρ) (result : BitVec 32) (carry ov : Bool) :
    PowerPCState ρ :=
  record inst result (overflow inst ov ((s.setGpr inst.RD result).SetCarry carry))

def addx (inst : UGeckoInstruction) (s : PowerPCState ρ) : PowerPCState ρ :=
  let a := s.gpr inst.RA
  let b := s.gpr inst.RB
  let result := a + b
  arithmetic inst s result (HasAddOverflowed a b result)

def addcx (inst : UGeckoInstruction) (s : PowerPCState ρ) : PowerPCState ρ :=
  let a := s.gpr inst.RA
  let b := s.gpr inst.RB
  let result := a + b
  arithmeticCarry inst s result (Helper_Carry a b) (HasAddOverflowed a b result)

def addex (inst : UGeckoInstruction) (s : PowerPCState ρ) : PowerPCState ρ :=
  let carry := s.GetCarry
  let a := s.gpr inst.RA
  let b := s.gpr inst.RB
  let result := a + b + carry
  arithmeticCarry inst s result (Helper_Carry a b || (carry != 0 && Helper_Carry (a + b) carry))
    (HasAddOverflowed a b result)

def addmex (inst : UGeckoInstruction) (s : PowerPCState ρ) : PowerPCState ρ :=
  let carry := s.GetCarry
  let a := s.gpr inst.RA
  let b := 0xFFFFFFFF#32
  let result := a + b + carry
  arithmeticCarry inst s result (Helper_Carry a (carry - 1)) (HasAddOverflowed a b result)

def addzex (inst : UGeckoInstruction) (s : PowerPCState ρ) : PowerPCState ρ :=
  let carry := s.GetCarry
  let a := s.gpr inst.RA
  let result := a + carry
  arithmeticCarry inst s result (Helper_Carry a carry) (HasAddOverflowed a 0 result)

def divwx (inst : UGeckoInstruction) (s : PowerPCState ρ) : PowerPCState ρ :=
  let a := s.gpr inst.RA
  let b := s.gpr inst.RB
  let ov := b == 0 || (a == 0x80000000 && b == -1)
  let result := if ov then (if a.slt 0 then 0xFFFFFFFF#32 else 0) else a.sdiv b
  arithmetic inst s result ov

def divwux (inst : UGeckoInstruction) (s : PowerPCState ρ) : PowerPCState ρ :=
  let a := s.gpr inst.RA
  let b := s.gpr inst.RB
  let ov := b == 0
  arithmetic inst s (if ov then 0 else a / b) ov

def mulhwx (inst : UGeckoInstruction) (s : PowerPCState ρ) : PowerPCState ρ :=
  let a := (s.gpr inst.RA).signExtend 64
  let b := (s.gpr inst.RB).signExtend 64
  let d := ((a * b).sshiftRight 32).setWidth 32
  record inst d (s.setGpr inst.RD d)

def mulhwux (inst : UGeckoInstruction) (s : PowerPCState ρ) : PowerPCState ρ :=
  let a := (s.gpr inst.RA).setWidth 64
  let b := (s.gpr inst.RB).setWidth 64
  let d := ((a * b) >>> 32).setWidth 32
  record inst d (s.setGpr inst.RD d)

def mullwx (inst : UGeckoInstruction) (s : PowerPCState ρ) : PowerPCState ρ :=
  let a := (s.gpr inst.RA).signExtend 64
  let b := (s.gpr inst.RB).signExtend 64
  let result := a * b
  arithmetic inst s (result.setWidth 32)
    (decide (result.toInt < -0x80000000) || decide (0x7FFFFFFF < result.toInt))

def negx (inst : UGeckoInstruction) (s : PowerPCState ρ) : PowerPCState ρ :=
  let a := s.gpr inst.RA
  arithmetic inst s (~~~a + 1) (a == 0x80000000)

def subfx (inst : UGeckoInstruction) (s : PowerPCState ρ) : PowerPCState ρ :=
  let a := ~~~(s.gpr inst.RA)
  let b := s.gpr inst.RB
  let result := a + b + 1
  arithmetic inst s result (HasAddOverflowed a b result)

def subfcx (inst : UGeckoInstruction) (s : PowerPCState ρ) : PowerPCState ρ :=
  let a := ~~~(s.gpr inst.RA)
  let b := s.gpr inst.RB
  let result := a + b + 1
  arithmeticCarry inst s result (a == 0xFFFFFFFF || Helper_Carry b (a + 1)) (HasAddOverflowed a b result)

def subfex (inst : UGeckoInstruction) (s : PowerPCState ρ) : PowerPCState ρ :=
  let a := ~~~(s.gpr inst.RA)
  let b := s.gpr inst.RB
  let carry := s.GetCarry
  let result := a + b + carry
  arithmeticCarry inst s result (Helper_Carry a b || Helper_Carry (a + b) carry)
    (HasAddOverflowed a b result)

def subfmex (inst : UGeckoInstruction) (s : PowerPCState ρ) : PowerPCState ρ :=
  let a := ~~~(s.gpr inst.RA)
  let b := 0xFFFFFFFF#32
  let carry := s.GetCarry
  let result := a + b + carry
  arithmeticCarry inst s result (Helper_Carry a (carry - 1)) (HasAddOverflowed a b result)

def subfzex (inst : UGeckoInstruction) (s : PowerPCState ρ) : PowerPCState ρ :=
  let a := ~~~(s.gpr inst.RA)
  let carry := s.GetCarry
  let result := a + carry
  arithmeticCarry inst s result (Helper_Carry a carry) (HasAddOverflowed a 0 result)

/-! ## Condition register instructions -/

def crBit (f : Bool → Bool → Bool) (inst : UGeckoInstruction) (s : PowerPCState ρ) : PowerPCState ρ :=
  s.SetBit inst.CRBD (f (s.GetBit inst.CRBA) (s.GetBit inst.CRBB))

def crand (inst : UGeckoInstruction) : PowerPCState ρ → PowerPCState ρ := crBit (fun a b => a && b) inst
def crandc (inst : UGeckoInstruction) : PowerPCState ρ → PowerPCState ρ := crBit (fun a b => a && !b) inst
def creqv (inst : UGeckoInstruction) : PowerPCState ρ → PowerPCState ρ := crBit (fun a b => !(a ^^ b)) inst
def crnand (inst : UGeckoInstruction) : PowerPCState ρ → PowerPCState ρ :=
  crBit (fun a b => !(a && b)) inst
def crnor (inst : UGeckoInstruction) : PowerPCState ρ → PowerPCState ρ :=
  crBit (fun a b => !(a || b)) inst
def cror (inst : UGeckoInstruction) : PowerPCState ρ → PowerPCState ρ := crBit (fun a b => a || b) inst
def crorc (inst : UGeckoInstruction) : PowerPCState ρ → PowerPCState ρ := crBit (fun a b => a || !b) inst
def crxor (inst : UGeckoInstruction) : PowerPCState ρ → PowerPCState ρ := crBit (fun a b => a ^^ b) inst

def mcrf (inst : UGeckoInstruction) (s : PowerPCState ρ) : PowerPCState ρ :=
  s.SetField inst.CRFD (s.GetField inst.CRFS)

def mcrxr (inst : UGeckoInstruction) (s : PowerPCState ρ) : PowerPCState ρ :=
  let s := s.SetField inst.CRFD (s.GetXER.extractLsb' 28 4)
  { s with xerCa := 0, xerSoOv := 0 }

def mfcr (inst : UGeckoInstruction) (s : PowerPCState ρ) : PowerPCState ρ :=
  s.setGpr inst.RD s.GetCR

def crMask (crm : BitVec 8) : BitVec 32 :=
  (List.range 8).foldl (fun mask i => if crm.getLsbD i then mask ||| 0xF#32 <<< (i * 4) else mask) 0

def mtcrf (inst : UGeckoInstruction) (s : PowerPCState ρ) : PowerPCState ρ :=
  if inst.CRM = 0xFF then s.SetCR (s.gpr inst.RS)
  else s.SetCR ((s.GetCR &&& ~~~crMask inst.CRM) ||| (s.gpr inst.RS &&& crMask inst.CRM))

def nothing (_ : UGeckoInstruction) (s : PowerPCState ρ) : PowerPCState ρ := s

/-! ## Dispatch -/

/-- The interpreter function of each modelled instruction (`Interpreter_Tables.cpp`). -/
def interpreterTable : Op → Option (UGeckoInstruction → PowerPCState ρ → PowerPCState ρ)
  | .addi => some addi
  | .addis => some addis
  | .addic => some addic
  | .addic_rc => some addic_rc
  | .ori => some ori
  | .oris => some oris
  | .xori => some xori
  | .xoris => some xoris
  | .andi_rc => some andi_rc
  | .andis_rc => some andis_rc
  | .cmpi => some cmpi
  | .cmpli => some cmpli
  | .mulli => some mulli
  | .subfic => some subfic
  | .rlwimix => some rlwimix
  | .rlwinmx => some rlwinmx
  | .rlwnmx => some rlwnmx
  | .andx => some andx
  | .andcx => some andcx
  | .eqvx => some eqvx
  | .nandx => some nandx
  | .norx => some norx
  | .orx => some orx
  | .orcx => some orcx
  | .xorx => some xorx
  | .slwx => some slwx
  | .srwx => some srwx
  | .cntlzwx => some cntlzwx
  | .extsbx => some extsbx
  | .extshx => some extshx
  | .srawx => some srawx
  | .srawix => some srawix
  | .cmp => some cmp
  | .cmpl => some cmpl
  | .addx | .addox => some addx
  | .addcx | .addcox => some addcx
  | .addex | .addeox => some addex
  | .addmex | .addmeox => some addmex
  | .addzex | .addzeox => some addzex
  | .divwx | .divwox => some divwx
  | .divwux | .divwuox => some divwux
  | .mulhwx => some mulhwx
  | .mulhwux => some mulhwux
  | .mullwx | .mullwox => some mullwx
  | .negx | .negox => some negx
  | .subfx | .subfox => some subfx
  | .subfcx | .subfcox => some subfcx
  | .subfex | .subfeox => some subfex
  | .subfmex | .subfmeox => some subfmex
  | .subfzex | .subfzeox => some subfzex
  | .crand => some crand
  | .crandc => some crandc
  | .creqv => some creqv
  | .crnand => some crnand
  | .crnor => some crnor
  | .cror => some cror
  | .crorc => some crorc
  | .crxor => some crxor
  | .mcrf => some mcrf
  | .mcrxr => some mcrxr
  | .mfcr => some mfcr
  | .mtcrf => some mtcrf
  | .isync | .sync | .eieio | .dcbt | .dcbtst | .dcba => some nothing
  | _ => none

end Interpreter

/-! ## Steps -/

/-- What one instruction does: go on with the next one, or leave the block. -/
inductive Step (σ : Type)
  | next (s : σ)
  | leave (s : σ)

inductive Exception
  | illegalInstruction
  | fpuUnavailable
  deriving DecidableEq, Repr

/-- What the interpreter does outside the modelled instructions. -/
structure Unmodelled (ρ : Type) where
  HID2 : ρ → BitVec 32
  /-- A floating point instruction works on the FPSCR and the floating point registers. Beside their new
  values it gives what a compare writes to its CR field. -/
  fpu : Op → UGeckoInstruction → (fpscr msr : BitVec 32) → ρ → (BitVec 32 × ρ) × BitVec 4
  /-- Every other instruction, with the address it stands at. -/
  run : Op → UGeckoInstruction → BitVec 32 → PowerPCState ρ → Step (PowerPCState ρ)
  raise : Exception → PowerPCState ρ → PowerPCState ρ
  CheckExceptions : PowerPCState ρ → PowerPCState ρ

namespace Interpreter

variable (m : Unmodelled ρ)

def IsPairedSingleQuantizedNonIndexedInstruction (inst : UGeckoInstruction) : Bool :=
  inst.OPCD == 0x38 || inst.OPCD == 0x39 || inst.OPCD == 0x3C || inst.OPCD == 0x3D

def IsPairedSingleInstruction (inst : UGeckoInstruction) : Bool :=
  inst.OPCD == 4 || IsPairedSingleQuantizedNonIndexedInstruction inst

def IsInvalidPairedSingleExecution (inst : UGeckoInstruction) (s : PowerPCState ρ) : Bool :=
  let pse := (m.HID2 s.rest).getLsbD 29
  let lsqe := (m.HID2 s.rest).getLsbD 31
  (!pse && IsPairedSingleInstruction inst) ||
    (pse && !lsqe && IsPairedSingleQuantizedNonIndexedInstruction inst)

def fpEnabled (s : PowerPCState ρ) : Bool := s.msr.getLsbD 13

/-- The compares and `mcrfs` write the CR field that the instruction names, the others CR1 when they have
the record bit (`UpdateCR1`). -/
def fpuInstruction (inst : UGeckoInstruction) (s : PowerPCState ρ) : PowerPCState ρ :=
  let op := GetOpInfo inst
  let ((fpscr, rest), field) := m.fpu op inst s.fpscr s.msr s.rest
  let s := { s with fpscr := fpscr, rest := rest }
  if op = .fcmpo ∨ op = .fcmpu ∨ op = .mcrfs then s.SetField inst.CRFD field
  else if inst.Rc then s.SetField 1 (fpscr.extractLsb' 28 4)
  else s

/-- The instructions that only work on the floating point unit. -/
def isFpuArithmetic (type : OpType) : Bool :=
  type == .systemFP || type == .doubleFP || type == .singleFP

def RunInterpreterOp (address : BitVec 32) (inst : UGeckoInstruction) (s : PowerPCState ρ) :
    Step (PowerPCState ρ) :=
  let op := GetOpInfo inst
  match interpreterTable op with
  | some f => .next (f inst s)
  | none =>
      if isFpuArithmetic op.type then .next (fpuInstruction m inst s)
      else m.run op inst address s

/-- One instruction of the inner loop of `Interpreter::Run`. An exception that an instruction only records
stays pending there; the block is left where `CheckExceptions` is called. -/
def SingleStepInner (address : BitVec 32) (inst : UGeckoInstruction) (s : PowerPCState ρ) :
    Step (PowerPCState ρ) :=
  if inst.hex = 0 then .leave (m.CheckExceptions s)
  else if IsInvalidPairedSingleExecution m inst s then
    .leave (m.CheckExceptions (m.raise .illegalInstruction s))
  else if fpEnabled s then RunInterpreterOp m address inst s
  else if (GetOpInfo inst).has .useFPU then .leave (m.CheckExceptions (m.raise .fpuUnavailable s))
  else RunInterpreterOp m address inst s

end Interpreter

end Karphin.PowerPC
