import Karphin.Lib.FinNumerals
import Karphin.Lib.Traced

/-!
# The state of the DSP

The registers, the stacks behind four of them, and the memories.
-/

namespace Karphin.DSP

abbrev Word := BitVec 16

/-- Bits of a word, as a number: `(opc >> shift) & ((1 << width) - 1)`. -/
def field (opc : Word) (shift width : Nat) : Fin (2 ^ width) :=
  ⟨(opc >>> shift).toNat % 2 ^ width, Nat.mod_lt _ (Nat.two_pow_pos width)⟩

/-! ## Status register -/

def srCarry : Word := 0x0001
def srOverflow : Word := 0x0002
def srArithZero : Word := 0x0004
def srSign : Word := 0x0008
def srOverS32 : Word := 0x0010
def srTop2Bits : Word := 0x0020
def srLogicZero : Word := 0x0040
def srOverflowSticky : Word := 0x0080
def sr100 : Word := 0x0100
def srIntEnable : Word := 0x0200
def srExtIntEnable : Word := 0x0800
def srMulModify : Word := 0x2000
def sr40ModeBit : Word := 0x4000
def srMulUnsigned : Word := 0x8000
def srCmpMask : Word := 0x3f

def crHalt : Word := 0x0004

/-! ## Registers -/

structure Acc where
  l : Word := 0
  m : Word := 0
  h : BitVec 32 := 0
  deriving DecidableEq

namespace Acc

def val (acc : Acc) : Int := acc.h.toInt * 2 ^ 32 + acc.m.toNat * 2 ^ 16 + acc.l.toNat

def ofInt (value : Int) : Acc where
  l := .ofInt 16 value
  m := .ofInt 16 (value / 2 ^ 16)
  h := .ofInt 32 (value / 2 ^ 32)

end Acc

structure Ax where
  l : Word := 0
  h : Word := 0

structure Prod where
  l : Word := 0
  m : Word := 0
  h : Word := 0
  m2 : Word := 0

structure Regs where
  ar : Fin 4 → Word := fun _ => 0
  ix : Fin 4 → Word := fun _ => 0
  wr : Fin 4 → Word := fun _ => 0
  st : Fin 4 → Word := fun _ => 0
  cr : Word := 0
  sr : Word := 0
  prod : Prod := {}
  ax : Fin 2 → Ax := fun _ => {}
  ac : Fin 2 → Acc := fun _ => {}

inductive Register
  | ar (i : Fin 4)
  | ix (i : Fin 4)
  | wr (i : Fin 4)
  | st (i : Fin 4)
  | ach (i : Fin 2)
  | cr
  | sr
  | prodl
  | prodm
  | prodh
  | prodm2
  | axl (i : Fin 2)
  | axh (i : Fin 2)
  | acl (i : Fin 2)
  | acm (i : Fin 2)
  deriving DecidableEq

def dspRegIX0 : Nat := 0x04
def dspRegWR0 : Nat := 0x08
def dspRegACH0 : Nat := 0x10
def dspRegAXL0 : Nat := 0x18
def dspRegAXL1 : Nat := 0x19
def dspRegAXH0 : Nat := 0x1a
def dspRegACL0 : Nat := 0x1c
def dspRegACM0 : Nat := 0x1e
def dspRegACC0Full : Nat := 0x20
def dspRegAX0Full : Nat := 0x22

/-- The register of a number, of which only the lowest five bits count. -/
def Register.ofNat (reg : Nat) : Register :=
  match reg % 0x20 with
  | 0x00 => .ar 0 | 0x01 => .ar 1 | 0x02 => .ar 2 | 0x03 => .ar 3
  | 0x04 => .ix 0 | 0x05 => .ix 1 | 0x06 => .ix 2 | 0x07 => .ix 3
  | 0x08 => .wr 0 | 0x09 => .wr 1 | 0x0a => .wr 2 | 0x0b => .wr 3
  | 0x0c => .st 0 | 0x0d => .st 1 | 0x0e => .st 2 | 0x0f => .st 3
  | 0x10 => .ach 0 | 0x11 => .ach 1
  | 0x12 => .cr | 0x13 => .sr
  | 0x14 => .prodl | 0x15 => .prodm | 0x16 => .prodh | 0x17 => .prodm2
  | 0x18 => .axl 0 | 0x19 => .axl 1 | 0x1a => .axh 0 | 0x1b => .axh 1
  | 0x1c => .acl 0 | 0x1d => .acl 1 | 0x1e => .acm 0 | _ => .acm 1

/-! ## Memory -/

/-- The memories, and the hardware behind the registers at `0xFxxx`. -/
structure Memory (H : Type) where
  iram : Word → Word
  irom : Word → Word
  dram : Word → Word
  coef : Word → Word
  ifx : H

/-- What the hardware registers do: a read or a write may change any memory (a DMA, the accelerator). -/
structure Hardware (H : Type) where
  readIFX : Memory H → Word → Word × Memory H
  writeIFX : Memory H → Word → Word → Memory H

structure Dsp (H : Type) where
  r : Regs := {}
  pc : Word := 0
  controlReg : Word := 0
  regStackPtrs : Fin 4 → Fin 0x20 := fun _ => 0
  regStacks : Fin 4 → Fin 0x20 → Word := fun _ _ => 0
  mem : Memory H

namespace Dsp

variable {H : Type}

def setRegs (s : Dsp H) (r : Regs) : Dsp H := { s with r }

def readIMEM (s : Dsp H) (address : Word) : Word :=
  match (address >>> 12).toNat with
  | 0 => s.mem.iram (address &&& 0x0fff)
  | 8 => s.mem.irom (address &&& 0x0fff)
  -- unmapped memory
  | _ => 0

def readDMEM (hw : Hardware H) (s : Dsp H) (address : Word) : Word × Dsp H :=
  match (address >>> 12).toNat with
  | 0x0 => (s.mem.dram (address &&& 0x0fff), s)
  | 0x1 => (s.mem.coef (address &&& 0x07ff), s)
  | 0xf => ((hw.readIFX s.mem address).1, { s with mem := (hw.readIFX s.mem address).2 })
  | _ => (0, s)

def writeDMEM (hw : Hardware H) (s : Dsp H) (address value : Word) : Dsp H :=
  match (address >>> 12).toNat with
  | 0x0 => { s with mem := { s.mem with dram := Function.update s.mem.dram (address &&& 0x0fff) value } }
  | 0xf => { s with mem := hw.writeIFX s.mem address value }
  | _ => s

def fetchInstruction (s : Dsp H) : Word × Dsp H := (s.readIMEM s.pc, { s with pc := s.pc + 1 })

/-! ## Stacks -/

def storeStack (s : Dsp H) (i : Fin 4) (val : Word) : Dsp H :=
  let ptr := s.regStackPtrs i + 1
  { s with
    regStackPtrs := Function.update s.regStackPtrs i ptr
    regStacks := Function.update s.regStacks i (Function.update (s.regStacks i) ptr (s.r.st i))
    r := { s.r with st := Function.update s.r.st i val } }

def popStack (s : Dsp H) (i : Fin 4) : Word × Dsp H :=
  let ptr := s.regStackPtrs i
  (s.r.st i, { s with
    r := { s.r with st := Function.update s.r.st i (s.regStacks i ptr) }
    regStackPtrs := Function.update s.regStackPtrs i (ptr - 1) })

/-! ## Reset -/

def dspResetVector : Word := 0x8000

/-- `SDSP::Initialize` -/
def initialState (mem : Memory H) : Dsp H where
  r := { wr := fun _ => 0xffff, sr := srIntEnable ||| srExtIntEnable }
  controlReg := 0x0800 ||| crHalt
  mem := mem

def reset (s : Dsp H) : Dsp H := { s with pc := dspResetVector, r := { s.r with wr := fun _ => 0xffff } }

end Dsp

end Karphin.DSP

/-!
# The operations of the interpreter

What the handlers of the instructions are made of. A handler records which accumulators, secondary accumulators and
address registers it reads or writes, and whether the assertions on the way hold.
-/

namespace Karphin.DSP

open Karphin.Lib

/-! ## Accumulators as numbers -/

def dspConvertLongAcc (val : Int) : Int := Int.bmod val (2 ^ 40)

def dspRoundLongAcc (val : Int) : Int :=
  if val / 0x10000 % 2 ≠ 0 then (val + 0x8000) / 0x10000 * 0x10000 else (val + 0x7fff) / 0x10000 * 0x10000

def toU64 (val : Int) : Nat := (val % 2 ^ 64).toNat

def isCarryAdd (val result : Int) : Bool := toU64 result < toU64 val

def isCarrySubtract (val result : Int) : Bool := toU64 result ≤ toU64 val

def isOverflow (val1 val2 res : Int) : Bool :=
  (decide (val1 < 0) != decide (res < 0)) && (decide (val2 < 0) != decide (res < 0))

def isOverS32 (acc : Int) : Bool := acc ≠ Int.bmod acc (2 ^ 32)

def isProperlySignExtended (val : Int) : Bool := val / 2 ^ 39 = 0 || val / 2 ^ 39 = -1

/-! ## Flags -/

def setIf (condition : Bool) (flag sr : Word) : Word := if condition then sr ||| flag else sr

def updateSR16 (value : Int) (carry overflow overS32 : Bool) (sr : Word) : Word :=
  let top := (BitVec.ofInt 16 value >>> 14).toNat
  sr &&& ~~~srCmpMask |> setIf carry srCarry |> setIf overflow srOverflow |> setIf overflow srOverflowSticky
    |> setIf (value = 0) srArithZero |> setIf (value < 0) srSign |> setIf overS32 srOverS32
    |> setIf (top = 0 || top = 3) srTop2Bits

def updateSR64 (value : Int) (carry overflow : Bool) (sr : Word) : Word :=
  let top := value / 0x40000000 % 4
  sr &&& ~~~srCmpMask |> setIf carry srCarry |> setIf overflow srOverflow |> setIf overflow srOverflowSticky
    |> setIf (value = 0) srArithZero |> setIf (value < 0) srSign |> setIf (isOverS32 value) srOverS32
    |> setIf (top = 0 || top = 3) srTop2Bits

namespace Dsp

variable {H : Type}

def isSRFlagSet (s : Dsp H) (flag : Word) : Bool := s.r.sr &&& flag ≠ 0

def setSR (s : Dsp H) (sr : Word) : Dsp H := { s with r := { s.r with sr } }

def checkCondition (s : Dsp H) (condition : Fin 16) : Bool :=
  let isLess := s.isSRFlagSet srOverflow != s.isSRFlagSet srSign
  let isZero := s.isSRFlagSet srArithZero
  let isConditionB := !(s.isSRFlagSet srOverS32 || s.isSRFlagSet srTop2Bits) || isZero
  match condition.val with
  | 0x0 => !isLess
  | 0x1 => isLess
  | 0x2 => !isLess && !isZero
  | 0x3 => isLess || isZero
  | 0x4 => !isZero
  | 0x5 => isZero
  | 0x6 => !s.isSRFlagSet srCarry
  | 0x7 => s.isSRFlagSet srCarry
  | 0x8 => !s.isSRFlagSet srOverS32
  | 0x9 => s.isSRFlagSet srOverS32
  | 0xa => !isConditionB
  | 0xb => isConditionB
  | 0xc => !s.isSRFlagSet srLogicZero
  | 0xd => s.isSRFlagSet srLogicZero
  | 0xe => s.isSRFlagSet srOverflow
  | _ => true

/-! ## Address registers -/

def incrementAddressRegister (s : Dsp H) (reg : Fin 4) : Word :=
  let ar : BitVec 32 := (s.r.ar reg).setWidth 32
  let wr : BitVec 32 := (s.r.wr reg).setWidth 32
  let nar := ar + 1
  (if nar ^^^ ar > (wr ||| 1) <<< 1 then nar - (wr + 1) else nar).setWidth 16

def decrementAddressRegister (s : Dsp H) (reg : Fin 4) : Word :=
  let ar : BitVec 32 := (s.r.ar reg).setWidth 32
  let wr : BitVec 32 := (s.r.wr reg).setWidth 32
  let nar := ar + wr
  (if (nar ^^^ ar) &&& ((wr ||| 1) <<< 1) > wr then nar - (wr + 1) else nar).setWidth 16

def increaseAddressRegister (s : Dsp H) (reg : Fin 4) (ix : Word) : Word :=
  let ar : BitVec 32 := (s.r.ar reg).setWidth 32
  let wr : BitVec 32 := (s.r.wr reg).setWidth 32
  let ix : BitVec 32 := ix.signExtend 32
  let mx := (wr ||| 1) <<< 1
  let nar := ar + ix
  let dar := (nar ^^^ ar ^^^ ix) &&& mx
  let nar :=
    if 0 ≤ ix.toInt then if dar > wr then nar - (wr + 1) else nar
    else if ((nar + wr + 1) ^^^ nar) &&& dar ≤ wr then nar + (wr + 1)
    else nar
  nar.setWidth 16

def decreaseAddressRegister (s : Dsp H) (reg : Fin 4) (ix : Word) : Word :=
  let ar : BitVec 32 := (s.r.ar reg).setWidth 32
  let wr : BitVec 32 := (s.r.wr reg).setWidth 32
  let ix : BitVec 32 := ix.signExtend 32
  let mx := (wr ||| 1) <<< 1
  let nar := ar - ix
  let dar := (nar ^^^ ar ^^^ ~~~ix) &&& mx
  let nar :=
    if ix > 0xFFFF8000 then if dar > wr then nar - (wr + 1) else nar
    else if ((nar + wr + 1) ^^^ nar) &&& dar ≤ wr then nar + (wr + 1)
    else nar
  nar.setWidth 16

/-! ## Accumulators and the product -/

def longAcc (s : Dsp H) (reg : Fin 2) : Int := (s.r.ac reg).val

def setAcc (s : Dsp H) (reg : Fin 2) (acc : Acc) : Dsp H :=
  { s with r := { s.r with ac := Function.update s.r.ac reg acc } }

/-- `SetLongAcc`: 40-bit sign extension. -/
def setLongAcc (s : Dsp H) (reg : Fin 2) (value : Int) : Dsp H := s.setAcc reg (.ofInt (dspConvertLongAcc value))

def longACX (s : Dsp H) (reg : Fin 2) : Int := ((s.r.ax reg).h ++ (s.r.ax reg).l).toInt

def longProduct (s : Dsp H) : Int :=
  let prod := s.r.prod
  (prod.h.setWidth 8).toInt * 2 ^ 32 + ((prod.m.toNat + prod.m2.toNat) * 2 ^ 16 + prod.l.toNat : Nat)

def longProductRounded (s : Dsp H) : Int :=
  let prod := s.longProduct
  if prod / 0x10000 % 2 ≠ 0 then (prod + 0x8000) / 0x10000 * 0x10000 else (prod + 0x7fff) / 0x10000 * 0x10000

/-- `SetLongProduct`: the lowest 40 bits. -/
def setLongProduct (s : Dsp H) (value : Int) : Dsp H :=
  let val := value % 2 ^ 40
  { s with r := { s.r with
    prod := { l := .ofInt 16 val, m := .ofInt 16 (val / 2 ^ 16), h := .ofInt 16 (val / 2 ^ 32), m2 := 0 } } }

inductive MulSign
  | signed
  | unsigned
  | mixed

def multiplyProduct (s : Dsp H) (a b : Word) (sign : MulSign) : Int :=
  let prod : Int :=
    match sign, s.isSRFlagSet srMulUnsigned with
    | .unsigned, true => a.toNat * b.toNat
    | .mixed, true => a.toNat * b.toInt
    | _, _ => a.toInt * b.toInt
  if s.isSRFlagSet srMulModify then prod else prod * 2

/-- `MultiplyMulX`: the parts that are selected say which operands may be unsigned. -/
def multiplyMulX (s : Dsp H) (axh0 axh1 : Fin 2) (val1 val2 : Word) : Int :=
  match axh0, axh1 with
  | 0, 0 => s.multiplyProduct val1 val2 .unsigned
  | 0, 1 => s.multiplyProduct val1 val2 .mixed
  | 1, 0 => s.multiplyProduct val2 val1 .mixed
  | 1, 1 => s.multiplyProduct val1 val2 .signed

/-! ## Registers by number -/

def readAccM (s : Dsp H) (i : Fin 2) : Word :=
  if s.isSRFlagSet sr40ModeBit && isOverS32 (s.longAcc i) then if 0 < s.longAcc i then 0x7fff else 0x8000
  else (s.r.ac i).m

def opReadRegister (s : Dsp H) : Register → Word × Dsp H
  | .st i => s.popStack i
  | .ar i => (s.r.ar i, s)
  | .ix i => (s.r.ix i, s)
  | .wr i => (s.r.wr i, s)
  | .ach i => ((s.r.ac i).h.setWidth 16, s)
  | .cr => (s.r.cr, s)
  | .sr => (s.r.sr, s)
  | .prodl => (s.r.prod.l, s)
  | .prodm => (s.r.prod.m, s)
  | .prodh => (s.r.prod.h, s)
  | .prodm2 => (s.r.prod.m2, s)
  | .axl i => ((s.r.ax i).l, s)
  | .axh i => ((s.r.ax i).h, s)
  | .acl i => ((s.r.ac i).l, s)
  | .acm i => (s.readAccM i, s)

def opWriteRegister (s : Dsp H) (val : Word) : Register → Dsp H
  -- sign extended from the lowest 8 bits
  | .ach i => s.setAcc i { s.r.ac i with h := (val.setWidth 8).signExtend 32 }
  | .st i => s.storeStack i val
  | .ar i => s.setRegs { s.r with ar := Function.update s.r.ar i val }
  | .ix i => s.setRegs { s.r with ix := Function.update s.r.ix i val }
  | .wr i => s.setRegs { s.r with wr := Function.update s.r.wr i val }
  | .cr => s.setRegs { s.r with cr := val &&& 0x00ff }
  | .sr => s.setRegs { s.r with sr := val &&& ~~~sr100 }
  | .prodl => s.setRegs { s.r with prod := { s.r.prod with l := val } }
  | .prodm => s.setRegs { s.r with prod := { s.r.prod with m := val } }
  | .prodh => s.setRegs { s.r with prod := { s.r.prod with h := val &&& 0x00ff } }
  | .prodm2 => s.setRegs { s.r with prod := { s.r.prod with m2 := val } }
  | .axl i => s.setRegs { s.r with ax := Function.update s.r.ax i { s.r.ax i with l := val } }
  | .axh i => s.setRegs { s.r with ax := Function.update s.r.ax i { s.r.ax i with h := val } }
  | .acl i => s.setAcc i { s.r.ac i with l := val }
  | .acm i => s.setAcc i { s.r.ac i with m := val }

def conditionalExtendAccum (s : Dsp H) : Register → Dsp H
  | .acm i =>
      if s.isSRFlagSet sr40ModeBit then
        s.setAcc i { s.r.ac i with h := if (s.r.ac i).m &&& 0x8000 ≠ 0 then 0xFFFFFFFF else 0, l := 0 }
      else s
  | _ => s

end Dsp

/-! ## Handlers -/

/-- What the operands of an instruction stand for: an accumulator, a part of a secondary one, or an address register. -/
inductive Operand
  | ac (i : Fin 2)
  | axl (i : Fin 2)
  | axh (i : Fin 2)
  | ar (i : Fin 4)
  deriving DecidableEq

def Register.operands : Register → List Operand
  | .ar i => [.ar i]
  | .ach i => [.ac i]
  | .acl i => [.ac i]
  | .acm i => [.ac i]
  | .axl i => [.axl i]
  | .axh i => [.axh i]
  | _ => []

abbrev Exec (H α : Type) : Type := Traced (Dsp H) Operand α

variable {H : Type}

def getLongAcc (reg : Fin 2) : Exec H Int := .read [.ac reg] (·.longAcc reg)
def setLongAcc (reg : Fin 2) (value : Int) : Exec H Unit := .write [.ac reg] (·.setLongAcc reg value)
def getAccMid (reg : Fin 2) : Exec H Word := .read [.ac reg] (·.r.ac reg |>.m)
def setAccMid (reg : Fin 2) (m : Word) : Exec H Unit := .write [.ac reg] fun s => s.setAcc reg { s.r.ac reg with m }
def getAXLow (reg : Fin 2) : Exec H Word := .read [.axl reg] (·.r.ax reg |>.l)
def getAXHigh (reg : Fin 2) : Exec H Word := .read [.axh reg] (·.r.ax reg |>.h)
def getLongACX (reg : Fin 2) : Exec H Int := .read [.axl reg, .axh reg] (·.longACX reg)
def getAr (reg : Fin 4) : Exec H Word := .read [.ar reg] (·.r.ar reg)
def setAr (reg : Fin 4) (val : Word) : Exec H Unit :=
  .write [.ar reg] fun s => s.setRegs { s.r with ar := Function.update s.r.ar reg val }
def getLongProduct : Exec H Int := .read [] (·.longProduct)
def getLongProductRounded : Exec H Int := .read [] (·.longProductRounded)
def setLongProduct (value : Int) : Exec H Unit := .write [] (·.setLongProduct value)
def incrementAddressRegister (reg : Fin 4) : Exec H Word := .read [.ar reg] (·.incrementAddressRegister reg)
def decrementAddressRegister (reg : Fin 4) : Exec H Word := .read [.ar reg] (·.decrementAddressRegister reg)
def increaseAddressRegister (reg : Fin 4) (ix : Fin 4) : Exec H Word :=
  .read [.ar reg] fun s => s.increaseAddressRegister reg (s.r.ix ix)
def decreaseAddressRegister (reg : Fin 4) (ix : Fin 4) : Exec H Word :=
  .read [.ar reg] fun s => s.decreaseAddressRegister reg (s.r.ix ix)
def opReadRegister (reg : Nat) : Exec H Word := .take (Register.ofNat reg).operands (·.opReadRegister (.ofNat reg))
def opWriteRegister (reg : Nat) (val : Word) : Exec H Unit :=
  .write (Register.ofNat reg).operands (·.opWriteRegister val (.ofNat reg))
def conditionalExtendAccum (reg : Nat) : Exec H Unit :=
  .write (match Register.ofNat reg with | .acm i => [.ac i] | _ => []) (·.conditionalExtendAccum (.ofNat reg))
def fetchInstruction : Exec H Word := .take [] (·.fetchInstruction)
def checkCondition (condition : Fin 16) : Exec H Bool := .read [] (·.checkCondition condition)
def multiply (a b : Word) (sign : Dsp.MulSign) : Exec H Int := .read [] (·.multiplyProduct a b sign)

/-! ## Flags -/

def setSR (f : Word → Word) : Exec H Unit := .write [] fun s => s.setSR (f s.r.sr)

def updateSRLogicZero (value : Bool) : Exec H Unit :=
  setSR fun sr => if value then sr ||| srLogicZero else sr &&& ~~~srLogicZero

def updateSR64With (value : Int) (carry overflow : Bool) : Exec H Unit := do
  .assert (isProperlySignExtended value)
  setSR (updateSR64 value carry overflow)

def updateSR64Value (value : Int) : Exec H Unit := updateSR64With value false false

def sameLongAcc (a b : Int) : Bool := a % 2 ^ 40 = b % 2 ^ 40

def updateSR64Add (val1 val2 result : Int) : Exec H Unit := do
  .assert (sameLongAcc (val1 + val2) result)
  .assert (isProperlySignExtended val1)
  .assert (isProperlySignExtended val2)
  updateSR64With result (isCarryAdd val1 result) (isOverflow val1 val2 result)

def updateSR64Sub (val1 val2 result : Int) : Exec H Unit := do
  .assert (sameLongAcc (val1 - val2) result)
  .assert (isProperlySignExtended val1)
  .assert (isProperlySignExtended val2)
  updateSR64With result (isCarrySubtract val1 result) (isOverflow val1 (-val2) result)

end Karphin.DSP
