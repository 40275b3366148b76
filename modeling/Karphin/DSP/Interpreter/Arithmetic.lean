import Karphin.DSP.Interpreter.Defs

/-!
# Arithmetic and accumulator control
-/

namespace Karphin.DSP.Interpreter

open Karphin.Lib

variable {H : Type}

/-! ## Families -/

/-- A value at the level of the middle part: `<<= 16`. -/
def toMid (x : Exec H Word) : Exec H Int := do return (← x).toInt * 0x10000

def axPart (reg : Fin 4) : Exec H Word :=
  match reg.val with
  | 0 => getAXLow 0
  | 1 => getAXLow 1
  | 2 => getAXHigh 0
  | _ => getAXHigh 1

def shortImmediate (opc : Word) : Int := (opc.setWidth 8).toInt * 0x10000

def addTo (dreg : Fin 2) (operand : Exec H Int) : Exec H Unit := do
  let acc ← getLongAcc dreg
  let x ← operand
  setLongAcc dreg (acc + x)
  updateSR64Add acc x (← getLongAcc dreg)

def subFrom (dreg : Fin 2) (operand : Exec H Int) : Exec H Unit := do
  let acc ← getLongAcc dreg
  let x ← operand
  setLongAcc dreg (acc - x)
  updateSR64Sub acc x (← getLongAcc dreg)

def compare (sreg : Fin 2) (operand : Exec H Int) : Exec H Unit := do
  let acc ← getLongAcc sreg
  let x ← operand
  updateSR64Sub acc x (dspConvertLongAcc (acc - x))

def moveTo (dreg : Fin 2) (value : Exec H Int) : Exec H Unit := do
  let acc ← value
  setLongAcc dreg acc
  updateSR64Value acc

def storeTo (dreg : Fin 2) (value : Exec H Int) : Exec H Unit := do
  let acc ← value
  setLongAcc dreg acc
  updateSR64Value (← getLongAcc dreg)

def logicMid (dreg : Fin 2) (f : Word → Word → Word) (operand : Exec H Word) : Exec H Unit := do
  let accm := f (← getAccMid dreg) (← operand)
  setAccMid dreg accm
  let overS32 := isOverS32 (← getLongAcc dreg)
  setSR (updateSR16 accm.toInt false false overS32)

def testMid (reg : Fin 2) (f : Word → Word → Bool) : Exec H Unit := do
  let imm ← fetchInstruction
  let val ← getAccMid reg
  updateSRLogicZero (f val imm)

def shiftOf (val : Word) : Int :=
  if (val &&& 0x3f) = 0 then 0
  else if (val &&& 0x40) ≠ 0 then -0x40 + (val &&& 0x3f).toNat
  else (val &&& 0x3f).toNat

def shiftRightBy (acc shift : Int) : Int :=
  if 0 < shift then acc / 2 ^ shift.toNat else if shift < 0 then acc * 2 ^ (-shift).toNat else acc

def shiftLeftBy (acc shift : Int) : Int :=
  if 0 < shift then acc * 2 ^ shift.toNat else if shift < 0 then acc / 2 ^ (-shift).toNat else acc

def unextended (acc : Int) : Int := acc % 2 ^ 40

/-- The shift to the right of an instruction: the immediate is negative. -/
def rightShift (opc : Word) : Nat := if opc &&& 0x3f = 0 then 0 else 0x40 - (opc &&& 0x3f).toNat

def opposite (reg : Fin 2) : Fin 2 := 1 - reg

/-! ## Handlers -/

def clr (opc : Word) : Exec H Unit := moveTo (field opc 11 1) (pure 0)

def clrl (opc : Word) : Exec H Unit :=
  moveTo (field opc 8 1) do return dspRoundLongAcc (← getLongAcc (field opc 8 1))

def andcf (opc : Word) : Exec H Unit := testMid (field opc 8 1) fun val imm => val &&& imm = imm

def andf (opc : Word) : Exec H Unit := testMid (field opc 8 1) fun val imm => val &&& imm = 0

def tst (opc : Word) : Exec H Unit := do updateSR64Value (← getLongAcc (field opc 11 1))

def tstaxh (opc : Word) : Exec H Unit := do
  let val ← getAXHigh (field opc 8 1)
  setSR (updateSR16 val.toInt false false false)

def cmp (_ : Word) : Exec H Unit := compare 0 (getLongAcc 1)

def cmpaxh (opc : Word) : Exec H Unit := compare (field opc 11 1) (toMid (getAXHigh (field opc 12 1)))

def cmpi (opc : Word) : Exec H Unit := compare (field opc 8 1) (toMid fetchInstruction)

def cmpis (opc : Word) : Exec H Unit := compare (field opc 8 1) (pure (shortImmediate opc))

def xorr (opc : Word) : Exec H Unit := logicMid (field opc 8 1) (· ^^^ ·) (getAXHigh (field opc 9 1))
def andr (opc : Word) : Exec H Unit := logicMid (field opc 8 1) (· &&& ·) (getAXHigh (field opc 9 1))
def orr (opc : Word) : Exec H Unit := logicMid (field opc 8 1) (· ||| ·) (getAXHigh (field opc 9 1))
def andc (opc : Word) : Exec H Unit := logicMid (field opc 8 1) (· &&& ·) (getAccMid (opposite (field opc 8 1)))
def orc (opc : Word) : Exec H Unit := logicMid (field opc 8 1) (· ||| ·) (getAccMid (opposite (field opc 8 1)))
def xorc (opc : Word) : Exec H Unit := logicMid (field opc 8 1) (· ^^^ ·) (getAccMid (opposite (field opc 8 1)))
def notc (opc : Word) : Exec H Unit := logicMid (field opc 8 1) (· ^^^ ·) (pure 0xffff)
def xori (opc : Word) : Exec H Unit := logicMid (field opc 8 1) (· ^^^ ·) fetchInstruction
def andi (opc : Word) : Exec H Unit := logicMid (field opc 8 1) (· &&& ·) fetchInstruction
def ori (opc : Word) : Exec H Unit := logicMid (field opc 8 1) (· ||| ·) fetchInstruction

def addr (opc : Word) : Exec H Unit := addTo (field opc 8 1) (toMid (axPart (field opc 9 2)))
def addax (opc : Word) : Exec H Unit := addTo (field opc 8 1) (getLongACX (field opc 9 1))
def add (opc : Word) : Exec H Unit := addTo (field opc 8 1) (getLongAcc (opposite (field opc 8 1)))
def addp (opc : Word) : Exec H Unit := addTo (field opc 8 1) getLongProduct
def addaxl (opc : Word) : Exec H Unit := addTo (field opc 8 1) do return ((← getAXLow (field opc 9 1)).toNat : Int)
def addi (opc : Word) : Exec H Unit := addTo (field opc 8 1) (toMid fetchInstruction)
def addis (opc : Word) : Exec H Unit := addTo (field opc 8 1) (pure (shortImmediate opc))
def incm (opc : Word) : Exec H Unit := addTo (field opc 8 1) (pure 0x10000)
def inc (opc : Word) : Exec H Unit := addTo (field opc 8 1) (pure 1)

def subr (opc : Word) : Exec H Unit := subFrom (field opc 8 1) (toMid (axPart (field opc 9 2)))
def subax (opc : Word) : Exec H Unit := subFrom (field opc 8 1) (getLongACX (field opc 9 1))
def sub (opc : Word) : Exec H Unit := subFrom (field opc 8 1) (getLongAcc (opposite (field opc 8 1)))
def subp (opc : Word) : Exec H Unit := subFrom (field opc 8 1) getLongProduct
def decm (opc : Word) : Exec H Unit := subFrom (field opc 8 1) (pure 0x10000)
def dec (opc : Word) : Exec H Unit := subFrom (field opc 8 1) (pure 1)

def neg (opc : Word) : Exec H Unit := do
  let acc ← getLongAcc (field opc 8 1)
  setLongAcc (field opc 8 1) (0 - acc)
  updateSR64Sub 0 acc (← getLongAcc (field opc 8 1))

def abs (opc : Word) : Exec H Unit :=
  storeTo (field opc 11 1) do
    let acc ← getLongAcc (field opc 11 1)
    return if acc < 0 then 0 - acc else acc

def movr (opc : Word) : Exec H Unit := moveTo (field opc 8 1) (toMid (axPart (field opc 9 2)))
def movax (opc : Word) : Exec H Unit := moveTo (field opc 8 1) (getLongACX (field opc 9 1))
def mov (opc : Word) : Exec H Unit := moveTo (field opc 8 1) (getLongAcc (opposite (field opc 8 1)))

def lsl16 (opc : Word) : Exec H Unit :=
  storeTo (field opc 8 1) do return (← getLongAcc (field opc 8 1)) * 2 ^ 16

def lsr16 (opc : Word) : Exec H Unit :=
  storeTo (field opc 8 1) do return unextended (← getLongAcc (field opc 8 1)) / 2 ^ 16

def asr16 (opc : Word) : Exec H Unit :=
  storeTo (field opc 11 1) do return (← getLongAcc (field opc 11 1)) / 2 ^ 16

def lsl (opc : Word) : Exec H Unit :=
  storeTo (field opc 8 1) do return (← getLongAcc (field opc 8 1)) * 2 ^ (opc &&& 0x3f).toNat

def lsr (opc : Word) : Exec H Unit :=
  storeTo (field opc 8 1) do return unextended (← getLongAcc (field opc 8 1)) / 2 ^ rightShift opc

def asl (opc : Word) : Exec H Unit :=
  storeTo (field opc 8 1) do return (← getLongAcc (field opc 8 1)) * 2 ^ (opc &&& 0x3f).toNat

def asr (opc : Word) : Exec H Unit :=
  storeTo (field opc 8 1) do return (← getLongAcc (field opc 8 1)) / 2 ^ rightShift opc

def lsrn (_ : Word) : Exec H Unit :=
  storeTo 0 do
    let shift := shiftOf (← getAccMid 1)
    return shiftRightBy (unextended (← getLongAcc 0)) shift

def asrn (_ : Word) : Exec H Unit :=
  storeTo 0 do
    let shift := shiftOf (← getAccMid 1)
    return shiftRightBy (← getLongAcc 0) shift

def lsrnrx (opc : Word) : Exec H Unit :=
  storeTo (field opc 8 1) do
    let shift := shiftOf (← getAXHigh (field opc 9 1))
    return shiftLeftBy (unextended (← getLongAcc (field opc 8 1))) shift

def asrnrx (opc : Word) : Exec H Unit :=
  storeTo (field opc 8 1) do
    let shift := shiftOf (← getAXHigh (field opc 9 1))
    return shiftLeftBy (← getLongAcc (field opc 8 1)) shift

def lsrnr (opc : Word) : Exec H Unit :=
  storeTo (field opc 8 1) do
    let shift := shiftOf (← getAccMid (opposite (field opc 8 1)))
    return shiftLeftBy (unextended (← getLongAcc (field opc 8 1))) shift

def asrnr (opc : Word) : Exec H Unit :=
  storeTo (field opc 8 1) do
    let shift := shiftOf (← getAccMid (opposite (field opc 8 1)))
    return shiftLeftBy (← getLongAcc (field opc 8 1)) shift

end Karphin.DSP.Interpreter

/-!
## The multiplier and the product register
-/

namespace Karphin.DSP.Interpreter

open Karphin.Lib

variable {H : Type}

/-! ## Families -/

def productTo (prod : Exec H Int) : Exec H Unit := do setLongProduct (← prod)

def multiplyWith (rreg : Fin 2) (acc prod : Exec H Int) : Exec H Unit := do
  let acc ← acc
  let prod ← prod
  setLongProduct prod
  setLongAcc rreg acc
  updateSR64Value (← getLongAcc rreg)

def accPlusProduct (rreg : Fin 2) : Exec H Int := do return (← getLongAcc rreg) + (← getLongProduct)

def axProduct (sreg : Fin 2) : Exec H Int := do
  let axl ← getAXLow sreg
  let axh ← getAXHigh sreg
  multiply axl axh .signed

def selectAX (reg : Fin 2) (part : Fin 2) : Exec H Word := if part = 0 then getAXLow reg else getAXHigh reg

def mulxProduct (sreg treg : Fin 2) : Exec H Int := do
  let val1 ← selectAX 0 sreg
  let val2 ← selectAX 1 treg
  .read [] (·.multiplyMulX sreg treg val1 val2)

def mulcProduct (sreg treg : Fin 2) : Exec H Int := do
  let accm ← getAccMid sreg
  let axh ← getAXHigh treg
  multiply accm axh .signed

def multiplyAdd (a b : Word) : Exec H Int := do return (← getLongProduct) + (← multiply a b .signed)

def multiplySub (a b : Word) : Exec H Int := do return (← getLongProduct) - (← multiply a b .signed)

/-! ## Handlers -/

def clrp (_ : Word) : Exec H Unit :=
  .write [] fun s => s.setRegs { s.r with prod := { l := 0x0000, m := 0xfff0, h := 0x00ff, m2 := 0x0010 } }

def tstprod (_ : Word) : Exec H Unit := do updateSR64Value (← getLongProduct)

def movp (opc : Word) : Exec H Unit := moveTo (field opc 8 1) getLongProduct

def movnp (opc : Word) : Exec H Unit := moveTo (field opc 8 1) do return -(← getLongProduct)

def movpz (opc : Word) : Exec H Unit := moveTo (field opc 8 1) getLongProductRounded

def addpaxz (opc : Word) : Exec H Unit := do
  let oldprod ← getLongProduct
  let prod ← getLongProductRounded
  let ax ← getLongACX (field opc 9 1)
  setLongAcc (field opc 8 1) (prod + ax / 0x10000 * 0x10000)
  let res ← getLongAcc (field opc 8 1)
  updateSR64With res (isCarryAdd oldprod res) false

def mulaxh (_ : Word) : Exec H Unit := productTo do
  let value ← getAXHigh 0
  multiply value value .signed

def mul (opc : Word) : Exec H Unit := productTo do
  let axl ← getAXLow (field opc 11 1)
  let axh ← getAXHigh (field opc 11 1)
  multiply axh axl .signed

def mulac (opc : Word) : Exec H Unit :=
  multiplyWith (field opc 8 1) (accPlusProduct (field opc 8 1)) (axProduct (field opc 11 1))

def mulmv (opc : Word) : Exec H Unit := multiplyWith (field opc 8 1) getLongProduct (axProduct (field opc 11 1))

def mulmvz (opc : Word) : Exec H Unit :=
  multiplyWith (field opc 8 1) getLongProductRounded (axProduct (field opc 11 1))

def mulx (opc : Word) : Exec H Unit := productTo (mulxProduct (field opc 12 1) (field opc 11 1))

def mulxac (opc : Word) : Exec H Unit :=
  multiplyWith (field opc 8 1) (accPlusProduct (field opc 8 1)) (mulxProduct (field opc 12 1) (field opc 11 1))

def mulxmv (opc : Word) : Exec H Unit :=
  multiplyWith (field opc 8 1) getLongProduct (mulxProduct (field opc 12 1) (field opc 11 1))

def mulxmvz (opc : Word) : Exec H Unit :=
  multiplyWith (field opc 8 1) getLongProductRounded (mulxProduct (field opc 12 1) (field opc 11 1))

def mulc (opc : Word) : Exec H Unit := productTo (mulcProduct (field opc 12 1) (field opc 11 1))

def mulcac (opc : Word) : Exec H Unit :=
  multiplyWith (field opc 8 1) (accPlusProduct (field opc 8 1)) (mulcProduct (field opc 12 1) (field opc 11 1))

def mulcmv (opc : Word) : Exec H Unit :=
  multiplyWith (field opc 8 1) getLongProduct (mulcProduct (field opc 12 1) (field opc 11 1))

def mulcmvz (opc : Word) : Exec H Unit :=
  multiplyWith (field opc 8 1) getLongProductRounded (mulcProduct (field opc 12 1) (field opc 11 1))

def maddx (opc : Word) : Exec H Unit := productTo do
  multiplyAdd (← selectAX 0 (field opc 9 1)) (← selectAX 1 (field opc 8 1))

def msubx (opc : Word) : Exec H Unit := productTo do
  multiplySub (← selectAX 0 (field opc 9 1)) (← selectAX 1 (field opc 8 1))

def maddc (opc : Word) : Exec H Unit := productTo do
  multiplyAdd (← getAccMid (field opc 9 1)) (← getAXHigh (field opc 8 1))

def msubc (opc : Word) : Exec H Unit := productTo do
  multiplySub (← getAccMid (field opc 9 1)) (← getAXHigh (field opc 8 1))

def madd (opc : Word) : Exec H Unit := productTo do
  multiplyAdd (← getAXLow (field opc 8 1)) (← getAXHigh (field opc 8 1))

def msub (opc : Word) : Exec H Unit := productTo do
  multiplySub (← getAXLow (field opc 8 1)) (← getAXHigh (field opc 8 1))

end Karphin.DSP.Interpreter

/-!
## Extended opcodes

They see the registers as the main opcode does; what they write to registers goes into a log that is applied after it.
-/

namespace Karphin.DSP.Interpreter

variable {H : Type}

abbrev WriteBackLog : Type := List (Nat × Word)

def isSameMemArea (a b : Word) : Bool := a >>> 10 = b >>> 10

/-! ## Address registers -/

def increment (s : Dsp H) (reg : Fin 4) : Word := s.incrementAddressRegister reg
def increase (s : Dsp H) (reg : Fin 4) : Word := s.increaseAddressRegister reg (s.r.ix reg)

def dr (opc : Word) (s : Dsp H) : WriteBackLog × Dsp H :=
  ([((field opc 0 2).val, s.decrementAddressRegister (field opc 0 2))], s)

def ir (opc : Word) (s : Dsp H) : WriteBackLog × Dsp H := ([((field opc 0 2).val, increment s (field opc 0 2))], s)

def nr (opc : Word) (s : Dsp H) : WriteBackLog × Dsp H := ([((field opc 0 2).val, increase s (field opc 0 2))], s)

/-! ## Moves, loads and stores -/

def mv (opc : Word) (s : Dsp H) : WriteBackLog × Dsp H :=
  let read := s.opReadRegister (.ofNat ((field opc 0 2) + dspRegACL0))
  ([((field opc 2 2) + dspRegAXL0, read.1)], read.2)

def storeExt (next : Dsp H → Fin 4 → Word) (hw : Hardware H) (opc : Word) (s : Dsp H) : WriteBackLog × Dsp H :=
  let dreg := field opc 0 2
  let read := s.opReadRegister (.ofNat ((field opc 3 2) + dspRegACL0))
  ([(dreg.val, next s dreg)], read.2.writeDMEM hw (s.r.ar dreg) read.1)

def s (hw : Hardware H) (opc : Word) (s : Dsp H) : WriteBackLog × Dsp H := storeExt increment hw opc s
def sn (hw : Hardware H) (opc : Word) (s : Dsp H) : WriteBackLog × Dsp H := storeExt increase hw opc s

def loadExt (next : Dsp H → Fin 4 → Word) (hw : Hardware H) (opc : Word) (s : Dsp H) : WriteBackLog × Dsp H :=
  let sreg := field opc 0 2
  let dreg := (field opc 3 3) + dspRegAXL0
  let read := s.readDMEM hw (s.r.ar sreg)
  if dspRegACM0 ≤ dreg ∧ s.isSRFlagSet sr40ModeBit then
    ([(dreg - dspRegACM0 + dspRegACH0, if read.1 &&& 0x8000 ≠ 0 then 0xFFFF else 0x0000), (dreg, read.1),
      (dreg - dspRegACM0 + dspRegACL0, 0), (sreg.val, next s sreg)], read.2)
  else ([(dreg, read.1), (sreg.val, next s sreg)], read.2)

def l (hw : Hardware H) (opc : Word) (s : Dsp H) : WriteBackLog × Dsp H := loadExt increment hw opc s
def ln (hw : Hardware H) (opc : Word) (s : Dsp H) : WriteBackLog × Dsp H := loadExt increase hw opc s

/-! ## A load and a store at once -/

/-- A middle part is stored through one of `$ar0` and `$ar3`, and a part of a secondary accumulator loaded through the
other. -/
def loadStoreExt (store load : Fin 4) (next3 next0 : Dsp H → Fin 4 → Word) (hw : Hardware H) (opc : Word) (s : Dsp H) :
    WriteBackLog × Dsp H :=
  let stored := s.opReadRegister (.ofNat ((field opc 0 1) + dspRegACM0))
  let s' := stored.2.writeDMEM hw (s.r.ar store) stored.1
  let read := s'.readDMEM hw (s.r.ar load)
  ([((field opc 4 2) + dspRegAXL0, read.1), (3, next3 s 3), (0, next0 s 0)], read.2)

def ls (hw : Hardware H) (opc : Word) (s : Dsp H) : WriteBackLog × Dsp H := loadStoreExt 3 0 increment increment hw opc s
def lsn (hw : Hardware H) (opc : Word) (s : Dsp H) : WriteBackLog × Dsp H := loadStoreExt 3 0 increment increase hw opc s
def lsm (hw : Hardware H) (opc : Word) (s : Dsp H) : WriteBackLog × Dsp H := loadStoreExt 3 0 increase increment hw opc s
def lsnm (hw : Hardware H) (opc : Word) (s : Dsp H) : WriteBackLog × Dsp H := loadStoreExt 3 0 increase increase hw opc s
def sl (hw : Hardware H) (opc : Word) (s : Dsp H) : WriteBackLog × Dsp H := loadStoreExt 0 3 increment increment hw opc s
def sln (hw : Hardware H) (opc : Word) (s : Dsp H) : WriteBackLog × Dsp H := loadStoreExt 0 3 increment increase hw opc s
def slm (hw : Hardware H) (opc : Word) (s : Dsp H) : WriteBackLog × Dsp H := loadStoreExt 0 3 increase increment hw opc s
def slnm (hw : Hardware H) (opc : Word) (s : Dsp H) : WriteBackLog × Dsp H := loadStoreExt 0 3 increase increase hw opc s

/-! ## Two loads at once -/

def loadTwice (next next3 : Dsp H → Fin 4 → Word) (hw : Hardware H) (first second : Nat) (sreg : Fin 4) (s : Dsp H) :
    WriteBackLog × Dsp H :=
  let read1 := s.readDMEM hw (s.r.ar sreg)
  let read2 := read1.2.readDMEM hw (if isSameMemArea (s.r.ar sreg) (s.r.ar 3) then s.r.ar sreg else s.r.ar 3)
  ([(first, read1.1), (second, read2.1), (sreg.val, next s sreg), (3, next3 s 3)], read2.2)

def loadParts (next next3 : Dsp H → Fin 4 → Word) (hw : Hardware H) (opc : Word) (s : Dsp H) : WriteBackLog × Dsp H :=
  loadTwice next next3 hw ((field opc 5 1).val * 2 + dspRegAXL0) ((field opc 4 1).val * 2 + dspRegAXL1) (field opc 0 2) s

def loadAX (next next3 : Dsp H → Fin 4 → Word) (hw : Hardware H) (opc : Word) (s : Dsp H) : WriteBackLog × Dsp H :=
  loadTwice next next3 hw ((field opc 4 1) + dspRegAXH0) ((field opc 4 1) + dspRegAXL0)
    ((field opc 5 1).castLE (by decide)) s

def ld (hw : Hardware H) (opc : Word) (s : Dsp H) : WriteBackLog × Dsp H := loadParts increment increment hw opc s
def ldn (hw : Hardware H) (opc : Word) (s : Dsp H) : WriteBackLog × Dsp H := loadParts increase increment hw opc s
def ldm (hw : Hardware H) (opc : Word) (s : Dsp H) : WriteBackLog × Dsp H := loadParts increment increase hw opc s
def ldnm (hw : Hardware H) (opc : Word) (s : Dsp H) : WriteBackLog × Dsp H := loadParts increase increase hw opc s
def ldax (hw : Hardware H) (opc : Word) (s : Dsp H) : WriteBackLog × Dsp H := loadAX increment increment hw opc s
def ldaxn (hw : Hardware H) (opc : Word) (s : Dsp H) : WriteBackLog × Dsp H := loadAX increase increment hw opc s
def ldaxm (hw : Hardware H) (opc : Word) (s : Dsp H) : WriteBackLog × Dsp H := loadAX increment increase hw opc s
def ldaxnm (hw : Hardware H) (opc : Word) (s : Dsp H) : WriteBackLog × Dsp H := loadAX increase increase hw opc s

def nopExt (s : Dsp H) : WriteBackLog × Dsp H := ([], s)

end Karphin.DSP.Interpreter
