import Karphin.DSP.Tables

/-!
# Moves, branches, loads and stores
-/

namespace Karphin.DSP.Interpreter

open Karphin.Lib

variable {H : Type}

/-! ## Moves -/

def load (reg : Nat) (val : Word) : Exec H Unit := do
  opWriteRegister reg val
  conditionalExtendAccum reg

def mrr (opc : Word) : Exec H Unit := do load (field opc 5 5) (← opReadRegister (field opc 0 5))

def lri (opc : Word) : Exec H Unit := do load (field opc 0 5) (← fetchInstruction)

def signedByte (opc : Word) : Word := (opc.setWidth 8).signExtend 16

def lris (opc : Word) : Exec H Unit := load ((field opc 8 3) + dspRegAXL0) (signedByte opc)

def nop (_ : Word) : Exec H Unit := pure ()

def nx (_ : Word) : Exec H Unit := pure ()

def dar (opc : Word) : Exec H Unit := do setAr (field opc 0 2) (← decrementAddressRegister (field opc 0 2))

def iar (opc : Word) : Exec H Unit := do setAr (field opc 0 2) (← incrementAddressRegister (field opc 0 2))

def subarn (opc : Word) : Exec H Unit := do
  setAr (field opc 0 2) (← decreaseAddressRegister (field opc 0 2) (field opc 0 2))

def addarn (opc : Word) : Exec H Unit := do
  setAr (field opc 0 2) (← increaseAddressRegister (field opc 0 2) (field opc 2 2))

def sbclr (opc : Word) : Exec H Unit := setSR (· &&& ~~~((1 : Word) <<< ((field opc 0 3).val + 6)))

def sbset (opc : Word) : Exec H Unit := setSR (· ||| (1 : Word) <<< ((field opc 0 3).val + 6))

def srbith (opc : Word) : Exec H Unit :=
  setSR fun sr =>
    match (field opc 8 3).val with
    | 2 => sr &&& ~~~srMulModify
    | 3 => sr ||| srMulModify
    | 4 => sr &&& ~~~srMulUnsigned
    | 5 => sr ||| srMulUnsigned
    | 6 => sr &&& ~~~sr40ModeBit
    | 7 => sr ||| sr40ModeBit
    | _ => sr

/-! ## Branches -/

def setPC (pc : Word) : Exec H Unit := .write [] fun s => { s with pc }

def getPC : Exec H Word := .read [] (·.pc)

def storeStack (i : Fin 4) (val : Word) : Exec H Unit := .write [] (·.storeStack i val)

def popStack (i : Fin 4) : Exec H Word := .take [] (·.popStack i)

def skipInstruction : Exec H Unit :=
  .write [] fun s => { s with pc := s.pc + .ofNat 16 (getOpTemplate (s.readIMEM s.pc)).size }

def call (opc : Word) : Exec H Unit := do
  let dest ← fetchInstruction
  if ← checkCondition (field opc 0 4) then
    storeStack 0 (← getPC)
    setPC dest

def callr (opc : Word) : Exec H Unit := do
  if ← checkCondition (field opc 0 4) then
    let addr ← opReadRegister (field opc 5 3)
    storeStack 0 (← getPC)
    setPC addr

def ifcc (opc : Word) : Exec H Unit := do
  if ← checkCondition (field opc 0 4) then pure ()
  else skipInstruction

def jcc (opc : Word) : Exec H Unit := do
  let dest ← fetchInstruction
  if ← checkCondition (field opc 0 4) then setPC dest

def jmprcc (opc : Word) : Exec H Unit := do
  if ← checkCondition (field opc 0 4) then setPC (← opReadRegister (field opc 5 3))

def ret (opc : Word) : Exec H Unit := do
  if ← checkCondition (field opc 0 4) then setPC (← popStack 0)

def rti (opc : Word) : Exec H Unit := do
  if ← checkCondition (field opc 0 4) then
    let sr ← popStack 1
    setSR fun _ => sr
    setPC (← popStack 0)

def halt (_ : Word) : Exec H Unit := .write [] fun s => { s with controlReg := s.controlReg ||| crHalt, pc := s.pc - 1 }

/-- The loop stacks are prepared for a count, or the body is left out. -/
def startLoop (cnt loopPC : Word) (skip : Exec H Unit) : Exec H Unit := do
  if cnt ≠ 0 then
    storeStack 0 (← getPC)
    storeStack 2 loopPC
    storeStack 3 cnt
  else skip

def loop (opc : Word) : Exec H Unit := do
  let cnt ← opReadRegister (field opc 0 5)
  startLoop cnt (← getPC) skipInstruction

def loopi (opc : Word) : Exec H Unit := do startLoop (opc &&& 0xff) (← getPC) skipInstruction

def bloop (opc : Word) : Exec H Unit := do
  let cnt ← opReadRegister (field opc 0 5)
  let loopPC ← fetchInstruction
  startLoop cnt loopPC do
    setPC loopPC
    skipInstruction

def bloopi (opc : Word) : Exec H Unit := do
  let loopPC ← fetchInstruction
  startLoop (opc &&& 0xff) loopPC do
    setPC loopPC
    skipInstruction

/-! ## Loads and stores -/

def readDMEM (hw : Hardware H) (address : Word) : Exec H Word := .take [] (·.readDMEM hw address)

def writeDMEM (hw : Hardware H) (address value : Word) : Exec H Unit := .write [] (·.writeDMEM hw address value)

def readIMEM (address : Word) : Exec H Word := .read [] (·.readIMEM address)

/-- The address of a short memory operand: `cr` is above the immediate. -/
def shortAddress (opc : Word) : Exec H Word := .read [] fun s => s.r.cr <<< 8 ||| (opc &&& 0xff)

def srsh (hw : Hardware H) (opc : Word) : Exec H Unit := do
  let addr ← shortAddress opc
  writeDMEM hw addr (← opReadRegister ((field opc 8 1) + dspRegACH0))

def srs (hw : Hardware H) (opc : Word) : Exec H Unit := do
  let addr ← shortAddress opc
  writeDMEM hw addr (← opReadRegister ((field opc 8 2) + dspRegACL0))

def lrs (hw : Hardware H) (opc : Word) : Exec H Unit := do
  let addr ← shortAddress opc
  load ((field opc 8 3) + 0x18) (← readDMEM hw addr)

def lr (hw : Hardware H) (opc : Word) : Exec H Unit := do
  let addr ← fetchInstruction
  load (field opc 0 5) (← readDMEM hw addr)

def sr (hw : Hardware H) (opc : Word) : Exec H Unit := do
  let addr ← fetchInstruction
  writeDMEM hw addr (← opReadRegister (field opc 0 5))

def si (hw : Hardware H) (opc : Word) : Exec H Unit := do
  let imm ← fetchInstruction
  writeDMEM hw (signedByte opc) imm

def decrementAr (reg : Fin 4) : Exec H Unit := do setAr reg (← decrementAddressRegister reg)
def incrementAr (reg : Fin 4) : Exec H Unit := do setAr reg (← incrementAddressRegister reg)
def increaseAr (reg : Fin 4) : Exec H Unit := do setAr reg (← increaseAddressRegister reg reg)
def keepAr (_ : Fin 4) : Exec H Unit := pure ()

def loadThrough (hw : Hardware H) (opc : Word) (after : Fin 4 → Exec H Unit) : Exec H Unit := do
  let addr ← opReadRegister (field opc 5 2)
  load (field opc 0 5) (← readDMEM hw addr)
  after (field opc 5 2)

def lrr (hw : Hardware H) (opc : Word) : Exec H Unit := loadThrough hw opc keepAr
def lrrd (hw : Hardware H) (opc : Word) : Exec H Unit := loadThrough hw opc decrementAr
def lrri (hw : Hardware H) (opc : Word) : Exec H Unit := loadThrough hw opc incrementAr
def lrrn (hw : Hardware H) (opc : Word) : Exec H Unit := loadThrough hw opc increaseAr

def storeThrough (hw : Hardware H) (opc : Word) (after : Fin 4 → Exec H Unit) : Exec H Unit := do
  let addr ← getAr (field opc 5 2)
  writeDMEM hw addr (← opReadRegister (field opc 0 5))
  after (field opc 5 2)

def srr (hw : Hardware H) (opc : Word) : Exec H Unit := storeThrough hw opc keepAr
def srrd (hw : Hardware H) (opc : Word) : Exec H Unit := storeThrough hw opc decrementAr
def srri (hw : Hardware H) (opc : Word) : Exec H Unit := storeThrough hw opc incrementAr
def srrn (hw : Hardware H) (opc : Word) : Exec H Unit := storeThrough hw opc increaseAr

def loadInstruction (opc : Word) (after : Fin 4 → Exec H Unit) : Exec H Unit := do
  let addr ← getAr (field opc 0 2)
  setAccMid (field opc 8 1) (← readIMEM addr)
  conditionalExtendAccum (dspRegACM0 + field opc 8 1)
  after (field opc 0 2)

def ilrr (opc : Word) : Exec H Unit := loadInstruction opc keepAr
def ilrrd (opc : Word) : Exec H Unit := loadInstruction opc decrementAr
def ilrri (opc : Word) : Exec H Unit := loadInstruction opc incrementAr
def ilrrn (opc : Word) : Exec H Unit := loadInstruction opc increaseAr

end Karphin.DSP.Interpreter
