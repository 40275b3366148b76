import Karphin.PowerPC.Interpreter

/-!
# Loads and branches

The interpreter functions of the branches (`Interpreter_Branch.cpp`) and of the loads into general purpose registers
(`Interpreter_LoadStore.cpp`), on the registers that they work on. What a load returns is a parameter.
-/

namespace Karphin.PowerPC

namespace UGeckoInstruction

variable (inst : UGeckoInstruction)

def LK : Bool := inst.hex.getLsbD 0
def AA : Bool := inst.hex.getLsbD 1
def LI : BitVec 24 := inst.hex.extractLsb' 2 24
def BD : BitVec 14 := inst.hex.extractLsb' 2 14
def BO : BitVec 5 := inst.hex.extractLsb' 21 5
def NB : Nat := (inst.hex.extractLsb' 11 5).toNat

end UGeckoInstruction

def dontDecrement (inst : UGeckoInstruction) : Bool := inst.BO.getLsbD 2

def dontCheckCondition (inst : UGeckoInstruction) : Bool := inst.BO.getLsbD 4

/-- `SignExt26(inst.LI << 2)`, relative to the instruction unless AA is set. -/
def bxDestination (inst : UGeckoInstruction) (pc : BitVec 32) : BitVec 32 :=
  let destination := (inst.LI ++ 0#2).signExtend 32
  if inst.AA then destination else pc + destination

/-- `SignExt16(inst.BD << 2)`, relative to the instruction unless AA is set. -/
def bcxDestination (inst : UGeckoInstruction) (pc : BitVec 32) : BitVec 32 :=
  let destination := (inst.BD ++ 0#2).signExtend 32
  if inst.AA then destination else pc + destination

/-- The registers that branches and loads work on. Memory is in `cpu.rest`. -/
structure Machine (μ : Type) where
  cpu : PowerPCState μ
  lr : BitVec 32
  ctr : BitVec 32
  reserve : Bool
  reserveAddress : BitVec 32

variable {μ : Type}

/-- What the loads of an instruction return. A load that raises a DSI exception returns nothing. -/
structure Mmu where
  Read_U8 : BitVec 32 → BitVec 8
  Read_U16 : BitVec 32 → BitVec 16
  Read_U32 : BitVec 32 → BitVec 32

namespace Interpreter

/-! ## Branches

They give NPC, which is the next instruction's address unless the branch is taken. -/

def bx (inst : UGeckoInstruction) (pc : BitVec 32) (m : Machine μ) : BitVec 32 × Machine μ :=
  (bxDestination inst pc, if inst.LK then { m with lr := pc + 4 } else m)

def decremented (inst : UGeckoInstruction) (m : Machine μ) : BitVec 32 :=
  if dontDecrement inst then m.ctr else m.ctr - 1

def counterCheck (inst : UGeckoInstruction) (ctr : BitVec 32) : Bool :=
  dontDecrement inst || (decide (ctr ≠ 0) ^^ inst.BO.getLsbD 1)

def conditionCheck (inst : UGeckoInstruction) (cpu : PowerPCState μ) : Bool :=
  dontCheckCondition inst || cpu.GetBit inst.BI == inst.BO.getLsbD 3

def taken (inst : UGeckoInstruction) (pc destination : BitVec 32) (m : Machine μ) : BitVec 32 × Machine μ :=
  (destination, if inst.LK then { m with lr := pc + 4 } else m)

def bcx (inst : UGeckoInstruction) (pc : BitVec 32) (m : Machine μ) : BitVec 32 × Machine μ :=
  let m := { m with ctr := decremented inst m }
  if counterCheck inst m.ctr && conditionCheck inst m.cpu then taken inst pc (bcxDestination inst pc) m
  else (pc + 4, m)

def bcctrx (inst : UGeckoInstruction) (pc : BitVec 32) (m : Machine μ) : BitVec 32 × Machine μ :=
  if conditionCheck inst m.cpu then taken inst pc (m.ctr &&& ~~~3#32) m else (pc + 4, m)

def bclrx (inst : UGeckoInstruction) (pc : BitVec 32) (m : Machine μ) : BitVec 32 × Machine μ :=
  let m := { m with ctr := decremented inst m }
  if counterCheck inst m.ctr && conditionCheck inst m.cpu then taken inst pc (m.lr &&& ~~~3#32) m
  else (pc + 4, m)

/-! ## Loads -/

def Helper_Get_EA (cpu : PowerPCState μ) (inst : UGeckoInstruction) : BitVec 32 :=
  if inst.RA ≠ 0 then cpu.gpr inst.RA + inst.SIMM_16 else inst.SIMM_16

def Helper_Get_EA_U (cpu : PowerPCState μ) (inst : UGeckoInstruction) : BitVec 32 :=
  cpu.gpr inst.RA + inst.SIMM_16

def Helper_Get_EA_X (cpu : PowerPCState μ) (inst : UGeckoInstruction) : BitVec 32 :=
  if inst.RA ≠ 0 then cpu.gpr inst.RA + cpu.gpr inst.RB else cpu.gpr inst.RB

def Helper_Get_EA_UX (cpu : PowerPCState μ) (inst : UGeckoInstruction) : BitVec 32 :=
  cpu.gpr inst.RA + cpu.gpr inst.RB

def swap16 (value : BitVec 16) : BitVec 16 := value.extractLsb' 0 8 ++ value.extractLsb' 8 8

def swap32 (value : BitVec 32) : BitVec 32 :=
  value.extractLsb' 0 8 ++ value.extractLsb' 8 8 ++ value.extractLsb' 16 8 ++ value.extractLsb' 24 8

def load (ea : PowerPCState μ → UGeckoInstruction → BitVec 32) (read : BitVec 32 → BitVec 32)
    (inst : UGeckoInstruction) (cpu : PowerPCState μ) : PowerPCState μ :=
  cpu.setGpr inst.RD (read (ea cpu inst))

def loadUpdate (ea : PowerPCState μ → UGeckoInstruction → BitVec 32) (read : BitVec 32 → BitVec 32)
    (inst : UGeckoInstruction) (cpu : PowerPCState μ) : PowerPCState μ :=
  (load ea read inst cpu).setGpr inst.RA (ea cpu inst)

variable (mmu : Mmu)

def readByte (address : BitVec 32) : BitVec 32 := (mmu.Read_U8 address).setWidth 32
def readHalf (address : BitVec 32) : BitVec 32 := (mmu.Read_U16 address).setWidth 32
def readHalfAlgebraic (address : BitVec 32) : BitVec 32 := (mmu.Read_U16 address).signExtend 32
def readHalfReversed (address : BitVec 32) : BitVec 32 := (swap16 (mmu.Read_U16 address)).setWidth 32
def readWordReversed (address : BitVec 32) : BitVec 32 := swap32 (mmu.Read_U32 address)

def lbz : UGeckoInstruction → PowerPCState μ → PowerPCState μ := load Helper_Get_EA (readByte mmu)
def lbzu : UGeckoInstruction → PowerPCState μ → PowerPCState μ := loadUpdate Helper_Get_EA_U (readByte mmu)
def lbzx : UGeckoInstruction → PowerPCState μ → PowerPCState μ := load Helper_Get_EA_X (readByte mmu)
def lbzux : UGeckoInstruction → PowerPCState μ → PowerPCState μ := loadUpdate Helper_Get_EA_UX (readByte mmu)
def lhz : UGeckoInstruction → PowerPCState μ → PowerPCState μ := load Helper_Get_EA (readHalf mmu)
def lhzu : UGeckoInstruction → PowerPCState μ → PowerPCState μ := loadUpdate Helper_Get_EA_U (readHalf mmu)
def lhzx : UGeckoInstruction → PowerPCState μ → PowerPCState μ := load Helper_Get_EA_X (readHalf mmu)
def lhzux : UGeckoInstruction → PowerPCState μ → PowerPCState μ := loadUpdate Helper_Get_EA_UX (readHalf mmu)
def lha : UGeckoInstruction → PowerPCState μ → PowerPCState μ := load Helper_Get_EA (readHalfAlgebraic mmu)
def lhau : UGeckoInstruction → PowerPCState μ → PowerPCState μ := loadUpdate Helper_Get_EA_U (readHalfAlgebraic mmu)
def lhax : UGeckoInstruction → PowerPCState μ → PowerPCState μ := load Helper_Get_EA_X (readHalfAlgebraic mmu)
def lhaux : UGeckoInstruction → PowerPCState μ → PowerPCState μ := loadUpdate Helper_Get_EA_UX (readHalfAlgebraic mmu)
def lwz : UGeckoInstruction → PowerPCState μ → PowerPCState μ := load Helper_Get_EA mmu.Read_U32
def lwzu : UGeckoInstruction → PowerPCState μ → PowerPCState μ := loadUpdate Helper_Get_EA_U mmu.Read_U32
def lwzx : UGeckoInstruction → PowerPCState μ → PowerPCState μ := load Helper_Get_EA_X mmu.Read_U32
def lwzux : UGeckoInstruction → PowerPCState μ → PowerPCState μ := loadUpdate Helper_Get_EA_UX mmu.Read_U32
def lhbrx : UGeckoInstruction → PowerPCState μ → PowerPCState μ := load Helper_Get_EA_X (readHalfReversed mmu)
def lwbrx : UGeckoInstruction → PowerPCState μ → PowerPCState μ := load Helper_Get_EA_X (readWordReversed mmu)

def lwarx (inst : UGeckoInstruction) (m : Machine μ) : Option (Machine μ) :=
  let address := Helper_Get_EA_X m.cpu inst
  if address &&& 0b11 ≠ 0 then none
  else some { m with
    cpu := m.cpu.setGpr inst.RD (mmu.Read_U32 address), reserve := true, reserveAddress := address }

def littleEndian (cpu : PowerPCState μ) : Bool := cpu.msr.getLsbD 0

/-- The byte count of the string instructions, `static_cast<u8>(xer_stringctrl)`. -/
def byteCount (cpu : PowerPCState μ) : Nat := (cpu.xerStringctrl.setWidth 8).toNat

/-- The byte `n` of a string load, which clears the register that it is the first byte of. -/
def lswxByte (inst : UGeckoInstruction) (EA : BitVec 32) (cpu : PowerPCState μ) (n : Nat) : PowerPCState μ :=
  let reg := inst.RD + Fin.ofNat 32 (n / 4)
  let offset := n % 4 * 8
  let cpu := if n % 4 = 0 then cpu.setGpr reg 0 else cpu
  cpu.setGpr reg (cpu.gpr reg ||| readByte mmu (EA + BitVec.ofNat 32 n) <<< (24 - offset))

def lswx (inst : UGeckoInstruction) (cpu : PowerPCState μ) : Option (PowerPCState μ) :=
  if littleEndian cpu then none
  else some ((List.range (byteCount cpu)).foldl (lswxByte mmu inst (Helper_Get_EA_X cpu inst)) cpu)

def lswiLoop : Nat → (r : Fin 32) → (i : Nat) → (EA : BitVec 32) → PowerPCState μ → PowerPCState μ
  | 0, _, _, _, cpu => cpu
  | n + 1, r, i, EA, cpu =>
      let r' := if i = 0 then r + 1 else r
      let cpu := if i = 0 then cpu.setGpr r' 0 else cpu
      let cpu := cpu.setGpr r' (cpu.gpr r' ||| readByte mmu EA <<< (24 - i))
      let i := i + 8
      lswiLoop n r' (if i = 32 then 0 else i) (EA + 1) cpu

def lswi (inst : UGeckoInstruction) (cpu : PowerPCState μ) : Option (PowerPCState μ) :=
  let EA := if inst.RA ≠ 0 then cpu.gpr inst.RA else 0
  if littleEndian cpu then none
  else some (lswiLoop mmu (if inst.NB ≠ 0 then inst.NB else 32) (inst.RD - 1) 0 EA cpu)

def wordLoads : Op → Option (UGeckoInstruction → PowerPCState μ → PowerPCState μ)
  | .lbz => some (lbz mmu)
  | .lbzu => some (lbzu mmu)
  | .lbzx => some (lbzx mmu)
  | .lbzux => some (lbzux mmu)
  | .lhz => some (lhz mmu)
  | .lhzu => some (lhzu mmu)
  | .lhzx => some (lhzx mmu)
  | .lhzux => some (lhzux mmu)
  | .lha => some (lha mmu)
  | .lhau => some (lhau mmu)
  | .lhax => some (lhax mmu)
  | .lhaux => some (lhaux mmu)
  | .lwz => some (lwz mmu)
  | .lwzu => some (lwzu mmu)
  | .lwzx => some (lwzx mmu)
  | .lwzux => some (lwzux mmu)
  | .lhbrx => some (lhbrx mmu)
  | .lwbrx => some (lwbrx mmu)
  | _ => none

def runLoad (op : Op) (inst : UGeckoInstruction) (m : Machine μ) : Option (Machine μ) :=
  match op with
  | .lwarx => lwarx mmu inst m
  | .lswx => (lswx mmu inst m.cpu).map fun cpu => { m with cpu := cpu }
  | .lswi => (lswi mmu inst m.cpu).map fun cpu => { m with cpu := cpu }
  | op => (wordLoads mmu op).map fun f => { m with cpu := f inst m.cpu }

def runBranch (op : Op) (inst : UGeckoInstruction) (pc : BitVec 32) (m : Machine μ) :
    Option (BitVec 32 × Machine μ) :=
  match op with
  | .bx => some (bx inst pc m)
  | .bcx => some (bcx inst pc m)
  | .bcctrx => some (bcctrx inst pc m)
  | .bclrx => some (bclrx inst pc m)
  | _ => none

end Interpreter

end Karphin.PowerPC
