import Karphin.PowerPC.Interpreter
import Karphin.Lib.Transition

/-!
# The PowerPC code analyst

`PPCAnalyst.cpp`: the instruction stats, the reordering passes and the backward scan for discardable
registers. A block is the list of instructions that `PPCAnalyzer::Analyze` has read, with their addresses.
What only concerns floating point registers, the carry flag in the host's flags and branch targets is left
out.
-/

namespace Karphin.PPCAnalyst

open Karphin.PowerPC Karphin.Lib

/-- The options of `PPCAnalyzer` and what it asks the debugger and the HLE tables. -/
structure PPCAnalyzer where
  carryMerge : Bool
  branchMerge : Bool
  crorMerge : Bool
  isDebuggingEnabled : Bool
  enableFloatExceptions : Bool
  enableDivByZeroExceptions : Bool
  isAddressBreakPoint : BitVec 32 → Bool
  tryReplaceFunction : BitVec 32 → Bool

structure CodeOp where
  inst : UGeckoInstruction
  op : Op
  address : BitVec 32
  regsIn : Finset (Fin 32)
  regsOut : Finset (Fin 32)
  crIn : Finset (Fin 8)
  crOut : Finset (Fin 8)
  canEndBlock : Bool
  canCauseException : Bool
  deriving DecidableEq

/-! ## Instruction stats -/

def IsMtspr (inst : UGeckoInstruction) : Bool := inst.OPCD == 31 && inst.SUBOP10 == 467

def SPR_MMCR0 : Nat := 952
def SPR_MMCR1 : Nat := 956

def IsSprInstructionUsingMmcr (inst : UGeckoInstruction) : Bool :=
  let index := inst.SPRU.toNat * 32 + inst.SPRL.toNat
  index == SPR_MMCR0 || index == SPR_MMCR1

def InstructionCanEndBlock (op : Op) (inst : UGeckoInstruction) : Bool :=
  op.has .endBlock && (!IsMtspr inst || IsSprInstructionUsingMmcr inst)

def crInOf (op : Op) (inst : UGeckoInstruction) : Finset (Fin 8) :=
  if op.has .readAllCR then Finset.univ
  else if op.has .readCRn then {inst.CRFS}
  else if op.has .readCRBI then {crFieldOf inst.BI}
  else if op.type = .cr then
    -- only one bit of the destination is written, the other three are inputs
    {crFieldOf inst.CRBA, crFieldOf inst.CRBB, crFieldOf inst.CRBD}
  else ∅

def crOutOf (op : Op) (inst : UGeckoInstruction) : Finset (Fin 8) :=
  if op.has .setAllCR then Finset.univ
  else if op.has .setCRn then {inst.CRFD}
  else if op.has .setCR0 || (op.has .rcBit && inst.Rc) then {0}
  else if op.has .setCR1 || (op.has .rcBitF && inst.Rc) then {1}
  else if op.type = .cr then {crFieldOf inst.CRBD}
  else ∅

def when {α : Type} (c : Bool) (r : α) : Finset α := if c then {r} else ∅

def regsInOf (op : Op) (inst : UGeckoInstruction) : Finset (Fin 32) :=
  when (op.has .inA || (op.has .inA0 && decide (inst.RA ≠ 0))) inst.RA ∪
    when (op.has .inB) inst.RB ∪ when (op.has .inC) inst.RC ∪ when (op.has .inS) inst.RS ∪
    if inst.OPCD = 47 then Finset.univ.filter (inst.RS ≤ ·) else ∅ -- stmw

def regsOutOf (op : Op) (inst : UGeckoInstruction) : Finset (Fin 32) :=
  when (op.has .outA) inst.RA ∪ when (op.has .outD) inst.RD ∪
    if inst.OPCD = 46 then Finset.univ.filter (inst.RD ≤ ·) else ∅ -- lmw

variable (an : PPCAnalyzer)

/-- `fpaAny`: a floating point instruction came before. -/
def SetInstructionStats (fpaAny : Bool) (address : BitVec 32) (inst : UGeckoInstruction) : CodeOp :=
  let op := GetOpInfo inst
  let firstFpuInstruction := op.has .useFPU && !fpaAny
  { inst := inst
    op := op
    address := address
    regsIn := regsInOf op inst
    regsOut := regsOutOf op inst
    crIn := crInOf op inst
    crOut := crOutOf op inst
    canEndBlock := InstructionCanEndBlock op inst
    canCauseException := firstFpuInstruction || op.has .loadStore || op.has .programException ||
      (an.enableFloatExceptions && op.has .floatException) ||
      (an.enableDivByZeroExceptions && op.has .floatDiv) }

def readBlock (fpaAny : Bool) : List (BitVec 32 × UGeckoInstruction) → List CodeOp
  | [] => []
  | (address, inst) :: block =>
      SetInstructionStats an fpaAny address inst ::
        readBlock (fpaAny || (GetOpInfo inst).has .useFPU) block

/-! ## Reordering -/

def CanSwapAdjacentOps (a b : CodeOp) : Bool :=
  !(an.isDebuggingEnabled && (an.isAddressBreakPoint a.address || an.isAddressBreakPoint b.address)) &&
  !(a.canCauseException || b.canCauseException) &&
  !(a.canEndBlock || b.canEndBlock) &&
  !(a.op.has .timer || a.op.has .noReorder || a.op.has .setOE) &&
  !(b.op.has .timer || b.op.has .noReorder || b.op.has .setOE) &&
  !((a.op.has .setCA || a.op.has .readCA) && (b.op.has .setCA || b.op.has .readCA)) &&
  b.op.type == .integer &&
  decide (b.regsOut ∩ a.regsIn = ∅) && decide (b.crOut ∩ a.crIn = ∅) &&
  decide (a.regsOut ∩ b.regsIn = ∅) && decide (a.crOut ∩ b.crIn = ∅) &&
  decide (b.regsOut ∩ a.regsOut = ∅) && decide (b.crOut ∩ a.crOut = ∅)

inductive ReorderType
  | carry | cmp | cror
  deriving DecidableEq, Repr

def isCarryOp (a : CodeOp) : Bool := a.op.has .setCA && !a.op.has .setOE && a.op.type == .integer

def isCror (a : CodeOp) : Bool := a.inst.OPCD == 19 && a.inst.SUBOP10 == 449

structure Pass where
  type : ReorderType
  reverse : Bool
  deriving DecidableEq, Repr

namespace Pass

variable (p : Pass)

def first (instructions : Nat) : Int := if p.reverse then (instructions : Int) - 1 else 0
def last (instructions : Nat) : Int := if p.reverse then 0 else (instructions : Int) - 1
def increment : Int := if p.reverse then -1 else 1

def moves (a : CodeOp) : Bool :=
  match p.type with
  | .cror => isCror a
  | .carry => isCarryOp a
  | .cmp => decide (a.crOut ≠ ∅)

/-- Once we're next to a carry instruction, don't move away. `previous` is the op behind `a`. -/
def stays (a previous : CodeOp) : Bool :=
  p.type == .carry &&
    ((!p.reverse && a.op.has .readCA && previous.op.has .setCA) ||
      (p.reverse && a.op.has .setCA && previous.op.has .readCA))

end Pass

structure Loop where
  code : List CodeOp
  i : Int
  next : Int
  goBackwards : Bool

namespace Loop

variable (p : Pass)

def init (code : List CodeOp) : Loop :=
  ⟨code, p.first code.length, p.first code.length, false⟩

def at? (l : Loop) (i : Int) : Option CodeOp := l.code[i.toNat]?

def advance (l : Loop) : Loop :=
  if l.goBackwards then { l with i := l.i - p.increment, goBackwards := false }
  else { l with i := l.next, next := l.next + p.increment }

def swapping (l : Loop) : Option (CodeOp × CodeOp) :=
  match l.at? l.i, l.at? (l.i + p.increment) with
  | some a, some b =>
      if p.moves a &&
          !(decide (l.i ≠ p.first l.code.length) && (l.at? (l.i - p.increment)).any (p.stays a)) &&
          CanSwapAdjacentOps an a b then some (a, b)
      else none
  | _, _ => none

/-- One turn of the loop; `none` when it ends. -/
def turn (l : Loop) : Option Loop :=
  let l := l.advance p
  if l.i = p.last l.code.length then none
  else
    match l.swapping an p with
    | some (a, b) =>
        some { l with
          code := (l.code.set l.i.toNat b).set (l.i + p.increment).toNat a
          goBackwards := decide (l.i ≠ p.first l.code.length) }
    | none => some l

end Loop

def reorderLoop (p : Pass) : Nat → Loop → Option (List CodeOp)
  | 0, _ => none
  | fuel + 1, l =>
      match l.turn an p with
      | none => some l.code
      | some l => reorderLoop p fuel l

/-- `none` would mean that the loop has not ended within the bound. -/
def ReorderInstructionsCore (code : List CodeOp) (p : Pass) : Option (List CodeOp) :=
  reorderLoop an p ((code.length + 1) * (code.length + 1)) (Loop.init p code)

def passes : List Pass :=
  (if an.carryMerge then [⟨.carry, false⟩, ⟨.carry, true⟩] else []) ++
    (if an.branchMerge then [⟨.cmp, false⟩] else []) ++
    (if an.crorMerge then [⟨.cror, true⟩] else [])

def ReorderInstructions (code : List CodeOp) : Option (List CodeOp) :=
  (passes an).foldlM (ReorderInstructionsCore an) code

/-- The reordering as `Analyze` calls it, for more than one instruction. -/
def reorderBlock (code : List CodeOp) : Option (List CodeOp) :=
  if 1 < code.length then ReorderInstructions an code else some code

/-! ## Backward scan -/

def CanCauseGatherPipeInterruptCheck (op : CodeOp) : Bool :=
  (op.inst.OPCD == 31 && op.inst.SUBOP10 == 854) || -- eieio
    op.op.type == .store || op.op.type == .storeFP || op.op.type == .storePS

/-- The bit sets that the backward scan carries from one op to the one before it. -/
structure Scan where
  gprBlockInputs : Finset (Fin 32)
  gprInUse : Finset (Fin 32)
  gprDiscardable : Finset (Fin 32)
  crInUse : Finset (Fin 8)
  crDiscardable : Finset (Fin 8)

structure AnalyzedOp where
  code : CodeOp
  gprInUse : Finset (Fin 32)
  gprDiscardable : Finset (Fin 32)
  crInUse : Finset (Fin 8)
  crDiscardable : Finset (Fin 8)

def isHooked (op : CodeOp) : Bool := an.tryReplaceFunction op.address || an.isAddressBreakPoint op.address

def mayExitBlock (op : CodeOp) : Bool := isHooked an op || op.canEndBlock || op.canCauseException

def Scan.behind (op : CodeOp) (scan : Scan) : Scan :=
  if CanCauseGatherPipeInterruptCheck op then { scan with gprDiscardable := ∅, crDiscardable := ∅ } else scan

def Scan.before (op : CodeOp) (scan : Scan) : Scan :=
  let scan := { scan with
    gprBlockInputs := scan.gprBlockInputs \ op.regsOut ∪ op.regsIn
    gprInUse := scan.gprInUse ∪ (op.regsIn ∪ op.regsOut)
    crInUse := scan.crInUse ∪ (op.crIn ∪ op.crOut) }
  if isHooked an op then
    { scan with gprInUse := ∅, crInUse := ∅, gprDiscardable := ∅, crDiscardable := ∅ }
  else if op.canEndBlock || op.canCauseException then
    { scan with gprDiscardable := ∅, crDiscardable := ∅ }
  else
    { scan with
      gprDiscardable := (scan.gprDiscardable ∪ op.regsOut) \ op.regsIn
      crDiscardable := (scan.crDiscardable ∪ op.crOut) \ op.crIn }

def backwardScan : List CodeOp → List AnalyzedOp × Scan
  | [] => ([], ⟨∅, ∅, ∅, ∅, ∅⟩)
  | op :: ops =>
      let (analyzed, scan) := backwardScan ops
      let scan := scan.behind op
      (⟨op, scan.gprInUse, scan.gprDiscardable, scan.crInUse, scan.crDiscardable⟩ :: analyzed,
        scan.before an op)

def Analyze (block : List (BitVec 32 × UGeckoInstruction)) : Option (List AnalyzedOp) :=
  (reorderBlock an (readBlock an false block)).map fun code => (backwardScan an code).1

/-! ## The swap that goes wrong

`mcrxr` clears XER.SO, which the integer instructions copy into the CR field that they set. No flag of the
tables stands for SO. -/

def crossesSO (a b : CodeOp) : Bool := decide (a.op = .mcrxr) && decide (b.crOut ≠ ∅)

def Loop.crosses (p : Pass) (l : Loop) : Bool :=
  match l.turn an p, (l.advance p).swapping an p with
  | some _, some (a, b) => crossesSO a b
  | _, _ => false

def loopStep (p : Pass) (l : Loop) (_ : Unit) : Option Loop := l.turn an p

def KeepsSO : List Pass → List CodeOp → Prop
  | [], _ => True
  | p :: ps, code =>
      (∀ l, Reach (loopStep an p) anyStep (Loop.init p code) l → l.crosses an p = false) ∧
        ∀ code', ReorderInstructionsCore an code p = some code' → KeepsSO ps code'

/-! ## Execution -/

/-- How the execution of the ops of a block ends: behind the last one, or at one that leaves the block. -/
inductive Exit (ρ : Type)
  | finished (s : PowerPCState ρ)
  | left (address : BitVec 32) (s : PowerPCState ρ)

def runOps {ρ : Type} (m : Unmodelled ρ) : List CodeOp → PowerPCState ρ → Exit ρ
  | [], s => .finished s
  | op :: ops, s =>
      match Interpreter.SingleStepInner m op.address op.inst s with
      | .next s => runOps m ops s
      | .leave s => .left op.address s

abbrev Hook (ρ : Type) := BitVec 32 → PowerPCState ρ → Step (PowerPCState ρ)

/-- One op of the block in the loop of `Interpreter::Run`. -/
def stepOp {ρ : Type} (m : Unmodelled ρ) (hook : Hook ρ) (op : CodeOp) (s : PowerPCState ρ) :
    Step (PowerPCState ρ) :=
  if isHooked an op then
    match hook op.address s with
    | .next s => Interpreter.SingleStepInner m op.address op.inst s
    | .leave s => .leave s
  else Interpreter.SingleStepInner m op.address op.inst s

inductive Event (ρ : Type)
  /-- The block can be left here, at this op. -/
  | canLeave (address : BitVec 32) (s : PowerPCState ρ)
  /-- The block was left at this op. -/
  | left (address : BitVec 32) (s : PowerPCState ρ)
  /-- The block was run to its end. -/
  | finished (s : PowerPCState ρ)

/-- The state at every point where the block can be left, and how it is left. It can be left at the ops that
may exit, and behind those with a gather pipe interrupt check. -/
def trace {ρ : Type} (m : Unmodelled ρ) (hook : Hook ρ) : List CodeOp → PowerPCState ρ → List (Event ρ)
  | [], s => [.finished s]
  | op :: ops, s =>
      (if mayExitBlock an op then [.canLeave op.address s] else []) ++
        match stepOp an m hook op s with
        | .leave s => [.left op.address s]
        | .next s =>
            (if CanCauseGatherPipeInterruptCheck op then [.canLeave op.address s] else []) ++
              trace m hook ops s

def runThrough {ρ : Type} (m : Unmodelled ρ) (hook : Hook ρ) :
    List CodeOp → PowerPCState ρ → Option (PowerPCState ρ)
  | [], s => some s
  | op :: ops, s =>
      match stepOp an m hook op s with
      | .leave _ => none
      | .next s => runThrough m hook ops s

end Karphin.PPCAnalyst
