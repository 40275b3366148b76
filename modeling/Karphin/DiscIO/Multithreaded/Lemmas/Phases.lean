import Karphin.Lib.FinNumerals
import Karphin.Lib.Transition
import Karphin.Lib.RoundRobin

/-!
# The multithreaded compressor

`MultithreadedCompressor`: a producer, some compression threads and an output thread. Every operation on an event, on a
slot or on an atomic variable is a step of its own, and the steps of the threads come in any order.
-/

namespace Karphin.DiscIO.MultithreadedCompressor

inductive ConversionResultCode
  | success | canceled | readFailed | writeFailed | internalError
  deriving DecidableEq

/-- The number of threads and the functions. `none` stands for a value that was moved from. -/
structure Config (P O : Type) where
  threads : Nat
  threads_pos : 0 < threads
  setUpCompressThreadState : (thread : Nat) → ConversionResultCode
  compress : Option P → Except ConversionResultCode O
  output : (call : Nat) → Option O → ConversionResultCode

/-! ## States -/

/-- Where a compression thread is in `CompressThreadFunction`, with its local variables. -/
inductive CompressPc (P O : Type)
  | setUp
  | setUpFailed (error : ConversionResultCode)
  | firstReady
  | firstDone
  | waitCompress
  | checkShuttingDown
  | takeParameters
  | resetDone (parameters : Option P)
  | signalReady (parameters : Option P)
  | compress (parameters : Option P)
  | failed (error : ConversionResultCode)
  | waitOutputReady (result : O)
  | storeParameters (result : O)
  | signalOutput
  | signalDone
  | returned

/-- `CompressThread`: the events, the slots and the thread. -/
structure CompressThread (P O : Type) where
  compressReady : Bool := false
  compressEvent : Bool := false
  compressDone : Bool := false
  outputReady : Bool := false
  outputEvent : Bool := false
  compressParameters : Option P := none
  outputParameters : Option O := none
  pc : CompressPc P O := .setUp

inductive OutputPc (O : Type)
  | start (i : Nat)
  | waitOutput
  | checkShuttingDown
  | takeParameters
  | signalReady (parameters : Option O)
  | output (parameters : Option O)
  | failed (error : ConversionResultCode)
  | returned

inductive ProducerPc (P : Type)
  | outside
  | checkStatus (parameters : P)
  | waitReady (parameters : P)
  | storeParameters (parameters : P)
  | signalCompress
  | shutdownWaitReady (i : Nat)
  | shutdownWaitDone (i : Nat)
  | shutdownWaitOutput (i : Nat)
  | shutdownStore
  | shutdownCompress (i : Nat)
  | shutdownOutput (i : Nat)
  | shutdownJoin (i : Nat)
  | shutdownJoinOutput
  | shutdownDone
  deriving DecidableEq

/-- `submitted` has the parameters that were handed to a compression thread, `outputs` those that `m_output` was called
with. -/
structure State (P O : Type) where
  threads : Nat → CompressThread P O := fun _ => {}
  result : ConversionResultCode := .success
  shuttingDown : Bool := false
  producer : ProducerPc P := .outside
  currentIndex : Nat := 0
  outputPc : OutputPc O := .start 0
  outputIndex : Nat := 0
  submitted : List P := []
  outputs : List (Option O) := []

namespace State

variable {P O : Type} (s : State P O)

def setThread (i : Nat) (t : CompressThread P O) : State P O := { s with threads := Function.update s.threads i t }

def setError (error : ConversionResultCode) : State P O :=
  { s with result := if s.result = .success then error else s.result }

end State

/-! ## Steps -/

section Steps

variable {P O : Type} (config : Config P O) (s : State P O)

def nextIndex (index : Nat) : Nat := if index + 1 ≥ config.threads then index + 1 - config.threads else index + 1

/-- A loop over all threads: the next round, or what comes after it. -/
def nextRound (stage : Nat → ProducerPc P) (i : Nat) (after : ProducerPc P) : ProducerPc P :=
  if i + 1 < config.threads then stage (i + 1) else after

/-- A step of the producer. `none`: it is blocked, or not in a call. -/
def producerStep : Option (State P O) :=
  match s.producer with
  | .outside => none
  | .checkStatus p =>
      some { s with producer := if s.result = .success then .waitReady p else .outside }
  | .waitReady p =>
      let t := s.threads s.currentIndex
      if t.compressReady then
        some { s.setThread s.currentIndex { t with compressReady := false } with producer := .storeParameters p }
      else none
  | .storeParameters p =>
      let t := s.threads s.currentIndex
      some { s.setThread s.currentIndex { t with compressParameters := some p } with
        producer := .signalCompress, submitted := s.submitted ++ [p] }
  | .signalCompress =>
      let t := s.threads s.currentIndex
      some { s.setThread s.currentIndex { t with compressEvent := true } with
        producer := .outside, currentIndex := nextIndex config s.currentIndex }
  | .shutdownWaitReady i =>
      let t := s.threads i
      if t.compressReady then
        some { s.setThread i { t with compressReady := false } with
          producer := nextRound config .shutdownWaitReady i (.shutdownWaitDone 0) }
      else none
  | .shutdownWaitDone i =>
      let t := s.threads i
      if t.compressDone then
        some { s.setThread i { t with compressDone := false } with
          producer := nextRound config .shutdownWaitDone i (.shutdownWaitOutput 0) }
      else none
  | .shutdownWaitOutput i =>
      let t := s.threads i
      if t.outputReady then
        some { s.setThread i { t with outputReady := false } with
          producer := nextRound config .shutdownWaitOutput i .shutdownStore }
      else none
  | .shutdownStore => some { s with shuttingDown := true, producer := .shutdownCompress 0 }
  | .shutdownCompress i =>
      some { s.setThread i { s.threads i with compressEvent := true } with
        producer := nextRound config .shutdownCompress i (.shutdownOutput 0) }
  | .shutdownOutput i =>
      some { s.setThread i { s.threads i with outputEvent := true } with
        producer := nextRound config .shutdownOutput i (.shutdownJoin 0) }
  | .shutdownJoin i =>
      match (s.threads i).pc with
      | .returned => some { s with producer := nextRound config .shutdownJoin i .shutdownJoinOutput }
      | _ => none
  | .shutdownJoinOutput =>
      match s.outputPc with
      | .returned => some { s with producer := .shutdownDone }
      | _ => none
  | .shutdownDone => none

def compressStep (i : Nat) : Option (State P O) :=
  let t := s.threads i
  match t.pc with
  | .setUp =>
      let error := config.setUpCompressThreadState i
      some (s.setThread i { t with pc := if error = .success then .firstReady else .setUpFailed error })
  | .setUpFailed error => some ((s.setError error).setThread i { t with pc := .firstReady })
  | .firstReady => some (s.setThread i { t with compressReady := true, pc := .firstDone })
  | .firstDone => some (s.setThread i { t with compressDone := true, pc := .waitCompress })
  | .waitCompress =>
      if t.compressEvent then some (s.setThread i { t with compressEvent := false, pc := .checkShuttingDown })
      else none
  | .checkShuttingDown => some (s.setThread i { t with pc := if s.shuttingDown then .returned else .takeParameters })
  | .takeParameters =>
      some (s.setThread i { t with compressParameters := none, pc := .resetDone t.compressParameters })
  | .resetDone p => some (s.setThread i { t with compressDone := false, pc := .signalReady p })
  | .signalReady p => some (s.setThread i { t with compressReady := true, pc := .compress p })
  | .compress p =>
      match config.compress p with
      | .ok result => some (s.setThread i { t with pc := .waitOutputReady result })
      | .error error => some (s.setThread i { t with pc := .failed error })
  | .failed error => some ((s.setError error).setThread i { t with pc := .signalDone })
  | .waitOutputReady result =>
      if t.outputReady then some (s.setThread i { t with outputReady := false, pc := .storeParameters result })
      else none
  | .storeParameters result =>
      some (s.setThread i { t with outputParameters := some result, pc := .signalOutput })
  | .signalOutput => some (s.setThread i { t with outputEvent := true, pc := .signalDone })
  | .signalDone => some (s.setThread i { t with compressDone := true, pc := .waitCompress })
  | .returned => none

def outputStep : Option (State P O) :=
  let t := s.threads s.outputIndex
  match s.outputPc with
  | .start i =>
      some { s.setThread i { s.threads i with outputReady := true } with
        outputPc := if i + 1 < config.threads then .start (i + 1) else .waitOutput }
  | .waitOutput =>
      if t.outputEvent then
        some { s.setThread s.outputIndex { t with outputEvent := false } with outputPc := .checkShuttingDown }
      else none
  | .checkShuttingDown => some { s with outputPc := if s.shuttingDown then .returned else .takeParameters }
  | .takeParameters =>
      some { s.setThread s.outputIndex { t with outputParameters := none } with
        outputPc := .signalReady t.outputParameters }
  | .signalReady p =>
      some { s.setThread s.outputIndex { t with outputReady := true } with outputPc := .output p }
  | .output p =>
      let result := config.output s.outputs.length p
      some { s with
        outputs := s.outputs ++ [p]
        outputIndex := nextIndex config s.outputIndex
        outputPc := if result = .success then .waitOutput else .failed result }
  | .failed error => some { s.setError error with outputPc := .waitOutput }
  | .returned => none

inductive Action (P : Type)
  | compressAndWrite (parameters : P)
  | setError (error : ConversionResultCode)
  | shutdown
  | producer
  | compress (thread : Nat)
  | output

def step (a : Action P) : Option (State P O) :=
  match a, s.producer with
  | .compressAndWrite p, .outside => some { s with producer := .checkStatus p }
  | .setError error, .outside => some (s.setError error)
  | .shutdown, .outside => some { s with producer := .shutdownWaitReady 0 }
  | .producer, _ => producerStep config s
  | .compress i, _ => if i < config.threads then compressStep config s i else none
  | .output, _ => outputStep config s
  | _, _ => none

end Steps

end Karphin.DiscIO.MultithreadedCompressor

/-!
# Phases

What a compression thread can see of the other threads, and which of its events are set and which of its slots are filled
in every phase.
-/

namespace Karphin.DiscIO.MultithreadedCompressor

open Karphin.Lib

/-- Where the producer is, seen from one thread: it is about to fill the slot or to signal that, or it has passed one of
the loops of `Shutdown`. -/
inductive ProducerPhase
  | away | storing | signalling | ready | done | output | compressed | released
  deriving DecidableEq

inductive OutputPhase
  | starting | away | checking | taking | taken | returned
  deriving DecidableEq

inductive CompressPhase
  | starting | firstDone | waiting | checking | taking | resetting | signallingReady | working | storing | signalling
  | finishing | returned
  deriving DecidableEq

def CompressPc.phase {P O : Type} : CompressPc P O → CompressPhase
  | .setUp => .starting
  | .setUpFailed _ => .starting
  | .firstReady => .starting
  | .firstDone => .firstDone
  | .waitCompress => .waiting
  | .checkShuttingDown => .checking
  | .takeParameters => .taking
  | .resetDone _ => .resetting
  | .signalReady _ => .signallingReady
  | .compress _ => .working
  | .failed _ => .working
  | .waitOutputReady _ => .working
  | .storeParameters _ => .storing
  | .signalOutput => .signalling
  | .signalDone => .finishing
  | .returned => .returned

variable {P O : Type}

def ProducerPc.phase (producer : ProducerPc P) (currentIndex i : Nat) : ProducerPhase :=
  match producer with
  | .outside => .away
  | .checkStatus _ => .away
  | .waitReady _ => .away
  | .storeParameters _ => if currentIndex = i then .storing else .away
  | .signalCompress => if currentIndex = i then .signalling else .away
  | .shutdownWaitReady j => if i < j then .ready else .away
  | .shutdownWaitDone j => if i < j then .done else .ready
  | .shutdownWaitOutput j => if i < j then .output else .done
  | .shutdownStore => .output
  | .shutdownCompress j => if i < j then .compressed else .output
  | .shutdownOutput j => if i < j then .released else .compressed
  | .shutdownJoin _ => .released
  | .shutdownJoinOutput => .released
  | .shutdownDone => .released

def OutputPc.phase (outputPc : OutputPc O) (outputIndex i : Nat) : OutputPhase :=
  match outputPc with
  | .start j => if j ≤ i then .starting else .away
  | .waitOutput => .away
  | .checkShuttingDown => if outputIndex = i then .checking else .away
  | .takeParameters => if outputIndex = i then .taking else .away
  | .signalReady _ => if outputIndex = i then .taken else .away
  | .output _ => .away
  | .failed _ => .away
  | .returned => if outputIndex = i then .returned else .away

/-! ## Events and slots -/

def CompressPhase.busy : CompressPhase → Bool
  | .firstDone => true
  | .waiting => true
  | .working => true
  | .storing => true
  | .signalling => true
  | .finishing => true
  | _ => false

def frontOk (producer : ProducerPhase) (compress : CompressPhase) (ready event filled : Bool) : Bool :=
  match producer with
  | .away =>
      match compress with
      | .starting => !ready && !event && !filled
      | .checking => !ready && !event && filled
      | .taking => !ready && !event && filled
      | .resetting => !ready && !event && !filled
      | .signallingReady => !ready && !event && !filled
      | .returned => false
      | _ => ready != event && filled == event
  | .storing => compress.busy && !ready && !event && !filled
  | .signalling => compress.busy && !ready && !event && filled
  | .compressed => !ready && !filled && (if event then compress == .waiting else compress == .checking || compress == .returned)
  | .released => !ready && !filled && (if event then compress == .waiting else compress == .checking || compress == .returned)
  | _ => compress.busy && !ready && !event && !filled

def doneOk (producer : ProducerPhase) (compress : CompressPhase) (done : Bool) : Bool :=
  match producer with
  | .done => compress == .waiting && !done
  | .output => compress == .waiting && !done
  | .compressed => (compress == .waiting || compress == .checking || compress == .returned) && !done
  | .released => (compress == .waiting || compress == .checking || compress == .returned) && !done
  | _ =>
      done == (compress == .waiting || compress == .checking || compress == .taking || compress == .resetting) &&
        compress != .returned

def backOk (producer : ProducerPhase) (output : OutputPhase) (compress : CompressPhase) (ready event filled : Bool) :
    Bool :=
  match producer with
  | .output => output == .away && !ready && !event && !filled
  | .compressed => output == .away && !ready && !event && !filled
  | .released => !ready && !filled && (if event then output == .away else output == .checking || output == .returned)
  | _ =>
      match output with
      | .starting => !ready && !event && !filled && compress != .storing && compress != .signalling
      | .away =>
          match compress with
          | .storing => !ready && !event && !filled
          | .signalling => !ready && !event && filled
          | _ => ready != event && filled == event
      | .checking => !ready && !event && filled && compress != .storing && compress != .signalling
      | .taking => !ready && !event && filled && compress != .storing && compress != .signalling
      | .taken => !ready && !event && !filled && compress != .storing && compress != .signalling
      | .returned => false

structure ThreadOk (producer : ProducerPhase) (output : OutputPhase) (t : CompressThread P O) : Prop where
  front : frontOk producer t.pc.phase t.compressReady t.compressEvent t.compressParameters.isSome = true
  done : doneOk producer t.pc.phase t.compressDone = true
  back : backOk producer output t.pc.phase t.outputReady t.outputEvent t.outputParameters.isSome = true

/-! ## What is on its way -/

section Pending

variable (config : Config P O)

def compressed (p : Option P) : Option O := (config.compress p).toOption

def CompressPc.holding : CompressPc P O → List O
  | .resetDone p => (compressed config p).toList
  | .signalReady p => (compressed config p).toList
  | .compress p => (compressed config p).toList
  | .waitOutputReady result => [result]
  | .storeParameters result => [result]
  | _ => []

def pending (t : CompressThread P O) : List O :=
  t.outputParameters.toList ++ t.pc.holding config ++
    t.compressParameters.toList.filterMap fun p => compressed config (some p)

end Pending

def OutputPc.holding : OutputPc O → List (Option O)
  | .signalReady p => [p]
  | .output p => [p]
  | _ => []

/-! ## The invariant -/

def ProducerPc.shutting : ProducerPc P → Bool
  | .shutdownCompress _ => true
  | .shutdownOutput _ => true
  | .shutdownJoin _ => true
  | .shutdownJoinOutput => true
  | .shutdownDone => true
  | _ => false

def ProducerPc.round : ProducerPc P → Nat
  | .shutdownWaitReady i => i
  | .shutdownWaitDone i => i
  | .shutdownWaitOutput i => i
  | .shutdownCompress i => i
  | .shutdownOutput i => i
  | .shutdownJoin i => i
  | _ => 0

def OutputPc.round : OutputPc O → Nat
  | .start i => i
  | _ => 0

/-- The thread whose turn it is: that of the next parameters, or of those whose slot was just filled. -/
def CurrentOk (n : Nat) (s : State P O) : Prop :=
  match s.producer with
  | .signalCompress => ∃ before p, s.submitted = before ++ [p] ∧ s.currentIndex = before.length % n
  | _ => s.currentIndex = s.submitted.length % n

structure Inv (config : Config P O) (s : State P O) : Prop where
  current : CurrentOk config.threads s
  index : s.outputIndex = s.outputs.length % config.threads
  shutting : s.shuttingDown = s.producer.shutting
  round : s.producer.round < config.threads
  start : s.outputPc.round < config.threads
  threads : ∀ i < config.threads,
    ThreadOk (s.producer.phase s.currentIndex i) (s.outputPc.phase s.outputIndex i) (s.threads i)
  /-- what a thread was given was output, or is on its way -/
  lanes : ∀ i < config.threads, ((lane config.threads i s.submitted).filterMap fun p => compressed config (some p)).map some =
    lane config.threads i (s.outputs ++ s.outputPc.holding) ++ (pending config (s.threads i)).map some

theorem inv_start (config : Config P O) : Inv config {} where
  current := (Nat.zero_mod _).symm
  index := (Nat.zero_mod _).symm
  shutting := rfl
  round := config.threads_pos
  start := config.threads_pos
  threads i hi := ⟨rfl, rfl, rfl⟩
  lanes i hi := by simp [OutputPc.holding, pending, CompressPc.holding]

end Karphin.DiscIO.MultithreadedCompressor
