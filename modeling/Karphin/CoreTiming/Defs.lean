import Karphin.Lib.FinNumerals
import Karphin.Lib.Heap

/-!
# The event scheduler

`CoreTimingManager`: the event queue, the queue of events from other threads, and the slice. Times and the number of
the next event are `s64` and `u64` in the source; no caller schedules further ahead than `2^32` cycles, and the clock
does not leave that range, so they are integers here. The overclock factor is a `float`: the two conversions that use
it are a parameter, and the identity for the factor 1. The throttle does not touch what is modelled.
-/

namespace Karphin.CoreTiming

open Karphin.Lib.Heap

variable {τ : Type}

structure Event (τ : Type) where
  time : Int
  fifoOrder : Nat
  userdata : Nat
  type : τ
  deriving DecidableEq, Repr

def Event.key (e : Event τ) : Int ×ₗ Nat := toLex (e.time, e.fifoOrder)

/-- `DowncountToCycles` and `CyclesToDowncount` for one overclock factor. -/
structure Overclock where
  downcountToCycles : Int → Int
  cyclesToDowncount : Int → Int

def Overclock.one : Overclock := ⟨id, id⟩

def maxSliceLength : Int := 20000

structure Timing (τ : Type) where
  globalTimer : Int
  sliceLength : Int
  /-- `downcount` of the PowerPC state. -/
  downcount : Int
  idledCycles : Int := 0
  isGlobalTimerSane : Bool := true
  eventQueue : Array (Event τ) := #[]
  eventFifoId : Nat := 0
  tsQueue : List (Event τ) := []
  lastOc : Overclock
  configOc : Overclock

/-- What a save state holds, with the downcount of the PowerPC state. The types of the events are already looked up
by name. -/
structure SavedState (τ : Type) where
  downcount : Int
  sliceLength : Int
  globalTimer : Int
  idledCycles : Int
  lastOc : Overclock
  eventFifoId : Nat
  eventQueue : Array (Event τ)

namespace Timing

def init (oc : Overclock) : Timing τ where
  globalTimer := 0
  sliceLength := maxSliceLength
  downcount := oc.cyclesToDowncount maxSliceLength
  lastOc := oc
  configOc := oc

def getTicks (s : Timing τ) : Int :=
  if s.isGlobalTimerSane then s.globalTimer
  else s.globalTimer + (s.sliceLength - s.lastOc.downcountToCycles s.downcount)

def forceExceptionCheck (s : Timing τ) (cycles : Int) : Timing τ :=
  let cycles := max 0 cycles
  if s.lastOc.downcountToCycles s.downcount > cycles then
    { s with
      sliceLength := s.sliceLength - (s.lastOc.downcountToCycles s.downcount - cycles)
      downcount := s.lastOc.cyclesToDowncount cycles }
  else s

/-- `emplace_back` of an event that gets the next number, and `push_heap`. -/
def enqueue (s : Timing τ) (time : Int) (userdata : Nat) (type : τ) : Timing τ :=
  { s with
    eventQueue := pushHeap Event.key (s.eventQueue.push ⟨time, s.eventFifoId, userdata, type⟩)
    eventFifoId := s.eventFifoId + 1 }

def scheduleEvent (s : Timing τ) (cyclesIntoFuture : Int) (type : τ) (userdata : Nat) (fromCpuThread : Bool) :
    Timing τ :=
  if fromCpuThread then
    let timeout := s.getTicks + cyclesIntoFuture
    let s := if s.isGlobalTimerSane then s else s.forceExceptionCheck cyclesIntoFuture
    s.enqueue timeout userdata type
  else { s with tsQueue := s.tsQueue ++ [⟨s.globalTimer + cyclesIntoFuture, 0, userdata, type⟩] }

def moveEvents (s : Timing τ) : Timing τ :=
  s.tsQueue.foldl (fun s ev => s.enqueue ev.time ev.userdata ev.type) { s with tsQueue := [] }

def removeEvent [DecidableEq τ] (s : Timing τ) (type : τ) : Timing τ :=
  let kept := s.eventQueue.filter (·.type ≠ type)
  { s with eventQueue := if s.eventQueue.size = kept.size then kept else makeHeap Event.key kept }

def removeAllEvents [DecidableEq τ] (s : Timing τ) (type : τ) : Timing τ := s.moveEvents.removeEvent type

/-- The new time of an event: the distance to now is scaled, rounded towards zero. -/
def adjustedTime (s : Timing τ) (newPpcClock oldPpcClock : Nat) (time : Int) : Int :=
  s.globalTimer + ((time - s.globalTimer) * newPpcClock).tdiv oldPpcClock

def adjustEventQueueTimes (s : Timing τ) (newPpcClock oldPpcClock : Nat) : Timing τ :=
  { s with eventQueue := s.eventQueue.map fun ev => { ev with time := s.adjustedTime newPpcClock oldPpcClock ev.time } }

/-- `DoState` when a state is loaded: what was queued before is overwritten. -/
def loadState (s : Timing τ) (saved : SavedState τ) : Timing τ :=
  let s := { s with
    downcount := saved.downcount
    sliceLength := saved.sliceLength
    globalTimer := saved.globalTimer
    idledCycles := saved.idledCycles
    lastOc := saved.lastOc
    eventFifoId := saved.eventFifoId }
  { s.moveEvents with eventQueue := makeHeap Event.key saved.eventQueue }

def saveState (s : Timing τ) : Timing τ := s.moveEvents

def idle (s : Timing τ) : Timing τ :=
  { s with idledCycles := s.idledCycles + s.lastOc.downcountToCycles s.downcount, downcount := 0 }

def beginAdvance (s : Timing τ) : Timing τ :=
  let s := s.moveEvents
  { s with
    globalTimer := s.globalTimer + (s.sliceLength - s.lastOc.downcountToCycles s.downcount)
    lastOc := s.configOc
    sliceLength := maxSliceLength
    isGlobalTimerSane := true }

/-- The test of the loop in `Advance` and the extraction of an event. -/
def popEvent (s : Timing τ) : Option (Event τ × Timing τ) :=
  match s.eventQueue[0]? with
  | none => none
  | some evt =>
      if evt.time ≤ s.globalTimer then some (evt, { s with eventQueue := (popHeap Event.key s.eventQueue).pop })
      else none

def endAdvance (s : Timing τ) : Timing τ :=
  let s := { s with isGlobalTimerSane := false }
  let s := match s.eventQueue[0]? with
    | none => s
    | some front => { s with sliceLength := min (front.time - s.globalTimer) maxSliceLength }
  { s with downcount := s.lastOc.cyclesToDowncount s.sliceLength }

/-! ## Any order of operations -/

inductive Op (τ : Type)
  | scheduleEvent (cyclesIntoFuture : Int) (type : τ) (userdata : Nat) (fromCpuThread : Bool)
  | moveEvents
  | removeEvent (type : τ)
  | removeAllEvents (type : τ)
  | adjustEventQueueTimes (newPpcClock oldPpcClock : Nat)
  | saveState
  | loadState (saved : SavedState τ)
  | refreshConfig (oc : Overclock)
  | executed (cycles : Nat)
  | forceExceptionCheck (cycles : Int)
  | idle
  | beginAdvance
  | popEvent
  | endAdvance

def step [DecidableEq τ] (s : Timing τ) : Op τ → Option (Timing τ)
  | .scheduleEvent cycles type userdata fromCpuThread => some (s.scheduleEvent cycles type userdata fromCpuThread)
  | .moveEvents => some s.moveEvents
  | .removeEvent type => some (s.removeEvent type)
  | .removeAllEvents type => some (s.removeAllEvents type)
  | .adjustEventQueueTimes newPpcClock oldPpcClock =>
      if newPpcClock = 0 ∨ oldPpcClock = 0 then none else some (s.adjustEventQueueTimes newPpcClock oldPpcClock)
  | .saveState => some s.saveState
  | .loadState saved => some (s.loadState saved)
  | .refreshConfig oc => some { s with configOc := oc }
  | .executed cycles => some { s with downcount := s.downcount - cycles }
  | .forceExceptionCheck cycles => some (s.forceExceptionCheck cycles)
  | .idle => some s.idle
  | .beginAdvance => some s.beginAdvance
  | .popEvent => s.popEvent.map Prod.snd
  | .endAdvance => some s.endAdvance

/-- The queue is a heap for the order of the events, and its front is the event that is due first: the earliest one,
and among several of the same time the one that was added first. -/
def FrontIsFirst (s : Timing τ) : Prop :=
  IsHeap Event.key s.eventQueue ∧
    ∀ front, s.eventQueue[0]? = some front → ∀ e ∈ s.eventQueue,
      front.time < e.time ∨ front.time = e.time ∧ front.fifoOrder ≤ e.fifoOrder

/-- A change of the clock does not give the time of its parent to an event that was later than its parent and was
added before it. -/
def Orderly (s : Timing τ) : Op τ → Prop
  | .adjustEventQueueTimes newPpcClock oldPpcClock => ∀ i : Fin s.eventQueue.size,
      s.eventQueue[parent i].time < s.eventQueue[i].time →
      s.adjustedTime newPpcClock oldPpcClock s.eventQueue[parent i].time =
        s.adjustedTime newPpcClock oldPpcClock s.eventQueue[i].time →
      s.eventQueue[parent i].fifoOrder ≤ s.eventQueue[i].fifoOrder
  | _ => True

instance (s : Timing τ) (op : Op τ) : Decidable (Orderly s op) := by
  cases op with
  | adjustEventQueueTimes newPpcClock oldPpcClock =>
      unfold Orderly
      infer_instance
  | _ => exact isTrue trivial

/-! ## One `Advance` -/

/-- What a callback does with the scheduler, and what other threads schedule while it runs. -/
inductive Command (τ : Type)
  | scheduleEvent (cyclesIntoFuture : Int) (type : τ) (userdata : Nat)
  | scheduleFromOtherThread (cyclesIntoFuture : Int) (type : τ) (userdata : Nat)
  | removeEvent (type : τ)
  | removeAllEvents (type : τ)

/-- The callbacks of the event types. `σ` is the rest of the emulated system, which they read and write. -/
structure Callbacks (τ σ : Type) where
  callback : τ → (userdata : Nat) → (cyclesLate : Int) → σ → List (Command τ) × σ

/-- The events of the other threads with the numbers that `MoveEvents` gives them. -/
def numbered (fifoId : Nat) : List (Event τ) → List (Event τ)
  | [] => []
  | ev :: evs => { ev with fifoOrder := fifoId } :: numbered (fifoId + 1) evs

section Advance

variable [DecidableEq τ]

def command (s : Timing τ) : Command τ → Timing τ
  | .scheduleEvent cycles type userdata => s.scheduleEvent cycles type userdata true
  | .scheduleFromOtherThread cycles type userdata => s.scheduleEvent cycles type userdata false
  | .removeEvent type => s.removeEvent type
  | .removeAllEvents type => s.removeAllEvents type

def added (s : Timing τ) : Command τ → List (Event τ)
  | .scheduleEvent cycles type userdata => [⟨s.getTicks + cycles, s.eventFifoId, userdata, type⟩]
  | .scheduleFromOtherThread _ _ _ | .removeEvent _ => []
  | .removeAllEvents _ => numbered s.eventFifoId s.tsQueue

def removed (s : Timing τ) : Command τ → List (Event τ)
  | .scheduleEvent _ _ _ | .scheduleFromOtherThread _ _ _ => []
  | .removeEvent type => s.eventQueue.toList.filter (·.type = type)
  | .removeAllEvents type => s.moveEvents.eventQueue.toList.filter (·.type = type)

/-- A callback that has run: the event, what was pending when it was extracted, and what the callback added to the
queue and removed from it. -/
structure Ran (τ : Type) where
  event : Event τ
  cyclesLate : Int
  pending : List (Event τ)
  added : List (Event τ)
  removed : List (Event τ)

/-- The commands of a callback in their order: the state after them, and what they added and removed. -/
def commands (s : Timing τ) : List (Command τ) → Timing τ × List (Event τ) × List (Event τ)
  | [] => (s, [], [])
  | c :: cs =>
      let (s', as, rs) := (s.command c).commands cs
      (s', s.added c ++ as, s.removed c ++ rs)

variable {σ : Type} (cb : Callbacks τ σ)

/-- The loop of `Advance`, if `fuel` passes are enough: the callbacks that have run and the states after them. -/
def advanceLoop : Nat → Timing τ → σ → Option (List (Ran τ) × Timing τ × σ)
  | 0, _, _ => none
  | fuel + 1, s, x => match s.popEvent with
    | none => some ([], s, x)
    | some (evt, t) =>
        let cyclesLate := t.globalTimer - evt.time
        let (cmds, x') := cb.callback evt.type evt.userdata cyclesLate x
        let (t', as, rs) := t.commands cmds
        (advanceLoop fuel t' x').map fun (log, s', x'') =>
          (⟨evt, cyclesLate, s.eventQueue.toList, as, rs⟩ :: log, s', x'')

def advance (fuel : Nat) (s : Timing τ) (x : σ) : Option (List (Ran τ) × Timing τ × σ) :=
  (advanceLoop cb fuel s.beginAdvance x).map fun (log, s', x') => (log, s'.endAdvance, x')

def Command.schedules : Command τ → Bool
  | .scheduleEvent _ _ _ | .scheduleFromOtherThread _ _ _ => true
  | .removeEvent _ | .removeAllEvents _ => false

/-- The callbacks schedule at most `budget x` events from the state `x` of the system on. -/
def SchedulesFinitely (budget : σ → Nat) : Prop :=
  ∀ type userdata cyclesLate x,
    budget (cb.callback type userdata cyclesLate x).2 +
      (cb.callback type userdata cyclesLate x).1.countP Command.schedules ≤ budget x

structure RunsDueEvents (s : Timing τ) (log : List (Ran τ)) (s' : Timing τ) : Prop where
  timer : s'.globalTimer = s.globalTimer + (s.sliceLength - s.lastOc.downcountToCycles s.downcount)
  /-- What runs is due, and first among what is pending at that moment. -/
  due : ∀ r ∈ log, r.event.time ≤ s'.globalTimer
  first : ∀ r ∈ log, r.event ∈ r.pending ∧ ∀ e ∈ r.pending, r.event.key ≤ e.key
  late : ∀ r ∈ log, r.cyclesLate = s'.globalTimer - r.event.time ∧ 0 ≤ r.cyclesLate
  /-- What was pending or gets scheduled has run, has been removed by a callback or is still pending, each event
  exactly once. -/
  once : (s.moveEvents.eventQueue.toList ++ log.flatMap Ran.added).Perm
    (log.map Ran.event ++ log.flatMap Ran.removed ++ s'.eventQueue.toList)
  future : ∀ e ∈ s'.eventQueue, s'.globalTimer < e.time
  slice : 0 < s'.sliceLength ∧ s'.sliceLength ≤ maxSliceLength
  bound : ∀ e ∈ s'.eventQueue, s'.globalTimer + s'.sliceLength ≤ e.time

end Advance

/-! ## Between two calls of `Advance` -/

/-- What happens within a slice. `Idle` is called while cycles of the slice are left: the dispatchers go to `Advance`
before they run anything with a downcount of zero or less. -/
def InSlice (s : Timing τ) : Op τ → Prop
  | .executed _ | .scheduleEvent _ _ _ _ | .removeEvent _ | .forceExceptionCheck _ => True
  | .idle => 0 ≤ s.downcount
  | _ => False

instance (s : Timing τ) (op : Op τ) : Decidable (InSlice s op) := by
  cases op with
  | idle => exact inferInstanceAs (Decidable (0 ≤ s.downcount))
  | executed | scheduleEvent | removeEvent | forceExceptionCheck => exact isTrue trivial
  | _ => exact isFalse id

def Op.takesNoTime : Op τ → Bool
  | .scheduleEvent _ _ _ _ | .removeEvent _ | .forceExceptionCheck _ => true
  | _ => false

/-- The current slice does not run past a queued event, unless it has already. -/
def SliceBounded (s : Timing τ) : Prop :=
  ∀ e ∈ s.eventQueue, s.globalTimer + s.sliceLength ≤ max e.time s.getTicks

end Timing

end Karphin.CoreTiming
