import Karphin.Lib.FinNumerals
import Karphin.Lib.Transition

/-!
# Chunked transfers

`SendChunked`, `SendChunkedToClients`, `ChunkedDataAbort` and `ChunkedDataThreadFunc` of the server, the queue of
packets that its network thread sends, and the handlers of the clients. The tests of `m_abort_chunked_data` are
steps of their own. Events are one-slot messages.

Entries and transfers are numbered, and entries carry the number of aborts that came before them. No code reads
these numbers.
-/

namespace Karphin.NetPlay.Chunked

abbrev PlayerId := Nat

abbrev Bytes := List UInt8

def chunkedDataUnitSize : Nat := 16384

inductive TargetMode
  | only
  | allExcept
deriving DecidableEq

structure Target where
  pid : PlayerId
  mode : TargetMode
deriving DecidableEq

def Target.includes (t : Target) (p : PlayerId) : Bool :=
  match t.mode with
  | .only => p = t.pid
  | .allExcept => p ≠ t.pid

structure Entry where
  packet : Bytes
  target : Target
  no : Nat
  aborts : Nat

inductive Body
  | start (no : Nat)
  | payload (data : Bytes)
  | finish
  | abort
deriving DecidableEq

structure Message where
  transfer : Nat
  id : UInt32
  body : Body
deriving DecidableEq

namespace Message

def starts (m : Message) (transfer : Nat) : Bool :=
  match m.body with
  | .start _ => m.transfer = transfer
  | _ => false

def closes (m : Message) (transfer : Nat) : Bool :=
  match m.body with
  | .finish | .abort => m.transfer = transfer
  | _ => false

end Message

structure Queued where
  target : Target
  message : Message

/-! ## Clients -/

/-- An entry of `m_chunked_data_receive_queue`, with the number of the entry it belongs to. -/
structure Received where
  id : UInt32
  no : Nat
  data : Bytes

/-- The receive queue, and the packets that were passed to `OnData`. -/
structure Receiver where
  receiveQueue : List Received := []
  handled : List (Nat × Bytes) := []

namespace Receiver

def onChunkedDataStart (c : Receiver) (id : UInt32) (no : Nat) : Receiver :=
  if c.receiveQueue.any (·.id = id) then c
  else { c with receiveQueue := c.receiveQueue ++ [⟨id, no, []⟩] }

def onChunkedDataPayload (c : Receiver) (id : UInt32) (data : Bytes) : Receiver :=
  { c with receiveQueue := c.receiveQueue.map fun r => if r.id = id then { r with data := r.data ++ data } else r }

def onChunkedDataEnd (c : Receiver) (id : UInt32) : Receiver :=
  match c.receiveQueue.find? (·.id = id) with
  | none => c
  | some r =>
      { receiveQueue := c.receiveQueue.filter (·.id ≠ id), handled := c.handled ++ [(r.no, r.data)] }

def onChunkedDataAbort (c : Receiver) (id : UInt32) : Receiver :=
  { c with receiveQueue := c.receiveQueue.filter (·.id ≠ id) }

def onData (c : Receiver) (m : Message) : Receiver :=
  match m.body with
  | .start no => c.onChunkedDataStart m.id no
  | .payload data => c.onChunkedDataPayload m.id data
  | .finish => c.onChunkedDataEnd m.id
  | .abort => c.onChunkedDataAbort m.id

def replies (c : Receiver) (m : Message) : List UInt32 :=
  if m.body = .finish ∧ c.receiveQueue.any (·.id = m.id) then [m.id] else []

end Receiver

/-- A connection: the receiver, what is on its way to it and back, and all that was sent to it. -/
structure Client where
  receiver : Receiver := {}
  inbox : List Message := []
  outbox : List UInt32 := []
  sent : List Message := []

/-! ## The server -/

/-- The locals of `ChunkedDataThreadFunc` for the entry at the front; `aborted` and `ended` say what was sent
last. -/
structure Transfer where
  entry : Entry
  transfer : Nat
  id : UInt32
  playerCount : Nat
  index : Nat := 0
  skipWait : Bool := false
  aborted : Bool := false
  ended : Bool := false

inductive Pc
  | outer
  | wait
  | woken
  | clearing
  | cleared
  | inner
  | abortTest
  | front
  | payload (x : Transfer)
  | endTest (x : Transfer)
  | completeTest (x : Transfer)
  | completeWait (x : Transfer)
  | stopped

namespace Pc

def underway : Pc → Option Nat
  | .payload x => some x.transfer
  | .endTest x => if x.aborted then none else some x.transfer
  | _ => none

def allSent : Pc → Bool
  | .endTest x => !x.aborted && !x.skipWait
  | _ => false

def isCleared : Pc → Bool
  | .cleared => true
  | _ => false

end Pc

structure Discarded where
  entry : Entry
  aborts : Nat

structure State where
  players : List PlayerId := []
  client : PlayerId → Client := fun _ => {}
  doLoop : Bool := true
  chunkedDataQueue : List Entry := []
  chunkedDataEvent : Bool := false
  chunkedDataCompleteEvent : Bool := false
  abortChunkedData : Bool := false
  nextChunkedDataId : UInt32 := 0
  completeCount : UInt32 → Option Nat := fun _ => none
  asyncQueue : List Queued := []
  pc : Pc := .outer
  pushed : List Bytes := []
  aborts : Nat := 0
  transfers : Nat := 0
  /-- The transfers whose only target was gone before all of the data was sent. -/
  brokenOff : List Nat := []
  discarded : List Discarded := []

namespace State

def setClient (s : State) (p : PlayerId) (c : Client) : State := { s with client := Function.update s.client p c }

def push (s : State) (packet : Bytes) (target : Target) : State :=
  { s with
    chunkedDataQueue := s.chunkedDataQueue ++ [⟨packet, target, s.pushed.length, s.aborts⟩]
    chunkedDataEvent := true
    pushed := s.pushed ++ [packet] }

def chunkedDataAbort (s : State) : State :=
  { s with
    abortChunkedData := true
    chunkedDataEvent := true
    chunkedDataCompleteEvent := true
    aborts := s.aborts + 1 }

def chunkedDataSend (s : State) (x : Transfer) (body : Body) : State :=
  { s with asyncQueue := s.asyncQueue ++ [⟨x.entry.target, ⟨x.transfer, x.id, body⟩⟩] }

def playerCount (s : State) (target : Target) : Nat :=
  match target.mode with
  | .only => 1
  | .allExcept => (s.players.filter (· ≠ target.pid)).length

def startTransfer (s : State) (e : Entry) : State :=
  let x : Transfer := ⟨e, s.transfers, s.nextChunkedDataId, s.playerCount e.target, 0, false, false, false⟩
  ({ s with
    nextChunkedDataId := s.nextChunkedDataId + 1
    transfers := s.transfers + 1
    completeCount := Function.update s.completeCount x.id (some 0)
    pc := .payload x } : State).chunkedDataSend x (.start e.no)

def chunk (x : Transfer) : Bytes :=
  (x.entry.packet.drop x.index).take (min chunkedDataUnitSize (x.entry.packet.length - x.index))

def payload (s : State) (x : Transfer) : State :=
  if !s.doLoop then { s with pc := .stopped }
  else if s.abortChunkedData then
    ({ s with pc := .endTest { x with aborted := true } } : State).chunkedDataSend x .abort
  else if x.entry.target.mode = .only ∧ x.entry.target.pid ∉ s.players then
    { s with pc := .endTest { x with skipWait := true }, brokenOff := s.brokenOff ++ [x.transfer] }
  else
    let s := s.chunkedDataSend x (.payload (chunk x))
    let x := { x with index := x.index + chunkedDataUnitSize }
    if x.index < x.entry.packet.length then { s with pc := .payload x } else { s with pc := .endTest x }

/-- The end of a transfer. An entry that no `ChunkedDataEnd` was sent for is dropped here. -/
def complete (s : State) (x : Transfer) : State :=
  { s with
    completeCount := Function.update s.completeCount x.id none
    chunkedDataQueue := s.chunkedDataQueue.tail
    discarded := if x.ended then s.discarded else s.discarded ++ [⟨x.entry, s.aborts⟩]
    pc := .inner }

/-- One step of `ChunkedDataThreadFunc`; `none` while it waits for an event. -/
def chunkedDataThread (s : State) : Option State :=
  match s.pc with
  | .outer => some { s with pc := if s.doLoop then .wait else .stopped }
  | .wait => if s.chunkedDataEvent then some { s with chunkedDataEvent := false, pc := .woken } else none
  | .woken => some { s with pc := if s.abortChunkedData then .clearing else .inner }
  | .clearing => match s.chunkedDataQueue with
    | [] => some { s with pc := .cleared }
    | e :: es => some { s with chunkedDataQueue := es, discarded := s.discarded ++ [⟨e, s.aborts⟩] }
  | .cleared => some { s with abortChunkedData := false, pc := .inner }
  | .inner => match s.chunkedDataQueue with
    | [] => some { s with pc := .outer }
    | _ :: _ => some { s with pc := if s.doLoop then .abortTest else .stopped }
  | .abortTest => some { s with pc := if s.abortChunkedData then .outer else .front }
  | .front => match s.chunkedDataQueue with
    | [] => none
    | e :: _ => some (s.startTransfer e)
  | .payload x => some (s.payload x)
  | .endTest x =>
      if s.abortChunkedData then some { s with pc := .completeTest x }
      else some (({ s with pc := .completeTest { x with ended := true } } : State).chunkedDataSend x .finish)
  | .completeTest x =>
      if (s.completeCount x.id).getD 0 < x.playerCount ∧ s.doLoop ∧ !s.abortChunkedData ∧ !x.skipWait then
        some { s with pc := .completeWait x }
      else some (s.complete x)
  | .completeWait x =>
      if s.chunkedDataCompleteEvent then some { s with chunkedDataCompleteEvent := false, pc := .completeTest x }
      else none
  | .stopped => none

/-- The network thread sends the packet at the front of `m_async_queue`. -/
def send (s : State) (q : Queued) (rest : List Queued) : State :=
  { s with
    asyncQueue := rest
    client := fun p =>
      if p ∈ s.players ∧ q.target.includes p then
        { s.client p with inbox := (s.client p).inbox ++ [q.message], sent := (s.client p).sent ++ [q.message] }
      else s.client p }

def deliver (s : State) (p : PlayerId) (m : Message) (rest : List Message) : State :=
  let c := s.client p
  s.setClient p { c with
    inbox := rest, receiver := c.receiver.onData m, outbox := c.outbox ++ c.receiver.replies m }

def onChunkedDataComplete (s : State) (id : UInt32) : State :=
  match s.completeCount id with
  | none => s
  | some n =>
      { s with completeCount := Function.update s.completeCount id (some (n + 1)), chunkedDataCompleteEvent := true }

inductive Op
  | connect (p : PlayerId)
  | disconnect (p : PlayerId)
  | sendChunked (packet : Bytes) (pid : PlayerId)
  | sendChunkedToClients (packet : Bytes) (skipPid : PlayerId)
  | chunkedDataAbort
  | shutdown
  | thread
  | send
  | deliver (p : PlayerId)
  | complete (p : PlayerId)
deriving DecidableEq

def step (s : State) : Op → Option State
  | .connect p =>
      if p ∈ s.players then none else some { s.setClient p {} with players := s.players ++ [p] }
  | .disconnect p => if p ∈ s.players then some { s with players := s.players.erase p } else none
  | .sendChunked packet pid => some (s.push packet ⟨pid, .only⟩)
  | .sendChunkedToClients packet skipPid => some (s.push packet ⟨skipPid, .allExcept⟩)
  | .chunkedDataAbort => some s.chunkedDataAbort
  | .shutdown => some { s with doLoop := false, chunkedDataEvent := true, chunkedDataCompleteEvent := true }
  | .thread => s.chunkedDataThread
  | .send => match s.asyncQueue with
    | [] => none
    | q :: rest => some (s.send q rest)
  | .deliver p =>
      if p ∈ s.players then
        match (s.client p).inbox with
        | [] => none
        | m :: rest => some (s.deliver p m rest)
      else none
  | .complete p =>
      if p ∈ s.players then
        match (s.client p).outbox with
        | [] => none
        | id :: rest => some ((s.setClient p { s.client p with outbox := rest }).onChunkedDataComplete id)
      else none

/-! ## What transfers promise -/

def InOrder (s : State) : Prop :=
  ∀ p ∈ s.players, ((s.client p).receiver.handled.map Prod.fst).Pairwise (· < ·) ∧
    ∀ h ∈ (s.client p).receiver.handled, s.pushed[h.1]? = some h.2

/-- The messages in the queue of the network thread that will go to `p`. -/
def queuedFor (s : State) (p : PlayerId) : List Message :=
  (s.asyncQueue.filter (·.target.includes p)).map Queued.message

/-- A connected client that was sent `ChunkedDataStart` is sent at most one of `ChunkedDataEnd` and
`ChunkedDataAbort`; until then, the thread is at this transfer or the message is queued. -/
def Answered (s : State) : Prop :=
  ∀ p ∈ s.players, ∀ n, (∃ m ∈ (s.client p).sent, m.starts n = true) →
    (s.client p).sent.countP (·.closes n) ≤ 1 ∧
    (s.doLoop = true → (s.client p).sent.countP (·.closes n) = 1 ∨ s.pc.underway = some n ∨
      ∃ m ∈ s.queuedFor p, m.closes n = true)

def NoneLost (s : State) : Prop := ∀ d ∈ s.discarded, d.entry.aborts < d.aborts

def serverStep : State → Op → Prop := fun _ op => op = .thread ∨ op = .send

def Answers (s : State) : Prop :=
  s.doLoop = true → ∀ p ∈ s.players, ∀ n, (∃ m ∈ (s.client p).sent, m.starts n = true) →
    ∃ s', Lib.Reach step serverStep s s' ∧ p ∈ s'.players ∧ (s'.client p).sent.countP (·.closes n) = 1

/-- Nothing is queued between an abort and the thread's clearing of the queue, no abort comes between the last
payload and `ChunkedDataEnd`, and nobody joins with the id of a player for whom `ChunkedDataStart` of a transfer
that was broken off is still queued. -/
def Orderly (s : State) : Op → Prop
  | .sendChunked _ _ | .sendChunkedToClients _ _ => s.abortChunkedData = true → s.pc.isCleared = true
  | .chunkedDataAbort => s.pc.allSent = false
  | .connect p => ∀ n ∈ s.brokenOff, ∀ m ∈ s.queuedFor p, m.starts n = false
  | _ => True

instance (s : State) : ∀ op, Decidable (s.Orderly op)
  | .sendChunked _ _ | .sendChunkedToClients _ _ | .chunkedDataAbort | .connect _ => by
      unfold Orderly; infer_instance
  | .disconnect _ | .shutdown | .thread | .send | .deliver _ | .complete _ => inferInstanceAs (Decidable True)

end State

end Karphin.NetPlay.Chunked
