import Karphin.NetPlay.PadSync.Defs

/-!
# The hand-over of golf mode

`SendPadHostPoll` and the wait loop of `GetNetPads` on the CPU thread of a client, `OnGolfPrepare` and
`OnGolfSwitch` on its network thread, which sends what is in the asynchronous queue before it handles a packet,
and the `Golf*` and `PadHostData` messages on the server. All clients have started the game.

The status that a client last received for a pad may change at any moment: the statuses come from the
controllers of the other players. `SendPadHostPoll` reads it twice, once for the buffer and once for the packet.
-/

namespace Karphin.NetPlay.Golf

open Karphin.NetPlay.PadSync (PlayerId Pad GCPadStatus Setup PadState addPadStateToPacket readPad transmitted)

inductive UpMessage
  | padHostData (states : List PadState)
  | golfRequest (pid : PlayerId)
  | golfPrepare
  | golfRelease
  | golfAcquire

def UpMessage.isPadHostData : UpMessage → Bool
  | .padHostData _ => true
  | _ => false

inductive DownMessage
  | padData (states : List PadState)
  | golfPrepare
  | golfSwitch (pid : PlayerId)

def DownMessage.isGolfSwitch : DownMessage → Bool
  | .golfSwitch _ => true
  | _ => false

/-- Where `GetNetPads` stands. `pads` are the pads for `SendPadHostPoll`, if it is called. -/
inductive Cpu
  | idle
  | waitLoop (pads : Option (List Pad)) (padNb : Pad)
  | waitEvent (pads : Option (List Pad)) (padNb : Pad)
  | golferTest (pads : List Pad) (padNb : Pad)
  | firstStatus (pads : List Pad) (padNb : Pad)
  | push (pads : List Pad) (packet : List PadState) (padNb : Pad)
  | add (i : Pad) (pads : List Pad) (packet : List PadState) (padNb : Pad)
  | pop (padNb : Pad)

namespace Cpu

/-- `SendPadHostPoll` has seen that the client is the golfer and has not queued its packet. -/
def polling : Cpu → Bool
  | .firstStatus _ _ | .push _ _ _ | .add _ _ _ _ => true
  | _ => false

/-- The pad whose status is in the buffer and not in the packet yet. -/
def adding : Cpu → Option Pad
  | .add i _ _ _ => some i
  | _ => none

end Cpu

structure Client where
  currentGolfer : PlayerId := 1
  waitOnInput : Bool := false
  waitOnInputReceived : Bool := false
  waitOnInputEvent : Bool := false
  padBuffer : Pad → List GCPadStatus := fun _ => []
  lastPadStatus : Pad → GCPadStatus := fun _ => {}
  firstPadStatusReceived : Pad → Bool := fun _ => false
  cpu : Cpu := .idle
  asyncQueue : List UpMessage := []
  /-- The network thread has emptied the queue and handles the next packet. -/
  drained : Bool := false
  up : List UpMessage := []
  down : List DownMessage := []
  /-- All statuses that were pushed into the buffers. -/
  pushed : Pad → List GCPadStatus := fun _ => []

def hostPollPads (g : Setup) (padNb : Pad) (batching : Bool) : Option (List Pad) :=
  if batching then
    if g.isFirstInGamePad padNb then some ((List.finRange 4).filter (g.padMap · ≠ 0)) else none
  else some (if g.padMap padNb ≠ 0 then [padNb] else [])

namespace Client

variable (g : Setup)

def push (c : Client) (i : Pad) (pad : GCPadStatus) : Client :=
  { c with
    padBuffer := Function.update c.padBuffer i (c.padBuffer i ++ [pad])
    pushed := Function.update c.pushed i (c.pushed i ++ [pad]) }

/-- One step of `GetNetPads` of the client `pid`; `none` while it waits. -/
def getNetPads (c : Client) (pid : PlayerId) : Option Client :=
  match c.cpu with
  | .idle => none
  | .waitLoop pads padNb =>
      if c.waitOnInput then
        if c.waitOnInputReceived then
          some { c with up := c.up ++ [.golfPrepare], waitOnInputReceived := false, cpu := .waitEvent pads padNb }
        else some { c with cpu := .waitEvent pads padNb }
      else match pads with
        | none => some { c with cpu := .pop padNb }
        | some pads => some { c with cpu := .golferTest pads padNb }
  | .waitEvent pads padNb =>
      if c.waitOnInputEvent then some { c with waitOnInputEvent := false, cpu := .waitLoop pads padNb } else none
  | .golferTest pads padNb =>
      some { c with cpu := if pid ≠ c.currentGolfer then .pop padNb else .firstStatus pads padNb }
  | .firstStatus pads padNb =>
      if pads.all c.firstPadStatusReceived then some { c with cpu := .push pads [] padNb } else none
  | .push (i :: is) packet padNb =>
      if c.padBuffer i ≠ [] then some { c with cpu := .push is packet padNb }
      else some { c.push i (c.lastPadStatus i) with cpu := .add i is packet padNb }
  | .add i is packet padNb =>
      some { c with cpu := .push is (packet ++ [addPadStateToPacket g i (c.lastPadStatus i)]) padNb }
  | .push [] packet padNb =>
      some { c with asyncQueue := c.asyncQueue ++ [.padHostData packet], cpu := .pop padNb }
  | .pop padNb => match c.padBuffer padNb with
    | [] => none
    | _ :: pads => some { c with padBuffer := Function.update c.padBuffer padNb pads, cpu := .idle }

def onPadData (c : Client) (states : List PadState) : Client :=
  states.foldl (fun c e => c.push e.map (readPad g e)) c

def onGolfSwitch (c : Client) (self pid : PlayerId) : Client :=
  let previousGolfer := c.currentGolfer
  let c := { c with currentGolfer := pid }
  if self = previousGolfer then { c with up := c.up ++ [.golfRelease] }
  else if self = pid then
    { c with
      up := c.up ++ [.golfAcquire]
      firstPadStatusReceived := fun _ => true
      waitOnInput := false
      waitOnInputEvent := true }
  else c

def onGolfPrepare (c : Client) : Client := { c with waitOnInputReceived := true, waitOnInput := true }

def onData (c : Client) (self : PlayerId) : DownMessage → Client
  | .padData states => c.onPadData g states
  | .golfPrepare => c.onGolfPrepare
  | .golfSwitch pid => c.onGolfSwitch self pid

end Client

structure State where
  client : PlayerId → Client := fun _ => {}
  currentGolfer : PlayerId := 1
  pendingGolfer : PlayerId := 0
  /-- Players for whom `OnData` has returned 1. -/
  kicked : List PlayerId := []

namespace State

variable (g : Setup)

def setClient (s : State) (p : PlayerId) (c : Client) : State := { s with client := Function.update s.client p c }

def send (s : State) (p : PlayerId) (m : DownMessage) : State :=
  s.setClient p { s.client p with down := (s.client p).down ++ [m] }

/-- `SendToClients`; nobody has the id 0. -/
def sendToClients (s : State) (m : DownMessage) (skip : PlayerId) : State :=
  { s with client := fun p =>
      if p ∈ g.players ∧ p ≠ skip then { s.client p with down := (s.client p).down ++ [m] } else s.client p }

def playerHasControllerMapped (p : PlayerId) : Bool := (List.finRange 4).any (g.padMap · = p)

/-- `NetPlayServer::OnData` for the messages of golf mode. -/
def onData (s : State) (p : PlayerId) : UpMessage → State
  | .padHostData states =>
      if s.currentGolfer ≠ 0 ∧ p ≠ s.currentGolfer then { s with kicked := s.kicked ++ [p] }
      else s.sendToClients g (.padData (PadSync.State.relayed g states)) p
  | .golfRequest pid =>
      if pid ∉ g.players ∨ !playerHasControllerMapped g p then s
      else if s.pendingGolfer = 0 ∧ s.currentGolfer ≠ pid ∧ playerHasControllerMapped g pid then
        ({ s with pendingGolfer := pid } : State).send pid .golfPrepare
      else s
  | .golfRelease => if s.pendingGolfer = 0 then s else s.sendToClients g (.golfSwitch s.pendingGolfer) 0
  | .golfAcquire =>
      if s.pendingGolfer = 0 then s else { s with currentGolfer := s.pendingGolfer, pendingGolfer := 0 }
  | .golfPrepare =>
      if s.pendingGolfer = 0 then s
      else ({ s with currentGolfer := 0 } : State).sendToClients g (.golfSwitch 0) 0

inductive Op
  | requestGolfControl (p pid : PlayerId)
  | padStatus (p : PlayerId) (i : Pad) (status : GCPadStatus)
  | beginPoll (p : PlayerId) (padNb : Pad) (batching : Bool)
  | getNetPads (p : PlayerId)
  | netSend (p : PlayerId)
  | netDrained (p : PlayerId)
  | netIdle (p : PlayerId)
  | deliver (p : PlayerId)
  | serve (p : PlayerId)

def stepClient (s : State) (p : PlayerId) : Op → Option State
  | .requestGolfControl _ pid =>
      some (s.setClient p { s.client p with asyncQueue := (s.client p).asyncQueue ++ [.golfRequest pid] })
  | .padStatus _ i status =>
      some (s.setClient p { s.client p with
        lastPadStatus := Function.update (s.client p).lastPadStatus i status
        firstPadStatusReceived := Function.update (s.client p).firstPadStatusReceived i true })
  | .beginPoll _ padNb batching => match (s.client p).cpu with
    | .idle => some (s.setClient p { s.client p with cpu := .waitLoop (hostPollPads g padNb batching) padNb })
    | _ => none
  | .getNetPads _ => ((s.client p).getNetPads g p).map (s.setClient p)
  | .netSend _ =>
      if (s.client p).drained then none
      else match (s.client p).asyncQueue with
        | [] => none
        | m :: ms => some (s.setClient p { s.client p with asyncQueue := ms, up := (s.client p).up ++ [m] })
  | .netDrained _ => match (s.client p).asyncQueue with
    | [] => some (s.setClient p { s.client p with drained := true })
    | _ :: _ => none
  | .netIdle _ => some (s.setClient p { s.client p with drained := false })
  | .deliver _ =>
      if (s.client p).drained then
        match (s.client p).down with
        | [] => none
        | m :: ms => some (s.setClient p (({ s.client p with down := ms, drained := false } : Client).onData g p m))
      else none
  | .serve _ => match (s.client p).up with
    | [] => none
    | m :: ms => some ((s.setClient p { s.client p with up := ms }).onData g p m)

def Op.player : Op → PlayerId
  | .requestGolfControl p _ | .padStatus p _ _ | .beginPoll p _ _ | .getNetPads p | .netSend p | .netDrained p
  | .netIdle p | .deliver p | .serve p => p

def step (s : State) (op : Op) : Option State := if op.player ∈ g.players then s.stepClient g op.player op else none

/-! ## What the hand-over promises -/

def OneGolfer (s : State) : Prop :=
  ∀ p ∈ g.players, ∀ q ∈ g.players, (s.client p).currentGolfer = p → (s.client q).currentGolfer = q → p = q

def SameInput (s : State) : Prop :=
  ∀ p ∈ g.players, ∀ q ∈ g.players, ∀ i,
    ((s.client p).pushed i).map (transmitted g i) <+: ((s.client q).pushed i).map (transmitted g i) ∨
    ((s.client q).pushed i).map (transmitted g i) <+: ((s.client p).pushed i).map (transmitted g i)

/-- When the golfer handles `GolfSwitch`, no poll of it is between the test of the golfer and the queueing of its
packet and no such packet is queued; and between its two reads a status does not change. -/
def Orderly (s : State) : Op → Prop
  | .deliver p => ∀ m ∈ (s.client p).down.head?, m.isGolfSwitch → (s.client p).currentGolfer = p →
      (s.client p).cpu.polling = false ∧ ∀ m ∈ (s.client p).asyncQueue, m.isPadHostData = false
  | .padStatus p i status => (s.client p).cpu.adding = some i → status = (s.client p).lastPadStatus i
  | _ => True

end State

end Karphin.NetPlay.Golf

/-!
# The part that a client plays in a hand-over

A client looks on, or it is the golfer, or it is on its way from one to the other. Its role says what it believes
and will believe about the golfer, which of the messages of a hand-over it has sent, and where states that it has
polled may still be.
-/

namespace Karphin.NetPlay.Golf

open Karphin.NetPlay.PadSync (PlayerId Pad GCPadStatus Analog Setup PadState addPadStateToPacket readPad transmitted
  wires wires_nil wires_append wires_addPadState)

/-! ## What is on its way -/

namespace DownMessage

def golfer? : DownMessage → Option PlayerId
  | .golfSwitch pid => some pid
  | _ => none

def isGolfPrepare : DownMessage → Bool
  | .golfPrepare => true
  | _ => false

def isPadData : DownMessage → Bool
  | .padData _ => true
  | _ => false

def states : DownMessage → List PadState
  | .padData states => states
  | _ => []

end DownMessage

namespace UpMessage

def states : UpMessage → List PadState
  | .padHostData states => states
  | _ => []

def isReply : UpMessage → Bool
  | .golfPrepare | .golfRelease | .golfAcquire => true
  | _ => false

theorem states_eq_nil {m : UpMessage} (h : m.isPadHostData = false) : m.states = [] := by
  cases m with
  | padHostData states => cases h
  | golfRequest | golfPrepare | golfRelease | golfAcquire => rfl

end UpMessage

namespace Client

def golfers (c : Client) : List PlayerId := c.currentGolfer :: c.down.filterMap DownMessage.golfer?

def invites (c : Client) : Nat := c.down.countP DownMessage.isGolfPrepare + c.waitOnInputReceived.toNat

def replies (c : Client) : List UpMessage := c.up.filter UpMessage.isReply

/-- The packet that `SendPadHostPoll` is filling, with the status that it has just pushed. -/
def packet (g : Setup) (c : Client) : List PadState :=
  match c.cpu with
  | .push _ packet _ => packet
  | .add i _ packet _ => packet ++ [addPadStateToPacket g i (c.lastPadStatus i)]
  | _ => []

end Client

def seen (g : Setup) (c : Client) (i : Pad) : List (UInt16 × Option Analog) :=
  (c.pushed i).map (transmitted g i) ++ wires g i (c.down.flatMap DownMessage.states)

def unrelayed (g : Setup) (c : Client) (i : Pad) : List (UInt16 × Option Analog) :=
  wires g i (c.up.flatMap UpMessage.states ++ c.asyncQueue.flatMap UpMessage.states ++ c.packet g)

/-! ## Roles -/

inductive Role
  | bystander
  | golfer
  /-- `GolfPrepare` is on its way, or has not been answered. -/
  | invited
  | answered
  /-- The golfer, to whom `GolfSwitch` with nobody is on its way. -/
  | dismissed
  /-- `GolfRelease` is on its way. -/
  | leaving
  /-- `GolfSwitch` with the client itself is on its way. -/
  | elected
  /-- The golfer, whose `GolfAcquire` is on its way. -/
  | accepting

namespace Role

def invites : Role → Nat
  | .invited => 1
  | _ => 0

def replies : Role → List UpMessage
  | .answered => [.golfPrepare]
  | .leaving => [.golfRelease]
  | .accepting => [.golfAcquire]
  | _ => []

def polls : Role → Bool
  | .golfer | .dismissed | .accepting => true
  | _ => false

def looksOn : Role → Bool
  | .bystander | .invited | .answered => true
  | _ => false

def Golfers (p : PlayerId) (c : Client) : Role → Prop
  | .bystander | .invited | .answered => p ∉ c.golfers
  | .golfer | .accepting => c.golfers = [p] ∧ ∀ m ∈ c.down, m.isPadData = false
  | .dismissed => c.golfers = [p, 0] ∧ ∀ m ∈ c.down, m.isPadData = false
  | .leaving => c.golfers = [0] ∧ ∀ m ∈ c.down, m.isPadData = false
  | .elected => ∃ ms, c.down = ms ++ [.golfSwitch p] ∧ p ∉ ({ c with down := ms } : Client).golfers

def Up (up : List UpMessage) : Role → Prop
  | .golfer | .dismissed | .accepting => True
  | .leaving => ∃ ms ms', up = ms ++ .golfRelease :: ms' ∧ ∀ m ∈ ms', m.isPadHostData = false
  | _ => ∀ m ∈ up, m.isPadHostData = false

theorem Up.append {r : Role} {up : List UpMessage} {m : UpMessage} (h : r.Up up)
    (hm : r.polls = false → m.isPadHostData = false) : r.Up (up ++ [m]) := by
  cases r with
  | golfer | dismissed | accepting => trivial
  | leaving =>
      obtain ⟨ms, ms', rfl, hms'⟩ := h
      refine ⟨ms, ms' ++ [m], by simp, ?_⟩
      simp only [List.mem_append, List.mem_singleton]
      rintro m' (h' | rfl)
      · exact hms' m' h'
      · exact hm rfl
  | bystander | invited | answered | elected =>
      simp only [Up, List.mem_append, List.mem_singleton] at h ⊢
      rintro m' (h' | rfl)
      · exact h m' h'
      · exact hm rfl

theorem Up.tail {r : Role} {m : UpMessage} {ms : List UpMessage} (h : r.Up (m :: ms)) (hm : m ≠ .golfRelease) :
    r.Up ms := by
  cases r with
  | golfer | dismissed | accepting => trivial
  | leaving =>
      obtain ⟨us, us', hup, hus'⟩ := h
      cases us with
      | nil =>
          simp only [List.nil_append, List.cons.injEq] at hup
          exact absurd hup.1 hm
      | cons u us =>
          simp only [List.cons_append, List.cons.injEq] at hup
          exact ⟨us, us', hup.2, hus'⟩
  | bystander | invited | answered | elected =>
      intro m' h'
      exact h m' (List.mem_cons_of_mem _ h')

end Role

structure Plays (r : Role) (p : PlayerId) (c : Client) : Prop where
  golfers : r.Golfers p c
  invites : c.invites = r.invites
  replies : c.replies = r.replies
  queue : ∀ m ∈ c.asyncQueue, m.isReply = false
  silent : r.polls = false → c.cpu.polling = false ∧ ∀ m ∈ c.asyncQueue, m.isPadHostData = false
  up : r.Up c.up

inductive Move : Role → Role → Prop
  | stay (r : Role) : Move r r
  | answer : Move .invited .answered
  | leave : Move .dismissed .leaving
  | accept : Move .elected .accepting

def Advances (g : Setup) (r : Role) (c c' : Client) : Prop :=
  ∃ new : Pad → List (UInt16 × Option Analog), (∀ i, seen g c' i = seen g c i ++ new i) ∧
    (∀ i, unrelayed g c' i = unrelayed g c i ++ new i) ∧ (r.polls = false → ∀ i, new i = [])

variable {g : Setup} {r : Role} {p : PlayerId} {c c' : Client} {i : Pad}

theorem Advances.of_eq (hseen : seen g c' = seen g c) (hway : unrelayed g c' = unrelayed g c) :
    Advances g r c c' :=
  ⟨fun _ => [], fun i => by rw [hseen, List.append_nil], fun i => by rw [hway, List.append_nil], fun _ _ => rfl⟩

/-! ## What a role tells -/

theorem Plays.polls (h : Plays r p c) (hp : p ≠ 0) (hself : c.currentGolfer = p) : r.polls = true := by
  have hgolfers := h.golfers
  cases r with
  | golfer | dismissed | accepting => rfl
  | bystander | invited | answered => exact absurd (List.mem_cons.mpr (.inl hself.symm)) hgolfers
  | leaving =>
      have hzero : c.currentGolfer = 0 := (List.cons.inj hgolfers.1).1
      exact absurd (hself.symm.trans hzero) hp
  | elected =>
      obtain ⟨ms, -, hnot⟩ := hgolfers
      exact absurd (List.mem_cons.mpr (.inl hself.symm)) hnot

theorem Plays.quiet (h : Plays r p c) (hr : r.polls = true) : ∀ m ∈ c.down, m.isPadData = false := by
  have hgolfers := h.golfers
  cases r with
  | golfer | dismissed | accepting => exact hgolfers.2
  | bystander | invited | answered | leaving | elected => cases hr

theorem flatMap_states_eq_nil {ms : List UpMessage} (h : ∀ m ∈ ms, m.isPadHostData = false) :
    ms.flatMap UpMessage.states = [] := by
  simp only [List.flatMap_eq_nil_iff]
  intro m hm
  exact UpMessage.states_eq_nil (h m hm)

theorem packet_eq_nil (h : c.cpu.polling = false) : c.packet g = [] := by
  rw [Client.packet]
  split
  · next hcpu => rw [hcpu] at h; cases h
  · next hcpu => rw [hcpu] at h; cases h
  · rfl

theorem Plays.unrelayed_eq_nil (h : Plays r p c) (hr : r.polls = false) (hleave : r ≠ .leaving) :
    unrelayed g c i = [] := by
  obtain ⟨hcpu, hqueue⟩ := h.silent hr
  have hup : ∀ m ∈ c.up, m.isPadHostData = false := by
    have hup := h.up
    cases r with
    | golfer | dismissed | accepting => cases hr
    | leaving => exact absurd rfl hleave
    | bystander | invited | answered | elected => exact hup
  rw [unrelayed, flatMap_states_eq_nil hup, flatMap_states_eq_nil hqueue, packet_eq_nil hcpu]
  rfl

end Karphin.NetPlay.Golf
