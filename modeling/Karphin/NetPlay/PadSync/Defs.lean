import Karphin.Lib.FinNumerals
import Karphin.Lib.Transition

/-!
# Input agreement without host input authority

`GetNetPads`, `PollLocalPad`, `OnPadData`, `OnStartGame` and `StartGame` of the clients, and the relay of `PadData`
by the server, within one game. The asynchronous queue of a client and its connection to the server are one
channel, since both keep the order. The thread of the emulated CPU reads the target of the buffer at each turn of
its loop, and the network thread may change it in between.
-/

namespace Karphin.NetPlay.PadSync

abbrev PlayerId := Nat

abbrev Pad := Fin 4

/-- The fields of a status that a GBA does not send. -/
structure Analog where
  analogA : UInt8 := 0
  analogB : UInt8 := 0
  stickX : UInt8 := 0
  stickY : UInt8 := 0
  substickX : UInt8 := 0
  substickY : UInt8 := 0
  triggerLeft : UInt8 := 0
  triggerRight : UInt8 := 0
  isConnected : Bool := true
deriving DecidableEq

structure GCPadStatus where
  button : UInt16 := 0
  analog : Analog := {}
deriving DecidableEq

/-- What does not change during the game. -/
structure Setup where
  players : List PlayerId
  padMap : Pad → PlayerId
  gbaEnabled : Pad → Bool
  game : Nat

namespace Setup

variable (g : Setup)

def isFirstInGamePad (ingamePad : Pad) : Bool := (List.finRange 4).all fun i => ¬ (i < ingamePad ∧ g.padMap i > 0)

def numLocalPads (pid : PlayerId) : Nat := (List.finRange 4).countP (g.padMap · = pid)

def inGamePadToLocalPad (pid : PlayerId) (ingamePad : Pad) : Nat :=
  if g.padMap ingamePad ≠ pid then 4
  else (List.finRange 4).countP fun i => i < ingamePad ∧ g.padMap i = pid

def findLocalPad (pid : PlayerId) (localPad : Int) : List Pad → Int → Option Pad
  | [], _ => none
  | i :: is, count =>
      let count := if g.padMap i = pid then count + 1 else count
      if count = localPad then some i else findLocalPad pid localPad is count

def localPadToInGamePad (pid : PlayerId) (localPad : Nat) : Option Pad :=
  g.findLocalPad pid localPad (List.finRange 4) (-1)

def polledPads (pid : PlayerId) (padNb : Pad) (batching : Bool) : List Pad :=
  if batching then
    if g.isFirstInGamePad padNb then (List.range (g.numLocalPads pid)).filterMap (g.localPadToInGamePad pid) else []
  else
    let localPad := g.inGamePadToLocalPad pid padNb
    if localPad < 4 then (g.localPadToInGamePad pid localPad).toList else []

end Setup

/-! ## Packets -/

structure PadState where
  map : Pad
  button : UInt16
  analog : Option Analog

def addPadStateToPacket (g : Setup) (ingamePad : Pad) (pad : GCPadStatus) : PadState :=
  ⟨ingamePad, pad.button, if g.gbaEnabled ingamePad then none else some pad.analog⟩

def readPad (g : Setup) (e : PadState) : GCPadStatus :=
  ⟨e.button, if g.gbaEnabled e.map then {} else e.analog.getD {}⟩

def transmitted (g : Setup) (ingamePad : Pad) (pad : GCPadStatus) : UInt16 × Option Analog :=
  (pad.button, if g.gbaEnabled ingamePad then none else some pad.analog)

inductive UpMessage
  | startGame (game : Nat)
  | padData (states : List PadState)

inductive DownMessage
  | padBuffer (size : Nat)
  | startGame
  | padData (states : List PadState)

def DownMessage.isPadData : DownMessage → Bool
  | .padData _ => true
  | _ => false

/-! ## Clients -/

inductive Cpu
  | idle
  | poll (pads : List Pad) (status : Option GCPadStatus) (packet : List PadState) (padNb : Pad)
  | pop (padNb : Pad)

structure Client where
  /-- `OnStartGame` has set `m_current_game`. -/
  invited : Bool := false
  isRunning : Bool := false
  targetBufferSize : Nat := 0
  padBuffer : Pad → List GCPadStatus := fun _ => []
  cpu : Cpu := .idle
  up : List UpMessage := []
  down : List DownMessage := []
  /-- What was pushed by `PollLocalPad` and what was popped, in this game. -/
  pushed : Pad → List GCPadStatus := fun _ => []
  popped : Pad → List GCPadStatus := fun _ => []

namespace Client

variable (g : Setup)

def startGame (c : Client) : Client :=
  { c with up := c.up ++ [.startGame g.game], isRunning := true, padBuffer := fun _ => [] }

def push (c : Client) (ingamePad : Pad) (pad : GCPadStatus) : Client :=
  { c with padBuffer := Function.update c.padBuffer ingamePad (c.padBuffer ingamePad ++ [pad]) }

def onPadData (c : Client) (states : List PadState) : Client :=
  states.foldl (fun c e => c.push e.map (readPad g e)) c

/-- One step of `GetNetPads`; `status` is what the controller says when it is asked. -/
def getNetPads (c : Client) (status : GCPadStatus) : Option Client :=
  match c.cpu with
  | .idle => none
  | .poll (i :: is) none packet padNb => some { c with cpu := .poll (i :: is) (some status) packet padNb }
  | .poll (i :: is) (some pad) packet padNb =>
      if (c.padBuffer i).length ≤ c.targetBufferSize then
        some { c.push i pad with
          pushed := Function.update c.pushed i (c.pushed i ++ [pad])
          cpu := .poll (i :: is) (some pad) (packet ++ [addPadStateToPacket g i pad]) padNb }
      else some { c with cpu := .poll is none packet padNb }
  | .poll [] _ packet padNb =>
      some { c with up := if packet.isEmpty then c.up else c.up ++ [.padData packet], cpu := .pop padNb }
  | .pop padNb => match c.padBuffer padNb with
    | [] => none
    | pad :: pads =>
        some { c with
          padBuffer := Function.update c.padBuffer padNb pads
          popped := Function.update c.popped padNb (c.popped padNb ++ [pad])
          cpu := .idle }

def onData (c : Client) : DownMessage → Client
  | .padBuffer size => { c with targetBufferSize := size }
  | .startGame => { c with invited := true }
  | .padData states => c.onPadData g states

end Client

/-! ## The server -/

structure State where
  client : PlayerId → Client
  /-- `player.current_game` -/
  currentGame : PlayerId → Nat
  /-- Players for whom `OnData` has returned 1. -/
  kicked : List PlayerId

namespace State

variable (g : Setup)

def setClient (s : State) (p : PlayerId) (c : Client) : State := { s with client := Function.update s.client p c }

/-- `SendToClients`; nobody has the id 0. -/
def sendToClients (s : State) (m : DownMessage) (skip : PlayerId) : State :=
  { s with client := fun p =>
      if p ∈ g.players ∧ p ≠ skip then { s.client p with down := (s.client p).down ++ [m] } else s.client p }

def relayed (states : List PadState) : List PadState :=
  states.map fun e => addPadStateToPacket g e.map (readPad g e)

def onPadData (s : State) (p : PlayerId) (states : List PadState) : State :=
  if s.currentGame p ≠ g.game then s
  else if states.all (g.padMap ·.map = p) then s.sendToClients g (.padData (relayed g states)) p
  else { s with kicked := s.kicked ++ [p] }

def onData (s : State) (p : PlayerId) : UpMessage → State
  | .startGame game => { s with currentGame := Function.update s.currentGame p game }
  | .padData states => s.onPadData g p states

inductive Op
  | adjustPadBufferSize (size : Nat)
  | startGame (p : PlayerId)
  | beginPoll (p : PlayerId) (padNb : Pad) (batching : Bool)
  | getNetPads (p : PlayerId) (status : GCPadStatus)
  | relay (p : PlayerId)
  | deliver (p : PlayerId)

def step (s : State) : Op → Option State
  | .adjustPadBufferSize size => some (s.sendToClients g (.padBuffer size) 0)
  | .startGame p =>
      if p ∈ g.players ∧ (s.client p).invited ∧ !(s.client p).isRunning then
        some (s.setClient p ((s.client p).startGame g))
      else none
  | .beginPoll p padNb batching =>
      if p ∈ g.players ∧ (s.client p).isRunning then
        match (s.client p).cpu with
        | .idle =>
            some (s.setClient p { s.client p with cpu := .poll (g.polledPads p padNb batching) none [] padNb })
        | _ => none
      else none
  | .getNetPads p status =>
      if p ∈ g.players then ((s.client p).getNetPads g status).map (s.setClient p) else none
  | .relay p =>
      if p ∈ g.players then
        match (s.client p).up with
        | [] => none
        | m :: ms => some ((s.setClient p { s.client p with up := ms }).onData g p m)
      else none
  | .deliver p =>
      if p ∈ g.players then
        match (s.client p).down with
        | [] => none
        | m :: ms => some (s.setClient p (({ s.client p with down := ms } : Client).onData g m))
      else none

/-! ## Agreement -/

/-- The server has started the game and told the clients. What is left of earlier games is in the buffers and in
front of the messages of this one. -/
structure Initial (s : State) : Prop where
  client : ∀ p, (s.client p).invited = false ∧ (s.client p).isRunning = false ∧ (s.client p).cpu = .idle
  streams : ∀ p i, (s.client p).pushed i = [] ∧ (s.client p).popped i = []
  up : ∀ p game, .startGame game ∈ (s.client p).up → game ≠ g.game
  currentGame : ∀ p, s.currentGame p ≠ g.game
  down : ∀ p, ∃ old, (s.client p).down = old ++ [.startGame] ∧ .startGame ∉ old

def Agreement (s : State) : Prop :=
  ∀ p ∈ g.players, ∀ i, ((s.client p).popped i).map (transmitted g i) <+:
    ((s.client (g.padMap i)).pushed i).map (transmitted g i)

def Comparable (s : State) : Prop :=
  ∀ p ∈ g.players, ∀ q ∈ g.players, ∀ i,
    ((s.client p).popped i).map (transmitted g i) <+: ((s.client q).popped i).map (transmitted g i) ∨
    ((s.client q).popped i).map (transmitted g i) <+: ((s.client p).popped i).map (transmitted g i)

/-- No `PadData` is handled between `OnStartGame` and `StartGame`. -/
def Orderly (s : State) : Op → Prop
  | .deliver p => (s.client p).invited = true → (s.client p).isRunning = false →
      ∀ m ∈ (s.client p).down.head?, m.isPadData = false
  | _ => True

end State

end Karphin.NetPlay.PadSync

/-!
# The states of a pad that are in flight
-/

namespace Karphin.NetPlay.PadSync

variable {g : Setup} {p q : PlayerId} {i j : Pad}

/-! ## Local pads -/

theorem Setup.findLocalPad_mine {pid : PlayerId} {localPad : Int} {is : List Pad} {count : Int}
    (h : g.findLocalPad pid localPad is count = some i) (hlt : count < localPad) : g.padMap i = pid := by
  induction is generalizing count with
  | nil => cases h
  | cons j js ih =>
      simp only [findLocalPad] at h
      by_cases hj : g.padMap j = pid
      · rw [if_pos hj] at h
        split at h
        · cases h; exact hj
        · exact ih h (by omega)
      · rw [if_neg hj] at h
        split at h
        · omega
        · exact ih h hlt

theorem Setup.localPadToInGamePad_mine {pid : PlayerId} {localPad : Nat}
    (h : g.localPadToInGamePad pid localPad = some i) : g.padMap i = pid :=
  findLocalPad_mine h (by omega)

theorem Setup.polledPads_mine {pid : PlayerId} {padNb : Pad} {batching : Bool}
    (h : i ∈ g.polledPads pid padNb batching) : g.padMap i = pid := by
  rw [polledPads] at h
  split at h
  · split at h
    · obtain ⟨localPad, -, hi⟩ := List.mem_filterMap.mp h
      exact localPadToInGamePad_mine hi
    · cases h
  · dsimp only at h
    split at h
    · exact localPadToInGamePad_mine (Option.mem_toList.mp h)
    · cases h

/-! ## What is in flight -/

def wires (g : Setup) (i : Pad) (states : List PadState) : List (UInt16 × Option Analog) :=
  (states.filter (·.map = i)).map fun e => transmitted g i (readPad g e)

theorem wires_nil : wires g i [] = [] := rfl

theorem wires_append {es es' : List PadState} : wires g i (es ++ es') = wires g i es ++ wires g i es' := by
  simp only [wires, List.filter_append, List.map_append]

theorem wires_cons {e : PadState} {es : List PadState} : wires g i (e :: es) = wires g i [e] ++ wires g i es := by
  rw [← List.singleton_append, wires_append]

theorem wires_eq_nil {es : List PadState} (h : ∀ e ∈ es, e.map ≠ i) : wires g i es = [] := by
  rw [wires, List.map_eq_nil_iff, List.filter_eq_nil_iff]
  intro e he heq
  exact h e he (of_decide_eq_true heq)

theorem transmitted_readPad {pad : GCPadStatus} :
    transmitted g i (readPad g (addPadStateToPacket g i pad)) = transmitted g i pad := by
  simp only [transmitted, readPad, addPadStateToPacket]
  split
  · rfl
  · rfl

theorem wires_addPadState {pad : GCPadStatus} :
    wires g j [addPadStateToPacket g i pad] = if i = j then [transmitted g i pad] else [] := by
  by_cases h : i = j
  · subst h
    have hfilter : [addPadStateToPacket g i pad].filter (·.map = i) = [addPadStateToPacket g i pad] := by
      simp [addPadStateToPacket]
    rw [if_pos rfl, wires, hfilter, List.map_singleton, transmitted_readPad]
  · rw [if_neg h]
    refine wires_eq_nil fun e he => ?_
    rw [List.mem_singleton.mp he]
    exact h

theorem wires_relayed {es : List PadState} : wires g i (State.relayed g es) = wires g i es := by
  induction es with
  | nil => rfl
  | cons e es ih =>
      have hone : wires g i [addPadStateToPacket g e.map (readPad g e)] = wires g i [e] := by
        rw [wires_addPadState]
        by_cases h : e.map = i
        · rw [if_pos h]
          simp [wires, h]
        · rw [if_neg h]
          simp [wires, h]
      calc wires g i (State.relayed g (e :: es))
          = wires g i [addPadStateToPacket g e.map (readPad g e)] ++ wires g i (State.relayed g es) := wires_cons
        _ = wires g i [e] ++ wires g i es := by rw [hone, ih]
        _ = wires g i (e :: es) := wires_cons.symm

/-- The states that the server will relay, when the sender has reported `game`. -/
def liveUp (g : Setup) : Nat → List UpMessage → List PadState
  | _, [] => []
  | _, .startGame game :: ms => liveUp g game ms
  | game, .padData es :: ms => if game = g.game then es ++ liveUp g game ms else liveUp g game ms

def lastGame : Nat → List UpMessage → Nat
  | game, [] => game
  | _, .startGame game :: ms => lastGame game ms
  | game, .padData _ :: ms => lastGame game ms

theorem liveUp_startGame {game game' : Nat} {ms : List UpMessage} :
    liveUp g game (ms ++ [.startGame game']) = liveUp g game ms := by
  induction ms generalizing game with
  | nil => rfl
  | cons m ms ih =>
      cases m with
      | startGame game'' => exact ih
      | padData es =>
          simp only [List.cons_append, liveUp, ih]

theorem lastGame_startGame {game game' : Nat} {ms : List UpMessage} :
    lastGame game (ms ++ [.startGame game']) = game' := by
  induction ms generalizing game with
  | nil => rfl
  | cons m ms ih =>
      cases m with
      | startGame game'' => exact ih
      | padData es => exact ih

theorem liveUp_padData {game : Nat} {ms : List UpMessage} {es : List PadState} (h : lastGame game ms = g.game) :
    liveUp g game (ms ++ [.padData es]) = liveUp g game ms ++ es := by
  induction ms generalizing game with
  | nil =>
      rw [lastGame] at h
      simp only [List.nil_append, liveUp, if_pos h, List.append_nil]
  | cons m ms ih =>
      cases m with
      | startGame game' => exact ih h
      | padData es' =>
          simp only [List.cons_append, liveUp]
          rw [ih h]
          split
          · rw [List.append_assoc]
          · rfl

theorem lastGame_padData {game : Nat} {ms : List UpMessage} {es : List PadState} :
    lastGame game (ms ++ [.padData es]) = lastGame game ms := by
  induction ms generalizing game with
  | nil => rfl
  | cons m ms ih =>
      cases m with
      | startGame game' => exact ih
      | padData es' => exact ih

def liveDown : Bool → List DownMessage → List PadState
  | _, [] => []
  | _, .startGame :: ms => liveDown true ms
  | invited, .padBuffer _ :: ms => liveDown invited ms
  | invited, .padData es :: ms => if invited then es ++ liveDown invited ms else liveDown invited ms

def told : Bool → List DownMessage → Bool
  | invited, [] => invited
  | _, .startGame :: ms => told true ms
  | invited, .padBuffer _ :: ms => told invited ms
  | invited, .padData _ :: ms => told invited ms

theorem liveDown_append {invited : Bool} {ms : List DownMessage} {m : DownMessage} (h : told invited ms = true) :
    liveDown invited (ms ++ [m]) = liveDown invited ms ++ liveDown true [m] ∧ told invited (ms ++ [m]) = true := by
  induction ms generalizing invited with
  | nil =>
      rw [told] at h
      subst h
      cases m with
      | padBuffer size => exact ⟨rfl, rfl⟩
      | startGame => exact ⟨rfl, rfl⟩
      | padData es => exact ⟨rfl, rfl⟩
  | cons m' ms ih =>
      cases m' with
      | padBuffer size => exact ih h
      | startGame => exact ih h
      | padData es =>
          obtain ⟨hlive, htold⟩ := ih h
          refine ⟨?_, htold⟩
          simp only [List.cons_append, liveDown, hlive]
          split
          · rw [List.append_assoc]
          · rfl

end Karphin.NetPlay.PadSync
