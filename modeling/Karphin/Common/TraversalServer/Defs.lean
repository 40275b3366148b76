import Karphin.Lib.FinNumerals
import Karphin.Lib.Transition

/-!
# The traversal server

The packets that it handles and the ones it sends until they are acknowledged. Times are in microseconds; the clock does not go
back, so their differences do not wrap around. What is drawn at random and the order of the hash tables are given with each
packet.
-/

namespace Karphin.TraversalServer

abbrev TraversalRequestId := BitVec 64

abbrev TraversalHostId := Vector (BitVec 8) 8

structure TraversalInetAddress where
  isIPV6 : Bool
  address : Vector (BitVec 32) 4
  port : BitVec 16
  deriving DecidableEq

inductive TraversalConnectFailedReason
  | clientDidntRespond | clientFailure | noSuchClient
  deriving DecidableEq

inductive Content
  | ack (ok : BitVec 8)
  | ping (hostId : TraversalHostId)
  | helloFromClient (protoVersion : BitVec 8)
  | helloFromServer (ok : BitVec 8) (yourHostId : TraversalHostId) (yourAddress : TraversalInetAddress)
  | connectPlease (hostId : TraversalHostId)
  | pleaseSendPacket (address : TraversalInetAddress)
  | connectReady (requestId : TraversalRequestId) (address : TraversalInetAddress)
  | connectFailed (requestId : TraversalRequestId) (reason : TraversalConnectFailedReason)
  | testPlease (hostId : TraversalHostId)
  | unknown (type : BitVec 8)
  deriving DecidableEq

structure TraversalPacket where
  requestId : TraversalRequestId
  content : Content
  deriving DecidableEq

structure SockaddrIn6 where
  addr : Vector (BitVec 32) 4
  port : BitVec 16
  flowinfo : BitVec 32
  scopeId : BitVec 32
  deriving DecidableEq

def NUMBER_OF_TRIES : Nat := 5

def TraversalProtoVersion : BitVec 8 := 0

/-! ## Addresses -/

def makeInetAddress (addr : SockaddrIn6) : TraversalInetAddress :=
  if addr.addr[0] = 0 ∧ addr.addr[1] = 0 ∧ addr.addr[2] = 0xffff0000 then ⟨false, #v[addr.addr[3], 0, 0, 0], addr.port⟩
  else ⟨true, addr.addr, addr.port⟩

def makeSinAddr (addr : TraversalInetAddress) : SockaddrIn6 where
  addr := if addr.isIPV6 then addr.address else #v[0, 0, 0xffff0000, addr.address[0]]
  port := addr.port
  flowinfo := 0
  scopeId := 0

/-- The format `{:08x}` of a random number. -/
def getRandomHostId (num : BitVec 32) : TraversalHostId :=
  Vector.ofFn fun i =>
    let digit := (num >>> (4 * (7 - i.val))).setWidth 4
    if digit < 10 then 0x30 + digit.setWidth 8 else 0x61 + (digit.setWidth 8 - 10)

/-! ## Tables with an expiry -/

structure EvictEntry (V : Type) where
  updateTime : Nat
  value : V

section

variable {K V : Type} [DecidableEq K]

abbrev EvictMap (K V : Type) := List (K × EvictEntry V)

def expiryTime : Nat := 30 * 1000000

def expired (currentTime : Nat) (entry : EvictEntry V) : Bool := currentTime - entry.updateTime > expiryTime

/-- The loop over the bucket of a key erases what has expired until it meets the key. `visited` are the other keys that it
meets before. -/
def evictFind (map : EvictMap K V) (currentTime : Nat) (key : K) (refresh : Bool) (visited : K → Bool) :
    EvictMap K V × Option V :=
  let map := map.filter fun entry => !((entry.1 = key || visited entry.1) && expired currentTime entry.2)
  match map.find? fun entry => entry.1 = key with
  | some found =>
      let map :=
        if refresh then
          map.map fun entry => if entry.1 = key then (entry.1, { entry.2 with updateTime := currentTime }) else entry
        else map
      (map, some found.2.value)
  | none => (map, none)

def evictSet (map : EvictMap K V) (currentTime : Nat) (key : K) (value : V) : EvictMap K V :=
  (key, ⟨currentTime, value⟩) :: map.filter fun entry => entry.1 ≠ key

end

/-! ## The server -/

structure OutgoingPacketInfo where
  packet : TraversalPacket
  misc : TraversalRequestId
  fromAlt : Bool
  dest : SockaddrIn6
  tries : Nat
  sendTime : Nat

abbrev OutgoingPackets := List (TraversalRequestId × OutgoingPacketInfo)

abbrev ConnectedClients := EvictMap TraversalHostId TraversalInetAddress

inductive Event
  /-- `AllocPacket` has drawn an id. -/
  | allocated (requestId : TraversalRequestId)
  /-- A packet of the table of outgoing packets is sent. -/
  | sent (packet : TraversalPacket) (dest : SockaddrIn6) (fromAlt : Bool)
  | ackSent (requestId : TraversalRequestId) (ok : Bool) (dest : SockaddrIn6) (fromAlt : Bool)
  /-- An outgoing packet was acknowledged. -/
  | acknowledged (requestId : TraversalRequestId)
  /-- A ConnectPlease was handled; the ticket is the id of the packet that was allocated for it. -/
  | connectPlease (ticket requestId : TraversalRequestId) (hostId : TraversalHostId) (sender : SockaddrIn6)
  /-- A ConnectReady or a ConnectFailed was allocated for the ConnectPlease with the ticket. -/
  | outcome (ticket : TraversalRequestId) (packet : TraversalPacket) (dest : SockaddrIn6)
  | handedOut (hostId : TraversalHostId) (client : SockaddrIn6) (time : Nat)
  | refreshed (hostId : TraversalHostId) (time : Nat)
  deriving DecidableEq

structure Server where
  currentTime : Nat
  outgoingPackets : OutgoingPackets
  connectedClients : ConnectedClients
  log : List Event

namespace Server

def initial : Server := ⟨0, [], [], []⟩

def record (s : Server) (event : Event) : Server := { s with log := event :: s.log }

/-- `AllocPacket` draws the id; its callers fill in the content. -/
def allocPacket (s : Server) (requestId : TraversalRequestId) (dest : SockaddrIn6) (fromAlt : Bool)
    (misc : TraversalRequestId) (content : Content) : Server :=
  { s with
    outgoingPackets := (requestId, ⟨⟨requestId, content⟩, misc, fromAlt, dest, 0, s.currentTime⟩) ::
      s.outgoingPackets.filter fun entry => entry.1 ≠ requestId
    log := .allocated requestId :: s.log }

def allocOutcome (s : Server) (ticket requestId : TraversalRequestId) (dest : SockaddrIn6) (fromAlt : Bool)
    (content : Content) : Server :=
  (s.allocPacket requestId dest fromAlt 0 content).record (.outcome ticket ⟨requestId, content⟩ dest)

def erase (s : Server) (requestId : TraversalRequestId) : Server :=
  { s with outgoingPackets := s.outgoingPackets.filter fun entry => entry.1 ≠ requestId }

end Server

/-! ## Resending -/

def sendPacket (currentTime : Nat) (info : OutgoingPacketInfo) : OutgoingPacketInfo :=
  { info with tries := info.tries + 1, sendTime := currentTime }

/-- A ConnectPlease whose host did not respond, with the id of the packet that was sent to it. -/
structure TodoFailure where
  ticket : TraversalRequestId
  address : TraversalInetAddress
  fromAlt : Bool
  misc : TraversalRequestId

def todoFailure (requestId : TraversalRequestId) (info : OutgoingPacketInfo) : List TodoFailure :=
  match info.packet.content with
  | .pleaseSendPacket address => [⟨requestId, address, info.fromAlt, info.misc⟩]
  | _ => []

structure Resent where
  outgoingPackets : OutgoingPackets
  log : List Event
  todoFailures : List TodoFailure

def Resent.one (currentTime : Nat) (r : Resent) (entry : TraversalRequestId × OutgoingPacketInfo) : Resent :=
  let (requestId, info) := entry
  if currentTime - info.sendTime ≥ 300000 * info.tries then
    if info.tries ≥ NUMBER_OF_TRIES then { r with todoFailures := r.todoFailures ++ todoFailure requestId info }
    else
      { r with
        outgoingPackets := r.outgoingPackets ++ [(requestId, sendPacket currentTime info)]
        log := .sent info.packet info.dest info.fromAlt :: r.log }
  else { r with outgoingPackets := r.outgoingPackets ++ [entry] }

namespace Server

def failAll (s : Server) : List TodoFailure → List TraversalRequestId → Option Server
  | [], _ => some s
  | _ :: _, [] => none
  | p :: todoFailures, requestId :: requestIds =>
      (s.allocOutcome p.ticket requestId (makeSinAddr p.address) p.fromAlt
        (.connectFailed p.misc .clientDidntRespond)).failAll todoFailures requestIds

def resendPackets (s : Server) (requestIds : List TraversalRequestId) : Option Server :=
  let r := s.outgoingPackets.foldl (Resent.one s.currentTime) ⟨[], s.log, []⟩
  { s with outgoingPackets := r.outgoingPackets, log := r.log }.failAll r.todoFailures requestIds

/-! ## Packets -/

def setClients (s : Server) (clients : ConnectedClients) : Server := { s with connectedClients := clients }

def findHostId (currentTime : Nat) : ConnectedClients → List (BitVec 32 × (TraversalHostId → Bool)) →
    Option (ConnectedClients × TraversalHostId)
  | _, [] => none
  | clients, (num, visited) :: draws =>
      match evictFind clients currentTime (getRandomHostId num) false visited with
      | (clients, some _) => findHostId currentTime clients draws
      | (clients, none) => some (clients, getRandomHostId num)

def handleAck (s : Server) (requestId : TraversalRequestId) (ok : BitVec 8) (toAlt : Bool) (draw : TraversalRequestId) :
    Server :=
  match s.outgoingPackets.find? fun entry => entry.1 = requestId with
  | none => s
  | some (_, info) =>
      let s :=
        match info.packet.content with
        | .pleaseSendPacket address =>
            s.allocOutcome requestId draw (makeSinAddr address) toAlt
              (if ok ≠ 0 then .connectReady info.misc (makeInetAddress info.dest)
              else .connectFailed info.misc .clientFailure)
        | _ => s
      (s.erase requestId).record (.acknowledged requestId)

def handlePing (s : Server) (hostId : TraversalHostId) (visited : TraversalHostId → Bool) : Server × Bool :=
  match evictFind s.connectedClients s.currentTime hostId true visited with
  | (clients, some _) => ((s.setClients clients).record (.refreshed hostId s.currentTime), true)
  | (clients, none) => (s.setClients clients, false)

def handleHello (s : Server) (protoVersion : BitVec 8) (addr : SockaddrIn6) (toAlt : Bool) (draw : TraversalRequestId)
    (hostIds : List (BitVec 32 × (TraversalHostId → Bool))) : Option Server :=
  if protoVersion ≤ TraversalProtoVersion then
    (findHostId s.currentTime s.connectedClients hostIds).map fun (clients, hostId) =>
      ((s.setClients (evictSet clients s.currentTime hostId (makeInetAddress addr))).record
        (.handedOut hostId addr s.currentTime)).allocPacket draw addr toAlt 0
          (.helloFromServer 1 hostId (makeInetAddress addr))
  else some (s.allocPacket draw addr toAlt 0 (.helloFromServer 0 (.replicate 8 0) ⟨false, .replicate 4 0, 0⟩))

def handleConnectPlease (s : Server) (requestId : TraversalRequestId) (hostId : TraversalHostId) (addr : SockaddrIn6)
    (toAlt : Bool) (draw : TraversalRequestId) (visited : TraversalHostId → Bool) : Server :=
  match evictFind s.connectedClients s.currentTime hostId false visited with
  | (clients, none) =>
      let s := (s.setClients clients).allocPacket draw addr toAlt 0 (.connectFailed requestId .noSuchClient)
      (s.record (.connectPlease draw requestId hostId addr)).record
        (.outcome draw ⟨draw, .connectFailed requestId .noSuchClient⟩ addr)
  | (clients, some value) =>
      let s := (s.setClients clients).allocPacket draw (makeSinAddr value) toAlt requestId
        (.pleaseSendPacket (makeInetAddress addr))
      s.record (.connectPlease draw requestId hostId addr)

def handleTestPlease (s : Server) (requestId : TraversalRequestId) (hostId : TraversalHostId) (toAlt : Bool)
    (visited : TraversalHostId → Bool) : Server :=
  match evictFind s.connectedClients s.currentTime hostId false visited with
  | (clients, some value) => (s.setClients clients).record (.ackSent requestId true (makeSinAddr value) toAlt)
  | (clients, none) => s.setClients clients

structure Draws where
  requestId : TraversalRequestId
  visited : TraversalHostId → Bool
  hostIds : List (BitVec 32 × (TraversalHostId → Bool))

/-- An id for a client is drawn until one is free: none where it is not among the draws. -/
def handlePacket (s : Server) (packet : TraversalPacket) (addr : SockaddrIn6) (toAlt : Bool) (draws : Draws) :
    Option Server :=
  let ack (s : Server) (ok : Bool) (fromAlt : Bool) := s.record (.ackSent packet.requestId ok addr fromAlt)
  match packet.content with
  | .ack ok => some (s.handleAck packet.requestId ok toAlt draws.requestId)
  | .ping hostId =>
      let (s, packetOk) := s.handlePing hostId draws.visited
      some (ack s packetOk toAlt)
  | .helloFromClient protoVersion =>
      (s.handleHello protoVersion addr toAlt draws.requestId draws.hostIds).map fun s => ack s true toAlt
  | .connectPlease hostId =>
      some (ack (s.handleConnectPlease packet.requestId hostId addr toAlt draws.requestId draws.visited) true toAlt)
  | .testPlease hostId => some (ack (s.handleTestPlease packet.requestId hostId toAlt draws.visited) true !toAlt)
  | _ => some (ack s true toAlt)

end Server

/-! ## Runs -/

inductive Action
  | advance (time : Nat)
  | handle (packet : TraversalPacket) (addr : SockaddrIn6) (toAlt : Bool) (draws : Server.Draws)
  | resend (requestIds : List TraversalRequestId)

def step (s : Server) : Action → Option Server
  | .advance time => if s.currentTime ≤ time then some { s with currentTime := time } else none
  | .handle packet addr toAlt draws => s.handlePacket packet addr toAlt draws
  | .resend requestIds => s.resendPackets requestIds

def Fresh (s : Server) : Action → Prop
  | .advance _ => True
  | .handle _ _ _ draws => .allocated draws.requestId ∉ s.log
  | .resend requestIds => requestIds.Nodup ∧ ∀ requestId ∈ requestIds, .allocated requestId ∉ s.log

end Karphin.TraversalServer
