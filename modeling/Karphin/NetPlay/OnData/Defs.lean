import Karphin.Lib.FinNumerals
import Karphin.Lib.Packet

/-!
# What the server does with a packet

`NetPlayServer::OnData` from the bytes of a packet on. Pad maps are `std::array`s that are indexed with `at`, and a
variable that no read has set holds anything.
-/

namespace Karphin.NetPlay.OnData

open Lib

abbrev PlayerId := UInt8

/-! ## Messages -/

inductive MessageID
  | chatMessage
  | chunkedDataProgress
  | chunkedDataComplete
  | padData
  | padHostData
  | wiimoteData
  | golfRequest
  | golfSwitch
  | golfAcquire
  | golfRelease
  | golfPrepare
  | startGame
  | stopGame
  | gameStatus
  | clientCapabilities
  | powerButton
  | timeBase
  | desyncDetected
  | gameDigestProgress
  | gameDigestResult
  | gameDigestError
  | padBuffer
  | pong
  | playerPingData
  | syncSaveData
  | syncCodes
  deriving DecidableEq, Repr

def MessageID.toByte : MessageID → UInt8
  | .chatMessage => 0x30
  | .chunkedDataProgress => 0x43
  | .chunkedDataComplete => 0x44
  | .padData => 0x60
  | .padBuffer => 0x62
  | .padHostData => 0x63
  | .wiimoteData => 0x70
  | .golfRequest => 0x90
  | .golfSwitch => 0x91
  | .golfAcquire => 0x92
  | .golfRelease => 0x93
  | .golfPrepare => 0x94
  | .startGame => 0xA0
  | .stopGame => 0xA2
  | .gameStatus => 0xA4
  | .clientCapabilities => 0xA5
  | .powerButton => 0xA7
  | .timeBase => 0xB0
  | .desyncDetected => 0xB1
  | .gameDigestProgress => 0xC1
  | .gameDigestResult => 0xC2
  | .gameDigestError => 0xC4
  | .pong => 0xE1
  | .playerPingData => 0xE2
  | .syncSaveData => 0xF1
  | .syncCodes => 0xF2

def MessageID.ofByte (b : UInt8) : Option MessageID :=
  [.chatMessage, .chunkedDataProgress, .chunkedDataComplete, .padData, .padHostData, .wiimoteData, .golfRequest,
    .golfRelease, .golfAcquire, .golfPrepare, .pong, .startGame, .stopGame, .gameStatus, .clientCapabilities,
    .powerButton, .timeBase, .gameDigestProgress, .gameDigestResult, .gameDigestError, .syncSaveData,
    MessageID.syncCodes].find? (·.toByte = b)

/-! ## The server -/

structure Client where
  pid : PlayerId
  name : List UInt8 := []
  gameStatus : UInt8 := 6
  hasIplDump : Bool := false
  hasHardwareFma : Bool := false
  ping : Nat := 0
  currentGame : Nat := 0
  deriving DecidableEq, Repr

structure Server where
  golfMode : Bool := false
  isRunning : Bool := false
  pingKey : Nat := 0
  currentGame : Nat := 0
  targetBufferSize : Nat := 0
  padMap : Vector PlayerId 4 := Vector.replicate 4 0
  gbaEnabled : Vector Bool 4 := Vector.replicate 4 false
  wiimoteMap : Vector PlayerId 4 := Vector.replicate 4 0
  saveDataSyncedPlayers : Nat := 0
  codesSyncedPlayers : Nat := 0
  savesSynced : Bool := true
  codesSynced : Bool := true
  startPending : Bool := false
  hostInputAuthority : Bool := false
  currentGolfer : PlayerId := 1
  pendingGolfer : PlayerId := 0
  players : List Client := []
  timebaseByFrame : Nat → List (PlayerId × Nat) := fun _ => []
  desyncDetected : Bool := false
  chunkedDataCompleteCount : Nat → Option Nat := fun _ => none
  abortChunkedData : Bool := false

inductive Event
  | chunkedProgress (pid : PlayerId) (progress : Nat)
  | chunkedDataEvent
  | chunkedDataCompleteEvent
  | savesSynchronized
  | codesSynchronized
  | failedToSynchronize (name : List UInt8)
  | failedToSynchronizeCodes (name : List UInt8)
  | gameStartAborted
  | unknownMessage (id : UInt8) (pid : PlayerId)
  | unknownSyncSaveData (id : UInt8) (pid : PlayerId)
  | unknownSyncCodes (id : UInt8) (pid : PlayerId)
  deriving DecidableEq, Repr

/-- The state while a packet is handled: the server, what was sent to which client, and the events. -/
structure Work where
  server : Server
  sent : List (PlayerId × List UInt8) := []
  events : List Event := []

inductive Outcome
  /-- `OnData` returned this number. -/
  | returned (code : Nat) (work : Work)
  /-- An exception left `OnData`. -/
  | threw

/-- What the server finds outside: the clocks, the settings that `StartGame` sends behind the number of the game, and
what variables hold before anything was read into them. -/
structure Env where
  elapsedMs : Nat
  nowMs : Nat
  startSettings : List UInt8
  junk : Nat
  junkMap : Nat → UInt8
  junkLength : Nat → UInt8
  junkData : Nat → List UInt8

namespace Work

def send (w : Work) (pid : PlayerId) (packet : List UInt8) : Work := { w with sent := w.sent ++ [(pid, packet)] }

/-- `SendToClients`, and `SendAsyncToClients`, whose queue the server's thread empties. -/
def sendToClients (w : Work) (packet : List UInt8) (skipPid : PlayerId := 0) : Work :=
  w.server.players.foldl (fun w p => if p.pid ≠ 0 ∧ p.pid ≠ skipPid then w.send p.pid packet else w) w

def event (w : Work) (e : Event) : Work := { w with events := w.events ++ [e] }

def updatePlayer (w : Work) (pid : PlayerId) (f : Client → Client) : Work :=
  { w with server := { w.server with players := w.server.players.map fun p => if p.pid = pid then f p else p } }

end Work

def Server.playerHasControllerMapped (s : Server) (pid : PlayerId) : Bool :=
  s.padMap.toList.any (· = pid) || s.wiimoteMap.toList.any (· = pid)

def adjustPadBufferSize (w : Work) (size : Nat) : Work :=
  let w := { w with server := { w.server with targetBufferSize := size } }
  if !w.server.hostInputAuthority then w.sendToClients (MessageID.padBuffer.toByte :: beBytes 4 size) else w

def startGame (env : Env) (w : Work) : Work :=
  let w := { w with
    server := { w.server with
      timebaseByFrame := fun _ => []
      desyncDetected := false
      currentGame := env.nowMs % 2 ^ 32 } }
  let w := if !w.server.hostInputAuthority then adjustPadBufferSize w w.server.targetBufferSize else w
  let w := { w with server := { w.server with currentGolfer := 1, pendingGolfer := 0 } }
  let w := w.sendToClients (MessageID.startGame.toByte :: (beBytes 4 w.server.currentGame ++ env.startSettings))
  { w with server := { w.server with startPending := false, isRunning := true } }

def checkSyncAndStartGame (env : Env) (w : Work) : Work :=
  if w.server.savesSynced && w.server.codesSynced then startGame env w else w

/-! ## Pads -/

inductive Relayed
  | done (spac : List UInt8)
  | kicked
  | threw

/-- The buttons and, for a controller that is not a GBA, the sticks and triggers of one pad. -/
def readPad (gba : Bool) (packet : Packet) : List UInt8 × Packet :=
  let (button, packet) := packet.readNat 2 0
  if gba then (beBytes 2 button, packet)
  else
    let (analog, packet) := Packet.readBytes (List.replicate 8 0) 8 packet
    let (isConnected, packet) := packet.readBool true
    (beBytes 2 button ++ analog ++ Packet.putBool isConnected, packet)

/-- The loop of `PadData` and `PadHostData`, in round `k`. Only the first one looks at the player. -/
def relayPads (env : Env) (s : Server) (checked : Option PlayerId) :
    (fuel k : Nat) → Packet → List UInt8 → Option Relayed
  | 0, _, _, _ => none
  | fuel + 1, k, packet, spac =>
      if packet.endOfPacket then some (.done spac)
      else
        let (map, packet) := packet.readByte (env.junkMap k)
        if h : map.toNat < 4 then
          if checked.any (s.padMap.get ⟨map.toNat, h⟩ ≠ ·) then some .kicked
          else
            let (pad, packet) := readPad (s.gbaEnabled.get ⟨map.toNat, h⟩) packet
            relayPads env s checked fuel (k + 1) packet (spac ++ map :: pad)
        else some .threw

def relayWiimotes (env : Env) (s : Server) (pid : PlayerId) : (fuel k : Nat) → Packet → List UInt8 → Option Relayed
  | 0, _, _, _ => none
  | fuel + 1, k, packet, spac =>
      if packet.endOfPacket then some (.done spac)
      else
        let (map, packet) := packet.readByte (env.junkMap k)
        if h : map.toNat < 4 then
          if s.wiimoteMap.get ⟨map.toNat, h⟩ ≠ pid then some .kicked
          else
            let (length, packet) := packet.readByte (env.junkLength k)
            if length.toNat > 30 then some .kicked
            else
              let (data, packet) := Packet.readBytes (env.junkData k) length.toNat packet
              relayWiimotes env s pid fuel (k + 1) packet (spac ++ map :: length :: data)
        else some .threw

def Relayed.finish (w : Work) (relay : List UInt8 → Work) : Relayed → Outcome
  | .done spac => .returned 0 (relay spac)
  | .kicked => .returned 1 w
  | .threw => .threw

/-! ## `OnData` -/

/-- The player to blame: the first one whose time base no other player has, else nobody. -/
def pidToBlame (timebases : List (PlayerId × Nat)) : Nat :=
  match timebases.find? fun pair => timebases.all fun other => other.1 = pair.1 || other.2 ≠ pair.2 with
  | some pair => pair.1.toNat
  | none => 0

def onTimeBase (w : Work) (player : Client) (timebase frame : Nat) : Work :=
  if w.server.desyncDetected then w
  else
    let timebases := w.server.timebaseByFrame frame ++ [(player.pid, timebase)]
    let w := { w with
      server := { w.server with timebaseByFrame := Function.update w.server.timebaseByFrame frame timebases } }
    if timebases.length ≥ w.server.players.length then
      let w := if timebases.all (fun pair => some pair.2 = timebases.head?.map Prod.snd) then w
        else
          let w := w.sendToClients (MessageID.desyncDetected.toByte ::
            (beBytes 4 (pidToBlame timebases) ++ beBytes 4 frame))
          { w with server := { w.server with desyncDetected := true } }
      { w with server := { w.server with timebaseByFrame := Function.update w.server.timebaseByFrame frame [] } }
    else w

def onSyncSaveData (env : Env) (w : Work) (player : Client) (packet : Packet) : Outcome :=
  let (subId, _) := packet.readByte 0
  if subId = 1 then
    if w.server.startPending then
      let n := w.server.saveDataSyncedPlayers + 1
      let w := { w with server := { w.server with saveDataSyncedPlayers := n } }
      if n ≥ w.server.players.length - 1 then
        let w := w.event .savesSynchronized
        .returned 0 (checkSyncAndStartGame env { w with server := { w.server with savesSynced := true } })
      else .returned 0 w
    else .returned 0 w
  else if subId = 2 then
    let w := (w.event (.failedToSynchronize player.name)).event .gameStartAborted
    let w := ({ w with server := { w.server with abortChunkedData := true } }.event .chunkedDataEvent).event
      .chunkedDataCompleteEvent
    .returned 0 { w with server := { w.server with startPending := false } }
  else .returned 1 (w.event (.unknownSyncSaveData subId player.pid))

def onSyncCodes (env : Env) (w : Work) (player : Client) (packet : Packet) : Outcome :=
  let (subId, _) := packet.readByte 0
  if subId = 5 then
    if w.server.startPending then
      let n := w.server.codesSyncedPlayers + 1
      let w := { w with server := { w.server with codesSyncedPlayers := n } }
      if n ≥ w.server.players.length - 1 then
        let w := w.event .codesSynchronized
        .returned 0 (checkSyncAndStartGame env { w with server := { w.server with codesSynced := true } })
      else .returned 0 w
    else .returned 0 w
  else if subId = 6 then
    let w := (w.event (.failedToSynchronizeCodes player.name)).event .gameStartAborted
    .returned 0 { w with server := { w.server with startPending := false } }
  else .returned 1 (w.event (.unknownSyncCodes subId player.pid))

def onPadData (env : Env) (fuel : Nat) (w : Work) (player : Client) (packet : Packet) : Option Outcome :=
  if player.currentGame ≠ w.server.currentGame then some (.returned 0 w)
  else
    let id := if w.server.hostInputAuthority then MessageID.padHostData else MessageID.padData
    (relayPads env w.server (some player.pid) fuel 0 packet [id.toByte]).map <| Relayed.finish w fun spac =>
      if w.server.hostInputAuthority then
        if w.server.currentGolfer ≠ 0 ∧ w.server.players.any (·.pid = w.server.currentGolfer) then
          w.send w.server.currentGolfer spac
        else w
      else w.sendToClients spac player.pid

def onPadHostData (env : Env) (fuel : Nat) (w : Work) (player : Client) (packet : Packet) : Option Outcome :=
  if w.server.currentGolfer ≠ 0 ∧ player.pid ≠ w.server.currentGolfer then some (.returned 1 w)
  else
    (relayPads env w.server none fuel 0 packet [MessageID.padData.toByte]).map <| Relayed.finish w fun spac =>
      w.sendToClients spac player.pid

def onWiimoteData (env : Env) (fuel : Nat) (w : Work) (player : Client) (packet : Packet) : Option Outcome :=
  if player.currentGame ≠ w.server.currentGame then some (.returned 0 w)
  else
    (relayWiimotes env w.server player.pid fuel 0 packet [MessageID.wiimoteData.toByte]).map <|
      Relayed.finish w fun spac => w.sendToClients spac player.pid

def onGolfRequest (env : Env) (w : Work) (player : Client) (packet : Packet) : Work :=
  let (pid, _) := packet.readByte (UInt8.ofNat env.junk)
  if !w.server.players.any (·.pid = pid) || !w.server.playerHasControllerMapped player.pid then w
  else if w.server.hostInputAuthority && w.server.golfMode && w.server.pendingGolfer = 0 &&
      w.server.currentGolfer ≠ pid && w.server.playerHasControllerMapped pid then
    { w with server := { w.server with pendingGolfer := pid } }.send pid [MessageID.golfPrepare.toByte]
  else w

def onPong (env : Env) (w : Work) (player : Client) (packet : Packet) : Work :=
  let (pingKey, _) := packet.readNat 4 0
  let ping := if w.server.pingKey = pingKey then env.elapsedMs % 2 ^ 32 else player.ping
  let w := w.updatePlayer player.pid fun p => { p with ping := ping }
  w.sendToClients (MessageID.playerPingData.toByte :: player.pid :: beBytes 4 ping)

def relayText (w : Work) (player : Client) (packet : Packet) (id : MessageID) (skipPid : PlayerId) : Work :=
  let (text, _) := packet.readString
  w.sendToClients (id.toByte :: player.pid :: Packet.putString text) skipPid

def onMessage (env : Env) (fuel : Nat) (w : Work) (player : Client) (packet : Packet) :
    MessageID → Option Outcome
  | .chatMessage => some (.returned 0 (relayText w player packet .chatMessage player.pid))
  | .chunkedDataProgress =>
      let (_, packet) := packet.readNat 4 env.junk
      let (progress, _) := packet.readNat 8 env.junk
      some (.returned 0 (w.event (.chunkedProgress player.pid progress)))
  | .chunkedDataComplete =>
      let (cid, _) := packet.readNat 4 env.junk
      match w.server.chunkedDataCompleteCount cid with
      | some n =>
          let counts := Function.update w.server.chunkedDataCompleteCount cid (some (n + 1))
          some (.returned 0
            ({ w with server := { w.server with chunkedDataCompleteCount := counts } }.event .chunkedDataCompleteEvent))
      | none => some (.returned 0 w)
  | .padData => onPadData env fuel w player packet
  | .padHostData => onPadHostData env fuel w player packet
  | .wiimoteData => onWiimoteData env fuel w player packet
  | .golfRequest => some (.returned 0 (onGolfRequest env w player packet))
  | .golfRelease =>
      if w.server.pendingGolfer = 0 then some (.returned 0 w)
      else some (.returned 0 (w.sendToClients [MessageID.golfSwitch.toByte, w.server.pendingGolfer]))
  | .golfAcquire =>
      if w.server.pendingGolfer = 0 then some (.returned 0 w)
      else
        let s := { w.server with currentGolfer := w.server.pendingGolfer, pendingGolfer := 0 }
        some (.returned 0 { w with server := s })
  | .golfPrepare =>
      if w.server.pendingGolfer = 0 then some (.returned 0 w)
      else
        let w := { w with server := { w.server with currentGolfer := 0 } }
        some (.returned 0 (w.sendToClients [MessageID.golfSwitch.toByte, 0]))
  | .pong => some (.returned 0 (onPong env w player packet))
  | .startGame =>
      let (game, _) := packet.readNat 4 player.currentGame
      some (.returned 0 (w.updatePlayer player.pid fun p => { p with currentGame := game }))
  | .stopGame =>
      if !w.server.isRunning then some (.returned 0 w)
      else
        let w := { w with server := { w.server with isRunning := false } }
        some (.returned 0 (w.sendToClients [MessageID.stopGame.toByte]))
  | .gameStatus =>
      let (status, _) := packet.readByte 0
      let w := w.updatePlayer player.pid fun p => { p with gameStatus := status }
      some (.returned 0 (w.sendToClients [MessageID.gameStatus.toByte, player.pid, status]))
  | .clientCapabilities =>
      let (hasIplDump, packet) := packet.readBool player.hasIplDump
      let (hasHardwareFma, _) := packet.readBool player.hasHardwareFma
      some (.returned 0 (w.updatePlayer player.pid fun p =>
        { p with hasIplDump := hasIplDump, hasHardwareFma := hasHardwareFma }))
  | .powerButton => some (.returned 0 (w.sendToClients [MessageID.powerButton.toByte] player.pid))
  | .timeBase =>
      let (timebase, packet) := packet.readNat 8 env.junk
      let (frame, _) := packet.readNat 4 env.junk
      some (.returned 0 (onTimeBase w player timebase frame))
  | .gameDigestProgress =>
      let (progress, _) := packet.readNat 4 env.junk
      some (.returned 0
        (w.sendToClients (MessageID.gameDigestProgress.toByte :: player.pid :: beBytes 4 progress)))
  | .gameDigestResult => some (.returned 0 (relayText w player packet .gameDigestResult 0))
  | .gameDigestError => some (.returned 0 (relayText w player packet .gameDigestError 0))
  | .syncSaveData => some (onSyncSaveData env w player packet)
  | .syncCodes => some (onSyncCodes env w player packet)
  -- ids that only the server sends
  | id => some (.returned 1 (w.event (.unknownMessage id.toByte player.pid)))

/-- `OnData`; `none` when the loop over the pads has not ended after `fuel` rounds. -/
def onData (env : Env) (fuel : Nat) (s : Server) (player : Client) (bytes : List UInt8) : Option Outcome :=
  let (mid, packet) := Packet.readByte ⟨bytes, true⟩ 0
  match MessageID.ofByte mid with
  | some id => onMessage env fuel { server := s } player packet id
  | none => some (.returned 1 (({ server := s } : Work).event (.unknownMessage mid player.pid)))

/-! ## A client that hurts only itself -/

/-- Whatever variables hold before they are read, `OnData` returns 0 or 1, and with 1 it has sent nothing and changed
nothing. -/
def Contained (s : Server) (player : Client) (bytes : List UInt8) : Prop :=
  ∀ env, ∃ fuel code w, onData env fuel s player bytes = some (.returned code w) ∧ (code = 0 ∨ code = 1) ∧
    (code = 1 → w.sent = [] ∧ w.server = s)

/-- The pads of a packet: up to the first one that is not the sender's, every index is one of the four pads, and the
packet does not end between the two bytes of the buttons. -/
inductive PadEntries (own gba : Fin 4 → Bool) : List UInt8 → Prop
  | nil : PadEntries own gba []
  | foreign {m : UInt8} (h : m.toNat < 4) (rest) : own ⟨m.toNat, h⟩ = false → PadEntries own gba (m :: rest)
  | cut {m : UInt8} (h : m.toNat < 4) : PadEntries own gba [m]
  | pad {m : UInt8} (h : m.toNat < 4) (b₁ b₂ rest) :
      PadEntries own gba (rest.drop (if gba ⟨m.toNat, h⟩ then 0 else 9)) → PadEntries own gba (m :: b₁ :: b₂ :: rest)

/-- The Wiimotes of a packet: up to the first one that is not the sender's or that is too long, every index is one of
the four Wiimotes. -/
inductive WiimoteEntries (own : Fin 4 → Bool) : List UInt8 → Prop
  | nil : WiimoteEntries own []
  | foreign {m : UInt8} (h : m.toNat < 4) (rest) : own ⟨m.toNat, h⟩ = false → WiimoteEntries own (m :: rest)
  | cut {m : UInt8} (h : m.toNat < 4) : WiimoteEntries own [m]
  | long {m length : UInt8} (h : m.toNat < 4) (rest) : 30 < length.toNat → WiimoteEntries own (m :: length :: rest)
  | wiimote {m length : UInt8} (h : m.toNat < 4) (rest) : WiimoteEntries own (rest.drop length.toNat) →
      WiimoteEntries own (m :: length :: rest)

def WellIndexed (s : Server) (player : Client) : List UInt8 → Prop
  | [] => True
  | mid :: rest =>
      match MessageID.ofByte mid with
      | some .padData => player.currentGame = s.currentGame →
          PadEntries (fun i => s.padMap.get i = player.pid) s.gbaEnabled.get rest
      | some .padHostData => (s.currentGolfer = 0 ∨ player.pid = s.currentGolfer) →
          PadEntries (fun _ => true) s.gbaEnabled.get rest
      | some .wiimoteData => player.currentGame = s.currentGame →
          WiimoteEntries (fun i => s.wiimoteMap.get i = player.pid) rest
      | _ => True

end Karphin.NetPlay.OnData
