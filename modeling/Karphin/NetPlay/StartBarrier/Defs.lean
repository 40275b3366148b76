import Karphin.Lib.FinNumerals
import Karphin.Lib.Transition

/-!
# The start barrier

`RequestStartGame`, `SyncSaveData`, `SyncCodes` and `CheckSyncAndStartGame` on the server, the counting of
`SyncSaveDataResponse` and `SyncCodeResponse` on the clients, and the messages between them. `RequestStartGame`
runs on the GUI thread while the network thread handles replies, so its two halves are separate steps.

The packets carry no attempt number. The model adds it as a mark that no code reads. A player stands for one
connection.
-/

namespace Karphin.NetPlay.StartBarrier

abbrev Player := Nat

def host : Player := 0

inductive Kind
  | saves
  | codes
deriving DecidableEq

structure Reply where
  kind : Kind
  success : Bool
  attempt : Nat
deriving DecidableEq

/-- A save synchronisation on its way to a client: `Notify` with the number of data packets that follow. -/
structure SaveSync where
  attempt : Nat
  count : Nat

/-- A code synchronisation: the numbers of Gecko and AR code lines. -/
structure CodeSync where
  attempt : Nat
  gecko : Nat
  ar : Nat

structure Client where
  saveInbox : List SaveSync := []
  saveAttempt : Nat := 0
  syncSaveDataCount : Nat := 0
  syncSaveDataSuccessCount : Nat := 0
  /-- The data packets that may still come, of the last `Notify` and of earlier ones. -/
  saveLeft : Nat := 0
  staleLeft : Nat := 0
  codeInbox : List CodeSync := []
  codeSync : CodeSync := ⟨0, 0, 0⟩
  /-- The next of `Notify`, `NotifyGecko`, `GeckoData`, `NotifyAR`, `ARData`. -/
  codeStage : Fin 5 := 0
  syncGeckoCodesComplete : Bool := false
  syncArCodesComplete : Bool := false
  replies : List Reply := []

/-- Where `RequestStartGame` stands: not running, or between its halves. -/
structure Request where
  syncCodes : Bool
  gecko : Nat
  ar : Nat
  startNow : Bool

structure State where
  players : List Player := [host]
  nextPlayer : Player := 1
  client : Player → Client := fun _ => {}
  isRunning : Bool := false
  startPending : Bool := false
  savesSynced : Bool := true
  codesSynced : Bool := true
  saveDataSyncedPlayers : Nat := 0
  codesSyncedPlayers : Nat := 0
  gui : Option Request := none
  attempt : Nat := 0
  /-- What the attempt asks for. -/
  wantsSaves : Bool := false
  wantsCodes : Bool := false
  /-- Who has reported success for the attempt. -/
  savesReported : List Player := []
  codesReported : List Player := []
  /-- The calls of `StartGame` from `CheckSyncAndStartGame`: whether everybody had reported. -/
  starts : List Bool := []

/-! ## Clients -/

namespace Client

def reply (c : Client) (kind : Kind) (success : Bool) (attempt : Nat) : Client :=
  { c with replies := c.replies ++ [⟨kind, success, attempt⟩] }

def syncSaveDataResponse (c : Client) (success : Bool) : Client :=
  if success then
    let c := { c with syncSaveDataSuccessCount := c.syncSaveDataSuccessCount + 1 }
    if c.syncSaveDataSuccessCount ≥ c.syncSaveDataCount then c.reply .saves true c.saveAttempt else c
  else c.reply .saves false c.saveAttempt

def onSyncSaveDataNotify (c : Client) (sync : SaveSync) : Client :=
  let c := { c with
    saveAttempt := sync.attempt
    syncSaveDataCount := sync.count
    syncSaveDataSuccessCount := 0
    saveLeft := sync.count
    staleLeft := c.staleLeft + c.saveLeft }
  if sync.count = 0 then c.syncSaveDataResponse true else c

/-- A data packet: the handlers differ in what makes them fail. -/
def onSyncSaveData (c : Client) (success : Bool) : Client :=
  ({ c with saveLeft := c.saveLeft - 1 } : Client).syncSaveDataResponse success

/-- A data packet that was queued before the last `Notify` and comes after it. -/
def onStaleSaveData (c : Client) (success : Bool) : Client :=
  ({ c with staleLeft := c.staleLeft - 1 } : Client).syncSaveDataResponse success

def syncCodeResponse (c : Client) : Client :=
  if c.syncGeckoCodesComplete ∧ c.syncArCodesComplete then c.reply .codes true c.codeSync.attempt else c

def geckoComplete (c : Client) : Client := ({ c with syncGeckoCodesComplete := true } : Client).syncCodeResponse

def arComplete (c : Client) : Client := ({ c with syncArCodesComplete := true } : Client).syncCodeResponse

/-- The next message of a code synchronisation. A data packet has as many lines as were announced, so its loop
ends in the response unless there are none. -/
def onSyncCodes (c : Client) : Client :=
  match c.codeStage with
  | 0 => match c.codeInbox with
    | [] => c
    | sync :: syncs =>
        { c with
          codeInbox := syncs, codeSync := sync, codeStage := 1
          syncGeckoCodesComplete := false, syncArCodesComplete := false }
  | 1 =>
      let c := { c with codeStage := 2 }
      if c.codeSync.gecko = 0 then c.geckoComplete else c
  | 2 =>
      let c := { c with codeStage := 3 }
      if c.codeSync.gecko > 0 then c.geckoComplete else c
  | 3 =>
      let c := { c with codeStage := 4 }
      if c.codeSync.ar = 0 then c.arComplete else c
  | 4 =>
      let c := { c with codeStage := 0 }
      if c.codeSync.ar > 0 then c.arComplete else c

end Client

/-! ## The server -/

namespace State

def setClient (s : State) (p : Player) (c : Client) : State := { s with client := Function.update s.client p c }

def AllReported (s : State) : Prop :=
  ∀ p ∈ s.players, p ≠ host →
    (s.wantsSaves = true → p ∈ s.savesReported) ∧ (s.wantsCodes = true → p ∈ s.codesReported)

instance (s : State) : Decidable s.AllReported :=
  inferInstanceAs (Decidable (∀ p ∈ s.players, p ≠ host →
    (s.wantsSaves = true → p ∈ s.savesReported) ∧ (s.wantsCodes = true → p ∈ s.codesReported)))

def startGame (s : State) : State := { s with startPending := false, isRunning := true }

def checkSyncAndStartGame (s : State) : State :=
  if s.savesSynced ∧ s.codesSynced then
    { s.startGame with starts := s.starts ++ [decide s.AllReported] }
  else s

def onSuccess (s : State) : Kind → State
  | .saves =>
      if s.startPending then
        let s := { s with saveDataSyncedPlayers := s.saveDataSyncedPlayers + 1 }
        if s.saveDataSyncedPlayers ≥ s.players.length - 1 then
          ({ s with savesSynced := true } : State).checkSyncAndStartGame
        else s
      else s
  | .codes =>
      if s.startPending then
        let s := { s with codesSyncedPlayers := s.codesSyncedPlayers + 1 }
        if s.codesSyncedPlayers ≥ s.players.length - 1 then
          ({ s with codesSynced := true } : State).checkSyncAndStartGame
        else s
      else s

def record (s : State) (p : Player) (r : Reply) : State :=
  if r.success ∧ r.attempt = s.attempt then
    match r.kind with
    | .saves => { s with savesReported := s.savesReported ++ [p] }
    | .codes => { s with codesReported := s.codesReported ++ [p] }
  else s

def onReply (s : State) (p : Player) (r : Reply) : State :=
  if r.success then (s.record p r).onSuccess r.kind else { s with startPending := false }

def sendToClients (s : State) (f : Client → Client) : State :=
  { s with client := fun p => if p ∈ s.players ∧ p ≠ host then f (s.client p) else s.client p }

def requestSaves (s : State) (savedataLoad syncCodes : Bool) (count gecko ar : Nat) : State :=
  let wantsSaves := savedataLoad && decide (s.players.length > 1)
  let s := { s with
    attempt := s.attempt + 1
    wantsSaves := wantsSaves
    wantsCodes := syncCodes
    savesReported := []
    codesReported := []
    gui := some ⟨syncCodes, gecko, ar, !wantsSaves⟩ }
  if wantsSaves then
    ({ s with startPending := true, savesSynced := false, saveDataSyncedPlayers := 0 } : State).sendToClients
      fun c => { c with saveInbox := c.saveInbox ++ [⟨s.attempt, count⟩] }
  else s

def requestCodes (s : State) (r : Request) : State :=
  let wantsCodes := r.syncCodes && decide (s.players.length > 1)
  let s := { s with gui := none, wantsCodes := wantsCodes }
  if wantsCodes then
    ({ s with startPending := true, codesSynced := false, codesSyncedPlayers := 0 } : State).sendToClients
      fun c => { c with codeInbox := c.codeInbox ++ [⟨s.attempt, r.gecko, r.ar⟩] }
  else if r.startNow then s.startGame
  else s

/-- `SyncCodes` does not find the game. -/
def syncCodesFails (s : State) : State := { s with gui := none, startPending := false, codesSynced := false }

/-- `abortGameStart` stands for a failing `CollectSaveSyncInfo` as well, `syncSaveDataFails` for the end of a
request after `Notify` was sent. -/
inductive Op
  | connect
  | disconnect (p : Player)
  | requestSaves (savedataLoad syncCodes : Bool) (count gecko ar : Nat)
  | requestCodes
  | syncSaveDataFails
  | syncCodesFails
  | abortGameStart
  | stopGame
  | saveNotify (p : Player)
  | saveData (p : Player) (success : Bool)
  | staleSaveData (p : Player) (success : Bool)
  | codes (p : Player)
  | deliver (p : Player)

def step (s : State) : Op → Option State
  | .connect =>
      if s.isRunning ∨ s.startPending then none
      else some { s.setClient s.nextPlayer {} with
        players := s.players ++ [s.nextPlayer], nextPlayer := s.nextPlayer + 1 }
  | .disconnect p =>
      if p ∈ s.players ∧ p ≠ host then some { s with players := s.players.erase p, startPending := false }
      else none
  | .requestSaves savedataLoad syncCodes count gecko ar =>
      if s.gui.isNone then some (s.requestSaves savedataLoad syncCodes count gecko ar) else none
  | .requestCodes => s.gui.map s.requestCodes
  | .syncSaveDataFails => if s.gui.isSome then some { s with gui := none, startPending := false } else none
  | .syncCodesFails => if s.gui.isSome then some s.syncCodesFails else none
  | .abortGameStart => some { s with startPending := false }
  | .stopGame => some { s with isRunning := false }
  | .saveNotify p =>
      if p ∈ s.players then
        match (s.client p).saveInbox with
        | [] => none
        | sync :: syncs =>
            some (s.setClient p (({ s.client p with saveInbox := syncs } : Client).onSyncSaveDataNotify sync))
      else none
  | .saveData p success =>
      if p ∈ s.players ∧ 0 < (s.client p).saveLeft then
        some (s.setClient p ((s.client p).onSyncSaveData success))
      else none
  | .staleSaveData p success =>
      if p ∈ s.players ∧ 0 < (s.client p).staleLeft then
        some (s.setClient p ((s.client p).onStaleSaveData success))
      else none
  | .codes p => if p ∈ s.players then some (s.setClient p (s.client p).onSyncCodes) else none
  | .deliver p =>
      if p ∈ s.players then
        match (s.client p).replies with
        | [] => none
        | r :: rs => some ((s.setClient p { s.client p with replies := rs }).onReply p r)
      else none

/-! ## The condition -/

def awaits (s : State) : Kind → Bool
  | .saves => s.wantsSaves
  | .codes => s.wantsCodes && s.gui.isNone

/-- A success of this kind makes `CheckSyncAndStartGame` start the game. -/
def completes (s : State) : Kind → Bool
  | .saves => s.saveDataSyncedPlayers + 1 ≥ s.players.length - 1 ∧ s.codesSynced
  | .codes => s.codesSyncedPlayers + 1 ≥ s.players.length - 1 ∧ s.savesSynced

def codesAhead (s : State) : Bool := s.gui.isSome && s.wantsCodes

/-- While a start is pending no success of an earlier attempt is handled for a kind that the attempt has asked
for, and no data packet of an earlier synchronisation counts for a later one. Before the codes are sent no
success completes the barrier, nobody leaves who has reported the saves, and nobody joins once they are
synced. -/
def Orderly (s : State) : Op → Prop
  | .deliver p => ∀ r ∈ (s.client p).replies.head?, r.success = true → s.startPending = true →
      (s.awaits r.kind = true → r.attempt = s.attempt) ∧ (s.codesAhead = true → s.completes r.kind = false)
  | .staleSaveData _ success => success = false
  | .disconnect p => s.codesAhead = true → s.wantsSaves = true → p ∉ s.savesReported
  | .connect => s.codesAhead = true → s.wantsSaves = true → s.savesSynced = false
  | _ => True

instance (s : State) : ∀ op, Decidable (s.Orderly op)
  | .deliver _ | .staleSaveData _ _ | .disconnect _ | .connect => by unfold Orderly; infer_instance
  | .requestSaves _ _ _ _ _ | .requestCodes | .syncSaveDataFails | .syncCodesFails | .abortGameStart | .stopGame
  | .saveNotify _ | .saveData _ _ | .codes _ => inferInstanceAs (Decidable True)

end State

end Karphin.NetPlay.StartBarrier
