import Karphin.Lib.FinNumerals
import Karphin.Lib.Transition

/-!
# Who is connected: players, mappings and the golfer

The part of `NetPlayServer` that connections, departures, mapping changes and golf messages touch.
`m_players` is the list of its entries in the order of the keys.
-/

namespace Karphin.NetPlay.Roster

abbrev PlayerId := Nat

/-- `PadMappingArray`; `0` means unmapped. -/
abbrev Mapping := Fin 4 → PlayerId

structure Client where
  pid : PlayerId
  currentGame : Nat := 0
deriving DecidableEq

structure Server where
  players : List (PlayerId × Client) := []
  padMap : Mapping := fun _ => 0
  wiimoteMap : Mapping := fun _ => 0
  isRunning : Bool := false
  startPending : Bool := false
  currentGame : Nat := 0
  currentGolfer : PlayerId := 1
  pendingGolfer : PlayerId := 0
  hostInputAuthority : Bool := false
  golfMode : Bool := false
  /-- The players that had something mapped when the game was started. -/
  startMapped : List PlayerId := []

namespace Server

def keys (s : Server) : List PlayerId := s.players.map Prod.fst

/-- `std::map::emplace`: no effect if the key is there. -/
def emplace (key : PlayerId) (c : Client) : List (PlayerId × Client) → List (PlayerId × Client)
  | [] => [(key, c)]
  | (k, d) :: ps =>
      if key < k then (key, c) :: (k, d) :: ps
      else if key = k then (k, d) :: ps
      else (k, d) :: emplace key c ps

/-- The loop of `GiveFirstAvailableIDTo` over the player ids `all`, with `i` at the head of the list. After a
match the iterator restarts behind the first element: `i = begin()` is followed by `++i`. -/
def giveLoop (all : List PlayerId) : Nat → PlayerId → List PlayerId → PlayerId
  | 0, pid, _ => pid
  | _ + 1, pid, [] => pid
  | fuel + 1, pid, p :: rest =>
      if p = pid then giveLoop all fuel (pid + 1) all.tail else giveLoop all fuel pid rest

def giveFirstAvailableID (s : Server) : PlayerId :=
  let all := s.players.map (·.2.pid)
  giveLoop all ((all.length + 1) * (all.length + 1)) 1 all

def assignNewUserAPad (m : Mapping) (pid : PlayerId) : Mapping :=
  match (List.finRange 4).find? (fun i => m i = 0) with
  | some i => Function.update m i pid
  | none => m

inductive ConnectionError
  | noError
  | versionMismatch
  | gameRunning
  | serverFull
  | nameTooLong
deriving DecidableEq

def addPlayer (s : Server) (pid : PlayerId) : Server :=
  { s with
    players := emplace pid { pid := pid } s.players
    padMap := assignNewUserAPad s.padMap pid }

/-- `OnConnect`; the version and the length of the name come with the packet. -/
def onConnect (s : Server) (versionOk nameTooLong : Bool) : Server × ConnectionError :=
  if !versionOk then (s, .versionMismatch)
  else if s.isRunning || s.startPending then (s, .gameRunning)
  else if s.players.length ≥ 255 then (s, .serverFull)
  else if nameTooLong then (s, .nameTooLong)
  else (s.addPlayer s.giveFirstAvailableID, .noError)

def unmap (m : Mapping) (pid : PlayerId) : Mapping := fun i => if m i = pid then 0 else m i

def onDisconnect (s : Server) (pid : PlayerId) : Server :=
  { s with
    isRunning := s.isRunning && !((List.finRange 4).any fun i => s.padMap i = pid ∧ pid ≠ 1)
    startPending := false
    players := s.players.filter (·.1 ≠ pid)
    padMap := unmap s.padMap pid
    wiimoteMap := unmap s.wiimoteMap pid }

def playerHasControllerMapped (s : Server) (pid : PlayerId) : Bool :=
  ((List.finRange 4).any fun i => s.padMap i = pid) || (List.finRange 4).any fun i => s.wiimoteMap i = pid

def startGame (s : Server) (now : Nat) : Server :=
  { s with
    currentGame := now
    currentGolfer := 1
    pendingGolfer := 0
    startPending := false
    isRunning := true
    startMapped := ((List.finRange 4).map s.padMap ++ (List.finRange 4).map s.wiimoteMap).filter (· ≠ 0) }

/-! ## Messages -/

/-- The messages of `OnData` that read or write this state; `pads` and `wiimotes` are the indexes in a data
packet, the latter with the length of the report. -/
inductive Message
  | padData (pads : List Nat)
  | padHostData (pads : List Nat)
  | wiimoteData (wiimotes : List (Nat × Nat))
  | golfRequest (pid : PlayerId)
  | golfRelease
  | golfAcquire
  | golfPrepare
  | startGame (currentGame : Nat)
  | stopGame
  | gameStatus
  | syncFailure
  | other
  | unknown

/-- `std::array::at`; `none` is the exception. -/
def at? (m : Mapping) (i : Nat) : Option PlayerId := if h : i < 4 then some (m ⟨i, h⟩) else none

/-- The loop over a data packet: `some true` if an entry is refused by `bad`, `none` on an exception. -/
def refused (bad : Nat → Option Bool) : List Nat → Option Bool
  | [] => some false
  | i :: is => match bad i with
    | none => none
    | some true => some true
    | some false => refused bad is

/-- The size of `SerializedWiimoteState::data`. -/
def wiimoteDataSize : Nat := 30

def refusedWiimote (m : Mapping) (pid : PlayerId) : List (Nat × Nat) → Option Bool
  | [] => some false
  | (i, length) :: ws => match at? m i with
    | none => none
    | some p => if p ≠ pid ∨ length > wiimoteDataSize then some true else refusedWiimote m pid ws

def setClient (s : Server) (pid : PlayerId) (f : Client → Client) : Server :=
  { s with players := s.players.map fun p => if p.1 = pid then (p.1, f p.2) else p }

/-- `OnData` for a message of the player `c`: the new state and whether the client is to be disconnected. -/
def onData (s : Server) (c : Client) : Message → Option (Server × Bool)
  | .padData pads =>
      if c.currentGame ≠ s.currentGame then some (s, false)
      else (refused (fun i => (at? s.padMap i).map (· ≠ c.pid)) pads).map (s, ·)
  | .padHostData pads =>
      if s.currentGolfer ≠ 0 ∧ c.pid ≠ s.currentGolfer then some (s, true)
      else (refused (fun i => (at? s.padMap i).map fun _ => false) pads).map (s, ·)
  | .wiimoteData ws =>
      if c.currentGame ≠ s.currentGame then some (s, false)
      else (refusedWiimote s.wiimoteMap c.pid ws).map (s, ·)
  | .golfRequest pid =>
      if pid ∉ s.keys ∨ s.playerHasControllerMapped c.pid = false then some (s, false)
      else if s.hostInputAuthority ∧ s.golfMode ∧ s.pendingGolfer = 0 ∧ s.currentGolfer ≠ pid ∧
          s.playerHasControllerMapped pid then
        some ({ s with pendingGolfer := pid }, false)
      else some (s, false)
  | .golfRelease => some (s, false)
  | .golfAcquire =>
      if s.pendingGolfer = 0 then some (s, false)
      else some ({ s with currentGolfer := s.pendingGolfer, pendingGolfer := 0 }, false)
  | .golfPrepare =>
      if s.pendingGolfer = 0 then some (s, false) else some ({ s with currentGolfer := 0 }, false)
  | .startGame game => some (s.setClient c.pid fun c => { c with currentGame := game }, false)
  | .stopGame => some ({ s with isRunning := false }, false)
  | .gameStatus => some (s.setClient c.pid id, false)
  | .syncFailure => some ({ s with startPending := false }, false)
  | .other => some (s, false)
  | .unknown => some (s, true)

/-! ## Runs -/

inductive Op
  | connect (versionOk nameTooLong : Bool)
  | disconnect (key : PlayerId)
  | receive (key : PlayerId) (msg : Message)
  | setPadMapping (m : Mapping)
  | setWiimoteMapping (m : Mapping)
  | setHostInputAuthority (enable : Bool)
  | setGolfMode (enable : Bool)
  | requestStart
  | abortStart
  | startGame (now : Nat)

def NamesConnected (s : Server) (m : Mapping) : Prop := ∀ i, m i ≠ 0 → m i ∈ s.keys

instance (s : Server) (m : Mapping) : Decidable (s.NamesConnected m) :=
  inferInstanceAs (Decidable (∀ i, m i ≠ 0 → m i ∈ s.keys))

def client? (s : Server) (key : PlayerId) : Option Client := (s.players.find? (·.1 = key)).map Prod.snd

def step (s : Server) : Op → Option Server
  | .connect versionOk nameTooLong => some (s.onConnect versionOk nameTooLong).1
  | .disconnect key => (s.client? key).map fun c => s.onDisconnect c.pid
  | .receive key msg => do
      let c ← s.client? key
      let (s', bad) ← s.onData c msg
      some (if bad then s'.onDisconnect c.pid else s')
  | .setPadMapping m => if s.NamesConnected m then some { s with padMap := m } else none
  | .setWiimoteMapping m => if s.NamesConnected m then some { s with wiimoteMap := m } else none
  | .setHostInputAuthority enable => some { s with hostInputAuthority := enable }
  | .setGolfMode enable => some { s with golfMode := enable }
  | .requestStart => some { s with startPending := true }
  | .abortStart => some { s with startPending := false }
  | .startGame now => some (s.startGame now)

def departing (s : Server) : Op → Option PlayerId
  | .disconnect key => (s.client? key).map (·.pid)
  | .receive key msg => do
      let c ← s.client? key
      let (_, bad) ← s.onData c msg
      if bad then some c.pid else none
  | _ => none

end Server

structure RosterOk (s : Server) : Prop where
  ids_lt : s.keys.Pairwise (· < ·)
  ids : ∀ p ∈ s.players, p.2.pid = p.1 ∧ p.1 ≠ 0
  padMap : ∀ i, s.padMap i ≠ 0 → s.padMap i ∈ s.keys
  wiimoteMap : ∀ i, s.wiimoteMap i ≠ 0 → s.wiimoteMap i ∈ s.keys
  golfer : s.isRunning = true → s.pendingGolfer = 0 ∨ s.pendingGolfer ∈ s.keys
  mapped : s.isRunning = true → ∀ pid ∈ s.startMapped, pid ≠ 1 → pid ∈ s.keys

/-- The departure of `pid` stops the game, or the game can go on without the player. -/
def Tolerable (s : Server) (pid : PlayerId) : Prop :=
  s.isRunning = true → (pid ≠ 1 ∧ ∃ i, s.padMap i = pid) ∨
    pid ≠ s.pendingGolfer ∧ (pid = 1 ∨ pid ∉ s.startMapped)

instance (s : Server) (pid : PlayerId) : Decidable (Tolerable s pid) :=
  inferInstanceAs (Decidable (_ → _))

def Departures (s : Server) (op : Server.Op) : Prop := ∀ pid ∈ s.departing op, Tolerable s pid

instance (s : Server) (op : Server.Op) : Decidable (Departures s op) :=
  inferInstanceAs (Decidable (∀ pid ∈ s.departing op, Tolerable s pid))

end Karphin.NetPlay.Roster

/-!
# The roster stays in order
-/

namespace Karphin.NetPlay.Roster

open Karphin.Lib

variable {s s' : Server} {pid key : PlayerId} {c : Client}

namespace Server

/-! ## Keys -/

theorem mem_emplace {ps : List (PlayerId × Client)} {p : PlayerId × Client} (h : p ∈ emplace key c ps) :
    p = (key, c) ∨ p ∈ ps := by
  induction ps with
  | nil =>
      simp only [emplace, List.mem_singleton] at h
      exact Or.inl h
  | cons q ps ih =>
      obtain ⟨k, d⟩ := q
      simp only [emplace] at h
      split at h
      · rw [List.mem_cons] at h
        exact h
      · split at h
        · exact Or.inr h
        · rw [List.mem_cons] at h
          rcases h with h | h
          · exact Or.inr (h ▸ List.mem_cons_self)
          · exact (ih h).imp_right (List.mem_cons_of_mem _)

theorem mem_emplace_of_mem {ps : List (PlayerId × Client)} {p : PlayerId × Client} (h : p ∈ ps) :
    p ∈ emplace key c ps := by
  induction ps with
  | nil => cases h
  | cons q ps ih =>
      obtain ⟨k, d⟩ := q
      simp only [emplace]
      split
      · exact List.mem_cons_of_mem _ h
      · split
        · exact h
        · rcases List.mem_cons.mp h with rfl | h
          · exact List.mem_cons_self
          · exact List.mem_cons_of_mem _ (ih h)

theorem key_mem_emplace {ps : List (PlayerId × Client)} : key ∈ (emplace key c ps).map Prod.fst := by
  induction ps with
  | nil => simp [emplace]
  | cons q ps ih =>
      obtain ⟨k, d⟩ := q
      simp only [emplace]
      split
      · simp
      · split
        · next h => simp [h]
        · exact List.mem_cons_of_mem _ ih

theorem pairwise_emplace {ps : List (PlayerId × Client)} (h : (ps.map Prod.fst).Pairwise (· < ·)) :
    ((emplace key c ps).map Prod.fst).Pairwise (· < ·) := by
  induction ps with
  | nil => simp [emplace]
  | cons q ps ih =>
      obtain ⟨k, d⟩ := q
      simp only [List.map_cons, List.pairwise_cons] at h
      simp only [emplace]
      split
      · next hlt =>
          simp only [List.map_cons, List.pairwise_cons, List.mem_cons]
          refine ⟨?_, h⟩
          rintro j (rfl | hj)
          · exact hlt
          · exact Nat.lt_trans hlt (h.1 j hj)
      · split
        · simpa using h
        · next hnlt hne =>
            simp only [List.map_cons, List.pairwise_cons]
            refine ⟨?_, ih h.2⟩
            intro j hj
            obtain ⟨p, hp, rfl⟩ := List.mem_map.mp hj
            rcases mem_emplace hp with rfl | hp
            · exact Nat.lt_of_le_of_ne (Nat.le_of_not_lt hnlt) (Ne.symm hne)
            · exact h.1 _ (List.mem_map_of_mem hp)

/-! ## The first available id -/

/-- Until the loop ends, all ids below `pid` are taken and `pid` is none of the ids already passed. -/
structure GiveState (all : List Nat) (pid : Nat) (rest : List Nat) : Prop where
  pos : 1 ≤ pid
  taken : ∀ j, 1 ≤ j → j < pid → j ∈ all
  sub : ∀ p ∈ rest, p ∈ all
  passed : ∀ p ∈ all, p ∉ rest → p ≠ pid

theorem GiveState.le_length {all rest : List Nat} {pid : Nat} (h : GiveState all pid rest) :
    pid ≤ all.length + 1 := by
  have hsub : Finset.Ico 1 pid ⊆ all.toFinset := by
    intro j hj
    rw [Finset.mem_Ico] at hj
    exact List.mem_toFinset.mpr (h.taken j hj.1 hj.2)
  have hcard := Finset.card_le_card hsub
  rw [Nat.card_Ico] at hcard
  have := List.toFinset_card_le all
  omega

theorem GiveState.match {all rest : List Nat} {pid : Nat} (hs : all.Pairwise (· < ·))
    (h : GiveState all pid (pid :: rest)) : GiveState all (pid + 1) all.tail := by
  have hmem := h.sub pid List.mem_cons_self
  refine ⟨by omega, ?_, fun p hp => List.mem_of_mem_tail hp, ?_⟩
  · intro j hj hlt
    rcases Nat.lt_or_eq_of_le (Nat.lt_succ_iff.mp hlt) with hlt | rfl
    · exact h.taken j hj hlt
    · exact hmem
  · intro p hp hnot
    cases all with
    | nil => cases hp
    | cons q all =>
        rw [List.pairwise_cons] at hs
        rcases List.mem_cons.mp hp with rfl | hp
        · rcases List.mem_cons.mp hmem with heq | hq
          · omega
          · have := hs.1 pid hq
            omega
        · exact absurd hp hnot

theorem GiveState.next {all rest : List Nat} {pid q : Nat} (hne : q ≠ pid) (h : GiveState all pid (q :: rest)) :
    GiveState all pid rest := by
  refine ⟨h.pos, h.taken, fun p hp => h.sub p (List.mem_cons_of_mem q hp), ?_⟩
  intro p hp hnot
  by_cases hpq : p = q
  · rw [hpq]; exact hne
  · exact h.passed p hp (by simp [hpq, hnot])

theorem giveLoop_spec {all : List Nat} (hs : all.Pairwise (· < ·)) : ∀ (fuel : Nat) {pid : Nat} {rest : List Nat},
    GiveState all pid rest → (all.length + 1 - pid) * (all.length + 1) + rest.length < fuel →
    1 ≤ giveLoop all fuel pid rest ∧ giveLoop all fuel pid rest ∉ all
  | 0, _, _, _, hf => absurd hf (Nat.not_lt_zero _)
  | fuel + 1, pid, [], h, _ => ⟨h.pos, fun hp => h.passed pid hp (by simp) rfl⟩
  | fuel + 1, pid, q :: rest, h, hf => by
      simp only [giveLoop]
      split
      · next heq =>
          subst heq
          have hm := h.match hs
          refine giveLoop_spec hs fuel hm ?_
          have hle := hm.le_length
          have htail : all.tail.length ≤ all.length := by simp
          obtain ⟨d, hd⟩ : ∃ d, all.length + 1 - q = d + 1 := ⟨all.length - q, by omega⟩
          have hd' : all.length + 1 - (q + 1) = d := by omega
          rw [hd, Nat.add_mul, Nat.one_mul] at hf
          rw [hd']
          simp only [List.length_cons] at hf
          omega
      · next hne =>
          refine giveLoop_spec hs fuel (h.next hne) ?_
          simp only [List.length_cons] at hf
          omega

theorem giveFirstAvailableID_spec (hs : s.keys.Pairwise (· < ·)) (hid : ∀ p ∈ s.players, p.2.pid = p.1) :
    1 ≤ s.giveFirstAvailableID ∧ s.giveFirstAvailableID ∉ s.keys := by
  have hkeys : s.players.map (·.2.pid) = s.keys := List.map_congr_left hid
  unfold giveFirstAvailableID
  dsimp only
  rw [hkeys]
  refine giveLoop_spec hs _ ⟨Nat.le_refl 1, fun j h1 h2 => by omega, fun _ hp => hp, ?_⟩ ?_
  · intro p hp hnot
    exact absurd hp hnot
  · generalize s.keys.length = n
    have : (n + 1) * (n + 1) = n * (n + 1) + (n + 1) := by rw [Nat.add_mul, Nat.one_mul]
    rw [Nat.add_sub_cancel, this]
    omega

theorem client?_some (h : s.client? key = some c) : (key, c) ∈ s.players := by
  unfold client? at h
  obtain ⟨p, hp, rfl⟩ := Option.map_eq_some_iff.mp h
  have hkey : p.1 = key := by simpa using List.find?_some hp
  rw [← hkey]
  exact List.mem_of_find?_eq_some hp

theorem assignNewUserAPad_apply (m : Mapping) (pid : PlayerId) (i : Fin 4) :
    assignNewUserAPad m pid i = m i ∨ assignNewUserAPad m pid i = pid := by
  unfold assignNewUserAPad
  cases (List.finRange 4).find? (fun i => decide (m i = 0)) with
  | none => exact Or.inl rfl
  | some j =>
      by_cases hi : i = j
      · subst hi; exact Or.inr (Function.update_self ..)
      · exact Or.inl (Function.update_of_ne hi ..)

@[simp] theorem mem_keys_onDisconnect {k : PlayerId} : k ∈ (s.onDisconnect pid).keys ↔ k ∈ s.keys ∧ k ≠ pid := by
  simp only [onDisconnect, keys, List.mem_map, List.mem_filter, decide_eq_true_eq]
  constructor
  · rintro ⟨p, ⟨hp, hne⟩, rfl⟩
    exact ⟨⟨p, hp, rfl⟩, hne⟩
  · rintro ⟨⟨p, hp, rfl⟩, hne⟩
    exact ⟨p, ⟨hp, hne⟩, rfl⟩

theorem onDisconnect_isRunning :
    (s.onDisconnect pid).isRunning = true ↔ s.isRunning = true ∧ ¬ (pid ≠ 1 ∧ ∃ i, s.padMap i = pid) := by
  simp only [onDisconnect, Bool.and_eq_true, Bool.not_eq_true', List.any_eq_false, List.mem_finRange,
    decide_eq_true_eq, true_imp_iff]
  constructor
  · rintro ⟨hr, hno⟩
    exact ⟨hr, fun ⟨hne, i, hi⟩ => hno i ⟨hi, hne⟩⟩
  · rintro ⟨hr, hno⟩
    exact ⟨hr, fun i ⟨hi, hne⟩ => hno ⟨hne, i, hi⟩⟩

theorem setClient_keys {f : Client → Client} : (s.setClient pid f).keys = s.keys := by
  simp only [setClient, keys, List.map_map]
  refine List.map_congr_left fun p _ => ?_
  simp only [Function.comp]
  split <;> rfl

end Server

open Server

/-! ## One event -/

theorem RosterOk.init : RosterOk {} :=
  ⟨List.Pairwise.nil, fun _ h => absurd h List.not_mem_nil, fun _ h => absurd rfl h, fun _ h => absurd rfl h,
    fun _ => Or.inl rfl, fun h => Bool.noConfusion h⟩

theorem RosterOk.addPlayer (h : RosterOk s) (hstop : s.isRunning = false) (hpid : pid ≠ 0) :
    RosterOk (s.addPlayer pid) := by
  have hsub : ∀ k ∈ s.keys, k ∈ (s.addPlayer pid).keys := by
    intro k hk
    obtain ⟨p, hp, rfl⟩ := List.mem_map.mp hk
    exact List.mem_map_of_mem (mem_emplace_of_mem hp)
  refine ⟨pairwise_emplace h.ids_lt, ?_, ?_, ?_, ?_, ?_⟩
  · intro p hp
    rcases mem_emplace hp with rfl | hp
    · exact ⟨rfl, hpid⟩
    · exact h.ids p hp
  · intro i hi
    simp only [Server.addPlayer] at hi ⊢
    rcases assignNewUserAPad_apply s.padMap pid i with heq | heq
    · rw [heq] at hi ⊢
      exact hsub _ (h.padMap i hi)
    · rw [heq]
      exact key_mem_emplace
  · intro i hi
    exact hsub _ (h.wiimoteMap i hi)
  · intro hr
    exact absurd hr (by simp [Server.addPlayer, hstop])
  · intro hr
    exact absurd hr (by simp [Server.addPlayer, hstop])

theorem RosterOk.onConnect (h : RosterOk s) (versionOk nameTooLong : Bool) :
    RosterOk (s.onConnect versionOk nameTooLong).1 := by
  unfold Server.onConnect
  split
  · exact h
  · split
    · exact h
    · next hrun =>
        split
        · exact h
        · split
          · exact h
          · have hpos := (giveFirstAvailableID_spec h.ids_lt fun p hp => (h.ids p hp).1).1
            refine h.addPlayer ?_ (Nat.ne_of_gt hpos)
            cases hr : s.isRunning with
            | false => rfl
            | true => simp [hr] at hrun

theorem RosterOk.onDisconnect_iff (h : RosterOk s) (hpid : pid ≠ 0) :
    RosterOk (s.onDisconnect pid) ↔ Tolerable s pid := by
  constructor
  · intro h' hr
    by_cases hstop : pid ≠ 1 ∧ ∃ i, s.padMap i = pid
    · exact Or.inl hstop
    · have hr' := onDisconnect_isRunning.mpr ⟨hr, hstop⟩
      refine Or.inr ⟨?_, ?_⟩
      · rintro rfl
        rcases h'.golfer hr' with h0 | hk
        · exact hpid h0
        · exact (mem_keys_onDisconnect.mp hk).2 rfl
      · by_cases h1 : pid = 1
        · exact Or.inl h1
        · refine Or.inr fun hmem => ?_
          exact (mem_keys_onDisconnect.mp (h'.mapped hr' pid hmem h1)).2 rfl
  · intro ht
    have hmap : ∀ m : Mapping, (∀ i, m i ≠ 0 → m i ∈ s.keys) →
        ∀ i, unmap m pid i ≠ 0 → unmap m pid i ∈ (s.onDisconnect pid).keys := by
      intro m hm i hi
      unfold unmap at hi ⊢
      split
      · next heq => rw [if_pos heq] at hi; exact absurd rfl hi
      · next hne =>
          rw [if_neg hne] at hi
          exact mem_keys_onDisconnect.mpr ⟨hm i hi, hne⟩
    refine ⟨?_, ?_, hmap s.padMap h.padMap, hmap s.wiimoteMap h.wiimoteMap, ?_, ?_⟩
    · exact h.ids_lt.sublist (List.filter_sublist.map Prod.fst)
    · intro p hp
      exact h.ids p (List.mem_of_mem_filter hp)
    · intro hr
      obtain ⟨hr, hstop⟩ := onDisconnect_isRunning.mp hr
      rcases ht hr with hno | ⟨hgolf, -⟩
      · exact absurd hno hstop
      · exact (h.golfer hr).imp_right fun hk => mem_keys_onDisconnect.mpr ⟨hk, Ne.symm hgolf⟩
    · intro hr q hq hq1
      obtain ⟨hr, hstop⟩ := onDisconnect_isRunning.mp hr
      rcases ht hr with hno | ⟨-, hmapped⟩
      · exact absurd hno hstop
      · refine mem_keys_onDisconnect.mpr ⟨h.mapped hr q hq hq1, ?_⟩
        rintro rfl
        rcases hmapped with h1 | hnot
        · exact hq1 h1
        · exact hnot hq

theorem RosterOk.setClient (h : RosterOk s) (f : Client → Client) (hf : ∀ c, (f c).pid = c.pid) :
    RosterOk (s.setClient pid f) := by
  have hkeys : (s.setClient pid f).keys = s.keys := setClient_keys
  refine ⟨hkeys ▸ h.ids_lt, ?_, ?_, ?_, ?_, ?_⟩
  · intro p hp
    obtain ⟨q, hq, rfl⟩ := List.mem_map.mp hp
    split
    · exact ⟨(hf q.2).trans (h.ids q hq).1, (h.ids q hq).2⟩
    · exact h.ids q hq
  · rw [hkeys]; exact h.padMap
  · rw [hkeys]; exact h.wiimoteMap
  · rw [hkeys]; exact h.golfer
  · rw [hkeys]; exact h.mapped

theorem RosterOk.onData (h : RosterOk s) {msg : Message} {bad : Bool} (hd : s.onData c msg = some (s', bad)) :
    RosterOk s' ∧ (bad = true → s' = s) := by
  have hkeep : ∀ {o : Option Bool}, o.map (s, ·) = some (s', bad) → s' = s := by
    intro o ho
    obtain ⟨b, -, hb⟩ := Option.map_eq_some_iff.mp ho
    cases hb; rfl
  cases msg with
  | padData pads =>
      simp only [Server.onData] at hd
      split at hd
      · cases hd; exact ⟨h, fun _ => rfl⟩
      · cases hkeep hd; exact ⟨h, fun _ => rfl⟩
  | padHostData pads =>
      simp only [Server.onData] at hd
      split at hd
      · cases hd; exact ⟨h, fun _ => rfl⟩
      · cases hkeep hd; exact ⟨h, fun _ => rfl⟩
  | wiimoteData ws =>
      simp only [Server.onData] at hd
      split at hd
      · cases hd; exact ⟨h, fun _ => rfl⟩
      · cases hkeep hd; exact ⟨h, fun _ => rfl⟩
  | golfRequest pid =>
      simp only [Server.onData] at hd
      split at hd
      · cases hd; exact ⟨h, fun _ => rfl⟩
      · next hvalid =>
          split at hd
          · cases hd
            refine ⟨⟨h.ids_lt, h.ids, h.padMap, h.wiimoteMap, fun _ => Or.inr ?_, h.mapped⟩, by simp⟩
            by_contra hno
            exact hvalid (Or.inl hno)
          · cases hd; exact ⟨h, fun _ => rfl⟩
  | golfRelease => cases hd; exact ⟨h, fun _ => rfl⟩
  | golfAcquire =>
      simp only [Server.onData] at hd
      split at hd
      · cases hd; exact ⟨h, fun _ => rfl⟩
      · cases hd
        exact ⟨⟨h.ids_lt, h.ids, h.padMap, h.wiimoteMap, fun _ => Or.inl rfl, h.mapped⟩, by simp⟩
  | golfPrepare =>
      simp only [Server.onData] at hd
      split at hd
      · cases hd; exact ⟨h, fun _ => rfl⟩
      · cases hd
        exact ⟨⟨h.ids_lt, h.ids, h.padMap, h.wiimoteMap, h.golfer, h.mapped⟩, by simp⟩
  | startGame game =>
      cases hd
      exact ⟨h.setClient _ fun _ => rfl, by simp⟩
  | stopGame =>
      cases hd
      refine ⟨⟨h.ids_lt, h.ids, h.padMap, h.wiimoteMap, ?_, ?_⟩, by simp⟩
      · intro hr; cases hr
      · intro hr; cases hr
  | gameStatus =>
      cases hd
      exact ⟨h.setClient _ fun _ => rfl, by simp⟩
  | syncFailure =>
      cases hd
      exact ⟨⟨h.ids_lt, h.ids, h.padMap, h.wiimoteMap, h.golfer, h.mapped⟩, by simp⟩
  | other => cases hd; exact ⟨h, fun _ => rfl⟩
  | unknown => cases hd; exact ⟨h, fun _ => rfl⟩

theorem RosterOk.startGame (h : RosterOk s) (now : Nat) : RosterOk (s.startGame now) := by
  refine ⟨h.ids_lt, h.ids, h.padMap, h.wiimoteMap, fun _ => Or.inl rfl, ?_⟩
  intro _ p hp _
  simp only [Server.startGame, List.mem_filter, List.mem_append, List.mem_map, List.mem_finRange, true_and,
    decide_eq_true_eq] at hp
  obtain ⟨⟨i, rfl⟩ | ⟨i, rfl⟩, hne⟩ := hp
  · exact h.padMap i hne
  · exact h.wiimoteMap i hne

theorem RosterOk.step (h : RosterOk s) {op : Op} (hok : Departures s op) (hs : s.step op = some s') :
    RosterOk s' := by
  cases op with
  | connect versionOk nameTooLong =>
      cases hs
      exact h.onConnect versionOk nameTooLong
  | disconnect key =>
      obtain ⟨c, hc, rfl⟩ := Option.map_eq_some_iff.mp hs
      obtain ⟨hpid, hne⟩ := h.ids _ (client?_some hc)
      refine (h.onDisconnect_iff (hpid ▸ hne)).mpr (hok c.pid ?_)
      simp [departing, hc]
  | receive key msg =>
      simp only [Server.step, Option.bind_eq_bind, Option.bind_eq_some_iff] at hs
      obtain ⟨c, hc, ⟨t, bad⟩, hd, hs⟩ := hs
      obtain ⟨ht, hsame⟩ := h.onData hd
      cases bad with
      | false => cases hs; exact ht
      | true =>
          cases hsame rfl
          cases hs
          obtain ⟨hpid, hne⟩ := h.ids _ (client?_some hc)
          refine (h.onDisconnect_iff (hpid ▸ hne)).mpr (hok c.pid ?_)
          simp [departing, hc, hd]
  | setPadMapping m =>
      simp only [Server.step] at hs
      split at hs
      · next hm =>
          cases hs
          exact ⟨h.ids_lt, h.ids, hm, h.wiimoteMap, h.golfer, h.mapped⟩
      · cases hs
  | setWiimoteMapping m =>
      simp only [Server.step] at hs
      split at hs
      · next hm =>
          cases hs
          exact ⟨h.ids_lt, h.ids, h.padMap, hm, h.golfer, h.mapped⟩
      · cases hs
  | setHostInputAuthority enable =>
      cases hs
      exact ⟨h.ids_lt, h.ids, h.padMap, h.wiimoteMap, h.golfer, h.mapped⟩
  | setGolfMode enable =>
      cases hs
      exact ⟨h.ids_lt, h.ids, h.padMap, h.wiimoteMap, h.golfer, h.mapped⟩
  | requestStart =>
      cases hs
      exact ⟨h.ids_lt, h.ids, h.padMap, h.wiimoteMap, h.golfer, h.mapped⟩
  | abortStart =>
      cases hs
      exact ⟨h.ids_lt, h.ids, h.padMap, h.wiimoteMap, h.golfer, h.mapped⟩
  | startGame now =>
      cases hs
      exact h.startGame now

/-! ## Runs -/

/-- In runs whose departures are tolerable the roster stays in order, and only a departure that is not
tolerable breaks it. -/
theorem roster_ok (s : Server) (h : Reach Server.step Departures {} s) :
    RosterOk s ∧ ∀ pid ∈ s.keys, RosterOk (s.onDisconnect pid) ↔ Tolerable s pid := by
  have hok : RosterOk s := h.invariant RosterOk RosterOk.init fun hs hdep hstep => hs.step hdep hstep
  refine ⟨hok, ?_⟩
  intro pid hpid
  obtain ⟨p, hp, rfl⟩ := List.mem_map.mp hpid
  exact hok.onDisconnect_iff (hok.ids p hp).2

def wiimotePlayer : List Op :=
  [.connect true false, .connect true false, .setPadMapping (fun i => if i = 0 then 1 else 0),
    .setWiimoteMapping (fun i => if i = 1 then 2 else 0), .startGame 7]

/-- The second player leaves and the game goes on. -/
theorem wiimote_player_leaves : ¬ ∀ s, Reach Server.step anyStep {} s → RosterOk s := by
  intro h
  have hrun : (run Server.step {} (wiimotePlayer ++ [.disconnect 2])).map
      (fun s => (s.isRunning, s.startMapped, s.keys)) = some (true, [1, 2], [1]) := by decide
  obtain ⟨s, hs, heq⟩ := Option.map_eq_some_iff.mp hrun
  simp only [Prod.mk.injEq] at heq
  obtain ⟨hr, hm, hk⟩ := heq
  have hmem := (h s (reach_of_run hs)).mapped hr 2 (by rw [hm]; decide) (by decide)
  rw [hk] at hmem
  revert hmem
  decide

/-- With a pad instead of the Wii Remote the departure stops the game. -/
theorem roster_ok_pad_player : ∃ s, Reach Server.step Departures {} s ∧ s.isRunning = false ∧ s.keys = [1] ∧
    RosterOk s := by
  have hrun : (run (fun s op => if Departures s op then s.step op else none) {}
      [.connect true false, .connect true false, .startGame 7, .disconnect 2]).map
      (fun s => (s.isRunning, s.keys)) = some (false, [1]) := by decide
  obtain ⟨s, hs, heq⟩ := Option.map_eq_some_iff.mp hrun
  simp only [Prod.mk.injEq] at heq
  have hreach := reach_of_guarded hs
  exact ⟨s, hreach, heq.1, heq.2, (roster_ok s hreach).1⟩

end Karphin.NetPlay.Roster
