import Karphin.Common.TraversalServer.Defs

/-!
# What the server has done so far

The history of the server fits together, and the tables fit it.
-/

namespace Karphin.TraversalServer

/-! ## Addresses -/

/-- The address and the port. The flow and the scope of a socket address are not kept. -/
def SameAddress (a b : SockaddrIn6) : Prop := a.addr = b.addr ∧ a.port = b.port

theorem makeInetAddress_congr {a b : SockaddrIn6} (h : SameAddress a b) : makeInetAddress a = makeInetAddress b := by
  rw [makeInetAddress, makeInetAddress, h.1, h.2]

theorem sameAddress_makeSinAddr (addr : SockaddrIn6) : SameAddress (makeSinAddr (makeInetAddress addr)) addr := by
  rw [makeInetAddress]
  split
  · next hmapped =>
      refine ⟨?_, rfl⟩
      apply Vector.ext
      intro i hi
      rcases i with _ | _ | _ | _ | i
      · exact hmapped.1.symm
      · exact hmapped.2.1.symm
      · exact hmapped.2.2.symm
      · rfl
      · omega
  · exact ⟨rfl, rfl⟩

theorem makeInetAddress_makeSinAddr (addr : SockaddrIn6) :
    makeInetAddress (makeSinAddr (makeInetAddress addr)) = makeInetAddress addr :=
  makeInetAddress_congr (sameAddress_makeSinAddr addr)

/-! ## Events -/

def Content.isOutcome : Content → Bool
  | .connectReady _ _ | .connectFailed _ _ => true
  | _ => false

def sentOf (requestId : TraversalRequestId) : Event → Bool
  | .sent packet _ _ => packet.requestId = requestId
  | _ => false

def Event.touches : Event → Option (TraversalHostId × Nat)
  | .handedOut hostId _ time => some (hostId, time)
  | .refreshed hostId time => some (hostId, time)
  | _ => none

def Follows (later earlier : Event) : Prop :=
  match later with
  | .sent packet _ _ => earlier ≠ .acknowledged packet.requestId
  | .connectPlease ticket _ _ _ => ∀ requestId hostId sender, earlier ≠ .connectPlease ticket requestId hostId sender
  | .outcome ticket _ _ => ∀ packet dest, earlier ≠ .outcome ticket packet dest
  | .handedOut hostId _ now => ∀ time, earlier.touches = some (hostId, time) → time + expiryTime < now
  | _ => True

def registered (log : List Event) (hostId : TraversalHostId) : Option TraversalInetAddress :=
  log.findSome? fun
    | .handedOut hostId' client _ => if hostId' = hostId then some (makeInetAddress client) else none
    | _ => none

/-- A ConnectPlease has been handled; `value` is what its host id was registered under then. -/
def Promised (log : List Event) (ticket requestId : TraversalRequestId) (sender : SockaddrIn6)
    (value : Option TraversalInetAddress) : Prop :=
  ∃ hostId after before, log = after ++ .connectPlease ticket requestId hostId sender :: before ∧ registered before hostId = value

def Content.Answers (content : Content) (requestId : TraversalRequestId) (value : Option TraversalInetAddress) : Prop :=
  match content with
  | .connectReady requestId' address => requestId' = requestId ∧ value = some address
  | .connectFailed requestId' _ => requestId' = requestId
  | _ => False

def Justified (log : List Event) (ticket : TraversalRequestId) (packet : TraversalPacket) (dest : SockaddrIn6) : Prop :=
  ∃ requestId sender value, Promised log ticket requestId sender value ∧ SameAddress dest sender ∧
    packet.content.Answers requestId value

variable {log : List Event} {event : Event}

theorem registered_some {hostId : TraversalHostId} {value : TraversalInetAddress} (h : registered log hostId = some value) :
    makeInetAddress (makeSinAddr value) = value := by
  obtain ⟨event, -, hevent⟩ := List.exists_of_findSome?_eq_some h
  cases event with
  | handedOut hostId' client time =>
      simp only [Option.ite_none_right_eq_some, Option.some.injEq] at hevent
      obtain ⟨-, rfl⟩ := hevent
      exact makeInetAddress_makeSinAddr client
  | _ => cases hevent

theorem registered_cons (h : event.touches = none) (hostId : TraversalHostId) :
    registered (event :: log) hostId = registered log hostId := by
  cases event with
  | handedOut hostId' client time => cases h
  | _ => rfl

theorem Promised.push {ticket requestId : TraversalRequestId} {sender : SockaddrIn6} {value : Option TraversalInetAddress}
    (h : Promised log ticket requestId sender value) (event : Event) :
    Promised (event :: log) ticket requestId sender value := by
  obtain ⟨hostId, after, before, rfl, hregistered⟩ := h
  exact ⟨hostId, event :: after, before, rfl, hregistered⟩

theorem Justified.push {ticket : TraversalRequestId} {packet : TraversalPacket} {dest : SockaddrIn6}
    (h : Justified log ticket packet dest) (event : Event) : Justified (event :: log) ticket packet dest := by
  obtain ⟨requestId, sender, value, hpromised, hrest⟩ := h
  exact ⟨requestId, sender, value, hpromised.push event, hrest⟩

/-! ## The history -/

structure LogOk (log : List Event) : Prop where
  follows : log.Pairwise Follows
  sends : ∀ requestId, log.countP (sentOf requestId) ≤ NUMBER_OF_TRIES
  unsent : ∀ requestId, .allocated requestId ∉ log → log.countP (sentOf requestId) = 0
  acknowledged : ∀ requestId, .acknowledged requestId ∈ log → .allocated requestId ∈ log
  tickets : ∀ ticket requestId hostId sender, .connectPlease ticket requestId hostId sender ∈ log → .allocated ticket ∈ log
  outcomes : ∀ ticket packet dest, .outcome ticket packet dest ∈ log → Justified log ticket packet dest
  sent : ∀ packet dest fromAlt, .sent packet dest fromAlt ∈ log → packet.content.isOutcome = true →
    ∃ ticket, .outcome ticket packet dest ∈ log

def Event.Needs (log : List Event) : Event → Prop
  | .sent packet dest _ => .allocated packet.requestId ∈ log ∧ log.countP (sentOf packet.requestId) < NUMBER_OF_TRIES ∧
      (packet.content.isOutcome = true → ∃ ticket, .outcome ticket packet dest ∈ log)
  | .acknowledged requestId => .allocated requestId ∈ log
  | .connectPlease ticket _ _ _ => .allocated ticket ∈ log
  | .outcome ticket packet dest => Justified log ticket packet dest
  | _ => True

theorem countP_cons_of_not {requestId : TraversalRequestId} (h : sentOf requestId event = false) :
    (event :: log).countP (sentOf requestId) = log.countP (sentOf requestId) :=
  List.countP_cons_of_neg (by rw [h]; exact Bool.false_ne_true)

theorem LogOk.push (h : LogOk log) (hfollows : ∀ earlier ∈ log, Follows event earlier) (hneeds : event.Needs log) :
    LogOk (event :: log) := by
  have hsent (requestId : TraversalRequestId) (hof : sentOf requestId event = true) : .allocated requestId ∈ log ∧
      log.countP (sentOf requestId) < NUMBER_OF_TRIES := by
    cases event with
    | sent packet dest fromAlt =>
        obtain rfl := of_decide_eq_true hof
        exact ⟨hneeds.1, hneeds.2.1⟩
    | _ => cases hof
  refine ⟨List.pairwise_cons.mpr ⟨hfollows, h.follows⟩, fun requestId => ?_, fun requestId hnot => ?_,
    fun requestId hmem => ?_, fun ticket requestId hostId sender hmem => ?_, fun ticket packet dest hmem => ?_,
    fun packet dest fromAlt hmem houtcome => ?_⟩
  · cases hof : sentOf requestId event with
    | true =>
        rw [List.countP_cons_of_pos hof]
        exact (hsent requestId hof).2
    | false =>
        rw [countP_cons_of_not hof]
        exact h.sends requestId
  · have hnot' := fun hmem => hnot (List.mem_cons_of_mem event hmem)
    cases hof : sentOf requestId event with
    | true => exact absurd (hsent requestId hof).1 hnot'
    | false =>
        rw [countP_cons_of_not hof]
        exact h.unsent requestId hnot'
  · apply List.mem_cons_of_mem
    rcases List.mem_cons.mp hmem with rfl | hmem
    · exact hneeds
    · exact h.acknowledged requestId hmem
  · apply List.mem_cons_of_mem
    rcases List.mem_cons.mp hmem with rfl | hmem
    · exact hneeds
    · exact h.tickets ticket requestId hostId sender hmem
  · apply Justified.push
    rcases List.mem_cons.mp hmem with rfl | hmem
    · exact hneeds
    · exact h.outcomes ticket packet dest hmem
  · have hbefore : ∃ ticket, .outcome ticket packet dest ∈ log := by
      rcases List.mem_cons.mp hmem with rfl | hmem
      · exact hneeds.2.2 houtcome
      · exact h.sent packet dest fromAlt hmem houtcome
    obtain ⟨ticket, hticket⟩ := hbefore
    exact ⟨ticket, List.mem_cons_of_mem event hticket⟩

/-! ## The tables -/

/-- The ConnectPlease with a ticket has no outcome yet. -/
structure Waiting (log : List Event) (ticket requestId : TraversalRequestId) (address : TraversalInetAddress)
    (value : Option TraversalInetAddress) : Prop where
  promised : ∃ sender, address = makeInetAddress sender ∧ Promised log ticket requestId sender value
  unanswered : ∀ packet dest, .outcome ticket packet dest ∉ log

structure EntryOk (log : List Event) (requestId : TraversalRequestId) (info : OutgoingPacketInfo) : Prop where
  id_eq : info.packet.requestId = requestId
  allocated : .allocated requestId ∈ log
  unacknowledged : .acknowledged requestId ∉ log
  sends : log.countP (sentOf requestId) = info.tries
  please : ∀ address, info.packet.content = .pleaseSendPacket address →
    Waiting log requestId info.misc address (some (makeInetAddress info.dest))
  outcome : info.packet.content.isOutcome = true → ∃ ticket, .outcome ticket info.packet info.dest ∈ log

structure ClientsOk (log : List Event) (currentTime : Nat) (clients : ConnectedClients) : Prop where
  values : ∀ hostId entry, (hostId, entry) ∈ clients → registered log hostId = some entry.value
  times : ∀ event ∈ log, ∀ hostId time, event.touches = some (hostId, time) → time ≤ currentTime ∧
    ((∃ entry, (hostId, entry) ∈ clients ∧ time ≤ entry.updateTime) ∨ time + expiryTime < currentTime)

structure Inv (s : Server) : Prop where
  log : LogOk s.log
  keys : (s.outgoingPackets.map Prod.fst).Nodup
  entries : ∀ entry ∈ s.outgoingPackets, EntryOk s.log entry.1 entry.2
  clients : ClientsOk s.log s.currentTime s.connectedClients

theorem Waiting.push {ticket requestId : TraversalRequestId} {address : TraversalInetAddress}
    {value : Option TraversalInetAddress} (h : Waiting log ticket requestId address value)
    (hevent : ∀ packet dest, event ≠ .outcome ticket packet dest) : Waiting (event :: log) ticket requestId address value := by
  obtain ⟨⟨sender, haddress, hpromised⟩, hunanswered⟩ := h
  refine ⟨⟨sender, haddress, hpromised.push event⟩, fun packet dest hmem => ?_⟩
  rcases List.mem_cons.mp hmem with heq | hmem
  · exact hevent packet dest heq.symm
  · exact hunanswered packet dest hmem

theorem EntryOk.push {requestId : TraversalRequestId} {info : OutgoingPacketInfo} (h : EntryOk log requestId info)
    (hsent : sentOf requestId event = false) (hacknowledged : event ≠ .acknowledged requestId)
    (houtcome : ∀ packet dest, event ≠ .outcome requestId packet dest) : EntryOk (event :: log) requestId info := by
  refine ⟨h.id_eq, List.mem_cons_of_mem event h.allocated, fun hmem => ?_, ?_,
    fun address hcontent => (h.please address hcontent).push houtcome, fun hcontent => ?_⟩
  · rcases List.mem_cons.mp hmem with heq | hmem
    · exact hacknowledged heq.symm
    · exact h.unacknowledged hmem
  · rw [countP_cons_of_not hsent]
    exact h.sends
  · obtain ⟨ticket, hticket⟩ := h.outcome hcontent
    exact ⟨ticket, List.mem_cons_of_mem event hticket⟩

theorem ClientsOk.push {currentTime : Nat} {clients : ConnectedClients} (h : ClientsOk log currentTime clients)
    (hevent : event.touches = none) : ClientsOk (event :: log) currentTime clients := by
  refine ⟨fun hostId entry hmem => ?_, fun other hmem hostId time htouches => ?_⟩
  · rw [registered_cons hevent]
    exact h.values hostId entry hmem
  · rcases List.mem_cons.mp hmem with rfl | hmem
    · rw [hevent] at htouches
      cases htouches
    · exact h.times other hmem hostId time htouches

/-! ## New packets -/

structure Blank (log : List Event) (requestId : TraversalRequestId) : Prop where
  allocated : .allocated requestId ∈ log
  unacknowledged : .acknowledged requestId ∉ log
  sends : log.countP (sentOf requestId) = 0

theorem LogOk.blank (h : LogOk log) {requestId : TraversalRequestId} (hfresh : .allocated requestId ∉ log) :
    LogOk (.allocated requestId :: log) ∧ Blank (.allocated requestId :: log) requestId := by
  refine ⟨h.push (fun _ _ => trivial) trivial, List.mem_cons_self, fun hmem => ?_, ?_⟩
  · rcases List.mem_cons.mp hmem with heq | hmem
    · cases heq
    · exact hfresh (h.acknowledged requestId hmem)
  · rw [countP_cons_of_not rfl]
    exact h.unsent requestId hfresh

theorem Blank.push {requestId : TraversalRequestId} (h : Blank log requestId) (hsent : sentOf requestId event = false)
    (hacknowledged : event ≠ .acknowledged requestId) : Blank (event :: log) requestId := by
  refine ⟨List.mem_cons_of_mem event h.allocated, fun hmem => ?_, ?_⟩
  · rcases List.mem_cons.mp hmem with heq | hmem
    · exact hacknowledged heq.symm
    · exact h.unacknowledged hmem
  · rw [countP_cons_of_not hsent]
    exact h.sends

theorem LogOk.no_ticket (h : LogOk log) {ticket : TraversalRequestId} (hfresh : .allocated ticket ∉ log)
    (requestId : TraversalRequestId) (hostId : TraversalHostId) (sender : SockaddrIn6) :
    .connectPlease ticket requestId hostId sender ∉ log := fun hmem => hfresh (h.tickets _ _ _ _ hmem)

theorem LogOk.no_outcome (h : LogOk log) {ticket : TraversalRequestId} (hfresh : .allocated ticket ∉ log)
    (packet : TraversalPacket) (dest : SockaddrIn6) : .outcome ticket packet dest ∉ log := by
  intro hmem
  obtain ⟨requestId, sender, value, ⟨hostId, after, before, rfl, -⟩, -⟩ := h.outcomes _ _ _ hmem
  exact h.no_ticket hfresh requestId hostId sender (List.mem_append_right after List.mem_cons_self)

theorem Inv.ne_of_mem {s : Server} (h : Inv s) {draw : TraversalRequestId} (hfresh : .allocated draw ∉ s.log)
    {entry : TraversalRequestId × OutgoingPacketInfo} (hentry : entry ∈ s.outgoingPackets) : entry.1 ≠ draw := by
  rintro rfl
  exact hfresh (h.entries entry hentry).allocated

theorem nodup_cons_filter {outgoing : OutgoingPackets} (h : (outgoing.map Prod.fst).Nodup)
    {draw : TraversalRequestId} (info : OutgoingPacketInfo) :
    (((draw, info) :: outgoing.filter fun entry => entry.1 ≠ draw).map Prod.fst).Nodup := by
  rw [List.map_cons, List.nodup_cons]
  constructor
  · intro hmem
    obtain ⟨entry, hentry, heq⟩ := List.mem_map.mp hmem
    exact absurd heq (of_decide_eq_true (List.mem_filter.mp hentry).2)
  · exact h.sublist (List.filter_sublist.map Prod.fst)

theorem LogOk.outcome {ticket requestId draw : TraversalRequestId} {address : TraversalInetAddress}
    {value : Option TraversalInetAddress} {content : Content} (h : LogOk log) (hfresh : .allocated draw ∉ log)
    (hwaiting : Waiting log ticket requestId address value) (hcontent : content.Answers requestId value) :
    LogOk (.outcome ticket ⟨draw, content⟩ (makeSinAddr address) :: .allocated draw :: log) := by
  obtain ⟨⟨sender, rfl, hpromised⟩, hunanswered⟩ := hwaiting
  apply (h.blank hfresh).1.push
  · intro earlier hmem packet dest heq
    subst heq
    rcases List.mem_cons.mp hmem with heq | hmem
    · cases heq
    · exact hunanswered packet dest hmem
  · exact ⟨requestId, sender, value, hpromised.push _, sameAddress_makeSinAddr sender, hcontent⟩

theorem Content.Answers.isOutcome {content : Content} {requestId : TraversalRequestId} {value : Option TraversalInetAddress}
    (h : content.Answers requestId value) :
    content.isOutcome = true ∧ ∀ address, content ≠ .pleaseSendPacket address := by
  cases content with
  | connectReady requestId address => exact ⟨rfl, fun address heq => nomatch heq⟩
  | connectFailed requestId reason => exact ⟨rfl, fun address heq => nomatch heq⟩
  | _ => cases h

theorem Blank.outcome {ticket draw requestId : TraversalRequestId} {content : Content} {dest : SockaddrIn6} {fromAlt : Bool}
    {misc : TraversalRequestId} {currentTime : Nat} {value : Option TraversalInetAddress} (h : Blank log draw)
    (hcontent : content.Answers requestId value) (hmem : .outcome ticket ⟨draw, content⟩ dest ∈ log) :
    EntryOk log draw ⟨⟨draw, content⟩, misc, fromAlt, dest, 0, currentTime⟩ := by
  refine ⟨rfl, h.allocated, h.unacknowledged, h.sends, fun address heq => ?_, fun _ => ⟨ticket, hmem⟩⟩
  exact absurd heq (hcontent.isOutcome.2 address)

/-! ## Lookups of host ids -/

section

variable {currentTime : Nat} {clients : ConnectedClients} {hostId : TraversalHostId} {visited : TraversalHostId → Bool}

theorem expired_iff {entry : EvictEntry TraversalInetAddress} :
    expired currentTime entry = true ↔ entry.updateTime + expiryTime < currentTime := by
  rw [expired, decide_eq_true_iff]
  omega

theorem ClientsOk.filter (h : ClientsOk log currentTime clients) (keep : TraversalHostId × EvictEntry TraversalInetAddress → Bool)
    (hkeep : ∀ entry ∈ clients, keep entry = false → expired currentTime entry.2 = true) :
    ClientsOk log currentTime (clients.filter keep) := by
  refine ⟨fun hostId entry hmem => h.values hostId entry (List.mem_filter.mp hmem).1, fun event hmem hostId time htouches => ?_⟩
  obtain ⟨hle, ⟨entry, hentry, htime⟩ | hold⟩ := h.times event hmem hostId time htouches
  · refine ⟨hle, ?_⟩
    cases hkept : keep (hostId, entry) with
    | true => exact Or.inl ⟨entry, List.mem_filter.mpr ⟨hentry, hkept⟩, htime⟩
    | false =>
        have hexpired := expired_iff.mp (hkeep _ hentry hkept)
        exact Or.inr (Nat.lt_of_le_of_lt (Nat.add_le_add_right htime expiryTime) hexpired)
  · exact ⟨hle, Or.inr hold⟩

theorem ClientsOk.loop (h : ClientsOk log currentTime clients) (hostId : TraversalHostId) (visited : TraversalHostId → Bool) :
    ClientsOk log currentTime
      (clients.filter fun entry => !((entry.1 = hostId || visited entry.1) && expired currentTime entry.2)) := by
  apply h.filter
  intro entry hentry hkeep
  rw [Bool.not_eq_false', Bool.and_eq_true] at hkeep
  exact hkeep.2

theorem ClientsOk.find_none (h : ClientsOk log currentTime clients) {clients' : ConnectedClients} {refresh : Bool}
    (hfind : evictFind clients currentTime hostId refresh visited = (clients', none)) :
    ClientsOk log currentTime clients' ∧ (∀ entry, (hostId, entry) ∉ clients') ∧
      ∀ event ∈ log, ∀ time, event.touches = some (hostId, time) → time + expiryTime < currentTime := by
  rw [evictFind] at hfind
  split at hfind
  · cases hfind
  · next hnone =>
      cases hfind
      have hclients := h.loop hostId visited
      have habsent (entry : EvictEntry TraversalInetAddress) : (hostId, entry) ∉ clients.filter fun entry =>
          !((entry.1 = hostId || visited entry.1) && expired currentTime entry.2) := by
        intro hmem
        exact List.find?_eq_none.mp hnone _ hmem (decide_eq_true rfl)
      refine ⟨hclients, habsent, fun event hmem time htouches => ?_⟩
      obtain ⟨-, ⟨entry, hentry, -⟩ | hold⟩ := hclients.times event hmem hostId time htouches
      · exact absurd hentry (habsent entry)
      · exact hold

theorem ClientsOk.find_some (h : ClientsOk log currentTime clients) {clients' : ConnectedClients}
    {value : TraversalInetAddress} (hfind : evictFind clients currentTime hostId false visited = (clients', some value)) :
    ClientsOk log currentTime clients' ∧ registered log hostId = some value := by
  rw [evictFind] at hfind
  split at hfind
  · next found hfound =>
      cases hfind
      have hclients := h.loop hostId visited
      have hkey : found.1 = hostId := by simpa using List.find?_some hfound
      refine ⟨hclients, ?_⟩
      rw [← hkey]
      exact hclients.values _ _ (List.mem_of_find?_eq_some hfound)
  · cases hfind

theorem ClientsOk.refresh (h : ClientsOk log currentTime clients) {clients' : ConnectedClients}
    {value : TraversalInetAddress} (hfind : evictFind clients currentTime hostId true visited = (clients', some value)) :
    ClientsOk (.refreshed hostId currentTime :: log) currentTime clients' := by
  rw [evictFind] at hfind
  split at hfind
  · next found hfound =>
      cases hfind
      have hkey : found.1 = hostId := by simpa using List.find?_some hfound
      have hfound := List.mem_of_find?_eq_some hfound
      have hclients := h.loop hostId visited
      rw [if_pos rfl]
      refine ⟨fun other entry hmem => ?_, fun event hmem other time htouches => ?_⟩
      · obtain ⟨old, hold, heq⟩ := List.mem_map.mp hmem
        have hvalue : registered log old.1 = some old.2.value := hclients.values _ _ hold
        change registered log other = _
        split at heq
        · cases heq
          exact hvalue
        · cases heq
          exact hvalue
      · rcases List.mem_cons.mp hmem with rfl | hmem
        · cases htouches
          refine ⟨Nat.le_refl _, Or.inl ⟨⟨currentTime, found.2.value⟩, ?_, Nat.le_refl _⟩⟩
          refine List.mem_map.mpr ⟨found, hfound, ?_⟩
          rw [if_pos hkey, hkey]
        · obtain ⟨hle, ⟨entry, hentry, htime⟩ | hold⟩ := hclients.times event hmem other time htouches
          · refine ⟨hle, Or.inl ?_⟩
            by_cases hother : other = hostId
            · refine ⟨⟨currentTime, entry.value⟩, List.mem_map.mpr ⟨_, hentry, ?_⟩, hle⟩
              rw [if_pos hother]
            · refine ⟨entry, List.mem_map.mpr ⟨_, hentry, ?_⟩, htime⟩
              rw [if_neg hother]
          · exact ⟨hle, Or.inr hold⟩
  · cases hfind

theorem ClientsOk.evictSet (h : ClientsOk log currentTime clients) (habsent : ∀ entry, (hostId, entry) ∉ clients)
    (client : SockaddrIn6) : ClientsOk (.handedOut hostId client currentTime :: log) currentTime
      (evictSet clients currentTime hostId (makeInetAddress client)) := by
  have hne {other : TraversalHostId} {entry : EvictEntry TraversalInetAddress} (hmem : (other, entry) ∈ clients) :
      other ≠ hostId := by
    rintro rfl
    exact habsent entry hmem
  have hregistered {other : TraversalHostId} (hother : other ≠ hostId) :
      registered (.handedOut hostId client currentTime :: log) other = registered log other := by
    simp only [registered, List.findSome?_cons, if_neg hother.symm]
  refine ⟨fun other entry hmem => ?_, fun event hmem other time htouches => ?_⟩
  · rcases List.mem_cons.mp hmem with heq | hmem
    · cases heq
      simp only [registered, List.findSome?_cons, if_pos]
    · have hmem := (List.mem_filter.mp hmem).1
      rw [hregistered (hne hmem)]
      exact h.values other entry hmem
  · rcases List.mem_cons.mp hmem with rfl | hmem
    · cases htouches
      exact ⟨Nat.le_refl _, Or.inl ⟨_, List.mem_cons_self, Nat.le_refl _⟩⟩
    · obtain ⟨hle, ⟨entry, hentry, htime⟩ | hold⟩ := h.times event hmem other time htouches
      · refine ⟨hle, Or.inl ⟨entry, List.mem_cons_of_mem _ (List.mem_filter.mpr ⟨hentry, ?_⟩), htime⟩⟩
        exact decide_eq_true (hne hentry)
      · exact ⟨hle, Or.inr hold⟩

theorem ClientsOk.findHostId {draws : List (BitVec 32 × (TraversalHostId → Bool))} (h : ClientsOk log currentTime clients)
    {clients' : ConnectedClients} (hfind : Server.findHostId currentTime clients draws = some (clients', hostId)) :
    ClientsOk log currentTime clients' ∧ (∀ entry, (hostId, entry) ∉ clients') ∧
      ∀ event ∈ log, ∀ time, event.touches = some (hostId, time) → time + expiryTime < currentTime := by
  induction draws generalizing clients with
  | nil => cases hfind
  | cons draw draws ih =>
      obtain ⟨num, visited⟩ := draw
      rw [Server.findHostId] at hfind
      split at hfind
      · next hsome => exact ih (h.find_some hsome).1 hfind
      · next hnone =>
          cases hfind
          exact h.find_none hnone

end

end Karphin.TraversalServer
