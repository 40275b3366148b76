import Karphin.Common.TraversalServer.Lemmas

/-!
# The traversal server keeps its promises

What is handled, in any order and whatever it says, leaves each connection with one outcome at most, and each host id with one
client at a time.
-/

namespace Karphin.TraversalServer

open Lib

variable {s s' : Server}

/-! ## Steps of a handler -/

theorem Inv.record (h : Inv s) {event : Event} (hfollows : ∀ earlier ∈ s.log, Follows event earlier)
    (hneeds : event.Needs s.log) (htouches : event.touches = none)
    (hentries : ∀ entry ∈ s.outgoingPackets, sentOf entry.1 event = false ∧ event ≠ .acknowledged entry.1 ∧
      ∀ packet dest, event ≠ .outcome entry.1 packet dest) : Inv (s.record event) := by
  refine ⟨h.log.push hfollows hneeds, h.keys, fun entry hentry => ?_, h.clients.push htouches⟩
  obtain ⟨hsent, hacknowledged, houtcome⟩ := hentries entry hentry
  exact (h.entries entry hentry).push hsent hacknowledged houtcome

theorem Inv.ackSent (h : Inv s) (requestId : TraversalRequestId) (ok : Bool) (dest : SockaddrIn6) (fromAlt : Bool) :
    Inv (s.record (.ackSent requestId ok dest fromAlt)) := by
  refine h.record (fun _ _ => trivial) trivial rfl fun entry _ => ⟨rfl, ?_, ?_⟩
  · intro heq
    cases heq
  · intro packet dest' heq
    cases heq

theorem Inv.setClients (h : Inv s) {clients : ConnectedClients} (hclients : ClientsOk s.log s.currentTime clients) :
    Inv (s.setClients clients) := ⟨h.log, h.keys, h.entries, hclients⟩

theorem Inv.allocPacket (h : Inv s) {draw : TraversalRequestId} (hfresh : .allocated draw ∉ s.log) (dest : SockaddrIn6)
    (fromAlt : Bool) (misc : TraversalRequestId) {content : Content} (houtcome : content.isOutcome = false)
    (hplease : ∀ address, content ≠ .pleaseSendPacket address) : Inv (s.allocPacket draw dest fromAlt misc content) := by
  obtain ⟨hlog, hblank⟩ := h.log.blank hfresh
  refine ⟨hlog, nodup_cons_filter h.keys _, fun entry hentry => ?_, h.clients.push rfl⟩
  rcases List.mem_cons.mp hentry with rfl | hentry
  · refine ⟨rfl, hblank.allocated, hblank.unacknowledged, hblank.sends, fun address heq => absurd heq (hplease address),
      fun htrue => ?_⟩
    rw [houtcome] at htrue
    cases htrue
  · exact (h.entries entry (List.mem_filter.mp hentry).1).push rfl (fun heq => nomatch heq) fun _ _ heq => nomatch heq

theorem Inv.erase (h : Inv s) (requestId : TraversalRequestId) : Inv (s.erase requestId) :=
  ⟨h.log, h.keys.sublist (List.filter_sublist.map Prod.fst),
    fun entry hentry => h.entries entry (List.mem_filter.mp hentry).1, h.clients⟩

theorem Inv.allocOutcome (h : Inv s) {ticket requestId draw : TraversalRequestId} {address : TraversalInetAddress}
    {value : Option TraversalInetAddress} {content : Content} (hfresh : .allocated draw ∉ s.log)
    (hwaiting : Waiting s.log ticket requestId address value) (hcontent : content.Answers requestId value)
    (hgone : ∀ entry ∈ s.outgoingPackets, entry.1 ≠ ticket) (fromAlt : Bool) :
    Inv (s.allocOutcome ticket draw (makeSinAddr address) fromAlt content) := by
  obtain ⟨hlog, hblank⟩ := h.log.blank hfresh
  refine ⟨h.log.outcome hfresh hwaiting hcontent, nodup_cons_filter h.keys _, fun entry hentry => ?_,
    (h.clients.push rfl).push rfl⟩
  rcases List.mem_cons.mp hentry with rfl | hentry
  · have hnew : Blank (.outcome ticket ⟨draw, content⟩ (makeSinAddr address) :: .allocated draw :: s.log) draw := by
      apply hblank.push rfl
      intro heq
      cases heq
    exact hnew.outcome hcontent List.mem_cons_self
  · have hmem := (List.mem_filter.mp hentry).1
    have hentry : EntryOk (.allocated draw :: s.log) entry.1 entry.2 :=
      (h.entries entry hmem).push rfl (fun heq => nomatch heq) fun _ _ heq => nomatch heq
    refine hentry.push rfl (fun heq => nomatch heq) fun packet dest heq => ?_
    cases heq
    exact hgone entry hmem rfl

/-! ## Packets -/

theorem erase_allocOutcome (s : Server) {ticket draw : TraversalRequestId} (hne : draw ≠ ticket) (dest : SockaddrIn6)
    (fromAlt : Bool) (content : Content) :
    (s.allocOutcome ticket draw dest fromAlt content).erase ticket =
      (s.erase ticket).allocOutcome ticket draw dest fromAlt content := by
  simp only [Server.erase, Server.allocOutcome, Server.allocPacket, Server.record, Server.mk.injEq, true_and, and_true]
  simp [hne, List.filter_filter, Bool.and_comm]

theorem Inv.handleAck (h : Inv s) (requestId : TraversalRequestId) (ok : BitVec 8) (toAlt : Bool)
    {draw : TraversalRequestId} (hfresh : .allocated draw ∉ s.log) : Inv (s.handleAck requestId ok toAlt draw) := by
  rw [Server.handleAck]
  split
  · exact h
  · next id info hfind =>
      have hid : id = requestId := by simpa using List.find?_some hfind
      subst hid
      have hmem := List.mem_of_find?_eq_some hfind
      have hinfo : EntryOk s.log id info := h.entries _ hmem
      have herased := h.erase id
      have hgone : ∀ entry ∈ (s.erase id).outgoingPackets, entry.1 ≠ id := fun entry hentry =>
        of_decide_eq_true (List.mem_filter.mp hentry).2
      have hacknowledge {t : Server} (ht : Inv t) (hallocated : .allocated id ∈ t.log)
          (hnone : ∀ entry ∈ t.outgoingPackets, entry.1 ≠ id) : Inv (t.record (.acknowledged id)) := by
        refine ht.record (fun _ _ => trivial) hallocated rfl fun entry hmem => ⟨rfl, fun heq => ?_, fun _ _ heq => nomatch heq⟩
        injection heq with heq
        exact hnone entry hmem heq.symm
      dsimp only
      split
      · next address hcontent =>
          have hne : draw ≠ id := by
            rintro rfl
            exact hfresh hinfo.allocated
          rw [erase_allocOutcome s hne]
          refine hacknowledge (herased.allocOutcome hfresh (hinfo.please address hcontent) ?_ hgone toAlt) ?_ ?_
          · split
            · exact ⟨rfl, rfl⟩
            · rfl
          · exact List.mem_cons_of_mem _ (List.mem_cons_of_mem _ hinfo.allocated)
          · intro entry hentry
            rcases List.mem_cons.mp hentry with rfl | hentry
            · exact hne
            · exact hgone entry (List.mem_filter.mp hentry).1
      · exact hacknowledge herased hinfo.allocated hgone

theorem Inv.handlePing (h : Inv s) (hostId : TraversalHostId) (visited : TraversalHostId → Bool) :
    Inv (s.handlePing hostId visited).1 := by
  rw [Server.handlePing]
  split
  · next clients value hfind =>
      refine ⟨h.log.push (fun _ _ => trivial) trivial, h.keys, fun entry hentry => ?_, h.clients.refresh hfind⟩
      exact (h.entries entry hentry).push rfl (fun heq => nomatch heq) fun _ _ heq => nomatch heq
  · next clients hfind => exact h.setClients (h.clients.find_none hfind).1

theorem Inv.handleHello (h : Inv s) {protoVersion : BitVec 8} {addr : SockaddrIn6} {toAlt : Bool}
    {draw : TraversalRequestId} (hfresh : .allocated draw ∉ s.log) {hostIds : List (BitVec 32 × (TraversalHostId → Bool))}
    (hs : s.handleHello protoVersion addr toAlt draw hostIds = some s') : Inv s' := by
  rw [Server.handleHello] at hs
  split at hs
  · obtain ⟨⟨clients, hostId⟩, hfind, hs⟩ := Option.map_eq_some_iff.mp hs
    cases hs
    obtain ⟨hclients, habsent, hold⟩ := h.clients.findHostId hfind
    have hregistered : Inv ((s.setClients (evictSet clients s.currentTime hostId (makeInetAddress addr))).record
        (.handedOut hostId addr s.currentTime)) := by
      refine ⟨h.log.push hold trivial, h.keys, fun entry hentry => ?_, hclients.evictSet habsent addr⟩
      exact (h.entries entry hentry).push rfl (fun heq => nomatch heq) fun _ _ heq => nomatch heq
    apply hregistered.allocPacket
    · intro hmem
      rcases List.mem_cons.mp hmem with heq | hmem
      · cases heq
      · exact hfresh hmem
    · rfl
    · exact fun _ heq => nomatch heq
  · cases hs
    exact h.allocPacket hfresh _ _ _ rfl fun _ heq => nomatch heq

theorem Inv.handleConnectPlease (h : Inv s) (requestId : TraversalRequestId) (hostId : TraversalHostId) (addr : SockaddrIn6)
    (toAlt : Bool) {draw : TraversalRequestId} (hfresh : .allocated draw ∉ s.log) (visited : TraversalHostId → Bool) :
    Inv (s.handleConnectPlease requestId hostId addr toAlt draw visited) := by
  obtain ⟨hlog, hblank⟩ := h.log.blank hfresh
  have hplease : LogOk (.connectPlease draw requestId hostId addr :: .allocated draw :: s.log) := by
    apply hlog.push
    · rintro earlier hmem requestId' hostId' sender rfl
      rcases List.mem_cons.mp hmem with heq | hmem
      · cases heq
      · exact h.log.no_ticket hfresh _ _ _ hmem
    · exact List.mem_cons_self
  have hunanswered (packet : TraversalPacket) (dest : SockaddrIn6) :
      .outcome draw packet dest ∉ (.connectPlease draw requestId hostId addr :: .allocated draw :: s.log : List Event) := by
    intro hmem
    rcases List.mem_cons.mp hmem with heq | hmem
    · cases heq
    · rcases List.mem_cons.mp hmem with heq | hmem
      · cases heq
      · exact h.log.no_outcome hfresh packet dest hmem
  have hentries : ∀ entry ∈ s.outgoingPackets,
      EntryOk (.connectPlease draw requestId hostId addr :: .allocated draw :: s.log) entry.1 entry.2 := by
    intro entry hentry
    have hdrawn : EntryOk (.allocated draw :: s.log) entry.1 entry.2 :=
      (h.entries entry hentry).push rfl (fun heq => nomatch heq) fun _ _ heq => nomatch heq
    exact hdrawn.push rfl (fun heq => nomatch heq) fun _ _ heq => nomatch heq
  have hnew : Blank (.connectPlease draw requestId hostId addr :: .allocated draw :: s.log) draw :=
    hblank.push rfl fun heq => nomatch heq
  rw [Server.handleConnectPlease]
  split
  · next clients hfind =>
      have hclients := (h.clients.find_none hfind).1
      refine ⟨hplease.push (fun earlier hmem packet dest heq => ?_) ?_, nodup_cons_filter h.keys _, fun entry hentry => ?_,
        ((hclients.push rfl).push rfl).push rfl⟩
      · subst heq
        exact hunanswered packet dest hmem
      · exact ⟨requestId, addr, _, ⟨hostId, [], _, rfl, rfl⟩, ⟨rfl, rfl⟩, rfl⟩
      · rcases List.mem_cons.mp hentry with rfl | hentry
        · have hended : Blank (.outcome draw ⟨draw, .connectFailed requestId .noSuchClient⟩ addr ::
              .connectPlease draw requestId hostId addr :: .allocated draw :: s.log) draw :=
            hnew.push rfl fun heq => nomatch heq
          have hcontent : (Content.connectFailed requestId .noSuchClient).Answers requestId none := rfl
          exact hended.outcome hcontent List.mem_cons_self
        · have hmem := (List.mem_filter.mp hentry).1
          refine (hentries entry hmem).push rfl (fun heq => nomatch heq) fun packet dest heq => ?_
          cases heq
          exact h.ne_of_mem hfresh hmem rfl
  · next clients value hfind =>
      obtain ⟨hclients, hregistered⟩ := h.clients.find_some hfind
      refine ⟨hplease, nodup_cons_filter h.keys _, fun entry hentry => ?_, (hclients.push rfl).push rfl⟩
      rcases List.mem_cons.mp hentry with rfl | hentry
      · refine ⟨rfl, hnew.allocated, hnew.unacknowledged, hnew.sends, fun address heq => ?_, fun hfalse => nomatch hfalse⟩
        cases heq
        refine ⟨⟨addr, rfl, hostId, [], _, rfl, ?_⟩, hunanswered⟩
        change registered s.log hostId = _
        rw [hregistered, registered_some hregistered]
      · exact hentries entry (List.mem_filter.mp hentry).1

theorem Inv.handleTestPlease (h : Inv s) (requestId : TraversalRequestId) (hostId : TraversalHostId) (toAlt : Bool)
    (visited : TraversalHostId → Bool) : Inv (s.handleTestPlease requestId hostId toAlt visited) := by
  rw [Server.handleTestPlease]
  split
  · next clients value hfind => exact (h.setClients (h.clients.find_some hfind).1).ackSent _ _ _ _
  · next clients hfind => exact h.setClients (h.clients.find_none hfind).1

theorem Inv.handlePacket (h : Inv s) {packet : TraversalPacket} {addr : SockaddrIn6} {toAlt : Bool} {draws : Server.Draws}
    (hfresh : .allocated draws.requestId ∉ s.log) (hs : s.handlePacket packet addr toAlt draws = some s') : Inv s' := by
  rw [Server.handlePacket] at hs
  dsimp only at hs
  split at hs
  · cases hs
    exact h.handleAck _ _ _ hfresh
  · cases hs
    exact (h.handlePing _ _).ackSent _ _ _ _
  · obtain ⟨t, ht, hs⟩ := Option.map_eq_some_iff.mp hs
    cases hs
    exact (h.handleHello hfresh ht).ackSent _ _ _ _
  · cases hs
    exact (h.handleConnectPlease _ _ _ _ hfresh _).ackSent _ _ _ _
  · cases hs
    exact (h.handleTestPlease _ _ _ _).ackSent _ _ _ _
  · cases hs
    exact h.ackSent _ _ _ _

/-! ## Resending -/

/-- Between two entries of the table: `rest` has not been looked at. -/
structure Sweep (s : Server) (r : Resent) (rest : OutgoingPackets) : Prop where
  log : LogOk r.log
  keys : (r.todoFailures.map TodoFailure.ticket ++ (r.outgoingPackets ++ rest).map Prod.fst).Nodup
  entries : ∀ entry ∈ r.outgoingPackets ++ rest, EntryOk r.log entry.1 entry.2
  failures : ∀ p ∈ r.todoFailures, ∃ value, Waiting r.log p.ticket p.misc p.address value
  clients : ClientsOk r.log s.currentTime s.connectedClients
  drawn : ∀ requestId, .allocated requestId ∈ r.log → .allocated requestId ∈ s.log

variable {r : Resent} {rest : OutgoingPackets} {requestId : TraversalRequestId} {info : OutgoingPacketInfo}

theorem Sweep.keep (h : Sweep s r ((requestId, info) :: rest)) :
    Sweep s { r with outgoingPackets := r.outgoingPackets ++ [(requestId, info)] } rest := by
  have happend : r.outgoingPackets ++ [(requestId, info)] ++ rest = r.outgoingPackets ++ (requestId, info) :: rest := by simp
  refine ⟨h.log, ?_, ?_, h.failures, h.clients, h.drawn⟩
  · rw [happend]
    exact h.keys
  · rw [happend]
    exact h.entries

theorem Sweep.drop (h : Sweep s r ((requestId, info) :: rest)) :
    Sweep s { r with todoFailures := r.todoFailures ++ todoFailure requestId info } rest := by
  have hsublist : (r.outgoingPackets ++ rest).Sublist (r.outgoingPackets ++ (requestId, info) :: rest) :=
    List.Sublist.append_left (List.sublist_cons_self _ _) _
  have hentries : ∀ entry ∈ r.outgoingPackets ++ rest, EntryOk r.log entry.1 entry.2 := fun entry hentry =>
    h.entries entry (hsublist.subset hentry)
  have hentry : EntryOk r.log requestId info := h.entries _ (List.mem_append_right _ List.mem_cons_self)
  cases hcontent : info.packet.content with
  | pleaseSendPacket address =>
      have htodo : todoFailure requestId info = [⟨requestId, address, info.fromAlt, info.misc⟩] := by
        rw [todoFailure, hcontent]
      rw [htodo]
      refine ⟨h.log, ?_, hentries, fun p hp => ?_, h.clients, h.drawn⟩
      · have hperm : (r.todoFailures.map TodoFailure.ticket ++
            (r.outgoingPackets ++ (requestId, info) :: rest).map Prod.fst).Perm
            (r.todoFailures.map TodoFailure.ticket ++ (requestId :: (r.outgoingPackets ++ rest).map Prod.fst)) := by
          apply List.Perm.append_left
          simp
        simpa using hperm.nodup_iff.mp h.keys
      · rcases List.mem_append.mp hp with hp | hp
        · exact h.failures p hp
        · obtain rfl := List.mem_singleton.mp hp
          exact ⟨_, hentry.please address hcontent⟩
  | _ =>
      have htodo : todoFailure requestId info = [] := by rw [todoFailure, hcontent]
      rw [htodo, List.append_nil]
      exact ⟨h.log, h.keys.sublist ((hsublist.map Prod.fst).append_left _), hentries, h.failures, h.clients, h.drawn⟩

theorem Sweep.send (h : Sweep s r ((requestId, info) :: rest)) (htries : info.tries < NUMBER_OF_TRIES) :
    Sweep s ⟨r.outgoingPackets ++ [(requestId, sendPacket s.currentTime info)],
      .sent info.packet info.dest info.fromAlt :: r.log, r.todoFailures⟩ rest := by
  have hentry : EntryOk r.log requestId info := h.entries _ (List.mem_append_right _ List.mem_cons_self)
  have hof : sentOf requestId (.sent info.packet info.dest info.fromAlt) = true := decide_eq_true hentry.id_eq
  have hlog : LogOk (.sent info.packet info.dest info.fromAlt :: r.log) := by
    apply h.log.push
    · rintro earlier hmem rfl
      rw [hentry.id_eq] at hmem
      exact hentry.unacknowledged hmem
    · refine ⟨?_, ?_, hentry.outcome⟩
      · rw [hentry.id_eq]
        exact hentry.allocated
      · rw [hentry.id_eq, hentry.sends]
        exact htries
  have hother : ∀ entry ∈ r.outgoingPackets ++ rest, entry.1 ≠ requestId := by
    have hnodup := (List.nodup_append.mp h.keys).2.1
    have hperm : ((r.outgoingPackets ++ (requestId, info) :: rest).map Prod.fst).Perm
        (requestId :: (r.outgoingPackets ++ rest).map Prod.fst) := List.perm_middle.map Prod.fst
    have hnot := (List.nodup_cons.mp (hperm.nodup_iff.mp hnodup)).1
    rintro entry hmem rfl
    exact hnot (List.mem_map_of_mem hmem)
  have hentries : ∀ entry ∈ r.outgoingPackets ++ rest,
      EntryOk (.sent info.packet info.dest info.fromAlt :: r.log) entry.1 entry.2 := by
    intro entry hmem
    have hmem' : entry ∈ r.outgoingPackets ++ (requestId, info) :: rest :=
      List.Sublist.subset (List.Sublist.append_left (List.sublist_cons_self _ _) _) hmem
    apply (h.entries entry hmem').push
    · apply decide_eq_false
      rw [hentry.id_eq]
      exact (hother entry hmem).symm
    · intro heq
      cases heq
    · intro packet dest heq
      cases heq
  refine ⟨hlog, ?_, fun entry hmem => ?_, fun p hp => ?_, h.clients.push rfl, fun requestId' hmem => ?_⟩
  · simpa using h.keys
  · rw [List.append_assoc] at hmem
    rcases List.mem_append.mp hmem with hmem | hmem
    · exact hentries entry (List.mem_append_left _ hmem)
    · rcases List.mem_cons.mp hmem with rfl | hmem
      · refine ⟨hentry.id_eq, List.mem_cons_of_mem _ hentry.allocated, fun hmem => ?_, ?_, fun address hcontent => ?_,
          fun hcontent => ?_⟩
        · rcases List.mem_cons.mp hmem with heq | hmem
          · cases heq
          · exact hentry.unacknowledged hmem
        · rw [List.countP_cons_of_pos hof, hentry.sends]
          rfl
        · exact (hentry.please address hcontent).push fun _ _ heq => nomatch heq
        · obtain ⟨ticket, hticket⟩ := hentry.outcome hcontent
          exact ⟨ticket, List.mem_cons_of_mem _ hticket⟩
      · exact hentries entry (List.mem_append_right _ hmem)
  · obtain ⟨value, hwaiting⟩ := h.failures p hp
    exact ⟨value, hwaiting.push fun _ _ heq => nomatch heq⟩
  · rcases List.mem_cons.mp hmem with heq | hmem
    · cases heq
    · exact h.drawn requestId' hmem

theorem Sweep.one {entry : TraversalRequestId × OutgoingPacketInfo} (h : Sweep s r (entry :: rest)) :
    Sweep s (Resent.one s.currentTime r entry) rest := by
  obtain ⟨requestId, info⟩ := entry
  rw [Resent.one]
  split
  · split
    · exact h.drop
    · next hless => exact h.send (Nat.lt_of_not_le hless)
  · exact h.keep

theorem Sweep.foldl (h : Sweep s r rest) : Sweep s (rest.foldl (Resent.one s.currentTime) r) [] := by
  induction rest generalizing r with
  | nil => exact h
  | cons entry rest ih => exact ih h.one

theorem Waiting.mem_allocated {log : List Event} {ticket requestId : TraversalRequestId} {address : TraversalInetAddress}
    {value : Option TraversalInetAddress} (h : Waiting log ticket requestId address value) (hlog : LogOk log) :
    .allocated ticket ∈ log := by
  obtain ⟨sender, -, hostId, after, before, rfl, -⟩ := h.promised
  exact hlog.tickets ticket requestId hostId sender (List.mem_append_right after List.mem_cons_self)

theorem Inv.failAll {todoFailures : List TodoFailure} {requestIds : List TraversalRequestId} (h : Inv s)
    (hkeys : (todoFailures.map TodoFailure.ticket ++ s.outgoingPackets.map Prod.fst).Nodup)
    (hfailures : ∀ p ∈ todoFailures, ∃ value, Waiting s.log p.ticket p.misc p.address value)
    (hnodup : requestIds.Nodup) (hfresh : ∀ requestId ∈ requestIds, .allocated requestId ∉ s.log)
    (hs : s.failAll todoFailures requestIds = some s') : Inv s' := by
  induction todoFailures generalizing s requestIds with
  | nil =>
      cases hs
      exact h
  | cons p todoFailures ih =>
      cases requestIds with
      | nil => cases hs
      | cons draw requestIds =>
          have hdraw := hfresh draw List.mem_cons_self
          obtain ⟨hdistinct, hnodup⟩ := List.nodup_cons.mp hnodup
          rw [List.map_cons, List.cons_append, List.nodup_cons] at hkeys
          obtain ⟨hticket, hkeys⟩ := hkeys
          obtain ⟨value, hwaiting⟩ := hfailures p List.mem_cons_self
          have hgone : ∀ entry ∈ s.outgoingPackets, entry.1 ≠ p.ticket := by
            intro entry hentry heq
            apply hticket
            rw [← heq]
            exact List.mem_append_right _ (List.mem_map_of_mem hentry)
          have hanswers : (Content.connectFailed p.misc .clientDidntRespond).Answers p.misc value := rfl
          apply ih (h.allocOutcome hdraw hwaiting hanswers hgone p.fromAlt) _ _ hnodup _ hs
          · have hnot : draw ∉ todoFailures.map TodoFailure.ticket := by
              intro hmem
              obtain ⟨q, hq, rfl⟩ := List.mem_map.mp hmem
              obtain ⟨value, hwaiting⟩ := hfailures q (List.mem_cons_of_mem p hq)
              exact hdraw (hwaiting.mem_allocated h.log)
            change (todoFailures.map TodoFailure.ticket ++
              draw :: (s.outgoingPackets.filter fun entry => entry.1 ≠ draw).map Prod.fst).Nodup
            apply List.perm_middle.nodup_iff.mpr
            refine List.nodup_cons.mpr ⟨fun hmem => ?_, hkeys.sublist ((List.filter_sublist.map Prod.fst).append_left _)⟩
            rcases List.mem_append.mp hmem with hmem | hmem
            · exact hnot hmem
            · obtain ⟨entry, hentry, heq⟩ := List.mem_map.mp hmem
              exact of_decide_eq_true (List.mem_filter.mp hentry).2 heq
          · intro q hq
            obtain ⟨value, hwaiting⟩ := hfailures q (List.mem_cons_of_mem p hq)
            have hdrawn : Waiting (.allocated draw :: s.log) q.ticket q.misc q.address value :=
              hwaiting.push fun _ _ heq => nomatch heq
            refine ⟨value, hdrawn.push fun packet dest heq => ?_⟩
            injection heq with heq
            apply hticket
            rw [heq]
            exact List.mem_append_left _ (List.mem_map_of_mem hq)
          · intro requestId hrequestId hmem
            rcases List.mem_cons.mp hmem with heq | hmem
            · cases heq
            · rcases List.mem_cons.mp hmem with heq | hmem
              · injection heq with heq
                rw [heq] at hrequestId
                exact hdistinct hrequestId
              · exact hfresh requestId (List.mem_cons_of_mem draw hrequestId) hmem

theorem Inv.resendPackets {requestIds : List TraversalRequestId} (h : Inv s) (hnodup : requestIds.Nodup)
    (hfresh : ∀ requestId ∈ requestIds, .allocated requestId ∉ s.log) (hs : s.resendPackets requestIds = some s') :
    Inv s' := by
  have hstart : Sweep s ⟨[], s.log, []⟩ s.outgoingPackets :=
    ⟨h.log, h.keys, h.entries, fun p hp => absurd hp List.not_mem_nil, h.clients, fun _ hmem => hmem⟩
  have hend := hstart.foldl
  have hentries := hend.entries
  have hkeys := hend.keys
  rw [List.append_nil] at hentries hkeys
  have hsent : Inv { s with
      outgoingPackets := (s.outgoingPackets.foldl (Resent.one s.currentTime) ⟨[], s.log, []⟩).outgoingPackets
      log := (s.outgoingPackets.foldl (Resent.one s.currentTime) ⟨[], s.log, []⟩).log } :=
    ⟨hend.log, (List.nodup_append.mp hkeys).2.1, hentries, hend.clients⟩
  refine hsent.failAll hkeys hend.failures hnodup (fun requestId hmem hallocated => ?_) hs
  exact hfresh requestId hmem (hend.drawn requestId hallocated)

/-! ## Runs -/

theorem inv_initial : Inv .initial where
  log := ⟨.nil, fun _ => Nat.zero_le _, fun _ _ => rfl, fun _ hmem => absurd hmem List.not_mem_nil,
    fun _ _ _ _ hmem => absurd hmem List.not_mem_nil, fun _ _ _ hmem => absurd hmem List.not_mem_nil,
    fun _ _ _ hmem => absurd hmem List.not_mem_nil⟩
  keys := .nil
  entries _ hmem := absurd hmem List.not_mem_nil
  clients := ⟨fun _ _ hmem => absurd hmem List.not_mem_nil, fun _ hmem => absurd hmem List.not_mem_nil⟩

theorem Inv.step {action : Action} (h : Inv s) (hfresh : Fresh s action) (hs : step s action = some s') : Inv s' := by
  cases action with
  | advance time =>
      rw [TraversalServer.step] at hs
      split at hs
      · next hle =>
          cases hs
          refine ⟨h.log, h.keys, h.entries, h.clients.values, fun event hmem hostId time' htouches => ?_⟩
          obtain ⟨hbefore, hkept | hold⟩ := h.clients.times event hmem hostId time' htouches
          · exact ⟨Nat.le_trans hbefore hle, Or.inl hkept⟩
          · exact ⟨Nat.le_trans hbefore hle, Or.inr (Nat.lt_of_lt_of_le hold hle)⟩
      · cases hs
  | handle packet addr toAlt draws => exact h.handlePacket hfresh hs
  | resend requestIds => exact h.resendPackets hfresh.1 hfresh.2 hs

theorem Inv.of_reach (h : Reach TraversalServer.step Fresh .initial s) : Inv s := h.invariant Inv inv_initial Inv.step

def Event.pleaseTicket : Event → Option TraversalRequestId
  | .connectPlease ticket _ _ _ => some ticket
  | _ => none

def Event.outcomeTicket : Event → Option TraversalRequestId
  | .outcome ticket _ _ => some ticket
  | _ => none

structure Promises (s : Server) : Prop where
  oneTicket : (s.log.filterMap Event.pleaseTicket).Nodup
  oneOutcome : (s.log.filterMap Event.outcomeTicket).Nodup
  justified : ∀ ticket packet dest, .outcome ticket packet dest ∈ s.log → Justified s.log ticket packet dest
  outgoing : ∀ entry ∈ s.outgoingPackets, entry.2.packet.content.isOutcome = true →
    ∃ ticket, .outcome ticket entry.2.packet entry.2.dest ∈ s.log
  sent : ∀ packet dest fromAlt, .sent packet dest fromAlt ∈ s.log → packet.content.isOutcome = true →
    ∃ ticket, .outcome ticket packet dest ∈ s.log
  tries : ∀ requestId, s.log.countP (sentOf requestId) ≤ NUMBER_OF_TRIES
  unacknowledged : ∀ later packet dest fromAlt earlier, s.log = later ++ .sent packet dest fromAlt :: earlier →
    .acknowledged packet.requestId ∉ earlier
  hostIds : ∀ later hostId client now earlier, s.log = later ++ .handedOut hostId client now :: earlier →
    ∀ event ∈ earlier, ∀ time, event.touches = some (hostId, time) → time + expiryTime < now

theorem Inv.follows (h : Inv s) {later earlier : List Event} {event : Event} (hlog : s.log = later ++ event :: earlier) :
    ∀ event' ∈ earlier, Follows event event' := by
  have hpairwise := h.log.follows
  rw [hlog] at hpairwise
  exact (List.pairwise_cons.mp (List.pairwise_append.mp hpairwise).2.1).1

theorem Inv.oneTicket (h : Inv s) : (s.log.filterMap Event.pleaseTicket).Nodup := by
  apply List.pairwise_filterMap.mpr
  refine h.log.follows.imp fun {later earlier} hfollows ticket hticket ticket' hticket' heq => ?_
  subst heq
  cases later with
  | connectPlease ticket₁ requestId hostId sender =>
      cases hticket
      cases earlier with
      | connectPlease ticket₂ requestId' hostId' sender' =>
          cases hticket'
          exact hfollows requestId' hostId' sender' rfl
      | _ => cases hticket'
  | _ => cases hticket

theorem Inv.oneOutcome (h : Inv s) : (s.log.filterMap Event.outcomeTicket).Nodup := by
  apply List.pairwise_filterMap.mpr
  refine h.log.follows.imp fun {later earlier} hfollows ticket hticket ticket' hticket' heq => ?_
  subst heq
  cases later with
  | outcome ticket₁ packet dest =>
      cases hticket
      cases earlier with
      | outcome ticket₂ packet' dest' =>
          cases hticket'
          exact hfollows packet' dest' rfl
      | _ => cases hticket'
  | _ => cases hticket

theorem promises_kept (h : Reach step Fresh .initial s) : Promises s := by
  have hinv := Inv.of_reach h
  refine ⟨hinv.oneTicket, hinv.oneOutcome, hinv.log.outcomes, fun entry hentry => (hinv.entries entry hentry).outcome,
    hinv.log.sent, hinv.log.sends, fun later packet dest fromAlt earlier hlog hmem => ?_,
    fun later hostId client now earlier hlog event hmem => hinv.follows hlog event hmem⟩
  exact hinv.follows hlog _ hmem rfl

instance decidableFresh (s : Server) : ∀ action, Decidable (Fresh s action)
  | .advance _ => .isTrue trivial
  | .handle _ _ _ draws => inferInstanceAs (Decidable (.allocated draws.requestId ∉ s.log))
  | .resend requestIds =>
      -- Not by a search through all the ids.
      @instDecidableAnd _ _ (List.nodupDecidable requestIds)
        (List.decidableBAll (fun requestId => .allocated requestId ∉ s.log) requestIds)

def clientAddress (port : BitVec 16) : SockaddrIn6 := ⟨#v[0x20010db8, 0, 0, 1], port, 0, 0⟩

def connectSchedule : List Action :=
  let draws (requestId : TraversalRequestId) : Server.Draws := ⟨requestId, fun _ => false, [(7, fun _ => false)]⟩
  [.handle ⟨50, .helloFromClient 0⟩ (clientAddress 100) false (draws 1),
    .handle ⟨99, .connectPlease (getRandomHostId 7)⟩ (clientAddress 200) false (draws 2),
    .resend [], .handle ⟨2, .ack 1⟩ (clientAddress 100) false (draws 3),
    .handle ⟨2, .ack 1⟩ (clientAddress 100) false (draws 4), .advance 300000, .resend []]

theorem promises_kept_connect : ∃ s, Reach step Fresh .initial s ∧ s.log.filterMap Event.outcomeTicket = [2] ∧
    .sent ⟨3, .connectReady 99 (makeInetAddress (clientAddress 100))⟩ (clientAddress 200) false ∈ s.log ∧ Promises s := by
  have hrun : (run (fun s a => if Fresh s a then step s a else none) .initial connectSchedule).map (fun s =>
      (s.log.filterMap Event.outcomeTicket, decide (.sent ⟨3, .connectReady 99 (makeInetAddress (clientAddress 100))⟩
        (clientAddress 200) false ∈ s.log))) = some ([2], true) := by
    decide
  obtain ⟨s, hs, heq⟩ := Option.map_eq_some_iff.mp hrun
  obtain ⟨htickets, hsent⟩ := Prod.mk.inj heq
  have hreach := reach_of_guarded hs
  exact ⟨s, hreach, htickets, of_decide_eq_true hsent, promises_kept hreach⟩

end Karphin.TraversalServer
