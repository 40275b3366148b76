import Karphin.NetPlay.Chunked.Lemmas.Thread

/-!
# Chunked transfers in orderly runs
-/

namespace Karphin.NetPlay.Chunked

open Karphin.Lib

namespace State

variable {s s' : State} {p q : PlayerId}

/-! ## The other steps -/

theorem rest_push (h : QueueOk s) {packet : Bytes} {target : Target} :
    (s.push packet target).rest = s.rest ++ [⟨packet, target, s.pushed.length, s.aborts⟩] := by
  have htail : ∀ x, s.pc.current = some x →
      (s.chunkedDataQueue ++ [(⟨packet, target, s.pushed.length, s.aborts⟩ : Entry)]).tail =
        s.chunkedDataQueue.tail ++ [⟨packet, target, s.pushed.length, s.aborts⟩] := by
    intro x hx
    obtain ⟨es, hes⟩ := h.front x hx
    rw [hes]
    rfl
  simp only [rest, push]
  cases hpc : s.pc with
  | endTest x =>
      dsimp only
      split
      · exact htail x (by rw [hpc]; rfl)
      · rfl
  | completeTest x => exact htail x (by rw [hpc]; rfl)
  | completeWait x => exact htail x (by rw [hpc]; rfl)
  | _ => rfl

theorem Inv.push (h : Inv s) (packet : Bytes) (target : Target)
    (hok : s.abortChunkedData = true → s.pc.isCleared = true) : Inv (s.push packet target) := by
  have hlt : ∀ e ∈ s.chunkedDataQueue, e.no < s.pushed.length := by
    intro e he
    exact (List.getElem?_eq_some_iff.mp (h.pushed e he)).1
  refine ⟨⟨?_, ?_, ?_, ?_, ?_, h.discarded⟩, ⟨h.clearing, h.payload, h.endTest, h.complete, h.stopped⟩,
    h.toStreamsOk.quiet rfl rfl rfl rfl rfl ?_⟩
  · simp only [State.push, List.map_append]
    refine List.pairwise_append.mpr ⟨h.sorted, List.pairwise_singleton _ _, ?_⟩
    intro a ha b hb
    obtain ⟨e, he, rfl⟩ := List.mem_map.mp ha
    rw [List.mem_singleton.mp hb]
    exact hlt e he
  · intro e he
    simp only [State.push]
    rcases List.mem_append.mp he with he | he
    · rw [List.getElem?_append_left (hlt e he)]
      exact h.pushed e he
    · rw [List.mem_singleton.mp he]
      exact List.getElem?_concat_length
  · intro e he
    rcases List.mem_append.mp he with he | he
    · exact h.aborts e he
    · rw [List.mem_singleton.mp he]
      exact Nat.le_refl _
  · intro x hx
    obtain ⟨es, hes⟩ := h.front x hx
    simp only [State.push, hes]
    exact ⟨_, rfl⟩
  · intro ha hclear
    have hcl : s.pc.isCleared = false := hclear
    exact absurd (hcl.symm.trans (hok ha)) Bool.false_ne_true
  · intro p ms _ hv
    rw [rest_push h.toQueueOk]
    exact hv.push packet rfl

theorem Inv.abort (h : Inv s) (hok : s.pc.allSent = false) : Inv s.chunkedDataAbort := by
  refine ⟨⟨h.sorted, h.pushed, ?_, h.front, ?_, h.discarded⟩, ⟨fun _ => rfl, h.payload, ?_, fun _ _ _ => rfl,
    h.stopped⟩, h.toStreamsOk.quiet rfl rfl rfl rfl rfl fun p ms _ hv => hv⟩
  · intro e he
    exact Nat.le_succ_of_le (h.aborts e he)
  · intro _ _ e he
    exact Nat.lt_succ_of_le (h.aborts e he)
  · intro x hpc
    have hx : s.pc = .endTest x := hpc
    obtain ⟨hended, -, hskip, -⟩ := h.endTest x hx
    refine ⟨hended, fun _ => rfl, hskip, ?_⟩
    intro hnab hnskip
    rw [hx, Pc.allSent, hnab, hnskip] at hok
    cases hok

theorem Inv.shutdown (h : Inv s) :
    Inv { s with doLoop := false, chunkedDataEvent := true, chunkedDataCompleteEvent := true } :=
  ⟨⟨h.sorted, h.pushed, h.aborts, h.front, h.aborting, h.discarded⟩,
    ⟨h.clearing, h.payload, h.endTest, h.complete, fun _ => rfl⟩,
    h.toStreamsOk.quiet rfl rfl rfl rfl rfl fun _ _ _ hv => hv⟩

theorem Inv.clients (h : Inv s) (hstreams : StreamsOk s') (he : s' = { s with
    players := s'.players, client := s'.client, asyncQueue := s'.asyncQueue
    completeCount := s'.completeCount, chunkedDataCompleteEvent := s'.chunkedDataCompleteEvent }) : Inv s' := by
  refine ⟨?_, ?_, hstreams⟩
  · rw [he]
    exact ⟨h.sorted, h.pushed, h.aborts, h.front, h.aborting, h.discarded⟩
  · rw [he]
    exact ⟨h.clearing, h.payload, h.endTest, h.complete, h.stopped⟩

theorem setClient_client {c : Client} (q : PlayerId) :
    (s.setClient p c).client q = if q = p then c else s.client q := Function.update_apply ..

theorem Inv.connect (h : Inv s) (hp : p ∉ s.players)
    (hok : ∀ n ∈ s.brokenOff, ∀ m ∈ s.queuedFor p, m.starts n = false) :
    Inv { s.setClient p {} with players := s.players ++ [p] } := by
  have hold : ∀ q ∈ s.players, (s.setClient p {}).client q = s.client q := by
    intro q hq
    rw [setClient_client, if_neg]
    rintro rfl
    exact hp hq
  have hnew : (s.setClient p {}).client p = {} := by rw [setClient_client, if_pos rfl]
  have hwhole : s.Whole (forPlayer p s.asyncQueue) := by
    rintro n hn ⟨m, hm, hs⟩
    exact absurd ((hok n hn m hm).symm.trans hs) Bool.false_ne_true
  have hstream : ∀ q ∈ s.players ++ [p], ∀ {P : List Message → Prop}, (q ∈ s.players → P (s.stream q)) →
      (q = p → P (forPlayer p s.asyncQueue)) →
      P (stream { s.setClient p {} with players := s.players ++ [p] } q) := by
    intro q hq P hin hjoin
    rcases List.mem_append.mp hq with hq | hq
    · simp only [stream, hold q hq]
      exact hin hq
    · have hqp := List.mem_singleton.mp hq
      subst hqp
      simp only [stream, hnew, List.nil_append]
      exact hjoin rfl
  refine h.clients ⟨h.brokenOff, ?_, ?_, h.suffixes, ?_⟩ rfl
  · intro q hq
    exact hstream q hq (P := Whole { s.setClient p {} with players := s.players ++ [p] })
      (fun hin => h.whole q hin) fun _ => hwhole
  · intro q hq
    refine hstream q hq (P := View s.pushed s.rest s.transfers s.phase q) (fun hin => h.view q hin) fun heq => ?_
    rw [heq]
    exact h.suffixes p s.asyncQueue List.suffix_rfl hwhole
  · intro q hq
    rcases List.mem_append.mp hq with hq | hq
    · have hr := h.received q hq
      rw [← hold q hq] at hr
      exact hr
    · rw [List.mem_singleton.mp hq]
      show ((s.setClient p {}).client p).inbox.foldl _ ((s.setClient p {}).client p).receiver =
        after ((s.setClient p {}).client p).sent
      rw [hnew]
      rfl

theorem Inv.disconnect (h : Inv s) : Inv { s with players := s.players.erase p } := by
  have hsub : ∀ {q}, q ∈ s.players.erase p → q ∈ s.players := fun hq => List.mem_of_mem_erase hq
  exact h.clients ⟨h.brokenOff, fun q hq => h.whole q (hsub hq), fun q hq => h.view q (hsub hq), h.suffixes,
    fun q hq => h.received q (hsub hq)⟩ rfl

theorem stream_send {q : Queued} {qs : List Queued} (hqueue : s.asyncQueue = q :: qs) (hp : p ∈ s.players) :
    (s.send q qs).stream p = s.stream p := by
  simp only [stream, State.send, hqueue, forPlayer, List.filter_cons]
  by_cases hin : q.target.includes p = true
  · rw [if_pos ⟨hp, hin⟩, if_pos hin]
    exact List.append_assoc ..
  · rw [if_neg fun hh => hin hh.2, if_neg hin]

theorem Inv.send (h : Inv s) {q : Queued} {qs : List Queued} (hqueue : s.asyncQueue = q :: qs) :
    Inv (s.send q qs) := by
  refine h.clients ⟨h.brokenOff, ?_, ?_, ?_, ?_⟩ rfl
  · intro p hp
    rw [stream_send hqueue hp]
    exact h.whole p hp
  · intro p hp
    rw [stream_send hqueue hp]
    exact h.view p hp
  · intro p qs' hqs'
    exact h.suffixes p qs' (by rw [hqueue]; exact List.suffix_cons_iff.mpr (Or.inr hqs'))
  · intro p hp
    have hr := h.received p hp
    simp only [State.send]
    split
    · rw [List.foldl_append, hr]
      exact after_append.symm
    · exact hr

theorem Inv.setClient (h : Inv s) {c : Client} (hsent : c.sent = (s.client p).sent)
    (hfold : c.inbox.foldl Receiver.onData c.receiver =
      (s.client p).inbox.foldl Receiver.onData (s.client p).receiver) : Inv (s.setClient p c) := by
  have hstream : ∀ q, (s.setClient p c).stream q = s.stream q := by
    intro q
    simp only [stream, setClient_client]
    split
    · next heq => rw [heq, hsent]; rfl
    · rfl
  refine h.clients ⟨h.brokenOff, ?_, ?_, h.suffixes, ?_⟩ rfl
  · intro q hq
    rw [hstream]
    exact h.whole q hq
  · intro q hq
    rw [hstream]
    exact h.view q hq
  · intro q hq
    have hr := h.received q hq
    rw [setClient_client]
    split
    · next heq =>
        rw [hfold, hsent]
        exact heq ▸ hr
    · exact hr

theorem Inv.onChunkedDataComplete (h : Inv s) (id : UInt32) : Inv (s.onChunkedDataComplete id) := by
  rw [State.onChunkedDataComplete]
  split
  · exact h
  · exact h.clients (h.toStreamsOk.quiet rfl rfl rfl rfl rfl fun _ _ _ hv => hv) rfl

theorem Inv.step (h : Inv s) {op : Op} (hok : s.Orderly op) (hs : s.step op = some s') : Inv s' := by
  cases op with
  | connect p =>
      simp only [State.step] at hs
      split at hs
      · cases hs
      · next hp => cases hs; exact h.connect hp hok
  | disconnect p =>
      simp only [State.step] at hs
      split at hs
      · cases hs; exact h.disconnect
      · cases hs
  | sendChunked packet pid => cases hs; exact h.push packet _ hok
  | sendChunkedToClients packet skipPid => cases hs; exact h.push packet _ hok
  | chunkedDataAbort => cases hs; exact h.abort hok
  | shutdown => cases hs; exact h.shutdown
  | thread => exact h.thread hs
  | send =>
      simp only [State.step] at hs
      split at hs
      · cases hs
      · next hqueue => cases hs; exact h.send hqueue
  | deliver p =>
      simp only [State.step] at hs
      split at hs
      · split at hs
        · cases hs
        · next hin =>
            cases hs
            refine h.setClient rfl ?_
            rw [hin]
            rfl
      · cases hs
  | complete p =>
      simp only [State.step] at hs
      split at hs
      · split at hs
        · cases hs
        · next id rest _ =>
            cases hs
            have hset : Inv (s.setClient p { s.client p with outbox := rest }) := h.setClient rfl rfl
            exact hset.onChunkedDataComplete id
      · cases hs

/-! ## The promises -/

theorem handled_prefix (c : Receiver) (ms : List Message) : c.handled <+: (ms.foldl Receiver.onData c).handled := by
  induction ms generalizing c with
  | nil => exact List.prefix_rfl
  | cons m ms ih =>
      refine List.IsPrefix.trans ?_ (ih (c.onData m))
      rw [Receiver.onData]
      split
      · rw [Receiver.onChunkedDataStart]
        split
        · exact List.prefix_rfl
        · exact List.prefix_rfl
      · exact List.prefix_rfl
      · rw [Receiver.onChunkedDataEnd]
        split
        · exact List.prefix_rfl
        · exact List.prefix_append _ _
      · exact List.prefix_rfl

theorem Inv.inOrder (h : Inv s) : s.InOrder := by
  intro p hp
  have hv := h.view p hp
  have hpre : (s.client p).receiver.handled <+: (after (s.stream p)).handled := by
    have hsent := handled_prefix (s.client p).receiver (s.client p).inbox
    rw [h.received p hp] at hsent
    refine hsent.trans ?_
    rw [stream, after, after, List.foldl_append]
    exact handled_prefix _ _
  refine ⟨hv.sorted.sublist (hpre.sublist.map _), fun a ha => hv.right a (hpre.subset ha)⟩

theorem phase_of_underway {x : Transfer} (h : s.phase = .underway x) : s.pc.underway = some x.transfer := by
  rw [phase] at h
  split at h
  · next hpc => cases h; rw [hpc]; rfl
  · next hpc =>
      split at h
      · cases h
      · next hnab => cases h; simp only [hpc, Pc.underway, hnab, Bool.false_eq_true, if_false]
  · cases h
  · cases h

theorem Inv.answered (h : Inv s) : s.Answered := by
  intro p hp n hs
  have hv := h.view p hp
  have hstarted : Started n (s.stream p) := by
    obtain ⟨m, hm, hst⟩ := hs
    exact ⟨m, List.mem_append_left _ hm, hst⟩
  have hsum : closings n (s.stream p) =
      (s.client p).sent.countP (·.closes n) + (s.queuedFor p).countP (·.closes n) := by
    rw [closings, stream, List.countP_append]
    rfl
  have hle := hv.once n
  refine ⟨by omega, fun hloop => ?_⟩
  have hone : closings n (s.stream p) = 1 → (s.client p).sent.countP (·.closes n) = 1 ∨
      s.pc.underway = some n ∨ ∃ m ∈ s.queuedFor p, m.closes n = true := by
    intro hcount
    by_cases hsent : (s.client p).sent.countP (·.closes n) = 1
    · exact Or.inl hsent
    · exact Or.inr (Or.inr (List.countP_pos_iff.mp (by omega)))
  cases hphase : s.phase with
  | closed => exact hone ((hv.closed hphase).2 n hstarted)
  | underway x =>
      by_cases hn : n = x.transfer
      · exact Or.inr (Or.inl (hn ▸ phase_of_underway hphase))
      · exact hone ((hv.underway x hphase).2.2.2.2.2 n hn hstarted)
  | stopped =>
      have hpc : s.pc = .stopped := by
        rw [phase] at hphase
        split at hphase
        · cases hphase
        · split at hphase
          · cases hphase
          · cases hphase
        · next hpc => exact hpc
        · cases hphase
      exact absurd ((h.stopped hpc).symm.trans hloop) Bool.false_ne_true

/-! ## Progress -/

/-- What the steps of the two threads of the server leave alone, and that nothing sent is taken back. -/
structure Later (s s' : State) : Prop where
  doLoop : s'.doLoop = s.doLoop
  players : s'.players = s.players
  sent : ∀ p, (s.client p).sent <+: (s'.client p).sent

theorem Later.of_client (hloop : s'.doLoop = s.doLoop) (hplayers : s'.players = s.players)
    (hclient : s'.client = s.client) : Later s s' :=
  ⟨hloop, hplayers, fun _ => hclient ▸ List.prefix_rfl⟩

theorem Later.refl : Later s s := Later.of_client rfl rfl rfl

theorem Later.trans {s'' : State} (h : Later s s') (h' : Later s' s'') : Later s s'' :=
  ⟨h'.doLoop.trans h.doLoop, h'.players.trans h.players, fun p => (h.sent p).trans (h'.sent p)⟩

theorem end_transfer {x : Transfer} (hpc : s.pc = .endTest x) :
    ∃ s', Reach State.step serverStep s s' ∧ Later s s' ∧ s'.pc.underway = none := by
  by_cases hab : s.abortChunkedData = true
  · refine ⟨{ s with pc := .completeTest x }, Reach.refl.tail (Or.inl rfl) ?_, Later.of_client rfl rfl rfl,
      rfl⟩
    simp only [State.step, chunkedDataThread, hpc, if_pos hab]
  · refine ⟨({ s with pc := .completeTest { x with ended := true } } : State).chunkedDataSend x .finish,
      Reach.refl.tail (Or.inl rfl) ?_, Later.of_client rfl rfl rfl, rfl⟩
    simp only [State.step, chunkedDataThread, hpc, if_neg hab]

theorem payload_next (hloop : s.doLoop = true) (x : Transfer) :
    Later s (s.payload x) ∧ ((∃ x', (s.payload x).pc = .endTest x') ∨
      ∃ x', (s.payload x).pc = .payload x' ∧ x'.entry = x.entry ∧ x'.index = x.index + chunkedDataUnitSize ∧
        x'.index < x.entry.packet.length) := by
  rw [State.payload]
  split
  · next hno => exact absurd hloop (by simpa using hno)
  · split
    · exact ⟨Later.of_client rfl rfl rfl, Or.inl ⟨_, rfl⟩⟩
    · split
      · exact ⟨Later.of_client rfl rfl rfl, Or.inl ⟨_, rfl⟩⟩
      · dsimp only
        split
        · next hlt => exact ⟨Later.of_client rfl rfl rfl, Or.inr ⟨_, rfl, rfl, rfl, hlt⟩⟩
        · exact ⟨Later.of_client rfl rfl rfl, Or.inl ⟨_, rfl⟩⟩

theorem finish_transfer (hloop : s.doLoop = true) {x : Transfer} (hpc : s.pc = .payload x) :
    ∃ s', Reach State.step serverStep s s' ∧ Later s s' ∧ s'.pc.underway = none := by
  -- by induction on the bytes that are left
  induction hk : x.entry.packet.length - x.index using Nat.strongRecOn generalizing s x with
  | ind k ih =>
      have hstep : s.step .thread = some (s.payload x) := by simp only [State.step, chunkedDataThread, hpc]
      have hfirst : Reach State.step serverStep s (s.payload x) := Reach.refl.tail (Or.inl rfl) hstep
      obtain ⟨hlater, ⟨x', hend⟩ | ⟨x', hpay, hentry, hindex, hlt⟩⟩ := payload_next hloop x
      · obtain ⟨s', hreach, hlater', hnone⟩ := end_transfer hend
        exact ⟨s', hfirst.trans hreach, hlater.trans hlater', hnone⟩
      · have hunit : 0 < chunkedDataUnitSize := by decide
        have hless : x'.entry.packet.length - x'.index < k := by
          rw [hentry, ← hk]
          omega
        obtain ⟨s', hreach, hlater', hnone⟩ := ih _ hless (hlater.doLoop.trans hloop) hpay rfl
        exact ⟨s', hfirst.trans hreach, hlater.trans hlater', hnone⟩

theorem drain (s : State) : ∃ s', Reach State.step serverStep s s' ∧ Later s s' ∧ s'.pc = s.pc ∧
    s'.asyncQueue = [] := by
  induction hqs : s.asyncQueue generalizing s with
  | nil => exact ⟨s, Reach.refl, Later.refl, rfl, hqs⟩
  | cons q qs ih =>
      obtain ⟨s', hreach, hlater, hpc, hempty⟩ := ih (s.send q qs) rfl
      have hstep : s.step .send = some (s.send q qs) := by simp only [State.step, hqs]
      have hfirst : Reach State.step serverStep s (s.send q qs) := Reach.refl.tail (Or.inr rfl) hstep
      have hsend : Later s (s.send q qs) := by
        refine ⟨rfl, rfl, fun p => ?_⟩
        simp only [State.send]
        split
        · exact List.prefix_append _ _
        · exact List.prefix_rfl
      exact ⟨s', hfirst.trans hreach, hsend.trans hlater, hpc, hempty⟩

theorem settle (hloop : s.doLoop = true) : ∃ s', Reach State.step serverStep s s' ∧ Later s s' ∧
    s'.pc.underway = none ∧ s'.asyncQueue = [] := by
  have hend : ∃ s₁, Reach State.step serverStep s s₁ ∧ Later s s₁ ∧ s₁.pc.underway = none := by
    cases hpc : s.pc with
    | payload x => exact finish_transfer hloop hpc
    | endTest x => exact end_transfer hpc
    | _ => exact ⟨s, Reach.refl, Later.refl, by rw [hpc]; rfl⟩
  obtain ⟨s₁, hreach, hlater, hnone⟩ := hend
  obtain ⟨s', hreach', hlater', hpc, hempty⟩ := drain s₁
  exact ⟨s', hreach.trans hreach', hlater.trans hlater', hpc ▸ hnone, hempty⟩

theorem Inv.answers (h : Inv s) : s.Answers := by
  rintro hloop p hp n ⟨m, hm, hs⟩
  obtain ⟨s', hreach, hlater, hnone, hempty⟩ := settle hloop
  have hinv : Inv s' := by
    refine hreach.invariant Inv h fun {s₁ op s₂} h₁ hop hstep => h₁.step ?_ hstep
    rcases hop with rfl | rfl
    · trivial
    · trivial
  refine ⟨s', hreach, hlater.players ▸ hp, ?_⟩
  obtain ⟨-, hsent⟩ := hinv.answered p (hlater.players ▸ hp) n ⟨m, (hlater.sent p).subset hm, hs⟩
  rcases hsent (hlater.doLoop.trans hloop) with hone | hun | ⟨m', hm', -⟩
  · exact hone
  · rw [hnone] at hun
    cases hun
  · rw [queuedFor, hempty] at hm'
    cases hm'

/-- In orderly runs clients handle what was queued, in that order, every start is answered once, and no entry is
dropped unless an abort came after it. -/
theorem chunked_transfers (s : State) (h : Reach State.step Orderly {} s) :
    s.InOrder ∧ s.Answered ∧ s.Answers ∧ s.NoneLost := by
  have hinv : Inv s := h.invariant Inv Inv.init fun hs hok hstep => hs.step hok hstep
  exact ⟨hinv.inOrder, hinv.answered, hinv.answers, hinv.discarded⟩

def threadSteps (n : Nat) : List Op := List.replicate n .thread

def joinedLate : List Op :=
  Op.sendChunked [7] 2 :: threadSteps 9 ++ [Op.connect 2, .send, .send, .deliver 2, .deliver 2]

def abortedLate : List Op :=
  [Op.connect 2, .sendChunkedToClients [7] 1] ++ threadSteps 7 ++ [Op.chunkedDataAbort] ++ threadSteps 2 ++
    [Op.send, .send]

def queuedLate : List Op := [Op.chunkedDataAbort, .sendChunkedToClients [7] 1] ++ threadSteps 5

/-- A packet handled without its bytes, a start that is never answered, and an entry dropped without an abort
after it. -/
theorem transfers_go_wrong :
    (¬ ∀ s, Reach State.step anyStep {} s → s.InOrder) ∧
    (¬ ∀ s, Reach State.step anyStep {} s → s.Answered) ∧
    ¬ ∀ s, Reach State.step anyStep {} s → s.NoneLost := by
  refine ⟨fun h => ?_, fun h => ?_, fun h => ?_⟩
  · have hrun : (run State.step {} joinedLate).map
        (fun s => (s.players, (s.client 2).receiver.handled, s.pushed)) = some ([2], [(0, [])], [[7]]) := by decide
    obtain ⟨s, hs, heq⟩ := Option.map_eq_some_iff.mp hrun
    simp only [Prod.mk.injEq] at heq
    obtain ⟨hplayers, hhandled, hpushed⟩ := heq
    have hbytes := (h s (reach_of_run hs) 2 (by rw [hplayers]; decide)).2 (0, []) (by rw [hhandled]; decide)
    rw [hpushed] at hbytes
    exact absurd hbytes (by decide)
  · have hrun : (run State.step {} abortedLate).map (fun s => (s.players, s.doLoop, s.pc.underway,
        ((s.client 2).sent.any (·.starts 0), (s.client 2).sent.countP (·.closes 0)), s.asyncQueue.length)) =
        some ([2], true, none, (true, 0), 0) := by decide
    obtain ⟨s, hs, heq⟩ := Option.map_eq_some_iff.mp hrun
    simp only [Prod.mk.injEq] at heq
    obtain ⟨hplayers, hloop, hnone, ⟨hstart, hcount⟩, hempty⟩ := heq
    have hans := (h s (reach_of_run hs) 2 (by rw [hplayers]; decide) 0 (List.any_eq_true.mp hstart)).2 hloop
    rcases hans with hone | hun | ⟨m, hm, -⟩
    · rw [hcount] at hone
      cases hone
    · rw [hnone] at hun
      cases hun
    · rw [queuedFor, List.eq_nil_of_length_eq_zero hempty] at hm
      cases hm
  · have hrun : (run State.step {} queuedLate).map
        (fun s => s.discarded.map fun d => (d.entry.aborts, d.aborts)) = some [(1, 1)] := by decide
    obtain ⟨s, hs, heq⟩ := Option.map_eq_some_iff.mp hrun
    have hmem : ((1, 1) : Nat × Nat) ∈ s.discarded.map fun d => (d.entry.aborts, d.aborts) := by
      rw [heq]; decide
    obtain ⟨d, hd, hdeq⟩ := List.mem_map.mp hmem
    have hlt := h s (reach_of_run hs) d hd
    simp only [Prod.mk.injEq] at hdeq
    omega

/-- A client receives a packet. -/
theorem chunked_transfers_one_client : ∃ s, Reach State.step Orderly {} s ∧
    (s.client 2).receiver.handled = [(0, [7])] ∧ s.InOrder ∧ s.Answered ∧ s.Answers ∧ s.NoneLost := by
  have hrun : (run (fun (s : State) op => if s.Orderly op then s.step op else none) {}
      ([Op.connect 2, .sendChunkedToClients [7] 1] ++ threadSteps 9 ++
        [Op.send, .send, .send, .deliver 2, .deliver 2, .deliver 2, .complete 2] ++ threadSteps 3)).map
          (fun s => (s.client 2).receiver.handled) = some [(0, [7])] := by decide
  obtain ⟨s, hs, heq⟩ := Option.map_eq_some_iff.mp hrun
  exact ⟨s, reach_of_guarded hs, heq, chunked_transfers s (reach_of_guarded hs)⟩

end State

end Karphin.NetPlay.Chunked
