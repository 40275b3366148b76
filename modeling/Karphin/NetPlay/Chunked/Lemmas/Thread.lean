import Karphin.NetPlay.Chunked.Lemmas.Views

/-!
# The thread keeps the streams of all clients in order
-/

namespace Karphin.NetPlay.Chunked

/-! ## Streams -/

def forPlayer (p : PlayerId) (qs : List Queued) : List Message :=
  (qs.filter (·.target.includes p)).map Queued.message

theorem forPlayer_append {p : PlayerId} {qs : List Queued} {x : Transfer} {body : Body} :
    forPlayer p (qs ++ [⟨x.entry.target, ⟨x.transfer, x.id, body⟩⟩]) = told x p body (forPlayer p qs) := by
  rw [forPlayer, told, List.filter_append]
  by_cases hp : x.entry.target.includes p = true
  · simp [forPlayer, hp]
  · simp [forPlayer, hp]

theorem told_append {x : Transfer} {p : PlayerId} {body : Body} {ms ms' : List Message} :
    told x p body (ms ++ ms') = ms ++ told x p body ms' := by
  rw [told, told]
  split
  · exact List.append_assoc ..
  · rfl

namespace Pc

def current : Pc → Option Transfer
  | .payload x | .endTest x | .completeTest x | .completeWait x => some x
  | _ => none

def idle : Pc → Bool
  | .outer | .wait | .woken | .inner | .abortTest | .front => true
  | _ => false

end Pc

namespace State

variable {s s' : State} {p q : PlayerId}

def phase (s : State) : Phase :=
  match s.pc with
  | .payload x => .underway x
  | .endTest x => if x.aborted then .closed else .underway x
  | .stopped => .stopped
  | _ => .closed

def rest (s : State) : List Entry :=
  match s.pc with
  | .endTest x => if x.aborted then s.chunkedDataQueue.tail else s.chunkedDataQueue
  | .completeTest _ | .completeWait _ => s.chunkedDataQueue.tail
  | _ => s.chunkedDataQueue

/-- All that `p` has been sent or will be sent from what is queued. -/
def stream (s : State) (p : PlayerId) : List Message := (s.client p).sent ++ forPlayer p s.asyncQueue

def Whole (s : State) (ms : List Message) : Prop := ∀ n ∈ s.brokenOff, ¬ Started n ms

structure QueueOk (s : State) : Prop where
  sorted : (s.chunkedDataQueue.map Entry.no).Pairwise (· < ·)
  pushed : ∀ e ∈ s.chunkedDataQueue, s.pushed[e.no]? = some e.packet
  aborts : ∀ e ∈ s.chunkedDataQueue, e.aborts ≤ s.aborts
  front : ∀ x, s.pc.current = some x → ∃ es, s.chunkedDataQueue = x.entry :: es
  aborting : s.abortChunkedData = true → s.pc.isCleared = false → ∀ e ∈ s.chunkedDataQueue, e.aborts < s.aborts
  discarded : s.NoneLost

structure ThreadOk (s : State) : Prop where
  clearing : s.pc = .clearing → s.abortChunkedData = true
  payload : ∀ x, s.pc = .payload x → x.aborted = false ∧ x.skipWait = false ∧ x.ended = false
  endTest : ∀ x, s.pc = .endTest x → x.ended = false ∧
    (x.aborted = true → s.abortChunkedData = true) ∧
    (x.skipWait = true → x.transfer ∈ s.brokenOff) ∧
    (x.aborted = false → x.skipWait = false →
      s.abortChunkedData = false ∧ x.entry.packet.length ≤ x.index)
  complete : ∀ x, s.pc = .completeTest x ∨ s.pc = .completeWait x → x.ended = false → s.abortChunkedData = true
  stopped : s.pc = .stopped → s.doLoop = false

/-- The streams of the connected clients, and those that a client sees who joins now or later. -/
structure StreamsOk (s : State) : Prop where
  brokenOff : ∀ n ∈ s.brokenOff, n < s.transfers
  whole : ∀ p ∈ s.players, s.Whole (s.stream p)
  view : ∀ p ∈ s.players, View s.pushed s.rest s.transfers s.phase p (s.stream p)
  suffixes : ∀ p qs, qs <:+ s.asyncQueue → s.Whole (forPlayer p qs) →
    View s.pushed s.rest s.transfers s.phase p (forPlayer p qs)
  received : ∀ p ∈ s.players,
    (s.client p).inbox.foldl Receiver.onData (s.client p).receiver = after (s.client p).sent

structure Inv (s : State) : Prop extends QueueOk s, ThreadOk s, StreamsOk s

theorem Inv.init : Inv {} := by
  refine ⟨⟨List.Pairwise.nil, ?_, ?_, ?_, ?_, ?_⟩, ⟨?_, ?_, ?_, ?_, ?_⟩, ⟨?_, ?_, ?_, ?_, ?_⟩⟩
  · intro e he; cases he
  · intro e he; cases he
  · intro x hx; cases hx
  · intro ha; cases ha
  · intro d hd; cases hd
  · intro hx; cases hx
  · intro x hx; cases hx
  · intro x hx; cases hx
  · rintro x (hx | hx)
    · cases hx
    · cases hx
  · intro hx; cases hx
  · intro n hn; cases hn
  · intro p hp; cases hp
  · intro p hp; cases hp
  · intro p qs hqs _
    rw [List.suffix_nil.mp hqs]
    exact View.nil fun x hx => by cases hx
  · intro p hp; cases hp

/-! ## Steps of the thread -/

theorem Whole.told {ms : List Message} {x : Transfer} {body : Body} (h : s.Whole ms)
    (hbody : (∀ no, body ≠ .start no) ∨ x.transfer ∉ s.brokenOff) : s.Whole (told x p body ms) := by
  rintro n hn ⟨m, hm, hs⟩
  rcases told_mem hm with hm | ⟨-, rfl⟩
  · exact h n hn ⟨m, hm, hs⟩
  · have htr := Message.transfer_of_starts hs
    rcases hbody with hno | hnot
    · cases body with
      | start no => exact hno no rfl
      | payload data => cases hs
      | finish => cases hs
      | abort => cases hs
    · rw [← htr] at hn
      exact hnot hn

theorem StreamsOk.quiet (h : StreamsOk s) (hplayers : s'.players = s.players) (hclient : s'.client = s.client)
    (hqueue : s'.asyncQueue = s.asyncQueue) (hbroken : s'.brokenOff = s.brokenOff)
    (htransfers : s'.transfers = s.transfers)
    (hview : ∀ p ms, s.Whole ms → View s.pushed s.rest s.transfers s.phase p ms →
      View s'.pushed s'.rest s'.transfers s'.phase p ms) : StreamsOk s' := by
  have hstream : ∀ p, s'.stream p = s.stream p := by
    intro p
    rw [stream, stream, hclient, hqueue]
  have hwhole : ∀ ms, s'.Whole ms ↔ s.Whole ms := by
    intro ms
    rw [Whole, Whole, hbroken]
  refine ⟨?_, ?_, ?_, ?_, ?_⟩
  · rw [hbroken, htransfers]
    exact h.brokenOff
  · intro p hp
    rw [hstream, hwhole]
    exact h.whole p (hplayers ▸ hp)
  · intro p hp
    rw [hstream]
    exact hview p _ (h.whole p (hplayers ▸ hp)) (h.view p (hplayers ▸ hp))
  · intro p qs hqs hw
    rw [hqueue] at hqs
    rw [hwhole] at hw
    exact hview p _ hw (h.suffixes p qs hqs hw)
  · rw [hplayers, hclient]
    exact h.received

theorem StreamsOk.sent (h : StreamsOk s) {x : Transfer} {body : Body} (hplayers : s'.players = s.players)
    (hclient : s'.client = s.client)
    (hqueue : s'.asyncQueue = s.asyncQueue ++ [⟨x.entry.target, ⟨x.transfer, x.id, body⟩⟩])
    (hbroken : s'.brokenOff = s.brokenOff) (htransfers : s.transfers ≤ s'.transfers)
    (hbody : (∀ no, body ≠ .start no) ∨ x.transfer ∉ s.brokenOff)
    (hphase : ∀ y, s'.phase = .underway y → y.transfer < s'.transfers)
    (hview : ∀ p ms, s.Whole ms → View s.pushed s.rest s.transfers s.phase p ms →
      View s'.pushed s'.rest s'.transfers s'.phase p (told x p body ms)) : StreamsOk s' := by
  have hstream : ∀ p, s'.stream p = told x p body (s.stream p) := by
    intro p
    rw [stream, stream, hclient, hqueue, forPlayer_append, told_append]
  have hwhole : ∀ ms, s'.Whole ms ↔ s.Whole ms := by
    intro ms
    rw [Whole, Whole, hbroken]
  refine ⟨?_, ?_, ?_, ?_, ?_⟩
  · intro n hn
    exact Nat.lt_of_lt_of_le (h.brokenOff n (hbroken ▸ hn)) htransfers
  · intro p hp
    rw [hstream, hwhole]
    exact (h.whole p (hplayers ▸ hp)).told hbody
  · intro p hp
    rw [hstream]
    exact hview p _ (h.whole p (hplayers ▸ hp)) (h.view p (hplayers ▸ hp))
  · intro p qs hqs hw
    rw [hqueue] at hqs
    rw [hwhole] at hw
    rcases List.suffix_concat_iff.mp hqs with rfl | ⟨qs', rfl, hqs'⟩
    · exact View.nil hphase
    · rw [forPlayer_append] at hw ⊢
      have hw' : s.Whole (forPlayer p qs') := by
        rintro n hn ⟨m, hm, hs⟩
        refine hw n hn ⟨m, ?_, hs⟩
        rw [Chunked.told]
        split
        · exact List.mem_append_left _ hm
        · exact hm
      exact hview p _ hw' (h.suffixes p qs' hqs' hw')
  · rw [hplayers, hclient]
    exact h.received

theorem idle_cases (h : s.pc.idle = true) : s.phase = .closed ∧ s.rest = s.chunkedDataQueue ∧
    s.pc.current = none ∧ s.pc.isCleared = false := by
  rw [phase, rest]
  cases hpc : s.pc with
  | outer => exact ⟨rfl, rfl, rfl, rfl⟩
  | wait => exact ⟨rfl, rfl, rfl, rfl⟩
  | woken => exact ⟨rfl, rfl, rfl, rfl⟩
  | inner => exact ⟨rfl, rfl, rfl, rfl⟩
  | abortTest => exact ⟨rfl, rfl, rfl, rfl⟩
  | front => exact ⟨rfl, rfl, rfl, rfl⟩
  | _ => rw [hpc] at h; cases h

theorem ThreadOk.of_idle (h : s.pc.idle = true) : ThreadOk s := by
  refine ⟨?_, ?_, ?_, ?_, ?_⟩
  · intro hpc; rw [hpc] at h; cases h
  · intro x hpc; rw [hpc] at h; cases h
  · intro x hpc; rw [hpc] at h; cases h
  · rintro x (hpc | hpc)
    · rw [hpc] at h; cases h
    · rw [hpc] at h; cases h
  · intro hpc; rw [hpc] at h; cases h

theorem Inv.idle (h : Inv s) (hpc : s.pc.idle = true) (hpc' : s'.pc.idle = true)
    (he : s' = { s with pc := s'.pc, chunkedDataEvent := s'.chunkedDataEvent }) : Inv s' := by
  obtain ⟨hphase, hrest, -, hclear⟩ := idle_cases hpc
  obtain ⟨hphase', hrest', hcur', -⟩ := idle_cases hpc'
  have hqueue : s'.chunkedDataQueue = s.chunkedDataQueue := by rw [he]
  refine ⟨⟨?_, ?_, ?_, ?_, ?_, ?_⟩, ThreadOk.of_idle hpc', h.toStreamsOk.quiet ?_ ?_ ?_ ?_ ?_ ?_⟩
  · rw [he]; exact h.sorted
  · rw [he]; exact h.pushed
  · rw [he]; exact h.aborts
  · intro x hx
    rw [hcur'] at hx
    cases hx
  · rw [he]
    intro ha _
    exact h.aborting ha hclear
  · rw [he]; exact h.discarded
  · rw [he]
  · rw [he]
  · rw [he]
  · rw [he]
  · rw [he]
  · intro p ms _ hv
    rw [hphase', hrest', hqueue]
    rw [hphase, hrest] at hv
    rw [he]
    exact hv

theorem Inv.stop (h : Inv s) (hrest : s.rest = s.chunkedDataQueue) (hclear : s.pc.isCleared = false)
    (hloop : s.doLoop = false) : Inv { s with pc := .stopped } := by
  refine ⟨⟨h.sorted, h.pushed, h.aborts, ?_, ?_, h.discarded⟩, ⟨?_, ?_, ?_, ?_, fun _ => hloop⟩,
    h.toStreamsOk.quiet rfl rfl rfl rfl rfl ?_⟩
  · intro x hx; cases hx
  · intro ha _
    exact h.aborting ha hclear
  · intro hx; cases hx
  · intro x hx; cases hx
  · intro x hx; cases hx
  · rintro x (hx | hx)
    · cases hx
    · cases hx
  · intro p ms _ hv
    rw [hrest] at hv
    exact hv.stop

theorem Inv.clear (h : Inv s) (hpc : s.pc = .clearing) {e : Entry} {es : List Entry}
    (hqueue : s.chunkedDataQueue = e :: es) :
    Inv { s with chunkedDataQueue := es, discarded := s.discarded ++ [⟨e, s.aborts⟩] } := by
  have hab := h.clearing hpc
  have hlt := h.aborting hab (by rw [hpc]; rfl)
  have hsub : ∀ {e'}, e' ∈ es → e' ∈ s.chunkedDataQueue := by
    intro e' he'
    rw [hqueue]
    exact List.mem_cons_of_mem e he'
  have hsorted := h.sorted
  rw [hqueue, List.map_cons, List.pairwise_cons] at hsorted
  refine ⟨⟨hsorted.2, fun e' he' => h.pushed e' (hsub he'), fun e' he' => h.aborts e' (hsub he'), ?_, ?_, ?_⟩,
    ⟨h.clearing, h.payload, h.endTest, h.complete, h.stopped⟩, h.toStreamsOk.quiet rfl rfl rfl rfl rfl ?_⟩
  · intro x hx
    simp only [hpc] at hx
    cases hx
  · intro _ _ e' he'
    exact hlt e' (hsub he')
  · intro d hd
    rcases List.mem_append.mp hd with hd | hd
    · exact h.discarded d hd
    · rw [List.mem_singleton.mp hd]
      exact hlt e (by rw [hqueue]; exact List.mem_cons_self)
  · intro p ms _ hv
    have hr : s.rest = s.chunkedDataQueue := by rw [rest, hpc]
    have hr' : rest { s with chunkedDataQueue := es, discarded := s.discarded ++ [⟨e, s.aborts⟩] } = es := by
      rw [rest, hpc]
    rw [hr] at hv
    rw [hr']
    exact hv.mono fun e' he' => hsub he'

theorem Inv.cleared (h : Inv s) (hpc : s.pc = .clearing) : Inv { s with pc := .cleared } := by
  refine ⟨⟨h.sorted, h.pushed, h.aborts, ?_, ?_, h.discarded⟩, ⟨?_, ?_, ?_, ?_, ?_⟩,
    h.toStreamsOk.quiet rfl rfl rfl rfl rfl ?_⟩
  · intro x hx; cases hx
  · intro _ hc; cases hc
  · intro hx; cases hx
  · intro x hx; cases hx
  · intro x hx; cases hx
  · rintro x (hx | hx)
    · cases hx
    · cases hx
  · intro hx; cases hx
  · intro p ms _ hv
    simp only [phase, rest, hpc] at hv ⊢
    exact hv

theorem Inv.resume (h : Inv s) (hpc : s.pc = .cleared) : Inv { s with abortChunkedData := false, pc := .inner } := by
  refine ⟨⟨h.sorted, h.pushed, h.aborts, ?_, ?_, h.discarded⟩, ThreadOk.of_idle rfl,
    h.toStreamsOk.quiet rfl rfl rfl rfl rfl ?_⟩
  · intro x hx; cases hx
  · intro ha; cases ha
  · intro p ms _ hv
    simp only [phase, rest, hpc] at hv ⊢
    exact hv

theorem Inv.start (h : Inv s) (hpc : s.pc = .front) {e : Entry} {es : List Entry}
    (hqueue : s.chunkedDataQueue = e :: es) : Inv (s.startTransfer e) := by
  have hclear : s.pc.isCleared = false := by rw [hpc]; rfl
  have hfresh : s.transfers ∉ s.brokenOff := fun hn => Nat.lt_irrefl _ (h.brokenOff _ hn)
  refine ⟨⟨h.sorted, h.pushed, h.aborts, ?_, ?_, h.discarded⟩, ⟨?_, ?_, ?_, ?_, ?_⟩,
    h.toStreamsOk.sent rfl rfl rfl rfl (Nat.le_succ _) (Or.inr hfresh) ?_ ?_⟩
  · intro x hx
    cases hx
    exact ⟨es, hqueue⟩
  · intro ha _
    exact h.aborting ha hclear
  · intro hx; cases hx
  · intro x hx
    cases hx
    exact ⟨rfl, rfl, rfl⟩
  · intro x hx; cases hx
  · rintro x (hx | hx)
    · cases hx
    · cases hx
  · intro hx; cases hx
  · intro y hy
    cases hy
    exact Nat.lt_succ_self _
  · intro p ms _ hv
    have hphase : s.phase = .closed := by rw [phase, hpc]
    have hrest : s.rest = s.chunkedDataQueue := by rw [rest, hpc]
    rw [hphase, hrest] at hv
    exact hv.start rfl rfl

theorem QueueOk.behind (h : QueueOk s) {e : Entry} {es : List Entry} (hqueue : s.chunkedDataQueue = e :: es) :
    e ∈ s.chunkedDataQueue ∧ ∀ e' ∈ s.chunkedDataQueue.tail, e' ∈ s.chunkedDataQueue ∧ e.no < e'.no := by
  have hsorted := h.sorted
  rw [hqueue, List.map_cons, List.pairwise_cons] at hsorted
  rw [hqueue]
  refine ⟨List.mem_cons_self, fun e' he' => ⟨List.mem_cons_of_mem e he', ?_⟩⟩
  exact hsorted.1 e'.no (List.mem_map_of_mem he')

theorem Inv.underway_lt (h : Inv s) {x : Transfer} (hpc : s.pc = .payload x) : x.transfer < s.transfers := by
  have hv := h.suffixes 0 [] List.nil_suffix (by rintro n _ ⟨m, hm, -⟩; cases hm)
  exact (hv.underway x (by rw [phase, hpc])).1

theorem Inv.payloadAbort (h : Inv s) {x : Transfer} (hpc : s.pc = .payload x) (hab : s.abortChunkedData = true) :
    Inv (({ s with pc := .endTest { x with aborted := true } } : State).chunkedDataSend x .abort) := by
  obtain ⟨-, hskip, hended⟩ := h.payload x hpc
  obtain ⟨es, hqueue⟩ := h.front x (by rw [hpc]; rfl)
  obtain ⟨hmem, hbehind⟩ := h.toQueueOk.behind hqueue
  refine ⟨⟨h.sorted, h.pushed, h.aborts, ?_, ?_, h.discarded⟩, ⟨?_, ?_, ?_, ?_, ?_⟩,
    h.toStreamsOk.sent rfl rfl rfl rfl (Nat.le_refl _) (Or.inl fun no hno => by cases hno) ?_ ?_⟩
  · intro y hy
    cases hy
    exact ⟨es, hqueue⟩
  · intro _ _
    exact h.aborting hab (by rw [hpc]; rfl)
  · intro hx; cases hx
  · intro y hy; cases hy
  · intro y hy
    cases hy
    exact ⟨hended, fun _ => hab, fun hs => absurd (hskip.symm.trans hs) Bool.false_ne_true,
      fun hf => by cases hf⟩
  · rintro y (hy | hy)
    · cases hy
    · cases hy
  · intro hx; cases hx
  · intro y hy; cases hy
  · intro p ms _ hv
    have hphase : s.phase = .underway x := by rw [phase, hpc]
    have hrest : s.rest = s.chunkedDataQueue := by rw [rest, hpc]
    rw [hphase, hrest] at hv
    exact hv.abort (h.pushed _ hmem) hmem hbehind

theorem Inv.payloadSkip (h : Inv s) {x : Transfer} (hpc : s.pc = .payload x)
    (honly : x.entry.target.mode = .only) (hgone : x.entry.target.pid ∉ s.players) :
    Inv { s with pc := .endTest { x with skipWait := true }, brokenOff := s.brokenOff ++ [x.transfer] } := by
  obtain ⟨hnab, -, hended⟩ := h.payload x hpc
  obtain ⟨es, hqueue⟩ := h.front x (by rw [hpc]; rfl)
  have hphase : s.phase = .underway x := by rw [phase, hpc]
  have hrest : s.rest = s.chunkedDataQueue := by rw [rest, hpc]
  have hphase' : phase { s with
      pc := .endTest { x with skipWait := true }, brokenOff := s.brokenOff ++ [x.transfer] } =
        .underway { x with skipWait := true } := by
    simp only [phase, hnab]
    rfl
  have hrest' : rest { s with
      pc := .endTest { x with skipWait := true }, brokenOff := s.brokenOff ++ [x.transfer] } =
        s.chunkedDataQueue := by
    simp only [rest, hnab]
    rfl
  have hstep : ∀ {p ms}, View s.pushed s.rest s.transfers s.phase p ms →
      View s.pushed s.chunkedDataQueue s.transfers (.underway { x with skipWait := true }) p ms := by
    intro p ms hv
    rw [hphase, hrest] at hv
    refine ⟨hv.sorted, hv.right, hv.below, hv.fresh, hv.once, (fun hf => by cases hf), ?_⟩
    intro y hy
    cases hy
    exact hv.underway x rfl
  refine ⟨⟨h.sorted, h.pushed, h.aborts, ?_, ?_, h.discarded⟩, ⟨?_, ?_, ?_, ?_, ?_⟩, ⟨?_, ?_, ?_, ?_, h.received⟩⟩
  · intro y hy
    cases hy
    exact ⟨es, hqueue⟩
  · intro ha _
    exact h.aborting ha (by rw [hpc]; rfl)
  · intro hx; cases hx
  · intro y hy; cases hy
  · intro y hy
    cases hy
    exact ⟨hended, fun ha => absurd (hnab.symm.trans ha) Bool.false_ne_true,
      fun _ => List.mem_append_right _ (List.mem_singleton_self _), fun _ hf => by cases hf⟩
  · rintro y (hy | hy)
    · cases hy
    · cases hy
  · intro hx; cases hx
  · intro n hn
    rcases List.mem_append.mp hn with hn | hn
    · exact h.brokenOff n hn
    · rw [List.mem_singleton.mp hn]
      exact h.underway_lt hpc
  · rintro p hp n hn ⟨m, hm, hs⟩
    rcases List.mem_append.mp hn with hn | hn
    · exact h.whole p hp n hn ⟨m, hm, hs⟩
    · -- the start went to the player who is gone
      rw [List.mem_singleton.mp hn] at hs
      have hv := h.view p hp
      rw [hphase] at hv
      have htarget := (hv.underway x rfl).2.2.1 m hm (Message.transfer_of_starts hs)
      simp only [Target.includes, honly, decide_eq_true_eq] at htarget
      exact hgone (htarget ▸ hp)
  · intro p hp
    rw [hphase', hrest']
    exact hstep (h.view p hp)
  · intro p qs hqs hw
    rw [hphase', hrest']
    refine hstep (h.suffixes p qs hqs fun n hn => hw n ?_)
    exact List.mem_append_left _ hn

theorem take_chunk (x : Transfer) : x.entry.packet.take (x.index + chunkedDataUnitSize) =
    x.entry.packet.take x.index ++ chunk x := by
  rw [List.take_add, chunk]
  congr 1
  rcases Nat.le_total chunkedDataUnitSize (x.entry.packet.length - x.index) with hle | hle
  · rw [Nat.min_eq_left hle]
  · rw [Nat.min_eq_right hle, List.take_of_length_le (by rw [List.length_drop]; exact hle),
      List.take_of_length_le (Nat.le_of_eq List.length_drop)]

theorem Inv.payloadSend (h : Inv s) {x x' : Transfer} (hpc : s.pc = .payload x) (hab : s.abortChunkedData = false)
    (hx : x' = { x with index := x.index + chunkedDataUnitSize }) {pc : Pc}
    (hnext : pc = .payload x' ∨ pc = .endTest x' ∧ x'.entry.packet.length ≤ x'.index) :
    Inv { s.chunkedDataSend x (.payload (chunk x)) with pc := pc } := by
  obtain ⟨hnab, hskip, hended⟩ := h.payload x hpc
  obtain ⟨es, hqueue⟩ := h.front x (by rw [hpc]; rfl)
  have hcur : pc.current = some x' := by
    rcases hnext with rfl | ⟨rfl, -⟩
    · rfl
    · rfl
  have hphase' : phase { s.chunkedDataSend x (.payload (chunk x)) with pc := pc } = .underway x' := by
    rcases hnext with rfl | ⟨rfl, -⟩
    · rfl
    · simp only [phase, hx, hnab]
      rfl
  have hrest' : rest { s.chunkedDataSend x (.payload (chunk x)) with pc := pc } = s.chunkedDataQueue := by
    rcases hnext with rfl | ⟨rfl, -⟩
    · rfl
    · simp only [rest, hx, hnab]
      rfl
  refine ⟨⟨h.sorted, h.pushed, h.aborts, ?_, ?_, h.discarded⟩, ⟨?_, ?_, ?_, ?_, ?_⟩,
    h.toStreamsOk.sent rfl rfl rfl rfl (Nat.le_refl _) (Or.inl fun no hno => by cases hno) ?_ ?_⟩
  · intro y hy
    rw [hcur] at hy
    cases hy
    rw [hx]
    exact ⟨es, hqueue⟩
  · intro ha
    exact absurd (hab.symm.trans ha) Bool.false_ne_true
  · intro hy
    rcases hnext with rfl | ⟨rfl, -⟩
    · cases hy
    · cases hy
  · intro y hy
    rcases hnext with rfl | ⟨rfl, -⟩
    · cases hy
      rw [hx]
      exact ⟨hnab, hskip, hended⟩
    · cases hy
  · intro y hy
    rcases hnext with rfl | ⟨rfl, hlen⟩
    · cases hy
    · cases hy
      rw [hx] at hlen ⊢
      exact ⟨hended, fun ha => absurd (hnab.symm.trans ha) Bool.false_ne_true,
        fun hs => absurd (hskip.symm.trans hs) Bool.false_ne_true, fun _ _ => ⟨hab, hlen⟩⟩
  · intro y hy
    rcases hnext with rfl | ⟨rfl, -⟩
    · rcases hy with hy | hy
      · cases hy
      · cases hy
    · rcases hy with hy | hy
      · cases hy
      · cases hy
  · intro hy
    rcases hnext with rfl | ⟨rfl, -⟩
    · cases hy
    · cases hy
  · intro y hy
    rw [hphase'] at hy
    cases hy
    have hlt : x.transfer < s.transfers := h.underway_lt hpc
    rw [hx]
    exact hlt
  · intro p ms _ hv
    have hphase : s.phase = .underway x := by rw [phase, hpc]
    have hrest : s.rest = s.chunkedDataQueue := by rw [rest, hpc]
    rw [hphase, hrest] at hv
    rw [hphase', hrest']
    refine hv.payload ?_ ?_
    · rw [hx]
    · rw [hx]
      exact take_chunk x

theorem Inv.endAborted (h : Inv s) {x : Transfer} (hpc : s.pc = .endTest x) (hab : s.abortChunkedData = true) :
    Inv { s with pc := .completeTest x } := by
  obtain ⟨hended, -, hskip, hall⟩ := h.endTest x hpc
  obtain ⟨es, hqueue⟩ := h.front x (by rw [hpc]; rfl)
  obtain ⟨hmem, hbehind⟩ := h.toQueueOk.behind hqueue
  refine ⟨⟨h.sorted, h.pushed, h.aborts, ?_, ?_, h.discarded⟩, ⟨?_, ?_, ?_, fun _ _ _ => hab, ?_⟩,
    h.toStreamsOk.quiet rfl rfl rfl rfl rfl ?_⟩
  · intro y hy
    cases hy
    exact ⟨es, hqueue⟩
  · intro _ _
    exact h.aborting hab (by rw [hpc]; rfl)
  · intro hy; cases hy
  · intro y hy; cases hy
  · intro y hy; cases hy
  · intro hy; cases hy
  · intro p ms hw hv
    cases hxab : x.aborted with
    | true =>
        simp only [phase, rest, hpc, hxab, if_true] at hv ⊢
        exact hv
    | false =>
        -- the transfer was broken off, so nobody has seen its start
        have hbroken : x.skipWait = true := by
          cases hs : x.skipWait with
          | true => rfl
          | false => exact absurd ((hall hxab hs).1.symm.trans hab) Bool.false_ne_true
        simp only [phase, rest, hpc, hxab, Bool.false_eq_true, if_false] at hv ⊢
        exact hv.leave (hw _ (hskip hbroken)) fun e he => (hbehind e he).1

theorem Inv.endFinish (h : Inv s) {x : Transfer} (hpc : s.pc = .endTest x) (hab : s.abortChunkedData = false) :
    Inv (({ s with pc := .completeTest { x with ended := true } } : State).chunkedDataSend x .finish) := by
  obtain ⟨hended, hxab, hskip, hall⟩ := h.endTest x hpc
  obtain ⟨es, hqueue⟩ := h.front x (by rw [hpc]; rfl)
  obtain ⟨hmem, hbehind⟩ := h.toQueueOk.behind hqueue
  have hnab : x.aborted = false := by
    cases hx : x.aborted with
    | false => rfl
    | true => exact absurd (hab.symm.trans (hxab hx)) Bool.false_ne_true
  refine ⟨⟨h.sorted, h.pushed, h.aborts, ?_, ?_, h.discarded⟩, ⟨?_, ?_, ?_, ?_, ?_⟩,
    h.toStreamsOk.sent rfl rfl rfl rfl (Nat.le_refl _) (Or.inl fun no hno => by cases hno) ?_ ?_⟩
  · intro y hy
    cases hy
    exact ⟨es, hqueue⟩
  · intro ha
    exact absurd (hab.symm.trans ha) Bool.false_ne_true
  · intro hy; cases hy
  · intro y hy; cases hy
  · intro y hy; cases hy
  · rintro y (hy | hy) he
    · cases hy
      cases he
    · cases hy
  · intro hy; cases hy
  · intro y hy; cases hy
  · intro p ms hw hv
    have hphase : s.phase = .underway x := by simp only [phase, hpc, hnab]; rfl
    have hrest : s.rest = s.chunkedDataQueue := by simp only [rest, hpc, hnab]; rfl
    rw [hphase, hrest] at hv
    refine hv.finish ?_ (h.pushed _ hmem) hmem hbehind
    cases hs : x.skipWait with
    | true => exact Or.inr (hw _ (hskip hs))
    | false => exact Or.inl (hall hnab hs).2

theorem Inv.waits (h : Inv s) {x : Transfer} {event : Bool}
    (hpc : s.pc = .completeTest x ∨ s.pc = .completeWait x)
    (hpc' : s'.pc = .completeTest x ∨ s'.pc = .completeWait x)
    (he : s' = { s with pc := s'.pc, chunkedDataCompleteEvent := event }) : Inv s' := by
  have hcur : ∀ {pc : Pc}, pc = .completeTest x ∨ pc = .completeWait x → pc.current = some x ∧
      pc.isCleared = false := by
    rintro pc (rfl | rfl)
    · exact ⟨rfl, rfl⟩
    · exact ⟨rfl, rfl⟩
  have hviews : ∀ {s : State}, s.pc = .completeTest x ∨ s.pc = .completeWait x →
      s.phase = .closed ∧ s.rest = s.chunkedDataQueue.tail := by
    rintro s (hs | hs)
    · rw [phase, rest, hs]; exact ⟨rfl, rfl⟩
    · rw [phase, rest, hs]; exact ⟨rfl, rfl⟩
  have hqueue : s'.chunkedDataQueue = s.chunkedDataQueue := by rw [he]
  refine ⟨⟨?_, ?_, ?_, ?_, ?_, ?_⟩, ⟨?_, ?_, ?_, ?_, ?_⟩, h.toStreamsOk.quiet ?_ ?_ ?_ ?_ ?_ ?_⟩
  · rw [he]; exact h.sorted
  · rw [he]; exact h.pushed
  · rw [he]; exact h.aborts
  · intro y hy
    rw [(hcur hpc').1] at hy
    cases hy
    rw [hqueue]
    exact h.front x (hcur hpc).1
  · rw [he]
    intro ha _
    exact h.aborting ha (hcur hpc).2
  · rw [he]; exact h.discarded
  · intro hy
    rcases hpc' with hx | hx
    · rw [hx] at hy; cases hy
    · rw [hx] at hy; cases hy
  · intro y hy
    rcases hpc' with hx | hx
    · rw [hx] at hy; cases hy
    · rw [hx] at hy; cases hy
  · intro y hy
    rcases hpc' with hx | hx
    · rw [hx] at hy; cases hy
    · rw [hx] at hy; cases hy
  · intro y hy hended
    have hyx : y = x := by
      rcases hpc' with hx | hx
      · rw [hx] at hy
        rcases hy with hy | hy
        · cases hy; rfl
        · cases hy
      · rw [hx] at hy
        rcases hy with hy | hy
        · cases hy
        · cases hy; rfl
    rw [he]
    exact h.complete x hpc (hyx ▸ hended)
  · intro hy
    rcases hpc' with hx | hx
    · rw [hx] at hy; cases hy
    · rw [hx] at hy; cases hy
  · rw [he]
  · rw [he]
  · rw [he]
  · rw [he]
  · rw [he]
  · intro p ms _ hv
    rw [(hviews hpc).1, (hviews hpc).2] at hv
    rw [(hviews hpc').1, (hviews hpc').2, hqueue, he]
    exact hv

theorem Inv.completed (h : Inv s) {x : Transfer} (hpc : s.pc = .completeTest x) : Inv (s.complete x) := by
  obtain ⟨es, hqueue⟩ := h.front x (by rw [hpc]; rfl)
  obtain ⟨hmem, hbehind⟩ := h.toQueueOk.behind hqueue
  have hsub : ∀ e ∈ s.chunkedDataQueue.tail, e ∈ s.chunkedDataQueue := fun e he => (hbehind e he).1
  refine ⟨⟨?_, fun e he => h.pushed e (hsub e he), fun e he => h.aborts e (hsub e he), ?_, ?_, ?_⟩,
    ThreadOk.of_idle rfl, h.toStreamsOk.quiet rfl rfl rfl rfl rfl ?_⟩
  · have hsorted := h.sorted
    rw [hqueue, List.map_cons, List.pairwise_cons] at hsorted
    simp only [State.complete, hqueue, List.tail_cons]
    exact hsorted.2
  · intro y hy; cases hy
  · intro ha _ e he
    exact h.aborting ha (by rw [hpc]; rfl) e (hsub e he)
  · intro d hd
    simp only [State.complete] at hd
    cases hended : x.ended with
    | true =>
        rw [hended, if_pos rfl] at hd
        exact h.discarded d hd
    | false =>
        rw [hended, if_neg Bool.false_ne_true] at hd
        rcases List.mem_append.mp hd with hd | hd
        · exact h.discarded d hd
        · rw [List.mem_singleton.mp hd]
          exact h.aborting (h.complete x (Or.inl hpc) hended) (by rw [hpc]; rfl) _ hmem
  · intro p ms _ hv
    simp only [phase, rest, hpc] at hv
    exact hv

theorem Inv.payloadLoop (h : Inv s) {x : Transfer} (hpc : s.pc = .payload x) : Inv (s.payload x) := by
  rw [State.payload]
  split
  · next hloop =>
      refine h.stop ?_ ?_ (by simpa using hloop)
      · rw [rest, hpc]
      · rw [hpc]; rfl
  · split
    · next hab => exact h.payloadAbort hpc hab
    · next hab =>
        rw [Bool.not_eq_true] at hab
        split
        · next hgone => exact h.payloadSkip hpc hgone.1 hgone.2
        · dsimp only
          split
          · exact h.payloadSend hpc hab rfl (Or.inl rfl)
          · next hge => exact h.payloadSend hpc hab rfl (Or.inr ⟨rfl, Nat.not_lt.mp hge⟩)

theorem Inv.toClearing (h : Inv s) (hpc : s.pc = .woken) (hab : s.abortChunkedData = true) :
    Inv { s with pc := .clearing } := by
  refine ⟨⟨h.sorted, h.pushed, h.aborts, ?_, ?_, h.discarded⟩, ⟨fun _ => hab, ?_, ?_, ?_, ?_⟩,
    h.toStreamsOk.quiet rfl rfl rfl rfl rfl ?_⟩
  · intro x hx; cases hx
  · intro ha _
    exact h.aborting ha (by rw [hpc]; rfl)
  · intro x hx; cases hx
  · intro x hx; cases hx
  · rintro x (hx | hx)
    · cases hx
    · cases hx
  · intro hx; cases hx
  · intro p ms _ hv
    simp only [phase, rest, hpc] at hv
    exact hv

theorem Inv.thread (h : Inv s) (hs : s.chunkedDataThread = some s') : Inv s' := by
  cases hpc : s.pc with
  | outer =>
      simp only [chunkedDataThread, hpc] at hs
      cases hs
      by_cases hloop : s.doLoop = true
      · rw [if_pos hloop]
        exact h.idle (by rw [hpc]; rfl) rfl rfl
      · rw [if_neg hloop]
        exact h.stop (by rw [rest, hpc]) (by rw [hpc]; rfl) (by simpa using hloop)
  | wait =>
      simp only [chunkedDataThread, hpc] at hs
      split at hs
      · cases hs; exact h.idle (by rw [hpc]; rfl) rfl rfl
      · cases hs
  | woken =>
      simp only [chunkedDataThread, hpc] at hs
      cases hs
      by_cases hab : s.abortChunkedData = true
      · rw [if_pos hab]
        exact h.toClearing hpc hab
      · rw [if_neg hab]
        exact h.idle (by rw [hpc]; rfl) rfl rfl
  | clearing =>
      simp only [chunkedDataThread, hpc] at hs
      split at hs
      · cases hs; exact h.cleared hpc
      · next hqueue => cases hs; exact hpc ▸ h.clear hpc hqueue
  | cleared =>
      simp only [chunkedDataThread, hpc] at hs
      cases hs
      exact h.resume hpc
  | inner =>
      simp only [chunkedDataThread, hpc] at hs
      split at hs
      · cases hs; exact h.idle (by rw [hpc]; rfl) rfl rfl
      · cases hs
        by_cases hloop : s.doLoop = true
        · rw [if_pos hloop]
          exact h.idle (by rw [hpc]; rfl) rfl rfl
        · rw [if_neg hloop]
          exact h.stop (by rw [rest, hpc]) (by rw [hpc]; rfl) (by simpa using hloop)
  | abortTest =>
      simp only [chunkedDataThread, hpc] at hs
      cases hs
      refine h.idle (by rw [hpc]; rfl) ?_ rfl
      split
      · rfl
      · rfl
  | front =>
      simp only [chunkedDataThread, hpc] at hs
      split at hs
      · cases hs
      · next hqueue => cases hs; exact h.start hpc hqueue
  | payload x =>
      simp only [chunkedDataThread, hpc] at hs
      cases hs
      exact h.payloadLoop hpc
  | endTest x =>
      simp only [chunkedDataThread, hpc] at hs
      split at hs
      · next hab => cases hs; exact h.endAborted hpc hab
      · next hab => cases hs; exact h.endFinish hpc (by simpa using hab)
  | completeTest x =>
      simp only [chunkedDataThread, hpc] at hs
      split at hs
      · cases hs; exact h.waits (Or.inl hpc) (Or.inr rfl) rfl
      · cases hs; exact h.completed hpc
  | completeWait x =>
      simp only [chunkedDataThread, hpc] at hs
      split at hs
      · cases hs; exact h.waits (Or.inr hpc) (Or.inl rfl) rfl
      · cases hs
  | stopped =>
      simp only [chunkedDataThread, hpc] at hs
      cases hs

end State

end Karphin.NetPlay.Chunked
