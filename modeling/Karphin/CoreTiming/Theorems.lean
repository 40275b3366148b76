import Karphin.CoreTiming.Defs
import Karphin.Lib.Transition

/-!
# The operations on the event queue

Every operation but `AdjustEventQueueTimes` leaves a heap behind, whatever it is called with. The lemmas also say
which events are in the queue afterwards.
-/

namespace Karphin.CoreTiming.Timing

open Karphin.Lib.Heap

variable {τ : Type} {s : Timing τ}

theorem key_le_iff (e e' : Event τ) :
    e.key ≤ e'.key ↔ e.time < e'.time ∨ e.time = e'.time ∧ e.fifoOrder ≤ e'.fifoOrder :=
  Prod.Lex.toLex_le_toLex

theorem frontIsFirst_of_isHeap (h : IsHeap Event.key s.eventQueue) : FrontIsFirst s := by
  refine ⟨h, fun front hfront e he => ?_⟩
  obtain ⟨h0, rfl⟩ := Array.getElem?_eq_some_iff.1 hfront
  exact (key_le_iff _ _).1 (h.front_le _ h0 e he)

theorem isHeap_enqueue (h : IsHeap Event.key s.eventQueue) (time : Int) (userdata : Nat) (type : τ) :
    IsHeap Event.key (s.enqueue time userdata type).eventQueue :=
  pushHeap_isHeap _ h

theorem isHeap_forceExceptionCheck (h : IsHeap Event.key s.eventQueue) (cycles : Int) :
    IsHeap Event.key (s.forceExceptionCheck cycles).eventQueue := by
  simp only [forceExceptionCheck]
  split <;> exact h

theorem isHeap_scheduleEvent (h : IsHeap Event.key s.eventQueue) (cycles : Int) (type : τ) (userdata : Nat)
    (fromCpuThread : Bool) : IsHeap Event.key (s.scheduleEvent cycles type userdata fromCpuThread).eventQueue := by
  simp only [scheduleEvent]
  split
  · apply isHeap_enqueue
    split
    · exact h
    · exact isHeap_forceExceptionCheck h cycles
  · exact h

theorem isHeap_moveEvents (h : IsHeap Event.key s.eventQueue) : IsHeap Event.key s.moveEvents.eventQueue := by
  have hfold : ∀ (evs : List (Event τ)) (t : Timing τ), IsHeap Event.key t.eventQueue →
      IsHeap Event.key (evs.foldl (fun s ev => s.enqueue ev.time ev.userdata ev.type) t).eventQueue := by
    intro evs
    induction evs with
    | nil => exact fun t ht => ht
    | cons ev evs ih => exact fun t ht => ih _ (isHeap_enqueue ht _ _ _)
  exact hfold _ _ h

theorem isHeap_removeEvent [DecidableEq τ] (h : IsHeap Event.key s.eventQueue) (type : τ) :
    IsHeap Event.key (s.removeEvent type).eventQueue := by
  simp only [removeEvent]
  split
  · next hsize =>
      have hall := Array.filter_size_eq_size.1 hsize.symm
      rw [Array.filter_eq_self.2 hall]
      exact h
  · exact makeHeap_isHeap _ _

theorem popEvent_spec (h : IsHeap Event.key s.eventQueue) {evt : Event τ} {s' : Timing τ}
    (hpop : s.popEvent = some (evt, s')) :
    evt.time ≤ s.globalTimer ∧ IsHeap Event.key s'.eventQueue ∧ (s'.eventQueue.push evt).Perm s.eventQueue ∧
      (∀ e ∈ s.eventQueue, evt.key ≤ e.key) ∧ s' = { s with eventQueue := s'.eventQueue } := by
  simp only [popEvent] at hpop
  split at hpop
  · cases hpop
  · next front hfront =>
      split at hpop
      · next hdue =>
          cases hpop
          obtain ⟨h0, rfl⟩ := Array.getElem?_eq_some_iff.1 hfront
          obtain ⟨b, hb, hheap, hperm⟩ := popHeap_spec _ h h0
          simp only [hb, Array.pop_push]
          exact ⟨hdue, hheap, hperm, h.front_le _ h0, trivial⟩
      · cases hpop

/-! ## A change of the clock -/

theorem adjustedTime_mono (s : Timing τ) (newPpcClock : Nat) {oldPpcClock : Nat} (hold : oldPpcClock ≠ 0) {t t' : Int}
    (h : t ≤ t') : s.adjustedTime newPpcClock oldPpcClock t ≤ s.adjustedTime newPpcClock oldPpcClock t' := by
  have hmul : (t - s.globalTimer) * (newPpcClock : Int) ≤ (t' - s.globalTimer) * newPpcClock :=
    Int.mul_le_mul_of_nonneg_right (by omega) (by omega)
  have hdiv := Int.tdiv_le_tdiv (c := (oldPpcClock : Int)) (by omega) hmul
  simp only [adjustedTime]
  omega

theorem isHeap_adjustEventQueueTimes {newPpcClock oldPpcClock : Nat} (hold : oldPpcClock ≠ 0)
    (h : IsHeap Event.key s.eventQueue) (hok : Orderly s (.adjustEventQueueTimes newPpcClock oldPpcClock)) :
    IsHeap Event.key (s.adjustEventQueueTimes newPpcClock oldPpcClock).eventQueue := by
  rw [isHeap_iff]
  intro k hk
  have hk' : k < s.eventQueue.size := by simpa [adjustEventQueueTimes] using hk
  have hord := (key_le_iff _ _).1 ((isHeap_iff _).1 h k hk')
  have hmerge := hok ⟨k, hk'⟩
  simp only [Fin.getElem_fin, parent] at hmerge
  simp only [adjustEventQueueTimes, Array.getElem_map]
  rw [key_le_iff]
  obtain hlt | ⟨heq, hfifo⟩ := hord
  · obtain hlt' | heq' := Int.lt_or_eq_of_le (adjustedTime_mono s newPpcClock hold (Int.le_of_lt hlt))
    · exact Or.inl hlt'
    · exact Or.inr ⟨heq', hmerge hlt heq'⟩
  · exact Or.inr ⟨congrArg (s.adjustedTime newPpcClock oldPpcClock) heq, hfifo⟩

end Karphin.CoreTiming.Timing

/-!
## The loop of `Advance`

What the commands of a callback do to the queue, and what the loop has done when it ends. All of it runs while the
global timer is sane, so nothing but the queues and the number of the next event changes.
-/

namespace Karphin.CoreTiming.Timing

open Karphin.Lib.Heap

variable {τ : Type} {s : Timing τ}

def SameClock (s s' : Timing τ) : Prop :=
  s'.globalTimer = s.globalTimer ∧ s'.sliceLength = s.sliceLength ∧ s'.downcount = s.downcount ∧
    s'.isGlobalTimerSane = s.isGlobalTimerSane ∧ s'.lastOc = s.lastOc ∧ s'.configOc = s.configOc

theorem sameClock_refl (s : Timing τ) : SameClock s s := ⟨rfl, rfl, rfl, rfl, rfl, rfl⟩

theorem SameClock.trans {s s' s'' : Timing τ} (h : SameClock s s') (h' : SameClock s' s'') : SameClock s s'' := by
  obtain ⟨h1, h2, h3, h4, h5, h6⟩ := h
  obtain ⟨h1', h2', h3', h4', h5', h6'⟩ := h'
  exact ⟨h1'.trans h1, h2'.trans h2, h3'.trans h3, h4'.trans h4, h5'.trans h5, h6'.trans h6⟩

/-! ## Moving events -/

theorem enqueue_perm (s : Timing τ) (time : Int) (userdata : Nat) (type : τ) :
    (s.enqueue time userdata type).eventQueue.toList.Perm
      (s.eventQueue.toList ++ [⟨time, s.eventFifoId, userdata, type⟩]) := by
  have h := (pushHeap_perm Event.key (s.eventQueue.push ⟨time, s.eventFifoId, userdata, type⟩)).toList
  rwa [Array.toList_push] at h

theorem foldl_enqueue : ∀ (evs : List (Event τ)) (s : Timing τ),
    let t := evs.foldl (fun s ev => s.enqueue ev.time ev.userdata ev.type) s
    SameClock s t ∧ t.tsQueue = s.tsQueue ∧
      t.eventQueue.toList.Perm (s.eventQueue.toList ++ numbered s.eventFifoId evs)
  | [], s => ⟨sameClock_refl s, rfl, by simp [numbered]⟩
  | ev :: evs, s => by
      obtain ⟨hc, hts, hp⟩ := foldl_enqueue evs (s.enqueue ev.time ev.userdata ev.type)
      refine ⟨SameClock.trans ⟨rfl, rfl, rfl, rfl, rfl, rfl⟩ hc, hts, hp.trans ?_⟩
      have h := (enqueue_perm s ev.time ev.userdata ev.type).append_right (numbered (s.eventFifoId + 1) evs)
      rw [List.append_assoc] at h
      exact h

theorem sameClock_moveEvents (s : Timing τ) : SameClock s s.moveEvents :=
  (SameClock.trans ⟨rfl, rfl, rfl, rfl, rfl, rfl⟩ (foldl_enqueue s.tsQueue { s with tsQueue := [] }).1)

theorem tsQueue_moveEvents (s : Timing τ) : s.moveEvents.tsQueue = [] :=
  (foldl_enqueue s.tsQueue { s with tsQueue := [] }).2.1

theorem moveEvents_perm (s : Timing τ) :
    s.moveEvents.eventQueue.toList.Perm (s.eventQueue.toList ++ numbered s.eventFifoId s.tsQueue) :=
  (foldl_enqueue s.tsQueue { s with tsQueue := [] }).2.2

theorem length_numbered : ∀ (fifoId : Nat) (evs : List (Event τ)), (numbered fifoId evs).length = evs.length
  | _, [] => rfl
  | fifoId, _ :: evs => congrArg Nat.succ (length_numbered (fifoId + 1) evs)

/-! ## What is accounted for -/

def waiting (s : Timing τ) : Nat := s.eventQueue.size + s.tsQueue.length

theorem waiting_moveEvents (s : Timing τ) : s.moveEvents.waiting = s.waiting := by
  have hlen := (moveEvents_perm s).length_eq
  simp only [Array.length_toList, List.length_append, length_numbered] at hlen
  simp [waiting, tsQueue_moveEvents, hlen]

structure CommandSpec (s : Timing τ) (as rs : List (Event τ)) (n : Nat) (t : Timing τ) : Prop where
  clock : SameClock s t
  heap : IsHeap Event.key t.eventQueue
  perm : (s.eventQueue.toList ++ as).Perm (rs ++ t.eventQueue.toList)
  count : t.waiting ≤ s.waiting + n

theorem perm_account {q q' q'' as as' rs rs' : List (Event τ)} (h : (q ++ as).Perm (rs ++ q'))
    (h' : (q' ++ as').Perm (rs' ++ q'')) : (q ++ (as ++ as')).Perm (rs ++ rs' ++ q'') := by
  calc q ++ (as ++ as')
    _ = q ++ as ++ as' := (List.append_assoc ..).symm
    List.Perm _ (rs ++ q' ++ as') := h.append_right _
    _ = rs ++ (q' ++ as') := List.append_assoc ..
    List.Perm _ (rs ++ (rs' ++ q'')) := h'.append_left _
    _ = _ := (List.append_assoc ..).symm

structure LoopSpec (s : Timing τ) (log : List (Ran τ)) (s' : Timing τ) : Prop where
  clock : SameClock s s'
  heap : IsHeap Event.key s'.eventQueue
  due : ∀ r ∈ log, r.event.time ≤ s.globalTimer
  first : ∀ r ∈ log, r.event ∈ r.pending ∧ ∀ e ∈ r.pending, r.event.key ≤ e.key
  late : ∀ r ∈ log, r.cyclesLate = s.globalTimer - r.event.time
  once : (s.eventQueue.toList ++ log.flatMap Ran.added).Perm
    (log.map Ran.event ++ log.flatMap Ran.removed ++ s'.eventQueue.toList)
  done : s'.popEvent = none

theorem LoopSpec.cons {s t t' s' : Timing τ} {evt : Event τ} {as rs : List (Event τ)} {n : Nat} {log : List (Ran τ)}
    (hheap : IsHeap Event.key s.eventQueue) (hpop : s.popEvent = some (evt, t)) (hc : CommandSpec t as rs n t')
    (h : LoopSpec t' log s') :
    LoopSpec s (⟨evt, t.globalTimer - evt.time, s.eventQueue.toList, as, rs⟩ :: log) s' := by
  obtain ⟨hdue, -, hperm, hmin, heq⟩ := popEvent_spec hheap hpop
  have hst : SameClock s t := by
    rw [heq]
    exact ⟨rfl, rfl, rfl, rfl, rfl, rfl⟩
  have htimer : t'.globalTimer = s.globalTimer := hc.clock.1.trans hst.1
  have hlist : s.eventQueue.toList.Perm (evt :: t.eventQueue.toList) := by
    have hp := hperm.toList.symm
    rw [Array.toList_push] at hp
    exact hp.trans (List.perm_append_singleton _ _)
  refine ⟨(hst.trans hc.clock).trans h.clock, h.heap, ?_, ?_, ?_, ?_, h.done⟩
  · intro r hr
    obtain rfl | hr := List.mem_cons.1 hr
    · exact hdue
    · exact htimer ▸ h.due r hr
  · intro r hr
    obtain rfl | hr := List.mem_cons.1 hr
    · exact ⟨hlist.mem_iff.2 (List.mem_cons_self ..), fun e he => hmin e (Array.mem_def.2 he)⟩
    · exact h.first r hr
  · intro r hr
    obtain rfl | hr := List.mem_cons.1 hr
    · exact congrArg (· - evt.time) hst.1
    · exact htimer ▸ h.late r hr
  · have hacc := perm_account hc.perm h.once
    have hmove : (rs ++ (log.map Ran.event ++ log.flatMap Ran.removed)).Perm
        (log.map Ran.event ++ (rs ++ log.flatMap Ran.removed)) := List.perm_append_comm_assoc ..
    simp only [List.flatMap_cons, List.map_cons, List.cons_append]
    exact (hlist.append_right _).trans ((hacc.trans (hmove.append_right _)).cons evt)

/-! ## The commands of a callback -/

section Commands

variable [DecidableEq τ]

theorem removeEvent_perm (s : Timing τ) (type : τ) :
    (s.removeEvent type).eventQueue.toList.Perm (s.eventQueue.toList.filter (·.type ≠ type)) := by
  simp only [removeEvent]
  split
  · rw [Array.toList_filter]
  · have h := (makeHeap_perm Event.key (s.eventQueue.filter (·.type ≠ type))).toList
    rwa [Array.toList_filter] at h

theorem filter_perm (l : List (Event τ)) (type : τ) :
    l.Perm (l.filter (·.type = type) ++ l.filter (·.type ≠ type)) := by
  have h := (List.filter_append_perm (fun e : Event τ => decide (e.type = type)) l).symm
  simpa using h

theorem commandSpec_removeEvent (s : Timing τ) (hheap : IsHeap Event.key s.eventQueue) (type : τ) :
    CommandSpec s [] (s.eventQueue.toList.filter (·.type = type)) 0 (s.removeEvent type) := by
  have hp := removeEvent_perm s type
  refine ⟨⟨rfl, rfl, rfl, rfl, rfl, rfl⟩, isHeap_removeEvent hheap type, ?_, ?_⟩
  · rw [List.append_nil]
    exact (filter_perm _ type).trans (hp.symm.append_left _)
  · have hlen := hp.length_eq
    have hle := List.length_filter_le (fun e : Event τ => decide (e.type ≠ type)) s.eventQueue.toList
    have hts : (s.removeEvent type).tsQueue = s.tsQueue := rfl
    simp only [Array.length_toList] at hlen hle
    simp only [waiting, hts]
    omega

theorem command_spec (s : Timing τ) (hheap : IsHeap Event.key s.eventQueue) (hsane : s.isGlobalTimerSane = true)
    (c : Command τ) : CommandSpec s (s.added c) (s.removed c) (if c.schedules then 1 else 0) (s.command c) := by
  cases c with
  | scheduleEvent cycles type userdata =>
      have hp := enqueue_perm s (s.getTicks + cycles) userdata type
      simp only [command, scheduleEvent, hsane, if_true, added, removed, Command.schedules]
      refine ⟨⟨rfl, rfl, rfl, rfl, rfl, rfl⟩, isHeap_enqueue hheap _ _ _, hp.symm, ?_⟩
      have hlen := hp.length_eq
      simp only [Array.length_toList, List.length_append, List.length_singleton] at hlen
      simp only [waiting, hlen]
      exact Nat.le_of_eq (by simp [enqueue]; omega)
  | scheduleFromOtherThread cycles type userdata =>
      simp only [command, scheduleEvent, added, removed, Command.schedules]
      refine ⟨⟨rfl, rfl, rfl, rfl, rfl, rfl⟩, hheap, by simp, ?_⟩
      simp [waiting]
      omega
  | removeEvent type => exact commandSpec_removeEvent s hheap type
  | removeAllEvents type =>
      have h := commandSpec_removeEvent s.moveEvents (isHeap_moveEvents hheap) type
      have hp := moveEvents_perm s
      refine ⟨(sameClock_moveEvents s).trans h.clock, h.heap, ?_, ?_⟩
      · have := h.perm
        rw [List.append_nil] at this
        exact hp.symm.trans this
      · have hc : (s.moveEvents.removeEvent type).waiting ≤ s.moveEvents.waiting := h.count
        rw [waiting_moveEvents] at hc
        exact Nat.le_trans hc (Nat.le_add_right _ _)

theorem commands_spec : ∀ (cs : List (Command τ)) (s : Timing τ), IsHeap Event.key s.eventQueue →
    s.isGlobalTimerSane = true →
    CommandSpec s (s.commands cs).2.1 (s.commands cs).2.2 (cs.countP Command.schedules) (s.commands cs).1
  | [], s, hheap, _ => ⟨sameClock_refl s, hheap, by simp [commands], by simp [commands]⟩
  | c :: cs, s, hheap, hsane => by
      have h := command_spec s hheap hsane c
      have hsane' : (s.command c).isGlobalTimerSane = true := h.clock.2.2.2.1.trans hsane
      have ih := commands_spec cs (s.command c) h.heap hsane'
      simp only [commands]
      refine ⟨h.clock.trans ih.clock, ih.heap, ?_, ?_⟩
      · exact perm_account h.perm ih.perm
      · have h1 := h.count
        have h2 := ih.count
        rw [List.countP_cons]
        omega

/-! ## The loop -/

variable {σ : Type} (cb : Callbacks τ σ)

theorem advanceLoop_spec : ∀ (fuel : Nat) (s : Timing τ) (x : σ) {log : List (Ran τ)} {s' : Timing τ} {x' : σ},
    IsHeap Event.key s.eventQueue → s.isGlobalTimerSane = true → advanceLoop cb fuel s x = some (log, s', x') →
    LoopSpec s log s'
  | 0, _, _, _, _, _, _, _, h => by cases h
  | fuel + 1, s, x, log, s', x', hheap, hsane, h => by
      simp only [advanceLoop] at h
      split at h
      · next hpop =>
          cases h
          exact ⟨sameClock_refl s, hheap, by simp, by simp, by simp, by simp, hpop⟩
      · next evt t hpop =>
          simp only [Option.map_eq_some_iff] at h
          obtain ⟨⟨log', t', x''⟩, hrest, heq⟩ := h
          cases heq
          obtain ⟨-, hheap', -, -, heq⟩ := popEvent_spec hheap hpop
          have hsane' : t.isGlobalTimerSane = true := by
            rw [heq]
            exact hsane
          have hc := commands_spec (cb.callback evt.type evt.userdata (t.globalTimer - evt.time) x).1 t hheap' hsane'
          exact .cons hheap hpop hc (advanceLoop_spec fuel _ _ hc.heap (hc.clock.2.2.2.1.trans hsane') hrest)

theorem advanceLoop_terminates {budget : σ → Nat} (hb : SchedulesFinitely cb budget) :
    ∀ (fuel : Nat) (s : Timing τ) (x : σ), IsHeap Event.key s.eventQueue → s.isGlobalTimerSane = true →
    s.waiting + budget x < fuel → (advanceLoop cb fuel s x).isSome = true
  | 0, _, _, _, _, h => absurd h (Nat.not_lt_zero _)
  | fuel + 1, s, x, hheap, hsane, h => by
      simp only [advanceLoop]
      split
      · rfl
      · next evt t hpop =>
          obtain ⟨-, hheap', hperm, -, heq⟩ := popEvent_spec hheap hpop
          have hsane' : t.isGlobalTimerSane = true := by
            rw [heq]
            exact hsane
          have hc := commands_spec (cb.callback evt.type evt.userdata (t.globalTimer - evt.time) x).1 t hheap' hsane'
          have hbudget := hb evt.type evt.userdata (t.globalTimer - evt.time) x
          have hsize := hperm.size_eq
          have hts : t.tsQueue = s.tsQueue := by rw [heq]
          have hcount := hc.count
          rw [Array.size_push] at hsize
          have hlt : (t.commands (cb.callback evt.type evt.userdata (t.globalTimer - evt.time) x).1).1.waiting +
              budget (cb.callback evt.type evt.userdata (t.globalTimer - evt.time) x).2 < fuel := by
            simp only [waiting, hts] at h hcount ⊢
            omega
          simp only [Option.isSome_map]
          exact advanceLoop_terminates hb fuel _ _ hc.heap (hc.clock.2.2.2.1.trans hsane') hlt

theorem advanceLoop_mono : ∀ {fuel fuel' : Nat} (s : Timing τ) (x : σ) {r : List (Ran τ) × Timing τ × σ},
    advanceLoop cb fuel s x = some r → fuel ≤ fuel' → advanceLoop cb fuel' s x = some r
  | 0, _, _, _, _, h, _ => by cases h
  | fuel + 1, 0, _, _, _, _, hle => by omega
  | fuel + 1, fuel' + 1, s, x, r, h, hle => by
      simp only [advanceLoop] at h ⊢
      split
      · next hpop =>
          simp only [hpop] at h
          exact h
      · next evt t hpop =>
          simp only [hpop, Option.map_eq_some_iff] at h ⊢
          obtain ⟨r', hrest, heq⟩ := h
          exact ⟨r', advanceLoop_mono _ _ hrest (by omega), heq⟩

end Commands

/-! ## After the loop -/

theorem future_of_done (hheap : IsHeap Event.key s.eventQueue) (h : s.popEvent = none) :
    ∀ e ∈ s.eventQueue, s.globalTimer < e.time := by
  intro e he
  simp only [popEvent] at h
  split at h
  · next hnone =>
      obtain ⟨k, hk, -⟩ := Array.mem_iff_getElem.1 he
      simp only [Array.getElem?_eq_none_iff] at hnone
      omega
  · next front hfront =>
      split at h
      · cases h
      · next hdue =>
          have := (frontIsFirst_of_isHeap hheap).2 front hfront e he
          omega

theorem endAdvance_slice (hheap : IsHeap Event.key s.eventQueue) (h : s.popEvent = none)
    (hslice : s.sliceLength = maxSliceLength) :
    (0 < s.endAdvance.sliceLength ∧ s.endAdvance.sliceLength ≤ maxSliceLength) ∧
      ∀ e ∈ s.eventQueue, s.globalTimer + s.endAdvance.sliceLength ≤ e.time := by
  have hmax : (0 : Int) < maxSliceLength := by decide
  simp only [endAdvance]
  split
  · next hnone =>
      refine ⟨⟨by simpa [hslice] using hmax, by simp [hslice]⟩, fun e he => ?_⟩
      obtain ⟨k, hk, -⟩ := Array.mem_iff_getElem.1 he
      simp only [Array.getElem?_eq_none_iff] at hnone
      omega
  · next front hfront =>
      have hmem : front ∈ s.eventQueue := Array.mem_of_getElem? hfront
      have hfut := future_of_done hheap h front hmem
      simp only
      refine ⟨⟨by omega, by omega⟩, fun e he => ?_⟩
      have := (frontIsFirst_of_isHeap hheap).2 front hfront e he
      omega

end Karphin.CoreTiming.Timing

/-!
## The slice between two calls of `Advance`

With the overclock factor 1 the downcount is what is left of the slice. `ForceExceptionCheck` shortens both by the
same amount, so the time does not move.
-/

namespace Karphin.CoreTiming.Timing

open Karphin.Lib.Heap

variable {τ : Type} {s : Timing τ}

/-- Within a slice, with the overclock factor 1; while cycles are left, no queued event lies within them. -/
structure Slice (s : Timing τ) : Prop where
  sane : s.isGlobalTimerSane = false
  oc : s.lastOc = .one
  bound : ∀ e ∈ s.eventQueue, s.downcount ≤ 0 ∨ s.globalTimer + s.sliceLength ≤ e.time

theorem Slice.getTicks (h : Slice s) : s.getTicks = s.globalTimer + (s.sliceLength - s.downcount) := by
  simp [Timing.getTicks, h.sane, h.oc, Overclock.one]

theorem Slice.sliceBounded (h : Slice s) : SliceBounded s := by
  intro e he
  rw [h.getTicks]
  have := h.bound e he
  omega

theorem Slice.forceExceptionCheck (h : Slice s) (cycles : Int) :
    Slice (s.forceExceptionCheck cycles) ∧ (s.forceExceptionCheck cycles).getTicks = s.getTicks := by
  by_cases hlt : s.downcount > max 0 cycles
  · have heq : s.forceExceptionCheck cycles =
        { s with sliceLength := s.sliceLength - (s.downcount - max 0 cycles), downcount := max 0 cycles } := by
      simp [Timing.forceExceptionCheck, h.oc, Overclock.one, hlt]
    have hs : Slice (s.forceExceptionCheck cycles) := by
      rw [heq]
      refine ⟨h.sane, h.oc, fun e he => ?_⟩
      have := h.bound e he
      simp only
      omega
    refine ⟨hs, ?_⟩
    rw [hs.getTicks, h.getTicks, heq]
    simp only
    omega
  · have heq : s.forceExceptionCheck cycles = s := by simp [Timing.forceExceptionCheck, h.oc, Overclock.one, hlt]
    rw [heq]
    exact ⟨h, rfl⟩

theorem Slice.bound_forceExceptionCheck (h : Slice s) (cycles : Int) :
    (s.forceExceptionCheck cycles).downcount ≤ 0 ∨
      (s.forceExceptionCheck cycles).globalTimer + (s.forceExceptionCheck cycles).sliceLength ≤ s.getTicks + cycles := by
  rw [h.getTicks]
  by_cases hlt : s.downcount > max 0 cycles
  · simp only [Timing.forceExceptionCheck, h.oc, Overclock.one, id, if_pos hlt]
    omega
  · simp only [Timing.forceExceptionCheck, h.oc, Overclock.one, id, if_neg hlt]
    omega

theorem Slice.enqueue (h : Slice s) {time : Int} (userdata : Nat) (type : τ)
    (hb : s.downcount ≤ 0 ∨ s.globalTimer + s.sliceLength ≤ time) :
    Slice (s.enqueue time userdata type) := by
  refine ⟨h.sane, h.oc, fun e he => ?_⟩
  have hmem := (enqueue_perm s time userdata type).mem_iff.1 (Array.mem_def.1 he)
  obtain he | he := List.mem_append.1 hmem
  · exact h.bound e (Array.mem_def.2 he)
  · rw [List.mem_singleton.1 he]
    exact hb

theorem Slice.scheduleEvent (h : Slice s) (cycles : Int) (type : τ) (userdata : Nat) (fromCpuThread : Bool) :
    Slice (s.scheduleEvent cycles type userdata fromCpuThread) ∧
      (s.scheduleEvent cycles type userdata fromCpuThread).getTicks = s.getTicks := by
  cases fromCpuThread with
  | false => exact ⟨⟨h.sane, h.oc, h.bound⟩, rfl⟩
  | true =>
      obtain ⟨hs, ht⟩ := h.forceExceptionCheck cycles
      have heq : s.scheduleEvent cycles type userdata true =
          (s.forceExceptionCheck cycles).enqueue (s.getTicks + cycles) userdata type := by
        simp [Timing.scheduleEvent, h.sane]
      rw [heq]
      exact ⟨hs.enqueue userdata type (h.bound_forceExceptionCheck cycles), ht⟩

theorem Slice.removeEvent [DecidableEq τ] (h : Slice s) (type : τ) : Slice (s.removeEvent type) := by
  refine ⟨h.sane, h.oc, fun e he => ?_⟩
  have hmem := (removeEvent_perm s type).mem_iff.1 (Array.mem_def.1 he)
  exact h.bound e (Array.mem_def.2 (List.mem_filter.1 hmem).1)

theorem Slice.step [DecidableEq τ] {s s' : Timing τ} {op : Op τ} (h : Slice s) (hop : InSlice s op)
    (hs : s.step op = some s') :
    Slice s' ∧ s.getTicks ≤ s'.getTicks ∧ (op.takesNoTime = true → s'.getTicks = s.getTicks) := by
  cases op with
  | executed cycles =>
      cases hs
      have hs' : Slice { s with downcount := s.downcount - cycles } := by
        refine ⟨h.sane, h.oc, fun e he => ?_⟩
        have := h.bound e he
        simp only
        omega
      refine ⟨hs', ?_, fun hf => by cases hf⟩
      rw [hs'.getTicks, h.getTicks]
      simp only
      omega
  | scheduleEvent cycles type userdata fromCpuThread =>
      cases hs
      obtain ⟨hs', ht⟩ := h.scheduleEvent cycles type userdata fromCpuThread
      exact ⟨hs', by omega, fun _ => ht⟩
  | removeEvent type =>
      cases hs
      exact ⟨h.removeEvent type, Int.le_refl _, fun _ => rfl⟩
  | forceExceptionCheck cycles =>
      cases hs
      obtain ⟨hs', ht⟩ := h.forceExceptionCheck cycles
      exact ⟨hs', by omega, fun _ => ht⟩
  | idle =>
      cases hs
      have hs' : Slice s.idle := ⟨h.sane, h.oc, fun _ _ => Or.inl (Int.le_refl _)⟩
      refine ⟨hs', ?_, fun hf => by cases hf⟩
      have hd : 0 ≤ s.downcount := hop
      rw [hs'.getTicks, h.getTicks]
      simp only [Timing.idle]
      omega
  | _ => exact hop.elim

end Karphin.CoreTiming.Timing

/-!
# The event scheduler keeps its promises

The event queue is a heap as long as no change of the clock merges two times in the wrong order.
-/

namespace Karphin.CoreTiming.Timing

open Karphin.Lib Karphin.Lib.Heap

variable {τ : Type} [DecidableEq τ]

/-! ## The event queue -/

theorem isHeap_step {s s' : Timing τ} {op : Op τ} (h : IsHeap Event.key s.eventQueue) (hok : Orderly s op)
    (hs : s.step op = some s') : IsHeap Event.key s'.eventQueue := by
  cases op with
  | scheduleEvent cycles type userdata fromCpuThread =>
      cases hs
      exact isHeap_scheduleEvent h cycles type userdata fromCpuThread
  | moveEvents | saveState =>
      cases hs
      exact isHeap_moveEvents h
  | removeEvent type =>
      cases hs
      exact isHeap_removeEvent h type
  | removeAllEvents type =>
      cases hs
      exact isHeap_removeEvent (isHeap_moveEvents h) type
  | adjustEventQueueTimes newPpcClock oldPpcClock =>
      simp only [step] at hs
      split at hs
      · cases hs
      · next hclock =>
          cases hs
          exact isHeap_adjustEventQueueTimes (not_or.1 hclock).2 h hok
  | loadState saved =>
      cases hs
      exact makeHeap_isHeap _ _
  | refreshConfig oc | executed cycles | idle =>
      cases hs
      exact h
  | forceExceptionCheck cycles =>
      cases hs
      exact isHeap_forceExceptionCheck h cycles
  | beginAdvance =>
      cases hs
      exact isHeap_moveEvents h
  | popEvent =>
      simp only [step, Option.map_eq_some_iff] at hs
      obtain ⟨⟨evt, t⟩, hpop, rfl⟩ := hs
      exact (popEvent_spec h hpop).2.1
  | endAdvance =>
      cases hs
      simp only [endAdvance]
      split <;> exact h

theorem isHeap_of_reach {oc : Overclock} {s : Timing τ} (h : Reach step Orderly (init oc) s) :
    IsHeap Event.key s.eventQueue :=
  h.invariant (fun s => IsHeap Event.key s.eventQueue) (fun i => absurd i.2 (Nat.not_lt_zero _)) (fun hi hok hs => isHeap_step hi hok hs)

/-- In every run without such a change of the clock the front of the queue is the event that is due first. -/
theorem front_is_first (oc : Overclock) (s : Timing τ) (h : Reach step Orderly (init oc) s) : FrontIsFirst s :=
  frontIsFirst_of_isHeap (isHeap_of_reach h)

def mergedInOrder : List (Op Unit) :=
  [.scheduleEvent 10 () 0 true, .scheduleEvent 11 () 0 true, .adjustEventQueueTimes 1 2]

theorem front_is_first_after_clock_change :
    ∃ s, Reach step Orderly (init .one) s ∧ run step (init .one) mergedInOrder = some s ∧ FrontIsFirst s := by
  have hs : run (fun s a => if Orderly s a then step s a else none) (init .one) mergedInOrder = some _ := rfl
  have h := reach_of_guarded hs
  exact ⟨_, h, rfl, front_is_first .one _ h⟩

/-- The event that is later by one cycle and was added first gets the same time, and stays behind. -/
theorem clock_change_merges_times : ∃ s : Timing Unit,
    run step (init .one) [.scheduleEvent 11 () 0 true, .scheduleEvent 10 () 1 true, .adjustEventQueueTimes 1 2] =
      some s ∧ s.eventQueue = #[⟨5, 1, 1, ()⟩, ⟨5, 0, 0, ()⟩] ∧ ¬ FrontIsFirst s := by
  refine ⟨_, rfl, by decide +kernel, ?_⟩
  intro h
  have := h.2 ⟨5, 1, 1, ()⟩ (by decide +kernel) ⟨5, 0, 0, ()⟩ (by decide +kernel)
  revert this
  decide

/-! ## One `Advance` -/

theorem advance_spec {σ : Type} (cb : Callbacks τ σ) {fuel : Nat} {s s' : Timing τ} {x x' : σ} {log : List (Ran τ)}
    (hheap : IsHeap Event.key s.eventQueue) (h : advance cb fuel s x = some (log, s', x')) :
    RunsDueEvents s log s' := by
  simp only [advance, Option.map_eq_some_iff] at h
  obtain ⟨⟨log', t, x''⟩, hloop, heq⟩ := h
  cases heq
  have hspec := advanceLoop_spec cb fuel s.beginAdvance x (isHeap_moveEvents hheap) rfl hloop
  have hmove := sameClock_moveEvents s
  have htimer : t.endAdvance.globalTimer = t.globalTimer := by
    simp only [endAdvance]
    split <;> rfl
  have hqueue : t.endAdvance.eventQueue = t.eventQueue := by
    simp only [endAdvance]
    split <;> rfl
  have hclock : s.beginAdvance.globalTimer = s.globalTimer + (s.sliceLength - s.lastOc.downcountToCycles s.downcount) := by
    simp only [beginAdvance, hmove.1, hmove.2.1, hmove.2.2.1, hmove.2.2.2.2.1]
  have hnow : t.endAdvance.globalTimer = s.beginAdvance.globalTimer := htimer.trans hspec.clock.1
  have hslice := endAdvance_slice hspec.heap hspec.done hspec.clock.2.1
  have hfuture := future_of_done hspec.heap hspec.done
  refine ⟨hnow.trans hclock, ?_, hspec.first, ?_, ?_, ?_, hslice.1, ?_⟩
  · intro r hr
    rw [hnow]
    exact hspec.due r hr
  · intro r hr
    have hdue := hspec.due r hr
    have hlate := hspec.late r hr
    rw [hnow]
    omega
  · rw [hqueue]
    exact hspec.once
  · rw [hqueue, htimer]
    exact hfuture
  · rw [hqueue, htimer]
    exact hslice.2

/-- From every state reached without such a change of the clock, an `Advance` whose callbacks schedule finitely many
events ends, and has run exactly the events that were due. -/
theorem advance_runs_due_events {σ : Type} (cb : Callbacks τ σ) (budget : σ → Nat) (hb : SchedulesFinitely cb budget)
    (oc : Overclock) (s : Timing τ) (hs : Reach step Orderly (init oc) s) (x : σ) :
    ∃ log s' x', (∀ fuel, s.waiting + budget x < fuel → advance cb fuel s x = some (log, s', x')) ∧
      RunsDueEvents s log s' := by
  have hheap := isHeap_of_reach hs
  have hwait : s.beginAdvance.waiting = s.waiting := waiting_moveEvents s
  have hsome : (advanceLoop cb (s.waiting + budget x + 1) s.beginAdvance x).isSome = true :=
    advanceLoop_terminates cb hb _ _ _ (isHeap_moveEvents hheap) rfl (by omega)
  obtain ⟨⟨log, t, x'⟩, hloop⟩ := Option.isSome_iff_exists.1 hsome
  have hadv : ∀ fuel, s.waiting + budget x < fuel → advance cb fuel s x = some (log, t.endAdvance, x') := by
    intro fuel hfuel
    rw [advance, advanceLoop_mono cb _ _ hloop hfuel]
    rfl
  exact ⟨log, t.endAdvance, x', hadv, advance_spec cb hheap (hadv _ (Nat.lt_succ_self _))⟩

def scheduled : Timing Unit := (init .one).scheduleEvent 100 () 7 true

theorem reach_scheduled : Reach step Orderly (init .one) scheduled :=
  have h : Orderly (init .one) (.scheduleEvent 100 () 7 true) := trivial
  Reach.refl.tail h rfl

def countdown : Callbacks Unit Nat where
  callback _ _ _ x := if x = 0 then ([], 0) else ([.scheduleEvent 0 () x], x - 1)

theorem schedulesFinitely_countdown : SchedulesFinitely countdown id := by
  intro type userdata cyclesLate x
  simp only [countdown]
  split
  · simp
  · simp [Command.schedules]
    omega

theorem advance_runs_due_events_countdown : ∃ log s' x',
    (∀ fuel, 5 < fuel → advance countdown fuel scheduled 4 = some (log, s', x')) ∧ RunsDueEvents scheduled log s' :=
  advance_runs_due_events countdown id schedulesFinitely_countdown .one scheduled reach_scheduled 4

/-! ## Between two calls of `Advance` -/

theorem slice_of_advance {σ : Type} (cb : Callbacks τ σ) {fuel : Nat} {s s' : Timing τ} {x x' : σ}
    {log : List (Ran τ)} (hheap : IsHeap Event.key s.eventQueue) (hoc : s.configOc = .one)
    (h : advance cb fuel s x = some (log, s', x')) : Slice s' := by
  have hbound := (advance_spec cb hheap h).bound
  simp only [advance, Option.map_eq_some_iff] at h
  obtain ⟨⟨log', t, x''⟩, hloop, heq⟩ := h
  cases heq
  have hspec := advanceLoop_spec cb fuel s.beginAdvance x (isHeap_moveEvents hheap) rfl hloop
  have hmove := sameClock_moveEvents s
  refine ⟨?_, ?_, fun e he => Or.inr (hbound e he)⟩
  · simp only [endAdvance]
    split <;> rfl
  · have hlast : t.lastOc = .one := by
      rw [hspec.clock.2.2.2.2.1]
      simp only [beginAdvance]
      rw [hmove.2.2.2.2.2, hoc]
    simp only [endAdvance]
    split <;> exact hlast

theorem slice_of_reach {s s' : Timing τ} (hs : Slice s) (h : Reach step InSlice s s') :
    Slice s' ∧ s.getTicks ≤ s'.getTicks := by
  refine h.invariant (fun t => Slice t ∧ s.getTicks ≤ t.getTicks) ⟨hs, Int.le_refl _⟩ (fun ht hop hstep => ?_)
  obtain ⟨ht', hle, -⟩ := ht.1.step hop hstep
  exact ⟨ht', Int.le_trans ht.2 hle⟩

/-- With the overclock factor 1, whatever happens after an `Advance` until the next one: the slice does not run past a
queued event, and the time does not go back; it stands still while events are scheduled and removed. -/
theorem slice_stops_at_events {σ : Type} (cb : Callbacks τ σ) (oc : Overclock) (s₀ s s' : Timing τ) (fuel : Nat)
    (x x' : σ) (log : List (Ran τ)) (h₀ : Reach step Orderly (init oc) s₀) (hoc : s₀.configOc = .one)
    (hadv : advance cb fuel s₀ x = some (log, s, x')) (h : Reach step InSlice s s') :
    SliceBounded s' ∧ s.getTicks ≤ s'.getTicks ∧
      ∀ op s'', InSlice s' op → s'.step op = some s'' →
        s'.getTicks ≤ s''.getTicks ∧ (op.takesNoTime = true → s''.getTicks = s'.getTicks) := by
  have hslice := slice_of_advance cb (isHeap_of_reach h₀) hoc hadv
  obtain ⟨hs', hle⟩ := slice_of_reach hslice h
  exact ⟨hs'.sliceBounded, hle, fun op s'' hop hstep => (hs'.step hop hstep).2⟩

def oneEvent : Timing Unit := scheduled.beginAdvance.endAdvance

theorem advance_oneEvent : advance countdown 1 scheduled 0 = some ([], oneEvent, 0) := rfl

theorem slice_stops_at_nearer_event : ∃ s',
    run step oneEvent [.executed 10, .scheduleEvent 20 () 0 true, .idle] = some s' ∧ s'.getTicks = 30 ∧
      SliceBounded s' ∧ oneEvent.getTicks ≤ s'.getTicks := by
  have hs : run (fun s a => if InSlice s a then step s a else none) oneEvent
      [.executed 10, .scheduleEvent 20 () 0 true, .idle] = some _ := rfl
  have h := slice_stops_at_events countdown .one _ _ _ 1 0 0 [] reach_scheduled rfl advance_oneEvent
    (reach_of_guarded hs)
  exact ⟨_, rfl, by decide, h.1, h.2.1⟩

/-- `Idle` after more cycles than the slice had takes the time back to the end of the slice. -/
theorem idle_takes_time_back : advance countdown 1 scheduled 0 = some ([], oneEvent, 0) ∧
    ∃ s s', run step oneEvent [.executed 150] = some s ∧ s.step .idle = some s' ∧ s.getTicks = 150 ∧
      s'.getTicks = 100 :=
  ⟨advance_oneEvent, _, _, rfl, rfl, by decide, by decide⟩

end Karphin.CoreTiming.Timing
