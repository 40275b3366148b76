import Karphin.NetPlay.Chunked.Defs

/-!
# What a client makes of the messages sent to it

A stream is a list of messages for one client, from some point on. The thread works on one transfer at a time,
so a client has at most one entry in its receive queue, and none if it has not seen the start.
-/

namespace Karphin.NetPlay.Chunked

def after (ms : List Message) : Receiver := ms.foldl Receiver.onData {}

inductive Phase
  | closed
  | underway (x : Transfer)
  | stopped

def Started (n : Nat) (ms : List Message) : Prop := ∃ m ∈ ms, m.starts n = true

def closings (n : Nat) (ms : List Message) : Nat := ms.countP (·.closes n)

/-- The stream of `p`, when `rest` are the entries that nobody has been sent in full. -/
structure View (pushed : List Bytes) (rest : List Entry) (transfers : Nat) (phase : Phase) (p : PlayerId)
    (ms : List Message) : Prop where
  sorted : ((after ms).handled.map Prod.fst).Pairwise (· < ·)
  right : ∀ h ∈ (after ms).handled, pushed[h.1]? = some h.2
  below : ∀ h ∈ (after ms).handled, ∀ e ∈ rest, h.1 < e.no
  fresh : ∀ m ∈ ms, m.transfer < transfers
  once : ∀ n, closings n ms ≤ 1
  closed : phase = .closed → (after ms).receiveQueue = [] ∧ ∀ n, Started n ms → closings n ms = 1
  underway : ∀ x, phase = .underway x →
    x.transfer < transfers ∧ closings x.transfer ms = 0 ∧
    (∀ m ∈ ms, m.transfer = x.transfer → x.entry.target.includes p = true) ∧
    (Started x.transfer ms →
      (after ms).receiveQueue = [⟨x.id, x.entry.no, x.entry.packet.take x.index⟩]) ∧
    (¬ Started x.transfer ms → (after ms).receiveQueue = []) ∧
    ∀ n, n ≠ x.transfer → Started n ms → closings n ms = 1

variable {pushed : List Bytes} {rest rest' : List Entry} {transfers n : Nat} {phase : Phase} {p : PlayerId}
  {ms : List Message} {m : Message} {x : Transfer}

theorem after_append : after (ms ++ [m]) = (after ms).onData m := by
  simp only [after, List.foldl_append, List.foldl_cons, List.foldl_nil]

theorem closings_append : closings n (ms ++ [m]) = closings n ms + if m.closes n then 1 else 0 := by
  simp only [closings, List.countP_append, List.countP_singleton]

theorem started_append : Started n (ms ++ [m]) ↔ Started n ms ∨ m.starts n = true := by
  simp only [Started, List.mem_append, List.mem_singleton, or_and_right, exists_or, exists_eq_left]

theorem Message.transfer_of_closes (h : m.closes n = true) : m.transfer = n := by
  rw [closes] at h
  split at h
  · exact of_decide_eq_true h
  · exact of_decide_eq_true h
  · cases h

theorem Message.transfer_of_starts (h : m.starts n = true) : m.transfer = n := by
  rw [starts] at h
  split at h
  · exact of_decide_eq_true h
  · cases h

theorem closings_eq_zero (h : ∀ m ∈ ms, m.transfer ≠ n) : closings n ms = 0 :=
  List.countP_eq_zero.mpr fun m hm hc => h m hm (Message.transfer_of_closes hc)

theorem not_started (h : ∀ m ∈ ms, m.transfer ≠ n) : ¬ Started n ms := by
  rintro ⟨m, hm, hs⟩
  exact h m hm (Message.transfer_of_starts hs)

def told (x : Transfer) (p : PlayerId) (body : Body) (ms : List Message) : List Message :=
  if x.entry.target.includes p then ms ++ [⟨x.transfer, x.id, body⟩] else ms

theorem told_mem {body : Body} (h : m ∈ told x p body ms) :
    m ∈ ms ∨ x.entry.target.includes p = true ∧ m = ⟨x.transfer, x.id, body⟩ := by
  rw [told] at h
  split at h
  · next hp => exact (List.mem_append.mp h).imp_right fun hm => ⟨hp, List.mem_singleton.mp hm⟩
  · exact Or.inl h

namespace View

theorem nil (hx : ∀ x, phase = .underway x → x.transfer < transfers) :
    View pushed rest transfers phase p [] := by
  have hno : ∀ {n}, ¬ Started n [] := by
    rintro n ⟨m, hm, -⟩
    cases hm
  refine ⟨List.Pairwise.nil, ?_, ?_, ?_, fun _ => Nat.zero_le 1, ?_, ?_⟩
  · intro h hh; cases hh
  · intro h hh; cases hh
  · intro m hm; cases hm
  · intro _
    exact ⟨rfl, fun n hs => absurd hs hno⟩
  · intro x hphase
    refine ⟨hx x hphase, rfl, ?_, fun hs => absurd hs hno, fun _ => rfl, fun n _ hs => absurd hs hno⟩
    intro m hm; cases hm

theorem mono (h : View pushed rest transfers phase p ms) (hsub : ∀ e ∈ rest', e ∈ rest) :
    View pushed rest' transfers phase p ms :=
  ⟨h.sorted, h.right, fun a ha e he => h.below a ha e (hsub e he), h.fresh, h.once, h.closed, h.underway⟩

theorem push (h : View pushed rest transfers phase p ms) (packet : Bytes) {e : Entry}
    (he : e.no = pushed.length) : View (pushed ++ [packet]) (rest ++ [e]) transfers phase p ms := by
  have hlt : ∀ a ∈ (after ms).handled, a.1 < pushed.length := by
    intro a ha
    exact (List.getElem?_eq_some_iff.mp (h.right a ha)).1
  refine ⟨h.sorted, ?_, ?_, h.fresh, h.once, h.closed, h.underway⟩
  · intro a ha
    rw [List.getElem?_append_left (hlt a ha)]
    exact h.right a ha
  · intro a ha e' he'
    rcases List.mem_append.mp he' with he' | he'
    · exact h.below a ha e' he'
    · rw [List.mem_singleton.mp he', he]
      exact hlt a ha

theorem stop (h : View pushed rest transfers phase p ms) : View pushed rest transfers .stopped p ms :=
  ⟨h.sorted, h.right, h.below, h.fresh, h.once, (fun hp => by cases hp), (fun _ hp => by cases hp)⟩

theorem start (h : View pushed rest transfers .closed p ms) (hx : x.transfer = transfers) (hindex : x.index = 0) :
    View pushed rest (transfers + 1) (.underway x) p (told x p (.start x.entry.no) ms) := by
  obtain ⟨hempty, hclosed⟩ := h.closed rfl
  have hnew : ∀ m ∈ ms, m.transfer ≠ x.transfer := by
    intro m hm heq
    exact Nat.lt_irrefl _ (hx ▸ heq ▸ h.fresh m hm)
  have hlt : ∀ m ∈ ms, m.transfer < transfers + 1 := fun m hm => Nat.lt_succ_of_lt (h.fresh m hm)
  have hxlt : x.transfer < transfers + 1 := by rw [hx]; exact Nat.lt_succ_self _
  by_cases hp : x.entry.target.includes p = true
  · rw [told, if_pos hp]
    have hafter : after (ms ++ [⟨x.transfer, x.id, .start x.entry.no⟩]) =
        { receiveQueue := [⟨x.id, x.entry.no, []⟩], handled := (after ms).handled } := by
      rw [after_append]
      simp only [Receiver.onData, Receiver.onChunkedDataStart, hempty]
      rfl
    have hcount : ∀ n, closings n (ms ++ [⟨x.transfer, x.id, .start x.entry.no⟩]) = closings n ms := by
      intro n
      rw [closings_append]
      rfl
    refine ⟨?_, ?_, ?_, ?_, ?_, (fun hf => by cases hf), ?_⟩
    · rw [hafter]; exact h.sorted
    · rw [hafter]; exact h.right
    · rw [hafter]; exact h.below
    · intro m hm
      rcases List.mem_append.mp hm with hm | hm
      · exact hlt m hm
      · rw [List.mem_singleton.mp hm]
        exact hxlt
    · intro n
      rw [hcount]
      exact h.once n
    · intro y hy
      cases hy
      refine ⟨hxlt, ?_, fun _ _ _ => hp, ?_, ?_, ?_⟩
      · rw [hcount]
        exact closings_eq_zero hnew
      · intro _
        rw [hafter, hindex]
        rfl
      · intro hno
        refine absurd (started_append.mpr (Or.inr ?_)) hno
        exact decide_eq_true rfl
      · intro n hne hs
        rw [hcount]
        rcases started_append.mp hs with hs | hs
        · exact hclosed n hs
        · exact absurd (Message.transfer_of_starts hs).symm hne
  · rw [told, if_neg hp]
    refine ⟨h.sorted, h.right, h.below, hlt, h.once, (fun hf => by cases hf), ?_⟩
    intro y hy
    cases hy
    exact ⟨hxlt, closings_eq_zero hnew, fun m hm heq => absurd heq (hnew m hm),
      fun hs => absurd hs (not_started hnew), fun _ => hempty, fun n _ hs => hclosed n hs⟩

theorem payload (h : View pushed rest transfers (.underway x) p ms) {x' : Transfer} {data : Bytes}
    (hx : x' = { x with index := x'.index, skipWait := x'.skipWait })
    (hdata : x.entry.packet.take x'.index = x.entry.packet.take x.index ++ data) :
    View pushed rest transfers (.underway x') p (told x p (.payload data) ms) := by
  obtain ⟨hlt, hzero, htarget, hseen, hunseen, hothers⟩ := h.underway x rfl
  have htransfer : x'.transfer = x.transfer := by rw [hx]
  have hentry : x'.entry = x.entry := by rw [hx]
  have hid : x'.id = x.id := by rw [hx]
  by_cases hp : x.entry.target.includes p = true
  · rw [told, if_pos hp]
    have hhandled : (after (ms ++ [⟨x.transfer, x.id, .payload data⟩])).handled = (after ms).handled := by
      rw [after_append]
      rfl
    have hcount : ∀ n, closings n (ms ++ [⟨x.transfer, x.id, .payload data⟩]) = closings n ms := by
      intro n
      rw [closings_append]
      rfl
    have hstarted : ∀ n, Started n (ms ++ [⟨x.transfer, x.id, .payload data⟩]) ↔ Started n ms := by
      intro n
      rw [started_append]
      exact or_iff_left (by simp [Message.starts])
    refine ⟨?_, ?_, ?_, ?_, ?_, (fun hf => by cases hf), ?_⟩
    · rw [hhandled]; exact h.sorted
    · rw [hhandled]; exact h.right
    · rw [hhandled]; exact h.below
    · intro m hm
      rcases List.mem_append.mp hm with hm | hm
      · exact h.fresh m hm
      · rw [List.mem_singleton.mp hm]
        exact hlt
    · intro n
      rw [hcount]
      exact h.once n
    · intro y hy
      cases hy
      rw [htransfer, hentry, hid, hcount, hstarted]
      refine ⟨hlt, hzero, fun _ _ _ => hp, ?_, ?_, ?_⟩
      · intro hs
        rw [after_append, hdata]
        simp only [Receiver.onData, Receiver.onChunkedDataPayload, hseen hs, List.map_cons, List.map_nil, if_true]
      · intro hno
        rw [after_append]
        simp only [Receiver.onData, Receiver.onChunkedDataPayload, hunseen hno, List.map_nil]
      · intro n hne hs
        rw [hcount]
        exact hothers n hne ((hstarted n).mp hs)
  · rw [told, if_neg hp]
    refine ⟨h.sorted, h.right, h.below, h.fresh, h.once, (fun hf => by cases hf), ?_⟩
    intro y hy
    cases hy
    rw [htransfer, hentry, hid]
    refine ⟨hlt, hzero, htarget, ?_, hunseen, hothers⟩
    rintro ⟨m, hm, hs⟩
    exact absurd (htarget m hm (Message.transfer_of_starts hs)) hp

theorem close (h : View pushed rest transfers (.underway x) p ms) {body : Body}
    (hbody : body = .finish ∨ body = .abort)
    (hafter : x.entry.target.includes p = true →
      (after (told x p body ms)).receiveQueue = [] ∧
      ((after (told x p body ms)).handled = (after ms).handled ∨
        (after (told x p body ms)).handled = (after ms).handled ++ [(x.entry.no, x.entry.packet)]))
    (hx : pushed[x.entry.no]? = some x.entry.packet) (hxrest : x.entry ∈ rest)
    (hrest : ∀ e ∈ rest', e ∈ rest ∧ x.entry.no < e.no) :
    View pushed rest' transfers .closed p (told x p body ms) := by
  obtain ⟨hlt, hzero, htarget, -, hunseen, hothers⟩ := h.underway x rfl
  by_cases hp : x.entry.target.includes p = true
  · obtain ⟨hqueue, hhandled⟩ := hafter hp
    have hcloses : ∀ n, (⟨x.transfer, x.id, body⟩ : Message).closes n = decide (x.transfer = n) := by
      intro n
      rcases hbody with rfl | rfl
      · rfl
      · rfl
    have hstarts : ∀ n, (⟨x.transfer, x.id, body⟩ : Message).starts n = false := by
      intro n
      rcases hbody with rfl | rfl
      · rfl
      · rfl
    have htold : told x p body ms = ms ++ [⟨x.transfer, x.id, body⟩] := if_pos hp
    have hcount : ∀ n, closings n (told x p body ms) = closings n ms + if x.transfer = n then 1 else 0 := by
      intro n
      rw [htold, closings_append, hcloses]
      simp only [decide_eq_true_eq]
    refine ⟨?_, ?_, ?_, ?_, ?_, ?_, (fun _ hf => by cases hf)⟩
    · rcases hhandled with heq | heq
      · rw [heq]; exact h.sorted
      · rw [heq, List.map_append]
        refine List.pairwise_append.mpr ⟨h.sorted, List.pairwise_singleton _ _, ?_⟩
        intro a ha b hb
        obtain ⟨a', ha', rfl⟩ := List.mem_map.mp ha
        rw [List.mem_singleton.mp hb]
        exact h.below a' ha' _ hxrest
    · intro a ha
      rcases hhandled with heq | heq
      · exact h.right a (heq ▸ ha)
      · rcases List.mem_append.mp (heq ▸ ha) with ha | ha
        · exact h.right a ha
        · rw [List.mem_singleton.mp ha]
          exact hx
    · intro a ha e he
      rcases hhandled with heq | heq
      · exact h.below a (heq ▸ ha) e (hrest e he).1
      · rcases List.mem_append.mp (heq ▸ ha) with ha | ha
        · exact h.below a ha e (hrest e he).1
        · rw [List.mem_singleton.mp ha]
          exact (hrest e he).2
    · intro m hm
      rcases told_mem hm with hm | ⟨-, rfl⟩
      · exact h.fresh m hm
      · exact hlt
    · intro n
      rw [hcount]
      by_cases hn : x.transfer = n
      · exact Nat.le_of_eq (by rw [if_pos hn, ← hn, hzero])
      · rw [if_neg hn]
        exact h.once n
    · intro _
      refine ⟨hqueue, fun n hs => ?_⟩
      rw [hcount]
      by_cases hn : x.transfer = n
      · rw [if_pos hn, ← hn, hzero]
      · rw [htold, started_append, hstarts] at hs
        rcases hs with hs | hs
        · rw [if_neg hn]
          exact hothers n (Ne.symm hn) hs
        · cases hs
  · have hno : ¬ Started x.transfer ms := by
      rintro ⟨m, hm, hs⟩
      exact hp (htarget m hm (Message.transfer_of_starts hs))
    rw [told, if_neg hp]
    refine ⟨h.sorted, h.right, fun a ha e he => h.below a ha e (hrest e he).1, h.fresh, h.once, ?_,
      (fun _ hf => by cases hf)⟩
    intro _
    refine ⟨hunseen hno, fun n hs => hothers n ?_ hs⟩
    rintro rfl
    exact hno hs

theorem finish (h : View pushed rest transfers (.underway x) p ms)
    (hall : x.entry.packet.length ≤ x.index ∨ ¬ Started x.transfer ms)
    (hx : pushed[x.entry.no]? = some x.entry.packet) (hxrest : x.entry ∈ rest)
    (hrest : ∀ e ∈ rest', e ∈ rest ∧ x.entry.no < e.no) :
    View pushed rest' transfers .closed p (told x p .finish ms) := by
  refine h.close (Or.inl rfl) (fun hp => ?_) hx hxrest hrest
  obtain ⟨-, -, -, hseen, hunseen, -⟩ := h.underway x rfl
  rw [told, if_pos hp, after_append]
  by_cases hs : Started x.transfer ms
  · have hlen : x.entry.packet.take x.index = x.entry.packet :=
      List.take_of_length_le (hall.resolve_right (not_not_intro hs))
    have hqueue := hseen hs
    rw [hlen] at hqueue
    simp only [Receiver.onData, Receiver.onChunkedDataEnd, hqueue]
    simp
  · simp only [Receiver.onData, Receiver.onChunkedDataEnd, hunseen hs, List.find?_nil]
    exact ⟨trivial, Or.inl trivial⟩

theorem abort (h : View pushed rest transfers (.underway x) p ms)
    (hx : pushed[x.entry.no]? = some x.entry.packet) (hxrest : x.entry ∈ rest)
    (hrest : ∀ e ∈ rest', e ∈ rest ∧ x.entry.no < e.no) :
    View pushed rest' transfers .closed p (told x p .abort ms) := by
  refine h.close (Or.inr rfl) (fun hp => ?_) hx hxrest hrest
  obtain ⟨-, -, -, hseen, hunseen, -⟩ := h.underway x rfl
  rw [told, if_pos hp, after_append]
  refine ⟨?_, Or.inl rfl⟩
  by_cases hs : Started x.transfer ms
  · simp [Receiver.onData, Receiver.onChunkedDataAbort, hseen hs]
  · simp [Receiver.onData, Receiver.onChunkedDataAbort, hunseen hs]

theorem leave (h : View pushed rest transfers (.underway x) p ms) (hno : ¬ Started x.transfer ms)
    (hrest : ∀ e ∈ rest', e ∈ rest) : View pushed rest' transfers .closed p ms := by
  obtain ⟨-, -, -, -, hunseen, hothers⟩ := h.underway x rfl
  refine ⟨h.sorted, h.right, fun a ha e he => h.below a ha e (hrest e he), h.fresh, h.once, ?_,
    (fun _ hf => by cases hf)⟩
  intro _
  refine ⟨hunseen hno, fun n hs => hothers n ?_ hs⟩
  rintro rfl
  exact hno hs

end View

end Karphin.NetPlay.Chunked
