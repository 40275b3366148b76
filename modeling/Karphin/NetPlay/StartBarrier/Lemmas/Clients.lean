import Karphin.NetPlay.StartBarrier.Defs

/-!
# A client reports an attempt at most once
-/

namespace Karphin.NetPlay.StartBarrier

/-- A client and the save synchronisations: at most one success for the attempt `a`, counting the `reported`
ones, and only once all data packets have been handled. -/
structure SavesOk (c : Client) (a reported : Nat) : Prop where
  sorted : c.saveInbox.Pairwise fun m m' => m.attempt < m'.attempt
  ahead : ∀ m ∈ c.saveInbox, c.saveAttempt < m.attempt ∧ m.attempt ≤ a
  attempt_le : c.saveAttempt ≤ a
  left : 0 < c.saveLeft → c.syncSaveDataSuccessCount + c.saveLeft ≤ c.syncSaveDataCount
  once : c.replies.count ⟨.saves, true, a⟩ + reported ≤ 1
  done : 0 < c.replies.count ⟨.saves, true, a⟩ + reported → c.saveAttempt = a ∧ c.saveLeft = 0

/-- A client and the code synchronisations, which were sent up to the attempt `b`. -/
structure CodesOk (c : Client) (a b reported : Nat) : Prop where
  sorted : c.codeInbox.Pairwise fun m m' => m.attempt < m'.attempt
  ahead : ∀ m ∈ c.codeInbox, c.codeSync.attempt < m.attempt ∧ m.attempt ≤ b
  attempt_le : c.codeSync.attempt ≤ b
  ar : c.codeStage ≠ 0 → c.codeStage ≠ 4 → c.syncArCodesComplete = false
  once : c.replies.count ⟨.codes, true, a⟩ + reported ≤ 1
  done : 0 < c.replies.count ⟨.codes, true, a⟩ + reported →
    c.codeSync.attempt = a ∧ (c.codeStage = 0 ∨ c.codeStage = 4 ∧ c.codeSync.ar = 0)

namespace Client

variable {c c' : Client} {a b n : Nat}

theorem count_reply {kind : Kind} {success : Bool} {t : Nat} {r : Reply} :
    (c.reply kind success t).replies.count r =
      c.replies.count r + if ⟨kind, success, t⟩ = r then 1 else 0 := by
  simp [reply, List.count_append, List.count_singleton]

theorem syncSaveDataResponse_cases (c : Client) (success : Bool) :
    (success = true ∧ c.syncSaveDataCount ≤ c.syncSaveDataSuccessCount + 1 ∧ c.syncSaveDataResponse success =
      ({ c with syncSaveDataSuccessCount := c.syncSaveDataSuccessCount + 1 } : Client).reply .saves true
        c.saveAttempt) ∨
    (success = true ∧ c.syncSaveDataResponse success =
      { c with syncSaveDataSuccessCount := c.syncSaveDataSuccessCount + 1 }) ∨
    (success = false ∧ c.syncSaveDataResponse success = c.reply .saves false c.saveAttempt) := by
  cases success with
  | false => exact Or.inr (Or.inr ⟨rfl, rfl⟩)
  | true =>
      simp only [syncSaveDataResponse, ↓reduceIte, ge_iff_le]
      by_cases h : c.syncSaveDataCount ≤ c.syncSaveDataSuccessCount + 1
      · exact Or.inl ⟨trivial, h, if_pos h⟩
      · exact Or.inr (Or.inl ⟨trivial, if_neg h⟩)

end Client

variable {c c' : Client} {a b n : Nat}

theorem count_eq_zero_of_bound {kind : Kind} (hb : ∀ r ∈ c.replies, r.attempt ≤ a) :
    c.replies.count ⟨kind, true, a + 1⟩ = 0 := by
  refine List.count_eq_zero.mpr fun hr => ?_
  exact Nat.not_succ_le_self a (hb _ hr)

theorem SavesOk.next (h : SavesOk c a n) (hb : ∀ r ∈ c.replies, r.attempt ≤ a) : SavesOk c (a + 1) 0 := by
  have hzero : c.replies.count ⟨.saves, true, a + 1⟩ = 0 := count_eq_zero_of_bound hb
  refine ⟨h.sorted, fun m hm => ⟨(h.ahead m hm).1, Nat.le_succ_of_le (h.ahead m hm).2⟩,
    Nat.le_succ_of_le h.attempt_le, h.left, ?_, ?_⟩
  · rw [hzero]; exact Nat.zero_le 1
  · rw [hzero]; intro hpos; exact absurd hpos (Nat.lt_irrefl 0)

theorem SavesOk.enqueue (h : SavesOk c a 0) (hlt : c.saveAttempt < a) (hin : ∀ m ∈ c.saveInbox, m.attempt < a)
    (count : Nat) : SavesOk { c with saveInbox := c.saveInbox ++ [⟨a, count⟩] } a 0 := by
  refine ⟨?_, ?_, h.attempt_le, h.left, h.once, h.done⟩
  · refine List.pairwise_append.mpr ⟨h.sorted, List.pairwise_singleton _ _, ?_⟩
    intro m hm m' hm'
    rw [List.mem_singleton.mp hm']
    exact hin m hm
  · intro m hm
    rcases List.mem_append.mp hm with hm | hm
    · exact h.ahead m hm
    · rw [List.mem_singleton.mp hm]
      exact ⟨hlt, Nat.le_refl a⟩

theorem SavesOk.notify {sync : SaveSync} {syncs : List SaveSync} (h : SavesOk c a n)
    (hin : c.saveInbox = sync :: syncs) :
    SavesOk (({ c with saveInbox := syncs } : Client).onSyncSaveDataNotify sync) a n := by
  have hsorted := h.sorted
  rw [hin, List.pairwise_cons] at hsorted
  obtain ⟨hlt, hle⟩ := h.ahead sync (by rw [hin]; exact List.mem_cons_self)
  have hahead : ∀ m ∈ syncs, sync.attempt < m.attempt ∧ m.attempt ≤ a := fun m hm =>
    ⟨hsorted.1 m hm, (h.ahead m (by rw [hin]; exact List.mem_cons_of_mem _ hm)).2⟩
  -- an earlier success for this attempt would have come from this very synchronisation
  have hzero : c.replies.count ⟨.saves, true, a⟩ + n = 0 := by
    refine Nat.eq_zero_of_not_pos fun hpos => ?_
    rw [(h.done hpos).1] at hlt
    exact Nat.lt_irrefl a (Nat.lt_of_lt_of_le hlt hle)
  simp only [Client.onSyncSaveDataNotify]
  by_cases hcount : sync.count = 0
  · rw [if_pos hcount]
    simp only [Client.syncSaveDataResponse, ↓reduceIte, hcount, ge_iff_le, Nat.zero_le]
    refine ⟨hsorted.2, hahead, hle, fun hpos => absurd hpos (Nat.lt_irrefl 0), ?_, ?_⟩
    · rw [Client.count_reply]
      split
      · simp only; omega
      · simp only; omega
    · rw [Client.count_reply]
      intro hpos
      by_cases heq : (⟨.saves, true, sync.attempt⟩ : Reply) = ⟨.saves, true, a⟩
      · exact ⟨(Reply.mk.inj heq).2.2, rfl⟩
      · rw [if_neg heq] at hpos
        simp only at hpos
        omega
  · rw [if_neg hcount]
    refine ⟨hsorted.2, hahead, hle, fun _ => ?_, h.once, fun hpos => ?_⟩
    · simp only; omega
    · simp only at hpos; omega

theorem SavesOk.data (h : SavesOk c a n) (hleft : 0 < c.saveLeft) (success : Bool) :
    SavesOk (c.onSyncSaveData success) a n := by
  have hzero : c.replies.count ⟨.saves, true, a⟩ + n = 0 := by
    refine Nat.eq_zero_of_not_pos fun hpos => ?_
    exact absurd (h.done hpos).2 (Nat.pos_iff_ne_zero.mp hleft)
  have hcount := h.left hleft
  have hold : 0 < ({ c with saveLeft := c.saveLeft - 1 } : Client).replies.count ⟨.saves, true, a⟩ + n →
      c.saveAttempt = a ∧ c.saveLeft - 1 = 0 := by
    simp only; omega
  rw [Client.onSyncSaveData]
  rcases Client.syncSaveDataResponse_cases { c with saveLeft := c.saveLeft - 1 } success with
    ⟨-, hge, heq⟩ | ⟨-, heq⟩ | ⟨-, heq⟩
  · rw [heq]
    simp only at hge
    -- all packets were handled with success, so this is the last one
    have hlast : c.saveLeft - 1 = 0 := by omega
    refine ⟨h.sorted, h.ahead, h.attempt_le, fun hpos => absurd hlast (Nat.pos_iff_ne_zero.mp hpos), ?_, ?_⟩
    · rw [Client.count_reply]
      split
      · simp only; omega
      · simp only; omega
    · rw [Client.count_reply]
      intro hpos
      by_cases he : (⟨.saves, true, c.saveAttempt⟩ : Reply) = ⟨.saves, true, a⟩
      · exact ⟨(Reply.mk.inj he).2.2, hlast⟩
      · rw [if_neg he] at hpos
        exact hold hpos
  · rw [heq]
    refine ⟨h.sorted, h.ahead, h.attempt_le, fun _ => ?_, h.once, hold⟩
    simp only; omega
  · rw [heq]
    refine ⟨h.sorted, h.ahead, h.attempt_le, fun _ => ?_, ?_, ?_⟩
    · simp only [Client.reply]; omega
    · rw [Client.count_reply, if_neg (by simp)]; exact h.once
    · rw [Client.count_reply, if_neg (by simp)]; exact hold

theorem SavesOk.staleFailure (h : SavesOk c a n) : SavesOk (c.onStaleSaveData false) a n := by
  refine ⟨h.sorted, h.ahead, h.attempt_le, h.left, ?_, ?_⟩
  · rw [Client.onStaleSaveData, Client.syncSaveDataResponse, if_neg (by simp), Client.count_reply, if_neg (by simp)]
    exact h.once
  · rw [Client.onStaleSaveData, Client.syncSaveDataResponse, if_neg (by simp), Client.count_reply, if_neg (by simp)]
    exact h.done

theorem SavesOk.frame (h : SavesOk c a n)
    (he : c' = { c with
      codeInbox := c'.codeInbox, codeSync := c'.codeSync, codeStage := c'.codeStage
      syncGeckoCodesComplete := c'.syncGeckoCodesComplete, syncArCodesComplete := c'.syncArCodesComplete
      replies := c'.replies })
    (hcount : c'.replies.count ⟨.saves, true, a⟩ = c.replies.count ⟨.saves, true, a⟩) : SavesOk c' a n := by
  rw [he]
  refine ⟨h.sorted, h.ahead, h.attempt_le, h.left, ?_, ?_⟩
  · rw [hcount]; exact h.once
  · rw [hcount]; exact h.done

/-! ## Codes -/

theorem CodesOk.next (h : CodesOk c a a n) (hb : ∀ r ∈ c.replies, r.attempt ≤ a) : CodesOk c (a + 1) a 0 := by
  have hzero : c.replies.count ⟨.codes, true, a + 1⟩ = 0 := count_eq_zero_of_bound hb
  refine ⟨h.sorted, h.ahead, h.attempt_le, h.ar, ?_, ?_⟩
  · rw [hzero]; exact Nat.zero_le 1
  · rw [hzero]; intro hpos; exact absurd hpos (Nat.lt_irrefl 0)

theorem CodesOk.mono (h : CodesOk c a b n) (hle : b ≤ a) : CodesOk c a a n :=
  ⟨h.sorted, fun m hm => ⟨(h.ahead m hm).1, Nat.le_trans (h.ahead m hm).2 hle⟩, Nat.le_trans h.attempt_le hle,
    h.ar, h.once, h.done⟩

theorem CodesOk.enqueue (h : CodesOk c a b n) (hlt : b < a) (gecko ar : Nat) :
    CodesOk { c with codeInbox := c.codeInbox ++ [⟨a, gecko, ar⟩] } a a n := by
  refine ⟨?_, ?_, Nat.le_of_lt (Nat.lt_of_le_of_lt h.attempt_le hlt), h.ar, h.once, h.done⟩
  · refine List.pairwise_append.mpr ⟨h.sorted, List.pairwise_singleton _ _, ?_⟩
    intro m hm m' hm'
    rw [List.mem_singleton.mp hm']
    exact Nat.lt_of_le_of_lt (h.ahead m hm).2 hlt
  · intro m hm
    rcases List.mem_append.mp hm with hm | hm
    · exact ⟨(h.ahead m hm).1, Nat.le_of_lt (Nat.lt_of_le_of_lt (h.ahead m hm).2 hlt)⟩
    · rw [List.mem_singleton.mp hm]
      exact ⟨Nat.lt_of_le_of_lt h.attempt_le hlt, Nat.le_refl a⟩

theorem CodesOk.frame (h : CodesOk c a b n)
    (he : c' = { c with
      saveInbox := c'.saveInbox, saveAttempt := c'.saveAttempt, syncSaveDataCount := c'.syncSaveDataCount
      syncSaveDataSuccessCount := c'.syncSaveDataSuccessCount, saveLeft := c'.saveLeft, staleLeft := c'.staleLeft
      replies := c'.replies })
    (hcount : c'.replies.count ⟨.codes, true, a⟩ = c.replies.count ⟨.codes, true, a⟩) : CodesOk c' a b n := by
  rw [he]
  refine ⟨h.sorted, h.ahead, h.attempt_le, h.ar, ?_, ?_⟩
  · rw [hcount]; exact h.once
  · rw [hcount]; exact h.done

theorem CodesOk.of_zero (h : CodesOk c a b n) (hzero : c.replies.count ⟨.codes, true, a⟩ + n = 0)
    (he : c' = { c with
      codeStage := c'.codeStage, syncGeckoCodesComplete := c'.syncGeckoCodesComplete
      syncArCodesComplete := c'.syncArCodesComplete })
    (har : c'.codeStage ≠ 0 → c'.codeStage ≠ 4 → c'.syncArCodesComplete = false) : CodesOk c' a b n := by
  have hcount : c'.replies = c.replies := by rw [he]
  refine ⟨?_, ?_, ?_, har, ?_, ?_⟩
  · rw [he]; exact h.sorted
  · rw [he]; exact h.ahead
  · rw [he]; exact h.attempt_le
  · rw [hcount]; exact h.once
  · rw [hcount, hzero]; intro hpos; exact absurd hpos (Nat.lt_irrefl 0)

theorem CodesOk.respond (h : CodesOk c a b n) (hzero : c.replies.count ⟨.codes, true, a⟩ + n = 0)
    (hstage : c.codeStage = 0 ∨ c.codeStage = 4 ∧ c.codeSync.ar = 0) : CodesOk c.syncCodeResponse a b n := by
  rw [Client.syncCodeResponse]
  split
  · refine ⟨h.sorted, h.ahead, h.attempt_le, h.ar, ?_, ?_⟩
    · rw [Client.count_reply]
      split
      · omega
      · omega
    · rw [Client.count_reply]
      intro hpos
      by_cases he : (⟨.codes, true, c.codeSync.attempt⟩ : Reply) = ⟨.codes, true, a⟩
      · exact ⟨(Reply.mk.inj he).2.2, hstage⟩
      · rw [if_neg he] at hpos
        omega
  · exact h

theorem Client.geckoComplete_eq (h : c.syncArCodesComplete = false) :
    c.geckoComplete = { c with syncGeckoCodesComplete := true } := by
  rw [geckoComplete, syncCodeResponse, if_neg]
  simp [h]

theorem CodesOk.step (h : CodesOk c a b n) (hab : b ≤ a) : CodesOk c.onSyncCodes a b n := by
  have hmid : c.codeStage ≠ 0 → c.codeStage ≠ 4 → c.replies.count ⟨.codes, true, a⟩ + n = 0 := by
    intro h0 h4
    refine Nat.eq_zero_of_not_pos fun hpos => ?_
    rcases (h.done hpos).2 with hst | hst
    · exact h0 hst
    · exact h4 hst.1
  match hstage : c.codeStage with
  | 0 =>
      simp only [Client.onSyncCodes, hstage]
      cases hin : c.codeInbox with
      | nil => exact h
      | cons sync syncs =>
          have hsorted := h.sorted
          rw [hin, List.pairwise_cons] at hsorted
          obtain ⟨hlt, hle⟩ := h.ahead sync (by rw [hin]; exact List.mem_cons_self)
          have hzero : c.replies.count ⟨.codes, true, a⟩ + n = 0 := by
            refine Nat.eq_zero_of_not_pos fun hpos => ?_
            rw [(h.done hpos).1] at hlt
            exact Nat.lt_irrefl a (Nat.lt_of_lt_of_le hlt (Nat.le_trans hle hab))
          refine ⟨hsorted.2, ?_, hle, fun _ _ => rfl, h.once, ?_⟩
          · intro m hm
            exact ⟨hsorted.1 m hm, (h.ahead m (by rw [hin]; exact List.mem_cons_of_mem _ hm)).2⟩
          · simp only [hzero]
            intro hpos
            exact absurd hpos (Nat.lt_irrefl 0)
  | 1 =>
      have har : c.syncArCodesComplete = false := h.ar (by rw [hstage]; decide) (by rw [hstage]; decide)
      have hzero := hmid (by rw [hstage]; decide) (by rw [hstage]; decide)
      simp only [Client.onSyncCodes, hstage]
      split
      · rw [Client.geckoComplete_eq (by exact har)]
        exact h.of_zero hzero rfl fun _ _ => har
      · exact h.of_zero hzero rfl fun _ _ => har
  | 2 =>
      have har : c.syncArCodesComplete = false := h.ar (by rw [hstage]; decide) (by rw [hstage]; decide)
      have hzero := hmid (by rw [hstage]; decide) (by rw [hstage]; decide)
      simp only [Client.onSyncCodes, hstage]
      split
      · rw [Client.geckoComplete_eq (by exact har)]
        exact h.of_zero hzero rfl fun _ _ => har
      · exact h.of_zero hzero rfl fun _ _ => har
  | 3 =>
      have hzero := hmid (by rw [hstage]; decide) (by rw [hstage]; decide)
      simp only [Client.onSyncCodes, hstage]
      split
      · next hnone =>
          refine CodesOk.respond (h.of_zero hzero rfl ?_) hzero (Or.inr ⟨rfl, hnone⟩)
          intro _ h4
          exact absurd rfl h4
      · refine h.of_zero hzero rfl ?_
        intro _ h4
        exact absurd rfl h4
  | 4 =>
      simp only [Client.onSyncCodes, hstage]
      split
      · next hsome =>
          have hzero : c.replies.count ⟨.codes, true, a⟩ + n = 0 := by
            refine Nat.eq_zero_of_not_pos fun hpos => ?_
            rcases (h.done hpos).2 with hst | hst
            · rw [hstage] at hst
              exact absurd hst (by decide)
            · exact absurd hst.2 (Nat.pos_iff_ne_zero.mp hsome)
          refine CodesOk.respond (h.of_zero hzero rfl ?_) hzero (Or.inl rfl)
          intro h0
          exact absurd rfl h0
      · exact ⟨h.sorted, h.ahead, h.attempt_le, fun h0 => absurd rfl h0, h.once,
          fun hpos => ⟨(h.done hpos).1, Or.inl rfl⟩⟩

theorem SavesOk.codes (h : SavesOk c a n) : SavesOk c.onSyncCodes a n := by
  have hresp : ∀ {c'' : Client}, SavesOk c'' a n → SavesOk c''.syncCodeResponse a n := by
    intro c'' h''
    rw [Client.syncCodeResponse]
    split
    · exact h''.frame rfl (by rw [Client.count_reply, if_neg (by simp)]; rfl)
    · exact h''
  rw [Client.onSyncCodes]
  split
  · split
    · exact h
    · exact h.frame rfl rfl
  · dsimp only
    split
    · exact hresp (h.frame rfl rfl)
    · exact h.frame rfl rfl
  · dsimp only
    split
    · exact hresp (h.frame rfl rfl)
    · exact h.frame rfl rfl
  · dsimp only
    split
    · exact hresp (h.frame rfl rfl)
    · exact h.frame rfl rfl
  · dsimp only
    split
    · exact hresp (h.frame rfl rfl)
    · exact h.frame rfl rfl

theorem CodesOk.response (h : CodesOk c a b n) (success : Bool) :
    CodesOk (c.syncSaveDataResponse success) a b n := by
  rcases c.syncSaveDataResponse_cases success with ⟨-, -, heq⟩ | ⟨-, heq⟩ | ⟨-, heq⟩
  · rw [heq]
    exact h.frame rfl (by rw [Client.count_reply, if_neg (by simp)]; rfl)
  · rw [heq]
    exact h.frame rfl rfl
  · rw [heq]
    exact h.frame rfl (by rw [Client.count_reply, if_neg (by simp)]; rfl)

/-! ## Both -/

def Bounded (c : Client) (a : Nat) : Prop := ∀ r ∈ c.replies, r.attempt ≤ a

theorem Bounded.reply {kind : Kind} {success : Bool} {t : Nat} (h : Bounded c a) (ht : t ≤ a) :
    Bounded (c.reply kind success t) a := by
  intro r hr
  rcases List.mem_append.mp hr with hr | hr
  · exact h r hr
  · rw [List.mem_singleton.mp hr]
    exact ht

theorem Bounded.response (h : Bounded c a) (ht : c.saveAttempt ≤ a) (success : Bool) :
    Bounded (c.syncSaveDataResponse success) a := by
  rcases c.syncSaveDataResponse_cases success with ⟨-, -, heq⟩ | ⟨-, heq⟩ | ⟨-, heq⟩
  · rw [heq]
    exact Bounded.reply h ht
  · rw [heq]
    exact h
  · rw [heq]
    exact h.reply ht

theorem Bounded.codeResponse (h : Bounded c a) (ht : c.codeSync.attempt ≤ a) : Bounded c.syncCodeResponse a := by
  rw [Client.syncCodeResponse]
  split
  · exact h.reply ht
  · exact h

theorem Bounded.codes (h : Bounded c a) (ht : c.codeSync.attempt ≤ a) : Bounded c.onSyncCodes a := by
  rw [Client.onSyncCodes]
  split
  · split
    · exact h
    · exact h
  · dsimp only
    split
    · exact Bounded.codeResponse h ht
    · exact h
  · dsimp only
    split
    · exact Bounded.codeResponse h ht
    · exact h
  · dsimp only
    split
    · exact Bounded.codeResponse h ht
    · exact h
  · dsimp only
    split
    · exact Bounded.codeResponse h ht
    · exact h

/-- A client in the attempt `a`, with the numbers of successes that the server has received from it. -/
structure ClientOk (c : Client) (a b savesReported codesReported : Nat) : Prop where
  bounded : Bounded c a
  saves : SavesOk c a savesReported
  codes : CodesOk c a b codesReported

variable {m : Nat}

theorem ClientOk.new : ClientOk {} a b 0 0 := by
  refine ⟨?_, ⟨List.Pairwise.nil, ?_, Nat.zero_le a, ?_, Nat.zero_le 1, ?_⟩,
    ⟨List.Pairwise.nil, ?_, Nat.zero_le b, fun _ _ => rfl, Nat.zero_le 1, ?_⟩⟩
  · intro r hr; cases hr
  · intro m hm; cases hm
  · intro hpos; cases hpos
  · intro hpos; cases hpos
  · intro m hm; cases hm
  · intro hpos; cases hpos

theorem ClientOk.notify {sync : SaveSync} {syncs : List SaveSync} (h : ClientOk c a b n m)
    (hin : c.saveInbox = sync :: syncs) :
    ClientOk (({ c with saveInbox := syncs } : Client).onSyncSaveDataNotify sync) a b n m := by
  have hle : sync.attempt ≤ a := (h.saves.ahead sync (by rw [hin]; exact List.mem_cons_self)).2
  refine ⟨?_, h.saves.notify hin, ?_⟩
  · simp only [Client.onSyncSaveDataNotify]
    split
    · refine Bounded.response ?_ ?_ true
      · exact h.bounded
      · exact hle
    · exact h.bounded
  · simp only [Client.onSyncSaveDataNotify]
    split
    · refine CodesOk.response ?_ true
      exact h.codes.frame rfl rfl
    · exact h.codes.frame rfl rfl

theorem ClientOk.data (h : ClientOk c a b n m) (hleft : 0 < c.saveLeft) (success : Bool) :
    ClientOk (c.onSyncSaveData success) a b n m := by
  refine ⟨Bounded.response ?_ ?_ success, h.saves.data hleft success, CodesOk.response ?_ success⟩
  · exact h.bounded
  · exact h.saves.attempt_le
  · exact h.codes.frame rfl rfl

theorem ClientOk.staleFailure (h : ClientOk c a b n m) : ClientOk (c.onStaleSaveData false) a b n m := by
  refine ⟨Bounded.response ?_ ?_ false, h.saves.staleFailure, CodesOk.response ?_ false⟩
  · exact h.bounded
  · exact h.saves.attempt_le
  · exact h.codes.frame rfl rfl

theorem ClientOk.onSyncCodes (h : ClientOk c a b n m) (hab : b ≤ a) : ClientOk c.onSyncCodes a b n m :=
  ⟨h.bounded.codes (Nat.le_trans h.codes.attempt_le hab), h.saves.codes, h.codes.step hab⟩

theorem ClientOk.deliver {r : Reply} {rs : List Reply} (h : ClientOk c a b n m) (hr : c.replies = r :: rs) :
    ClientOk { c with replies := rs } a b (n + if r = ⟨.saves, true, a⟩ then 1 else 0)
      (m + if r = ⟨.codes, true, a⟩ then 1 else 0) := by
  have hcount : ∀ x, rs.count x + (if r = x then 1 else 0) = c.replies.count x := by
    intro x
    rw [hr, List.count_cons]
    simp only [beq_iff_eq]
  have hsaves : rs.count ⟨.saves, true, a⟩ + (n + if r = ⟨.saves, true, a⟩ then 1 else 0) =
      c.replies.count ⟨.saves, true, a⟩ + n := by
    rw [← hcount]; omega
  have hcodes : rs.count ⟨.codes, true, a⟩ + (m + if r = ⟨.codes, true, a⟩ then 1 else 0) =
      c.replies.count ⟨.codes, true, a⟩ + m := by
    rw [← hcount]; omega
  refine ⟨?_, ⟨h.saves.sorted, h.saves.ahead, h.saves.attempt_le, h.saves.left, ?_, ?_⟩,
    ⟨h.codes.sorted, h.codes.ahead, h.codes.attempt_le, h.codes.ar, ?_, ?_⟩⟩
  · intro x hx
    exact h.bounded x (by rw [hr]; exact List.mem_cons_of_mem r hx)
  · simp only [hsaves]; exact h.saves.once
  · simp only [hsaves]; exact h.saves.done
  · simp only [hcodes]; exact h.codes.once
  · simp only [hcodes]; exact h.codes.done

end Karphin.NetPlay.StartBarrier
