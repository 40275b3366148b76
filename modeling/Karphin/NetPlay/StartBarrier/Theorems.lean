import Karphin.NetPlay.StartBarrier.Lemmas.Clients

/-!
# The barrier holds in orderly runs
-/

namespace Karphin.NetPlay.StartBarrier

open Karphin.Lib

/-! ## The barrier -/

/-- One kind of synchronisation: the counter does not exceed the players who have reported, and once it is done
all of them have. -/
structure Barrier (players reported : List Player) (count : Nat) (synced : Bool) : Prop where
  sub : ∀ p ∈ reported, p ∈ players ∧ p ≠ host
  le : count ≤ reported.length
  all : synced = true → ∀ p ∈ players, p ≠ host → p ∈ reported

section Barrier

variable {players reported : List Player} {count : Nat} {synced : Bool} {p : Player}

theorem Barrier.new : Barrier players [] 0 false := by
  refine ⟨?_, Nat.le_refl 0, ?_⟩
  · intro p hp; cases hp
  · intro hs; cases hs

theorem Barrier.note (h : Barrier players reported count synced) (hp : p ∈ players) (hne : p ≠ host) :
    Barrier players (reported ++ [p]) count synced := by
  refine ⟨?_, ?_, ?_⟩
  · intro q hq
    rcases List.mem_append.mp hq with hq | hq
    · exact h.sub q hq
    · rw [List.mem_singleton.mp hq]
      exact ⟨hp, hne⟩
  · rw [List.length_append]
    exact Nat.le_add_right_of_le h.le
  · intro hs q hq hqne
    exact List.mem_append_left _ (h.all hs q hq hqne)

theorem all_reported (hsub : ∀ p ∈ reported, p ∈ players ∧ p ≠ host) (hnd : reported.Nodup)
    (hhost : host ∈ players) (hlen : players.length - 1 ≤ reported.length) :
    ∀ p ∈ players, p ≠ host → p ∈ reported := by
  intro p hp hne
  by_contra hnot
  have hnd' : (p :: reported).Nodup := List.nodup_cons.mpr ⟨hnot, hnd⟩
  have hsub' : p :: reported ⊆ players.erase host := by
    intro q hq
    rcases List.mem_cons.mp hq with rfl | hq
    · exact (List.mem_erase_of_ne hne).mpr hp
    · exact (List.mem_erase_of_ne (hsub q hq).2).mpr (hsub q hq).1
  have hle := (hnd'.subperm hsub').length_le
  rw [List.length_erase_of_mem hhost, List.length_cons] at hle
  omega

theorem Barrier.success (h : Barrier players reported count synced) (hp : p ∈ players) (hne : p ≠ host)
    (hhost : host ∈ players) (hnd : (reported ++ [p]).Nodup) :
    Barrier players (reported ++ [p]) (count + 1) synced ∧
    (count + 1 ≥ players.length - 1 → Barrier players (reported ++ [p]) (count + 1) true) := by
  have hn := h.note hp hne
  have hle : count + 1 ≤ (reported ++ [p]).length := by
    rw [List.length_append]
    exact Nat.add_le_add_right h.le 1
  exact ⟨⟨hn.sub, hle, hn.all⟩,
    fun hge => ⟨hn.sub, hle, fun _ => all_reported hn.sub hnd hhost (Nat.le_trans hge hle)⟩⟩

theorem Barrier.leave (h : Barrier players reported count synced) (hp : p ∉ reported) :
    Barrier (players.erase p) reported count synced := by
  refine ⟨?_, h.le, ?_⟩
  · intro q hq
    refine ⟨(List.mem_erase_of_ne ?_).mpr (h.sub q hq).1, (h.sub q hq).2⟩
    rintro rfl
    exact hp hq
  · intro hs q hq hne
    exact h.all hs q (List.mem_of_mem_erase hq) hne

theorem Barrier.join (h : Barrier players reported count false) (q : Player) :
    Barrier (players ++ [q]) reported count false :=
  ⟨fun p hp => ⟨List.mem_append_left _ (h.sub p hp).1, (h.sub p hp).2⟩, h.le, fun hs => by cases hs⟩

end Barrier

/-! ## The invariant -/

namespace State

variable {s s' : State} {p q : Player}

def codesBound (s : State) : Nat := if s.gui.isSome then s.attempt - 1 else s.attempt

structure Wf (s : State) : Prop where
  nodup : s.players.Nodup
  host_mem : host ∈ s.players
  lt_next : ∀ p ∈ s.players, p < s.nextPlayer
  reported_lt : ∀ p, p ∈ s.savesReported ∨ p ∈ s.codesReported → p < s.nextPlayer
  host_client : s.client host = {}
  clients : ∀ p ∈ s.players,
    ClientOk (s.client p) s.attempt s.codesBound (s.savesReported.count p) (s.codesReported.count p)
  request : ∀ r ∈ s.gui, r.syncCodes = s.wantsCodes
  attempt_pos : s.gui.isSome = true → 0 < s.attempt
  codes_ahead : s.gui.isSome = true → s.codesReported = []

structure Inv (s : State) : Prop extends Wf s where
  saves : s.wantsSaves = true → s.startPending = true ∨ s.codesAhead = true →
    Barrier s.players s.savesReported s.saveDataSyncedPlayers s.savesSynced
  codes : s.wantsCodes = true → s.gui = none → s.startPending = true →
    Barrier s.players s.codesReported s.codesSyncedPlayers s.codesSynced
  starts : ∀ b ∈ s.starts, b = true

theorem codesBound_le : s.codesBound ≤ s.attempt := by
  rw [codesBound]
  split
  · exact Nat.sub_le _ _
  · exact Nat.le_refl _

theorem Wf.init : Wf {} := by
  refine ⟨List.nodup_singleton host, List.mem_singleton_self host, ?_, ?_, rfl, ?_, ?_, ?_, ?_⟩
  · intro p hp
    rw [List.mem_singleton.mp hp]
    decide
  · rintro p (hp | hp)
    · cases hp
    · cases hp
  · intro p _; exact ClientOk.new
  · intro r hr; cases hr
  · intro hg; cases hg
  · intro hg; cases hg

theorem Inv.init : Inv {} := by
  refine ⟨Wf.init, ?_, ?_, ?_⟩
  · intro hw; cases hw
  · intro hw; cases hw
  · intro b hb; cases hb

/-! ### Clients -/

theorem setClient_client {c : Client} (q : Player) :
    (s.setClient p c).client q = if q = p then c else s.client q := Function.update_apply ..

theorem Wf.setClient (h : Wf s) {c : Client} (hhost : p = host → c = {})
    (hc : ClientOk c s.attempt s.codesBound (s.savesReported.count p) (s.codesReported.count p)) :
    Wf (s.setClient p c) := by
  refine ⟨h.nodup, h.host_mem, h.lt_next, h.reported_lt, ?_, ?_, h.request, h.attempt_pos, h.codes_ahead⟩
  · rw [setClient_client]
    split
    · next heq => exact hhost heq.symm
    · exact h.host_client
  · intro q hq
    rw [setClient_client]
    by_cases heq : q = p
    · rw [if_pos heq, heq]
      exact hc
    · rw [if_neg heq]
      exact h.clients q hq

theorem Inv.setClient (h : Inv s) {c : Client} (hhost : p = host → c = {})
    (hc : ClientOk c s.attempt s.codesBound (s.savesReported.count p) (s.codesReported.count p)) :
    Inv (s.setClient p c) :=
  ⟨h.toWf.setClient hhost hc, h.saves, h.codes, h.starts⟩

/-! ### Players -/

theorem Inv.connect (h : Inv s) (hpend : s.startPending = false) (hok : s.Orderly .connect) :
    Inv { s.setClient s.nextPlayer {} with
      players := s.players ++ [s.nextPlayer], nextPlayer := s.nextPlayer + 1 } := by
  have hnew : s.nextPlayer ∉ s.players := fun hp => Nat.lt_irrefl _ (h.lt_next _ hp)
  have hmem : ∀ {q}, q ∈ s.players ++ [s.nextPlayer] ↔ q ∈ s.players ∨ q = s.nextPlayer := by simp
  have hold : ∀ q ∈ s.players, (s.setClient s.nextPlayer {}).client q = s.client q := by
    intro q hq
    rw [setClient_client, if_neg]
    rintro rfl
    exact hnew hq
  refine ⟨⟨?_, ?_, ?_, ?_, ?_, ?_, h.request, h.attempt_pos, h.codes_ahead⟩, ?_, ?_, h.starts⟩
  · refine List.nodup_append.mpr ⟨h.nodup, List.nodup_singleton _, ?_⟩
    intro a ha b hb hab
    rw [List.mem_singleton] at hb
    exact hnew (hb ▸ hab ▸ ha)
  · exact List.mem_append_left _ h.host_mem
  · intro q hq
    rcases hmem.mp hq with hq | rfl
    · exact Nat.lt_succ_of_lt (h.lt_next q hq)
    · exact Nat.lt_succ_self _
  · intro q hq
    exact Nat.lt_succ_of_lt (h.reported_lt q hq)
  · exact (hold host h.host_mem).trans h.host_client
  · intro q hq
    rcases hmem.mp hq with hq | rfl
    · have hc := h.clients q hq
      rw [← hold q hq] at hc
      exact hc
    · have hs : s.savesReported.count s.nextPlayer = 0 :=
        List.count_eq_zero.mpr fun hr => Nat.lt_irrefl _ (h.reported_lt _ (Or.inl hr))
      have hc : s.codesReported.count s.nextPlayer = 0 :=
        List.count_eq_zero.mpr fun hr => Nat.lt_irrefl _ (h.reported_lt _ (Or.inr hr))
      have hclient : (s.setClient s.nextPlayer {}).client s.nextPlayer = {} := by
        rw [setClient_client, if_pos rfl]
      have hok : ClientOk ((s.setClient s.nextPlayer {}).client s.nextPlayer) s.attempt s.codesBound
          (s.savesReported.count s.nextPlayer) (s.codesReported.count s.nextPlayer) := by
        rw [hs, hc, hclient]
        exact ClientOk.new
      exact hok
  · intro hw hahead
    rcases hahead with hp | hahead
    · exact absurd (hpend.symm.trans hp) Bool.false_ne_true
    · have hb := h.saves hw (Or.inr hahead)
      have hsynced := hok hahead hw
      simp only [State.setClient] at hb ⊢
      rw [hsynced] at hb ⊢
      exact hb.join _
  · intro _ _ hp
    exact absurd (hpend.symm.trans hp) Bool.false_ne_true

theorem Inv.disconnect (h : Inv s) (hne : p ≠ host) (hok : s.Orderly (.disconnect p)) :
    Inv { s with players := s.players.erase p, startPending := false } := by
  refine ⟨⟨h.nodup.erase p, (List.mem_erase_of_ne hne.symm).mpr h.host_mem, ?_, h.reported_lt, h.host_client, ?_,
    h.request, h.attempt_pos, h.codes_ahead⟩, ?_, ?_, h.starts⟩
  · intro q hq
    exact h.lt_next q (List.mem_of_mem_erase hq)
  · intro q hq
    exact h.clients q (List.mem_of_mem_erase hq)
  · intro hw hahead
    rcases hahead with hp | hahead
    · cases hp
    · exact (h.saves hw (Or.inr hahead)).leave (hok hahead hw)
  · intro _ _ hp
    cases hp

/-! ### Requests -/

theorem Inv.abort (h : Inv s) : Inv { s with startPending := false } := by
  refine ⟨⟨h.nodup, h.host_mem, h.lt_next, h.reported_lt, h.host_client, h.clients, h.request, h.attempt_pos,
    h.codes_ahead⟩, ?_, ?_, h.starts⟩
  · intro hw hahead
    rcases hahead with hp | hahead
    · cases hp
    · exact h.saves hw (Or.inr hahead)
  · intro _ _ hp
    cases hp

theorem Wf.guiDone (h : Wf s) : Wf { s with gui := none } := by
  refine ⟨h.nodup, h.host_mem, h.lt_next, h.reported_lt, h.host_client, ?_, ?_, ?_, ?_⟩
  · intro p hp
    have hc := h.clients p hp
    exact ⟨hc.bounded, hc.saves, hc.codes.mono codesBound_le⟩
  · intro r hr; cases hr
  · intro hg; cases hg
  · intro hg; cases hg

theorem Inv.fail (h : Inv s) (synced : Bool) :
    Inv { s with gui := none, startPending := false, codesSynced := synced } := by
  have hw := h.toWf.guiDone
  refine ⟨⟨hw.nodup, hw.host_mem, hw.lt_next, hw.reported_lt, hw.host_client, hw.clients, hw.request,
    hw.attempt_pos, hw.codes_ahead⟩, ?_, ?_, h.starts⟩
  · intro _ hahead
    rcases hahead with hp | hahead
    · cases hp
    · cases hahead
  · intro _ _ hp
    cases hp

theorem sendToClients_client {f : Client → Client} (q : Player) :
    (s.sendToClients f).client q = if q ∈ s.players ∧ q ≠ host then f (s.client q) else s.client q := rfl

def begin (s : State) (wantsSaves wantsCodes : Bool) (r : Request) : State :=
  { s with
    attempt := s.attempt + 1
    wantsSaves := wantsSaves
    wantsCodes := wantsCodes
    savesReported := []
    codesReported := []
    gui := some r }

theorem Wf.begin (h : Wf s) (hgui : s.gui = none) {wantsSaves wantsCodes : Bool} {r : Request}
    (hr : r.syncCodes = wantsCodes) : Wf (s.begin wantsSaves wantsCodes r) := by
  refine ⟨h.nodup, h.host_mem, h.lt_next, ?_, h.host_client, ?_, ?_, fun _ => Nat.succ_pos _, fun _ => rfl⟩
  · rintro p (hp | hp)
    · cases hp
    · cases hp
  · intro p hp
    have hc := h.clients p hp
    have hb : s.codesBound = s.attempt := by rw [codesBound, hgui]; rfl
    rw [hb] at hc
    exact ⟨fun r hr => Nat.le_succ_of_le (hc.bounded r hr), hc.saves.next hc.bounded, hc.codes.next hc.bounded⟩
  · intro r' hr'
    rw [← Option.mem_some.mp hr']
    exact hr

theorem Inv.requestSaves (h : Inv s) (hgui : s.gui = none) (savedataLoad syncCodes : Bool)
    (count gecko ar : Nat) : Inv (s.requestSaves savedataLoad syncCodes count gecko ar) := by
  simp only [State.requestSaves]
  generalize hwants : (savedataLoad && decide (s.players.length > 1)) = wantsSaves
  have hw : Wf (s.begin wantsSaves syncCodes ⟨syncCodes, gecko, ar, !wantsSaves⟩) := h.toWf.begin hgui rfl
  cases wantsSaves with
  | false =>
      refine ⟨hw, ?_, ?_, h.starts⟩
      · intro hf; cases hf
      · intro _ hg; cases hg
  | true =>
      refine ⟨⟨hw.nodup, hw.host_mem, hw.lt_next, hw.reported_lt, ?_, ?_, hw.request, hw.attempt_pos,
        hw.codes_ahead⟩, ?_, ?_, h.starts⟩
      · exact (if_neg fun hne => hne.2 rfl).trans h.host_client
      · intro p hp
        have hc := hw.clients p hp
        simp only [if_true, sendToClients_client]
        by_cases hne : p = host
        · rw [if_neg fun hh => hh.2 hne]
          exact hc
        · rw [if_pos ⟨hp, hne⟩]
          have hold := (h.clients p hp).saves
          refine ⟨hc.bounded, hc.saves.enqueue ?_ ?_ count, hc.codes.frame rfl rfl⟩
          · exact Nat.lt_succ_of_le hold.attempt_le
          · intro m hm
            exact Nat.lt_succ_of_le (hold.ahead m hm).2
      · intro _ _
        exact Barrier.new
      · intro _ hg; cases hg

theorem Inv.requestCodes (h : Inv s) {r : Request} (hr : s.gui = some r) : Inv (s.requestCodes r) := by
  have hw := h.toWf.guiDone
  have hreq : r.syncCodes = s.wantsCodes := h.request r hr
  have hahead : s.gui.isSome = true := by rw [hr]; rfl
  simp only [State.requestCodes]
  generalize hwants : (r.syncCodes && decide (s.players.length > 1)) = wantsCodes
  cases wantsCodes with
  | false =>
      have hcodes : Wf { s with gui := none, wantsCodes := false } :=
        ⟨hw.nodup, hw.host_mem, hw.lt_next, hw.reported_lt, hw.host_client, hw.clients, (fun _ hr => by cases hr),
          hw.attempt_pos, hw.codes_ahead⟩
      by_cases hnow : r.startNow = true
      · simp only [hnow, if_true, Bool.false_eq_true, if_false]
        refine ⟨⟨hcodes.nodup, hcodes.host_mem, hcodes.lt_next, hcodes.reported_lt, hcodes.host_client,
          hcodes.clients, hcodes.request, hcodes.attempt_pos, hcodes.codes_ahead⟩, ?_, ?_, h.starts⟩
        · intro _ hahead
          rcases hahead with hp | hahead
          · cases hp
          · cases hahead
        · intro hf; cases hf
      · simp only [hnow, Bool.false_eq_true, if_false]
        refine ⟨hcodes, ?_, ?_, h.starts⟩
        · intro hs hahead
          rcases hahead with hp | hahead
          · exact h.saves hs (Or.inl hp)
          · cases hahead
        · intro hf; cases hf
  | true =>
      rw [Bool.and_eq_true, hreq] at hwants
      simp only [if_true]
      refine ⟨⟨hw.nodup, hw.host_mem, hw.lt_next, hw.reported_lt, ?_, ?_, (fun _ hr => by cases hr),
        hw.attempt_pos, hw.codes_ahead⟩, ?_, ?_, h.starts⟩
      · exact (if_neg fun hne => hne.2 rfl).trans h.host_client
      · intro p hp
        have hc := h.clients p hp
        have hlt : s.codesBound < s.attempt := by
          rw [codesBound, if_pos hahead]
          exact Nat.sub_lt (h.attempt_pos hahead) Nat.one_pos
        simp only [sendToClients_client]
        by_cases hne : p = host
        · rw [if_neg fun hh => hh.2 hne]
          exact hw.clients p hp
        · rw [if_pos ⟨hp, hne⟩]
          exact ⟨hc.bounded, hc.saves.frame rfl rfl, hc.codes.enqueue hlt r.gecko r.ar⟩
      · intro hs _
        refine h.saves hs (Or.inr ?_)
        rw [codesAhead, hahead, hwants.1]
        rfl
      · intro _ _ _
        have hnil := h.codes_ahead hahead
        have hb : Barrier s.players s.codesReported 0 false := by
          rw [hnil]
          exact Barrier.new
        exact hb

/-! ### Replies -/

/-- The state when the handler is called for the reply `r` of `p`. -/
def received (s : State) (p : Player) (r : Reply) (rs : List Reply) : State :=
  { s.setClient p { s.client p with replies := rs } with
    savesReported := if r = ⟨.saves, true, s.attempt⟩ then s.savesReported ++ [p] else s.savesReported
    codesReported := if r = ⟨.codes, true, s.attempt⟩ then s.codesReported ++ [p] else s.codesReported }

theorem record_eq {r : Reply} {rs : List Reply} (hsucc : r.success = true) :
    (s.setClient p { s.client p with replies := rs }).record p r = s.received p r rs := by
  obtain ⟨kind, success, attempt⟩ := r
  cases hsucc
  by_cases ha : attempt = s.attempt
  · subst ha
    cases kind with
    | saves => simp [record, received, State.setClient]
    | codes => simp [record, received, State.setClient]
  · simp [record, received, State.setClient, ha]

theorem count_reported {l : List Player} {c : Prop} [Decidable c] :
    (if c then l ++ [p] else l).count q = l.count q + if q = p ∧ c then 1 else 0 := by
  by_cases hc : c
  · rw [if_pos hc, List.count_append, List.count_singleton]
    by_cases hq : q = p
    · simp [hc, hq]
    · simp [hc, hq, Ne.symm hq]
  · simp [hc]

theorem Wf.ne_host (h : Wf s) {r : Reply} {rs : List Reply} (hr : (s.client p).replies = r :: rs) : p ≠ host := by
  rintro rfl
  rw [h.host_client] at hr
  cases hr

theorem Wf.received (h : Wf s) (hp : p ∈ s.players) {r : Reply} {rs : List Reply}
    (hr : (s.client p).replies = r :: rs) : Wf (s.received p r rs) := by
  have hne := h.ne_host hr
  have hmem : ∀ {l : List Player} {c : Prop} [Decidable c], (∀ q ∈ l, q < s.nextPlayer) →
      ∀ q ∈ (if c then l ++ [p] else l), q < s.nextPlayer := by
    intro l c _ hl q hq
    split at hq
    · rcases List.mem_append.mp hq with hq | hq
      · exact hl q hq
      · rw [List.mem_singleton.mp hq]
        exact h.lt_next p hp
    · exact hl q hq
  refine ⟨h.nodup, h.host_mem, h.lt_next, ?_, ?_, ?_, h.request, h.attempt_pos, ?_⟩
  · rintro q (hq | hq)
    · exact hmem (fun q hq => h.reported_lt q (Or.inl hq)) q hq
    · exact hmem (fun q hq => h.reported_lt q (Or.inr hq)) q hq
  · exact (setClient_client host).trans ((if_neg hne.symm).trans h.host_client)
  · intro q hq
    simp only [State.received, setClient_client, count_reported]
    by_cases heq : q = p
    · subst heq
      simp only [true_and, if_true]
      exact (h.clients q hq).deliver hr
    · simp only [heq, false_and, if_false, Nat.add_zero]
      exact h.clients q hq
  · intro hg
    have hgui : s.gui.isSome = true := hg
    have hc := (h.clients p hp).codes
    -- the codes of this attempt have not been sent
    have hnot : r ≠ ⟨.codes, true, s.attempt⟩ := by
      rintro rfl
      have hpos : 0 < (s.client p).replies.count ⟨.codes, true, s.attempt⟩ + s.codesReported.count p := by
        rw [hr, List.count_cons_self]
        omega
      have hle := hc.attempt_le
      rw [(hc.done hpos).1, codesBound, if_pos hgui] at hle
      have := h.attempt_pos hgui
      omega
    simp only [State.received, if_neg hnot]
    exact h.codes_ahead hg

theorem Wf.saves_nodup (h : Wf s) (hsub : ∀ p ∈ s.savesReported, p ∈ s.players ∧ p ≠ host) :
    s.savesReported.Nodup := by
  refine List.nodup_iff_count_le_one.mpr fun p => ?_
  by_cases hp : p ∈ s.savesReported
  · have := (h.clients p (hsub p hp).1).saves.once
    omega
  · rw [List.count_eq_zero.mpr hp]
    exact Nat.zero_le 1

theorem Wf.codes_nodup (h : Wf s) (hsub : ∀ p ∈ s.codesReported, p ∈ s.players ∧ p ≠ host) :
    s.codesReported.Nodup := by
  refine List.nodup_iff_count_le_one.mpr fun p => ?_
  by_cases hp : p ∈ s.codesReported
  · have := (h.clients p (hsub p hp).1).codes.once
    omega
  · rw [List.count_eq_zero.mpr hp]
    exact Nat.zero_le 1

theorem Inv.received (h : Inv s) (hp : p ∈ s.players) {r : Reply} {rs : List Reply}
    (hr : (s.client p).replies = r :: rs) : Inv (s.received p r rs) := by
  have hne := h.toWf.ne_host hr
  refine ⟨h.toWf.received hp hr, ?_, ?_, h.starts⟩
  · intro hw hahead
    have hb := h.saves hw hahead
    simp only [State.received]
    split
    · exact hb.note hp hne
    · exact hb
  · intro hw hg hpend
    have hb := h.codes hw hg hpend
    simp only [State.received]
    split
    · exact hb.note hp hne
    · exact hb

theorem Wf.flags (h : Wf s) (he : s' = { s with
    startPending := s'.startPending, isRunning := s'.isRunning, savesSynced := s'.savesSynced
    codesSynced := s'.codesSynced, saveDataSyncedPlayers := s'.saveDataSyncedPlayers
    codesSyncedPlayers := s'.codesSyncedPlayers, starts := s'.starts }) : Wf s' := by
  rw [he]
  exact ⟨h.nodup, h.host_mem, h.lt_next, h.reported_lt, h.host_client, h.clients, h.request, h.attempt_pos,
    h.codes_ahead⟩

theorem Inv.check (h : Inv s) (hpend : s.startPending = true)
    (hahead : s.savesSynced = true → s.codesSynced = true → s.codesAhead = false) :
    Inv s.checkSyncAndStartGame := by
  rw [checkSyncAndStartGame]
  split
  · next hsync =>
      have hno := hahead hsync.1 hsync.2
      refine ⟨h.toWf.flags rfl, ?_, ?_, ?_⟩
      · intro _ hguard
        rcases hguard with hp | hg
        · cases hp
        · exact absurd (hno.symm.trans hg) Bool.false_ne_true
      · intro _ _ hp
        cases hp
      · intro b hb
        rcases List.mem_append.mp hb with hb | hb
        · exact h.starts b hb
        · rw [List.mem_singleton.mp hb, decide_eq_true_eq]
          intro p hp hne
          refine ⟨fun hw => (h.saves hw (Or.inl hpend)).all hsync.1 p hp hne, fun hw => ?_⟩
          have hgui : s.gui = none := by
            rw [codesAhead, hw, Bool.and_true] at hno
            exact Option.isSome_eq_false_iff.mp hno |> Option.isNone_iff_eq_none.mp
          exact (h.codes hw hgui hpend).all hsync.2 p hp hne
  · exact h

theorem Inv.onSuccess (h : Inv s) (hp : p ∈ s.players) {r : Reply} {rs : List Reply}
    (hr : (s.client p).replies = r :: rs) (hsucc : r.success = true)
    (hok : s.startPending = true → (s.awaits r.kind = true → r.attempt = s.attempt) ∧
      (s.codesAhead = true → s.completes r.kind = false)) :
    Inv ((s.received p r rs).onSuccess r.kind) := by
  have hne := h.toWf.ne_host hr
  have hrec := h.received hp hr
  have hw := hrec.toWf
  by_cases hpend : s.startPending = true
  · obtain ⟨hcurrent, hfull⟩ := hok hpend
    obtain ⟨kind, success, attempt⟩ := r
    cases hsucc
    cases kind with
    | saves =>
        -- the barrier of the saves, if the attempt wants them
        have hb : s.wantsSaves = true → ∀ {count : Nat} {synced : Bool},
            Barrier s.players s.savesReported count synced →
            Barrier s.players (s.received p ⟨.saves, true, attempt⟩ rs).savesReported (count + 1) synced ∧
            (count + 1 ≥ s.players.length - 1 →
              Barrier s.players (s.received p ⟨.saves, true, attempt⟩ rs).savesReported (count + 1) true) := by
          intro hwant count synced hb
          have ha : attempt = s.attempt := hcurrent hwant
          have hrep : (s.received p ⟨.saves, true, attempt⟩ rs).savesReported = s.savesReported ++ [p] := by
            simp only [State.received, ha, if_true]
          rw [hrep]
          refine hb.success hp hne h.host_mem ?_
          rw [← hrep]
          exact hw.saves_nodup (by rw [hrep]; exact (hb.note hp hne).sub)
        simp only [State.onSuccess]
        rw [if_pos (show (s.received p ⟨.saves, true, attempt⟩ rs).startPending = true from hpend)]
        split
        · next hge =>
            refine Inv.check ⟨hw.flags rfl, ?_, hrec.codes, hrec.starts⟩ hpend ?_
            · intro hwant _
              exact (hb hwant (h.saves hwant (Or.inl hpend))).2 hge
            · intro _ hcodes
              have hno : s.codesAhead = false := by
                cases hahead : s.codesAhead with
                | false => rfl
                | true =>
                    have hnot := hfull hahead
                    simp only [completes, decide_eq_false_iff_not] at hnot
                    exact absurd ⟨hge, hcodes⟩ hnot
              exact hno
        · refine ⟨hw.flags rfl, ?_, hrec.codes, hrec.starts⟩
          intro hwant _
          exact (hb hwant (h.saves hwant (Or.inl hpend))).1
    | codes =>
        have hb : s.wantsCodes = true → s.gui = none → ∀ {count : Nat} {synced : Bool},
            Barrier s.players s.codesReported count synced →
            Barrier s.players (s.received p ⟨.codes, true, attempt⟩ rs).codesReported (count + 1) synced ∧
            (count + 1 ≥ s.players.length - 1 →
              Barrier s.players (s.received p ⟨.codes, true, attempt⟩ rs).codesReported (count + 1) true) := by
          intro hwant hgui count synced hb
          have ha : attempt = s.attempt := hcurrent (by rw [awaits, hwant, hgui]; rfl)
          have hrep : (s.received p ⟨.codes, true, attempt⟩ rs).codesReported = s.codesReported ++ [p] := by
            simp only [State.received, ha, if_true]
          rw [hrep]
          refine hb.success hp hne h.host_mem ?_
          rw [← hrep]
          exact hw.codes_nodup (by rw [hrep]; exact (hb.note hp hne).sub)
        simp only [State.onSuccess]
        rw [if_pos (show (s.received p ⟨.codes, true, attempt⟩ rs).startPending = true from hpend)]
        split
        · next hge =>
            refine Inv.check ⟨hw.flags rfl, hrec.saves, ?_, hrec.starts⟩ hpend ?_
            · intro hwant hgui _
              exact (hb hwant hgui (h.codes hwant hgui hpend)).2 hge
            · intro hsaves _
              have hno : s.codesAhead = false := by
                cases hahead : s.codesAhead with
                | false => rfl
                | true =>
                    have hnot := hfull hahead
                    simp only [completes, decide_eq_false_iff_not] at hnot
                    exact absurd ⟨hge, hsaves⟩ hnot
              exact hno
        · refine ⟨hw.flags rfl, hrec.saves, ?_, hrec.starts⟩
          intro hwant hgui _
          exact (hb hwant hgui (h.codes hwant hgui hpend)).1
  · have hno : ¬ (s.received p r rs).startPending = true := hpend
    have heq : (s.received p r rs).onSuccess r.kind = s.received p r rs := by
      cases r.kind with
      | saves => exact if_neg hno
      | codes => exact if_neg hno
    rw [heq]
    exact hrec

theorem Inv.failure (h : Inv s) (hp : p ∈ s.players) {r : Reply} {rs : List Reply}
    (hr : (s.client p).replies = r :: rs) (hfail : r.success = false) :
    Inv (s.setClient p { s.client p with replies := rs }) := by
  have hdel := (h.clients p hp).deliver hr
  have hnot : ∀ kind, r ≠ ⟨kind, true, s.attempt⟩ := by
    rintro kind rfl
    cases hfail
  rw [if_neg (hnot .saves), if_neg (hnot .codes)] at hdel
  exact h.setClient (fun hhost => absurd hhost (h.toWf.ne_host hr)) hdel

theorem Inv.step (h : Inv s) {op : Op} (hok : s.Orderly op) (hs : s.step op = some s') : Inv s' := by
  cases op with
  | connect =>
      simp only [State.step] at hs
      split at hs
      · cases hs
      · next hno => cases hs; exact h.connect (by simpa using not_or.mp hno |>.2) hok
  | disconnect p =>
      simp only [State.step] at hs
      split at hs
      · next hp => cases hs; exact h.disconnect hp.2 hok
      · cases hs
  | requestSaves savedataLoad syncCodes count gecko ar =>
      simp only [State.step] at hs
      split at hs
      · next hgui => cases hs; exact h.requestSaves (Option.isNone_iff_eq_none.mp hgui) ..
      · cases hs
  | requestCodes =>
      obtain ⟨r, hr, rfl⟩ := Option.map_eq_some_iff.mp hs
      exact h.requestCodes hr
  | syncSaveDataFails =>
      simp only [State.step] at hs
      split at hs
      · cases hs; exact h.fail s.codesSynced
      · cases hs
  | syncCodesFails =>
      simp only [State.step] at hs
      split at hs
      · cases hs; exact h.fail false
      · cases hs
  | abortGameStart => cases hs; exact h.abort
  | stopGame =>
      cases hs
      exact ⟨h.toWf.flags rfl, h.saves, h.codes, h.starts⟩
  | saveNotify p =>
      simp only [State.step] at hs
      split at hs
      · next hp =>
          cases hin : (s.client p).saveInbox with
          | nil => rw [hin] at hs; cases hs
          | cons sync syncs =>
              rw [hin] at hs
              cases hs
              refine h.setClient ?_ ((h.clients p hp).notify hin)
              rintro rfl
              rw [h.host_client] at hin
              cases hin
      · cases hs
  | saveData p success =>
      simp only [State.step] at hs
      split at hs
      · next hp =>
          cases hs
          refine h.setClient ?_ ((h.clients p hp.1).data hp.2 success)
          rintro rfl
          rw [h.host_client] at hp
          cases hp.2
      · cases hs
  | staleSaveData p success =>
      simp only [State.step] at hs
      split at hs
      · next hp =>
          cases hs
          cases hok
          refine h.setClient ?_ (h.clients p hp.1).staleFailure
          rintro rfl
          rw [h.host_client] at hp
          cases hp.2
      · cases hs
  | codes p =>
      simp only [State.step] at hs
      split at hs
      · next hp =>
          cases hs
          refine h.setClient ?_ ((h.clients p hp).onSyncCodes codesBound_le)
          rintro rfl
          rw [h.host_client]
          rfl
      · cases hs
  | deliver p =>
      simp only [State.step] at hs
      split at hs
      · next hp =>
          cases hr : (s.client p).replies with
          | nil => rw [hr] at hs; cases hs
          | cons r rs =>
              rw [hr] at hs
              cases hs
              rw [onReply]
              cases hsucc : r.success with
              | true =>
                  rw [if_pos rfl, record_eq hsucc]
                  refine h.onSuccess hp hr hsucc ?_
                  exact hok r (by rw [hr]; rfl) hsucc
              | false =>
                  rw [if_neg Bool.false_ne_true]
                  exact (h.failure hp hr hsucc).abort
      · cases hs

def staleSuccesses : List Op :=
  [.connect, .connect, .requestSaves true false 0 0 0, .requestCodes, .saveNotify 1, .saveNotify 2,
    .abortGameStart, .requestSaves true false 0 0 0, .requestCodes, .deliver 1, .deliver 2]

def savesBeforeCodes : List Op :=
  [.connect, .requestSaves true true 0 0 0, .saveNotify 1, .deliver 1]

end State

end Karphin.NetPlay.StartBarrier
