import Karphin.Lib.FinNumerals
import Karphin.Lib.Transition

/-!
# Desync detection

`NetPlayClient::SendTimeBase` and the `TimeBase` case of `NetPlayServer::OnData`, with the messages in flight.
A player stands for one connection. The source gives the id of a departed player to a later one; it compares
ids only to choose whom to blame.
-/

namespace Karphin.NetPlay.Desync

abbrev Player := Nat

/-- A `TimeBase` message. The game it was sent in is not part of the packet. -/
structure TimeBase where
  game : Nat
  frame : Nat
  timebase : Nat
deriving DecidableEq

/-- A client: the last game it was told to start, the game it runs (0 for none), `m_timebase_frame` and its
messages on the way to the server. -/
structure Client where
  invited : Nat := 0
  game : Nat := 0
  timebaseFrame : Nat := 0
  outbox : List TimeBase := []

structure Report where
  player : Player
  frame : Nat
  timebase : Nat
deriving DecidableEq

structure State where
  players : List Player := []
  nextPlayer : Player := 0
  client : Player → Client := fun _ => {}
  isRunning : Bool := false
  game : Nat := 1
  timebaseByFrame : Nat → List (Player × Nat) := fun _ => []
  desyncDetected : Bool := false
  /-- The `DesyncDetected` messages of the current game: whom to blame, and the frame. -/
  sent : List (Player × Nat) := []
  reports : List Report := []

namespace State

def setClient (s : State) (p : Player) (c : Client) : State := { s with client := Function.update s.client p c }

def pidToBlame (timebases : List (Player × Nat)) : Player :=
  ((timebases.find? fun pair => timebases.all fun other => other.1 = pair.1 ∨ other.2 ≠ pair.2).map
    Prod.fst).getD 0

def allEqual : List (Player × Nat) → Bool
  | [] => true
  | t :: ts => (t :: ts).all fun pair => pair.2 = t.2

def onTimeBase (s : State) (p : Player) (frame timebase : Nat) : State :=
  if s.desyncDetected then s
  else
    let timebases := s.timebaseByFrame frame ++ [(p, timebase)]
    if timebases.length ≥ s.players.length then
      let s := { s with timebaseByFrame := Function.update s.timebaseByFrame frame [] }
      if allEqual timebases then s
      else { s with sent := s.sent ++ [(pidToBlame timebases, frame)], desyncDetected := true }
    else { s with timebaseByFrame := Function.update s.timebaseByFrame frame timebases }

def record (s : State) (p : Player) (m : TimeBase) : State :=
  { s with reports := if m.game = s.game then s.reports ++ [⟨p, m.frame, m.timebase⟩] else s.reports }

/-- `StartGame`: every connected client is told. -/
def startGame (s : State) : State :=
  { s with
    isRunning := true
    game := s.game + 1
    client := fun p => if p ∈ s.players then { s.client p with invited := s.game + 1 } else s.client p
    timebaseByFrame := fun _ => []
    desyncDetected := false
    sent := []
    reports := [] }

def sendTimeBase (c : Client) (timebase : Nat) : Client :=
  { c with
    outbox := if c.timebaseFrame % 60 = 0 then c.outbox ++ [⟨c.game, c.timebaseFrame, timebase⟩] else c.outbox
    timebaseFrame := c.timebaseFrame + 1 }

inductive Op
  | connect
  | disconnect (p : Player)
  | startGame
  | stopGame
  | clientStart (p : Player)
  | sendTimeBase (p : Player) (timebase : Nat)
  | deliver (p : Player)

def step (s : State) : Op → Option State
  | .connect =>
      if s.isRunning then none
      else some { s.setClient s.nextPlayer {} with
        players := s.players ++ [s.nextPlayer], nextPlayer := s.nextPlayer + 1 }
  | .disconnect p => if p ∈ s.players then some { s with players := s.players.erase p } else none
  | .startGame => some s.startGame
  | .stopGame => some { s with isRunning := false }
  | .clientStart p =>
      if p ∈ s.players ∧ (s.client p).game < (s.client p).invited then
        some (s.setClient p { s.client p with game := (s.client p).invited, timebaseFrame := 0 })
      else none
  | .sendTimeBase p timebase =>
      if p ∈ s.players ∧ (s.client p).game ≠ 0 then
        some (s.setClient p (sendTimeBase (s.client p) timebase))
      else none
  | .deliver p =>
      if p ∈ s.players then
        match (s.client p).outbox with
        | [] => none
        | m :: ms =>
            some (((s.setClient p { s.client p with outbox := ms }).record p m).onTimeBase p m.frame m.timebase)
      else none

/-! ## What detection promises -/

/-- `DesyncDetected` is sent only if two players reported different time bases for one frame. -/
def Sound (s : State) : Prop :=
  s.sent ≠ [] → ∃ r ∈ s.reports, ∃ r' ∈ s.reports,
    r.player ≠ r'.player ∧ r.frame = r'.frame ∧ r.timebase ≠ r'.timebase

def Complete (s : State) : Prop :=
  ∀ frame, (∀ p ∈ s.players, ∃ r ∈ s.reports, r.player = p ∧ r.frame = frame) →
    (∃ r ∈ s.reports, ∃ r' ∈ s.reports, r.player ∈ s.players ∧ r'.player ∈ s.players ∧
      r.frame = frame ∧ r'.frame = frame ∧ r.timebase ≠ r'.timebase) → s.sent ≠ []

/-- The departure of `p` does no harm to the bucket: the others have all reported the same value, or `p` has
not reported and neither has another player who stays. -/
def SafeBucket (s : State) (p : Player) (bucket : List (Player × Nat)) : Prop :=
  (allEqual bucket = true ∧ ∀ q ∈ s.players, q ≠ p → q ∈ bucket.map Prod.fst) ∨
  (p ∉ bucket.map Prod.fst ∧ ∃ q ∈ s.players, q ≠ p ∧ q ∉ bucket.map Prod.fst)

def Orderly (s : State) : Op → Prop
  | .deliver p => s.desyncDetected = true ∨ ∀ m ∈ (s.client p).outbox.head?, m.game = s.game
  | .disconnect p => s.desyncDetected = true ∨
      ∀ frame, s.timebaseByFrame frame ≠ [] → s.SafeBucket p (s.timebaseByFrame frame)
  | _ => True

end State

end Karphin.NetPlay.Desync

/-!
# Desync detection is sound and complete in orderly runs
-/

namespace Karphin.NetPlay.Desync

open Karphin.Lib

namespace State

variable {s s' : State} {p q : Player} {frame : Nat}

def reportsOf (s : State) (frame : Nat) : List (Player × Nat) :=
  (s.reports.filter (·.frame = frame)).map fun r => (r.player, r.timebase)

theorem mem_reportsOf {x : Player × Nat} :
    x ∈ s.reportsOf frame ↔ ∃ r ∈ s.reports, r.frame = frame ∧ (r.player, r.timebase) = x := by
  simp only [reportsOf, List.mem_map, List.mem_filter, decide_eq_true_eq, and_assoc]

theorem allEqual_iff {l : List (Player × Nat)} : allEqual l = true ↔ ∀ x ∈ l, ∀ y ∈ l, x.2 = y.2 := by
  cases l with
  | nil => simp [allEqual]
  | cons t ts =>
      simp only [allEqual, List.all_eq_true, decide_eq_true_eq]
      constructor
      · intro h x hx y hy
        rw [h x hx, h y hy]
      · intro h x hx
        exact h x hx t List.mem_cons_self

/-! ## The clients -/

/-- What a client sends for a game comes in the order of the frames, each frame once. -/
structure ClientOk (c : Client) (game : Nat) : Prop where
  game_le : c.game ≤ c.invited
  invited_le : c.invited ≤ game
  sorted : c.outbox.Pairwise fun m m' => m.game = m'.game → m.frame < m'.frame
  sent : ∀ m ∈ c.outbox, m.game ≤ c.game ∧ (m.game = c.game → m.frame < c.timebaseFrame)

/-- The frames already reported in the current game lie before those still to come. -/
structure ReportOk (c : Client) (game frame : Nat) : Prop where
  game_eq : c.game = game
  lt : frame < c.timebaseFrame
  before : ∀ m ∈ c.outbox, m.game = game → frame < m.frame

/-! ## The buckets -/

def Done (s : State) (frame : Nat) : Prop :=
  (∀ p ∈ s.players, (s.client p).invited = s.game → ∃ r ∈ s.reports, r.player = p ∧ r.frame = frame) ∧
  ∀ x ∈ s.reportsOf frame, ∀ y ∈ s.reportsOf frame, x.2 = y.2

/-- The bucket holds all reports of the frame, and somebody is missing. -/
structure Waiting (s : State) (frame : Nat) : Prop where
  bucket : s.timebaseByFrame frame = s.reportsOf frame
  connected : ∀ x ∈ s.reportsOf frame, x.1 ∈ s.players
  missing : (s.reportsOf frame).length < s.players.length

structure Wf (s : State) : Prop where
  nodup : s.players.Nodup
  lt_next : ∀ p ∈ s.players, p < s.nextPlayer
  game_pos : 1 ≤ s.game
  clients : ∀ p ∈ s.players, ClientOk (s.client p) s.game
  reports_once : s.reports.Pairwise fun r r' => r.player = r'.player → r.frame ≠ r'.frame
  reports_lt : ∀ r ∈ s.reports, r.player < s.nextPlayer
  reports : ∀ r ∈ s.reports, r.player ∈ s.players → ReportOk (s.client r.player) s.game r.frame

structure Inv (s : State) : Prop extends Wf s where
  sent_iff : s.sent ≠ [] ↔ s.desyncDetected = true
  sound : s.Sound
  buckets : s.desyncDetected = false → ∀ frame, s.Done frame ∨ s.Waiting frame

theorem Inv.init : Inv {} := by
  refine ⟨⟨List.nodup_nil, ?_, Nat.le_refl 1, ?_, List.Pairwise.nil, ?_, ?_⟩, by simp, ?_, ?_⟩
  · intro p hp; cases hp
  · intro p hp; cases hp
  · intro r hr; cases hr
  · intro r hr; cases hr
  · intro h; exact absurd rfl h
  · intro _ frame
    refine Or.inl ⟨?_, ?_⟩
    · intro p hp; cases hp
    · intro x hx; cases hx

theorem Wf.reporters_nodup (h : Wf s) (frame : Nat) : ((s.reportsOf frame).map Prod.fst).Nodup := by
  have hp := h.reports_once.filter (fun r => decide (r.frame = frame))
  rw [reportsOf, List.map_map]
  refine List.Pairwise.map _ (fun _ _ hne => hne) (hp.imp_of_mem ?_)
  intro r r' hr hr' hne heq
  simp only [List.mem_filter, decide_eq_true_eq] at hr hr'
  exact hne heq (hr.2.trans hr'.2.symm)

theorem Wf.report_unique (h : Wf s) {r r' : Report} (hr : r ∈ s.reports) (hr' : r' ∈ s.reports)
    (hf : r.frame = r'.frame) (ht : r.timebase ≠ r'.timebase) : r.player ≠ r'.player := by
  intro hp
  obtain ⟨i, hi, rfl⟩ := List.getElem_of_mem hr
  obtain ⟨j, hj, rfl⟩ := List.getElem_of_mem hr'
  have hpw := List.pairwise_iff_getElem.mp h.reports_once
  rcases Nat.lt_trichotomy i j with hlt | rfl | hlt
  · exact hpw i j hi hj hlt hp hf
  · exact ht rfl
  · exact hpw j i hj hi hlt hp.symm hf.symm

/-! ## Completeness -/

theorem Inv.complete (h : Inv s) : s.Complete := by
  rintro frame hall ⟨r, hr, r', hr', -, -, hf, hf', hne⟩
  rw [h.sent_iff]
  by_contra hno
  rcases h.buckets (by simpa using hno) frame with hdone | hwait
  · exact hne (hdone.2 _ (mem_reportsOf.mpr ⟨r, hr, hf, rfl⟩) _ (mem_reportsOf.mpr ⟨r', hr', hf', rfl⟩))
  · -- everybody has reported, so nobody is missing
    have hsub : s.players ⊆ (s.reportsOf frame).map Prod.fst := by
      intro p hp
      obtain ⟨r, hr, rfl, hf⟩ := hall p hp
      exact List.mem_map.mpr ⟨_, mem_reportsOf.mpr ⟨r, hr, hf, rfl⟩, rfl⟩
    have hle := (h.nodup.subperm hsub).length_le
    rw [List.length_map] at hle
    exact absurd hwait.missing (Nat.not_lt.mpr hle)

/-! ## Delivery -/

/-- The state when the handler is called for the message `m` of `p`. -/
def received (s : State) (p : Player) (m : TimeBase) (ms : List TimeBase) : State :=
  (s.setClient p { s.client p with outbox := ms }).record p m

theorem received_client {m : TimeBase} {ms : List TimeBase} (q : Player) :
    (s.received p m ms).client q = if q = p then { s.client p with outbox := ms } else s.client q := by
  simp only [received, record, setClient, Function.update_apply]

theorem received_reports {m : TimeBase} {ms : List TimeBase} : (s.received p m ms).reports =
    if m.game = s.game then s.reports ++ [⟨p, m.frame, m.timebase⟩] else s.reports := rfl

theorem mem_received {m : TimeBase} {ms : List TimeBase} {r : Report} (h : r ∈ (s.received p m ms).reports) :
    r ∈ s.reports ∨ m.game = s.game ∧ r = ⟨p, m.frame, m.timebase⟩ := by
  rw [received_reports] at h
  by_cases hg : m.game = s.game
  · rw [if_pos hg, List.mem_append, List.mem_singleton] at h
    exact h.imp_right fun he => ⟨hg, he⟩
  · rw [if_neg hg] at h
    exact Or.inl h

theorem Wf.received (h : Wf s) (hp : p ∈ s.players) {m : TimeBase} {ms : List TimeBase}
    (hout : (s.client p).outbox = m :: ms) : Wf (s.received p m ms) := by
  have hc := h.clients p hp
  have hsorted := hc.sorted
  have hsent := hc.sent
  rw [hout] at hsorted hsent
  rw [List.pairwise_cons] at hsorted
  have hm := hsent m List.mem_cons_self
  refine ⟨h.nodup, h.lt_next, h.game_pos, ?_, ?_, ?_, ?_⟩
  · intro q hq
    rw [received_client]
    split
    · exact ⟨hc.game_le, hc.invited_le, hsorted.2, fun m' hm' => hsent m' (List.mem_cons_of_mem m hm')⟩
    · exact h.clients q hq
  · rw [received_reports]
    by_cases hgame : m.game = s.game
    · rw [if_pos hgame]
      refine List.pairwise_append.mpr ⟨h.reports_once, List.pairwise_singleton _ _, ?_⟩
      intro r hr r' hr' hplayer hframe
      rw [List.mem_singleton] at hr'
      subst hr'
      have hok := h.reports r hr (hplayer ▸ hp)
      have hlt := hok.before m (by rw [hplayer, hout]; exact List.mem_cons_self) hgame
      exact absurd hframe (Nat.ne_of_lt hlt)
    · rw [if_neg hgame]
      exact h.reports_once
  · intro r hr
    rcases mem_received hr with hr | ⟨-, rfl⟩
    · exact h.reports_lt r hr
    · exact h.lt_next p hp
  · intro r hr hplayer
    rw [received_client]
    rcases mem_received hr with hr | ⟨hgame, rfl⟩
    · have hok := h.reports r hr hplayer
      by_cases heq : r.player = p
      · rw [if_pos heq]
        rw [heq] at hok
        refine ⟨hok.game_eq, hok.lt, fun m' hm' => hok.before m' ?_⟩
        rw [hout]
        exact List.mem_cons_of_mem m hm'
      · rw [if_neg heq]
        exact hok
    · rw [if_pos rfl]
      have hcg : (s.client p).game = s.game :=
        Nat.le_antisymm (Nat.le_trans hc.game_le hc.invited_le) (hgame ▸ hm.1)
      exact ⟨hcg, hm.2 (hgame.trans hcg.symm), fun m' hm' hg' => hsorted.1 m' hm' (hgame.trans hg'.symm)⟩

theorem reportsOf_received {m : TimeBase} {ms : List TimeBase} (hgame : m.game = s.game) (frame : Nat) :
    (s.received p m ms).reportsOf frame =
      if m.frame = frame then s.reportsOf frame ++ [(p, m.timebase)] else s.reportsOf frame := by
  simp only [reportsOf, received_reports, if_pos hgame, List.filter_append, List.map_append]
  by_cases hf : m.frame = frame
  · rw [if_pos hf]
    simp [hf]
  · rw [if_neg hf]
    simp [hf]

structure Handled (s s' : State) : Prop where
  rest : s' = { s with
    timebaseByFrame := s'.timebaseByFrame, desyncDetected := s'.desyncDetected, sent := s'.sent }

theorem Wf.handled (h : Wf s) (hh : Handled s s') : Wf s' := by
  rw [hh.rest]
  exact ⟨h.nodup, h.lt_next, h.game_pos, h.clients, h.reports_once, h.reports_lt, h.reports⟩

theorem onTimeBase_handled (s : State) (p : Player) (frame timebase : Nat) :
    Handled s (s.onTimeBase p frame timebase) := by
  unfold onTimeBase
  dsimp only
  split
  · exact ⟨rfl⟩
  · split
    · split
      · exact ⟨rfl⟩
      · exact ⟨rfl⟩
    · exact ⟨rfl⟩

theorem Sound.mono (h : s.Sound) (hr : ∀ r ∈ s.reports, r ∈ s'.reports) (hs : s'.sent = s.sent) :
    s'.Sound := by
  intro hne
  obtain ⟨r, hr₁, r', hr₂, hrest⟩ := h (hs ▸ hne)
  exact ⟨r, hr r hr₁, r', hr r' hr₂, hrest⟩

theorem Wf.not_reported (h : Wf s) (hp : p ∈ s.players) {m : TimeBase} (hm : m ∈ (s.client p).outbox)
    (hgame : m.game = s.game) : (s.client p).invited = s.game ∧
      ¬ ∃ r ∈ s.reports, r.player = p ∧ r.frame = m.frame := by
  have hc := h.clients p hp
  refine ⟨Nat.le_antisymm hc.invited_le ?_, ?_⟩
  · exact hgame ▸ Nat.le_trans (hc.sent m hm).1 hc.game_le
  · rintro ⟨r, hr, rfl, hf⟩
    exact absurd hf (Nat.ne_of_lt ((h.reports r hr hp).before m hm hgame))

theorem other_frame {m : TimeBase} {ms : List TimeBase} (hgame : m.game = s.game) (hne : m.frame ≠ frame)
    (hh : Handled (s.received p m ms) s') (hb : s'.timebaseByFrame frame = s.timebaseByFrame frame)
    (h : s.Done frame ∨ s.Waiting frame) : s'.Done frame ∨ s'.Waiting frame := by
  have hreports : s'.reports = (s.received p m ms).reports := by rw [hh.rest]
  have hplayers : s'.players = s.players := by rw [hh.rest]; rfl
  have hgame' : s'.game = s.game := by rw [hh.rest]; rfl
  have hclient : s'.client = (s.received p m ms).client := by rw [hh.rest]
  have hof : s'.reportsOf frame = s.reportsOf frame := by
    have hsame : (s.received p m ms).reportsOf frame = s.reportsOf frame := by
      rw [reportsOf_received hgame, if_neg hne]
    rw [← hsame, reportsOf, hreports]
    rfl
  have hsub : ∀ r ∈ s.reports, r ∈ s'.reports := by
    intro r hr
    rw [hreports, received_reports, if_pos hgame]
    exact List.mem_append_left _ hr
  rcases h with hdone | hwait
  · refine Or.inl ⟨?_, by rw [hof]; exact hdone.2⟩
    intro q hq hinv
    rw [hplayers] at hq
    rw [hclient, received_client, hgame'] at hinv
    have hinv' : (s.client q).invited = s.game := by
      by_cases hqp : q = p
      · subst hqp
        rw [if_pos rfl] at hinv
        exact hinv
      · rw [if_neg hqp] at hinv
        exact hinv
    obtain ⟨r, hr, hrest⟩ := hdone.1 q hq hinv'
    exact ⟨r, hsub r hr, hrest⟩
  · refine Or.inr ⟨?_, ?_, ?_⟩
    · rw [hb, hof]; exact hwait.bucket
    · rw [hof, hplayers]; exact hwait.connected
    · rw [hof, hplayers]; exact hwait.missing

theorem Inv.deliver (h : Inv s) (hp : p ∈ s.players) {m : TimeBase} {ms : List TimeBase}
    (hout : (s.client p).outbox = m :: ms) (hok : s.desyncDetected = true ∨ m.game = s.game) :
    Inv ((s.received p m ms).onTimeBase p m.frame m.timebase) := by
  have hwf := h.toWf.received hp hout
  have hh := onTimeBase_handled (s.received p m ms) p m.frame m.timebase
  have hwf' := hwf.handled hh
  cases hd : s.desyncDetected with
  | true =>
      have heq : (s.received p m ms).onTimeBase p m.frame m.timebase = s.received p m ms := if_pos hd
      rw [heq] at hwf' ⊢
      refine ⟨hwf', h.sent_iff, ?_, fun hno => absurd (hd.symm.trans hno) (by simp)⟩
      refine h.sound.mono ?_ rfl
      intro r hr
      rw [received_reports]
      by_cases hg : m.game = s.game
      · rw [if_pos hg]; exact List.mem_append_left _ hr
      · rw [if_neg hg]; exact hr
  | false =>
      have hgame : m.game = s.game := hok.resolve_left (by simp [hd])
      obtain ⟨hinv, hnot⟩ := h.toWf.not_reported hp (hout ▸ List.mem_cons_self) hgame
      have hwait : s.Waiting m.frame := by
        refine (h.buckets hd m.frame).resolve_left ?_
        intro hdone
        exact hnot (hdone.1 p hp hinv)
      have hof : (s.received p m ms).reportsOf m.frame = s.timebaseByFrame m.frame ++ [(p, m.timebase)] := by
        rw [reportsOf_received hgame, if_pos rfl, hwait.bucket]
      have hconn : ∀ x ∈ (s.received p m ms).reportsOf m.frame, x.1 ∈ s.players := by
        intro x hx
        rw [hof, List.mem_append, List.mem_singleton] at hx
        rcases hx with hx | rfl
        · exact hwait.connected x (hwait.bucket ▸ hx)
        · exact hp
      have hnosent : s.sent = [] := by
        by_contra hne
        exact absurd (h.sent_iff.mp hne) (by simp [hd])
      have hupd : ∀ (l : List (Player × Nat)) (f : Nat), m.frame ≠ f →
          Function.update s.timebaseByFrame m.frame l f = s.timebaseByFrame f := by
        intro l f hne
        exact Function.update_of_ne (Ne.symm hne) _ _
      have hothers : ∀ {s' : State}, Handled (s.received p m ms) s' →
          (∀ f, m.frame ≠ f → s'.timebaseByFrame f = s.timebaseByFrame f) →
          (s'.Done m.frame ∨ s'.Waiting m.frame) → ∀ f, s'.Done f ∨ s'.Waiting f := by
        intro s' hh' hb hm f
        by_cases hf : m.frame = f
        · exact hf ▸ hm
        · exact other_frame hgame hf hh' (hb f hf) (h.buckets hd f)
      unfold onTimeBase at hh hwf' ⊢
      rw [if_neg (by rw [show (s.received p m ms).desyncDetected = false from hd]; simp)] at hh hwf' ⊢
      dsimp only at hh hwf' ⊢
      rw [show (s.received p m ms).timebaseByFrame m.frame = s.timebaseByFrame m.frame from rfl, ← hof]
        at hh hwf' ⊢
      by_cases hfull : ((s.received p m ms).reportsOf m.frame).length ≥ (s.received p m ms).players.length
      · rw [if_pos hfull] at hh hwf' ⊢
        by_cases heq : allEqual ((s.received p m ms).reportsOf m.frame) = true
        · rw [if_pos heq] at hh hwf' ⊢
          refine ⟨hwf', h.sent_iff, ?_, fun _ => hothers hh (hupd []) (Or.inl ⟨?_, ?_⟩)⟩
          · intro hne; exact absurd hnosent hne
          · -- the reporters are as many as the players, so they are the players
            intro q hq _
            have hsub : ((s.received p m ms).reportsOf m.frame).map Prod.fst ⊆ s.players := by
              intro x hx
              obtain ⟨y, hy, rfl⟩ := List.mem_map.mp hx
              exact hconn y hy
            have hperm := ((hwf.reporters_nodup m.frame).subperm hsub).perm_of_length_le
              (by rw [List.length_map]; exact hfull)
            obtain ⟨x, hx, rfl⟩ := List.mem_map.mp (hperm.mem_iff.mpr hq)
            obtain ⟨r, hr, hf, rfl⟩ := mem_reportsOf.mp hx
            exact ⟨r, hr, rfl, hf⟩
          · exact allEqual_iff.mp heq
        · rw [if_neg heq] at hh hwf' ⊢
          refine ⟨hwf', by simp, ?_, fun hno => absurd hno (by simp)⟩
          intro _
          rw [allEqual_iff] at heq
          simp only [not_forall] at heq
          obtain ⟨x, hx, y, hy, hne⟩ := heq
          obtain ⟨r, hr, hf, rfl⟩ := mem_reportsOf.mp hx
          obtain ⟨r', hr', hf', rfl⟩ := mem_reportsOf.mp hy
          exact ⟨r, hr, r', hr', hwf.report_unique hr hr' (hf.trans hf'.symm) hne, hf.trans hf'.symm, hne⟩
      · rw [if_neg hfull] at hh hwf' ⊢
        refine ⟨hwf', h.sent_iff, ?_, fun _ => hothers hh (hupd _) (Or.inr ⟨?_, hconn, ?_⟩)⟩
        · intro hne; exact absurd hnosent hne
        · exact Function.update_self ..
        · exact Nat.lt_of_not_le hfull

/-! ## The other events -/

theorem Inv.setClient (h : Inv s) {c : Client} (hinv : c.invited = (s.client p).invited)
    (hc : p ∈ s.players → ClientOk c s.game)
    (hr : ∀ r ∈ s.reports, r.player = p → p ∈ s.players → ReportOk c s.game r.frame) :
    Inv (s.setClient p c) := by
  have hclient : ∀ q, (s.setClient p c).client q = if q = p then c else s.client q := fun q =>
    Function.update_apply ..
  have hinvited : ∀ q, ((s.setClient p c).client q).invited = (s.client q).invited := by
    intro q
    rw [hclient]
    by_cases hq : q = p
    · rw [if_pos hq, hq]; exact hinv
    · rw [if_neg hq]
  refine ⟨⟨h.nodup, h.lt_next, h.game_pos, ?_, h.reports_once, h.reports_lt, ?_⟩, h.sent_iff, h.sound, ?_⟩
  · intro q hq
    rw [hclient]
    by_cases heq : q = p
    · rw [if_pos heq]; exact hc (heq ▸ hq)
    · rw [if_neg heq]; exact h.clients q hq
  · intro r hr' hq
    rw [hclient]
    by_cases heq : r.player = p
    · rw [if_pos heq]; exact hr r hr' heq (heq ▸ hq)
    · rw [if_neg heq]; exact h.reports r hr' hq
  · intro hd frame
    refine (h.buckets hd frame).imp (fun hdone => ⟨?_, hdone.2⟩) fun hw => ⟨hw.bucket, hw.connected, hw.missing⟩
    intro q hq hq'
    rw [hinvited] at hq'
    exact hdone.1 q hq hq'

theorem Inv.clientStart (h : Inv s) (hp : p ∈ s.players) (hlt : (s.client p).game < (s.client p).invited) :
    Inv (s.setClient p { s.client p with game := (s.client p).invited, timebaseFrame := 0 }) := by
  have hc := h.clients p hp
  refine h.setClient rfl (fun _ => ⟨Nat.le_refl _, hc.invited_le, hc.sorted, ?_⟩) ?_
  · intro m hm
    have hle := Nat.lt_of_le_of_lt (hc.sent m hm).1 hlt
    exact ⟨Nat.le_of_lt hle, fun heq => absurd heq (Nat.ne_of_lt hle)⟩
  · -- a client that has yet to start has reported nothing
    rintro r hr rfl hp
    have := (h.reports r hr hp).game_eq
    have := hc.invited_le
    omega

theorem Inv.sendTimeBase (h : Inv s) (hp : p ∈ s.players) (timebase : Nat) :
    Inv (s.setClient p (sendTimeBase (s.client p) timebase)) := by
  have hc := h.clients p hp
  have hmem : ∀ m ∈ (State.sendTimeBase (s.client p) timebase).outbox, m ∈ (s.client p).outbox ∨
      m.game = (s.client p).game ∧ m.frame = (s.client p).timebaseFrame := by
    intro m hm
    simp only [State.sendTimeBase] at hm
    split at hm
    · rw [List.mem_append, List.mem_singleton] at hm
      exact hm.imp_right fun he => by rw [he]; exact ⟨rfl, rfl⟩
    · exact Or.inl hm
  refine h.setClient rfl (fun _ => ⟨hc.game_le, hc.invited_le, ?_, ?_⟩) ?_
  · simp only [State.sendTimeBase]
    split
    · refine List.pairwise_append.mpr ⟨hc.sorted, List.pairwise_singleton _ _, ?_⟩
      intro m hm m' hm' hg
      rw [List.mem_singleton] at hm'
      subst hm'
      exact (hc.sent m hm).2 hg
    · exact hc.sorted
  · intro m hm
    rcases hmem m hm with hm | ⟨hg, hf⟩
    · exact ⟨(hc.sent m hm).1, fun he => Nat.lt_succ_of_lt ((hc.sent m hm).2 he)⟩
    · exact ⟨Nat.le_of_eq hg, fun _ => hf ▸ Nat.lt_succ_self _⟩
  · rintro r hr rfl hp
    have hrep := h.reports r hr hp
    refine ⟨hrep.game_eq, Nat.lt_succ_of_lt hrep.lt, ?_⟩
    intro m hm hg
    rcases hmem m hm with hm | ⟨-, hf⟩
    · exact hrep.before m hm hg
    · exact hf ▸ hrep.lt

theorem Inv.startGame (h : Inv s) : Inv s.startGame := by
  have hclient : ∀ p ∈ s.players, s.startGame.client p = { s.client p with invited := s.game + 1 } :=
    fun p hp => if_pos hp
  refine ⟨⟨h.nodup, h.lt_next, Nat.le_add_left 1 s.game, ?_, List.Pairwise.nil, ?_, ?_⟩, ?_, ?_, ?_⟩
  · intro p hp
    rw [hclient p hp]
    have hc := h.clients p hp
    exact ⟨Nat.le_succ_of_le (Nat.le_trans hc.game_le hc.invited_le), Nat.le_refl _, hc.sorted, hc.sent⟩
  · intro r hr; cases hr
  · intro r hr; cases hr
  · simp [State.startGame]
  · intro hne; exact absurd rfl hne
  · intro _ frame
    cases hpl : s.players with
    | nil =>
        refine Or.inl ⟨?_, ?_⟩
        · intro p hp
          rw [show s.startGame.players = [] from hpl] at hp
          cases hp
        · intro x hx; cases hx
    | cons p ps =>
        refine Or.inr ⟨rfl, ?_, ?_⟩
        · intro x hx; cases hx
        · rw [show s.startGame.players = p :: ps from hpl]
          exact Nat.succ_pos _

theorem Inv.disconnect (h : Inv s) (hp : p ∈ s.players)
    (hok : s.desyncDetected = true ∨
      ∀ frame, s.timebaseByFrame frame ≠ [] → s.SafeBucket p (s.timebaseByFrame frame)) :
    Inv { s with players := s.players.erase p } := by
  have hmem : ∀ {q}, q ∈ s.players.erase p ↔ q ≠ p ∧ q ∈ s.players := h.nodup.mem_erase_iff
  have hlen : (s.players.erase p).length = s.players.length - 1 := List.length_erase_of_mem hp
  refine ⟨⟨h.nodup.erase p, fun q hq => h.lt_next q (hmem.mp hq).2, h.game_pos,
    fun q hq => h.clients q (hmem.mp hq).2, h.reports_once, h.reports_lt,
    fun r hr hq => h.reports r hr (hmem.mp hq).2⟩, h.sent_iff, h.sound, ?_⟩
  intro hd frame
  have hsafe := (hok.resolve_left (by simp [show s.desyncDetected = false from hd])) frame
  rcases h.buckets hd frame with hdone | hwait
  · exact Or.inl ⟨fun q hq hinv => hdone.1 q (hmem.mp hq).2 hinv, hdone.2⟩
  · rw [hwait.bucket] at hsafe
    have hdone_of : (∀ q ∈ s.players, q ≠ p → q ∈ (s.reportsOf frame).map Prod.fst) →
        (∀ x ∈ s.reportsOf frame, ∀ y ∈ s.reportsOf frame, x.2 = y.2) →
        Done { s with players := s.players.erase p } frame := by
      intro hall heq
      refine ⟨?_, heq⟩
      intro q hq _
      obtain ⟨x, hx, rfl⟩ := List.mem_map.mp (hall q (hmem.mp hq).2 (hmem.mp hq).1)
      obtain ⟨r, hr, hf, rfl⟩ := mem_reportsOf.mp hx
      exact ⟨r, hr, rfl, hf⟩
    cases hb : s.reportsOf frame with
    | nil =>
        by_cases hone : s.players.length = 1
        · -- nobody is left
          refine Or.inl ⟨?_, ?_⟩
          · intro q hq
            rw [hone] at hlen
            rw [List.eq_nil_of_length_eq_zero hlen] at hq
            cases hq
          · intro x hx
            rw [show reportsOf { s with players := s.players.erase p } frame = [] from hb] at hx
            cases hx
        · refine Or.inr ⟨hwait.bucket, ?_, ?_⟩
          · intro x hx
            rw [show reportsOf { s with players := s.players.erase p } frame = [] from hb] at hx
            cases hx
          · rw [show reportsOf { s with players := s.players.erase p } frame = [] from hb]
            have := List.length_pos_of_mem hp
            simp only [hlen, List.length_nil]
            omega
    | cons x xs =>
        rcases hsafe (by rw [hb]; simp) with ⟨heq, hall⟩ | ⟨hnot, q, hq, hqp, hqnot⟩
        · exact Or.inl (hdone_of hall (allEqual_iff.mp heq))
        · have hconn : ∀ y ∈ s.reportsOf frame, y.1 ∈ s.players.erase p := by
            intro y hy
            refine hmem.mpr ⟨?_, hwait.connected y hy⟩
            rintro rfl
            exact hnot (List.mem_map_of_mem hy)
          refine Or.inr ⟨hwait.bucket, hconn, ?_⟩
          -- `q` and the reporters stay
          have hnd : (q :: (s.reportsOf frame).map Prod.fst).Nodup :=
            List.nodup_cons.mpr ⟨hqnot, h.toWf.reporters_nodup frame⟩
          have hsub : q :: (s.reportsOf frame).map Prod.fst ⊆ s.players.erase p := by
            intro z hz
            rcases List.mem_cons.mp hz with rfl | hz
            · exact hmem.mpr ⟨hqp, hq⟩
            · obtain ⟨y, hy, rfl⟩ := List.mem_map.mp hz
              exact hconn y hy
          have hle := (hnd.subperm hsub).length_le
          rw [List.length_cons, List.length_map] at hle
          exact hle

theorem Inv.connect (h : Inv s) :
    Inv { s.setClient s.nextPlayer {} with
      players := s.players ++ [s.nextPlayer], nextPlayer := s.nextPlayer + 1 } := by
  have hnew : s.nextPlayer ∉ s.players := fun hp => Nat.lt_irrefl _ (h.lt_next _ hp)
  have hmem : ∀ {q}, q ∈ s.players ++ [s.nextPlayer] ↔ q ∈ s.players ∨ q = s.nextPlayer := by simp
  have hclient : ∀ q, (s.setClient s.nextPlayer {}).client q =
      if q = s.nextPlayer then {} else s.client q := fun q => Function.update_apply ..
  have hold : ∀ q ∈ s.players, (s.setClient s.nextPlayer {}).client q = s.client q := by
    intro q hq
    rw [hclient, if_neg]
    rintro rfl
    exact hnew hq
  refine ⟨⟨?_, ?_, h.game_pos, ?_, h.reports_once, ?_, ?_⟩, h.sent_iff, h.sound, ?_⟩
  · refine List.nodup_append.mpr ⟨h.nodup, by simp, ?_⟩
    intro a ha b hb hab
    rw [List.mem_singleton] at hb
    exact hnew (hb ▸ hab ▸ ha)
  · intro q hq
    rcases hmem.mp hq with hq | rfl
    · exact Nat.lt_succ_of_lt (h.lt_next q hq)
    · exact Nat.lt_succ_self _
  · intro q hq
    rcases hmem.mp hq with hq | rfl
    · exact (hold q hq).symm ▸ h.clients q hq
    · have : (s.setClient s.nextPlayer {}).client s.nextPlayer = {} := by rw [hclient, if_pos rfl]
      exact this.symm ▸ ⟨Nat.le_refl 0, Nat.zero_le _, List.Pairwise.nil, fun m hm => by cases hm⟩
  · intro r hr
    exact Nat.lt_succ_of_lt (h.reports_lt r hr)
  · intro r hr hq
    have hlt := h.reports_lt r hr
    rcases hmem.mp hq with hq | hq
    · exact (hold _ hq).symm ▸ h.reports r hr hq
    · exact absurd hq (Nat.ne_of_lt hlt)
  · intro hd frame
    rcases h.buckets hd frame with hdone | hwait
    · refine Or.inl ⟨?_, hdone.2⟩
      intro q hq hinv
      rcases hmem.mp hq with hq | rfl
      · exact hdone.1 q hq ((hold q hq) ▸ hinv)
      · -- the new player does not take part in the game
        have hnone : (s.setClient s.nextPlayer {}).client s.nextPlayer = {} := by rw [hclient, if_pos rfl]
        have hzero : (0 : Nat) = s.game := by
          have := hinv
          rw [show ((s.setClient s.nextPlayer {}).client s.nextPlayer).invited = 0 by rw [hnone]] at this
          exact this
        exact absurd h.game_pos (by rw [← hzero]; decide)
    · refine Or.inr ⟨hwait.bucket, fun x hx => hmem.mpr (Or.inl (hwait.connected x hx)), ?_⟩
      have := hwait.missing
      simp only [List.length_append, List.length_singleton]
      exact Nat.lt_succ_of_lt this

theorem Inv.step (h : Inv s) {op : Op} (hok : s.Orderly op) (hs : s.step op = some s') : Inv s' := by
  cases op with
  | connect =>
      simp only [State.step] at hs
      split at hs
      · cases hs
      · cases hs; exact h.connect
  | disconnect p =>
      simp only [State.step] at hs
      split at hs
      · next hp => cases hs; exact h.disconnect hp hok
      · cases hs
  | startGame => cases hs; exact h.startGame
  | stopGame =>
      cases hs
      exact ⟨⟨h.nodup, h.lt_next, h.game_pos, h.clients, h.reports_once, h.reports_lt, h.reports⟩, h.sent_iff,
        h.sound, fun hd frame => (h.buckets hd frame).imp id fun hw => ⟨hw.bucket, hw.connected, hw.missing⟩⟩
  | clientStart p =>
      simp only [State.step] at hs
      split at hs
      · next hp => cases hs; exact h.clientStart hp.1 hp.2
      · cases hs
  | sendTimeBase p timebase =>
      simp only [State.step] at hs
      split at hs
      · next hp => cases hs; exact h.sendTimeBase hp.1 timebase
      · cases hs
  | deliver p =>
      simp only [State.step] at hs
      split at hs
      · next hp =>
          cases hout : (s.client p).outbox with
          | nil => rw [hout] at hs; cases hs
          | cons m ms =>
              rw [hout] at hs
              cases hs
              refine h.deliver hp hout (hok.imp_right fun hg => hg m ?_)
              rw [hout]
              rfl
      · cases hs

/-- In orderly runs `DesyncDetected` is sent when, and only when, two reports of a frame differ. -/
theorem desync_detection (s : State) (h : Reach State.step Orderly {} s) : s.Sound ∧ s.Complete := by
  have hinv : Inv s := h.invariant Inv Inv.init fun hs hok hstep => hs.step hok hstep
  exact ⟨hinv.sound, hinv.complete⟩

def staleReport : List Op :=
  [.connect, .connect, .startGame, .clientStart 1, .sendTimeBase 1 10, .stopGame, .startGame, .deliver 1,
    .clientStart 0, .sendTimeBase 0 99, .deliver 0]

def reportMissing : List Op :=
  [.connect, .connect, .connect, .startGame, .clientStart 0, .clientStart 1, .sendTimeBase 0 10,
    .sendTimeBase 1 20, .deliver 0, .deliver 1, .disconnect 2]

/-- An alarm with one report of the current game, and two different reports without an alarm. -/
theorem false_alarm_and_missed_desync :
    (¬ ∀ s, Reach State.step anyStep {} s → s.Sound) ∧ ¬ ∀ s, Reach State.step anyStep {} s → s.Complete := by
  refine ⟨fun h => ?_, fun h => ?_⟩
  · have hrun : (run State.step {} staleReport).map (fun s => (s.sent, s.reports)) =
        some ([(1, 0)], [⟨0, 0, 99⟩]) := by decide
    obtain ⟨s, hs, heq⟩ := Option.map_eq_some_iff.mp hrun
    simp only [Prod.mk.injEq] at heq
    obtain ⟨r, hr, r', hr', hne, -⟩ := h s (reach_of_run hs) (by rw [heq.1]; decide)
    rw [heq.2, List.mem_singleton] at hr hr'
    exact hne (by rw [hr, hr'])
  · have hrun : (run State.step {} reportMissing).map (fun s => (s.sent, s.reports, s.players)) =
        some ([], [⟨0, 0, 10⟩, ⟨1, 0, 20⟩], [0, 1]) := by decide
    obtain ⟨s, hs, heq⟩ := Option.map_eq_some_iff.mp hrun
    simp only [Prod.mk.injEq] at heq
    obtain ⟨hsent, hrep, hpl⟩ := heq
    refine h s (reach_of_run hs) 0 ?_ ?_ hsent
    · rw [hrep, hpl]; decide
    · rw [hrep, hpl]; decide

def quiet (s : State) : Op → Bool
  | .deliver p => (s.client p).outbox.head?.all (·.game = s.game)
  | .disconnect _ => false
  | _ => true

/-- Two players whose reports differ. -/
theorem desync_detection_two_players : ∃ s, Reach State.step Orderly {} s ∧ s.sent = [(0, 0)] ∧
    s.Sound ∧ s.Complete := by
  have hrun : (run (fun s op => if quiet s op = true then s.step op else none) {}
      [.connect, .connect, .startGame, .clientStart 0, .clientStart 1, .sendTimeBase 0 10, .sendTimeBase 1 20,
        .deliver 0, .deliver 1]).map State.sent = some [(0, 0)] := by decide
  obtain ⟨s, hs, heq⟩ := Option.map_eq_some_iff.mp hrun
  have hreach : Reach State.step Orderly {} s := by
    refine Reach.mono ?_ (reach_of_guarded hs)
    intro s op hq
    cases op with
    | deliver p =>
        refine Or.inr fun m hm => ?_
        simpa using (Option.all_eq_true _ _).mp hq m hm
    | disconnect p => cases hq
    | connect => trivial
    | startGame => trivial
    | stopGame => trivial
    | clientStart p => trivial
    | sendTimeBase p timebase => trivial
  exact ⟨s, hreach, heq, desync_detection s hreach⟩

end State

end Karphin.NetPlay.Desync
