import Karphin.NetPlay.Golf.Lemmas.Clients

/-!
# The messages of a hand-over on the server
-/

namespace Karphin.NetPlay.Golf

open Karphin.NetPlay.PadSync (PlayerId Pad GCPadStatus Analog Setup PadState addPadStateToPacket readPad transmitted
  wires wires_nil wires_append wires_addPadState wires_relayed)

variable {g : Setup} {ph ph' : Phase} {p q a b : PlayerId} {r r' : Role} {s s' : State} {c : Client} {i : Pad}
  {m : UpMessage} {ms : List UpMessage} {polled : Pad → List (UInt16 × Option Analog)}

/-! ## A message is taken off -/

theorem unrelayed_pop (hup : c.up = m :: ms) :
    unrelayed g c i = wires g i m.states ++ unrelayed g { c with up := ms } i := by
  simp only [unrelayed, hup, Client.packet, List.flatMap_cons, wires_append, List.append_assoc]

theorem unrelayed_pop_eq (hup : c.up = m :: ms) (hm : m.states = []) :
    unrelayed g { c with up := ms } = unrelayed g c := by
  funext i
  rw [unrelayed_pop hup, hm, wires_nil, List.nil_append]

theorem Plays.pop (h : Plays r p c) (hup : c.up = m :: ms) (hm : m.isReply = false) :
    Plays r p { c with up := ms } := by
  have hreplies := h.replies
  have hmessages := h.up
  simp only [Client.replies, hup, List.filter_cons, hm] at hreplies
  rw [hup] at hmessages
  refine ⟨h.golfers, h.invites, hreplies, h.queue, h.silent, hmessages.tail ?_⟩
  rintro rfl
  cases hm

theorem Plays.reply (h : Plays r p c) (hup : c.up = m :: ms) (hm : m.isReply = true) :
    r.replies = [m] ∧ ({ c with up := ms } : Client).replies = [] := by
  have hreplies := h.replies
  simp only [Client.replies, hup, List.filter_cons, hm, if_true] at hreplies
  cases r with
  | answered | leaving | accepting =>
      simp only [Role.replies, List.cons.injEq] at hreplies
      obtain ⟨rfl, hrest⟩ := hreplies
      exact ⟨rfl, hrest⟩
  | bystander | golfer | invited | dismissed | elected => cases hreplies

theorem Plays.popPrepare (h : Plays .answered p c) (hup : c.up = .golfPrepare :: ms) :
    Plays .bystander p { c with up := ms } := by
  have hmessages := h.up
  rw [hup] at hmessages
  exact ⟨h.golfers, h.invites, (h.reply hup rfl).2, h.queue, h.silent,
    fun m hm => hmessages m (List.mem_cons_of_mem _ hm)⟩

theorem Plays.popRelease (hp : p ≠ 0) (h : Plays .leaving p c) (hup : c.up = .golfRelease :: ms) :
    Plays .bystander p { c with up := ms } := by
  have hreplies := (h.reply hup rfl).2
  obtain ⟨us, us', hus, hus'⟩ := h.up
  have hbehind : ms = us' := by
    rw [hup] at hus
    cases us with
    | nil =>
        simp only [List.nil_append, List.cons.injEq, true_and] at hus
        exact hus
    | cons u us =>
        -- a second `GolfRelease`
        simp only [List.cons_append, List.cons.injEq] at hus
        simp only [Client.replies, hus.2, List.filter_append, List.append_eq_nil_iff] at hreplies
        cases hreplies.2
  refine ⟨?_, h.invites, hreplies, h.queue, h.silent, hbehind ▸ hus'⟩
  have hgolfers : ({ c with up := ms } : Client).golfers = [0] := h.golfers.1
  simp only [Role.Golfers, hgolfers, List.mem_singleton]
  exact hp

theorem Plays.popAcquire (h : Plays .accepting p c) (hup : c.up = .golfAcquire :: ms) :
    Plays .golfer p { c with up := ms } :=
  ⟨h.golfers, h.invites, (h.reply hup rfl).2, h.queue, h.silent, trivial⟩

/-! ## A message is sent to a client -/

theorem golfers_down {m : DownMessage} :
    ({ c with down := c.down ++ [m] } : Client).golfers = c.golfers ++ m.golfer?.toList := by
  simp only [Client.golfers, List.filterMap_append, List.cons_append]
  cases m <;> rfl

theorem golfers_down_eq {m : DownMessage} (hm : m.golfer? = none) :
    ({ c with down := c.down ++ [m] } : Client).golfers = c.golfers := by
  rw [golfers_down, hm, Option.toList_none, List.append_nil]

theorem Plays.invite (h : Plays .bystander p c) :
    Plays .invited p { c with down := c.down ++ [.golfPrepare] } := by
  refine ⟨?_, ?_, h.replies, h.queue, h.silent, h.up⟩
  · rw [Role.Golfers, golfers_down_eq rfl]
    exact h.golfers
  · have hinvites := h.invites
    simp only [Client.invites, Role.invites, List.countP_append] at hinvites ⊢
    have hone : [DownMessage.golfPrepare].countP DownMessage.isGolfPrepare = 1 := rfl
    omega

theorem Plays.relay (h : Plays r p c) (hr : r.looksOn = true) (states : List PadState) :
    Plays r p { c with down := c.down ++ [.padData states] } := by
  refine ⟨?_, ?_, h.replies, h.queue, h.silent, h.up⟩
  · have hgolfers := h.golfers
    cases r with
    | bystander | invited | answered =>
        rw [Role.Golfers, golfers_down_eq rfl]
        exact hgolfers
    | golfer | dismissed | leaving | elected | accepting => cases hr
  · rw [← h.invites]
    simp only [Client.invites, List.countP_append]
    rfl

theorem Plays.switch (h : Plays r p c) {pid : PlayerId} (hinvites : r'.invites = r.invites)
    (hreplies : r'.replies = r.replies) (hpolls : r'.polls = r.polls) (hup : r'.Up c.up)
    (hgolfers : r'.Golfers p { c with down := c.down ++ [.golfSwitch pid] }) :
    Plays r' p { c with down := c.down ++ [.golfSwitch pid] } := by
  refine ⟨hgolfers, ?_, h.replies.trans hreplies.symm, h.queue, ?_, hup⟩
  · rw [hinvites, ← h.invites]
    simp only [Client.invites, List.countP_append]
    rfl
  · rw [hpolls]
    exact h.silent

theorem Plays.switchBystander (h : Plays .bystander p c) {pid : PlayerId} (hne : p ≠ pid) :
    Plays .bystander p { c with down := c.down ++ [.golfSwitch pid] } := by
  refine h.switch rfl rfl rfl h.up ?_
  rw [Role.Golfers, golfers_down, DownMessage.golfer?, Option.toList_some, List.mem_append, List.mem_singleton]
  rintro (hknown | hpid)
  · exact h.golfers hknown
  · exact hne hpid

theorem Plays.elect (h : Plays .bystander p c) : Plays .elected p { c with down := c.down ++ [.golfSwitch p] } :=
  h.switch rfl rfl rfl h.up ⟨c.down, rfl, h.golfers⟩

theorem Plays.dismiss (h : Plays .golfer p c) : Plays .dismissed p { c with down := c.down ++ [.golfSwitch 0] } := by
  obtain ⟨hgolfers, hquiet⟩ := h.golfers
  refine h.switch rfl rfl rfl trivial ⟨?_, ?_⟩
  · rw [golfers_down, hgolfers]
    rfl
  · simp only [List.mem_append, List.mem_singleton]
    rintro m (hm | rfl)
    · exact hquiet m hm
    · rfl

/-! ## A message is sent to the clients -/

theorem sendToClients_client {m : DownMessage} {skip : PlayerId} (hq : q ∈ g.players) (hskip : q ≠ skip) :
    (s.sendToClients g m skip).client q = { s.client q with down := (s.client q).down ++ [m] } :=
  if_pos ⟨hq, hskip⟩

theorem sendToClients_skip {m : DownMessage} : (s.sendToClients g m q).client q = s.client q :=
  if_neg fun h => h.2 rfl

theorem unrelayed_sendToClients {m : DownMessage} {skip : PlayerId} :
    unrelayed g ((s.sendToClients g m skip).client q) = unrelayed g (s.client q) := by
  simp only [State.sendToClients]
  split <;> rfl

theorem seen_down {m : DownMessage} :
    seen g { c with down := c.down ++ [m] } i = seen g c i ++ wires g i m.states := by
  simp only [seen, List.flatMap_append, List.flatMap_cons, List.flatMap_nil, List.append_nil, wires_append,
    List.append_assoc]

/-! ## The steps of the server -/

theorem Inv.padHostData (h : Inv g ph polled s) (hp : p ∈ g.players) {states : List PadState}
    (hup : (s.client p).up = .padHostData states :: ms) :
    ∃ polled', Inv g ph polled' ((s.setClient p { s.client p with up := ms }).onData g p (.padHostData states)) := by
  have hpop := (h.plays p hp).pop hup rfl
  have howner : p = ph.owner := by
    by_contra hne
    have hmessages := (h.plays p hp).up
    have hlooks := Phase.looksOn hne
    rw [hup] at hmessages
    cases hr : ph.role p with
    | bystander | invited | answered =>
        rw [hr] at hmessages
        cases hmessages _ List.mem_cons_self
    | golfer | dismissed | leaving | elected | accepting =>
        rw [hr] at hlooks
        cases hlooks
  have hkeep : ¬ (s.currentGolfer ≠ 0 ∧ p ≠ s.currentGolfer) := by
    rw [h.current, howner]
    rintro ⟨hzero, hne⟩
    rcases ph.current_cases with hc | hc
    · exact hzero hc
    · exact hne hc.symm
  have hdata : (s.setClient p { s.client p with up := ms }).onData g p (.padHostData states) =
      (s.setClient p { s.client p with up := ms }).sendToClients g (.padData (PadSync.State.relayed g states)) p :=
    if_neg hkeep
  refine ⟨polled, h.proper, ?_, ?_, ?_, ?_, ?_⟩
  · rw [hdata]
    exact h.current
  · rw [hdata]
    exact h.pending
  · rw [hdata]
    exact h.kicked
  · intro q hq
    rw [hdata]
    by_cases hqp : q = p
    · rw [hqp, sendToClients_skip, setClient_client, if_pos rfl]
      exact hpop
    · rw [sendToClients_client hq hqp, setClient_client, if_neg hqp]
      exact (h.plays q hq).relay (Phase.looksOn (howner ▸ hqp)) _
  · intro q hq i
    rw [hdata, unrelayed_sendToClients, ← h.input q hq i, ← howner]
    by_cases hqp : q = p
    · rw [hqp, if_pos rfl, if_pos rfl, sendToClients_skip, setClient_client, if_pos rfl]
      rfl
    · rw [if_neg hqp, if_neg hqp, sendToClients_client hq hqp, setClient_client, if_neg hqp, setClient_client,
        if_pos rfl, seen_down, DownMessage.states, wires_relayed, unrelayed_pop hup, List.append_assoc]
      rfl

theorem Inv.pop (h : Inv g ph polled s) (hp : p ∈ g.players) (hup : (s.client p).up = m :: ms)
    (hm : m.isReply = false) (hstates : m.states = []) :
    ∃ polled', Inv g ph polled' (s.setClient p { s.client p with up := ms }) := by
  obtain ⟨polled', hinv⟩ := h.setClient h.proper rfl (fun _ _ => rfl) ((h.plays p hp).pop hup hm)
    (.of_eq rfl (unrelayed_pop_eq hup hstates))
  rw [← h.current, ← h.pending] at hinv
  exact ⟨polled', hinv⟩

theorem Inv.golfRequest (h : Inv g ph polled s) (hzero : 0 ∉ g.players) (p pid : PlayerId) :
    ∃ ph' polled', Inv g ph' polled' (s.onData g p (.golfRequest pid)) := by
  rw [State.onData]
  split_ifs with hvalid hrequest
  · exact ⟨ph, polled, h⟩
  · obtain ⟨hpending, hcurrent, -⟩ := hrequest
    obtain ⟨a, rfl⟩ := Phase.settled_of_pending hzero h.proper (h.pending.symm.trans hpending)
    rw [not_or, not_not] at hvalid
    have hne : pid ≠ a := fun heq => hcurrent (h.current.trans heq.symm)
    have hplays := h.plays pid hvalid.1
    simp only [Phase.role, if_neg hne] at hplays
    have hinvited : Plays (Phase.role pid (.preparing a pid)) pid
        { s.client pid with down := (s.client pid).down ++ [.golfPrepare] } := by
      simpa [Phase.role, hne] using hplays.invite
    have hseen : seen g { s.client pid with down := (s.client pid).down ++ [.golfPrepare] } =
        seen g (s.client pid) := by
      funext i
      rw [seen_down]
      exact List.append_nil _
    have hproper : Phase.Proper g (.preparing a pid) := ⟨hvalid.1, Ne.symm hne⟩
    have hrole : ∀ q, q ≠ pid → Phase.role q (.preparing a pid) = Phase.role q (.settled a) := by
      intro q hq
      simp [Phase.role, hq]
    obtain ⟨polled', hinv⟩ := h.setClient hproper rfl hrole hinvited (.of_eq hseen rfl)
    refine ⟨.preparing a pid, polled', ?_⟩
    rw [show Phase.current (.preparing a pid) = s.currentGolfer from h.current.symm] at hinv
    exact hinv
  · exact ⟨ph, polled, h⟩

theorem Inv.golfSwitch (h : Inv g ph polled s) (hzero : 0 ∉ g.players) (hup : (s.client p).up = m :: ms)
    (hstates : m.states = []) {current pid : PlayerId} (hproper : ph'.Proper g) (hcurrent : current = ph'.current)
    (hpending : ph'.pending = ph.pending)
    (howner : ph'.owner = ph.owner ∨
      ∀ i, unrelayed g (s.client ph.owner) i = [] ∧ unrelayed g (s.client ph'.owner) i = [])
    (hplays : ∀ q ∈ g.players, q ≠ 0 → ∀ c, c = (if q = p then { s.client p with up := ms } else s.client q) →
      Plays (ph'.role q) q { c with down := c.down ++ [.golfSwitch pid] }) :
    Inv g ph' polled (({ s.setClient p { s.client p with up := ms } with currentGolfer := current } :
      State).sendToClients g (.golfSwitch pid) 0) := by
  have hq0 : ∀ q ∈ g.players, q ≠ 0 := by
    rintro q hq rfl
    exact hzero hq
  have hclient : ∀ q, (({ s.setClient p { s.client p with up := ms } with currentGolfer := current } :
      State)).client q = if q = p then { s.client p with up := ms } else s.client q :=
    fun q => setClient_client q
  have hway : ∀ q, unrelayed g ((({ s.setClient p { s.client p with up := ms } with currentGolfer := current } :
      State).sendToClients g (.golfSwitch pid) 0).client q) = unrelayed g (s.client q) := by
    intro q
    rw [unrelayed_sendToClients, hclient]
    split
    · next hqp => rw [hqp, unrelayed_pop_eq hup hstates]
    · rfl
  refine ⟨hproper, hcurrent, h.pending.trans hpending.symm, h.kicked, ?_, ?_⟩
  · intro q hq
    rw [sendToClients_client hq (hq0 q hq)]
    exact hplays q hq (hq0 q hq) _ (hclient q)
  · intro q hq i
    have hseen : seen g ((({ s.setClient p { s.client p with up := ms } with currentGolfer := current } :
        State).sendToClients g (.golfSwitch pid) 0).client q) i = seen g (s.client q) i := by
      rw [sendToClients_client hq (hq0 q hq), seen_down, hclient, DownMessage.states, wires_nil, List.append_nil]
      · split
        · next hqp => rw [hqp]; rfl
        · rfl
      · intro states hdata
        cases hdata
    rw [hseen, hway, ← h.input q hq i]
    rcases howner with howner | howner
    · rw [howner]
    · rw [(howner i).1, (howner i).2, ite_self, ite_self]

theorem Inv.golfPrepare (h : Inv g ph polled s) (hzero : 0 ∉ g.players) (hp : p ∈ g.players)
    (hup : (s.client p).up = .golfPrepare :: ms) :
    ∃ ph' polled', Inv g ph' polled' ((s.setClient p { s.client p with up := ms }).onData g p .golfPrepare) := by
  have hplays := h.plays p hp
  have hanswered : ph.role p = .answered := by
    have hreply := (hplays.reply hup rfl).1
    cases hr : ph.role p with
    | answered => rfl
    | bystander | golfer | invited | dismissed | leaving | elected | accepting =>
        rw [hr] at hreply
        cases hreply
  obtain ⟨a, rfl, hpa⟩ := Phase.of_answered hanswered
  rw [hanswered] at hplays
  have hpending : s.pendingGolfer ≠ 0 := by
    rw [h.pending]
    rintro rfl
    exact hzero hp
  have hdata : (s.setClient p { s.client p with up := ms }).onData g p .golfPrepare =
      ({ s.setClient p { s.client p with up := ms } with currentGolfer := 0 } : State).sendToClients g
        (.golfSwitch 0) 0 := if_neg hpending
  rw [hdata]
  refine ⟨.dismissing a p, polled, h.golfSwitch hzero hup rfl h.proper rfl rfl (.inl rfl) ?_⟩
  rintro q hq hq0 c rfl
  have hold := h.plays q hq
  simp only [Phase.role] at hold ⊢
  by_cases hqp : q = p
  · subst hqp
    rw [if_pos rfl, if_neg hpa]
    exact (hplays.popPrepare hup).switchBystander hq0
  · by_cases hqa : q = a
    · rw [if_pos hqa] at hold
      rw [if_neg hqp, if_pos hqa]
      exact hold.dismiss
    · rw [if_neg hqa, if_neg hqp] at hold
      rw [if_neg hqp, if_neg hqa]
      exact hold.switchBystander hq0

theorem Inv.golfRelease (h : Inv g ph polled s) (hzero : 0 ∉ g.players) (hp : p ∈ g.players)
    (hup : (s.client p).up = .golfRelease :: ms) :
    ∃ ph' polled', Inv g ph' polled' ((s.setClient p { s.client p with up := ms }).onData g p .golfRelease) := by
  have hplays := h.plays p hp
  have hleaving : ph.role p = .leaving := by
    have hreply := (hplays.reply hup rfl).1
    cases hr : ph.role p with
    | leaving => rfl
    | bystander | golfer | invited | answered | dismissed | elected | accepting =>
        rw [hr] at hreply
        cases hreply
  obtain ⟨b, rfl⟩ := Phase.of_leaving hleaving
  rw [hleaving] at hplays
  obtain ⟨hb, hne⟩ := h.proper
  have hbp : b ≠ p := Ne.symm hne
  have hp0 : p ≠ 0 := fun h0 => hzero (h0 ▸ hp)
  have hpop := hplays.popRelease hp0 hup
  have hpending : s.pendingGolfer ≠ 0 := by
    rw [h.pending]
    rintro h0
    exact hzero (h0 ▸ hb)
  have hdata : (s.setClient p { s.client p with up := ms }).onData g p .golfRelease =
      ({ s.setClient p { s.client p with up := ms } with currentGolfer := s.currentGolfer } : State).sendToClients g
        (.golfSwitch s.pendingGolfer) 0 := if_neg hpending
  have hbystander : Plays .bystander b (s.client b) := by
    have hold := h.plays b hb
    simpa only [Phase.role, if_neg hbp] using hold
  rw [hdata, show s.pendingGolfer = b from h.pending]
  refine ⟨.electing b, polled, h.golfSwitch hzero hup rfl hb h.current rfl (.inr ?_) ?_⟩
  · intro i
    refine ⟨?_, hbystander.unrelayed_eq_nil rfl Role.noConfusion⟩
    show unrelayed g (s.client p) i = []
    rw [← unrelayed_pop_eq hup rfl]
    exact hpop.unrelayed_eq_nil rfl Role.noConfusion
  · rintro q hq hq0 c rfl
    have hold := h.plays q hq
    simp only [Phase.role] at hold ⊢
    by_cases hqp : q = p
    · subst hqp
      rw [if_pos rfl, if_neg hne]
      exact hpop.switchBystander hne
    · rw [if_neg hqp] at hold
      rw [if_neg hqp]
      by_cases hqb : q = b
      · rw [if_pos hqb, ← hqb]
        exact hold.elect
      · rw [if_neg hqb]
        exact hold.switchBystander hqb

theorem Inv.golfAcquire (h : Inv g ph polled s) (hzero : 0 ∉ g.players) (hp : p ∈ g.players)
    (hup : (s.client p).up = .golfAcquire :: ms) :
    ∃ ph' polled', Inv g ph' polled' ((s.setClient p { s.client p with up := ms }).onData g p .golfAcquire) := by
  have hplays := h.plays p hp
  have haccepting : ph.role p = .accepting := by
    have hreply := (hplays.reply hup rfl).1
    cases hr : ph.role p with
    | accepting => rfl
    | bystander | golfer | invited | answered | dismissed | leaving | elected =>
        rw [hr] at hreply
        cases hreply
  obtain rfl := Phase.of_accepting haccepting
  rw [haccepting] at hplays
  have hpending : s.pendingGolfer ≠ 0 := by
    rw [h.pending]
    rintro rfl
    exact hzero hp
  have hdata : (s.setClient p { s.client p with up := ms }).onData g p .golfAcquire =
      { s.setClient p { s.client p with up := ms } with currentGolfer := s.pendingGolfer, pendingGolfer := 0 } :=
    if_neg hpending
  rw [hdata, show s.pendingGolfer = p from h.pending]
  have hgolfer : Plays (Phase.role p (.settled p)) p { s.client p with up := ms } := by
    simpa only [Phase.role, if_pos] using hplays.popAcquire hup
  have hproper : Phase.Proper g (.settled p) := trivial
  have hrole : ∀ q, q ≠ p → Phase.role q (.settled p) = Phase.role q (.accepting p) := by
    intro q hq
    simp only [Phase.role, if_neg hq]
  obtain ⟨polled', hinv⟩ := h.setClient hproper rfl hrole hgolfer (.of_eq rfl (unrelayed_pop_eq hup rfl))
  exact ⟨_, polled', hinv⟩

theorem Inv.serve (h : Inv g ph polled s) (hzero : 0 ∉ g.players) (hp : p ∈ g.players)
    (hup : (s.client p).up = m :: ms) :
    ∃ ph' polled', Inv g ph' polled' ((s.setClient p { s.client p with up := ms }).onData g p m) := by
  cases m with
  | padHostData states => exact ⟨ph, h.padHostData hp hup⟩
  | golfRequest pid =>
      obtain ⟨polled', hpop⟩ := h.pop hp hup rfl rfl
      exact hpop.golfRequest hzero p pid
  | golfPrepare => exact h.golfPrepare hzero hp hup
  | golfRelease => exact h.golfRelease hzero hp hup
  | golfAcquire => exact h.golfAcquire hzero hp hup

end Karphin.NetPlay.Golf

/-!
# One golfer, one input, nobody kicked

The hand-over keeps its promises in runs in which the golfer has no packet of its own left when it is dismissed.
-/

namespace Karphin.NetPlay.Golf

open Karphin.Lib
open Karphin.NetPlay.PadSync (PlayerId Pad GCPadStatus Analog Setup PadState transmitted wires)

variable {g : Setup} {ph : Phase} {p : PlayerId} {s s' : State} {polled : Pad → List (UInt16 × Option Analog)}

theorem Inv.init (g : Setup) : Inv g (.settled 1) (fun _ => []) {} := by
  refine ⟨trivial, rfl, rfl, rfl, ?_, ?_⟩
  · intro p _
    simp only [Phase.role]
    by_cases hp : p = 1
    · rw [if_pos hp, hp]
      refine ⟨⟨rfl, by simp⟩, rfl, rfl, by simp, ?_, trivial⟩
      intro hno
      cases hno
    · rw [if_neg hp]
      have hgolfers : p ∉ ({} : Client).golfers := by
        simpa [Client.golfers] using hp
      exact ⟨hgolfers, rfl, rfl, by simp, fun _ => ⟨rfl, by simp⟩, by simp [Role.Up]⟩
  · intro p _ i
    have hseen : seen g ({} : Client) i = [] := rfl
    have hway : unrelayed g ({} : Client) i = [] := rfl
    show seen g ({} : Client) i ++ (if _ then [] else unrelayed g ({} : Client) i) = []
    rw [hseen, hway, ite_self]
    rfl

theorem Inv.step (h : Inv g ph polled s) (hzero : 0 ∉ g.players) {op : State.Op} (hok : s.Orderly op)
    (hs : s.step g op = some s') : ∃ ph' polled', Inv g ph' polled' s' := by
  rw [State.step] at hs
  split at hs
  · next hp =>
      have hp0 : op.player ≠ 0 := fun h0 => hzero (h0 ▸ hp)
      have hplays := h.plays op.player hp
      cases op with
      | requestGolfControl p pid =>
          cases hs
          exact h.goes (hplays.requestGolfControl pid)
      | padStatus p i status =>
          cases hs
          exact h.goes (hplays.padStatus hok)
      | beginPoll p padNb batching =>
          simp only [State.stepClient] at hs
          split at hs
          · next hcpu =>
              cases hs
              exact h.goes (hplays.beginPoll hcpu _ padNb)
          · cases hs
      | getNetPads p =>
          obtain ⟨c, hc, rfl⟩ := Option.map_eq_some_iff.mp hs
          exact h.goes (hplays.getNetPads hp0 hc)
      | netSend p =>
          simp only [State.stepClient] at hs
          split at hs
          · cases hs
          · split at hs
            · cases hs
            · next hqueue =>
                cases hs
                exact h.goes (hplays.netSend hqueue)
      | netDrained p =>
          simp only [State.stepClient] at hs
          split at hs
          · cases hs
            exact h.goes (hplays.setDrained true)
          · cases hs
      | netIdle p =>
          cases hs
          exact h.goes (hplays.setDrained false)
      | deliver p =>
          simp only [State.stepClient] at hs
          split at hs
          · split at hs
            · cases hs
            · next hdown =>
                cases hs
                exact h.goes (hplays.deliver hp0 hdown (hok _ (congrArg List.head? hdown)))
          · cases hs
      | serve p =>
          simp only [State.stepClient] at hs
          split at hs
          · cases hs
          · next hup =>
              cases hs
              exact h.serve hzero hp hup
  · cases hs

theorem Inv.golfer (h : Inv g ph polled s) (hzero : 0 ∉ g.players) (hp : p ∈ g.players)
    (hself : (s.client p).currentGolfer = p) : p = ph.owner := by
  by_contra hne
  have hpolls := (h.plays p hp).polls (fun h0 => hzero (h0 ▸ hp)) hself
  have hlooks := Phase.looksOn hne
  cases hr : ph.role p with
  | bystander | invited | answered | leaving | elected => rw [hr] at hpolls; cases hpolls
  | golfer | dismissed | accepting => rw [hr] at hlooks; cases hlooks

theorem Inv.pushed_prefix (h : Inv g ph polled s) (hp : p ∈ g.players) (i : Pad) :
    ((s.client p).pushed i).map (transmitted g i) <+: polled i := by
  have hinput := h.input p hp i
  rw [seen, List.append_assoc] at hinput
  exact ⟨_, hinput⟩

/-- In orderly runs at most one client takes itself for the golfer, all clients push the same sequences and nobody
is kicked. -/
theorem hand_over_safe (g : Setup) (hzero : 0 ∉ g.players) (s : State)
    (h : Reach (State.step g) State.Orderly {} s) : s.OneGolfer g ∧ s.SameInput g ∧ s.kicked = [] := by
  obtain ⟨ph, polled, hinv⟩ : ∃ ph polled, Inv g ph polled s :=
    h.invariant (fun s => ∃ ph polled, Inv g ph polled s) ⟨_, _, Inv.init g⟩
      fun ⟨_, _, hs⟩ hok hstep => hs.step hzero hok hstep
  refine ⟨?_, ?_, hinv.kicked⟩
  · intro p hp q hq hpself hqself
    rw [hinv.golfer hzero hp hpself, hinv.golfer hzero hq hqself]
  · intro p hp q hq i
    exact List.prefix_or_prefix_of_prefix (hinv.pushed_prefix hp i) (hinv.pushed_prefix hq i)

/-! ## A packet behind `GolfRelease` -/

def twoPlayers : Setup := ⟨[1, 2], fun i => if i = 0 then 1 else if i = 1 then 2 else 0, fun _ => false, 1⟩

def prepareTwo : List State.Op :=
  [.padStatus 1 0 { button := 1 }, .padStatus 1 1 { button := 2 }, .requestGolfControl 2 2, .netSend 2, .serve 2,
    .netDrained 2, .deliver 2, .beginPoll 2 0 true, .getNetPads 2]

def electTwo : List State.Op :=
  [.serve 1, .netDrained 2, .deliver 2, .netDrained 2, .deliver 2, .serve 2]

/-- The network thread of player 1 handles `GolfSwitch` after the CPU thread has taken itself for the golfer. -/
def latePacket : List State.Op :=
  List.flatten [prepareTwo, [.beginPoll 1 0 true, .getNetPads 1, .getNetPads 1, .serve 2, .netDrained 1, .deliver 1],
    List.replicate 6 (.getNetPads 1), [.netSend 1], electTwo, [.serve 1]]

/-- Player 1 has polled as the golfer, and is kicked for its packet. -/
theorem late_packet_kicked :
    ¬ ∀ (g : Setup) (s : State), 0 ∉ g.players → Reach (State.step g) anyStep {} s →
      s.OneGolfer g ∧ s.SameInput g ∧ s.kicked = [] := by
  intro h
  have hrun : (run (State.step twoPlayers) {} latePacket).map (·.kicked) = some [1] := by decide
  obtain ⟨s, hs, hkicked⟩ := Option.map_eq_some_iff.mp hrun
  obtain ⟨-, -, hnone⟩ := h twoPlayers s (by decide) (reach_of_run hs)
  rw [hnone] at hkicked
  cases hkicked

instance (s : State) : ∀ op, Decidable (s.Orderly op)
  | .deliver p => inferInstanceAs (Decidable (∀ m ∈ (s.client p).down.head?, m.isGolfSwitch →
      (s.client p).currentGolfer = p →
        (s.client p).cpu.polling = false ∧ ∀ m ∈ (s.client p).asyncQueue, m.isPadHostData = false))
  | .padStatus p i status => inferInstanceAs (Decidable ((s.client p).cpu.adding = some i →
      status = (s.client p).lastPadStatus i))
  | .requestGolfControl _ _ | .beginPoll _ _ _ | .getNetPads _ | .netSend _ | .netDrained _ | .netIdle _
  | .serve _ => inferInstanceAs (Decidable True)

/-- Player 1 polls and sends its packet before it is dismissed, and player 2 polls when it has taken over. -/
def handOver : List State.Op :=
  List.flatten [prepareTwo, .beginPoll 1 0 true :: List.replicate 9 (.getNetPads 1),
    [.netSend 1, .serve 1, .serve 2, .netDrained 1, .deliver 1, .netDrained 2, .deliver 2], electTwo,
    List.replicate 8 (.getNetPads 2), [.padStatus 2 0 { button := 3 }, .beginPoll 2 0 true],
    List.replicate 7 (.getNetPads 2), [.netIdle 2, .netSend 2, .serve 2]]

theorem hand_over_safe_two_players : ∃ s, Reach (State.step twoPlayers) State.Orderly {} s ∧
    (s.client 2).pushed 0 = [{ button := 1 }, { button := 3 }] ∧ s.currentGolfer = 2 ∧
      s.OneGolfer twoPlayers ∧ s.SameInput twoPlayers ∧ s.kicked = [] := by
  have hrun : (run (fun (s : State) op => if s.Orderly op then s.step twoPlayers op else none) {} handOver).map
      (fun s => ((s.client 2).pushed 0, s.currentGolfer)) =
        some ([{ button := 1 }, { button := 3 }], 2) := by decide
  obtain ⟨s, hs, heq⟩ := Option.map_eq_some_iff.mp hrun
  exact ⟨s, reach_of_guarded hs, (Prod.mk.inj heq).1, (Prod.mk.inj heq).2,
    hand_over_safe twoPlayers (by decide) s (reach_of_guarded hs)⟩

end Karphin.NetPlay.Golf
