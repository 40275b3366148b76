import Karphin.NetPlay.Golf.Defs

/-!
# The steps of a client and its role
-/

namespace Karphin.NetPlay.Golf

open Karphin.NetPlay.PadSync (PlayerId Pad GCPadStatus Analog Setup PadState addPadStateToPacket readPad transmitted
  wires wires_nil wires_append wires_addPadState)

variable {g : Setup} {r : Role} {p : PlayerId} {c c' : Client} {i : Pad}

def Client.Goes (g : Setup) (r : Role) (p : PlayerId) (c c' : Client) : Prop :=
  ∃ r', Move r r' ∧ Plays r' p c' ∧ Advances g r c c'

theorem Plays.stays (h : Plays r p c') (hadv : Advances g r c c') : c.Goes g r p c' := ⟨r, .stay r, h, hadv⟩

/-! ## The CPU thread -/

theorem Plays.setCpu (h : Plays r p c) {cpu : Cpu} {event : Bool} {padBuffer : Pad → List GCPadStatus}
    (hpolls : r.polls = false → cpu.polling = false)
    (hpacket : ({ c with cpu := cpu } : Client).packet g = c.packet g) :
    c.Goes g r p { c with waitOnInputEvent := event, padBuffer := padBuffer, cpu := cpu } := by
  refine Plays.stays ⟨h.golfers, h.invites, h.replies, h.queue, ?_, h.up⟩ (.of_eq rfl ?_)
  · intro hr
    exact ⟨hpolls hr, (h.silent hr).2⟩
  · funext i
    show wires g i (_ ++ ({ c with cpu := cpu } : Client).packet g) = _
    rw [hpacket]
    rfl

theorem Plays.polling (h : Plays r p c) (hcpu : c.cpu.polling = true) : r.polls = true := by
  cases hr : r.polls with
  | true => rfl
  | false => exact absurd (hcpu.symm.trans (h.silent hr).1) (by decide)

theorem Plays.prepare (h : Plays r p c) {pads : Option (List Pad)} {padNb : Pad}
    (hcpu : c.cpu = .waitLoop pads padNb) (hwait : c.waitOnInputReceived = true) :
    c.Goes g r p
      { c with up := c.up ++ [.golfPrepare], waitOnInputReceived := false, cpu := .waitEvent pads padNb } := by
  have hinvites := h.invites
  simp only [Client.invites, hwait, Bool.toNat_true] at hinvites
  cases r with
  | invited =>
      have hdown : c.down.countP DownMessage.isGolfPrepare = 0 := by
        simpa [Role.invites] using hinvites
      have hreplies : c.replies = [] := h.replies
      refine ⟨.answered, .answer, ⟨h.golfers, ?_, ?_, h.queue, ?_, ?_⟩, .of_eq rfl ?_⟩
      · simp only [Client.invites, hdown]
        rfl
      · simp only [Client.replies, List.filter_append]
        rw [show c.up.filter UpMessage.isReply = [] from hreplies]
        rfl
      · intro hr
        exact ⟨rfl, (h.silent rfl).2⟩
      · exact h.up.append fun _ => rfl
      · funext i
        simp only [unrelayed, Client.packet, hcpu, List.flatMap_append]
        simp [UpMessage.states]
  | bystander | golfer | answered | dismissed | leaving | elected | accepting =>
      simp [Role.invites] at hinvites

theorem Plays.pushPad (h : Plays r p c) {is : List Pad} {packet : List PadState} {padNb : Pad}
    (hcpu : c.cpu = .push (i :: is) packet padNb) :
    c.Goes g r p { c.push i (c.lastPadStatus i) with cpu := .add i is packet padNb } := by
  have hr : r.polls = true := h.polling (by rw [hcpu]; rfl)
  have hdown : c.down.flatMap DownMessage.states = [] := by
    simp only [List.flatMap_eq_nil_iff]
    intro m hm
    have hquiet := h.quiet hr m hm
    cases m with
    | padData states => cases hquiet
    | golfPrepare | golfSwitch => rfl
  refine Plays.stays ⟨h.golfers, h.invites, h.replies, h.queue, ?_, h.up⟩ ?_
  · intro hno
    exact absurd (hr.symm.trans hno) (by decide)
  · refine ⟨fun j => wires g j [addPadStateToPacket g i (c.lastPadStatus i)], ?_, ?_, ?_⟩
    · intro j
      simp only [seen, Client.push, hdown, wires_nil, List.append_nil, wires_addPadState, Function.update_apply]
      by_cases hij : j = i
      · rw [if_pos hij, if_pos hij.symm, List.map_append, hij]
        rfl
      · rw [if_neg hij, if_neg (Ne.symm hij), List.append_nil]
    · intro j
      simp only [unrelayed, Client.packet, Client.push, hcpu, wires_append, List.append_assoc]
    · intro hno
      exact absurd (hr.symm.trans hno) (by decide)

theorem Plays.queuePacket (h : Plays r p c) {packet : List PadState} {padNb : Pad}
    (hcpu : c.cpu = .push [] packet padNb) :
    c.Goes g r p { c with asyncQueue := c.asyncQueue ++ [.padHostData packet], cpu := .pop padNb } := by
  have hr : r.polls = true := h.polling (by rw [hcpu]; rfl)
  refine Plays.stays ⟨h.golfers, h.invites, h.replies, ?_, ?_, h.up⟩ (.of_eq rfl ?_)
  · simp only [List.mem_append, List.mem_singleton]
    rintro m (hm | rfl)
    · exact h.queue m hm
    · rfl
  · intro hno
    exact absurd (hr.symm.trans hno) (by decide)
  · funext j
    simp only [unrelayed, Client.packet, hcpu, List.flatMap_append]
    simp [UpMessage.states]

theorem Plays.getNetPads (hp : p ≠ 0) (h : Plays r p c) (hs : c.getNetPads g p = some c') : c.Goes g r p c' := by
  simp only [Client.getNetPads] at hs
  split at hs
  · cases hs
  · next hcpu =>
      -- `GolfPrepare` is answered when the CPU thread comes to the wait loop
      split at hs
      · split at hs
        · next hwait =>
            cases hs
            exact h.prepare hcpu hwait
        · cases hs
          exact h.setCpu (fun _ => rfl) (by simp only [Client.packet, hcpu])
      · split at hs
        · cases hs
          exact h.setCpu (fun _ => rfl) (by simp only [Client.packet, hcpu])
        · cases hs
          exact h.setCpu (fun _ => rfl) (by simp only [Client.packet, hcpu])
  · next hcpu =>
      split at hs
      · cases hs
        exact h.setCpu (fun _ => rfl) (by simp only [Client.packet, hcpu])
      · cases hs
  · next hcpu =>
      cases hs
      by_cases hself : p = c.currentGolfer
      · rw [if_neg (not_not.mpr hself)]
        have hr := h.polls hp hself.symm
        exact h.setCpu (fun hno => absurd (hr.symm.trans hno) (by decide)) (by simp only [Client.packet, hcpu])
      · rw [if_pos hself]
        exact h.setCpu (fun _ => rfl) (by simp only [Client.packet, hcpu])
  · next hcpu =>
      split at hs
      · cases hs
        have hr := h.polling (by rw [hcpu]; rfl)
        exact h.setCpu (fun hno => absurd (hr.symm.trans hno) (by decide)) (by simp only [Client.packet, hcpu])
      · cases hs
  · next hcpu =>
      split at hs
      · cases hs
        have hr := h.polling (by rw [hcpu]; rfl)
        exact h.setCpu (fun hno => absurd (hr.symm.trans hno) (by decide)) (by simp only [Client.packet, hcpu])
      · cases hs
        exact h.pushPad hcpu
  · next hcpu =>
      cases hs
      have hr := h.polling (by rw [hcpu]; rfl)
      exact h.setCpu (fun hno => absurd (hr.symm.trans hno) (by decide)) (by simp only [Client.packet, hcpu])
  · next hcpu =>
      cases hs
      exact h.queuePacket hcpu
  · next hcpu =>
      split at hs
      · cases hs
      · cases hs
        exact h.setCpu (fun _ => rfl) (by simp only [Client.packet, hcpu])

theorem Plays.beginPoll (h : Plays r p c) (hcpu : c.cpu = .idle) (pads : Option (List Pad)) (padNb : Pad) :
    c.Goes g r p { c with cpu := .waitLoop pads padNb } :=
  h.setCpu (fun _ => rfl) (by simp only [Client.packet, hcpu])

/-! ## Statuses and requests -/

theorem Plays.requestGolfControl (h : Plays r p c) (pid : PlayerId) :
    c.Goes g r p { c with asyncQueue := c.asyncQueue ++ [.golfRequest pid] } := by
  refine Plays.stays ⟨h.golfers, h.invites, h.replies, ?_, ?_, h.up⟩ (.of_eq rfl ?_)
  · simp only [List.mem_append, List.mem_singleton]
    rintro m (hm | rfl)
    · exact h.queue m hm
    · rfl
  · intro hr
    refine ⟨(h.silent hr).1, ?_⟩
    simp only [List.mem_append, List.mem_singleton]
    rintro m (hm | rfl)
    · exact (h.silent hr).2 m hm
    · rfl
  · funext j
    simp only [unrelayed, Client.packet, List.flatMap_append, List.flatMap_cons, List.flatMap_nil,
      UpMessage.states, List.append_nil]

theorem Plays.padStatus (h : Plays r p c) {status : GCPadStatus}
    (hread : c.cpu.adding = some i → status = c.lastPadStatus i) :
    c.Goes g r p { c with
      lastPadStatus := Function.update c.lastPadStatus i status
      firstPadStatusReceived := Function.update c.firstPadStatusReceived i true } := by
  refine Plays.stays ⟨h.golfers, h.invites, h.replies, h.queue, h.silent, h.up⟩ (.of_eq rfl ?_)
  have hpacket : ({ c with
      lastPadStatus := Function.update c.lastPadStatus i status
      firstPadStatusReceived := Function.update c.firstPadStatusReceived i true } : Client).packet g =
        c.packet g := by
    simp only [Client.packet]
    split
    · rfl
    · next j is packet padNb hcpu =>
        by_cases hij : j = i
        · subst hij
          rw [Function.update_self, hread (by rw [hcpu]; rfl)]
        · rw [Function.update_of_ne hij]
    · rfl
  funext j
  show wires g j (_ ++ Client.packet g _) = _
  rw [hpacket]
  rfl

/-! ## The network thread -/

theorem Plays.setDrained (h : Plays r p c) (drained : Bool) : c.Goes g r p { c with drained := drained } :=
  Plays.stays ⟨h.golfers, h.invites, h.replies, h.queue, h.silent, h.up⟩ (.of_eq rfl rfl)

theorem Plays.netSend (h : Plays r p c) {m : UpMessage} {ms : List UpMessage} (hqueue : c.asyncQueue = m :: ms) :
    c.Goes g r p { c with asyncQueue := ms, up := c.up ++ [m] } := by
  have hreply := h.queue
  have hsilent := h.silent
  rw [hqueue] at hreply hsilent
  refine Plays.stays ⟨h.golfers, h.invites, ?_, ?_, ?_, ?_⟩ (.of_eq rfl ?_)
  · have hnone : [m].filter UpMessage.isReply = [] := by
      simp [hreply m List.mem_cons_self]
    simp only [Client.replies, List.filter_append, hnone, List.append_nil]
    exact h.replies
  · intro m' hm'
    exact hreply m' (List.mem_cons_of_mem _ hm')
  · intro hr
    exact ⟨(hsilent hr).1, fun m' hm' => (hsilent hr).2 m' (List.mem_cons_of_mem _ hm')⟩
  · exact h.up.append fun hr => (hsilent hr).2 m List.mem_cons_self
  · funext j
    simp only [unrelayed, Client.packet, hqueue, List.flatMap_append, List.flatMap_cons, List.flatMap_nil,
      List.append_assoc, List.nil_append]

theorem Role.Golfers.tail {m : DownMessage} {ms : List DownMessage} (h : r.Golfers p c) (hdown : c.down = m :: ms)
    (hm : m.golfer? = none) : r.Golfers p { c with down := ms } := by
  have hgolfers : ({ c with down := ms } : Client).golfers = c.golfers := by
    simp [Client.golfers, hdown, hm]
  have hquiet : (∀ m ∈ c.down, m.isPadData = false) → ∀ m ∈ ms, m.isPadData = false := by
    intro hall m' hm'
    exact hall m' (hdown ▸ List.mem_cons_of_mem _ hm')
  cases r with
  | bystander | invited | answered =>
      intro hmem
      exact h (hgolfers ▸ hmem)
  | golfer | accepting | dismissed | leaving => exact ⟨hgolfers.trans h.1, hquiet h.2⟩
  | elected =>
      obtain ⟨us, hus, hnot⟩ := h
      rw [hdown] at hus
      cases us with
      | nil =>
          simp only [List.nil_append, List.cons.injEq] at hus
          rw [hus.1] at hm
          cases hm
      | cons u us =>
          simp only [List.cons_append, List.cons.injEq] at hus
          obtain ⟨rfl, rfl⟩ := hus
          refine ⟨us, rfl, ?_⟩
          simpa [Client.golfers, hm] using hnot

theorem onPadData_eq (c : Client) (states : List PadState) : ∃ padBuffer, c.onPadData g states =
    { c with
      padBuffer := padBuffer
      pushed := fun i => c.pushed i ++ (states.filter (·.map = i)).map (readPad g) } := by
  induction states generalizing c with
  | nil =>
      refine ⟨c.padBuffer, ?_⟩
      simp [Client.onPadData]
  | cons e es ih =>
      have hstep : c.onPadData g (e :: es) = (c.push e.map (readPad g e)).onPadData g es := rfl
      obtain ⟨padBuffer, hes⟩ := ih (c.push e.map (readPad g e))
      refine ⟨padBuffer, ?_⟩
      rw [hstep, hes]
      simp only [Client.push]
      congr 1
      funext i
      rw [Function.update_apply]
      by_cases hi : i = e.map
      · rw [if_pos hi, hi, List.append_assoc, List.filter_cons, if_pos (decide_eq_true rfl)]
        rfl
      · rw [if_neg hi, List.filter_cons, if_neg (by simpa using Ne.symm hi)]

theorem Plays.onPadData (h : Plays r p c) {states : List PadState} {ms : List DownMessage}
    (hdown : c.down = .padData states :: ms) :
    c.Goes g r p (({ c with down := ms, drained := false } : Client).onPadData g states) := by
  obtain ⟨padBuffer, heq⟩ := onPadData_eq (g := g) { c with down := ms, drained := false } states
  rw [heq]
  refine Plays.stays ⟨h.golfers.tail hdown rfl, ?_, h.replies, h.queue, h.silent, h.up⟩ (.of_eq ?_ rfl)
  · rw [← h.invites]
    simp only [Client.invites, hdown]
    rfl
  · funext i
    simp only [seen, hdown, List.map_append, List.map_map, List.flatMap_cons, DownMessage.states, wires_append,
      List.append_assoc]
    rfl

theorem Plays.onGolfPrepare (h : Plays r p c) {ms : List DownMessage} (hdown : c.down = .golfPrepare :: ms) :
    c.Goes g r p ({ c with down := ms, drained := false } : Client).onGolfPrepare := by
  have hinvites := h.invites
  rw [Client.invites, hdown, List.countP_cons_of_pos rfl] at hinvites
  have hbound : r.invites ≤ 1 := by
    cases r <;> simp [Role.invites]
  have hwait : c.waitOnInputReceived = false := by
    cases hw : c.waitOnInputReceived with
    | false => rfl
    | true =>
        simp only [hw, Bool.toNat_true] at hinvites
        omega
  refine Plays.stays ⟨h.golfers.tail hdown rfl, ?_, h.replies, h.queue, h.silent, h.up⟩ (.of_eq ?_ rfl)
  · rw [← hinvites, hwait]
    rfl
  · funext i
    simp only [seen, hdown]
    rfl

theorem Plays.hearSwitch (h : Plays r p c) {pid : PlayerId} {ms : List DownMessage}
    (hdown : c.down = .golfSwitch pid :: ms) (hold : p ≠ c.currentGolfer) (hnew : p ≠ pid)
    (hgolfers : r.Golfers p { c with currentGolfer := pid, down := ms }) :
    c.Goes g r p (({ c with down := ms, drained := false } : Client).onGolfSwitch p pid) := by
  rw [Client.onGolfSwitch, if_neg hold, if_neg hnew]
  refine Plays.stays ⟨hgolfers, ?_, h.replies, h.queue, h.silent, h.up⟩ (.of_eq ?_ rfl)
  · rw [← h.invites]
    simp only [Client.invites, hdown]
    rfl
  · funext i
    simp only [seen, hdown]
    rfl

theorem Plays.onGolfSwitch (hp : p ≠ 0) (h : Plays r p c) {pid : PlayerId} {ms : List DownMessage}
    (hdown : c.down = .golfSwitch pid :: ms)
    (hok : c.currentGolfer = p → c.cpu.polling = false ∧ ∀ m ∈ c.asyncQueue, m.isPadHostData = false) :
    c.Goes g r p (({ c with down := ms, drained := false } : Client).onGolfSwitch p pid) := by
  have hknown : c.golfers = c.currentGolfer :: pid :: ms.filterMap DownMessage.golfer? := by
    simp [Client.golfers, hdown, DownMessage.golfer?]
  have hinvites := h.invites
  simp only [Client.invites, hdown] at hinvites
  have hreplies := h.replies
  have hgolfers := h.golfers
  have hseen : ∀ {c' : Client}, c'.pushed = c.pushed → c'.down = ms → seen g c' = seen g c := by
    intro c' hpushed hms
    funext i
    simp only [seen, hpushed, hms, hdown]
    rfl
  have hway : ∀ {c' : Client} {m : UpMessage}, m.isPadHostData = false → c'.up = c.up ++ [m] →
      c'.asyncQueue = c.asyncQueue → c'.packet g = c.packet g → unrelayed g c' = unrelayed g c := by
    intro c' m hm hup hqueue hpacket
    funext i
    simp only [unrelayed, hup, hqueue, hpacket, List.flatMap_append, List.flatMap_cons, List.flatMap_nil,
      UpMessage.states_eq_nil hm, List.append_nil]
  cases r with
  | bystander | invited | answered =>
      simp only [Role.Golfers, hknown, List.mem_cons, not_or] at hgolfers
      refine h.hearSwitch hdown hgolfers.1 hgolfers.2.1 ?_
      simpa [Role.Golfers, Client.golfers] using hgolfers.2
  | golfer | accepting | leaving =>
      rw [Role.Golfers, hknown] at hgolfers
      simp at hgolfers
  | dismissed =>
      simp only [Role.Golfers, hknown, List.cons.injEq] at hgolfers
      obtain ⟨⟨hself, hzero, hrest⟩, hquiet⟩ := hgolfers
      rw [Client.onGolfSwitch, if_pos hself.symm]
      refine ⟨.leaving, .leave, ⟨?_, hinvites, ?_, h.queue, ?_, ?_⟩,
        .of_eq (hseen rfl rfl) (hway rfl rfl rfl rfl)⟩
      · refine ⟨?_, fun m hm => hquiet m (hdown ▸ List.mem_cons_of_mem _ hm)⟩
        simp only [Client.golfers, hzero, hrest]
      · simp only [Client.replies, List.filter_append] at hreplies ⊢
        rw [hreplies]
        rfl
      · intro _
        exact hok hself
      · exact ⟨c.up, [], rfl, by simp⟩
  | elected =>
      obtain ⟨us, hus, hnot⟩ := hgolfers
      rw [hdown] at hus
      have hother : p ≠ c.currentGolfer := fun hself => hnot (List.mem_cons.mpr (.inl hself))
      cases us with
      | nil =>
          simp only [List.nil_append, List.cons.injEq, DownMessage.golfSwitch.injEq] at hus
          obtain ⟨rfl, rfl⟩ := hus
          rw [Client.onGolfSwitch, if_neg hother, if_pos rfl]
          refine ⟨.accepting, .accept, ⟨?_, hinvites, ?_, h.queue, ?_, trivial⟩,
            .of_eq (hseen rfl rfl) (hway rfl rfl rfl rfl)⟩
          · exact ⟨rfl, by simp⟩
          · simp only [Client.replies, List.filter_append] at hreplies ⊢
            rw [hreplies]
            rfl
          · intro hno
            cases hno
      | cons u us =>
          simp only [List.cons_append, List.cons.injEq] at hus
          obtain ⟨rfl, rfl⟩ := hus
          simp only [Client.golfers, List.filterMap_cons, DownMessage.golfer?, List.mem_cons, not_or] at hnot
          refine h.hearSwitch hdown hother hnot.2.1 ⟨us, rfl, ?_⟩
          simpa [Client.golfers] using hnot.2

theorem Plays.deliver (hp : p ≠ 0) (h : Plays r p c) {m : DownMessage} {ms : List DownMessage}
    (hdown : c.down = m :: ms)
    (hok : m.isGolfSwitch → c.currentGolfer = p →
      c.cpu.polling = false ∧ ∀ m ∈ c.asyncQueue, m.isPadHostData = false) :
    c.Goes g r p (({ c with down := ms, drained := false } : Client).onData g p m) := by
  cases m with
  | padData states => exact h.onPadData hdown
  | golfPrepare => exact h.onGolfPrepare hdown
  | golfSwitch pid => exact h.onGolfSwitch hp hdown (hok rfl)

end Karphin.NetPlay.Golf

/-!
# The phases of a hand-over

A phase gives each client its role. One client at most has states on the way to the server, and with these every
client has seen or will see the same states.
-/

namespace Karphin.NetPlay.Golf

open Karphin.NetPlay.PadSync (PlayerId Pad GCPadStatus Analog Setup PadState addPadStateToPacket readPad transmitted
  wires wires_nil wires_append wires_addPadState wires_relayed)

inductive Phase
  | settled (a : PlayerId)
  | preparing (a b : PlayerId)
  | prepared (a b : PlayerId)
  | dismissing (a b : PlayerId)
  | leaving (a b : PlayerId)
  | electing (b : PlayerId)
  | accepting (b : PlayerId)

namespace Phase

/-- The only client whose states may be on the way to the server. -/
def owner : Phase → PlayerId
  | .settled a | .preparing a _ | .prepared a _ | .dismissing a _ | .leaving a _ => a
  | .electing b | .accepting b => b

def current : Phase → PlayerId
  | .settled a | .preparing a _ | .prepared a _ => a
  | _ => 0

def pending : Phase → PlayerId
  | .settled _ => 0
  | .preparing _ b | .prepared _ b | .dismissing _ b | .leaving _ b | .electing b | .accepting b => b

def role (p : PlayerId) : Phase → Role
  | .settled a => if p = a then .golfer else .bystander
  | .preparing a b => if p = a then .golfer else if p = b then .invited else .bystander
  | .prepared a b => if p = a then .golfer else if p = b then .answered else .bystander
  | .dismissing a _ => if p = a then .dismissed else .bystander
  | .leaving a _ => if p = a then .leaving else .bystander
  | .electing b => if p = b then .elected else .bystander
  | .accepting b => if p = b then .accepting else .bystander

def Proper (g : Setup) : Phase → Prop
  | .settled _ => True
  | .preparing a b | .prepared a b | .dismissing a b | .leaving a b => b ∈ g.players ∧ a ≠ b
  | .electing b | .accepting b => b ∈ g.players

variable {g : Setup} {ph : Phase} {p : PlayerId} {r : Role}

theorem looksOn (h : p ≠ ph.owner) : (ph.role p).looksOn = true := by
  cases ph with
  | settled a => simp only [role, if_neg (show p ≠ a from h)]; rfl
  | preparing a b | prepared a b =>
      simp only [role, if_neg (show p ≠ a from h)]
      split <;> rfl
  | dismissing a b | leaving a b => simp only [role, if_neg (show p ≠ a from h)]; rfl
  | electing b | accepting b => simp only [role, if_neg (show p ≠ b from h)]; rfl

theorem current_cases (ph : Phase) : ph.current = 0 ∨ ph.current = ph.owner := by
  cases ph with
  | settled | preparing | prepared => exact .inr rfl
  | dismissing | leaving | electing | accepting => exact .inl rfl

theorem settled_of_pending (hzero : 0 ∉ g.players) (hproper : ph.Proper g) (h : ph.pending = 0) :
    ∃ a, ph = .settled a := by
  cases ph with
  | settled a => exact ⟨a, rfl⟩
  | preparing a b | prepared a b | dismissing a b | leaving a b =>
      have hb : b = 0 := h
      exact absurd (hb ▸ hproper.1) hzero
  | electing b | accepting b =>
      have hb : b = 0 := h
      exact absurd (hb ▸ hproper) hzero

/-! The phases in which a client has a role that only one phase gives. -/

theorem of_invited (h : ph.role p = .invited) : ∃ a, ph = .preparing a p ∧ p ≠ a := by
  cases ph with
  | preparing a b =>
      simp only [role] at h
      split_ifs at h with ha hb
      exact ⟨a, by rw [hb], ha⟩
  | settled | prepared | dismissing | leaving | electing | accepting =>
      simp only [role] at h
      split_ifs at h

theorem of_answered (h : ph.role p = .answered) : ∃ a, ph = .prepared a p ∧ p ≠ a := by
  cases ph with
  | prepared a b =>
      simp only [role] at h
      split_ifs at h with ha hb
      exact ⟨a, by rw [hb], ha⟩
  | settled | preparing | dismissing | leaving | electing | accepting =>
      simp only [role] at h
      split_ifs at h

theorem of_dismissed (h : ph.role p = .dismissed) : ∃ b, ph = .dismissing p b := by
  cases ph with
  | dismissing a b =>
      simp only [role] at h
      split_ifs at h with ha
      exact ⟨b, by rw [ha]⟩
  | settled | preparing | prepared | leaving | electing | accepting =>
      simp only [role] at h
      split_ifs at h

theorem of_leaving (h : ph.role p = .leaving) : ∃ b, ph = .leaving p b := by
  cases ph with
  | leaving a b =>
      simp only [role] at h
      split_ifs at h with ha
      exact ⟨b, by rw [ha]⟩
  | settled | preparing | prepared | dismissing | electing | accepting =>
      simp only [role] at h
      split_ifs at h

theorem of_elected (h : ph.role p = .elected) : ph = .electing p := by
  cases ph with
  | electing b =>
      simp only [role] at h
      split_ifs at h with hb
      rw [hb]
  | settled | preparing | prepared | dismissing | leaving | accepting =>
      simp only [role] at h
      split_ifs at h

theorem of_accepting (h : ph.role p = .accepting) : ph = .accepting p := by
  cases ph with
  | accepting b =>
      simp only [role] at h
      split_ifs at h with hb
      rw [hb]
  | settled | preparing | prepared | dismissing | leaving | electing =>
      simp only [role] at h
      split_ifs at h

theorem move (hproper : ph.Proper g) (h : Move (ph.role p) r) : ∃ ph' : Phase, ph'.Proper g ∧
    ph'.owner = ph.owner ∧ ph'.current = ph.current ∧ ph'.pending = ph.pending ∧ ph'.role p = r ∧
    ∀ q, q ≠ p → ph'.role q = ph.role q := by
  generalize hrole : ph.role p = role at h
  cases h with
  | stay => exact ⟨ph, hproper, rfl, rfl, rfl, hrole, fun _ _ => rfl⟩
  | answer =>
      obtain ⟨a, rfl, hpa⟩ := of_invited hrole
      refine ⟨.prepared a p, hproper, rfl, rfl, rfl, ?_, ?_⟩
      · simp [Phase.role, hpa]
      · intro q hq
        simp [Phase.role, hq]
  | leave =>
      obtain ⟨b, rfl⟩ := of_dismissed hrole
      refine ⟨.leaving p b, hproper, rfl, rfl, rfl, ?_, ?_⟩
      · simp [Phase.role]
      · intro q hq
        simp [Phase.role, hq]
  | accept =>
      obtain rfl := of_elected hrole
      refine ⟨.accepting p, hproper, rfl, rfl, rfl, ?_, ?_⟩
      · simp [Phase.role]
      · intro q hq
        simp [Phase.role, hq]

end Phase

/-! ## The invariant -/

/-- All states that have been polled of a pad: every client has seen them or will be sent them. -/
structure Inv (g : Setup) (ph : Phase) (polled : Pad → List (UInt16 × Option Analog)) (s : State) : Prop where
  proper : ph.Proper g
  current : s.currentGolfer = ph.current
  pending : s.pendingGolfer = ph.pending
  kicked : s.kicked = []
  plays : ∀ p ∈ g.players, Plays (ph.role p) p (s.client p)
  input : ∀ p ∈ g.players, ∀ i,
    seen g (s.client p) i ++ (if p = ph.owner then [] else unrelayed g (s.client ph.owner) i) = polled i

variable {g : Setup} {ph ph' : Phase} {p q : PlayerId} {r : Role} {s s' : State} {c : Client}
  {polled : Pad → List (UInt16 × Option Analog)}

theorem setClient_client (q : PlayerId) :
    (s.setClient p c).client q = if q = p then c else s.client q := Function.update_apply ..

theorem Inv.setClient (h : Inv g ph polled s) (hproper : ph'.Proper g)
    (howner : ph'.owner = ph.owner) (hrole : ∀ q, q ≠ p → ph'.role q = ph.role q)
    (hplays : Plays (ph'.role p) p c) (hadv : Advances g (ph.role p) (s.client p) c) :
    ∃ polled', Inv g ph' polled'
      { s.setClient p c with currentGolfer := ph'.current, pendingGolfer := ph'.pending } := by
  obtain ⟨new, hseen, hway, hnone⟩ := hadv
  refine ⟨fun i => polled i ++ new i, hproper, rfl, rfl, h.kicked, ?_, ?_⟩
  · intro q hq
    show Plays (ph'.role q) q ((s.setClient p c).client q)
    rw [setClient_client]
    by_cases hqp : q = p
    · rw [if_pos hqp, hqp]
      exact hplays
    · rw [if_neg hqp, hrole q hqp]
      exact h.plays q hq
  · intro q hq i
    show seen g ((s.setClient p c).client q) i ++
      (if q = ph'.owner then [] else unrelayed g ((s.setClient p c).client ph'.owner) i) = polled i ++ new i
    rw [howner, setClient_client, setClient_client, ← h.input q hq i]
    by_cases hpo : p = ph.owner
    · -- what the owner adds is on its way to the others
      rw [if_pos hpo.symm, ← hpo]
      by_cases hqp : q = p
      · rw [if_pos hqp, if_pos hqp, if_pos hqp, hseen, hqp, List.append_nil, List.append_nil]
      · rw [if_neg hqp, if_neg hqp, if_neg hqp, hway, List.append_assoc]
    · have hpolls : (ph.role p).polls = false := by
        have hlooks := Phase.looksOn hpo
        cases hr : ph.role p with
        | bystander | invited | answered | leaving | elected => rfl
        | golfer | dismissed | accepting => rw [hr] at hlooks; cases hlooks
      rw [if_neg (Ne.symm hpo), hnone hpolls i, List.append_nil]
      by_cases hqp : q = p
      · rw [if_pos hqp, hseen, hnone hpolls i, List.append_nil, hqp]
      · rw [if_neg hqp]

theorem Inv.goes (h : Inv g ph polled s) (hgoes : (s.client p).Goes g (ph.role p) p c) :
    ∃ ph' polled', Inv g ph' polled' (s.setClient p c) := by
  obtain ⟨r, hmove, hplays, hadv⟩ := hgoes
  obtain ⟨ph', hproper, howner, hcurrent, hpending, hr, hrole⟩ := Phase.move h.proper hmove
  obtain ⟨polled', hinv⟩ := h.setClient hproper howner hrole (hr ▸ hplays) hadv
  rw [hcurrent, hpending, ← h.current, ← h.pending] at hinv
  exact ⟨ph', polled', hinv⟩

end Karphin.NetPlay.Golf
