import Karphin.NetPlay.PadSync.Defs

/-!
# Every client pops a prefix of what the owner has pushed

For each pad, what a client has popped, what it has buffered, what is on its way to it, what is on its way from the
owner to the server and what the owner is putting into a packet together are what the owner has pushed.
-/

namespace Karphin.NetPlay.PadSync

open Karphin.Lib

variable {g : Setup} {p q : PlayerId} {i j : Pad} {c c' : Client} {game : Nat}

/-! ## The invariant -/

namespace Cpu

def pads : Cpu → List Pad
  | .poll pads _ _ _ => pads
  | _ => []

def packet : Cpu → List PadState
  | .poll _ _ packet _ => packet
  | _ => []

end Cpu

def pending (g : Setup) (c : Client) (i : Pad) : List (UInt16 × Option Analog) :=
  (c.popped i ++ if c.isRunning then c.padBuffer i else []).map (transmitted g i) ++
    wires g i (liveDown c.invited c.down)

def onTheWay (g : Setup) (c : Client) (game : Nat) (i : Pad) : List (UInt16 × Option Analog) :=
  wires g i (liveUp g game c.up) ++ wires g i c.cpu.packet

def sentBy (g : Setup) (c : Client) (i : Pad) : List (UInt16 × Option Analog) :=
  (c.pushed i).map (transmitted g i)

/-- A client sends states of its own pads only, in the game that it has reported. -/
structure ClientOk (g : Setup) (p : PlayerId) (c : Client) (game : Nat) : Prop where
  pads : ∀ i ∈ c.cpu.pads, g.padMap i = p
  packet : ∀ e ∈ c.cpu.packet, g.padMap e.map = p
  up : ∀ e ∈ liveUp g game c.up, g.padMap e.map = p
  down : ∀ e ∈ liveDown c.invited c.down, g.padMap e.map ≠ p
  told : told c.invited c.down = true
  running : c.isRunning = true → c.invited = true ∧ lastGame game c.up = g.game
  idle : c.isRunning = false → c.cpu = .idle ∧ ∀ i, c.pushed i = [] ∧ c.popped i = []
  own : c.isRunning = true → ∀ i, g.padMap i = p → c.popped i ++ c.padBuffer i = c.pushed i

theorem ClientOk.isRunning (h : ClientOk g p c game) (hcpu : c.cpu ≠ .idle) : c.isRunning = true := by
  cases hr : c.isRunning with
  | true => rfl
  | false => exact absurd (h.idle hr).1 hcpu

structure Inv (g : Setup) (s : State) : Prop where
  clients : ∀ p, ClientOk g p (s.client p) (s.currentGame p)
  streams : ∀ p ∈ g.players, ∀ i, g.padMap i ≠ p →
    pending g (s.client p) i ++ onTheWay g (s.client (g.padMap i)) (s.currentGame (g.padMap i)) i =
      sentBy g (s.client (g.padMap i)) i

variable {s s' : State}

theorem setClient_client (q : PlayerId) :
    (s.setClient p c).client q = if q = p then c else s.client q := Function.update_apply ..

theorem Inv.setClient (h : Inv g s) (hok : ClientOk g p c (s.currentGame p))
    (hpending : ∀ i, g.padMap i ≠ p → pending g c i = pending g (s.client p) i)
    (hsent : ∀ i, g.padMap i = p → ∃ new,
      onTheWay g c (s.currentGame p) i = onTheWay g (s.client p) (s.currentGame p) i ++ new ∧
      sentBy g c i = sentBy g (s.client p) i ++ new) : Inv g (s.setClient p c) := by
  refine ⟨?_, ?_⟩
  · intro q
    rw [setClient_client]
    by_cases hq : q = p
    · rw [if_pos hq, hq]
      exact hok
    · rw [if_neg hq]
      exact h.clients q
  · intro q hq i hi
    have hold := h.streams q hq i hi
    have hleft : pending g ((s.setClient p c).client q) i = pending g (s.client q) i := by
      rw [setClient_client]
      by_cases hqp : q = p
      · rw [if_pos hqp, hqp]
        exact hpending i (hqp ▸ hi)
      · rw [if_neg hqp]
    rw [hleft]
    by_cases ho : g.padMap i = p
    · obtain ⟨new, hway, hby⟩ := hsent i ho
      rw [setClient_client, if_pos ho, ho]
      rw [ho] at hold
      show pending g (s.client q) i ++ onTheWay g c (s.currentGame p) i = sentBy g c i
      rw [hway, hby, ← hold, List.append_assoc]
    · rw [setClient_client, if_neg ho]
      exact hold

theorem Inv.setClient_quiet (h : Inv g s) (hok : ClientOk g p c (s.currentGame p))
    (hpending : ∀ i, g.padMap i ≠ p → pending g c i = pending g (s.client p) i)
    (hway : ∀ i, onTheWay g c (s.currentGame p) i = onTheWay g (s.client p) (s.currentGame p) i)
    (hpushed : c.pushed = (s.client p).pushed) : Inv g (s.setClient p c) := by
  refine h.setClient hok hpending fun i _ => ⟨[], ?_, ?_⟩
  · rw [hway, List.append_nil]
  · rw [sentBy, sentBy, hpushed, List.append_nil]

/-! ## The start of the game -/

theorem Inv.startGame (h : Inv g s) (hinv : (s.client p).invited = true) (hrun : (s.client p).isRunning = false) :
    Inv g (s.setClient p ((s.client p).startGame g)) := by
  have hc := h.clients p
  obtain ⟨hidle, hnone⟩ := hc.idle hrun
  refine h.setClient_quiet ⟨hc.pads, hc.packet, ?_, hc.down, hc.told, ?_, ?_, ?_⟩ ?_ ?_ rfl
  · rw [Client.startGame, liveUp_startGame]
    exact hc.up
  · intro _
    refine ⟨hinv, ?_⟩
    rw [Client.startGame, lastGame_startGame]
  · intro hf
    cases hf
  · intro _ i _
    simp only [Client.startGame, List.append_nil, (hnone i).1, (hnone i).2]
  · intro i _
    simp only [pending, Client.startGame, hrun, (hnone i).2]
    rfl
  · intro i
    simp only [onTheWay, Client.startGame, liveUp_startGame]

/-! ## Polls -/

theorem Inv.beginPoll (h : Inv g s) (hrun : (s.client p).isRunning = true) (hcpu : (s.client p).cpu = .idle)
    (padNb : Pad) (batching : Bool) :
    Inv g (s.setClient p { s.client p with cpu := .poll (g.polledPads p padNb batching) none [] padNb }) := by
  have hc := h.clients p
  refine h.setClient_quiet ⟨?_, ?_, hc.up, hc.down, hc.told, hc.running, ?_, hc.own⟩ ?_ ?_ rfl
  · intro i hi
    exact Setup.polledPads_mine hi
  · intro e he
    cases he
  · intro hno
    exact absurd (hrun.symm.trans hno) (by decide)
  · intro i _
    rfl
  · intro i
    simp only [onTheWay, hcpu]
    rfl

theorem Inv.pushPad (h : Inv g s) {is : List Pad} {pad : GCPadStatus} {packet : List PadState} {padNb : Pad}
    (hcpu : (s.client p).cpu = .poll (i :: is) (some pad) packet padNb) :
    Inv g (s.setClient p { (s.client p).push i pad with
      pushed := Function.update (s.client p).pushed i ((s.client p).pushed i ++ [pad])
      cpu := .poll (i :: is) (some pad) (packet ++ [addPadStateToPacket g i pad]) padNb }) := by
  have hc := h.clients p
  have hpads := hc.pads
  have hpacket := hc.packet
  rw [hcpu] at hpads hpacket
  have hi : g.padMap i = p := hpads i List.mem_cons_self
  have hrun := hc.isRunning (by rw [hcpu]; exact Cpu.noConfusion)
  refine h.setClient ⟨hpads, ?_, hc.up, hc.down, hc.told, hc.running, ?_, ?_⟩ ?_ ?_
  · intro e he
    rcases List.mem_append.mp he with he | he
    · exact hpacket e he
    · rw [List.mem_singleton.mp he]
      exact hi
  · intro hno
    exact absurd (hrun.symm.trans hno) (by decide)
  · intro _ j hj
    have hown := hc.own hrun j hj
    simp only [Client.push, Function.update_apply]
    by_cases hij : j = i
    · rw [if_pos hij, if_pos hij, ← List.append_assoc, ← hij, hown]
    · rw [if_neg hij, if_neg hij]
      exact hown
  · intro j hj
    have hij : j ≠ i := by
      rintro rfl
      exact hj hi
    simp only [pending, Client.push, Function.update_apply, if_neg hij]
  · intro j _
    refine ⟨wires g j [addPadStateToPacket g i pad], ?_, ?_⟩
    · simp only [onTheWay, Client.push, Cpu.packet, hcpu, wires_append, List.append_assoc]
    · rw [wires_addPadState]
      simp only [sentBy, Function.update_apply]
      by_cases hij : j = i
      · rw [if_pos hij, if_pos hij.symm, List.map_append, hij]
        rfl
      · rw [if_neg hij, if_neg (Ne.symm hij), List.append_nil]

theorem Inv.sendPoll (h : Inv g s) {status : Option GCPadStatus} {packet : List PadState} {padNb : Pad}
    (hcpu : (s.client p).cpu = .poll [] status packet padNb) :
    Inv g (s.setClient p { s.client p with
      up := if packet.isEmpty then (s.client p).up else (s.client p).up ++ [.padData packet]
      cpu := .pop padNb }) := by
  have hc := h.clients p
  have hpacket := hc.packet
  rw [hcpu] at hpacket
  have hrun := hc.isRunning (by rw [hcpu]; exact Cpu.noConfusion)
  obtain ⟨hinv, hlast⟩ := hc.running hrun
  have hup : liveUp g (s.currentGame p) (if packet.isEmpty then (s.client p).up
      else (s.client p).up ++ [.padData packet]) = liveUp g (s.currentGame p) (s.client p).up ++ packet := by
    cases packet with
    | nil => rw [List.append_nil]; rfl
    | cons e es => exact liveUp_padData hlast
  have hlast' : lastGame (s.currentGame p) (if packet.isEmpty then (s.client p).up
      else (s.client p).up ++ [.padData packet]) = g.game := by
    cases packet with
    | nil => exact hlast
    | cons e es => exact lastGame_padData.trans hlast
  refine h.setClient_quiet ⟨?_, ?_, ?_, hc.down, hc.told, fun _ => ⟨hinv, hlast'⟩, ?_, hc.own⟩ ?_ ?_ rfl
  · intro j hj
    cases hj
  · intro e he
    cases he
  · rw [hup]
    intro e he
    rcases List.mem_append.mp he with he | he
    · exact hc.up e he
    · exact hpacket e he
  · intro hno
    exact absurd (hrun.symm.trans hno) (by decide)
  · intro j _
    rfl
  · intro j
    simp only [onTheWay, hup, wires_append, hcpu, Cpu.packet, wires_nil, List.append_nil]

theorem Inv.popPad (h : Inv g s) {pad : GCPadStatus} {pads : List GCPadStatus} (hcpu : (s.client p).cpu = .pop i)
    (hbuffer : (s.client p).padBuffer i = pad :: pads) :
    Inv g (s.setClient p { s.client p with
      padBuffer := Function.update (s.client p).padBuffer i pads
      popped := Function.update (s.client p).popped i ((s.client p).popped i ++ [pad])
      cpu := .idle }) := by
  have hc := h.clients p
  have hrun := hc.isRunning (by rw [hcpu]; exact Cpu.noConfusion)
  have hmove : ∀ j, Function.update (s.client p).popped i ((s.client p).popped i ++ [pad]) j ++
      Function.update (s.client p).padBuffer i pads j = (s.client p).popped j ++ (s.client p).padBuffer j := by
    intro j
    simp only [Function.update_apply]
    by_cases hij : j = i
    · rw [if_pos hij, if_pos hij, hij, hbuffer, List.append_assoc]
      rfl
    · rw [if_neg hij, if_neg hij]
  refine h.setClient_quiet ⟨?_, ?_, hc.up, hc.down, hc.told, hc.running, ?_, ?_⟩ ?_ ?_ rfl
  · intro j hj
    cases hj
  · intro e he
    cases he
  · intro hno
    exact absurd (hrun.symm.trans hno) (by decide)
  · intro _ j hj
    rw [hmove]
    exact hc.own hrun j hj
  · intro j _
    simp only [pending, hrun, if_true, hmove]
  · intro j
    simp only [onTheWay, hcpu]
    rfl

theorem Inv.getNetPads (h : Inv g s) {status : GCPadStatus} (hs : (s.client p).getNetPads g status = some c) :
    Inv g (s.setClient p c) := by
  have hc := h.clients p
  simp only [Client.getNetPads] at hs
  split at hs
  · cases hs
  · next hcpu =>
      cases hs
      have hpads := hc.pads
      have hpacket := hc.packet
      rw [hcpu] at hpads hpacket
      refine h.setClient_quiet ⟨hpads, hpacket, hc.up, hc.down, hc.told, hc.running, ?_, hc.own⟩ ?_ ?_ rfl
      · intro hno
        exact absurd (hc.idle hno).1 (by rw [hcpu]; exact Cpu.noConfusion)
      · intro j _
        rfl
      · intro j
        simp only [onTheWay, hcpu]
        rfl
  · next hcpu =>
      split at hs
      · cases hs
        exact h.pushPad hcpu
      · cases hs
        have hpads := hc.pads
        have hpacket := hc.packet
        rw [hcpu] at hpads hpacket
        refine h.setClient_quiet ⟨fun j hj => hpads j (List.mem_cons_of_mem _ hj), hpacket, hc.up, hc.down, hc.told,
          hc.running, ?_, hc.own⟩ ?_ ?_ rfl
        · intro hno
          exact absurd (hc.idle hno).1 (by rw [hcpu]; exact Cpu.noConfusion)
        · intro j _
          rfl
        · intro j
          simp only [onTheWay, hcpu]
          rfl
  · next hcpu =>
      cases hs
      exact h.sendPoll hcpu
  · next hcpu =>
      split at hs
      · cases hs
      · next hbuffer =>
          cases hs
          exact h.popPad hcpu hbuffer

/-! ## Messages -/

theorem onPadData_eq (c : Client) (states : List PadState) : c.onPadData g states =
    { c with padBuffer := fun i => c.padBuffer i ++ (states.filter (·.map = i)).map (readPad g) } := by
  induction states generalizing c with
  | nil => simp [Client.onPadData]
  | cons e es ih =>
      have hstep : c.onPadData g (e :: es) = (c.push e.map (readPad g e)).onPadData g es := rfl
      rw [hstep, ih]
      simp only [Client.push]
      congr 1
      funext i
      rw [Function.update_apply]
      by_cases hi : i = e.map
      · rw [if_pos hi, hi, List.append_assoc, List.filter_cons, if_pos (decide_eq_true rfl)]
        rfl
      · rw [if_neg hi, List.filter_cons, if_neg (by simpa using Ne.symm hi)]

theorem Inv.deliver (h : Inv g s) {m : DownMessage} {ms : List DownMessage} (hdown : (s.client p).down = m :: ms)
    (hok : (s.client p).invited = true → (s.client p).isRunning = false → m.isPadData = false) :
    Inv g (s.setClient p (({ s.client p with down := ms } : Client).onData g m)) := by
  have hc := h.clients p
  have hlive := hc.down
  have htold := hc.told
  rw [hdown] at hlive htold
  cases m with
  | padBuffer size =>
      refine h.setClient_quiet ⟨hc.pads, hc.packet, hc.up, hlive, htold, hc.running, hc.idle, hc.own⟩ ?_ ?_ rfl
      · intro i _
        simp only [pending, hdown]
        rfl
      · intro i
        rfl
  | startGame =>
      refine h.setClient_quiet ⟨hc.pads, hc.packet, hc.up, hlive, htold, ?_, hc.idle, hc.own⟩ ?_ ?_ rfl
      · intro hr
        exact ⟨rfl, (hc.running hr).2⟩
      · intro i _
        simp only [pending, hdown]
        rfl
      · intro i
        rfl
  | padData es =>
      simp only [Client.onData, onPadData_eq]
      cases hinv : (s.client p).invited with
      | false =>
          -- what is left of an earlier game
          have hrun : (s.client p).isRunning = false := by
            cases hr : (s.client p).isRunning with
            | false => rfl
            | true => exact absurd (hinv.symm.trans (hc.running hr).1) (by decide)
          rw [hinv] at hlive htold
          refine h.setClient_quiet ⟨hc.pads, hc.packet, hc.up, hlive, htold, ?_, hc.idle, ?_⟩ ?_ ?_ rfl
          · intro hr
            exact absurd (hrun.symm.trans hr) (by decide)
          · intro hr
            exact absurd (hrun.symm.trans hr) (by decide)
          · intro i _
            simp only [pending, hdown, hrun, hinv, liveDown, Bool.false_eq_true, if_false]
          · intro i
            rfl
      | true =>
          have hrun : (s.client p).isRunning = true := by
            cases hr : (s.client p).isRunning with
            | true => rfl
            | false => exact Bool.noConfusion (hok hinv hr)
          rw [hinv] at hlive htold
          simp only [liveDown, if_true] at hlive
          refine h.setClient_quiet ⟨hc.pads, hc.packet, hc.up, ?_, htold, ?_, hc.idle, ?_⟩ ?_ ?_ rfl
          · intro e he
            exact hlive e (List.mem_append_right _ he)
          · intro _
            exact ⟨rfl, (hc.running hrun).2⟩
          · intro _ i hi
            have hnone : es.filter (·.map = i) = [] := by
              rw [List.filter_eq_nil_iff]
              intro e he heq
              have hmap : e.map = i := of_decide_eq_true heq
              exact hlive e (List.mem_append_left _ he) (hmap ▸ hi)
            simp only [hnone, List.map_nil, List.append_nil]
            exact hc.own hrun i hi
          · intro i _
            simp only [pending, hdown, hrun, hinv, liveDown, if_true, wires, List.filter_append, List.map_append,
              List.map_map, List.append_assoc]
            rfl
          · intro i
            rfl

theorem Inv.adjustPadBufferSize (h : Inv g s) (size : Nat) : Inv g (s.sendToClients g (.padBuffer size) 0) := by
  have hsame : ∀ q, ∃ down', ((s.sendToClients g (.padBuffer size) 0).client q) =
      { s.client q with down := down' } ∧
      liveDown (s.client q).invited down' = liveDown (s.client q).invited (s.client q).down ∧
      told (s.client q).invited down' = true := by
    intro q
    simp only [State.sendToClients]
    split
    · obtain ⟨hlive, htold⟩ := liveDown_append (m := .padBuffer size) (h.clients q).told
      exact ⟨_, rfl, hlive.trans (List.append_nil _), htold⟩
    · exact ⟨(s.client q).down, rfl, rfl, (h.clients q).told⟩
  refine ⟨?_, ?_⟩
  · intro q
    obtain ⟨down', hclient, hlive, htold⟩ := hsame q
    have hc := h.clients q
    rw [hclient]
    refine ⟨hc.pads, hc.packet, hc.up, ?_, htold, hc.running, hc.idle, hc.own⟩
    simp only [hlive]
    exact hc.down
  · intro q hq i hi
    obtain ⟨down', hclient, hlive, -⟩ := hsame q
    obtain ⟨down'', howner, -, -⟩ := hsame (g.padMap i)
    rw [hclient, howner]
    have hpending : pending g { s.client q with down := down' } i = pending g (s.client q) i := by
      simp only [pending, hlive]
    rw [hpending]
    exact h.streams q hq i hi

theorem Inv.receive (h : Inv g s) {game' : Nat} {ms : List UpMessage}
    (hlive : liveUp g game' ms = liveUp g (s.currentGame p) (s.client p).up)
    (hlast : lastGame game' ms = lastGame (s.currentGame p) (s.client p).up) :
    Inv g { s.setClient p { s.client p with up := ms } with
      currentGame := Function.update s.currentGame p game' } := by
  have hclient : ∀ q, ∃ up', ((s.setClient p { s.client p with up := ms }).client q) = { s.client q with up := up' } ∧
      liveUp g (Function.update s.currentGame p game' q) up' = liveUp g (s.currentGame q) (s.client q).up ∧
      lastGame (Function.update s.currentGame p game' q) up' = lastGame (s.currentGame q) (s.client q).up := by
    intro q
    rw [setClient_client, Function.update_apply]
    by_cases hq : q = p
    · subst hq
      rw [if_pos rfl, if_pos rfl]
      exact ⟨ms, rfl, hlive, hlast⟩
    · rw [if_neg hq, if_neg hq]
      exact ⟨(s.client q).up, rfl, rfl, rfl⟩
  refine ⟨?_, ?_⟩
  · intro q
    obtain ⟨up', hq, hl, hg⟩ := hclient q
    have hc := h.clients q
    show ClientOk g q ((s.setClient p _).client q) _
    rw [hq]
    refine ⟨hc.pads, hc.packet, ?_, hc.down, hc.told, ?_, hc.idle, hc.own⟩
    · simp only [hl]
      exact hc.up
    · intro hr
      exact ⟨(hc.running hr).1, hg.trans (hc.running hr).2⟩
  · intro q hq i hi
    obtain ⟨up', hcq, -, -⟩ := hclient q
    obtain ⟨up'', hco, hl, -⟩ := hclient (g.padMap i)
    show pending g ((s.setClient p _).client q) i ++ onTheWay g ((s.setClient p _).client (g.padMap i)) _ i =
      sentBy g ((s.setClient p _).client (g.padMap i)) i
    rw [hcq, hco]
    have hway : onTheWay g { s.client (g.padMap i) with up := up'' }
        (Function.update s.currentGame p game' (g.padMap i)) i =
          onTheWay g (s.client (g.padMap i)) (s.currentGame (g.padMap i)) i := by
      simp only [onTheWay, hl]
    simp only [hway]
    exact h.streams q hq i hi

theorem Inv.relayPads (h : Inv g s) {es : List PadState} {ms : List UpMessage}
    (hup : (s.client p).up = .padData es :: ms) (hgame : s.currentGame p = g.game) :
    Inv g ((s.setClient p { s.client p with up := ms }).sendToClients g (.padData (State.relayed g es)) p) := by
  have howner : ∀ e ∈ es, g.padMap e.map = p := by
    intro e he
    refine (h.clients p).up e ?_
    rw [hup, liveUp, if_pos hgame]
    exact List.mem_append_left _ he
  have hmine : ∀ e ∈ State.relayed g es, g.padMap e.map = p := by
    intro e he
    obtain ⟨e', he', rfl⟩ := List.mem_map.mp he
    exact howner e' he'
  have hself : ∀ {q}, q = p → ((s.setClient p { s.client p with up := ms }).sendToClients g
      (.padData (State.relayed g es)) p).client q = { s.client p with up := ms } := by
    rintro q rfl
    simp only [State.sendToClients]
    rw [if_neg fun hh => hh.2 rfl, setClient_client, if_pos rfl]
  have hother : ∀ {q}, q ≠ p → ∃ down', ((s.setClient p { s.client p with up := ms }).sendToClients g
      (.padData (State.relayed g es)) p).client q = { s.client q with down := down' } ∧
      told (s.client q).invited down' = true ∧
      ((q ∈ g.players ∧ liveDown (s.client q).invited down' =
          liveDown (s.client q).invited (s.client q).down ++ State.relayed g es) ∨
        (q ∉ g.players ∧ down' = (s.client q).down)) := by
    intro q hq
    simp only [State.sendToClients]
    rw [setClient_client, if_neg hq]
    by_cases hin : q ∈ g.players
    · rw [if_pos ⟨hin, hq⟩]
      obtain ⟨hlive, htold⟩ := liveDown_append (m := .padData (State.relayed g es)) (h.clients q).told
      refine ⟨_, rfl, htold, Or.inl ⟨hin, hlive.trans ?_⟩⟩
      simp only [liveDown, if_true, List.append_nil]
    · rw [if_neg fun hh => hin hh.1]
      exact ⟨_, rfl, (h.clients q).told, Or.inr ⟨hin, rfl⟩⟩
  have hlive : liveUp g (s.currentGame p) (s.client p).up = es ++ liveUp g (s.currentGame p) ms := by
    rw [hup, liveUp, if_pos hgame]
  refine ⟨?_, ?_⟩
  · intro q
    have hc := h.clients q
    by_cases hq : q = p
    · rw [hself hq]
      subst hq
      refine ⟨hc.pads, hc.packet, ?_, hc.down, hc.told, ?_, hc.idle, hc.own⟩
      · intro e he
        refine hc.up e ?_
        rw [hlive]
        exact List.mem_append_right _ he
      · intro hr
        refine ⟨(hc.running hr).1, ?_⟩
        have hl := (hc.running hr).2
        rw [hup] at hl
        exact hl
    · obtain ⟨down', hclient, htold, hdown⟩ := hother hq
      rw [hclient]
      refine ⟨hc.pads, hc.packet, hc.up, ?_, htold, hc.running, hc.idle, hc.own⟩
      intro e he
      rcases hdown with ⟨-, hd⟩ | ⟨-, hd⟩
      · simp only [hd] at he
        rcases List.mem_append.mp he with he | he
        · exact hc.down e he
        · rw [hmine e he]
          exact Ne.symm hq
      · simp only [hd] at he
        exact hc.down e he
  · intro q hq i hi
    have hold := h.streams q hq i hi
    by_cases hqp : q = p
    · -- the sender is told nothing, and the owner of the pad is somebody else
      subst hqp
      obtain ⟨down', hclient, -, -⟩ := hother hi
      rw [hself rfl, hclient]
      exact hold
    · obtain ⟨down', hclient, -, hdown⟩ := hother hqp
      have hd := hdown.resolve_right fun hh => hh.1 hq
      have hpending : pending g { s.client q with down := down' } i =
          pending g (s.client q) i ++ wires g i es := by
        simp only [pending, hd.2, wires_append, wires_relayed, List.append_assoc]
      rw [hclient, hpending]
      by_cases ho : g.padMap i = p
      · rw [ho] at hold
        rw [hself ho, ho, List.append_assoc]
        have hway : wires g i es ++ onTheWay g { s.client p with up := ms } (s.currentGame p) i =
            onTheWay g (s.client p) (s.currentGame p) i := by
          simp only [onTheWay, hlive, wires_append, List.append_assoc]
        exact (congrArg _ hway).trans hold
      · have hnone : wires g i es = [] := by
          refine wires_eq_nil fun e he hmap => ho ?_
          rw [← hmap]
          exact howner e he
        obtain ⟨down'', howner', -, -⟩ := hother ho
        rw [hnone, List.append_nil, howner']
        exact hold

theorem Inv.relay (h : Inv g s) {m : UpMessage} {ms : List UpMessage} (hup : (s.client p).up = m :: ms) :
    Inv g ((s.setClient p { s.client p with up := ms }).onData g p m) := by
  cases m with
  | startGame game' =>
      refine h.receive ?_ ?_
      · rw [hup]; rfl
      · rw [hup]; rfl
  | padData es =>
      simp only [State.onData, State.onPadData]
      split
      · next hold =>
          have hgame : s.currentGame p ≠ g.game := hold
          have hrec : Inv g { s.setClient p { s.client p with up := ms } with
              currentGame := Function.update s.currentGame p (s.currentGame p) } := by
            refine h.receive ?_ ?_
            · rw [hup, liveUp, if_neg hgame]
            · rw [hup]; rfl
          rw [Function.update_eq_self] at hrec
          exact hrec
      · next hnew =>
          have hgame : s.currentGame p = g.game := not_not.mp hnew
          have hall : es.all (g.padMap ·.map = p) = true := by
            rw [List.all_eq_true]
            intro e he
            refine decide_eq_true ((h.clients p).up e ?_)
            rw [hup, liveUp, if_pos hgame]
            exact List.mem_append_left _ he
          rw [if_pos hall]
          exact h.relayPads hup hgame

/-! ## Runs -/

theorem liveUp_eq_nil {ms : List UpMessage} (h : game ≠ g.game) (hms : ∀ game', .startGame game' ∈ ms → game' ≠ g.game) :
    liveUp g game ms = [] := by
  induction ms generalizing game with
  | nil => rfl
  | cons m ms ih =>
      have htail : ∀ game', .startGame game' ∈ ms → game' ≠ g.game := fun game' hm =>
        hms game' (List.mem_cons_of_mem m hm)
      cases m with
      | startGame game' => exact ih (hms game' List.mem_cons_self) htail
      | padData es =>
          rw [liveUp, if_neg h]
          exact ih h htail

theorem liveDown_old {ms : List DownMessage} (h : .startGame ∉ ms) :
    liveDown false (ms ++ [.startGame]) = [] ∧ told false (ms ++ [.startGame]) = true := by
  induction ms with
  | nil => exact ⟨rfl, rfl⟩
  | cons m ms ih =>
      have htail : .startGame ∉ ms := fun hm => h (List.mem_cons_of_mem m hm)
      cases m with
      | padBuffer size => exact ih htail
      | startGame => exact absurd List.mem_cons_self h
      | padData es => exact ih htail

theorem Inv.init (h : s.Initial g) : Inv g s := by
  have hup : ∀ p, liveUp g (s.currentGame p) (s.client p).up = [] := fun p =>
    liveUp_eq_nil (h.currentGame p) (h.up p)
  have hdown : ∀ p, liveDown (s.client p).invited (s.client p).down = [] ∧
      told (s.client p).invited (s.client p).down = true := by
    intro p
    obtain ⟨old, hold, hno⟩ := h.down p
    rw [hold, (h.client p).1]
    exact liveDown_old hno
  refine ⟨?_, ?_⟩
  · intro p
    obtain ⟨-, hrun, hcpu⟩ := h.client p
    refine ⟨?_, ?_, ?_, ?_, (hdown p).2, ?_, fun _ => ⟨hcpu, h.streams p⟩, ?_⟩
    · rw [hcpu]; intro i hi; cases hi
    · rw [hcpu]; intro e he; cases he
    · rw [hup]; intro e he; cases he
    · rw [(hdown p).1]; intro e he; cases he
    · intro hr
      exact absurd (hrun.symm.trans hr) (by decide)
    · intro hr
      exact absurd (hrun.symm.trans hr) (by decide)
  · intro p _ i _
    simp only [pending, onTheWay, sentBy, hup, (hdown p).1, (h.client p).2.1, (h.client (g.padMap i)).2.2,
      (h.streams p i).2, (h.streams (g.padMap i) i).1]
    rfl

theorem Inv.step (h : Inv g s) {op : State.Op} (hok : s.Orderly op) (hs : s.step g op = some s') : Inv g s' := by
  cases op with
  | adjustPadBufferSize size => cases hs; exact h.adjustPadBufferSize size
  | startGame p =>
      simp only [State.step] at hs
      split at hs
      · next hp => cases hs; exact h.startGame hp.2.1 (by simpa using hp.2.2)
      · cases hs
  | beginPoll p padNb batching =>
      simp only [State.step] at hs
      split at hs
      · next hp =>
          split at hs
          · next hcpu => cases hs; exact h.beginPoll hp.2 hcpu padNb batching
          · cases hs
      · cases hs
  | getNetPads p status =>
      simp only [State.step] at hs
      split at hs
      · obtain ⟨c, hc, rfl⟩ := Option.map_eq_some_iff.mp hs
        exact h.getNetPads hc
      · cases hs
  | relay p =>
      simp only [State.step] at hs
      split at hs
      · split at hs
        · cases hs
        · next hup => cases hs; exact h.relay hup
      · cases hs
  | deliver p =>
      simp only [State.step] at hs
      split at hs
      · split at hs
        · cases hs
        · next hdown =>
            cases hs
            refine h.deliver hdown fun hinv hrun => hok hinv hrun _ ?_
            rw [hdown]
            rfl
      · cases hs

theorem Inv.agreement (h : Inv g s) : s.Agreement g := by
  intro p hp i
  by_cases hi : g.padMap i = p
  · rw [hi]
    cases hrun : (s.client p).isRunning with
    | true =>
        rw [← (h.clients p).own hrun i hi, List.map_append]
        exact List.prefix_append _ _
    | false =>
        rw [(((h.clients p).idle hrun).2 i).2]
        exact List.nil_prefix
  · have hstream := h.streams p hp i hi
    rw [sentBy, pending, List.map_append, List.append_assoc, List.append_assoc] at hstream
    exact ⟨_, hstream⟩

/-- In orderly runs of a game each client pops, for each pad, a prefix of what the owner of the pad has pushed, so
that any two clients have consumed comparable streams. -/
theorem input_agreement (g : Setup) (s₀ s : State) (h₀ : s₀.Initial g)
    (h : Reach (State.step g) State.Orderly s₀ s) : s.Agreement g ∧ s.Comparable g := by
  have hinv : Inv g s := h.invariant (Inv g) (Inv.init h₀) fun hs hok hstep => hs.step hok hstep
  refine ⟨hinv.agreement, ?_⟩
  intro p hp q hq i
  exact List.prefix_or_prefix_of_prefix (hinv.agreement p hp i) (hinv.agreement q hq i)

def twoPlayers : Setup := ⟨[1, 2], fun i => if i = 0 then 1 else if i = 1 then 2 else 0, fun _ => false, 1⟩

def gameStarted : State := ⟨fun _ => { down := [.startGame] }, fun _ => 0, []⟩

theorem gameStarted_initial : gameStarted.Initial twoPlayers := by
  refine ⟨fun _ => ⟨rfl, rfl, rfl⟩, fun _ _ => ⟨rfl, rfl⟩, ?_, ?_, fun _ => ⟨[], rfl, List.not_mem_nil⟩⟩
  · intro p game hm; cases hm
  · intro p hp; cases hp

def pollOnce (p : PlayerId) (button : UInt16) : List State.Op :=
  State.Op.beginPoll p 0 true :: List.replicate 5 (State.Op.getNetPads p { button := button })

/-- The first status of player 1 reaches player 2 before its `StartGame`. -/
def earlyStatus : List State.Op :=
  [State.Op.deliver 1, .startGame 1] ++ pollOnce 1 1 ++
    [State.Op.relay 1, .relay 1, .deliver 2, .deliver 2, .startGame 2] ++ pollOnce 1 2 ++
    [State.Op.relay 1, .deliver 2] ++ pollOnce 2 3

/-- Player 2 misses the first status of player 1. -/
theorem first_status_lost :
    ¬ ∀ (g : Setup) (s₀ s : State), s₀.Initial g → Reach (State.step g) anyStep s₀ s → s.Agreement g := by
  intro h
  have hrun : (run (State.step twoPlayers) gameStarted earlyStatus).map (fun s =>
      (((s.client 2).popped 0).map (transmitted twoPlayers 0), ((s.client 1).pushed 0).map (transmitted twoPlayers 0))) =
        some ([(2, some {})], [(1, some {}), (2, some {})]) := by decide
  obtain ⟨s, hs, heq⟩ := Option.map_eq_some_iff.mp hrun
  have hpre := h twoPlayers gameStarted s gameStarted_initial (reach_of_run hs) 2 (by decide) 0
  rw [show twoPlayers.padMap 0 = 1 from rfl, (Prod.mk.inj heq).1, (Prod.mk.inj heq).2] at hpre
  exact absurd hpre (by decide)

instance (s : State) : ∀ op, Decidable (s.Orderly op)
  | .deliver _ => by unfold State.Orderly; infer_instance
  | .adjustPadBufferSize _ | .startGame _ | .beginPoll _ _ _ | .getNetPads _ _ | .relay _ =>
      inferInstanceAs (Decidable True)

/-- Both players start before the first status is relayed, and player 2 pops it. -/
theorem input_agreement_two_players : ∃ s, Reach (State.step twoPlayers) State.Orderly gameStarted s ∧
    ((s.client 2).popped 0).map (transmitted twoPlayers 0) = [(1, some {})] ∧ s.Agreement twoPlayers ∧
      s.Comparable twoPlayers := by
  have hrun : (run (fun (s : State) op => if s.Orderly op then s.step twoPlayers op else none) gameStarted
      ([State.Op.deliver 1, .startGame 1, .deliver 2, .startGame 2] ++ pollOnce 1 1 ++
        [State.Op.relay 1, .relay 1, .deliver 2] ++ pollOnce 2 3)).map (fun s => ((s.client 2).popped 0).map (transmitted twoPlayers 0)) =
          some [(1, some {})] := by decide
  obtain ⟨s, hs, heq⟩ := Option.map_eq_some_iff.mp hrun
  exact ⟨s, reach_of_guarded hs, heq, input_agreement _ _ s gameStarted_initial (reach_of_guarded hs)⟩

end Karphin.NetPlay.PadSync
