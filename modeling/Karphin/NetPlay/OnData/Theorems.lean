import Karphin.NetPlay.OnData.Defs

/-!
# Bad packets

Only the three loops over pads can fail to return. They throw at an index that is not a pad, and they go on for ever, or
until the variable for the index happens to hold no pad, when the packet ends within the buttons of one.
-/

namespace Karphin.NetPlay.OnData

open Lib

variable {s : Server}

/-! ## One pad -/

theorem readPad_whole (gba : Bool) (b₁ b₂ : UInt8) (rest : List UInt8) :
    (readPad gba ⟨b₁ :: b₂ :: rest, true⟩).2.data = rest.drop (if gba then 0 else 9) ∧
      (readPad gba ⟨b₁ :: b₂ :: rest, true⟩).2.Whole := by
  have hread : Packet.readNat ⟨b₁ :: b₂ :: rest, true⟩ 2 0 = (ofBeBytes [b₁, b₂], ⟨rest, true⟩) := by
    simp [Packet.readNat, Packet.take]
  have hwhole : Packet.Whole ⟨rest, true⟩ := .inl rfl
  simp only [readPad, hread]
  cases gba with
  | true => exact ⟨rfl, hwhole⟩
  | false =>
      obtain ⟨hdata, hw⟩ := Packet.readBytes_whole (List.replicate 8 0) 8 hwhole
      obtain ⟨hdata', hw'⟩ := Packet.readBool_whole hw true
      simp only [Bool.false_eq_true, if_false]
      rw [hdata', hdata, List.drop_drop]
      exact ⟨rfl, hw'⟩

theorem readPad_cut (gba : Bool) {data : List UInt8} (h : data.length < 2) :
    (readPad gba ⟨data, true⟩).2 = ⟨data, false⟩ := by
  have hread : Packet.readNat ⟨data, true⟩ 2 0 = (0, ⟨data, false⟩) := by
    have hsize : ¬ (true && decide (2 ≤ data.length)) = true := by
      simp only [Bool.true_and, decide_eq_true_eq]
      omega
    simp only [Packet.readNat, @Packet.take_fails ⟨data, true⟩ 2 hsize]
  simp only [readPad, hread]
  cases gba with
  | true => rfl
  | false =>
      have hbytes := Packet.readBytes_invalid (p := ⟨data, false⟩) rfl (List.replicate 8 0) 8
      simp only [Bool.false_eq_true, if_false, hbytes, Packet.readBool_invalid]

/-! ## The loop over pads -/

def owned (s : Server) (checked : Option PlayerId) (i : Fin 4) : Bool := !checked.any (s.padMap.get i ≠ ·)

variable {env : Env} {checked : Option PlayerId}

theorem relayPads_end {packet : Packet} (h : packet.data = []) (fuel k : Nat) (spac : List UInt8) :
    relayPads env s checked (fuel + 1) k packet spac = some (.done spac) := by
  rw [relayPads, if_pos]
  simp [Packet.endOfPacket, h]

theorem relayPads_cons (m : UInt8) (rest : List UInt8) (fuel k : Nat) (spac : List UInt8) :
    relayPads env s checked (fuel + 1) k ⟨m :: rest, true⟩ spac =
      if h : m.toNat < 4 then
        if owned s checked ⟨m.toNat, h⟩ = false then some .kicked
        else relayPads env s checked fuel (k + 1) (readPad (s.gbaEnabled.get ⟨m.toNat, h⟩) ⟨rest, true⟩).2
          (spac ++ m :: (readPad (s.gbaEnabled.get ⟨m.toNat, h⟩) ⟨rest, true⟩).1)
      else some .threw := by
  rw [relayPads]
  simp only [Packet.endOfPacket, List.isEmpty_cons, Bool.false_eq_true, if_false, Packet.readByte_cons, owned,
    Bool.not_eq_false']

theorem relayPads_returns {data : List UInt8} (h : PadEntries (owned s checked) s.gbaEnabled.get data) :
    ∀ (packet : Packet) (k : Nat) (spac : List UInt8), packet.data = data → packet.Whole →
      ∃ fuel r, relayPads env s checked fuel k packet spac = some r ∧ r ≠ .threw := by
  induction h with
  | nil => exact fun packet k spac hdata _ => ⟨1, _, relayPads_end hdata 0 k spac, by simp⟩
  | @foreign m hm rest hown =>
      rintro ⟨data, valid⟩ k spac rfl (rfl | hnil)
      · refine ⟨1, .kicked, ?_, by simp⟩
        rw [relayPads_cons, dif_pos hm, if_pos hown]
      · cases hnil
  | @cut m hm =>
      rintro ⟨data, valid⟩ k spac rfl (rfl | hnil)
      · by_cases hown : owned s checked ⟨m.toNat, hm⟩ = false
        · refine ⟨1, .kicked, ?_, by simp⟩
          rw [relayPads_cons, dif_pos hm, if_pos hown]
        · have hempty : (readPad (s.gbaEnabled.get ⟨m.toNat, hm⟩) ⟨[], true⟩).2.data = [] := by
            rw [readPad_cut _ (by simp)]
          have heq := @relayPads_cons s env checked m [] 1 k spac
          rw [dif_pos hm, if_neg hown, relayPads_end hempty] at heq
          exact ⟨2, _, heq, by simp⟩
      · cases hnil
  | @pad m hm b₁ b₂ rest hrest ih =>
      rintro ⟨data, valid⟩ k spac rfl (rfl | hnil)
      · by_cases hown : owned s checked ⟨m.toNat, hm⟩ = false
        · refine ⟨1, .kicked, ?_, by simp⟩
          rw [relayPads_cons, dif_pos hm, if_pos hown]
        · obtain ⟨hdata, hwhole⟩ := readPad_whole (s.gbaEnabled.get ⟨m.toNat, hm⟩) b₁ b₂ rest
          obtain ⟨fuel, r, heq, hr⟩ := ih _ (k + 1)
            (spac ++ m :: (readPad (s.gbaEnabled.get ⟨m.toNat, hm⟩) ⟨b₁ :: b₂ :: rest, true⟩).1) hdata hwhole
          refine ⟨fuel + 1, r, ?_, hr⟩
          rw [relayPads_cons, dif_pos hm, if_neg hown]
          exact heq
      · cases hnil

theorem padEntries_of_returns (hjunk : ∀ k, env.junkMap k = 0xFF) : ∀ (fuel k : Nat) (data spac : List UInt8) (r : Relayed),
    relayPads env s checked fuel k ⟨data, true⟩ spac = some r → r ≠ .threw →
      PadEntries (owned s checked) s.gbaEnabled.get data
  | 0, _, _, _, _, h, _ => by cases h
  | fuel + 1, k, [], spac, r, _, _ => .nil
  | fuel + 1, k, m :: rest, spac, r, h, hr => by
      rw [relayPads_cons] at h
      split at h
      · next hm =>
          split at h
          · next hown => exact .foreign hm rest hown
          · match rest, h with
            | [], _ => exact .cut hm
            | [b], h =>
                rw [readPad_cut _ (by simp)] at h
                cases fuel with
                | zero => cases h
                | succ fuel =>
                    -- the index is not read any more
                    rw [relayPads] at h
                    simp only [Packet.endOfPacket, List.isEmpty_cons, Bool.false_eq_true, if_false,
                      Packet.readByte_invalid, hjunk] at h
                    rw [dif_neg (by decide)] at h
                    exact absurd (Option.some.inj h).symm hr
            | b₁ :: b₂ :: rest, h =>
                obtain ⟨hdata, hwhole⟩ := readPad_whole (s.gbaEnabled.get ⟨m.toNat, hm⟩) b₁ b₂ rest
                apply PadEntries.pad hm
                rw [← hdata]
                generalize (readPad (s.gbaEnabled.get ⟨m.toNat, hm⟩) ⟨b₁ :: b₂ :: rest, true⟩).2 = packet at h hwhole ⊢
                obtain ⟨data, valid⟩ := packet
                obtain hv | hnil := hwhole
                · simp only at hv
                  subst hv
                  exact padEntries_of_returns hjunk fuel _ data _ r h hr
                · simp only at hnil
                  subst hnil
                  exact .nil
      · exact absurd (Option.some.inj h).symm hr

/-! ## The loop over Wiimotes -/

variable {pid : PlayerId}

theorem relayWiimotes_end {packet : Packet} (h : packet.data = []) (fuel k : Nat) (spac : List UInt8) :
    relayWiimotes env s pid (fuel + 1) k packet spac = some (.done spac) := by
  rw [relayWiimotes, if_pos]
  simp [Packet.endOfPacket, h]

theorem relayWiimotes_cons (m : UInt8) (rest : List UInt8) (fuel k : Nat) (spac : List UInt8) :
    relayWiimotes env s pid (fuel + 1) k ⟨m :: rest, true⟩ spac =
      if h : m.toNat < 4 then
        if s.wiimoteMap.get ⟨m.toNat, h⟩ ≠ pid then some .kicked
        else
          let length := Packet.readByte ⟨rest, true⟩ (env.junkLength k)
          if length.1.toNat > 30 then some .kicked
          else
            let data := Packet.readBytes (env.junkData k) length.1.toNat length.2
            relayWiimotes env s pid fuel (k + 1) data.2 (spac ++ m :: length.1 :: data.1)
      else some .threw := by
  rw [relayWiimotes]
  simp only [Packet.endOfPacket, List.isEmpty_cons, Bool.false_eq_true, if_false, Packet.readByte_cons]

theorem readWiimote_whole (rest : List UInt8) (old length : UInt8) (junk : List UInt8) :
    (Packet.readBytes junk length.toNat (Packet.readByte ⟨rest, true⟩ old).2).2.data =
        (rest.drop 1).drop length.toNat ∧
      (Packet.readBytes junk length.toNat (Packet.readByte ⟨rest, true⟩ old).2).2.Whole := by
  obtain ⟨hdata, hwhole⟩ := Packet.readByte_whole (p := ⟨rest, true⟩) (.inl rfl) old
  obtain ⟨hdata', hwhole'⟩ := Packet.readBytes_whole junk length.toNat hwhole
  rw [hdata', hdata]
  exact ⟨rfl, hwhole'⟩

theorem relayWiimotes_returns {data : List UInt8}
    (h : WiimoteEntries (fun i => s.wiimoteMap.get i = pid) data) :
    ∀ (packet : Packet) (k : Nat) (spac : List UInt8), packet.data = data → packet.Whole →
      ∃ fuel r, relayWiimotes env s pid fuel k packet spac = some r ∧ r ≠ .threw := by
  induction h with
  | nil => exact fun packet k spac hdata _ => ⟨1, _, relayWiimotes_end hdata 0 k spac, by simp⟩
  | @foreign m hm rest hown =>
      rintro ⟨data, valid⟩ k spac rfl (rfl | hnil)
      · refine ⟨1, .kicked, ?_, by simp⟩
        rw [relayWiimotes_cons, dif_pos hm, if_pos (of_decide_eq_false hown)]
      · cases hnil
  | @cut m hm =>
      rintro ⟨data, valid⟩ k spac rfl (rfl | hnil)
      · have heq := @relayWiimotes_cons s env pid m [] 1 k spac
        obtain ⟨hdata, -⟩ := readWiimote_whole [] (env.junkLength k)
          (Packet.readByte ⟨[], true⟩ (env.junkLength k)).1 (env.junkData k)
        rw [dif_pos hm] at heq
        split at heq
        · exact ⟨2, _, heq, by simp⟩
        · simp only [] at heq
          split at heq
          · exact ⟨2, _, heq, by simp⟩
          · rw [List.drop_nil, List.drop_nil] at hdata
            exact ⟨2, _, heq.trans (relayWiimotes_end hdata 0 (k + 1) _), by simp⟩
      · cases hnil
  | @long m length hm rest hlong =>
      rintro ⟨data, valid⟩ k spac rfl (rfl | hnil)
      · have heq := @relayWiimotes_cons s env pid m (length :: rest) 1 k spac
        rw [dif_pos hm] at heq
        simp only [Packet.readByte_cons, if_pos hlong] at heq
        split at heq
        · exact ⟨2, _, heq, by simp⟩
        · exact ⟨2, _, heq, by simp⟩
      · cases hnil
  | @wiimote m length hm rest hrest ih =>
      rintro ⟨data, valid⟩ k spac rfl (rfl | hnil)
      · obtain ⟨hdata, hwhole⟩ := readWiimote_whole (length :: rest) (env.junkLength k) length (env.junkData k)
        rw [Packet.readByte_cons] at hdata hwhole
        simp only [List.drop_succ_cons, List.drop_zero] at hdata
        obtain ⟨fuel, r, hih, hr⟩ := ih _ (k + 1)
          (spac ++ m :: length :: (Packet.readBytes (env.junkData k) length.toNat ⟨rest, true⟩).1) hdata hwhole
        have heq := @relayWiimotes_cons s env pid m (length :: rest) fuel k spac
        rw [dif_pos hm] at heq
        simp only [Packet.readByte_cons] at heq
        split at heq
        · exact ⟨fuel + 1, _, heq, by simp⟩
        · split at heq
          · exact ⟨fuel + 1, _, heq, by simp⟩
          · exact ⟨fuel + 1, r, heq.trans hih, hr⟩
      · cases hnil

theorem wiimoteEntries_of_returns : ∀ (fuel k : Nat) (data spac : List UInt8) (r : Relayed),
    relayWiimotes env s pid fuel k ⟨data, true⟩ spac = some r → r ≠ .threw →
      WiimoteEntries (fun i => s.wiimoteMap.get i = pid) data
  | 0, _, _, _, _, h, _ => by cases h
  | fuel + 1, k, [], spac, r, _, _ => .nil
  | fuel + 1, k, m :: rest, spac, r, h, hr => by
      rw [relayWiimotes_cons] at h
      split at h
      · next hm =>
          split at h
          · next hown => exact .foreign hm rest (decide_eq_false hown)
          · match rest, h with
            | [], _ => exact .cut hm
            | length :: rest, h =>
                simp only [Packet.readByte_cons] at h
                split at h
                · next hlong => exact .long hm rest hlong
                · obtain ⟨hdata, hwhole⟩ := readWiimote_whole (length :: rest) (env.junkLength k) length (env.junkData k)
                  rw [Packet.readByte_cons] at hdata hwhole
                  simp only [List.drop_succ_cons, List.drop_zero] at hdata
                  apply WiimoteEntries.wiimote hm
                  rw [← hdata]
                  generalize (Packet.readBytes (env.junkData k) length.toNat ⟨rest, true⟩).2 = packet at h hwhole ⊢
                  obtain ⟨data, valid⟩ := packet
                  obtain hv | hnil := hwhole
                  · simp only at hv
                    subst hv
                    exact wiimoteEntries_of_returns fuel _ data _ r h hr
                  · simp only at hnil
                    subst hnil
                    exact .nil
      · exact absurd (Option.some.inj h).symm hr

/-! ## The other messages -/

def Good (s : Server) (o : Outcome) : Prop :=
  ∃ code w, o = .returned code w ∧ (code = 0 ∨ code = 1) ∧ (code = 1 → w.sent = [] ∧ w.server = s)

theorem good_zero (w : Work) : Good s (.returned 0 w) := ⟨0, w, rfl, .inl rfl, fun h => by cases h⟩

theorem good_one {w : Work} (hsent : w.sent = []) (hserver : w.server = s) : Good s (.returned 1 w) :=
  ⟨1, w, rfl, .inr rfl, fun _ => ⟨hsent, hserver⟩⟩

theorem Relayed.good_finish {w : Work} (hsent : w.sent = []) (hserver : w.server = s) (relay : List UInt8 → Work)
    {r : Relayed} (h : r ≠ .threw) : Good s (r.finish w relay) := by
  cases r with
  | done spac => exact good_zero _
  | kicked => exact good_one hsent hserver
  | threw => exact absurd rfl h

theorem onSyncSaveData_good (player : Client) (packet : Packet) :
    Good s (onSyncSaveData env { server := s } player packet) := by
  unfold onSyncSaveData
  simp only []
  split
  · split
    · split
      · exact good_zero _
      · exact good_zero _
    · exact good_zero _
  · split
    · exact good_zero _
    · exact good_one rfl rfl

theorem onSyncCodes_good (player : Client) (packet : Packet) :
    Good s (onSyncCodes env { server := s } player packet) := by
  unfold onSyncCodes
  simp only []
  split
  · split
    · split
      · exact good_zero _
      · exact good_zero _
    · exact good_zero _
  · split
    · exact good_zero _
    · exact good_one rfl rfl

theorem onMessage_good (fuel : Nat) (player : Client) (packet : Packet) {id : MessageID} (h1 : id ≠ .padData)
    (h2 : id ≠ .padHostData) (h3 : id ≠ .wiimoteData) :
    ∃ o, onMessage env fuel { server := s } player packet id = some o ∧ Good s o := by
  cases id with
  | padData => exact absurd rfl h1
  | padHostData => exact absurd rfl h2
  | wiimoteData => exact absurd rfl h3
  | syncSaveData => exact ⟨_, rfl, onSyncSaveData_good player packet⟩
  | syncCodes => exact ⟨_, rfl, onSyncCodes_good player packet⟩
  | chunkedDataComplete =>
      simp only [onMessage]
      split
      · exact ⟨_, rfl, good_zero _⟩
      · exact ⟨_, rfl, good_zero _⟩
  | golfRelease | golfAcquire | golfPrepare | stopGame =>
      simp only [onMessage]
      split
      · exact ⟨_, rfl, good_zero _⟩
      · exact ⟨_, rfl, good_zero _⟩
  | golfSwitch | desyncDetected | padBuffer | playerPingData => exact ⟨_, rfl, good_one rfl rfl⟩
  | _ => exact ⟨_, rfl, good_zero _⟩

/-! ## Every packet -/

theorem contained_iff_good {player : Client} {bytes : List UInt8} :
    Contained s player bytes ↔ ∀ env, ∃ fuel o, onData env fuel s player bytes = some o ∧ Good s o := by
  constructor
  · intro h env
    obtain ⟨fuel, code, w, heq, hcode, hone⟩ := h env
    exact ⟨fuel, _, heq, code, w, rfl, hcode, hone⟩
  · intro h env
    obtain ⟨fuel, o, heq, code, w, rfl, hcode, hone⟩ := h env
    exact ⟨fuel, code, w, heq, hcode, hone⟩

theorem onData_cons (fuel : Nat) (player : Client) (mid : UInt8) (rest : List UInt8) :
    onData env fuel s player (mid :: rest) = match MessageID.ofByte mid with
      | some id => onMessage env fuel { server := s } player ⟨rest, true⟩ id
      | none => some (.returned 1 (({ server := s } : Work).event (.unknownMessage mid player.pid))) := by
  simp only [onData, Packet.readByte_cons] <;> rfl

/-- An environment in which the variable for the index holds no pad. -/
def noPads : Env where
  elapsedMs := 0
  nowMs := 0
  startSettings := []
  junk := 0
  junkMap _ := 0xFF
  junkLength _ := 0
  junkData _ := []

theorem good_of_finish {w : Work} {relay : List UInt8 → Work} {r : Relayed} (h : Good s (r.finish w relay)) :
    r ≠ .threw := by
  rintro rfl
  obtain ⟨code, w, heq, -⟩ := h
  cases heq

theorem padData_contained (player : Client) (rest : List UInt8) :
    (∀ env, ∃ fuel o, onPadData env fuel { server := s } player ⟨rest, true⟩ = some o ∧ Good s o) ↔
      (player.currentGame = s.currentGame → PadEntries (fun i => s.padMap.get i = player.pid) s.gbaEnabled.get rest) := by
  have hown : owned s (some player.pid) = fun i => decide (s.padMap.get i = player.pid) := by
    funext i
    simp [owned]
  rw [← hown]
  constructor
  · intro h hgame
    obtain ⟨fuel, o, heq, hgood⟩ := h noPads
    simp only [onPadData, hgame, ne_eq, not_true_eq_false, if_false, Option.map_eq_some_iff] at heq
    obtain ⟨r, hr, rfl⟩ := heq
    exact padEntries_of_returns (fun _ => rfl) fuel 0 rest _ r hr (good_of_finish hgood)
  · intro h env
    by_cases hgame : player.currentGame = s.currentGame
    · obtain ⟨fuel, r, heq, hr⟩ := @relayPads_returns s env _ _ (h hgame) ⟨rest, true⟩ 0
        [(if s.hostInputAuthority then MessageID.padHostData else MessageID.padData).toByte] rfl (.inl rfl)
      refine ⟨fuel, ?_⟩
      rw [onPadData, if_neg (not_not.2 hgame)]
      simp only [heq, Option.map_some]
      exact ⟨_, rfl, Relayed.good_finish (w := { server := s }) rfl rfl _ hr⟩
    · refine ⟨0, _, ?_, good_zero { server := s }⟩
      simp only [onPadData, ne_eq, hgame, not_false_eq_true, if_true]

theorem padHostData_contained (player : Client) (rest : List UInt8) :
    (∀ env, ∃ fuel o, onPadHostData env fuel { server := s } player ⟨rest, true⟩ = some o ∧ Good s o) ↔
      ((s.currentGolfer = 0 ∨ player.pid = s.currentGolfer) → PadEntries (fun _ => true) s.gbaEnabled.get rest) := by
  have hown : owned s none = fun _ => true := rfl
  rw [← hown]
  constructor
  · intro h hgolfer
    obtain ⟨fuel, o, heq, hgood⟩ := h noPads
    rw [onPadHostData, if_neg (by tauto), Option.map_eq_some_iff] at heq
    obtain ⟨r, hr, rfl⟩ := heq
    exact padEntries_of_returns (fun _ => rfl) fuel 0 rest _ r hr (good_of_finish hgood)
  · intro h env
    by_cases hgolfer : s.currentGolfer = 0 ∨ player.pid = s.currentGolfer
    · obtain ⟨fuel, r, heq, hr⟩ := @relayPads_returns s env _ _ (h hgolfer) ⟨rest, true⟩ 0 [MessageID.padData.toByte] rfl
        (.inl rfl)
      refine ⟨fuel, ?_⟩
      rw [onPadHostData, if_neg (by tauto), heq]
      exact ⟨_, rfl, Relayed.good_finish (w := { server := s }) rfl rfl _ hr⟩
    · refine ⟨0, _, ?_, good_one (w := { server := s }) rfl rfl⟩
      rw [onPadHostData, if_pos (by tauto)]

theorem wiimoteData_contained (player : Client) (rest : List UInt8) :
    (∀ env, ∃ fuel o, onWiimoteData env fuel { server := s } player ⟨rest, true⟩ = some o ∧ Good s o) ↔
      (player.currentGame = s.currentGame → WiimoteEntries (fun i => s.wiimoteMap.get i = player.pid) rest) := by
  constructor
  · intro h hgame
    obtain ⟨fuel, o, heq, hgood⟩ := h noPads
    simp only [onWiimoteData, hgame, ne_eq, not_true_eq_false, if_false, Option.map_eq_some_iff] at heq
    obtain ⟨r, hr, rfl⟩ := heq
    exact wiimoteEntries_of_returns fuel 0 rest _ r hr (good_of_finish hgood)
  · intro h env
    by_cases hgame : player.currentGame = s.currentGame
    · obtain ⟨fuel, r, heq, hr⟩ := @relayWiimotes_returns s env _ _ (h hgame) ⟨rest, true⟩ 0
        [MessageID.wiimoteData.toByte] rfl (.inl rfl)
      refine ⟨fuel, ?_⟩
      rw [onWiimoteData, if_neg (not_not.2 hgame), heq]
      exact ⟨_, rfl, Relayed.good_finish (w := { server := s }) rfl rfl _ hr⟩
    · refine ⟨0, _, ?_, good_zero { server := s }⟩
      simp only [onWiimoteData, ne_eq, hgame, not_false_eq_true, if_true]

theorem contained_iff_wellIndexed (s : Server) (player : Client) (bytes : List UInt8) :
    Contained s player bytes ↔ WellIndexed s player bytes := by
  rw [contained_iff_good]
  match bytes with
  | [] => exact iff_of_true (fun env => ⟨0, _, rfl, good_one rfl rfl⟩) trivial
  | mid :: rest =>
      simp only [onData_cons, WellIndexed]
      cases hid : MessageID.ofByte mid with
      | none => exact iff_of_true (fun env => ⟨0, _, rfl, good_one rfl rfl⟩) trivial
      | some id =>
          by_cases h1 : id = .padData
          · subst h1
            exact padData_contained player rest
          by_cases h2 : id = .padHostData
          · subst h2
            exact padHostData_contained player rest
          by_cases h3 : id = .wiimoteData
          · subst h3
            exact wiimoteData_contained player rest
          refine iff_of_true (fun env => ⟨0, onMessage_good 0 player ⟨rest, true⟩ h1 h2 h3⟩) ?_
          cases id <;> trivial

/-- A packet with pad data for a fifth pad makes the server throw. -/
theorem fifth_pad_throws : let player : Client := { pid := 2 }
    ¬ Contained { players := [{ pid := 1 }, player] } player [0x60, 0x04] := by
  intro player h
  obtain ⟨fuel, code, w, heq, -⟩ := h noPads
  cases fuel with
  | zero => cases heq
  | succ fuel => cases heq

end Karphin.NetPlay.OnData
