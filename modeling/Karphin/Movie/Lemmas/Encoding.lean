import Karphin.Movie.Defs

/-!
# Records of pads

A record keeps the buttons it has bits for, the triggers, the sticks and whether the pad is connected.
-/

namespace Karphin.Movie

theorem testBit_foldr (bits : List Bool) (i : Nat) :
    (bits.foldr (fun (bit : Bool) n => 2 * n + bit.toNat) 0).testBit i = bits.getD i false := by
  induction bits generalizing i with
  | nil => simp
  | cons bit bits ih =>
      rw [List.foldr_cons]
      cases i with
      | zero => cases bit <;> simp [Nat.testBit_zero]
      | succ i =>
          rw [Nat.testBit_succ, List.getD_cons_succ, ← ih]
          cases bit <;> congr 1 <;> simp <;> omega

theorem foldr_lt (bits : List Bool) : bits.foldr (fun (bit : Bool) n => 2 * n + bit.toNat) 0 < 2 ^ bits.length := by
  induction bits with
  | nil => exact Nat.one_pos
  | cons bit bits ih =>
      have hbit := Bool.toNat_le bit
      rw [List.foldr_cons, List.length_cons, Nat.pow_succ]
      omega

@[simp]
theorem bitOf_packBits {bits : List Bool} (h : bits.length = 8) (i : Nat) : bitOf (packBits bits) i = bits.getD i false := by
  have hlt := foldr_lt bits
  rw [h] at hlt
  rw [bitOf, packBits, UInt8.toNat_ofNat', Nat.mod_eq_of_lt hlt, testBit_foldr]

namespace ControllerState

@[simp]
theorem length_toBytes (s : ControllerState) : s.toBytes.length = size := rfl

theorem ofBytes_toBytes (s : ControllerState) : ofBytes s.toBytes = s := by
  simp only [ofBytes, toBytes, List.getD_cons_zero, List.getD_cons_succ]
  rw [bitOf_packBits rfl, bitOf_packBits rfl, bitOf_packBits rfl, bitOf_packBits rfl, bitOf_packBits rfl,
    bitOf_packBits rfl, bitOf_packBits rfl, bitOf_packBits rfl, bitOf_packBits rfl, bitOf_packBits rfl,
    bitOf_packBits rfl, bitOf_packBits rfl, bitOf_packBits rfl, bitOf_packBits rfl, bitOf_packBits rfl,
    bitOf_packBits rfl]
  rfl

end ControllerState

/-! ## Buttons -/

def recordedButtons : BitVec 16 :=
  padButtonA ||| padButtonB ||| padButtonX ||| padButtonY ||| padTriggerZ ||| padButtonStart ||| padButtonUp |||
    padButtonDown ||| padButtonLeft ||| padButtonRight ||| padTriggerL ||| padTriggerR ||| padGetOrigin

theorem addButton_of_twoPow {mask : BitVec 16} (i : Nat) (hmask : mask = BitVec.twoPow 16 i) (button acc : BitVec 16) :
    MovieManager.addButton (button &&& mask ≠ 0) mask acc = acc ||| (button &&& mask) := by
  rw [MovieManager.addButton]
  split
  next hpressed =>
    rw [decide_eq_true_iff, hmask, BitVec.and_twoPow] at hpressed
    split at hpressed
    next hbit => rw [hmask, BitVec.and_twoPow, if_pos hbit]
    next => exact absurd rfl hpressed
  next hreleased =>
    rw [decide_eq_true_iff, not_not] at hreleased
    simp [hreleased]

structure GCPadStatus.Replays (out status : GCPadStatus) : Prop where
  button : out.button = padUseOrigin ||| (status.button &&& recordedButtons)
  stickX : out.stickX = status.stickX
  stickY : out.stickY = status.stickY
  substickX : out.substickX = status.substickX
  substickY : out.substickY = status.substickY
  triggerLeft : out.triggerLeft = status.triggerLeft
  triggerRight : out.triggerRight = status.triggerRight
  isConnected : out.isConnected = status.isConnected

theorem fillPadStatus_checkPadStatus (m : MovieManager) (status live : GCPadStatus) :
    (MovieManager.fillPadStatus (m.checkPadStatus status).padState live).Replays status := by
  refine ⟨?_, rfl, rfl, rfl, rfl, rfl, rfl, rfl⟩
  simp only [MovieManager.fillPadStatus, MovieManager.checkPadStatus]
  rw [addButton_of_twoPow 13 (by decide), addButton_of_twoPow 5 (by decide), addButton_of_twoPow 6 (by decide),
    addButton_of_twoPow 1 (by decide), addButton_of_twoPow 0 (by decide), addButton_of_twoPow 2 (by decide),
    addButton_of_twoPow 3 (by decide), addButton_of_twoPow 12 (by decide), addButton_of_twoPow 4 (by decide),
    addButton_of_twoPow 11 (by decide), addButton_of_twoPow 10 (by decide), addButton_of_twoPow 9 (by decide),
    addButton_of_twoPow 8 (by decide)]
  simp only [recordedButtons, BitVec.and_or_distrib_left, BitVec.ofNat_eq_ofNat, BitVec.zero_or, BitVec.or_assoc]

end Karphin.Movie

/-!
## The input of a movie

Which bytes stand for the polls of a console, and what recording does with them.
-/

namespace Karphin.Movie

variable {isWii : Bool} {controllers : ControllerTypeArray} {wiimotes : WiimoteEnabledArray}

def Poll.isUsed (controllers : ControllerTypeArray) (wiimotes : WiimoteEnabledArray) : Poll → Bool
  | .pad _ id _ => controllers id ≠ .none
  | .report _ wiimote _ => wiimotes wiimote

/-- The bytes of one poll. Those of a pad also have whether the disc was changed or the console reset. -/
inductive EncodesPoll (isWii : Bool) (controllers : ControllerTypeArray) (wiimotes : WiimoteEnabledArray) :
    Poll → List UInt8 → Prop
  | pad {ticks : UInt64} {id : Fin 4} {status : GCPadStatus} (m : MovieManager) (hused : controllers id ≠ .none) :
      EncodesPoll isWii controllers wiimotes (.pad ticks id status) (m.checkPadStatus status).padState.toBytes
  | unusedPad {ticks : UInt64} {id : Fin 4} {status : GCPadStatus} (hused : controllers id = .none) :
      EncodesPoll isWii controllers wiimotes (.pad ticks id status) []
  | report {ticks : UInt64} {wiimote : Fin 4} {data : Report} (hwii : isWii = true) (hused : wiimotes wiimote = true) :
      EncodesPoll isWii controllers wiimotes (.report ticks wiimote data) (UInt8.ofNat data.val.length :: data.val)
  | unusedReport {ticks : UInt64} {wiimote : Fin 4} {data : Report} (hwii : isWii = true)
      (hused : wiimotes wiimote = false) : EncodesPoll isWii controllers wiimotes (.report ticks wiimote data) []

inductive Encodes (isWii : Bool) (controllers : ControllerTypeArray) (wiimotes : WiimoteEnabledArray) :
    List Poll → List UInt8 → Prop
  | nil : Encodes isWii controllers wiimotes [] []
  | cons {poll : Poll} {polls : List Poll} {chunk bytes : List UInt8}
      (hpoll : EncodesPoll isWii controllers wiimotes poll chunk) (hpolls : Encodes isWii controllers wiimotes polls bytes) :
      Encodes isWii controllers wiimotes (poll :: polls) (chunk ++ bytes)

theorem EncodesPoll.eq_nil_iff {poll : Poll} {chunk : List UInt8} (h : EncodesPoll isWii controllers wiimotes poll chunk) :
    chunk = [] ↔ poll.isUsed controllers wiimotes = false := by
  cases h with
  | pad m hused => simp [Poll.isUsed, hused, ControllerState.toBytes]
  | unusedPad hused => simp [Poll.isUsed, hused]
  | report hwii hused => simp [Poll.isUsed, hused]
  | unusedReport hwii hused => simp [Poll.isUsed, hused]

theorem Encodes.eq_nil_iff {polls : List Poll} {bytes : List UInt8} (h : Encodes isWii controllers wiimotes polls bytes) :
    bytes = [] ↔ ∀ poll ∈ polls, poll.isUsed controllers wiimotes = false := by
  induction h with
  | nil => simp
  | cons hpoll _ ih => rw [List.append_eq_nil_iff, hpoll.eq_nil_iff, ih, List.forall_mem_cons]

theorem Encodes.concat {polls : List Poll} {poll : Poll} {bytes chunk : List UInt8}
    (h : Encodes isWii controllers wiimotes polls bytes) (hpoll : EncodesPoll isWii controllers wiimotes poll chunk) :
    Encodes isWii controllers wiimotes (polls ++ [poll]) (bytes ++ chunk) := by
  induction h with
  | nil =>
      have hlast := Encodes.cons hpoll Encodes.nil
      rwa [List.append_nil] at hlast
  | cons hfirst _ ih =>
      rw [List.append_assoc]
      exact .cons hfirst ih

/-! ## Writing -/

theorem writeAt_resize {bytes data : List UInt8} {i : Nat} (hi : i ≤ bytes.length) :
    writeAt (resize bytes (i + data.length)) i data = bytes.take i ++ data := by
  have hlength : (resize bytes (i + data.length)).length = i + data.length := by
    simp [resize]
    omega
  have htake : (resize bytes (i + data.length)).take i = bytes.take i := by
    rw [resize, List.take_append_of_le_length (by simp; omega), List.take_take, Nat.min_eq_left (Nat.le_add_right _ _)]
  rw [writeAt, htake, List.drop_of_length_le (Nat.le_of_eq hlength), List.append_nil]

theorem writeAt_writeAt_resize {bytes : List UInt8} {i : Nat} (hi : i ≤ bytes.length) (byte : UInt8) (data : List UInt8) :
    writeAt (writeAt (resize bytes (i + data.length + 1)) i [byte]) (i + 1) data = bytes.take i ++ byte :: data := by
  have hlength : (resize bytes (i + data.length + 1)).length = i + data.length + 1 := by
    simp [resize]
    omega
  have hprefix : (resize bytes (i + data.length + 1)).take i = bytes.take i := by
    rw [resize, List.take_append_of_le_length (by simp; omega), List.take_take, Nat.min_eq_left (by omega)]
  have hfront : (bytes.take i ++ [byte]).length = i + 1 := by
    simp [hi]
  have htail : ((resize bytes (i + data.length + 1)).drop (i + 1)).length = data.length := by
    rw [List.length_drop, hlength]
    omega
  have hlong : (bytes.take i ++ [byte] ++ (resize bytes (i + data.length + 1)).drop (i + 1)).length ≤
      i + 1 + data.length := by
    rw [List.length_append, hfront, htail]
  have hinner : writeAt (resize bytes (i + data.length + 1)) i [byte] =
      bytes.take i ++ [byte] ++ (resize bytes (i + data.length + 1)).drop (i + 1) := by
    rw [writeAt, hprefix, List.length_singleton]
  rw [hinner, writeAt, List.take_left' hfront, List.drop_of_length_le hlong, List.append_nil, List.append_assoc,
    List.singleton_append]

namespace MovieManager

variable {m : MovieManager}

structure Appends (m m' : MovieManager) (chunk : List UInt8) : Prop where
  input : m'.tempInput = m.tempInput.take m.currentByte ++ chunk
  byte : m'.currentByte = m.currentByte + chunk.length

/-- What no input changes. -/
structure SameSetup (m m' : MovieManager) : Prop where
  readOnly : m'.readOnly = m.readOnly
  playMode : m'.playMode = m.playMode
  controllers : m'.controllers = m.controllers
  wiimotes : m'.wiimotes = m.wiimotes
  recordingFromSaveState : m'.recordingFromSaveState = m.recordingFromSaveState
  currentFrame : m.currentFrame ≤ m'.currentFrame

/-- A part of the state that none of the counters belongs to. -/
theorem frameUpdate_frame {β : Type} {part : MovieManager → β} (m : MovieManager)
    (hlag : ∀ m lag, part { m with currentLagCount := lag } = part m)
    (htotals : ∀ m frames lag, part { m with totalFrames := frames, totalLagCount := lag } = part m)
    (hpolled : ∀ m, part { m with polled := false } = part m) :
    part m.frameUpdate = part { m with currentFrame := m.currentFrame + 1 } := by
  unfold frameUpdate
  extract_lets counted lagged totalled
  have htotalled : part totalled = part lagged := by
    show part (ite _ _ _) = _
    split
    · exact htotals ..
    · rfl
  have hlagged : part lagged = part counted := by
    show part (ite _ _ _) = _
    split
    · rfl
    · exact hlag ..
  exact (hpolled totalled).trans (htotalled.trans hlagged)

theorem frameUpdate_sameSetup (m : MovieManager) : m.SameSetup m.frameUpdate where
  readOnly := @frameUpdate_frame _ readOnly m (fun _ _ => rfl) (fun _ _ _ => rfl) fun _ => rfl
  playMode := @frameUpdate_frame _ playMode m (fun _ _ => rfl) (fun _ _ _ => rfl) fun _ => rfl
  controllers := @frameUpdate_frame _ controllers m (fun _ _ => rfl) (fun _ _ _ => rfl) fun _ => rfl
  wiimotes := @frameUpdate_frame _ wiimotes m (fun _ _ => rfl) (fun _ _ _ => rfl) fun _ => rfl
  recordingFromSaveState :=
    @frameUpdate_frame _ recordingFromSaveState m (fun _ _ => rfl) (fun _ _ _ => rfl) fun _ => rfl
  currentFrame := by
    rw [@frameUpdate_frame _ currentFrame m (fun _ _ => rfl) (fun _ _ _ => rfl) fun _ => rfl]
    exact Nat.le_succ _

theorem inputUpdate_of_recording (hmode : m.playMode = .recording) (ticks : UInt64) : m.inputUpdate ticks =
    { m with
      currentInputCount := m.currentInputCount + 1
      totalInputCount := m.currentInputCount + 1
      totalTickCount := m.totalTickCount + (ticks - m.tickCountAtLastInput)
      tickCountAtLastInput := ticks } := by
  rw [inputUpdate]
  simp [isRecordingInput, hmode]

theorem recordInput_of_unused {id : Fin 4} (hused : m.controllers id = .none) (status : GCPadStatus) :
    m.recordInput status id = m := by
  rw [recordInput]
  simp [isUsingPad, hused]

theorem recordInput_of_used {id : Fin 4} (hmode : m.playMode = .recording) (hused : m.controllers id ≠ .none)
    (hbyte : m.currentByte ≤ m.tempInput.length) (status : GCPadStatus) :
    m.SameSetup (m.recordInput status id) ∧
      m.Appends (m.recordInput status id) (m.checkPadStatus status).padState.toBytes ∧
      (m.recordInput status id).totalTickCount = m.totalTickCount ∧
      (m.recordInput status id).tickCountAtLastInput = m.tickCountAtLastInput := by
  have hwrite : writeAt (resize m.tempInput (m.currentByte + ControllerState.size)) m.currentByte
      (m.checkPadStatus status).padState.toBytes =
      m.tempInput.take m.currentByte ++ (m.checkPadStatus status).padState.toBytes := by
    rw [← (m.checkPadStatus status).padState.length_toBytes]
    exact writeAt_resize hbyte
  have hrecord : m.recordInput status id =
      { m.checkPadStatus status with
        tempInput := m.tempInput.take m.currentByte ++ (m.checkPadStatus status).padState.toBytes
        currentByte := m.currentByte + ControllerState.size } := by
    rw [recordInput, isRecordingInput, hmode, isUsingPad]
    simp only [decide_true, Bool.not_true, hused, ne_eq, not_false_eq_true, Bool.or_self, Bool.false_eq_true, ↓reduceIte]
    exact congrArg (fun input => MovieManager.mk _ _ _ _ _ _ input _ _ _ _ _ _ _ _ _ _ _ _ _) hwrite
  rw [hrecord]
  exact ⟨⟨rfl, rfl, rfl, rfl, rfl, Nat.le_refl _⟩, ⟨rfl, rfl⟩, rfl, rfl⟩

theorem recordWiimote_of_unused {wiimote : Fin 4} (hused : m.wiimotes wiimote = false) (ticks : UInt64)
    (data : List UInt8) : m.recordWiimote ticks wiimote data = m := by
  rw [recordWiimote]
  simp [isUsingWiimote, hused]

theorem recordWiimote_of_used {wiimote : Fin 4} (hmode : m.playMode = .recording) (hused : m.wiimotes wiimote = true)
    (hbyte : m.currentByte ≤ m.tempInput.length) (ticks : UInt64) (data : List UInt8) :
    m.SameSetup (m.recordWiimote ticks wiimote data) ∧
      m.Appends (m.recordWiimote ticks wiimote data) (UInt8.ofNat data.length :: data) ∧
      (m.recordWiimote ticks wiimote data).totalTickCount = m.totalTickCount + (ticks - m.tickCountAtLastInput) ∧
      (m.recordWiimote ticks wiimote data).tickCountAtLastInput = ticks := by
  have hwrite := writeAt_writeAt_resize hbyte (UInt8.ofNat data.length) data
  have hrecord : m.recordWiimote ticks wiimote data =
      { m.inputUpdate ticks with
        tempInput := m.tempInput.take m.currentByte ++ UInt8.ofNat data.length :: data
        currentByte := m.currentByte + 1 + data.length } := by
    rw [recordWiimote, isRecordingInput, hmode, isUsingWiimote, hused, inputUpdate_of_recording hmode]
    simp only [decide_true, Bool.not_true, Bool.or_self, Bool.false_eq_true, ↓reduceIte]
    exact congrArg (fun input => MovieManager.mk _ _ _ _ _ _ input _ _ _ _ _ _ _ _ _ _ _ _ _) hwrite
  rw [hrecord, inputUpdate_of_recording hmode]
  refine ⟨⟨rfl, rfl, rfl, rfl, rfl, Nat.le_refl _⟩, ⟨rfl, ?_⟩, rfl, rfl⟩
  rw [List.length_cons, Nat.add_assoc, Nat.add_comm 1]

end MovieManager

end Karphin.Movie
