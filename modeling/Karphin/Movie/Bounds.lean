import Karphin.Movie.Theorems
import Karphin.Lib.Transition

/-!
# Bounds of the input

The position in the input comes from a state, and the input from a movie file that may be another one. What is read of the
input while a movie plays and states are loaded, and where that is past its end.
-/

namespace Karphin.Movie

open Karphin.Lib

/-- `lengthError` is the exception of a vector that cannot be that long. -/
inductive Fault
  | outOfBounds
  | lengthError
  deriving DecidableEq

def maxSize : Nat := 2 ^ 63

def readBytes (buffer : List UInt8) (i n : Nat) : Except Fault (List UInt8) :=
  if i + n ≤ buffer.length then .ok ((buffer.drop i).take n) else .error .outOfBounds

def mismatch (a b : List UInt8) : Option Nat := (a.zip b).findIdx? fun p => p.1 ≠ p.2

/-- Any file beside a state, with its input after the first 256 bytes. A short file fills only a part of the header. -/
structure MovieFile where
  isMovieHeader : Bool
  header : DTMHeader
  size : Nat
  input : List UInt8
  length_input : input.length = size - 256

namespace MovieFile

def totalSavedBytes (file : MovieFile) : Nat := (file.size + 0xffffffffffffff00) % 0x10000000000000000

/-- `n` bytes after the header; what the file does not have stays zero. -/
def movInput (file : MovieFile) (n : Nat) : List UInt8 := resize file.input n

end MovieFile

/-- A state is loaded with the movie beside it, if that can be opened. -/
inductive PlayEvent
  | frame
  | setReadOnly (readOnly : Bool)
  | pad (ticks : UInt64) (id : Fin 4) (status : GCPadStatus)
  | report (ticks : UInt64) (wiimote : Fin 4) (data : Report)
  | loadState (saved : SavedMovie) (file : Option MovieFile)

namespace MovieManager

/-! ## Reading with bounds -/

def playControllerChecked (m : MovieManager) (ticks : UInt64) (padStatus : GCPadStatus) (controllerID : Fin 4) :
    Except Fault (MovieManager × GCPadStatus) :=
  if !m.isPlayingInput || !m.isUsingPad controllerID || m.tempInput.isEmpty then .ok (m, padStatus)
  else if (m.currentByte + ControllerState.size) % 2 ^ 64 > m.tempInput.length then
    .ok (m.endPlayInput !m.readOnly, padStatus)
  else do
    let bytes ← readBytes m.tempInput m.currentByte ControllerState.size
    let padState := ControllerState.ofBytes bytes
    let m := { m with padState := padState, currentByte := m.currentByte + ControllerState.size }
    .ok (m.checkInputEnd ticks, fillPadStatus padState padStatus)

def playWiimoteChecked (m : MovieManager) (ticks : UInt64) (wiimote : Fin 4) (size : Nat) :
    Except Fault (MovieManager × Option (List UInt8)) :=
  if !m.isPlayingInput || !m.isUsingWiimote wiimote || m.tempInput.isEmpty then .ok (m, none)
  else if m.currentByte > m.tempInput.length then .ok (m.endPlayInput !m.readOnly, none)
  else do
    let sizeInMovie ← readBytes m.tempInput m.currentByte 1
    if size ≠ (sizeInMovie.getD 0 0).toNat then .ok (m.endPlayInput !m.readOnly, none)
    else
      let m := { m with currentByte := m.currentByte + 1 }
      if (m.currentByte + size) % 2 ^ 64 > m.tempInput.length then .ok (m.endPlayInput !m.readOnly, none)
      else
        let data ← readBytes m.tempInput m.currentByte size
        let m := { m with currentByte := m.currentByte + size, currentInputCount := m.currentInputCount + 1 }
        .ok (m.checkInputEnd ticks, some data)

def resumeInput (m : MovieManager) (afterEnd : Bool) : MovieManager :=
  if afterEnd then m.endPlayInput false else { m with playMode := if m.readOnly then .playing else .recording }

def verifyInput (m : MovieManager) (movInput : List UInt8) : Except Fault MovieManager := do
  let current ← readBytes m.tempInput 0 movInput.length
  match mismatch movInput current with
  | none => .ok m
  | some mismatchIndex =>
      if m.isUsingWiimote 0 then
        let _ ← readBytes m.tempInput 0 movInput.length
        .ok { m with tempInput := movInput ++ m.tempInput.drop movInput.length }
      else
        let frame := mismatchIndex / ControllerState.size
        let _ ← readBytes m.tempInput (frame * ControllerState.size) ControllerState.size
        let _ ← readBytes movInput (frame * ControllerState.size) ControllerState.size
        .ok m

/-- `ReadHeader` in `LoadInput`. What is written back is not read again. -/
def readStateHeader (m : MovieManager) (header : DTMHeader) : MovieManager :=
  let m := m.readHeader header
  if m.readOnly then m else { m with rerecords := m.rerecords + 1 }

def loadInputChecked (m : MovieManager) (file : MovieFile) : Except Fault MovieManager :=
  if !file.isMovieHeader then .ok (m.endPlayInput false)
  else
    let m := m.readStateHeader file.header
    if !m.readOnly || m.tempInput.isEmpty then
      if file.totalSavedBytes < maxSize then
        .ok ({ m with
          totalFrames := file.header.frameCount
          totalLagCount := file.header.lagCount
          totalInputCount := file.header.inputCount
          totalTickCount := file.header.tickCount
          tickCountAtLastInput := file.header.tickCount
          tempInput := file.movInput file.totalSavedBytes }.resumeInput (m.currentByte > file.totalSavedBytes))
      else .error .lengthError
    else if m.currentByte = 0 then .ok (m.resumeInput false)
    else if m.currentByte > file.totalSavedBytes then .ok (m.resumeInput true)
    else if m.currentByte > m.tempInput.length then .ok (m.resumeInput true)
    else do
      let m ← m.verifyInput (file.movInput m.currentByte)
      .ok (m.resumeInput false)

/-! ## Playing on -/

def playEvent (m : MovieManager) : PlayEvent → Except Fault MovieManager
  | .frame => .ok m.frameUpdate
  | .setReadOnly readOnly => .ok { m with readOnly := readOnly }
  | .pad ticks id status =>
      let m := m.setPolledDevice
      if m.isPlayingInput then do
        let (m, _) ← m.playControllerChecked ticks status id
        .ok (m.inputUpdate ticks)
      else .ok (m.handleMoviePadStatus ticks id status).1
  | .report ticks wiimote data =>
      let m := m.setPolledDevice
      if m.isPlayingInput then do
        let (m, played) ← m.playWiimoteChecked ticks wiimote data.val.length
        .ok (m.checkWiimoteStatus ticks wiimote (played.getD data.val))
      else .ok (m.sendDataReport ticks wiimote data.val).1
  | .loadState saved file =>
      let m := m.loadState saved
      match file with
      | none => .ok (m.endPlayInput false)
      | some file => m.loadInputChecked file

def playStep (m : MovieManager) (e : PlayEvent) : Option MovieManager :=
  match m.playEvent e with
  | .ok m' => if m'.tempInput.length < maxSize then some m' else none
  | .error _ => none

/-- The manager after `PlayInput`, for a file that fits in a vector. -/
def accept (m : MovieManager) (dtm : Dtm) (savestate : Bool) : Option MovieManager :=
  if dtm.input.length < maxSize then m.playInput dtm savestate else none

def inBounds (m : MovieManager) (e : PlayEvent) : Prop := m.playEvent e ≠ .error .outOfBounds

/-- A report is not asked for at the end of the input. A state that is loaded for playing differs from the movie only in
records that end before its position, or the first Wii Remote is in use. -/
def Safe (m : MovieManager) : PlayEvent → Prop
  | .report _ wiimote _ =>
      m.playMode = .playing → m.wiimotes wiimote = true → m.tempInput ≠ [] → m.currentByte ≠ m.tempInput.length
  | .loadState saved (some file) =>
      file.isMovieHeader = true → m.readOnly = true → saved.currentByte ≤ file.totalSavedBytes →
        saved.currentByte ≤ m.tempInput.length → file.header.controllers 4 = false →
        ∀ i, mismatch (file.movInput saved.currentByte) (m.tempInput.take saved.currentByte) = some i →
          (i / ControllerState.size + 1) * ControllerState.size ≤ saved.currentByte
  | _ => True

end MovieManager

/-! ## Reading -/

theorem readBytes_of_le {buffer : List UInt8} {i n : Nat} (h : i + n ≤ buffer.length) :
    readBytes buffer i n = .ok ((buffer.drop i).take n) := if_pos h

theorem readBytes_eq_error_iff {buffer : List UInt8} {i n : Nat} {fault : Fault} :
    readBytes buffer i n = .error fault ↔ buffer.length < i + n ∧ fault = .outOfBounds := by
  rw [readBytes]
  split
  next h =>
    refine ⟨fun herror => (by cases herror), fun herror => ?_⟩
    exact absurd h (Nat.not_le_of_lt herror.1)
  next h =>
    rw [Except.error.injEq]
    exact ⟨fun herror => ⟨Nat.lt_of_not_le h, herror.symm⟩, fun herror => herror.2.symm⟩

theorem length_movInput (file : MovieFile) (n : Nat) : (file.movInput n).length = n := by
  rw [MovieFile.movInput, resize, List.length_append, List.length_take, List.length_replicate]
  omega

namespace MovieManager

variable {m m' : MovieManager}

def Positioned (m : MovieManager) : Prop := m.playMode = .playing → m.currentByte ≤ m.tempInput.length

theorem endPlayInput_playMode_ne (m : MovieManager) (cont : Bool) : (m.endPlayInput cont).playMode ≠ .playing := by
  rw [endPlayInput]
  split
  · exact fun h => by cases h
  · split
    · exact fun h => by cases h
    next hmode =>
      rw [not_not.mp hmode]
      exact fun h => by cases h

theorem endPlayInput_positioned (m : MovieManager) (cont : Bool) : (m.endPlayInput cont).Positioned :=
  fun h => absurd h (m.endPlayInput_playMode_ne cont)

theorem checkInputEnd_positioned (m : MovieManager) (ticks : UInt64) : (m.checkInputEnd ticks).Positioned := by
  rw [checkInputEnd]
  split
  · exact m.endPlayInput_positioned _
  next h =>
    intro _
    omega

theorem Positioned.inputUpdate (h : m.Positioned) (ticks : UInt64) : (m.inputUpdate ticks).Positioned := by
  rw [MovieManager.inputUpdate]
  split
  · exact h
  · exact h

theorem Positioned.checkWiimoteStatus (h : m.Positioned) (ticks : UInt64) (wiimote : Fin 4) (data : List UInt8) :
    (m.checkWiimoteStatus ticks wiimote data).Positioned := by
  rw [MovieManager.checkWiimoteStatus]
  split
  next hrecording =>
    have hmode : m.playMode = .recording := of_decide_eq_true hrecording
    rw [recordWiimote, inputUpdate_of_recording hmode]
    split
    · exact h
    · intro hplaying
      cases hmode.symm.trans hplaying
  · exact h

theorem playControllerChecked_positioned {ticks : UInt64} {status status' : GCPadStatus} {id : Fin 4}
    (h : m.Positioned) (hplay : m.playControllerChecked ticks status id = .ok (m', status')) : m'.Positioned := by
  rw [playControllerChecked] at hplay
  split at hplay
  · cases hplay
    exact h
  · split at hplay
    · cases hplay
      exact m.endPlayInput_positioned _
    · cases hread : readBytes m.tempInput m.currentByte ControllerState.size with
      | error fault =>
          rw [hread] at hplay
          cases hplay
      | ok bytes =>
          rw [hread] at hplay
          cases hplay
          exact checkInputEnd_positioned _ ticks

theorem playWiimoteChecked_positioned {ticks : UInt64} {wiimote : Fin 4} {size : Nat} {played : Option (List UInt8)}
    (h : m.Positioned) (hplay : m.playWiimoteChecked ticks wiimote size = .ok (m', played)) : m'.Positioned := by
  rw [playWiimoteChecked] at hplay
  split at hplay
  · cases hplay
    exact h
  · split at hplay
    · cases hplay
      exact m.endPlayInput_positioned _
    · cases hsize : readBytes m.tempInput m.currentByte 1 with
      | error fault =>
          rw [hsize] at hplay
          cases hplay
      | ok sizeInMovie =>
          simp only [hsize, bind, Except.bind] at hplay
          split at hplay
          · cases hplay
            exact m.endPlayInput_positioned _
          · split at hplay
            · cases hplay
              exact endPlayInput_positioned _ _
            · cases hdata : readBytes m.tempInput (m.currentByte + 1) size with
              | error fault =>
                  simp only [hdata] at hplay
                  cases hplay
              | ok data =>
                  simp only [hdata] at hplay
                  cases hplay
                  exact checkInputEnd_positioned _ ticks

theorem resumeInput_positioned {afterEnd : Bool} (h : afterEnd = false → m.currentByte ≤ m.tempInput.length) :
    (m.resumeInput afterEnd).Positioned := by
  rw [resumeInput]
  split
  · exact m.endPlayInput_positioned false
  next hend => exact fun _ => h (Bool.eq_false_iff.mpr hend)

theorem verifyInput_length {movInput : List UInt8} (hle : movInput.length ≤ m.tempInput.length)
    (h : m.verifyInput movInput = .ok m') : m'.currentByte = m.currentByte ∧ m'.tempInput.length = m.tempInput.length := by
  have hread : readBytes m.tempInput 0 movInput.length = .ok ((m.tempInput.drop 0).take movInput.length) :=
    readBytes_of_le (by omega)
  simp only [verifyInput, hread, bind, Except.bind] at h
  split at h
  · cases h
    exact ⟨rfl, rfl⟩
  next i hi =>
    split at h
    · cases h
      refine ⟨rfl, ?_⟩
      rw [List.length_append, List.length_drop]
      omega
    · cases hcur : readBytes m.tempInput (i / ControllerState.size * ControllerState.size) ControllerState.size with
      | error fault =>
          simp only [hcur] at h
          cases h
      | ok cur =>
          simp only [hcur] at h
          cases hmov : readBytes movInput (i / ControllerState.size * ControllerState.size) ControllerState.size with
          | error fault =>
              simp only [hmov] at h
              cases h
          | ok mov =>
              simp only [hmov] at h
              cases h
              exact ⟨rfl, rfl⟩

theorem readStateHeader_fields (m : MovieManager) (header : DTMHeader) :
    (m.readStateHeader header).readOnly = m.readOnly ∧ (m.readStateHeader header).tempInput = m.tempInput ∧
      (m.readStateHeader header).currentByte = m.currentByte ∧
      (m.readStateHeader header).wiimotes 0 = header.controllers 4 := by
  rw [readStateHeader]
  split <;> exact ⟨rfl, rfl, rfl, rfl⟩

theorem loadInputChecked_positioned {file : MovieFile} (h : m.loadInputChecked file = .ok m') : m'.Positioned := by
  obtain ⟨-, hinput, hbyte, -⟩ := m.readStateHeader_fields file.header
  rw [loadInputChecked] at h
  split at h
  · cases h
    exact m.endPlayInput_positioned false
  simp only at h
  split at h
  · split at h
    · cases h
      refine resumeInput_positioned fun hend => ?_
      rw [length_movInput]
      exact Nat.le_of_not_lt (of_decide_eq_false hend)
    · cases h
  · split at h
    next hzero =>
      cases h
      refine resumeInput_positioned fun _ => ?_
      rw [hzero]
      exact Nat.zero_le _
    · split at h
      · cases h
        exact resumeInput_positioned fun hend => by cases hend
      · split at h
        · cases h
          exact resumeInput_positioned fun hend => by cases hend
        next hle =>
          cases hverify : (m.readStateHeader file.header).verifyInput
              (file.movInput (m.readStateHeader file.header).currentByte) with
          | error fault =>
              rw [hverify] at h
              cases h
          | ok verified =>
              rw [hverify] at h
              cases h
              obtain ⟨hsame, hlength⟩ := verifyInput_length (by rw [length_movInput]; omega) hverify
              refine resumeInput_positioned fun _ => ?_
              rw [hsame, hlength]
              omega

theorem inputUpdate_playMode (m : MovieManager) (ticks : UInt64) : (m.inputUpdate ticks).playMode = m.playMode := by
  rw [MovieManager.inputUpdate]
  split <;> rfl

theorem recordInput_playMode (m : MovieManager) (status : GCPadStatus) (id : Fin 4) :
    (m.recordInput status id).playMode = m.playMode := by
  rw [recordInput]
  split <;> rfl

theorem handleMoviePadStatus_positioned (h : m.setPolledDevice.isPlayingInput ≠ true) (ticks : UInt64) (id : Fin 4)
    (status : GCPadStatus) : (m.handleMoviePadStatus ticks id status).1.Positioned := by
  have hmode : m.playMode ≠ .playing := fun hplaying => h (decide_eq_true hplaying)
  rw [handleMoviePadStatus, if_neg h]
  split
  · intro hplaying
    rw [inputUpdate_playMode, recordInput_playMode] at hplaying
    exact absurd hplaying hmode
  · exact fun hplaying => absurd hplaying hmode

theorem sendDataReport_positioned (h : m.setPolledDevice.isPlayingInput ≠ true) (ticks : UInt64) (wiimote : Fin 4)
    (data : List UInt8) : (m.sendDataReport ticks wiimote data).1.Positioned := by
  have hpos : m.setPolledDevice.Positioned := fun hplaying => absurd (decide_eq_true hplaying) h
  rw [sendDataReport, if_neg h]
  exact hpos.checkWiimoteStatus ticks wiimote data

theorem playEvent_positioned {e : PlayEvent} (h : m.Positioned) (he : m.playEvent e = .ok m') : m'.Positioned := by
  cases e with
  | frame =>
      cases he
      rw [frameUpdate]
      split <;> split <;> exact h
  | setReadOnly readOnly =>
      cases he
      exact h
  | pad ticks id status =>
      simp only [playEvent] at he
      split at he
      · cases hplay : m.setPolledDevice.playControllerChecked ticks status id with
        | error fault =>
            rw [hplay] at he
            cases he
        | ok played =>
            rw [hplay] at he
            cases he
            have hpos : m.setPolledDevice.Positioned := h
            exact (playControllerChecked_positioned hpos hplay).inputUpdate ticks
      next hmode =>
        cases he
        exact handleMoviePadStatus_positioned hmode ticks id status
  | report ticks wiimote data =>
      simp only [playEvent] at he
      split at he
      · cases hplay : m.setPolledDevice.playWiimoteChecked ticks wiimote data.val.length with
        | error fault =>
            rw [hplay] at he
            cases he
        | ok played =>
            rw [hplay] at he
            cases he
            have hpos : m.setPolledDevice.Positioned := h
            exact (playWiimoteChecked_positioned hpos hplay).checkWiimoteStatus ticks wiimote _
      next hmode =>
        cases he
        exact sendDataReport_positioned hmode ticks wiimote data.val
  | loadState saved file =>
      cases file with
      | none =>
          cases he
          exact endPlayInput_positioned _ false
      | some file => exact loadInputChecked_positioned he

theorem playStep_eq_some {e : PlayEvent} (h : m.playStep e = some m') :
    m.playEvent e = .ok m' ∧ m'.tempInput.length < maxSize := by
  rw [playStep] at h
  split at h
  next after hafter =>
    obtain ⟨hfits, heq⟩ := Option.ite_none_right_eq_some.mp h
    cases heq
    exact ⟨hafter, hfits⟩
  · cases h

theorem loadInput_of_start {dtm : Dtm} (hbyte : m.currentByte = 0) (hinput : m.tempInput = dtm.input) :
    (m.loadInput dtm).1.currentByte = 0 ∧ (m.loadInput dtm).1.tempInput = dtm.input := by
  cases hread : m.readOnly with
  | false => simp [loadInput, readHeader, hread, hbyte]
  | true =>
      cases hempty : m.tempInput.isEmpty with
      | true => simp [loadInput, readHeader, hread, hbyte, hempty]
      | false =>
          have hne : dtm.input ≠ [] := fun hnil => by
            rw [hinput, hnil] at hempty
            cases hempty
          simp [loadInput, readHeader, hread, hbyte, hinput, hne]

theorem accept_positioned {idle : MovieManager} {dtm : Dtm} {savestate : Bool}
    (h : idle.accept dtm savestate = some m) : m.Positioned ∧ m.tempInput.length < maxSize := by
  obtain ⟨hfits, hplay⟩ := Option.ite_none_right_eq_some.mp h
  rw [playInput] at hplay
  split at hplay
  · cases hplay
  · simp only at hplay
    split at hplay
    · cases hplay
      obtain ⟨hbyte, hinput⟩ := @loadInput_of_start
        { idle.readHeader dtm.header with
          totalFrames := dtm.header.frameCount
          totalLagCount := dtm.header.lagCount
          totalInputCount := dtm.header.inputCount
          totalTickCount := dtm.header.tickCount
          currentFrame := 0
          currentLagCount := 0
          currentInputCount := 0
          playMode := .playing
          tempInput := dtm.input
          currentByte := 0
          recordingFromSaveState := true } dtm rfl rfl
      rw [Positioned, hbyte, hinput]
      exact ⟨fun _ => Nat.zero_le _, hfits⟩
    · cases hplay
      exact ⟨fun _ => Nat.zero_le _, hfits⟩

theorem reach_positioned {idle start : MovieManager} {dtm : Dtm} {savestate : Bool}
    (hplay : idle.accept dtm savestate = some start) (h : Reach playStep anyStep start m) :
    m.Positioned ∧ m.tempInput.length < maxSize := by
  refine h.invariant (fun m => m.Positioned ∧ m.tempInput.length < maxSize) (accept_positioned hplay) ?_
  intro m e m' hm _ hstep
  obtain ⟨he, hfits⟩ := playStep_eq_some hstep
  exact ⟨playEvent_positioned hm.1 he, hfits⟩

/-! ## What is read past the end -/

theorem playControllerChecked_ne_error (h : m.Positioned) (hfits : m.tempInput.length < maxSize) (ticks : UInt64)
    (status : GCPadStatus) (id : Fin 4) (fault : Fault) : m.playControllerChecked ticks status id ≠ .error fault := by
  rw [playControllerChecked]
  split
  · exact fun herror => by cases herror
  next hplaying =>
    split
    · exact fun herror => by cases herror
    next hend =>
      have hmode : m.playMode = .playing := by
        simp only [Bool.or_eq_true, not_or, isPlayingInput] at hplaying
        simpa using hplaying.1.1
      have hbyte := h hmode
      rw [maxSize] at hfits
      rw [Nat.mod_eq_of_lt (by rw [ControllerState.size]; omega)] at hend
      rw [readBytes_of_le (Nat.le_of_not_lt hend)]
      exact fun herror => by cases herror

theorem playWiimoteChecked_eq_error_iff (h : m.Positioned) (hfits : m.tempInput.length < maxSize) (ticks : UInt64)
    (wiimote : Fin 4) {size : Nat} (hsize : size < 256) : m.playWiimoteChecked ticks wiimote size = .error .outOfBounds ↔
      m.playMode = .playing ∧ m.wiimotes wiimote = true ∧ m.tempInput ≠ [] ∧ m.currentByte = m.tempInput.length := by
  rw [playWiimoteChecked]
  split
  next hskip =>
    refine ⟨fun herror => (by cases herror), fun ⟨hmode, hused, hinput, _⟩ => ?_⟩
    simp [isPlayingInput, isUsingWiimote, hmode, hused, hinput] at hskip
  next hplaying =>
    simp only [isPlayingInput, isUsingWiimote, Bool.or_eq_true, Bool.not_eq_true', decide_eq_false_iff_not,
      List.isEmpty_iff, not_or, not_not, Bool.not_eq_false] at hplaying
    obtain ⟨⟨hmode, hused⟩, hinput⟩ := hplaying
    have hbyte := h hmode
    rw [if_neg (Nat.not_lt.mpr hbyte)]
    rw [maxSize] at hfits
    cases hread : readBytes m.tempInput m.currentByte 1 with
    | error fault =>
        obtain ⟨hlast, rfl⟩ := readBytes_eq_error_iff.mp hread
        exact ⟨fun _ => ⟨hmode, hused, hinput, by omega⟩, fun _ => rfl⟩
    | ok sizeInMovie =>
        have hlt : m.currentByte + 1 ≤ m.tempInput.length := by
          by_contra hlast
          have herror := readBytes_eq_error_iff.mpr ⟨Nat.lt_of_not_le hlast, rfl⟩
          rw [hread] at herror
          cases herror
        refine ⟨fun herror => ?_, fun hlast => absurd hlast.2.2.2 (by omega)⟩
        simp only [bind, Except.bind] at herror
        split at herror
        · cases herror
        · split at herror
          · cases herror
          next hend =>
            rw [Nat.mod_eq_of_lt (by omega)] at hend
            simp only [readBytes_of_le (Nat.le_of_not_lt hend)] at herror
            cases herror

theorem verifyInput_eq_error_iff {movInput : List UInt8} (hle : movInput.length ≤ m.tempInput.length) :
    m.verifyInput movInput = .error .outOfBounds ↔ m.wiimotes 0 = false ∧
      ∃ i, mismatch movInput (m.tempInput.take movInput.length) = some i ∧
        movInput.length < (i / ControllerState.size + 1) * ControllerState.size := by
  have hread : readBytes m.tempInput 0 movInput.length = .ok (m.tempInput.take movInput.length) :=
    readBytes_of_le (by omega)
  simp only [verifyInput, hread, bind, Except.bind]
  split
  next hnone =>
    rw [hnone]
    exact ⟨fun herror => (by cases herror), by rintro ⟨_, i, hi, _⟩; cases hi⟩
  next i hi =>
    rw [hi]
    split
    next hused =>
      refine ⟨fun herror => (by cases herror), ?_⟩
      rintro ⟨hunused, _⟩
      rw [isUsingWiimote, hunused] at hused
      cases hused
    next hunused =>
      have hfalse : m.wiimotes 0 = false := Bool.eq_false_iff.mpr hunused
      have hrecord : (i / ControllerState.size + 1) * ControllerState.size =
          i / ControllerState.size * ControllerState.size + ControllerState.size := Nat.succ_mul _ _
      by_cases hwhole : (i / ControllerState.size + 1) * ControllerState.size ≤ movInput.length
      · rw [hrecord] at hwhole
        rw [readBytes_of_le (Nat.le_trans hwhole hle), readBytes_of_le hwhole]
        refine ⟨fun herror => (by cases herror), ?_⟩
        rintro ⟨_, j, hj, hlt⟩
        cases hj
        exact absurd hlt (by omega)
      · refine ⟨fun _ => ⟨hfalse, i, rfl, Nat.lt_of_not_le hwhole⟩, fun _ => ?_⟩
        have hmov : readBytes movInput (i / ControllerState.size * ControllerState.size) ControllerState.size =
            .error .outOfBounds := readBytes_eq_error_iff.mpr ⟨by omega, rfl⟩
        cases hcur : readBytes m.tempInput (i / ControllerState.size * ControllerState.size) ControllerState.size with
        | error fault =>
            rw [(readBytes_eq_error_iff.mp hcur).2]
        | ok cur =>
            simp only [hmov]

theorem loadInputChecked_eq_error_iff {file : MovieFile} : m.loadInputChecked file = .error .outOfBounds ↔
    file.isMovieHeader = true ∧ m.readOnly = true ∧ m.currentByte ≤ file.totalSavedBytes ∧
      m.currentByte ≤ m.tempInput.length ∧ file.header.controllers 4 = false ∧
      ∃ i, mismatch (file.movInput m.currentByte) (m.tempInput.take m.currentByte) = some i ∧
        m.currentByte < (i / ControllerState.size + 1) * ControllerState.size := by
  obtain ⟨hread, hinput, hbyte, hused⟩ := m.readStateHeader_fields file.header
  have hnone : m.currentByte = 0 ∨ m.tempInput = [] →
      mismatch (file.movInput m.currentByte) (m.tempInput.take m.currentByte) = none := by
    rintro (hzero | hnil)
    · rw [hzero, List.take_zero, mismatch, List.zip_nil_right]
      rfl
    · rw [hnil, List.take_nil, mismatch, List.zip_nil_right]
      rfl
  rw [loadInputChecked]
  split
  next hheader =>
    refine ⟨fun herror => (by cases herror), fun hload => ?_⟩
    rw [hload.1] at hheader
    cases hheader
  next hheader =>
    have hmovie : file.isMovieHeader = true := by simpa using hheader
    simp only [hread, hinput, hbyte]
    split
    next hresize =>
      have hskip : ¬ (m.readOnly = true ∧ m.tempInput ≠ []) := fun ⟨htrue, hne⟩ => by
        simp [htrue, hne] at hresize
      refine ⟨fun herror => ?_, fun ⟨_, htrue, _, _, _, i, hi, _⟩ => ?_⟩
      · split at herror <;> cases herror
      · rw [hnone (.inr (not_not.mp fun hne => hskip ⟨htrue, hne⟩))] at hi
        cases hi
    next hplays =>
      have htrue : m.readOnly = true ∧ m.tempInput ≠ [] := by
        simpa using hplays
      split
      next hzero =>
        refine ⟨fun herror => (by cases herror), fun ⟨_, _, _, _, _, i, hi, _⟩ => ?_⟩
        rw [hnone (.inl hzero)] at hi
        cases hi
      · split
        next hafter =>
          exact ⟨fun herror => (by cases herror), fun hload => absurd hload.2.2.1 (Nat.not_le_of_lt hafter)⟩
        next hsaved =>
          split
          next hafter =>
            exact ⟨fun herror => (by cases herror), fun hload => absurd hload.2.2.2.1 (Nat.not_le_of_lt hafter)⟩
          next hle =>
            have hlength : (file.movInput m.currentByte).length ≤ (m.readStateHeader file.header).tempInput.length := by
              rw [length_movInput, hinput]
              exact Nat.le_of_not_lt hle
            have hverify := verifyInput_eq_error_iff hlength
            rw [length_movInput, hinput, hused] at hverify
            have hbind : (do
                let m ← (m.readStateHeader file.header).verifyInput (file.movInput m.currentByte)
                .ok (m.resumeInput false)) = .error Fault.outOfBounds ↔
                (m.readStateHeader file.header).verifyInput (file.movInput m.currentByte) = .error .outOfBounds := by
              cases (m.readStateHeader file.header).verifyInput (file.movInput m.currentByte) with
              | error fault => exact Iff.rfl
              | ok verified => exact ⟨fun herror => (by cases herror), fun herror => (by cases herror)⟩
            rw [hbind, hverify]
            exact ⟨fun hload => ⟨hmovie, htrue.1, Nat.le_of_not_lt hsaved, Nat.le_of_not_lt hle, hload⟩,
              fun hload => hload.2.2.2.2⟩

theorem playEvent_report_eq_error_iff (h : m.Positioned) (hfits : m.tempInput.length < maxSize) (ticks : UInt64)
    (wiimote : Fin 4) (data : Report) : m.playEvent (.report ticks wiimote data) = .error .outOfBounds ↔
      m.playMode = .playing ∧ m.wiimotes wiimote = true ∧ m.tempInput ≠ [] ∧ m.currentByte = m.tempInput.length := by
  have hpolled : m.setPolledDevice.Positioned := h
  have hiff := playWiimoteChecked_eq_error_iff hpolled hfits ticks wiimote data.property
  refine Iff.trans ?_ hiff
  simp only [playEvent]
  split
  · cases m.setPolledDevice.playWiimoteChecked ticks wiimote data.val.length with
    | error fault => exact ⟨fun herror => (by cases herror; rfl), fun herror => (by cases herror; rfl)⟩
    | ok played => exact ⟨fun herror => (by cases herror), fun herror => (by cases herror)⟩
  next hidle =>
    refine ⟨fun herror => (by cases herror), fun herror => ?_⟩
    exact absurd (decide_eq_true (hiff.mp herror).1) hidle

theorem loadInputChecked_of_same {file : MovieFile} (hheader : file.isMovieHeader = true) (hread : m.readOnly = true)
    (hinput : m.tempInput ≠ []) (hsaved : m.currentByte ≤ file.totalSavedBytes)
    (hbyte : m.currentByte ≤ m.tempInput.length)
    (hsame : mismatch (file.movInput m.currentByte) (m.tempInput.take m.currentByte) = none) :
    m.loadInputChecked file = .ok ((m.readStateHeader file.header).resumeInput false) := by
  obtain ⟨hread', hinput', hbyte', -⟩ := m.readStateHeader_fields file.header
  have hcurrent : readBytes m.tempInput 0 m.currentByte = .ok (m.tempInput.take m.currentByte) :=
    readBytes_of_le (by omega)
  have hverify : (m.readStateHeader file.header).verifyInput (file.movInput m.currentByte) =
      .ok (m.readStateHeader file.header) := by
    simp only [verifyInput, length_movInput, hinput', hcurrent, bind, Except.bind, hsame]
  have hempty : m.tempInput.isEmpty = false := by simpa using hinput
  rw [loadInputChecked, if_neg (by simp [hheader])]
  simp only [hread', hinput', hbyte', hread, hempty, Bool.not_true, Bool.or_self, Bool.false_eq_true, ↓reduceIte,
    if_neg (Nat.not_lt.mpr hsaved), if_neg (Nat.not_lt.mpr hbyte), hverify]
  split
  · rfl
  · rfl

/-! ## Runs -/

/-- In every run from a movie that is played, with any polls and any states, exactly the safe steps stay in bounds. -/
theorem playEvent_inBounds_iff {idle start : MovieManager} {dtm : Dtm} {savestate : Bool}
    (hplay : idle.accept dtm savestate = some start) (h : Reach playStep anyStep start m) (e : PlayEvent) :
    m.inBounds e ↔ m.Safe e := by
  obtain ⟨hpos, hfits⟩ := reach_positioned hplay h
  have hpolled : m.setPolledDevice.Positioned := hpos
  cases e with
  | frame => exact ⟨fun _ => trivial, fun _ herror => by cases herror⟩
  | setReadOnly readOnly => exact ⟨fun _ => trivial, fun _ herror => by cases herror⟩
  | pad ticks id status =>
      refine ⟨fun _ => trivial, fun _ herror => ?_⟩
      simp only [playEvent] at herror
      split at herror
      · cases hchecked : m.setPolledDevice.playControllerChecked ticks status id with
        | error fault => exact playControllerChecked_ne_error hpolled hfits ticks status id fault hchecked
        | ok played =>
            rw [hchecked] at herror
            cases herror
      · cases herror
  | report ticks wiimote data =>
      rw [inBounds, ne_eq, playEvent_report_eq_error_iff hpos hfits, Safe]
      simp only [not_and, ne_eq]
  | loadState saved file =>
      cases file with
      | none => exact ⟨fun _ => trivial, fun _ herror => by cases herror⟩
      | some file =>
          have hiff := @loadInputChecked_eq_error_iff (m.loadState saved) file
          rw [inBounds, playEvent, ne_eq, hiff, Safe]
          simp only [not_and, not_exists, not_lt]
          exact Iff.rfl

end MovieManager

/-! ## The end of the input -/

def movieOf (controllers : Fin 8 → Bool) (bytes : List UInt8) : Dtm where
  header :=
    { controllers := controllers
      gbaControllers := fun _ => false
      bFromSaveState := false
      frameCount := 0
      inputCount := 0
      lagCount := 0
      numRerecords := 0
      tickCount := 100 }
  input := bytes

def remote : Fin 8 → Bool := fun i => i = 4

def reportFile (controllers : Fin 8 → Bool) (byte : UInt8) : MovieFile :=
  ⟨true, (movieOf controllers [1, byte]).header, 258, [1, byte], rfl⟩

def savedAt (byte : Nat) : SavedMovie := ⟨0, byte, 0, 0, false, 0⟩

namespace MovieManager

def playing : MovieManager :=
  { (idle true).readHeader (movieOf remote [1, 7]).header with
    totalTickCount := 100
    playMode := .playing
    tempInput := [1, 7] }

/-- The report after a state that was saved on the last one, and a state of another movie without Wii Remotes whose position
cuts a record. -/
theorem playEvent_pastEnd : (idle true).accept (movieOf remote [1, 7]) false = some playing ∧
    (∃ m, Reach playStep anyStep playing m ∧ m.playEvent (.report 0 0 ⟨[0], by decide⟩) = .error .outOfBounds) ∧
      playing.playEvent (.loadState (savedAt 2) (some (reportFile (fun _ => false) 8))) = .error .outOfBounds := by
  have hload : playing.playEvent (.loadState (savedAt 2) (some (reportFile remote 7))) =
      .ok (((playing.loadState (savedAt 2)).readStateHeader (reportFile remote 7).header).resumeInput false) :=
    loadInputChecked_of_same rfl rfl (by decide) (by decide) (by decide) (by decide)
  have hstep : playing.playStep (.loadState (savedAt 2) (some (reportFile remote 7))) = some
      (((playing.loadState (savedAt 2)).readStateHeader (reportFile remote 7).header).resumeInput false) := by
    rw [playStep, hload]
    exact if_pos (by decide)
  have hreport := (playEvent_report_eq_error_iff (fun _ => by decide) (by decide) 0 0 ⟨[0], by decide⟩).mpr
    ⟨(rfl : (((playing.loadState (savedAt 2)).readStateHeader (reportFile remote 7).header).resumeInput false).playMode =
      .playing), rfl, by decide, rfl⟩
  exact ⟨rfl, ⟨_, .tail .refl trivial hstep, hreport⟩,
    loadInputChecked_eq_error_iff.mpr ⟨rfl, rfl, by decide, by decide, rfl, 1, by decide, by decide⟩⟩

/-- A report at the beginning. -/
theorem playEvent_inBounds_iff_report :
    playing.inBounds (.report 0 0 ⟨[0], by decide⟩) ↔ playing.Safe (.report 0 0 ⟨[0], by decide⟩) :=
  @playEvent_inBounds_iff _ (idle true) _ (movieOf remote [1, 7]) false rfl .refl _

end MovieManager

end Karphin.Movie
