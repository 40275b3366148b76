import Karphin.Lib.FinNumerals

/-!
# Movies

The input of a recording is a list of bytes with a position in it: records of eight bytes for the pads, and reports of the
Wii Remotes after their sizes.
-/

namespace Karphin.Movie

/-! ## Pads -/

def padUseOrigin : BitVec 16 := 0x0080
def padGetOrigin : BitVec 16 := 0x2000

def padButtonLeft : BitVec 16 := 0x0001
def padButtonRight : BitVec 16 := 0x0002
def padButtonDown : BitVec 16 := 0x0004
def padButtonUp : BitVec 16 := 0x0008
def padTriggerZ : BitVec 16 := 0x0010
def padTriggerR : BitVec 16 := 0x0020
def padTriggerL : BitVec 16 := 0x0040
def padButtonA : BitVec 16 := 0x0100
def padButtonB : BitVec 16 := 0x0200
def padButtonX : BitVec 16 := 0x0400
def padButtonY : BitVec 16 := 0x0800
def padButtonStart : BitVec 16 := 0x1000

structure GCPadStatus where
  button : BitVec 16 := 0
  stickX : UInt8 := 0
  stickY : UInt8 := 0
  substickX : UInt8 := 0
  substickY : UInt8 := 0
  triggerLeft : UInt8 := 0
  triggerRight : UInt8 := 0
  analogA : UInt8 := 0
  analogB : UInt8 := 0
  isConnected : Bool := true
  deriving DecidableEq

structure ControllerState where
  start : Bool := false
  a : Bool := false
  b : Bool := false
  x : Bool := false
  y : Bool := false
  z : Bool := false
  dpadUp : Bool := false
  dpadDown : Bool := false
  dpadLeft : Bool := false
  dpadRight : Bool := false
  l : Bool := false
  r : Bool := false
  disc : Bool := false
  reset : Bool := false
  isConnected : Bool := false
  getOrigin : Bool := false
  triggerL : UInt8 := 0
  triggerR : UInt8 := 0
  analogStickX : UInt8 := 0
  analogStickY : UInt8 := 0
  cStickX : UInt8 := 0
  cStickY : UInt8 := 0
  deriving DecidableEq

def packBits (bits : List Bool) : UInt8 := UInt8.ofNat (bits.foldr (fun bit n => 2 * n + bit.toNat) 0)

def bitOf (byte : UInt8) (i : Nat) : Bool := byte.toNat.testBit i

namespace ControllerState

def size : Nat := 8

def toBytes (s : ControllerState) : List UInt8 :=
  [packBits [s.start, s.a, s.b, s.x, s.y, s.z, s.dpadUp, s.dpadDown],
    packBits [s.dpadLeft, s.dpadRight, s.l, s.r, s.disc, s.reset, s.isConnected, s.getOrigin],
    s.triggerL, s.triggerR, s.analogStickX, s.analogStickY, s.cStickX, s.cStickY]

def ofBytes (bytes : List UInt8) : ControllerState :=
  let first := bytes.getD 0 0
  let second := bytes.getD 1 0
  { start := bitOf first 0, a := bitOf first 1, b := bitOf first 2, x := bitOf first 3, y := bitOf first 4,
    z := bitOf first 5, dpadUp := bitOf first 6, dpadDown := bitOf first 7, dpadLeft := bitOf second 0,
    dpadRight := bitOf second 1, l := bitOf second 2, r := bitOf second 3, disc := bitOf second 4,
    reset := bitOf second 5, isConnected := bitOf second 6, getOrigin := bitOf second 7,
    triggerL := bytes.getD 2 0, triggerR := bytes.getD 3 0, analogStickX := bytes.getD 4 0,
    analogStickY := bytes.getD 5 0, cStickX := bytes.getD 6 0, cStickY := bytes.getD 7 0 }

end ControllerState

/-! ## The manager -/

inductive ControllerType
  | none | gc | gba
  deriving DecidableEq

inductive PlayMode
  | none | recording | playing
  deriving DecidableEq

abbrev ControllerTypeArray := Fin 4 → ControllerType

abbrev WiimoteEnabledArray := Fin 4 → Bool

structure MovieManager where
  readOnly : Bool
  rerecords : UInt32
  playMode : PlayMode
  controllers : ControllerTypeArray
  wiimotes : WiimoteEnabledArray
  padState : ControllerState
  tempInput : List UInt8
  currentByte : Nat
  currentFrame : Nat
  totalFrames : Nat
  currentLagCount : Nat
  totalLagCount : Nat
  currentInputCount : Nat
  totalInputCount : Nat
  totalTickCount : UInt64
  tickCountAtLastInput : UInt64
  recordingFromSaveState : Bool
  hasDiscChange : Bool
  reset : Bool
  polled : Bool

/-- The fields of `DTMHeader` that are read back; the arrays are the bits of a byte. -/
structure DTMHeader where
  controllers : Fin 8 → Bool
  gbaControllers : Fin 4 → Bool
  bFromSaveState : Bool
  frameCount : Nat
  inputCount : Nat
  lagCount : Nat
  numRerecords : UInt32
  tickCount : UInt64

/-- A movie file: the header of 256 bytes, and the input after it. -/
structure Dtm where
  header : DTMHeader
  input : List UInt8

def resize (bytes : List UInt8) (n : Nat) : List UInt8 := bytes.take n ++ List.replicate (n - bytes.length) 0

def writeAt (bytes : List UInt8) (i : Nat) (data : List UInt8) : List UInt8 :=
  bytes.take i ++ data ++ bytes.drop (i + data.length)

namespace MovieManager

def isRecordingInput (m : MovieManager) : Bool := m.playMode = .recording

def isPlayingInput (m : MovieManager) : Bool := m.playMode = .playing

def isMovieActive (m : MovieManager) : Bool := m.playMode ≠ .none

def isUsingPad (m : MovieManager) (controller : Fin 4) : Bool := m.controllers controller ≠ .none

def isUsingWiimote (m : MovieManager) (wiimote : Fin 4) : Bool := m.wiimotes wiimote

def isJustStartingRecordingInputFromSaveState (m : MovieManager) : Bool := m.recordingFromSaveState && m.currentFrame = 0

def isJustStartingPlayingInputFromSaveState (m : MovieManager) : Bool :=
  m.recordingFromSaveState && m.currentFrame = 1 && m.isPlayingInput

def frameUpdate (m : MovieManager) : MovieManager :=
  let m := { m with currentFrame := m.currentFrame + 1 }
  let m := if m.polled then m else { m with currentLagCount := m.currentLagCount + 1 }
  let m :=
    if m.isRecordingInput then { m with totalFrames := m.currentFrame, totalLagCount := m.currentLagCount } else m
  { m with polled := false }

def setPolledDevice (m : MovieManager) : MovieManager := { m with polled := true }

def inputUpdate (m : MovieManager) (ticks : UInt64) : MovieManager :=
  let m := { m with currentInputCount := m.currentInputCount + 1 }
  if m.isRecordingInput then
    { m with
      totalInputCount := m.currentInputCount
      totalTickCount := m.totalTickCount + (ticks - m.tickCountAtLastInput)
      tickCountAtLastInput := ticks }
  else m

/-! ### Recording -/

def checkPadStatus (m : MovieManager) (padStatus : GCPadStatus) : MovieManager :=
  let pressed (mask : BitVec 16) : Bool := padStatus.button &&& mask ≠ 0
  { m with
    padState :=
      { a := pressed padButtonA, b := pressed padButtonB, x := pressed padButtonX, y := pressed padButtonY,
        z := pressed padTriggerZ, start := pressed padButtonStart, dpadUp := pressed padButtonUp,
        dpadDown := pressed padButtonDown, dpadLeft := pressed padButtonLeft, dpadRight := pressed padButtonRight,
        l := pressed padTriggerL, r := pressed padTriggerR, triggerL := padStatus.triggerLeft,
        triggerR := padStatus.triggerRight, analogStickX := padStatus.stickX, analogStickY := padStatus.stickY,
        cStickX := padStatus.substickX, cStickY := padStatus.substickY, isConnected := padStatus.isConnected,
        getOrigin := pressed padGetOrigin, disc := m.hasDiscChange, reset := m.reset }
    hasDiscChange := false
    reset := false }

def recordInput (m : MovieManager) (padStatus : GCPadStatus) (controllerID : Fin 4) : MovieManager :=
  if !m.isRecordingInput || !m.isUsingPad controllerID then m
  else
    let m := m.checkPadStatus padStatus
    let input := resize m.tempInput (m.currentByte + ControllerState.size)
    { m with
      tempInput := writeAt input m.currentByte m.padState.toBytes
      currentByte := m.currentByte + ControllerState.size }

def recordWiimote (m : MovieManager) (ticks : UInt64) (wiimote : Fin 4) (data : List UInt8) : MovieManager :=
  if !m.isRecordingInput || !m.isUsingWiimote wiimote then m
  else
    let m := m.inputUpdate ticks
    let input := resize m.tempInput (m.currentByte + data.length + 1)
    let input := writeAt input m.currentByte [UInt8.ofNat data.length]
    { m with
      tempInput := writeAt input (m.currentByte + 1) data
      currentByte := m.currentByte + 1 + data.length }

def checkWiimoteStatus (m : MovieManager) (ticks : UInt64) (wiimote : Fin 4) (data : List UInt8) : MovieManager :=
  if m.isRecordingInput then m.recordWiimote ticks wiimote data else m

def saveRecording (m : MovieManager) (isWii : Bool) : Dtm where
  header :=
    { controllers := fun i =>
        if h : i.val < 4 then m.isUsingPad ⟨i.val, h⟩ else m.isUsingWiimote ⟨i.val - 4, by omega⟩ && isWii
      gbaControllers := fun i => m.controllers i = .gba
      bFromSaveState := m.recordingFromSaveState
      frameCount := m.totalFrames
      inputCount := m.totalInputCount
      lagCount := m.totalLagCount
      numRerecords := m.rerecords
      tickCount := m.totalTickCount }
  input := m.tempInput

/-! ### Playing -/

def readHeader (m : MovieManager) (header : DTMHeader) : MovieManager :=
  { m with
    controllers := fun i =>
      if header.gbaControllers i then .gba else if header.controllers (i.castLE (by omega)) then .gc else .none
    wiimotes := fun i => header.controllers ⟨i.val + 4, by omega⟩
    rerecords := if m.rerecords < header.numRerecords then header.numRerecords else m.rerecords }

def endPlayInput (m : MovieManager) (cont : Bool) : MovieManager :=
  if cont then { m with playMode := .recording }
  else if m.playMode ≠ .none then
    { m with rerecords := 0, currentByte := 0, playMode := .none, recordingFromSaveState := false }
  else m

def checkInputEnd (m : MovieManager) (ticks : UInt64) : MovieManager :=
  if m.currentByte ≥ m.tempInput.length ∨ ticks > m.totalTickCount ∧ m.recordingFromSaveState = false then
    m.endPlayInput !m.readOnly
  else m

def addButton (pressed : Bool) (mask button : BitVec 16) : BitVec 16 := if pressed then button ||| mask else button

def fillPadStatus (padState : ControllerState) (padStatus : GCPadStatus) : GCPadStatus :=
  { padStatus with
    isConnected := padState.isConnected
    triggerLeft := padState.triggerL
    triggerRight := padState.triggerR
    stickX := padState.analogStickX
    stickY := padState.analogStickY
    substickX := padState.cStickX
    substickY := padState.cStickY
    button := addButton padState.getOrigin padGetOrigin <| addButton padState.r padTriggerR <|
      addButton padState.l padTriggerL <| addButton padState.dpadRight padButtonRight <|
      addButton padState.dpadLeft padButtonLeft <| addButton padState.dpadDown padButtonDown <|
      addButton padState.dpadUp padButtonUp <| addButton padState.start padButtonStart <|
      addButton padState.z padTriggerZ <| addButton padState.y padButtonY <| addButton padState.x padButtonX <|
      addButton padState.b padButtonB <| addButton padState.a padButtonA (0 ||| padUseOrigin)
    analogA := if padState.a then 0xff else padStatus.analogA
    analogB := if padState.b then 0xff else padStatus.analogB }

/-- The disc change and the reset that a record may ask for are left out. -/
def playController (m : MovieManager) (ticks : UInt64) (padStatus : GCPadStatus) (controllerID : Fin 4) :
    MovieManager × GCPadStatus :=
  if !m.isPlayingInput || !m.isUsingPad controllerID || m.tempInput.isEmpty then (m, padStatus)
  else if m.currentByte + ControllerState.size > m.tempInput.length then (m.endPlayInput !m.readOnly, padStatus)
  else
    let padState := ControllerState.ofBytes ((m.tempInput.drop m.currentByte).take ControllerState.size)
    let m := { m with padState := padState, currentByte := m.currentByte + ControllerState.size }
    (m.checkInputEnd ticks, fillPadStatus padState padStatus)

/-- The data of the report, where the movie has it; `size` is that of the report that is being built. -/
def playWiimote (m : MovieManager) (ticks : UInt64) (wiimote : Fin 4) (size : Nat) : MovieManager × Option (List UInt8) :=
  if !m.isPlayingInput || !m.isUsingWiimote wiimote || m.tempInput.isEmpty then (m, none)
  else if m.currentByte > m.tempInput.length then (m.endPlayInput !m.readOnly, none)
  else if size ≠ (m.tempInput.getD m.currentByte 0).toNat then (m.endPlayInput !m.readOnly, none)
  else
    let m := { m with currentByte := m.currentByte + 1 }
    if m.currentByte + size > m.tempInput.length then (m.endPlayInput !m.readOnly, none)
    else
      let data := (m.tempInput.drop m.currentByte).take size
      let m := { m with currentByte := m.currentByte + size, currentInputCount := m.currentInputCount + 1 }
      (m.checkInputEnd ticks, some data)

end MovieManager

/-! ## States -/

structure SavedMovie where
  currentFrame : Nat
  currentByte : Nat
  currentLagCount : Nat
  currentInputCount : Nat
  polled : Bool
  tickCountAtLastInput : UInt64

namespace MovieManager

def saveState (m : MovieManager) : SavedMovie :=
  ⟨m.currentFrame, m.currentByte, m.currentLagCount, m.currentInputCount, m.polled, m.tickCountAtLastInput⟩

def loadState (m : MovieManager) (s : SavedMovie) : MovieManager :=
  { m with
    currentFrame := s.currentFrame
    currentByte := s.currentByte
    currentLagCount := s.currentLagCount
    currentInputCount := s.currentInputCount
    polled := s.polled
    tickCountAtLastInput := s.tickCountAtLastInput }

def loadInput (m : MovieManager) (dtm : Dtm) : MovieManager × Dtm :=
  let m := m.readHeader dtm.header
  let m := if m.readOnly then m else { m with rerecords := m.rerecords + 1 }
  let header := if m.readOnly then dtm.header else { dtm.header with numRerecords := m.rerecords }
  let totalSavedBytes := dtm.input.length
  let (m, afterEnd) :=
    if !m.readOnly || m.tempInput.isEmpty then
      ({ m with
        totalFrames := header.frameCount
        totalLagCount := header.lagCount
        totalInputCount := header.inputCount
        totalTickCount := header.tickCount
        tickCountAtLastInput := header.tickCount
        tempInput := dtm.input }, decide (m.currentByte > totalSavedBytes))
    else if m.currentByte > totalSavedBytes ∨ m.currentByte > m.tempInput.length then (m, true)
    else
      -- Only with Wii Remotes the input of the state replaces the one that differs.
      let movInput := dtm.input.take m.currentByte
      if movInput ≠ m.tempInput.take m.currentByte ∧ m.isUsingWiimote 0 then
        ({ m with tempInput := movInput ++ m.tempInput.drop m.currentByte }, false)
      else (m, false)
  let m :=
    if afterEnd then m.endPlayInput false
    else { m with playMode := if m.readOnly then .playing else .recording }
  (m, ⟨header, dtm.input⟩)

def beginRecordingInput (m : MovieManager) (controllers : ControllerTypeArray) (wiimotes : WiimoteEnabledArray)
    (running : Bool) : Option (MovieManager × SavedMovie) :=
  if m.playMode ≠ .none ∨ (∀ i, controllers i = .none) ∧ (∀ i, wiimotes i = false) then none
  else
    let m :=
      { m with
        controllers := controllers
        wiimotes := wiimotes
        currentFrame := 0
        totalFrames := 0
        currentLagCount := 0
        totalLagCount := 0
        currentInputCount := 0
        totalInputCount := 0
        totalTickCount := 0
        tickCountAtLastInput := 0
        rerecords := 0 }
    let saved := m.saveState
    let m := if running then { m with recordingFromSaveState := true } else m
    some ({ m with playMode := .recording, tempInput := [], currentByte := 0 }, saved)

def playInput (m : MovieManager) (dtm : Dtm) (savestate : Bool) : Option MovieManager :=
  if m.playMode ≠ .none then none
  else
    let m := m.readHeader dtm.header
    let m :=
      { m with
        totalFrames := dtm.header.frameCount
        totalLagCount := dtm.header.lagCount
        totalInputCount := dtm.header.inputCount
        totalTickCount := dtm.header.tickCount
        currentFrame := 0
        currentLagCount := 0
        currentInputCount := 0
        playMode := .playing
        tempInput := dtm.input
        currentByte := 0 }
    if dtm.header.bFromSaveState && savestate then some ({ m with recordingFromSaveState := true }.loadInput dtm).1
    else some m

end MovieManager

end Karphin.Movie

/-!
## Recording and replaying

The console that reads its input through the movie, the states that are saved and loaded while it records, and the console
that reads the input of a movie again.
-/

namespace Karphin.Movie

abbrev Report := { data : List UInt8 // data.length < 256 }

inductive Poll
  | pad (ticks : UInt64) (id : Fin 4) (status : GCPadStatus)
  | report (ticks : UInt64) (wiimote : Fin 4) (data : Report)

def Poll.ticks : Poll → UInt64
  | .pad ticks _ _ => ticks
  | .report ticks _ _ => ticks

namespace MovieManager

def handleMoviePadStatus (m : MovieManager) (ticks : UInt64) (id : Fin 4) (padStatus : GCPadStatus) :
    MovieManager × GCPadStatus :=
  let m := m.setPolledDevice
  if m.isPlayingInput then
    let (m, padStatus) := m.playController ticks padStatus id
    (m.inputUpdate ticks, padStatus)
  else if m.isRecordingInput then ((m.recordInput padStatus id).inputUpdate ticks, padStatus)
  else (m.checkPadStatus padStatus, padStatus)

/-- `SendDataReport`; `data` is what the report has where the movie has none for it. -/
def sendDataReport (m : MovieManager) (ticks : UInt64) (wiimote : Fin 4) (data : List UInt8) :
    MovieManager × List UInt8 :=
  let m := m.setPolledDevice
  let (m, data) :=
    if m.isPlayingInput then
      let (m, played) := m.playWiimote ticks wiimote data.length
      (m, played.getD data)
    else (m, data)
  (m.checkWiimoteStatus ticks wiimote data, data)

end MovieManager

/-! ## Recording -/

/-- The time of the console, and what it has read since the recording began. -/
structure Console where
  ticks : UInt64
  polls : List Poll

structure StateFile where
  movie : SavedMovie
  console : Console
  dtm : Option Dtm

/-- `pending` are the states that the worker thread has still to write, with their slots. -/
structure World where
  movie : MovieManager
  console : Console
  pending : List (Nat × SavedMovie × Console)
  slots : Nat → Option StateFile

inductive Event
  | frame
  /-- Time passes until `ticks`. -/
  | advance (ticks : UInt64)
  | pad (id : Fin 4) (status : GCPadStatus)
  | report (wiimote : Fin 4) (data : Report)
  | signalDiscChange
  | setReset (reset : Bool)
  | saveState (slot : Nat)
  /-- The worker thread writes the state and its movie. -/
  | finishSave
  | loadState (slot : Nat)

namespace World

def finishSave (isWii : Bool) (w : World) : World :=
  match w.pending with
  | [] => w
  | (slot, movie, console) :: rest =>
      let dtm :=
        if w.movie.isMovieActive && !w.movie.isJustStartingRecordingInputFromSaveState then
          some (w.movie.saveRecording isWii)
        else none
      { w with pending := rest, slots := fun k => if k = slot then some ⟨movie, console, dtm⟩ else w.slots k }

def loadState (w : World) (slot : Nat) : World :=
  match w.pending, w.slots slot with
  | [], some file =>
      let m := w.movie.loadState file.movie
      match file.dtm with
      | some dtm =>
          let (m, dtm) := m.loadInput dtm
          { w with
            movie := m
            console := file.console
            slots := fun k => if k = slot then some { file with dtm := some dtm } else w.slots k }
      | none =>
          let m :=
            if !m.isJustStartingRecordingInputFromSaveState && !m.isJustStartingPlayingInputFromSaveState then
              m.endPlayInput false
            else m
          { w with movie := m, console := file.console }
  | _, _ => w

def step (isWii : Bool) (w : World) : Event → Option World
  | .frame => some { w with movie := w.movie.frameUpdate }
  | .advance ticks =>
      if w.console.ticks ≤ ticks then some { w with console := { w.console with ticks := ticks } } else none
  | .pad id status =>
      let (m, status) := w.movie.handleMoviePadStatus w.console.ticks id status
      some { w with
        movie := m
        console := { w.console with polls := w.console.polls ++ [.pad w.console.ticks id status] } }
  | .report wiimote data =>
      if isWii then
        let (m, _) := w.movie.sendDataReport w.console.ticks wiimote data
        some { w with
          movie := m
          console := { w.console with polls := w.console.polls ++ [.report w.console.ticks wiimote data] } }
      else none
  | .signalDiscChange => some { w with movie := { w.movie with hasDiscChange := true } }
  | .setReset reset => some { w with movie := { w.movie with reset := reset } }
  | .saveState slot => some { w with pending := w.pending ++ [(slot, w.movie.saveState, w.console)] }
  | .finishSave => some (w.finishSave isWii)
  | .loadState slot => some (w.loadState slot)

/-- The world when a recording has begun, at any time of the console and with no states of the recording yet. -/
def start (movie : MovieManager) (ticks : UInt64) : World := ⟨movie, ⟨ticks, []⟩, [], fun _ => none⟩

end World

/-! ## Replaying -/

inductive Reading
  | pad (status : GCPadStatus)
  | report (data : List UInt8)

/-- A movie that is played, from the state of the manager in the savestate that it starts from if it starts from one. That
state has no movie file of its own. -/
def startPlaying (m : MovieManager) (dtm : Dtm) (saved : SavedMovie) : Option MovieManager :=
  (m.playInput dtm true).map fun m =>
    if dtm.header.bFromSaveState then
      let m := m.loadState saved
      if !m.isJustStartingRecordingInputFromSaveState && !m.isJustStartingPlayingInputFromSaveState then
        m.endPlayInput false
      else m
    else m

/-- The same device is polled again at the same time. What the pad itself has is `live`, and the report has the same size. -/
def MovieManager.poll (m : MovieManager) (live : GCPadStatus) (liveData : List UInt8) : Poll → MovieManager × Reading
  | .pad ticks id _ =>
      let (m, status) := m.handleMoviePadStatus ticks id live
      (m, .pad status)
  | .report ticks wiimote data =>
      let (m, data) := m.sendDataReport ticks wiimote (resize liveData data.val.length)
      (m, .report data)

end Karphin.Movie
