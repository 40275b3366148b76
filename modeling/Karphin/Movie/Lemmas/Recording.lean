import Karphin.Movie.Lemmas.Encoding

/-!
# While a movie is recorded

The input up to the current byte is what the console has read, in every state that can be loaded as well.
-/

namespace Karphin.Movie

/-! ## What holds of a state -/

section

variable (isWii : Bool) (controllers : ControllerTypeArray) (wiimotes : WiimoteEnabledArray) (fromSave : Bool)

def Holds (polls : List Poll) (input : List UInt8) (byte : Nat) : Prop :=
  byte ≤ input.length ∧ Encodes isWii controllers wiimotes polls (input.take byte)

/-- A state of the console, with the input and the tick count of a movie. -/
structure SavedOk (byte : Nat) (console : Console) (input : List UInt8) (total : UInt64) : Prop where
  input : Holds isWii controllers wiimotes console.polls input byte
  past : ∀ poll ∈ console.polls, poll.ticks ≤ console.ticks
  covered : fromSave = false → ∀ poll ∈ console.polls, poll.isUsed controllers wiimotes = true → poll.ticks ≤ total

def HeaderOk (header : DTMHeader) : Prop :=
  ∀ m : MovieManager, (m.readHeader header).controllers = controllers ∧
    (isWii = true → (m.readHeader header).wiimotes = wiimotes)

def SlotOk (file : StateFile) : Prop :=
  match file.dtm with
  | some dtm =>
      SavedOk isWii controllers wiimotes fromSave file.movie.currentByte file.console dtm.input dtm.header.tickCount ∧
        HeaderOk isWii controllers wiimotes dtm.header
  | none =>
      (∀ poll ∈ file.console.polls, poll.ticks ≤ file.console.ticks) ∧ fromSave = true ∧ file.movie.currentFrame = 0

structure Invariant (w : World) : Prop where
  mode : w.movie.playMode = .recording
  write : w.movie.readOnly = false
  pads : w.movie.controllers = controllers
  remotes : isWii = true → w.movie.wiimotes = wiimotes
  start : w.movie.recordingFromSaveState = fromSave
  saved : SavedOk isWii controllers wiimotes fromSave w.movie.currentByte w.console w.movie.tempInput
    w.movie.totalTickCount
  ticks : fromSave = false → w.movie.totalTickCount = w.movie.tickCountAtLastInput
  pending : ∀ slot movie console, (slot, movie, console) ∈ w.pending →
    SavedOk isWii controllers wiimotes fromSave movie.currentByte console w.movie.tempInput w.movie.totalTickCount ∧
      movie.currentByte ≤ w.movie.currentByte ∧ movie.currentFrame ≤ w.movie.currentFrame ∧
      console.ticks ≤ w.console.ticks
  slots : ∀ slot file, w.slots slot = some file → SlotOk isWii controllers wiimotes fromSave file

end

variable {isWii : Bool} {controllers : ControllerTypeArray} {wiimotes : WiimoteEnabledArray} {fromSave : Bool}

/-! ## Polls -/

structure MovieManager.Extends (m m' : MovieManager) (chunk : List UInt8) : Prop where
  byte : m'.currentByte = m.currentByte + chunk.length
  bytes : m'.tempInput.take m'.currentByte = m.tempInput.take m.currentByte ++ chunk
  within : m'.currentByte ≤ m'.tempInput.length
  full : chunk ≠ [] ∨ m.tempInput.length = m.currentByte → m'.tempInput.length = m'.currentByte

theorem MovieManager.Appends.extends {m m' : MovieManager} {chunk : List UInt8} (h : m.Appends m' chunk)
    (hbyte : m.currentByte ≤ m.tempInput.length) : m.Extends m' chunk := by
  have hlength : m'.tempInput.length = m'.currentByte := by
    rw [h.input, h.byte, List.length_append, List.length_take, Nat.min_eq_left hbyte]
  refine ⟨h.byte, ?_, Nat.le_of_eq hlength.symm, fun _ => hlength⟩
  rw [← hlength, List.take_length, h.input]

theorem MovieManager.extends_nil {m m' : MovieManager} (hinput : m'.tempInput = m.tempInput)
    (hbyte : m'.currentByte = m.currentByte) (hwithin : m.currentByte ≤ m.tempInput.length) : m.Extends m' [] := by
  refine ⟨hbyte, ?_, ?_, ?_⟩
  · rw [hinput, hbyte, List.append_nil]
  · rwa [hinput, hbyte]
  · rintro (h | h)
    · exact absurd rfl h
    · rwa [hinput, hbyte]

def MovieManager.Ticked (m m' : MovieManager) (ticks : UInt64) (used : Bool) : Prop :=
  (m'.totalTickCount = m.totalTickCount + (ticks - m.tickCountAtLastInput) ∧ m'.tickCountAtLastInput = ticks) ∨
    (m'.totalTickCount = m.totalTickCount ∧ m'.tickCountAtLastInput = m.tickCountAtLastInput ∧ used = false)

theorem UInt64.add_sub_self_left (a b : UInt64) : a + (b - a) = b := by
  rw [UInt64.add_comm, UInt64.sub_add_cancel]

theorem Holds.extend {polls : List Poll} {m m' : MovieManager} {chunk : List UInt8} {byte : Nat}
    (h : Holds isWii controllers wiimotes polls m.tempInput byte) (hle : byte ≤ m.currentByte)
    (hext : m.Extends m' chunk) (hwithin : m.currentByte ≤ m.tempInput.length) :
    Holds isWii controllers wiimotes polls m'.tempInput byte := by
  have hbyte : byte ≤ m'.currentByte := Nat.le_trans hle (hext.byte ▸ Nat.le_add_right _ _)
  have htake : m'.tempInput.take byte = m.tempInput.take byte := by
    have hfront := congrArg (List.take byte) hext.bytes
    rw [List.take_take, Nat.min_eq_left hbyte, List.take_append_of_le_length, List.take_take, Nat.min_eq_left hle] at hfront
    · exact hfront
    · rw [List.length_take, Nat.min_eq_left hwithin]
      exact hle
  exact ⟨Nat.le_trans hbyte hext.within, htake.symm ▸ h.2⟩

theorem Invariant.poll {w : World} {m' : MovieManager} {poll : Poll} {chunk : List UInt8}
    (h : Invariant isWii controllers wiimotes fromSave w) (hsetup : w.movie.SameSetup m') (hext : w.movie.Extends m' chunk)
    (hpoll : EncodesPoll isWii controllers wiimotes poll chunk) (hticks : poll.ticks = w.console.ticks)
    (hticked : w.movie.Ticked m' w.console.ticks (poll.isUsed controllers wiimotes)) :
    Invariant isWii controllers wiimotes fromSave
      { w with movie := m', console := { w.console with polls := w.console.polls ++ [poll] } } := by
  obtain ⟨hwithin, hencodes⟩ := h.saved.input
  have htotal : fromSave = false → m'.totalTickCount = m'.tickCountAtLastInput := by
    intro hboot
    rcases hticked with ⟨htotal, hlast⟩ | ⟨htotal, hlast, -⟩
    · rw [htotal, hlast, h.ticks hboot, UInt64.add_sub_self_left]
    · rw [htotal, hlast, h.ticks hboot]
  have hcovers : fromSave = false → ∀ polls : List Poll, (∀ p ∈ polls, p.ticks ≤ w.console.ticks) →
      (∀ p ∈ polls, p.isUsed controllers wiimotes = true → p.ticks ≤ w.movie.totalTickCount) →
      ∀ p ∈ polls, p.isUsed controllers wiimotes = true → p.ticks ≤ m'.totalTickCount := by
    intro hboot polls hpast hcovered p hp hused
    rcases hticked with ⟨htotal', hlast⟩ | ⟨htotal', -, -⟩
    · rw [htotal hboot, hlast]
      exact hpast p hp
    · rw [htotal']
      exact hcovered p hp hused
  constructor
  · exact hsetup.playMode.trans h.mode
  · exact hsetup.readOnly.trans h.write
  · exact hsetup.controllers.trans h.pads
  · exact fun hwii => hsetup.wiimotes.trans (h.remotes hwii)
  · exact hsetup.recordingFromSaveState.trans h.start
  · constructor
    · refine ⟨hext.within, ?_⟩
      rw [hext.bytes]
      exact hencodes.concat hpoll
    · refine List.forall_mem_append.mpr ⟨h.saved.past, fun p hp => ?_⟩
      rw [List.mem_singleton.mp hp, hticks]
      exact UInt64.le_refl _
    · intro hboot p hp hused
      rcases List.mem_append.mp hp with hold | hnew
      · exact hcovers hboot w.console.polls h.saved.past (h.saved.covered hboot) p hold hused
      · rw [List.mem_singleton.mp hnew] at hused ⊢
        rcases hticked with ⟨-, hlast⟩ | ⟨-, -, hunused⟩
        · rw [htotal hboot, hlast, hticks]
          exact UInt64.le_refl _
        · rw [hunused] at hused
          cases hused
  · exact htotal
  · intro slot movie console hmem
    obtain ⟨hsaved, hbyte, hframe, hconsole⟩ := h.pending slot movie console hmem
    refine ⟨⟨hsaved.input.extend hbyte hext hwithin, hsaved.past, fun hboot => ?_⟩, ?_, ?_, hconsole⟩
    · exact hcovers hboot console.polls (fun p hp => UInt64.le_trans (hsaved.past p hp) hconsole) (hsaved.covered hboot)
    · exact Nat.le_trans hbyte (hext.byte ▸ Nat.le_add_right _ _)
    · exact Nat.le_trans hframe hsetup.currentFrame
  · exact h.slots

theorem Invariant.pad {w : World} (h : Invariant isWii controllers wiimotes fromSave w) (id : Fin 4) (status : GCPadStatus) :
    ∃ m' chunk, w.movie.handleMoviePadStatus w.console.ticks id status = (m', status) ∧ w.movie.SameSetup m' ∧
      w.movie.Extends m' chunk ∧ EncodesPoll isWii controllers wiimotes (.pad w.console.ticks id status) chunk ∧
      w.movie.Ticked m' w.console.ticks ((Poll.pad w.console.ticks id status).isUsed controllers wiimotes) := by
  have hmode : w.movie.setPolledDevice.playMode = .recording := h.mode
  have hhandle : w.movie.handleMoviePadStatus w.console.ticks id status =
      ((w.movie.setPolledDevice.recordInput status id).inputUpdate w.console.ticks, status) := by
    rw [MovieManager.handleMoviePadStatus]
    simp [MovieManager.isPlayingInput, MovieManager.isRecordingInput, hmode]
  have hwithin : w.movie.currentByte ≤ w.movie.tempInput.length := h.saved.input.1
  by_cases hused : controllers id = .none
  · have hunused : w.movie.setPolledDevice.controllers id = .none := (congrFun h.pads id).trans hused
    rw [MovieManager.recordInput_of_unused hunused, MovieManager.inputUpdate_of_recording hmode] at hhandle
    refine ⟨_, [], hhandle, ⟨rfl, rfl, rfl, rfl, rfl, Nat.le_refl _⟩, MovieManager.extends_nil rfl rfl hwithin,
      .unusedPad hused, Or.inl ⟨rfl, rfl⟩⟩
  · have hpad : w.movie.setPolledDevice.controllers id ≠ .none := fun heq => hused ((congrFun h.pads id).symm.trans heq)
    obtain ⟨hsetup, happends, htotal, hlast⟩ := MovieManager.recordInput_of_used hmode hpad hwithin status
    have hrecorded : (w.movie.setPolledDevice.recordInput status id).playMode = .recording := hsetup.playMode.trans hmode
    rw [MovieManager.inputUpdate_of_recording hrecorded] at hhandle
    refine ⟨_, _, hhandle, ⟨hsetup.readOnly, hsetup.playMode, hsetup.controllers, hsetup.wiimotes,
      hsetup.recordingFromSaveState, hsetup.currentFrame⟩, ?_, .pad w.movie.setPolledDevice hused, Or.inl ⟨?_, rfl⟩⟩
    · have hext := happends.extends hwithin
      exact ⟨hext.byte, hext.bytes, hext.within, hext.full⟩
    · exact congrArg₂ (fun total last => total + (w.console.ticks - last)) htotal hlast

theorem Invariant.report {w : World} (h : Invariant isWii controllers wiimotes fromSave w) (hwii : isWii = true)
    (wiimote : Fin 4) (data : Report) :
    ∃ m' chunk, w.movie.sendDataReport w.console.ticks wiimote data.val = (m', data.val) ∧ w.movie.SameSetup m' ∧
      w.movie.Extends m' chunk ∧ EncodesPoll isWii controllers wiimotes (.report w.console.ticks wiimote data) chunk ∧
      w.movie.Ticked m' w.console.ticks ((Poll.report w.console.ticks wiimote data).isUsed controllers wiimotes) := by
  have hmode : w.movie.setPolledDevice.playMode = .recording := h.mode
  have hsend : w.movie.sendDataReport w.console.ticks wiimote data.val =
      (w.movie.setPolledDevice.recordWiimote w.console.ticks wiimote data.val, data.val) := by
    rw [MovieManager.sendDataReport]
    simp [MovieManager.isPlayingInput, MovieManager.checkWiimoteStatus, MovieManager.isRecordingInput, hmode]
  have hwithin : w.movie.currentByte ≤ w.movie.tempInput.length := h.saved.input.1
  cases hused : wiimotes wiimote with
  | false =>
      have hunused : w.movie.setPolledDevice.wiimotes wiimote = false := (congrFun (h.remotes hwii) wiimote).trans hused
      rw [MovieManager.recordWiimote_of_unused hunused] at hsend
      exact ⟨_, [], hsend, ⟨rfl, rfl, rfl, rfl, rfl, Nat.le_refl _⟩, MovieManager.extends_nil rfl rfl hwithin,
        .unusedReport hwii hused, Or.inr ⟨rfl, rfl, hused⟩⟩
  | true =>
      have hremote : w.movie.setPolledDevice.wiimotes wiimote = true := (congrFun (h.remotes hwii) wiimote).trans hused
      obtain ⟨hsetup, happends, htotal, hlast⟩ :=
        MovieManager.recordWiimote_of_used hmode hremote hwithin w.console.ticks data.val
      have hext := happends.extends hwithin
      exact ⟨_, _, hsend, ⟨hsetup.readOnly, hsetup.playMode, hsetup.controllers, hsetup.wiimotes,
        hsetup.recordingFromSaveState, hsetup.currentFrame⟩, ⟨hext.byte, hext.bytes, hext.within, hext.full⟩,
        .report hwii hused, Or.inl ⟨htotal, hlast⟩⟩

/-! ## Other events -/

theorem Invariant.setup {w : World} {m' : MovieManager} (h : Invariant isWii controllers wiimotes fromSave w)
    (hsetup : w.movie.SameSetup m') (hinput : m'.tempInput = w.movie.tempInput) (hbyte : m'.currentByte = w.movie.currentByte)
    (htotal : m'.totalTickCount = w.movie.totalTickCount) (hlast : m'.tickCountAtLastInput = w.movie.tickCountAtLastInput) :
    Invariant isWii controllers wiimotes fromSave { w with movie := m' } := by
  constructor
  · exact hsetup.playMode.trans h.mode
  · exact hsetup.readOnly.trans h.write
  · exact hsetup.controllers.trans h.pads
  · exact fun hwii => hsetup.wiimotes.trans (h.remotes hwii)
  · exact hsetup.recordingFromSaveState.trans h.start
  · have hsaved := h.saved
    rwa [← hinput, ← hbyte, ← htotal] at hsaved
  · intro hboot
    rw [htotal, hlast]
    exact h.ticks hboot
  · intro slot movie console hmem
    obtain ⟨hsaved, hle, hframe, hconsole⟩ := h.pending slot movie console hmem
    refine ⟨?_, ?_, Nat.le_trans hframe hsetup.currentFrame, hconsole⟩
    · rwa [← hinput, ← htotal] at hsaved
    · rwa [← hbyte] at hle
  · exact h.slots

theorem Invariant.advance {w : World} {ticks : UInt64} (h : Invariant isWii controllers wiimotes fromSave w)
    (hticks : w.console.ticks ≤ ticks) :
    Invariant isWii controllers wiimotes fromSave { w with console := { w.console with ticks := ticks } } := by
  refine ⟨h.mode, h.write, h.pads, h.remotes, h.start, ?_, h.ticks, ?_, h.slots⟩
  · exact ⟨h.saved.input, fun p hp => UInt64.le_trans (h.saved.past p hp) hticks, h.saved.covered⟩
  · intro slot movie console hmem
    obtain ⟨hsaved, hle, hframe, hconsole⟩ := h.pending slot movie console hmem
    exact ⟨hsaved, hle, hframe, UInt64.le_trans hconsole hticks⟩

theorem Invariant.saveState {w : World} (h : Invariant isWii controllers wiimotes fromSave w) (slot : Nat) :
    Invariant isWii controllers wiimotes fromSave
      { w with pending := w.pending ++ [(slot, w.movie.saveState, w.console)] } := by
  refine ⟨h.mode, h.write, h.pads, h.remotes, h.start, h.saved, h.ticks, ?_, h.slots⟩
  intro other movie console hmem
  rcases List.mem_append.mp hmem with hold | hnew
  · exact h.pending other movie console hold
  · cases List.mem_singleton.mp hnew
    exact ⟨h.saved, Nat.le_refl _, Nat.le_refl _, UInt64.le_refl _⟩

theorem headerOk_saveRecording {m : MovieManager} (hpads : m.controllers = controllers)
    (hremotes : isWii = true → m.wiimotes = wiimotes) :
    HeaderOk isWii controllers wiimotes (m.saveRecording isWii).header := by
  intro player
  constructor
  · funext i
    have hlt : i.val < 4 := i.isLt
    rw [← hpads]
    simp only [MovieManager.readHeader, MovieManager.saveRecording, MovieManager.isUsingPad, Fin.val_castLE, hlt,
      ↓reduceDIte, Fin.eta]
    have hread : ∀ kind : ControllerType,
        (if decide (kind = .gba) then .gba else if decide (kind ≠ .none) then .gc else .none) = kind := by
      intro kind
      cases kind <;> rfl
    exact hread (m.controllers i)
  · intro hwii
    funext i
    rw [← hremotes hwii]
    simp [MovieManager.readHeader, MovieManager.saveRecording, MovieManager.isUsingWiimote, hwii]

theorem Invariant.finishSave {w : World} (h : Invariant isWii controllers wiimotes fromSave w) :
    Invariant isWii controllers wiimotes fromSave (w.finishSave isWii) := by
  rw [World.finishSave]
  cases hpending : w.pending with
  | nil => exact h
  | cons first rest =>
      obtain ⟨slot, movie, console⟩ := first
      obtain ⟨hsaved, -, hframe, -⟩ := h.pending slot movie console (hpending ▸ List.mem_cons_self)
      refine ⟨h.mode, h.write, h.pads, h.remotes, h.start, h.saved, h.ticks, ?_, ?_⟩
      · intro other movie' console' hmem
        exact h.pending other movie' console' (hpending ▸ List.mem_cons_of_mem _ hmem)
      · intro other file hfile
        dsimp only at hfile
        split at hfile
        · cases hfile
          have hactive : w.movie.isMovieActive = true := by
            rw [MovieManager.isMovieActive, h.mode]
            rfl
          cases hstarting : w.movie.isJustStartingRecordingInputFromSaveState with
          | false =>
              rw [hactive, Bool.not_false, Bool.and_self, if_pos rfl]
              exact ⟨hsaved, headerOk_saveRecording h.pads h.remotes⟩
          | true =>
              rw [Bool.not_true, Bool.and_false, if_neg Bool.false_ne_true]
              rw [MovieManager.isJustStartingRecordingInputFromSaveState, Bool.and_eq_true, decide_eq_true_iff] at hstarting
              exact ⟨hsaved.past, h.start.symm.trans hstarting.1, by simpa [hstarting.2] using hframe⟩
        · exact h.slots other file hfile

end Karphin.Movie

/-!
## Loading states while a movie is recorded

A state with a movie brings back the input it was saved with. One without a movie leaves the input as it is, so that it has
to be intact.
-/

namespace Karphin.Movie

variable {isWii : Bool} {controllers : ControllerTypeArray} {wiimotes : WiimoteEnabledArray} {fromSave : Bool}

/-- A state without a movie is loaded only while the input still begins with what the console had read in it. -/
def Intact (isWii : Bool) (controllers : ControllerTypeArray) (wiimotes : WiimoteEnabledArray) (w : World) : Event → Prop
  | .loadState slot => w.pending = [] → ∀ file, w.slots slot = some file → file.dtm = none →
      Holds isWii controllers wiimotes file.console.polls w.movie.tempInput file.movie.currentByte
  | _ => True

def goesOn (controllers : ControllerTypeArray) (wiimotes : WiimoteEnabledArray) (continued : Bool) : Event → Bool
  | .pad id _ => continued || controllers id ≠ .none
  | .report wiimote _ => continued || wiimotes wiimote
  | .loadState _ => false
  | _ => continued

theorem MovieManager.loadInput_of_write {m : MovieManager} {dtm : Dtm} (hwrite : m.readOnly = false)
    (hbyte : m.currentByte ≤ dtm.input.length) : ∃ count, m.loadInput dtm =
      ({ m.readHeader dtm.header with
          rerecords := count
          totalFrames := dtm.header.frameCount
          totalLagCount := dtm.header.lagCount
          totalInputCount := dtm.header.inputCount
          totalTickCount := dtm.header.tickCount
          tickCountAtLastInput := dtm.header.tickCount
          tempInput := dtm.input
          playMode := .recording },
        ⟨{ dtm.header with numRerecords := count }, dtm.input⟩) := by
  have hread : (m.readHeader dtm.header).readOnly = false := hwrite
  have hend : ¬ m.currentByte > dtm.input.length := Nat.not_lt.mpr hbyte
  refine ⟨(m.readHeader dtm.header).rerecords + 1, ?_⟩
  simp only [loadInput, hread, Bool.false_eq_true, ↓reduceIte, Bool.not_false, Bool.true_or]
  rw [if_neg]
  simpa [readHeader] using hbyte

theorem Invariant.loadState {w : World} (h : Invariant isWii controllers wiimotes fromSave w) {slot : Nat}
    (hintact : Intact isWii controllers wiimotes w (.loadState slot)) :
    Invariant isWii controllers wiimotes fromSave (w.loadState slot) := by
  rw [World.loadState]
  split
  next file hpending hfile =>
    have hok := h.slots slot file hfile
    have hwrite : (w.movie.loadState file.movie).readOnly = false := h.write
    cases hdtm : file.dtm with
    | some dtm =>
        rw [SlotOk, hdtm] at hok
        obtain ⟨hsaved, hheader⟩ := hok
        obtain ⟨count, hload⟩ := MovieManager.loadInput_of_write hwrite hsaved.input.1
        simp only [hload]
        obtain ⟨hpads, hremotes⟩ := hheader (w.movie.loadState file.movie)
        refine ⟨rfl, hwrite, hpads, hremotes, h.start, hsaved, fun _ => rfl, ?_, ?_⟩
        · intro other movie console hmem
          rw [hpending] at hmem
          cases hmem
        · intro other file' hfile'
          dsimp only at hfile'
          split at hfile'
          · cases hfile'
            exact ⟨hsaved, hheader⟩
          · exact h.slots other file' hfile'
    | none =>
        rw [SlotOk, hdtm] at hok
        obtain ⟨hpast, hfrom, hframe⟩ := hok
        have hstarting : (w.movie.loadState file.movie).isJustStartingRecordingInputFromSaveState = true := by
          rw [MovieManager.isJustStartingRecordingInputFromSaveState, Bool.and_eq_true, decide_eq_true_iff]
          exact ⟨h.start.trans hfrom, hframe⟩
        simp only [hstarting, Bool.not_true, Bool.false_and, Bool.false_eq_true, ↓reduceIte]
        refine ⟨h.mode, h.write, h.pads, h.remotes, h.start, ⟨hintact hpending file hfile hdtm, hpast, ?_⟩, ?_, ?_, h.slots⟩
        · intro hboot
          rw [hfrom] at hboot
          cases hboot
        · intro hboot
          rw [hfrom] at hboot
          cases hboot
        · intro other movie console hmem
          rw [hpending] at hmem
          cases hmem
  next => exact h

/-! ## Steps and runs -/

theorem MovieManager.frameUpdate_input (m : MovieManager) :
    m.frameUpdate.tempInput = m.tempInput ∧ m.frameUpdate.currentByte = m.currentByte ∧
      m.frameUpdate.totalTickCount = m.totalTickCount ∧ m.frameUpdate.tickCountAtLastInput = m.tickCountAtLastInput := by
  have hframe := @MovieManager.frameUpdate_frame _
    (fun m => (m.tempInput, m.currentByte, m.totalTickCount, m.tickCountAtLastInput)) m
    (fun _ _ => rfl) (fun _ _ _ => rfl) fun _ => rfl
  simpa only [Prod.mk.injEq] using hframe

theorem Invariant.step {w w' : World} {event : Event} (h : Invariant isWii controllers wiimotes fromSave w)
    (hintact : Intact isWii controllers wiimotes w event) (hstep : w.step isWii event = some w') :
    Invariant isWii controllers wiimotes fromSave w' := by
  cases event with
  | frame =>
      cases hstep
      obtain ⟨hinput, hbyte, htotal, hlast⟩ := w.movie.frameUpdate_input
      exact h.setup (MovieManager.frameUpdate_sameSetup _) hinput hbyte htotal hlast
  | advance ticks =>
      rw [World.step] at hstep
      split at hstep
      next hticks =>
        cases hstep
        exact h.advance hticks
      next => cases hstep
  | pad id status =>
      obtain ⟨m', chunk, hhandle, hsetup, hext, hpoll, hticked⟩ := h.pad id status
      simp only [World.step, hhandle, Option.some.injEq] at hstep
      subst hstep
      exact h.poll hsetup hext hpoll rfl hticked
  | report wiimote data =>
      rw [World.step] at hstep
      split at hstep
      next hwii =>
        obtain ⟨m', chunk, hsend, hsetup, hext, hpoll, hticked⟩ := h.report hwii wiimote data
        simp only [hsend, Option.some.injEq] at hstep
        subst hstep
        exact h.poll hsetup hext hpoll rfl hticked
      next => cases hstep
  | signalDiscChange =>
      cases hstep
      exact h.setup ⟨rfl, rfl, rfl, rfl, rfl, Nat.le_refl _⟩ rfl rfl rfl rfl
  | setReset reset =>
      cases hstep
      exact h.setup ⟨rfl, rfl, rfl, rfl, rfl, Nat.le_refl _⟩ rfl rfl rfl rfl
  | saveState slot =>
      cases hstep
      exact h.saveState slot
  | finishSave =>
      cases hstep
      exact h.finishSave
  | loadState slot =>
      cases hstep
      exact h.loadState hintact

/-- A run of a recording from the world that it begins in, in which the states without a movie are loaded intact; whether it
goes on after the last state that was loaded. -/
inductive Recording (isWii : Bool) (controllers : ControllerTypeArray) (wiimotes : WiimoteEnabledArray) (begun : World) :
    World → Bool → Prop
  | begin : Recording isWii controllers wiimotes begun begun true
  | step {w w' : World} {continued : Bool} (event : Event) (hrun : Recording isWii controllers wiimotes begun w continued)
      (hintact : Intact isWii controllers wiimotes w event) (hstep : w.step isWii event = some w') :
      Recording isWii controllers wiimotes begun w' (goesOn controllers wiimotes continued event)

theorem Recording.invariant {begun w : World} {continued : Bool}
    (hrun : Recording isWii controllers wiimotes begun w continued)
    (hbegun : Invariant isWii controllers wiimotes fromSave begun) : Invariant isWii controllers wiimotes fromSave w := by
  induction hrun with
  | begin => exact hbegun
  | step event _ hintact hstep ih => exact ih.step hintact hstep

theorem MovieManager.Extends.full_of_used {m m' : MovieManager} {poll : Poll} {chunk : List UInt8} {continued : Bool}
    (hext : m.Extends m' chunk) (hpoll : EncodesPoll isWii controllers wiimotes poll chunk)
    (hfull : continued = true → m.tempInput.length = m.currentByte)
    (hcontinued : (continued || poll.isUsed controllers wiimotes) = true) : m'.tempInput.length = m'.currentByte := by
  apply hext.full
  rw [Bool.or_eq_true] at hcontinued
  rcases hcontinued with hbefore | hused
  · exact Or.inr (hfull hbefore)
  · refine Or.inl fun hnil => ?_
    rw [hpoll.eq_nil_iff] at hnil
    exact Bool.false_ne_true (hnil.symm.trans hused)

theorem Recording.full {begun w : World} {continued : Bool}
    (hrun : Recording isWii controllers wiimotes begun w continued)
    (hbegun : Invariant isWii controllers wiimotes fromSave begun)
    (hfull : begun.movie.tempInput.length = begun.movie.currentByte) (hcontinued : continued = true) :
    w.movie.tempInput.length = w.movie.currentByte := by
  induction hrun with
  | begin => exact hfull
  | @step w w' continued event hrun _ hstep ih =>
      have h := hrun.invariant hbegun
      cases event with
      | frame =>
          cases hstep
          obtain ⟨hinput, hbyte, -, -⟩ := w.movie.frameUpdate_input
          exact (congrArg List.length hinput).trans ((ih hcontinued).trans hbyte.symm)
      | advance ticks =>
          rw [World.step] at hstep
          split at hstep
          next =>
            cases hstep
            exact ih hcontinued
          next => cases hstep
      | pad id status =>
          obtain ⟨m', chunk, hhandle, -, hext, hpoll, -⟩ := h.pad id status
          simp only [World.step, hhandle, Option.some.injEq] at hstep
          subst hstep
          exact hext.full_of_used hpoll ih hcontinued
      | report wiimote data =>
          rw [World.step] at hstep
          split at hstep
          next hwii =>
            obtain ⟨m', chunk, hsend, -, hext, hpoll, -⟩ := h.report hwii wiimote data
            simp only [hsend, Option.some.injEq] at hstep
            subst hstep
            exact hext.full_of_used hpoll ih hcontinued
          next => cases hstep
      | signalDiscChange =>
          cases hstep
          exact ih hcontinued
      | setReset reset =>
          cases hstep
          exact ih hcontinued
      | saveState slot =>
          cases hstep
          exact ih hcontinued
      | finishSave =>
          cases hstep
          have hmovie : (w.finishSave isWii).movie = w.movie := by
            rw [World.finishSave]
            split <;> rfl
          rw [hmovie]
          exact ih hcontinued
      | loadState slot => cases hcontinued

end Karphin.Movie
