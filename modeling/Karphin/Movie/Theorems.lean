import Karphin.Movie.Lemmas.Recording

/-!
# While a movie is played

The input after the current byte is that of the polls that are still to come. The poll that reads the last of it ends the
movie.
-/

namespace Karphin.Movie

variable {isWii : Bool} {controllers : ControllerTypeArray} {wiimotes : WiimoteEnabledArray}

/-- A poll of a console that plays a movie, with what the pad itself has, or what the report has without the movie. -/
structure Call where
  poll : Poll
  live : GCPadStatus
  liveData : List UInt8

def MovieManager.call (m : MovieManager) (call : Call) : MovieManager := (m.poll call.live call.liveData call.poll).1

def MovieManager.calls (m : MovieManager) (calls : List Call) : MovieManager := calls.foldl MovieManager.call m

def Reading.Replays : Reading → Poll → Prop
  | .pad out, .pad _ _ status => out.Replays status
  | .report out, .report _ _ data => out = data.val
  | _, _ => False

structure Playing (isWii : Bool) (controllers : ControllerTypeArray) (wiimotes : WiimoteEnabledArray) (m : MovieManager)
    (polls : List Poll) : Prop where
  mode : m.playMode = .playing
  readOnly : m.readOnly = true
  pads : m.controllers = controllers
  remotes : isWii = true → m.wiimotes = wiimotes
  input : Encodes isWii controllers wiimotes polls (m.tempInput.drop m.currentByte)
  covered : m.recordingFromSaveState = false → ∀ poll ∈ polls, poll.isUsed controllers wiimotes = true →
    poll.ticks ≤ m.totalTickCount

structure PlaysOn (isWii : Bool) (controllers : ControllerTypeArray) (wiimotes : WiimoteEnabledArray) (m : MovieManager)
    (polls : List Poll) : Prop where
  more : (∃ poll ∈ polls, poll.isUsed controllers wiimotes = true) → Playing isWii controllers wiimotes m polls
  ended : (∀ poll ∈ polls, poll.isUsed controllers wiimotes = false) → m.playMode = .none

namespace MovieManager

theorem checkInputEnd_of_lt {m : MovieManager} {ticks : UInt64} (hbyte : m.currentByte < m.tempInput.length)
    (hticks : m.recordingFromSaveState = false → ticks ≤ m.totalTickCount) : m.checkInputEnd ticks = m := by
  rw [checkInputEnd, if_neg]
  rintro (hend | ⟨hlate, hboot⟩)
  · exact absurd hbyte (Nat.not_lt.mpr hend)
  · exact UInt64.not_lt.mpr (hticks hboot) hlate

theorem checkInputEnd_of_ge {m : MovieManager} {ticks : UInt64} (hmode : m.playMode = .playing) (hread : m.readOnly = true)
    (hbyte : m.tempInput.length ≤ m.currentByte) : (m.checkInputEnd ticks).playMode = .none := by
  rw [checkInputEnd, if_pos (Or.inl hbyte), hread, endPlayInput]
  simp [hmode]

theorem inputUpdate_of_not_recording {m : MovieManager} (hmode : m.playMode ≠ .recording) (ticks : UInt64) :
    m.inputUpdate ticks = { m with currentInputCount := m.currentInputCount + 1 } := by
  rw [inputUpdate, if_neg]
  simpa [isRecordingInput] using hmode

end MovieManager

theorem Playing.checkInputEnd {m m' : MovieManager} {poll : Poll} {polls : List Poll} {bytes : List UInt8}
    (h : Playing isWii controllers wiimotes m (poll :: polls)) (hused : poll.isUsed controllers wiimotes = true)
    (hmode : m'.playMode = .playing) (hread : m'.readOnly = true) (hpads : m'.controllers = controllers)
    (hremotes : isWii = true → m'.wiimotes = wiimotes) (hfrom : m'.recordingFromSaveState = m.recordingFromSaveState)
    (htotal : m'.totalTickCount = m.totalTickCount) (hdrop : m'.tempInput.drop m'.currentByte = bytes)
    (hbytes : Encodes isWii controllers wiimotes polls bytes) :
    PlaysOn isWii controllers wiimotes (m'.checkInputEnd poll.ticks) polls := by
  obtain ⟨hfirst, hrest⟩ := List.forall_mem_cons.mp fun p hp hboot => h.covered hboot p hp
  constructor
  · rintro ⟨p, hp, hpused⟩
    have hne : bytes ≠ [] := by
      intro hnil
      rw [hbytes.eq_nil_iff] at hnil
      exact Bool.false_ne_true ((hnil p hp).symm.trans hpused)
    have hlt : m'.currentByte < m'.tempInput.length := by
      apply Nat.lt_of_not_le
      intro hle
      exact hne (hdrop.symm.trans (List.drop_of_length_le hle))
    rw [MovieManager.checkInputEnd_of_lt hlt]
    · refine ⟨hmode, hread, hpads, hremotes, hdrop.symm ▸ hbytes, ?_⟩
      intro hboot q hq
      rw [htotal]
      exact hrest q hq (hfrom.symm.trans hboot)
    · intro hboot
      rw [htotal]
      exact hfirst (hfrom.symm.trans hboot) hused
  · intro hunused
    apply MovieManager.checkInputEnd_of_ge hmode hread
    rw [← List.drop_eq_nil_iff, hdrop, hbytes.eq_nil_iff]
    exact hunused

theorem PlaysOn.inputUpdate {m : MovieManager} {polls : List Poll} (h : PlaysOn isWii controllers wiimotes m polls)
    (ticks : UInt64) : PlaysOn isWii controllers wiimotes (m.inputUpdate ticks) polls := by
  constructor
  · intro hmore
    have hplaying := h.more hmore
    rw [MovieManager.inputUpdate_of_not_recording (by rw [hplaying.mode]; exact nofun)]
    exact ⟨hplaying.mode, hplaying.readOnly, hplaying.pads, hplaying.remotes, hplaying.input, hplaying.covered⟩
  · intro hunused
    have hover := h.ended hunused
    rw [MovieManager.inputUpdate_of_not_recording (by rw [hover]; exact nofun)]
    exact hover

theorem PlaysOn.checkWiimoteStatus {m : MovieManager} {polls : List Poll} (h : PlaysOn isWii controllers wiimotes m polls)
    (ticks : UInt64) (wiimote : Fin 4) (data : List UInt8) :
    PlaysOn isWii controllers wiimotes (m.checkWiimoteStatus ticks wiimote data) polls := by
  constructor
  · intro hmore
    have hplaying := h.more hmore
    rw [MovieManager.checkWiimoteStatus, MovieManager.isRecordingInput, hplaying.mode]
    exact hplaying
  · intro hunused
    have hover := h.ended hunused
    rw [MovieManager.checkWiimoteStatus, MovieManager.isRecordingInput, hover]
    exact hover

theorem Playing.call_of_unused {m : MovieManager} {call : Call} {polls : List Poll}
    (h : Playing isWii controllers wiimotes m (call.poll :: polls)) (hunused : call.poll.isUsed controllers wiimotes = false) :
    Playing isWii controllers wiimotes (m.call call) polls := by
  obtain ⟨poll, live, liveData⟩ := call
  have hcovered := fun hboot => (List.forall_mem_cons.mp (h.covered hboot)).2
  have hinput := h.input
  dsimp only at hunused hinput
  generalize hbytes : m.tempInput.drop m.currentByte = bytes at hinput
  cases hinput with
  | @cons _ _ chunk rest hpoll hrest =>
      rw [hpoll.eq_nil_iff.mpr hunused, List.nil_append] at hbytes
      have hmode : m.setPolledDevice.playMode = .playing := h.mode
      cases poll with
      | pad ticks id status =>
          have hpad : m.setPolledDevice.controllers id = .none :=
            (congrFun h.pads id).trans (by simpa [Poll.isUsed] using hunused)
          have hcall : m.call ⟨.pad ticks id status, live, liveData⟩ = m.setPolledDevice.inputUpdate ticks := by
            simp [MovieManager.call, MovieManager.poll, MovieManager.handleMoviePadStatus, MovieManager.isPlayingInput,
              hmode, MovieManager.playController, MovieManager.isUsingPad, hpad]
          rw [hcall, MovieManager.inputUpdate_of_not_recording (by rw [hmode]; simp)]
          exact ⟨h.mode, h.readOnly, h.pads, h.remotes, hbytes.symm ▸ hrest, hcovered⟩
      | report ticks wiimote data =>
          have hwii : isWii = true := by
            cases hpoll <;> assumption
          have hremote : m.setPolledDevice.wiimotes wiimote = false := by
            rw [Poll.isUsed, ← h.remotes hwii] at hunused
            exact hunused
          have hcall : m.call ⟨.report ticks wiimote data, live, liveData⟩ = m.setPolledDevice := by
            simp [MovieManager.call, MovieManager.poll, MovieManager.sendDataReport, MovieManager.isPlayingInput, hmode,
              MovieManager.playWiimote, MovieManager.isUsingWiimote, hremote, MovieManager.checkWiimoteStatus,
              MovieManager.isRecordingInput]
          rw [hcall]
          exact ⟨h.mode, h.readOnly, h.pads, h.remotes, hbytes.symm ▸ hrest, hcovered⟩

theorem Playing.call_of_used {m : MovieManager} {call : Call} {polls : List Poll}
    (h : Playing isWii controllers wiimotes m (call.poll :: polls)) (hused : call.poll.isUsed controllers wiimotes = true) :
    (m.poll call.live call.liveData call.poll).2.Replays call.poll ∧
      PlaysOn isWii controllers wiimotes (m.call call) polls := by
  obtain ⟨poll, live, liveData⟩ := call
  have hinput := h.input
  dsimp only at hused hinput
  generalize hbytes : m.tempInput.drop m.currentByte = bytes at hinput
  have hmode : m.setPolledDevice.playMode = .playing := h.mode
  cases hinput with
  | @cons _ _ chunk rest hpoll hrest =>
      have hnonempty : m.tempInput ≠ [] := by
        intro hnil
        rw [hnil, List.drop_nil] at hbytes
        have hchunk := hpoll.eq_nil_iff.mp (List.append_eq_nil_iff.mp hbytes.symm).1
        exact Bool.false_ne_true (hchunk.symm.trans hused)
      have hlength : m.tempInput.length - m.currentByte = chunk.length + rest.length := by
        rw [← List.length_drop, hbytes, List.length_append]
      have hdrop : m.tempInput.drop (m.currentByte + chunk.length) = rest := by
        rw [← List.drop_drop, hbytes, List.drop_left]
      have hempty : m.setPolledDevice.tempInput.isEmpty = false := List.isEmpty_eq_false_iff.mpr hnonempty
      cases hpoll with
      | @pad ticks id status recorder hpad =>
          have huses : m.setPolledDevice.isUsingPad id = true := by
            have hne : m.controllers id ≠ .none := h.pads ▸ hpad
            exact decide_eq_true hne
          have hwithin : ¬ m.setPolledDevice.currentByte + ControllerState.size > m.setPolledDevice.tempInput.length := by
            rw [ControllerState.length_toBytes] at hlength
            change ¬ m.currentByte + ControllerState.size > m.tempInput.length
            rw [ControllerState.size] at hlength ⊢
            omega
          have hstate : ControllerState.ofBytes
              ((m.setPolledDevice.tempInput.drop m.setPolledDevice.currentByte).take ControllerState.size) =
              (recorder.checkPadStatus status).padState := by
            change ControllerState.ofBytes ((m.tempInput.drop m.currentByte).take ControllerState.size) = _
            rw [hbytes, List.take_left' (ControllerState.length_toBytes _), ControllerState.ofBytes_toBytes]
          have hpolled : m.poll live liveData (.pad ticks id status) =
              (({ m.setPolledDevice with
                    padState := (recorder.checkPadStatus status).padState
                    currentByte := m.currentByte + ControllerState.size }.checkInputEnd ticks).inputUpdate ticks,
                .pad (MovieManager.fillPadStatus (recorder.checkPadStatus status).padState live)) := by
            simp only [MovieManager.poll, MovieManager.handleMoviePadStatus, MovieManager.isPlayingInput, hmode,
              decide_true, ↓reduceIte, MovieManager.playController, Bool.not_true, huses, hempty, Bool.or_self,
              Bool.false_eq_true, hwithin, hstate]
            rfl
          rw [MovieManager.call, hpolled]
          refine ⟨fillPadStatus_checkPadStatus recorder status live, PlaysOn.inputUpdate ?_ ticks⟩
          exact h.checkInputEnd hused h.mode h.readOnly h.pads h.remotes rfl rfl hdrop hrest
      | @report ticks wiimote data hwii hremote =>
          have huses : m.setPolledDevice.isUsingWiimote wiimote = true := by
            rw [← h.remotes hwii] at hremote
            exact hremote
          have hsize : (resize liveData data.val.length).length = data.val.length := by
            rw [resize, List.length_append, List.length_take, List.length_replicate]
            omega
          rw [List.length_cons] at hlength
          have hbefore : ¬ m.setPolledDevice.currentByte > m.setPolledDevice.tempInput.length := by
            change ¬ m.currentByte > m.tempInput.length
            omega
          have hfirst : (m.setPolledDevice.tempInput.getD m.setPolledDevice.currentByte 0).toNat = data.val.length := by
            change (m.tempInput.getD m.currentByte 0).toNat = data.val.length
            have hget : m.tempInput.getD m.currentByte 0 = (m.tempInput.drop m.currentByte).getD 0 0 := by
              simp
            rw [hget, hbytes, List.cons_append, List.getD_cons_zero, UInt8.toNat_ofNat', Nat.mod_eq_of_lt data.property]
          have hwithin : ¬ m.setPolledDevice.currentByte + 1 + data.val.length > m.setPolledDevice.tempInput.length := by
            change ¬ m.currentByte + 1 + data.val.length > m.tempInput.length
            omega
          have hdata : (m.setPolledDevice.tempInput.drop (m.setPolledDevice.currentByte + 1)).take data.val.length =
              data.val := by
            change (m.tempInput.drop (m.currentByte + 1)).take data.val.length = data.val
            rw [← List.drop_drop, hbytes, List.cons_append, List.drop_one, List.tail_cons, List.take_left' rfl]
          have hpolled : m.poll live liveData (.report ticks wiimote data) =
              (({ m.setPolledDevice with
                    currentByte := m.currentByte + 1 + data.val.length
                    currentInputCount := m.currentInputCount + 1 }.checkInputEnd ticks).checkWiimoteStatus ticks wiimote
                  data.val, .report data.val) := by
            simp only [MovieManager.poll, MovieManager.sendDataReport, MovieManager.isPlayingInput, hmode, decide_true,
              ↓reduceIte, MovieManager.playWiimote, Bool.not_true, huses, hempty, Bool.or_self, Bool.false_eq_true,
              hbefore, hsize, hfirst, ne_eq, not_true_eq_false, hwithin, hdata, Option.getD_some]
            rfl
          have hon : PlaysOn isWii controllers wiimotes
              ({ m.setPolledDevice with
                  currentByte := m.currentByte + 1 + data.val.length
                  currentInputCount := m.currentInputCount + 1 }.checkInputEnd ticks) polls := by
            refine h.checkInputEnd hused h.mode h.readOnly h.pads h.remotes rfl rfl ?_ hrest
            rw [← hdrop, List.length_cons, Nat.add_comm data.val.length, ← Nat.add_assoc]
            rfl
          rw [MovieManager.call, hpolled]
          exact ⟨rfl, hon.checkWiimoteStatus ticks wiimote data.val⟩
      | unusedPad hunused => simp [Poll.isUsed, hunused] at hused
      | unusedReport _ hunused => simp [Poll.isUsed, hunused] at hused

theorem Playing.calls {m : MovieManager} {before after : List Call} {call : Call}
    (h : Playing isWii controllers wiimotes m ((before ++ call :: after).map Call.poll))
    (hused : call.poll.isUsed controllers wiimotes = true) :
    Playing isWii controllers wiimotes (m.calls before) (call.poll :: after.map Call.poll) := by
  induction before generalizing m with
  | nil => exact h
  | cons first before ih =>
      apply ih
      cases hfirst : first.poll.isUsed controllers wiimotes with
      | false => exact h.call_of_unused hfirst
      | true => exact (h.call_of_used hfirst).2.more ⟨call.poll, by simp, hused⟩

end Karphin.Movie

/-!
# A movie plays what was recorded

Every poll of a recording is read again from its movie, in the same order and at the same times, and the movie ends with the
last of them. The recording may have gone back to states of it, and on from there.
-/

namespace Karphin.Movie

variable {isWii : Bool} {controllers : ControllerTypeArray} {wiimotes : WiimoteEnabledArray}

/-! ## The beginning -/

theorem MovieManager.beginRecordingInput_eq_some {m begun : MovieManager} {saved : SavedMovie} {running : Bool}
    (hbegin : m.beginRecordingInput controllers wiimotes running = some (begun, saved)) :
    (begun.playMode = .recording ∧ begun.readOnly = m.readOnly ∧ begun.controllers = controllers ∧
      begun.wiimotes = wiimotes ∧ begun.recordingFromSaveState = (running || m.recordingFromSaveState) ∧
      begun.tempInput = [] ∧ begun.currentByte = 0 ∧ begun.totalTickCount = begun.tickCountAtLastInput) ∧
    saved.currentFrame = 0 ∧ saved.currentByte = m.currentByte := by
  rw [beginRecordingInput] at hbegin
  split at hbegin
  next => cases hbegin
  next =>
    cases hbegin
    cases running <;> exact ⟨⟨rfl, rfl, rfl, rfl, rfl, rfl, rfl, rfl⟩, rfl, rfl⟩

theorem invariant_start {m begun : MovieManager} {saved : SavedMovie} {running : Bool} (ticks : UInt64)
    (hwrite : m.readOnly = false) (hsaved : m.recordingFromSaveState = false)
    (hbegin : m.beginRecordingInput controllers wiimotes running = some (begun, saved)) :
    Invariant isWii controllers wiimotes running (World.start begun ticks) := by
  obtain ⟨⟨hmode, hread, hpads, hremotes, hfrom, hinput, hbyte, htotal⟩, -, -⟩ :=
    MovieManager.beginRecordingInput_eq_some hbegin
  rw [hsaved, Bool.or_false] at hfrom
  refine ⟨hmode, hread.trans hwrite, hpads, fun _ => hremotes, hfrom, ⟨⟨?_, ?_⟩, nofun, fun _ => nofun⟩, fun _ => htotal,
    nofun, nofun⟩
  · exact Nat.le_of_eq (hbyte.trans (congrArg List.length hinput).symm)
  · change Encodes isWii controllers wiimotes [] (begun.tempInput.take begun.currentByte)
    rw [hinput, List.take_nil]
    exact .nil

/-! ## The movie -/

structure MovieManager.Plays (m player : MovieManager) (dtm : Dtm) : Prop where
  mode : m.playMode = .playing
  readOnly : m.readOnly = true
  controllers : m.controllers = (player.readHeader dtm.header).controllers
  wiimotes : m.wiimotes = (player.readHeader dtm.header).wiimotes
  input : m.tempInput = dtm.input
  byte : m.currentByte = 0
  total : m.totalTickCount = dtm.header.tickCount
  fromSave : dtm.header.bFromSaveState = true → m.recordingFromSaveState = true

theorem MovieManager.Plays.loadInput {m player : MovieManager} {dtm : Dtm} (h : m.Plays player dtm) :
    (m.loadInput dtm).1.Plays player dtm := by
  have hread : (m.readHeader dtm.header).readOnly = true := h.readOnly
  have hbyte : (m.readHeader dtm.header).currentByte = 0 := h.byte
  have hinput : (m.readHeader dtm.header).tempInput = dtm.input := h.input
  cases hempty : dtm.input.isEmpty with
  | true =>
      simp only [MovieManager.loadInput, hread, hinput, hempty, hbyte, Bool.not_true, Bool.or_true, ↓reduceIte, gt_iff_lt,
        Nat.not_lt_zero, decide_false, Bool.false_eq_true]
      exact ⟨rfl, rfl, rfl, rfl, rfl, rfl, rfl, h.fromSave⟩
  | false =>
      simp only [MovieManager.loadInput, hread, hinput, hempty, hbyte, Bool.not_true, Bool.or_false, ↓reduceIte, gt_iff_lt,
        Nat.not_lt_zero, Bool.false_eq_true, List.take_zero, or_self, ne_eq, not_true_eq_false, false_and]
      exact ⟨rfl, rfl, rfl, rfl, rfl, rfl, h.total, h.fromSave⟩

theorem startPlaying_of_idle {player : MovieManager} {dtm : Dtm} {saved : SavedMovie} (hidle : player.playMode = .none)
    (hread : player.readOnly = true) (hframe : saved.currentFrame = 0)
    (hbyte : dtm.header.bFromSaveState = true → saved.currentByte = 0) :
    ∃ playing, startPlaying player dtm saved = some playing ∧ playing.Plays player dtm := by
  cases hfrom : dtm.header.bFromSaveState with
  | false =>
      rw [startPlaying, MovieManager.playInput, if_neg (not_not.mpr hidle), hfrom]
      exact ⟨_, rfl, rfl, hread, rfl, rfl, rfl, rfl, rfl, fun hsave => absurd (hfrom.symm.trans hsave) Bool.false_ne_true⟩
  | true =>
      obtain ⟨played, hplayed, hplays⟩ : ∃ played, player.playInput dtm true = some played ∧ played.Plays player dtm := by
        rw [MovieManager.playInput, if_neg (not_not.mpr hidle), hfrom]
        refine ⟨_, rfl, MovieManager.Plays.loadInput ?_⟩
        exact ⟨rfl, hread, rfl, rfl, rfl, rfl, rfl, fun _ => rfl⟩
      have hstarting : (played.loadState saved).isJustStartingRecordingInputFromSaveState = true := by
        rw [MovieManager.isJustStartingRecordingInputFromSaveState, Bool.and_eq_true, decide_eq_true_iff]
        exact ⟨hplays.fromSave hfrom, hframe⟩
      refine ⟨played.loadState saved, ?_, ?_⟩
      · rw [startPlaying, hplayed, Option.map_some]
        simp only [hfrom, ↓reduceIte, hstarting, Bool.not_true, Bool.false_and, Bool.false_eq_true]
      · exact ⟨hplays.mode, hplays.readOnly, hplays.controllers, hplays.wiimotes, hplays.input, hbyte hfrom, hplays.total,
          hplays.fromSave⟩

theorem Invariant.startPlaying {w : World} {player : MovieManager} {saved : SavedMovie} {fromSave : Bool}
    (h : Invariant isWii controllers wiimotes fromSave w) (hfull : w.movie.tempInput.length = w.movie.currentByte)
    (hframe : saved.currentFrame = 0) (hbyte : fromSave = true → saved.currentByte = 0) (hidle : player.playMode = .none)
    (hread : player.readOnly = true) :
    ∃ playing, startPlaying player (w.movie.saveRecording isWii) saved = some playing ∧
      Playing isWii controllers wiimotes playing w.console.polls := by
  have hencodes : Encodes isWii controllers wiimotes w.console.polls w.movie.tempInput := by
    have hinput := h.saved.input.2
    rwa [← hfull, List.take_length] at hinput
  have hheader := headerOk_saveRecording h.pads h.remotes player
  have hfrom : (w.movie.saveRecording isWii).header.bFromSaveState = fromSave := h.start
  obtain ⟨playing, hstart, hplays⟩ := startPlaying_of_idle hidle hread hframe
    (fun (hsave : (w.movie.saveRecording isWii).header.bFromSaveState = true) => hbyte (hfrom.symm.trans hsave))
  refine ⟨playing, hstart, hplays.mode, hplays.readOnly, hplays.controllers.trans hheader.1,
    fun hwii => hplays.wiimotes.trans (hheader.2 hwii), ?_, ?_⟩
  · rw [hplays.input, hplays.byte]
    exact hencodes
  · intro hboot
    have hno : fromSave = false := by
      rw [← hfrom, ← Bool.not_eq_true]
      intro hsave
      exact Bool.false_ne_true (hboot.symm.trans (hplays.fromSave hsave))
    rw [hplays.total]
    exact h.saved.covered hno

/-! ## Recording and playing -/

/-- Provided that the byte is 0 when a recording of a running game begins, and that no state without a movie is loaded after
the input that it goes with has been replaced. -/
theorem startPlaying_saveRecording {m begun player : MovieManager} {saved : SavedMovie} {running : Bool} {ticks : UInt64}
    {w : World} (hwrite : m.readOnly = false) (hsaved : m.recordingFromSaveState = false)
    (hbyte : running = true → m.currentByte = 0)
    (hbegin : m.beginRecordingInput controllers wiimotes running = some (begun, saved))
    (hrun : Recording isWii controllers wiimotes (World.start begun ticks) w true) (hidle : player.playMode = .none)
    (hread : player.readOnly = true) :
    ∃ playing, startPlaying player (w.movie.saveRecording isWii) saved = some playing ∧
      ∀ (before after : List Call) (call : Call), (before ++ call :: after).map Call.poll = w.console.polls →
        call.poll.isUsed controllers wiimotes = true →
        (playing.calls before).playMode = .playing ∧
          ((playing.calls before).poll call.live call.liveData call.poll).2.Replays call.poll ∧
          ((playing.calls (before ++ [call])).playMode = .playing ↔
            ∃ later ∈ after, later.poll.isUsed controllers wiimotes = true) := by
  have hinv := @invariant_start isWii _ _ _ _ _ _ ticks hwrite hsaved hbegin
  obtain ⟨⟨-, -, -, -, -, hinput, hzero, -⟩, hframe, hsavedByte⟩ := MovieManager.beginRecordingInput_eq_some hbegin
  have hfull := hrun.full hinv ((congrArg List.length hinput).trans hzero.symm) rfl
  obtain ⟨playing, hstart, hplaying⟩ := (hrun.invariant hinv).startPlaying hfull hframe
    (fun hrunning => hsavedByte.trans (hbyte hrunning)) hidle hread
  refine ⟨playing, hstart, fun before after call hpolls hused => ?_⟩
  rw [← hpolls] at hplaying
  have hbefore := hplaying.calls hused
  obtain ⟨hreplays, hafter⟩ := hbefore.call_of_used hused
  refine ⟨hbefore.mode, hreplays, ?_⟩
  have hcalls : playing.calls (before ++ [call]) = (playing.calls before).call call := by
    rw [MovieManager.calls, List.foldl_append]
    rfl
  rw [hcalls]
  constructor
  · intro hmode
    by_contra hnone
    have hover := hafter.ended (by simpa using hnone)
    rw [hmode] at hover
    cases hover
  · rintro ⟨later, hlater, hlaterUsed⟩
    exact (hafter.more ⟨later.poll, List.mem_map_of_mem hlater, hlaterUsed⟩).mode

/-! ## One pad -/

namespace MovieManager

def idle (readOnly : Bool) : MovieManager where
  readOnly := readOnly
  rerecords := 0
  playMode := .none
  controllers := fun _ => .none
  wiimotes := fun _ => false
  padState := {}
  tempInput := []
  currentByte := 0
  currentFrame := 0
  totalFrames := 0
  currentLagCount := 0
  totalLagCount := 0
  currentInputCount := 0
  totalInputCount := 0
  totalTickCount := 0
  tickCountAtLastInput := 0
  recordingFromSaveState := false
  hasDiscChange := false
  reset := false
  polled := false

end MovieManager

def firstPad : ControllerTypeArray := ![.gc, .none, .none, .none]

def press (button : BitVec 16) : Event := .pad 0 { button := button }

/-- A recording from boot that goes back to its beginning. -/
theorem startPlaying_saveRecording_rewound : ∃ begun saved w playing,
    (MovieManager.idle false).beginRecordingInput firstPad (fun _ => false) false = some (begun, saved) ∧
      [.saveState 0, .finishSave, press padButtonA, .loadState 0, press padButtonB].foldlM (World.step false)
        (World.start begun 0) = some w ∧
      startPlaying (MovieManager.idle true) (w.movie.saveRecording false) saved = some playing ∧
      (playing.poll {} [] (.pad 0 0 { button := padButtonB })).2.Replays (.pad 0 0 { button := padButtonB }) := by
  obtain ⟨playing, hstart, hplay⟩ := @startPlaying_saveRecording false firstPad (fun _ => false) (MovieManager.idle false) _
    (MovieManager.idle true) _ false 0 _ rfl rfl (fun _ => rfl) rfl
    (.step (press padButtonB) (.step (.loadState 0) (.step (press padButtonA) (.step .finishSave (.step (.saveState 0)
      .begin trivial rfl) trivial rfl) trivial rfl) (fun _ file hfile hdtm => by cases hfile; cases hdtm) rfl) trivial rfl)
    rfl rfl
  exact ⟨_, _, _, playing, rfl, rfl, hstart, (hplay [] [] ⟨.pad 0 0 { button := padButtonB }, {}, []⟩ rfl rfl).2.1⟩

/-- A state of the first frame brings back another input than the one it was saved with. -/
theorem startPlaying_saveRecording_replaced : ∃ begun saved w playing,
    (MovieManager.idle false).beginRecordingInput firstPad (fun _ => false) true = some (begun, saved) ∧
      [.saveState 0, .finishSave, press padButtonA, .saveState 1, .finishSave, .loadState 0, press padButtonB,
        .loadState 1, press padButtonX].foldlM (World.step false) (World.start begun 0) = some w ∧
      startPlaying (MovieManager.idle true) (w.movie.saveRecording false) saved = some playing ∧
      w.console.polls = [.pad 0 0 { button := padButtonA }, .pad 0 0 { button := padButtonX }] ∧
      ¬ (playing.poll {} [] (.pad 0 0 { button := padButtonA })).2.Replays (.pad 0 0 { button := padButtonA }) := by
  refine ⟨_, _, _, _, rfl, rfl, rfl, rfl, fun hreplays => ?_⟩
  have hbutton := hreplays.button
  revert hbutton
  decide

end Karphin.Movie
