import Karphin.VideoCommon.OpcodeDecoding.Lemmas

/-!
# The opcode decoder does not see how its data is cut

The calls of the callback are the same up to the NOPs that are counted together, and each byte belongs to one command.
-/

namespace Karphin.VideoCommon.OpcodeDecoder

open Lib

variable {ε : Type} (machine : Machine ε)

/-! ## Histories that differ in their NOPs -/

/-- A call before others: NOPs are counted together, and the calls of `OnCommand` are left out. -/
def mergeEvent : Event → List Event → List Event
  | .nop count, .nop count' :: events => .nop (count + count') :: events
  | .command _ _, events => events
  | event, events => event :: events

def callbacks (log : List Event) : List Event := log.foldr mergeEvent []

def Same (s t : State ε) : Prop := ∃ log, t = { s with log := log } ∧ callbacks log = callbacks s.log

theorem same_equivalence : Equivalence (Same (ε := ε)) where
  refl s := ⟨s.log, rfl, rfl⟩
  symm := by
    rintro s _ ⟨log, rfl, hlog⟩
    exact ⟨s.log, rfl, hlog.symm⟩
  trans := by
    rintro s _ _ ⟨log, rfl, hlog⟩ ⟨log', rfl, hlog'⟩
    exact ⟨log', rfl, hlog'.trans hlog⟩

theorem callbacks_cons (event : Event) {log log' : List Event} (h : callbacks log = callbacks log') :
    callbacks (event :: log) = callbacks (event :: log') := congrArg (mergeEvent event) h

theorem mergeEvent_command (inDisplayList : Bool) (data : List (BitVec 8)) (events : List Event) :
    mergeEvent (.command inDisplayList data) events = events := by
  cases events with
  | nil => rfl
  | cons event events => rfl

theorem mergeEvent_nop (first second : Nat) (events : List Event) :
    mergeEvent (.nop second) (mergeEvent (.nop first) events) = mergeEvent (.nop (first + second)) events := by
  cases events with
  | nil => exact congrArg (fun count => [Event.nop count]) (Nat.add_comm second first)
  | cons event events =>
      cases event with
      | nop count =>
          change [Event.nop (second + (first + count))] ++ events = [Event.nop (first + second + count)] ++ events
          rw [← Nat.add_assoc, Nat.add_comm second first]
      | _ => exact congrArg (fun count => Event.nop count :: _) (Nat.add_comm second first)

/-! ## The history does not matter -/

section

variable {s t : State ε}

theorem Same.record (h : Same s t) (event : Event) : Same (s.record event) (t.record event) := by
  obtain ⟨log, rfl, hlog⟩ := h
  exact ⟨event :: log, rfl, callbacks_cons event hlog⟩

theorem Same.map (h : Same s t) {op : State ε → State ε} (hop : ∀ s log, op { s with log := log } = { op s with log := log })
    (hkeep : ∀ s, (op s).log = s.log) : Same (op s) (op t) := by
  obtain ⟨log, rfl, hlog⟩ := h
  exact ⟨log, hop s log, by rw [hkeep, hlog]⟩

@[simp] theorem refreshLoader_log (vat : Fin 8) : (s.refreshLoader machine vat).log = s.log := by
  simp only [State.refreshLoader, State.updateVertexArrayPointers, State.getOrCreateLoader]
  split <;> split <;> try split
  all_goals rfl

@[simp] theorem markDirty_log (command : BitVec 8) : (s.markDirty machine command).log = s.log := by
  simp only [State.markDirty]
  split <;> rfl

variable {machine}

theorem Same.refreshLoader (h : Same s t) (vat : Fin 8) :
    Same (s.refreshLoader machine vat) (t.refreshLoader machine vat) := by
  refine h.map (fun s log => ?_) fun _ => refreshLoader_log machine vat
  simp only [State.refreshLoader, State.updateVertexArrayPointers, State.getOrCreateLoader]
  split <;> split <;> try split
  all_goals rfl

theorem Same.markDirty (h : Same s t) (command : BitVec 8) :
    Same (s.markDirty machine command) (t.markDirty machine command) := by
  refine h.map (fun s log => ?_) fun _ => markDirty_log machine command
  simp only [State.markDirty]
  split <;> rfl

theorem Same.tick (h : Same s t) (cycles : BitVec 32) : Same (s.tick cycles) (t.tick cycles) :=
  h.map (fun _ _ => rfl) fun _ => rfl

theorem Same.perform (h : Same s t) (event : Event) : Same (s.perform machine event) (t.perform machine event) :=
  h.map (fun _ _ => rfl) fun _ => rfl

theorem Same.loadCPReg (h : Same s t) (command : BitVec 8) (value : BitVec 32) :
    Same (s.loadCPReg machine command value) (t.loadCPReg machine command value) := h.map (fun _ _ => rfl) fun _ => rfl

theorem Same.leave (h : Same s t) : Same { s with inDisplayList := false } { t with inDisplayList := false } := by
  obtain ⟨log, rfl, hlog⟩ := h
  exact ⟨log, rfl, hlog⟩

theorem Same.vertexLoaders (h : Same s t) : s.vertexLoaders = t.vertexLoaders := by
  obtain ⟨log, rfl, -⟩ := h
  rfl

theorem Same.inDisplayList (h : Same s t) : s.inDisplayList = t.inDisplayList := by
  obtain ⟨log, rfl, -⟩ := h
  rfl

theorem updateVertexArrayPointers_vatDirty (s : State ε) :
    (s.updateVertexArrayPointers machine).vatDirty = s.vatDirty := by
  rw [State.updateVertexArrayPointers]
  split <;> rfl

theorem updateVertexArrayPointers_again (s : State ε) :
    (s.updateVertexArrayPointers machine).updateVertexArrayPointers machine = s.updateVertexArrayPointers machine := by
  cases hbases : s.basesDirty <;> simp [State.updateVertexArrayPointers, hbases]

theorem refreshLoader_of_clean {s : State ε} {vat : Fin 8} (h : s.vatDirty.get vat = false) :
    s.refreshLoader machine vat = if machine.isPreprocess then s else s.updateVertexArrayPointers machine := by
  rw [State.refreshLoader, h]
  rfl

theorem refreshLoader_of_dirty {s : State ε} {vat : Fin 8} (h : s.vatDirty.get vat = true) :
    s.refreshLoader machine vat = (s.getOrCreateLoader vat).refreshLoader machine vat := by
  have hclean : (s.getOrCreateLoader vat).vatDirty.get vat = false := Vector.getElem_set_self vat.isLt
  rw [refreshLoader_of_clean hclean, State.refreshLoader, h]
  rfl

theorem refreshLoader_refreshLoader (vat : Fin 8) (s : State ε) :
    (s.refreshLoader machine vat).refreshLoader machine vat = s.refreshLoader machine vat := by
  have hclean {s : State ε} (h : s.vatDirty.get vat = false) :
      (s.refreshLoader machine vat).refreshLoader machine vat = s.refreshLoader machine vat := by
    rw [refreshLoader_of_clean h]
    cases hpre : machine.isPreprocess with
    | true =>
        simp only [↓reduceIte]
        rw [refreshLoader_of_clean h, hpre]
        rfl
    | false =>
        have hagain : (s.updateVertexArrayPointers machine).vatDirty.get vat = false := by
          rw [updateVertexArrayPointers_vatDirty]
          exact h
        simp only [Bool.false_eq_true, ↓reduceIte]
        rw [refreshLoader_of_clean hagain, hpre]
        exact updateVertexArrayPointers_again s
  cases hdirty : s.vatDirty.get vat with
  | true =>
      rw [refreshLoader_of_dirty hdirty]
      exact hclean (Vector.getElem_set_self vat.isLt)
  | false => exact hclean hdirty

end

/-! ## The callback of the FIFO -/

variable {machine}

theorem callbackWith_laws {onDisplayList : BitVec 32 → BitVec 32 → State ε → State ε}
    (hlist : ∀ address size s t, Same s t → Same (onDisplayList address size s) (onDisplayList address size t)) :
    (callbackWith machine onDisplayList).Laws Same where
  equiv := same_equivalence
  onXF _ _ _ _ _ h := ((h.record _).tick _).perform _
  onCP _ _ _ _ h := ((((h.record _).tick _).perform _).markDirty _).loadCPReg _ _
  onBP _ _ _ _ h := ((h.record _).tick _).perform _
  onIndexedLoad _ _ _ _ _ _ h := ((h.record _).tick _).perform _
  onPrimitiveCommand primitive vat vertexSize numVertices data s t h := by
    by_cases hnum : numVertices = 0
    · simp only [callbackWith, hnum, ↓reduceIte]
      exact (h.record _).tick _
    · simp only [callbackWith, hnum, ↓reduceIte]
      exact (((h.record _).refreshLoader _).perform _).tick _
  onDisplayList := hlist
  onNop _ _ _ h := (h.record _).tick _
  onUnknown opcode data s t h := by
    simp only [callbackWith]
    split
    · exact (h.record _).tick _
    · exact ((h.record _).perform _).tick _
  onCommand data s t h := by
    simp only [callbackWith, h.inDisplayList]
    exact h.record _
  getVertexSize vat s t h := by
    have hrefreshed : Same (s.refreshLoader machine vat) (t.refreshLoader machine vat) := h.refreshLoader vat
    exact ⟨congrArg (fun loaders => (loaders.get vat).vertexSize) hrefreshed.vertexLoaders, hrefreshed⟩
  again vat s := by
    simp only [callbackWith, refreshLoader_refreshLoader]
  vertexSize_le _ _ := getVertexSize_le _ _
  nops first second s := by
    have hcycles : s.cycles + 6 * BitVec.ofNat 32 first.length + 6 * BitVec.ofNat 32 second.length =
        s.cycles + 6 * BitVec.ofNat 32 (first.length + second.length) := by
      rw [BitVec.ofNat_add, BitVec.mul_add, BitVec.add_assoc]
    refine ⟨_, congrArg (fun cycles => State.mk s.cpState s.vatDirty s.vertexLoaders s.basesDirty cycles s.inDisplayList
      s.rest (.command s.inDisplayList second :: .nop second.length :: .command s.inDisplayList first ::
        .nop first.length :: s.log)) hcycles, ?_⟩
    change mergeEvent (.command s.inDisplayList second) (mergeEvent (.nop second.length)
      (mergeEvent (.command s.inDisplayList first) (mergeEvent (.nop first.length) (callbacks s.log)))) =
      mergeEvent (.command s.inDisplayList (first ++ second))
        (mergeEvent (.nop (first.length + second.length)) (callbacks s.log))
    rw [mergeEvent_command, mergeEvent_command, mergeEvent_command, mergeEvent_nop]

variable (machine) in
theorem displayListCallback_laws : (displayListCallback machine).Laws Same :=
  callbackWith_laws fun _ _ _ _ h => (h.record _).tick _

variable (machine) in
theorem runCallback_laws : (runCallback machine).Laws Same := by
  apply callbackWith_laws
  intro address size s t h
  have hnested := displayListCallback_laws machine
  have hcalled := (h.record (.displayList address size)).tick 6
  simp only [runDisplayList, ← hcalled.inDisplayList]
  split
  · exact hcalled
  · obtain ⟨log, heq, hlog⟩ := hcalled
    rw [heq]
    dsimp only
    split
    · exact ⟨log, rfl, hlog⟩
    · next data _ =>
        have hstart : Same { (s.record (.displayList address size)).tick 6 with
            inDisplayList := true, rest := (machine.displayList address size s.rest).1 }
            { (s.record (.displayList address size)).tick 6 with
              inDisplayList := true, rest := (machine.displayList address size s.rest).1, log := log } := ⟨log, rfl, hlog⟩
        have hend := (hnested.frames.run_congr data.toList _ _ hstart).2
        exact hend.leave

/-! ## What a run adds to the history -/

def Event.Within : Event → Prop
  | .xf _ count data => data.length = 4 * count.toNat
  | .primitiveCommand _ _ vertexSize numVertices vertexData => vertexData.length = numVertices.toNat * vertexSize.toNat
  | .unknown opcode data => data = [opcode]
  | _ => True

def Event.topCommand : Event → Option (List (BitVec 8))
  | .command false data => some data
  | _ => none

def commands (log : List Event) : List (List (BitVec 8)) := (log.filterMap Event.topCommand).reverse

structure Grew (s t : State ε) (bytes : List (BitVec 8)) : Prop where
  inDisplayList : t.inDisplayList = s.inDisplayList
  log : ∃ new, t.log = new ++ s.log ∧ (∀ event ∈ new, event.Within) ∧ (commands new).flatten = bytes

theorem commands_append (later earlier : List Event) : commands (later ++ earlier) = commands earlier ++ commands later := by
  rw [commands, List.filterMap_append, List.reverse_append]
  rfl

section

variable {s t u : State ε} {bytes more : List (BitVec 8)}

theorem Grew.refl (s : State ε) : Grew s s [] :=
  ⟨rfl, [], rfl, fun _ h => absurd h List.not_mem_nil, rfl⟩

theorem Grew.trans (h : Grew s t bytes) (h' : Grew t u more) : Grew s u (bytes ++ more) := by
  obtain ⟨hflag, new, hlog, hwithin, hbytes⟩ := h
  obtain ⟨hflag', new', hlog', hwithin', hbytes'⟩ := h'
  refine ⟨hflag'.trans hflag, new' ++ new, ?_, fun event hevent => ?_, ?_⟩
  · rw [hlog', hlog, List.append_assoc]
  · rcases List.mem_append.mp hevent with hevent | hevent
    · exact hwithin' event hevent
    · exact hwithin event hevent
  · rw [commands_append, List.flatten_append, hbytes, hbytes']

theorem Grew.record (h : Grew s t bytes) {event : Event} (hwithin : event.Within) (htop : event.topCommand = none) :
    Grew s (t.record event) bytes := by
  have hnew : Grew t (t.record event) [] := by
    refine ⟨rfl, [event], rfl, fun event' hevent => ?_, ?_⟩
    · obtain rfl := List.mem_singleton.mp hevent
      exact hwithin
    · simp [commands, htop]
  have hboth := h.trans hnew
  rw [List.append_nil] at hboth
  exact hboth

theorem Grew.keep (h : Grew s t bytes) (hlog : u.log = t.log) (hflag : u.inDisplayList = t.inDisplayList) :
    Grew s u bytes := by
  obtain ⟨hinDisplayList, new, hnew, hrest⟩ := h
  exact ⟨hflag.trans hinDisplayList, new, hlog.trans hnew, hrest⟩

end

@[simp] theorem refreshLoader_inDisplayList (s : State ε) (vat : Fin 8) :
    (s.refreshLoader machine vat).inDisplayList = s.inDisplayList := by
  simp only [State.refreshLoader, State.updateVertexArrayPointers, State.getOrCreateLoader]
  split <;> split <;> try split
  all_goals rfl

@[simp] theorem markDirty_inDisplayList (s : State ε) (command : BitVec 8) :
    (s.markDirty machine command).inDisplayList = s.inDisplayList := by
  simp only [State.markDirty]
  split <;> rfl

section

variable (onDisplayList : BitVec 32 → BitVec 32 → State ε → State ε)

theorem onCP_grew (command : BitVec 8) (value : BitVec 32) (s : State ε) :
    Grew s ((callbackWith machine onDisplayList).onCP command value s) [] := by
  have h : Grew s (s.record (.cp command value)) [] := (Grew.refl s).record trivial rfl
  exact h.keep (markDirty_log machine _) (markDirty_inDisplayList _ _)

theorem onBP_grew (command : BitVec 8) (value : BitVec 32) (s : State ε) :
    Grew s ((callbackWith machine onDisplayList).onBP command value s) [] := by
  have h : Grew s (s.record (.bp command value)) [] := (Grew.refl s).record trivial rfl
  exact h.keep rfl rfl

theorem onXF_grew {address : BitVec 16} {count : BitVec 8} {data : List (BitVec 8)} (hdata : data.length = 4 * count.toNat)
    (s : State ε) : Grew s ((callbackWith machine onDisplayList).onXF address count data s) [] := by
  have h : Grew s (s.record (.xf address count data)) [] := (Grew.refl s).record hdata rfl
  exact h.keep rfl rfl

theorem onIndexedLoad_grew (array : CPArray) (index : BitVec 32) (address : BitVec 16) (size : BitVec 8) (s : State ε) :
    Grew s ((callbackWith machine onDisplayList).onIndexedLoad array index address size s) [] := by
  have h : Grew s (s.record (.indexedLoad array index address size)) [] := (Grew.refl s).record trivial rfl
  exact h.keep rfl rfl

theorem onPrimitiveCommand_grew {primitive : Primitive} {vat : Fin 8} {vertexSize : BitVec 32} {numVertices : BitVec 16}
    {data : List (BitVec 8)} (hdata : data.length = numVertices.toNat * vertexSize.toNat) (s : State ε) :
    Grew s ((callbackWith machine onDisplayList).onPrimitiveCommand primitive vat vertexSize numVertices data s) [] := by
  have h : Grew s (s.record (.primitiveCommand primitive vat vertexSize numVertices data)) [] :=
    (Grew.refl s).record hdata rfl
  simp only [callbackWith]
  split
  · exact h.keep rfl rfl
  · exact h.keep (refreshLoader_log machine _) (refreshLoader_inDisplayList _ _)

theorem onUnknown_grew (opcode : BitVec 8) (s : State ε) :
    Grew s ((callbackWith machine onDisplayList).onUnknown opcode [opcode] s) [] := by
  have h : Grew s (s.record (.unknown opcode [opcode])) [] := (Grew.refl s).record rfl rfl
  simp only [callbackWith]
  split
  · exact h.keep rfl rfl
  · exact h.keep rfl rfl

theorem getVertexSize_grew (vat : Fin 8) (s : State ε) :
    Grew s ((callbackWith machine onDisplayList).getVertexSize vat s).2 [] :=
  (Grew.refl s).keep (refreshLoader_log machine _) (refreshLoader_inDisplayList _ _)

theorem frame_grew (hlist : ∀ address size s, Grew s (onDisplayList address size s) []) {cmd : BitVec 8}
    {rest : List (BitVec 8)} {s : State ε} :
    (frame (callbackWith machine onDisplayList) cmd).size (cmd :: rest) s ≤ (cmd :: rest).length →
      Grew s ((frame (callbackWith machine onDisplayList) cmd).act (cmd :: rest) s) [] := by
  unfold frame
  split
  · exact fun _ => onCP_grew onDisplayList _ _ s
  · split
    · intro h
      dsimp only at h ⊢
      apply onXF_grew onDisplayList
      rw [List.length_take, List.length_drop, Nat.min_eq_left (by omega), Nat.mul_comm]
    · split
      · exact fun _ => onIndexedLoad_grew onDisplayList _ _ _ _ s
      · split
        · exact fun _ => hlist _ _ s
        · split
          · exact fun _ => onBP_grew onDisplayList _ _ s
          · split
            · intro h
              have hsize : (3 + (swap16 (cmd :: rest) 1).setWidth 32 *
                  ((callbackWith machine onDisplayList).getVertexSize (vatIndex cmd) s).1 : BitVec 32).toNat ≤
                    (cmd :: rest).length := h
              have hle : ((callbackWith machine onDisplayList).getVertexSize (vatIndex cmd) s).1.toNat ≤ 129 :=
                getVertexSize_le _ _
              rw [primitive_size _ hle] at hsize
              refine (getVertexSize_grew onDisplayList _ s).trans (onPrimitiveCommand_grew onDisplayList ?_ _)
              rw [List.length_take, List.length_drop, Nat.min_eq_left]
              omega
            · exact fun _ => onUnknown_grew onDisplayList cmd s

theorem frame_prepare_grew (cmd : BitVec 8) (s : State ε) :
    Grew s ((frame (callbackWith machine onDisplayList) cmd).prepare s) [] := by
  unfold frame
  split <;> try split <;> try split <;> try split <;> try split <;> try split
  all_goals first
    | exact Grew.refl s
    | exact getVertexSize_grew onDisplayList _ s

theorem onCommand_grew (data : List (BitVec 8)) (s : State ε) :
    Grew s ((callbackWith machine onDisplayList).onCommand data s) (if s.inDisplayList then [] else data) := by
  refine ⟨rfl, [.command s.inDisplayList data], rfl, fun event hevent => ?_, ?_⟩
  · obtain rfl := List.mem_singleton.mp hevent
    trivial
  · cases hflag : s.inDisplayList <;> simp [commands, Event.topCommand]

variable {onDisplayList}

theorem RunCommand_grew (hlaws : (callbackWith machine onDisplayList).Laws Same)
    (hlist : ∀ address size s, Grew s (onDisplayList address size s) []) (data : List (BitVec 8)) (s : State ε) : Grew s (RunCommand (callbackWith machine onDisplayList) data s).2
      (if s.inDisplayList then [] else data.take (RunCommand (callbackWith machine onDisplayList) data s).1) := by
  have hthen {t : State ε} (h : Grew s t []) (bytes : List (BitVec 8)) :
      Grew s ((callbackWith machine onDisplayList).onCommand bytes t) (if s.inDisplayList then [] else bytes) := by
    have hcommand : Grew t ((callbackWith machine onDisplayList).onCommand bytes t) (if t.inDisplayList then [] else bytes) :=
      onCommand_grew onDisplayList bytes t
    have hboth := h.trans hcommand
    rw [h.inDisplayList] at hboth
    exact hboth
  have hnone : (if s.inDisplayList then [] else data.take 0) = [] := by
    rw [List.take_zero, ite_self]
  cases data with
  | nil =>
      rw [List.take_nil, ite_self]
      exact Grew.refl s
  | cons cmd rest =>
      by_cases hcmd : cmd = GX_NOP
      · subst hcmd
        rw [RunCommand_nop, take_nops]
        have hnop : Grew s (s.record (.nop (leadingNops (GX_NOP :: rest)).length)) [] := (Grew.refl s).record trivial rfl
        have hcounted : Grew s ((callbackWith machine onDisplayList).onNop (leadingNops (GX_NOP :: rest)).length s) [] :=
          hnop.keep rfl rfl
        exact hthen hcounted _
      · rw [RunCommand_frame _ hcmd]
        dsimp only
        by_cases hheader : (cmd :: rest).length < (frame (callbackWith machine onDisplayList) cmd).header
        · simp only [Frame.step, if_pos hheader, hnone, ↓reduceIte]
          exact Grew.refl s
        · by_cases hlength : (cmd :: rest).length < (frame (callbackWith machine onDisplayList) cmd).size (cmd :: rest) s
          · simp only [Frame.step, if_neg hheader, if_pos hlength, hnone, ↓reduceIte]
            exact frame_prepare_grew onDisplayList cmd s
          · have hpos := (frame_laws hlaws cmd).size_pos (cmd :: rest) s
            simp only [Frame.step, if_neg hheader, if_neg hlength, if_neg (Nat.ne_of_gt hpos)]
            exact hthen (frame_grew onDisplayList hlist (Nat.le_of_not_lt hlength)) _

theorem Run_grew (hlaws : (callbackWith machine onDisplayList).Laws Same)
    (hlist : ∀ address size s, Grew s (onDisplayList address size s) []) (data : List (BitVec 8)) (s : State ε) :
    Grew s (Run (callbackWith machine onDisplayList) data s).2
      (if s.inDisplayList then [] else data.take (Run (callbackWith machine onDisplayList) data s).1) := by
  refine Frames.run_induction (fun data s r => Grew s r.2 (if s.inDisplayList then [] else data.take r.1))
    ?_ ?_ ?_ data s
  · intro s
    rw [List.take_nil, ite_self]
    exact Grew.refl s
  · intro data s _ hsize
    have hstep := RunCommand_grew hlaws hlist data s
    rw [hsize] at hstep
    exact hstep
  · intro data s r _ _ hrest
    have hstep := RunCommand_grew hlaws hlist data s
    have hboth := hstep.trans hrest
    rw [hstep.inDisplayList] at hboth
    cases hflag : s.inDisplayList with
    | true => simpa only [hflag, ↓reduceIte, List.append_nil] using hboth
    | false =>
        simp only [hflag, Bool.false_eq_true, ↓reduceIte] at hboth ⊢
        rw [List.take_add]
        exact hboth

end

theorem displayList_grew (address size : BitVec 32) (s : State ε) :
    Grew s ((s.record (.displayList address size)).tick 6) [] := by
  have h : Grew s (s.record (.displayList address size)) [] := (Grew.refl s).record trivial rfl
  exact h.keep rfl rfl

variable (machine)

theorem displayListCallback_grew (data : List (BitVec 8)) (s : State ε) :
    Grew s (Run (displayListCallback machine) data s).2
      (if s.inDisplayList then [] else data.take (Run (displayListCallback machine) data s).1) :=
  Run_grew (displayListCallback_laws machine) displayList_grew data s

theorem runDisplayList_grew (address size : BitVec 32) (s : State ε) :
    Grew s (runDisplayList machine address size s) [] := by
  have hcalled := displayList_grew address size s
  simp only [runDisplayList]
  split
  · exact hcalled
  · next hflag =>
      split
      · exact hcalled.keep rfl (Bool.eq_false_of_not_eq_true hflag).symm
      · next data _ =>
          have hnested := displayListCallback_grew machine data.toList
            { (s.record (.displayList address size)).tick 6 with
              inDisplayList := true, rest := (machine.displayList address size s.rest).1 }
          obtain ⟨hflag', new, hnew, hwithin⟩ := hcalled
          obtain ⟨-, new', hnew', hwithin'⟩ := hnested
          have hstart : Grew s { (s.record (.displayList address size)).tick 6 with
              inDisplayList := s.inDisplayList, rest := (machine.displayList address size s.rest).1 } [] :=
            ⟨rfl, new, hnew, hwithin⟩
          refine hstart.trans ⟨(Bool.eq_false_of_not_eq_true hflag).symm, new', hnew', hwithin'⟩

theorem runCallback_grew (data : List (BitVec 8)) (s : State ε) :
    Grew s (Run (runCallback machine) data s).2
      (if s.inDisplayList then [] else data.take (Run (runCallback machine) data s).1) :=
  Run_grew (runCallback_laws machine) (runDisplayList_grew machine) data s

/-! ## Pieces -/

def State.start (s : State ε) : State ε := { s with cycles := 0, inDisplayList := false, log := [] }

/-- The data comes in pieces, and each run starts at the first byte that is not consumed. -/
def runPieces (pieces : List (List (BitVec 8))) (s : State ε) : List (BitVec 8) × State ε :=
  Frames.feed (RunCommand (runCallback machine)) pieces ([], s)

theorem feed_grew (pieces : List (List (BitVec 8))) : ∀ (buffer : List (BitVec 8)) (s : State ε), s.inDisplayList = false →
    ∃ bytes, Grew s (Frames.feed (RunCommand (runCallback machine)) pieces (buffer, s)).2 bytes ∧
      bytes ++ (Frames.feed (RunCommand (runCallback machine)) pieces (buffer, s)).1 = buffer ++ pieces.flatten := by
  induction pieces with
  | nil =>
      intro buffer s _
      exact ⟨[], Grew.refl s, by rw [List.flatten_nil, List.append_nil]; rfl⟩
  | cons piece pieces ih =>
      intro buffer s hflag
      have hrun := runCallback_grew machine (buffer ++ piece) s
      rw [hflag] at hrun
      obtain ⟨bytes, hgrew, hbytes⟩ := ih ((buffer ++ piece).drop (Run (runCallback machine) (buffer ++ piece) s).1)
        (Run (runCallback machine) (buffer ++ piece) s).2 (hrun.inDisplayList.trans hflag)
      refine ⟨_, hrun.trans hgrew, ?_⟩
      rw [List.append_assoc]
      refine (congrArg _ hbytes).trans ?_
      rw [if_neg Bool.false_ne_true, ← List.append_assoc, List.take_append_drop, List.flatten_cons, List.append_assoc]

theorem cut_anywhere (pieces : List (List (BitVec 8))) (s : State ε) :
    let whole := Run (runCallback machine) pieces.flatten s.start
    let parts := runPieces machine pieces s.start
    parts.1 = pieces.flatten.drop whole.1 ∧ callbacks parts.2.log = callbacks whole.2.log ∧
      parts.2.cpState = whole.2.cpState ∧
      (∀ data (t : State ε), (Run (runCallback machine) data t).1 ≤ data.length) ∧
      (∀ event ∈ whole.2.log, event.Within) ∧ (∀ event ∈ parts.2.log, event.Within) ∧
      (commands whole.2.log).flatten = pieces.flatten.take whole.1 ∧
      (commands parts.2.log).flatten = pieces.flatten.take whole.1 := by
  have hlaws := (runCallback_laws machine).frames
  obtain ⟨hrest, hsame⟩ := hlaws.feed_run pieces s.start
  obtain ⟨-, new, hnew, hwithin, hbytes⟩ := runCallback_grew machine pieces.flatten s.start
  obtain ⟨bytes, ⟨-, new', hnew', hwithin', hbytes'⟩, hall⟩ := feed_grew machine pieces [] s.start rfl
  obtain ⟨log, hstate, hlog⟩ := hsame
  have hempty : s.start.log = [] := rfl
  rw [hempty, List.append_nil] at hnew hnew'
  have hconsumed : bytes = pieces.flatten.take (Run (runCallback machine) pieces.flatten s.start).1 := by
    have hsplit := List.take_append_drop (Run (runCallback machine) pieces.flatten s.start).1 pieces.flatten
    rw [hrest, List.nil_append] at hall
    exact List.append_cancel_right (hall.trans hsplit.symm)
  refine ⟨hrest, ?_, ?_, fun data t => hlaws.run_le data t, ?_, ?_, ?_, ?_⟩
  · exact (hlog.symm.trans (congrArg (fun s => callbacks s.log) hstate).symm)
  · exact (congrArg State.cpState hstate).symm
  · rw [hnew]
    exact hwithin
  · rw [runPieces, hnew']
    exact hwithin'
  · rw [hnew]
    exact hbytes
  · rw [runPieces, hnew', hbytes', hconsumed]

end Karphin.VideoCommon.OpcodeDecoder
