import Karphin.DiscIO.Multithreaded.Lemmas.Output

/-!
# The order of the output, and deadlocks
-/

namespace Karphin.DiscIO.MultithreadedCompressor

open Karphin.Lib

variable {P O : Type} {config : Config P O} {s s' : State P O} {i : Nat}

def expected (config : Config P O) (submitted : List P) : List (Option O) :=
  (submitted.filterMap fun p => compressed config (some p)).map some

/-- When nothing that was compressed came out of turn, the lanes of what is to be output are those of the threads. -/
def InTurn (config : Config P O) (submitted : List P) : Prop :=
  ∀ before p, before ++ [p] <+: submitted → (compressed config (some p)).isSome →
    (before.filterMap fun p => compressed config (some p)).length % config.threads = before.length % config.threads

theorem Inv.lanes_expected (h : Inv config s) (hturn : InTurn config s.submitted) (hi : i < config.threads) :
    lane config.threads i (expected config s.submitted) =
      lane config.threads i (s.outputs ++ s.outputPc.holding) ++ (pending config (s.threads i)).map some := by
  rw [expected, lane_map, ← lane_filterMap _ _ hturn i hi]
  exact h.lanes i hi

theorem Inv.outputs_prefix (h : Inv config s) (hturn : InTurn config s.submitted) :
    s.outputs ++ s.outputPc.holding <+: expected config s.submitted := by
  apply prefix_of_lanes config.threads_pos
  intro i hi
  rw [h.lanes_expected hturn hi]
  exact List.prefix_append ..

/-! ## The order of the output -/

section Order

variable {result : P → O} {op : OutputPhase}

theorem expected_of_ok (hcompress : ∀ p, config.compress (some p) = .ok (result p)) (submitted : List P) :
    expected config submitted = submitted.map fun p => some (result p) := by
  have hone : (fun p => compressed config (some p)) = fun p => some (result p) := by
    funext p
    rw [compressed, hcompress]
    rfl
  rw [expected, hone, List.filterMap_eq_map', List.map_map]
  rfl

theorem inTurn_of_ok (hcompress : ∀ p, config.compress (some p) = .ok (result p)) (submitted : List P) :
    InTurn config submitted := by
  intro before p _ _
  have hlen := congrArg List.length (expected_of_ok hcompress before)
  rw [expected, List.length_map, List.length_map] at hlen
  rw [hlen]

theorem compressStep_frame (hs : compressStep config s i = some s') :
    s'.producer = s.producer ∧ s'.outputPc = s.outputPc ∧ s'.submitted = s.submitted := by
  rw [compressStep] at hs
  split at hs
  case h_5 => split at hs <;> cases hs; exact ⟨rfl, rfl, rfl⟩
  case h_10 => split at hs <;> cases hs <;> exact ⟨rfl, rfl, rfl⟩
  case h_12 => split at hs <;> cases hs; exact ⟨rfl, rfl, rfl⟩
  case h_16 => cases hs
  all_goals
    cases hs
    exact ⟨rfl, rfl, rfl⟩

theorem outputStep_frame (hs : outputStep config s = some s') :
    s'.producer = s.producer ∧ s'.submitted = s.submitted := by
  rw [outputStep] at hs
  split at hs
  case h_2 => split at hs <;> cases hs; exact ⟨rfl, rfl⟩
  case h_8 => cases hs
  all_goals
    cases hs
    exact ⟨rfl, rfl⟩

theorem producerStep_submitted (hs : producerStep config s = some s') :
    s'.submitted = s.submitted ∨ ∃ p, s.producer = .storeParameters p ∧ s'.submitted = s.submitted ++ [p] := by
  rw [producerStep] at hs
  split at hs
  case h_1 => cases hs
  case h_4 p hp =>
    cases hs
    exact .inr ⟨p, hp, rfl⟩
  case h_14 => cases hs
  case h_2 | h_5 | h_9 | h_10 | h_11 =>
    cases hs
    exact .inl rfl
  case h_12 | h_13 =>
    split at hs <;> cases hs
    exact .inl rfl
  all_goals
    simp only at hs
    split at hs <;> cases hs
    exact .inl rfl

def Joined (s : State P O) : Prop := s.producer = .shutdownDone → s.outputPc = .returned

theorem nextRound_ne {stage : Nat → ProducerPc P} {after pc : ProducerPc P} (hstage : ∀ k, stage k ≠ pc)
    (hafter : after ≠ pc) : nextRound config stage i after ≠ pc := by
  rw [nextRound]
  split
  · exact hstage _
  · exact hafter

theorem joined_producerStep (hs : producerStep config s = some s') : Joined s' := by
  intro hp
  rw [producerStep] at hs
  cases hpc : s.producer with
  | checkStatus p =>
      simp only [hpc, Option.some.injEq] at hs
      subst hs
      simp only at hp
      split at hp <;> cases hp
  | shutdownJoinOutput =>
      simp only [hpc] at hs
      split at hs
      · next hreturned =>
          simp only [Option.some.injEq] at hs
          subst hs
          exact hreturned
      · cases hs
  | waitReady p =>
      simp only [hpc] at hs
      split at hs
      · cases hs
        cases hp
      · cases hs
  | shutdownWaitReady i =>
      simp only [hpc] at hs
      split at hs
      · cases hs
        exact absurd hp (nextRound_ne (by simp) (by simp))
      · cases hs
  | shutdownWaitDone i =>
      simp only [hpc] at hs
      split at hs
      · cases hs
        exact absurd hp (nextRound_ne (by simp) (by simp))
      · cases hs
  | shutdownWaitOutput i =>
      simp only [hpc] at hs
      split at hs
      · cases hs
        exact absurd hp (nextRound_ne (by simp) (by simp))
      · cases hs
  | shutdownCompress i =>
      simp only [hpc] at hs
      cases hs
      exact absurd hp (nextRound_ne (by simp) (by simp))
  | shutdownOutput i =>
      simp only [hpc] at hs
      cases hs
      exact absurd hp (nextRound_ne (by simp) (by simp))
  | shutdownJoin i =>
      simp only [hpc] at hs
      split at hs
      · cases hs
        exact absurd hp (nextRound_ne (by simp) (by simp))
      · cases hs
  | storeParameters p =>
      simp only [hpc] at hs
      cases hs
      cases hp
  | signalCompress =>
      simp only [hpc] at hs
      cases hs
      cases hp
  | shutdownStore =>
      simp only [hpc] at hs
      cases hs
      cases hp
  | outside =>
      simp only [hpc] at hs
      cases hs
  | shutdownDone =>
      simp only [hpc] at hs
      cases hs

theorem step_call {a : Action P} (hs : step config s a = some s') :
    (∃ producer, producer ≠ .shutdownDone ∧ s' = { s with producer }) ∨ (∃ error, s.producer = .outside ∧ s' = s.setError error) ∨
      (a = .producer ∧ producerStep config s = some s') ∨ (∃ i < config.threads, compressStep config s i = some s') ∨
      outputStep config s = some s' := by
  cases a with
  | producer => exact .inr (.inr (.inl ⟨rfl, hs⟩))
  | compress i =>
      simp only [step] at hs
      split at hs
      · next hi => exact .inr (.inr (.inr (.inl ⟨i, hi, hs⟩)))
      · cases hs
  | output => exact .inr (.inr (.inr (.inr hs)))
  | compressAndWrite p =>
      cases hp : s.producer with
      | outside =>
          simp only [step, hp] at hs
          cases hs
          exact .inl ⟨.checkStatus p, by simp, rfl⟩
      | _ =>
          simp only [step, hp] at hs
          cases hs
  | setError error =>
      cases hp : s.producer with
      | outside =>
          simp only [step, hp] at hs
          cases hs
          exact .inr (.inl ⟨error, rfl, rfl⟩)
      | _ =>
          simp only [step, hp] at hs
          cases hs
  | shutdown =>
      cases hp : s.producer with
      | outside =>
          simp only [step, hp] at hs
          cases hs
          exact .inl ⟨.shutdownWaitReady 0, by simp, rfl⟩
      | _ =>
          simp only [step, hp] at hs
          cases hs

theorem joined_of_reach {ok : State P O → Action P → Prop}
    (h : Reach (MultithreadedCompressor.step config) ok {} s) : Joined s := by
  refine h.invariant Joined (by intro hp; cases hp) ?_
  intro s a s' hjoined _ hs
  rcases step_call hs with ⟨producer, hne, rfl⟩ | ⟨error, hout, rfl⟩ | ⟨-, hs⟩ | ⟨i, hi, hs⟩ | hs
  · exact fun hp => absurd hp hne
  · intro hp
    simp only [State.setError, hout, reduceCtorEq] at hp
  · exact joined_producerStep hs
  · obtain ⟨hproducer, houtput, -⟩ := compressStep_frame hs
    rw [Joined, hproducer, houtput]
    exact hjoined
  · intro hp
    rw [(outputStep_frame hs).1] at hp
    rw [outputStep, hjoined hp] at hs
    cases hs

theorem pending_nil (hok : ThreadOk .released op (s.threads i)) : pending config (s.threads i) = [] := by
  obtain ⟨hfront, hdone, hback⟩ := hok
  have hholding : (s.threads i).pc.holding config = [] := by
    cases hpc : (s.threads i).pc with
    | waitCompress => rfl
    | checkShuttingDown => rfl
    | returned => rfl
    | _ =>
        simp only [hpc, CompressPc.phase] at hdone
        cases hdone
  have hslot : (s.threads i).compressParameters = none := by
    cases hp : (s.threads i).compressParameters with
    | none => rfl
    | some p => simp [frontOk, hp] at hfront
  have hslot' : (s.threads i).outputParameters = none := by
    cases hp : (s.threads i).outputParameters with
    | none => rfl
    | some p => simp [backOk, hp] at hback
  simp [pending, hholding, hslot, hslot']

theorem Inv.outputs_eq (h : Inv config s) (hturn : InTurn config s.submitted) (hp : s.producer = .shutdownDone)
    (hreturned : s.outputPc = .returned) : s.outputs = expected config s.submitted := by
  apply eq_of_lanes config.threads_pos
  intro i hi
  have hthread := h.threads i hi
  rw [hp] at hthread
  rw [h.lanes_expected hturn hi, hreturned, pending_nil hthread]
  simp only [OutputPc.holding, List.append_nil, List.map_nil]

/-- No value is lost: a slot that is filled is empty, and a slot that is emptied is filled. -/
def SlotsKept (config : Config P O) (s : State P O) : Prop :=
  (∀ p, s.producer = .storeParameters p → (s.threads s.currentIndex).compressParameters = none) ∧
    (∀ i < config.threads, ∀ o, (s.threads i).pc = .storeParameters o → (s.threads i).outputParameters = none) ∧
    (∀ i < config.threads, (s.threads i).pc = .takeParameters → (s.threads i).compressParameters ≠ none) ∧
    (s.outputPc = .takeParameters → (s.threads s.outputIndex).outputParameters ≠ none)

theorem Inv.slotsKept (h : Inv config s) : SlotsKept config s := by
  refine ⟨fun p hp => ?_, fun i hi o hpc => ?_, fun i hi hpc => ?_, fun hpc => ?_⟩
  · have hcurrent := h.current.of_plain (by rw [hp]; trivial)
    have hthread := h.threads s.currentIndex (by rw [hcurrent]; exact Nat.mod_lt _ config.threads_pos)
    rw [hp, ProducerPc.phase, if_pos rfl] at hthread
    have hempty := frontOk_storing_empty hthread.front
    rwa [Option.isSome_eq_false_iff, Option.isNone_iff_eq_none] at hempty
  · have hthread := h.threads i hi
    have hdone := hthread.done
    have hback := hthread.back
    rw [hpc] at hdone hback
    have hempty := filled_of_storing hdone hback
    rwa [Option.isSome_eq_false_iff, Option.isNone_iff_eq_none] at hempty
  · intro hempty
    have hfront := (h.threads i hi).front
    rw [hpc, hempty] at hfront
    exact frontOk_taking_filled _ _ _ hfront
  · intro hempty
    have hback := (h.threads s.outputIndex h.outputIndex_lt).back
    rw [hpc, OutputPc.phase, if_pos rfl, hempty] at hback
    cases backOk_taking_filled hback

/-- Every submitted item is output once, in its turn, and by the end of `Shutdown` all of them are. -/
theorem output_in_order (config : Config P O) {result : P → O}
    (hcompress : ∀ p, config.compress (some p) = .ok (result p)) {s : State P O}
    (h : Reach (MultithreadedCompressor.step config) anyStep {} s) :
    s.outputs <+: s.submitted.map (fun p => some (result p)) ∧
      (s.producer = .shutdownDone → s.outputs = s.submitted.map fun p => some (result p)) ∧ SlotsKept config s := by
  have hinv := inv_of_reach h
  have hturn := inTurn_of_ok hcompress s.submitted
  rw [← expected_of_ok hcompress]
  refine ⟨(List.prefix_append ..).trans (hinv.outputs_prefix hturn), fun hp => ?_, hinv.slotsKept⟩
  exact hinv.outputs_eq hturn hp (joined_of_reach h hp)

end Order

/-! ## Deadlocks -/

def Deadlocked (config : Config P O) (s : State P O) : Prop :=
  s.producer ≠ .outside ∧ s.producer ≠ .shutdownDone ∧ producerStep config s = none ∧
    (∀ i < config.threads, compressStep config s i = none) ∧ outputStep config s = none

theorem compressStep_none (hs : compressStep config s i = none) :
    ((s.threads i).pc = .waitCompress ∧ (s.threads i).compressEvent = false) ∨
      (∃ result, (s.threads i).pc = .waitOutputReady result ∧ (s.threads i).outputReady = false) ∨
      (s.threads i).pc = .returned := by
  rw [compressStep] at hs
  cases hpc : (s.threads i).pc with
  | waitCompress =>
      simp only [hpc] at hs
      split at hs
      · cases hs
      · next hevent => exact .inl ⟨rfl, by simpa using hevent⟩
  | waitOutputReady result =>
      simp only [hpc] at hs
      split at hs
      · cases hs
      · next hready => exact .inr (.inl ⟨result, rfl, by simpa using hready⟩)
  | returned => exact .inr (.inr rfl)
  | compress p =>
      simp only [hpc] at hs
      split at hs <;> cases hs
  | _ =>
      simp only [hpc] at hs
      cases hs

theorem outputStep_none (hs : outputStep config s = none) :
    (s.outputPc = .waitOutput ∧ (s.threads s.outputIndex).outputEvent = false) ∨ s.outputPc = .returned := by
  rw [outputStep] at hs
  cases hpc : s.outputPc with
  | waitOutput =>
      simp only [hpc] at hs
      split at hs
      · cases hs
      · next hevent => exact .inl ⟨rfl, by simpa using hevent⟩
  | returned => exact .inr rfl
  | _ =>
      simp only [hpc] at hs
      cases hs

section Blocked

variable {pp : ProducerPhase} {op : OutputPhase}

/-- The producer waits in `CompressAndWrite`, or collects the threads in `Shutdown`. -/
def ProducerPhase.waits : ProducerPhase → Bool
  | .away => true
  | .ready => true
  | .done => true
  | .output => true
  | _ => false

theorem pending_of_blocked (hok : ThreadOk pp .away (s.threads i)) (hpp : pp.waits = true)
    (hevent : (s.threads i).outputEvent = false) (hs : compressStep config s i = none) :
    pending config (s.threads i) = [] := by
  obtain ⟨hfront, hdone, hback⟩ := hok
  rcases compressStep_none hs with ⟨hpc, hcompress⟩ | ⟨result, hpc, hready⟩ | hpc
  · rw [hpc, hcompress] at hfront
    rw [hpc, hevent] at hback
    have hslot : (s.threads i).compressParameters = none := by
      cases hp : (s.threads i).compressParameters with
      | none => rfl
      | some p => cases pp <;> simp_all [frontOk, ProducerPhase.waits, CompressPc.phase]
    have hslot' : (s.threads i).outputParameters = none := by
      cases hp : (s.threads i).outputParameters with
      | none => rfl
      | some p => cases pp <;> simp_all [backOk, ProducerPhase.waits, CompressPc.phase]
    simp [pending, hpc, CompressPc.holding, hslot, hslot']
  · rw [hpc] at hdone
    rw [hpc, hready, hevent] at hback
    cases pp <;> simp_all [backOk, doneOk, ProducerPhase.waits, CompressPc.phase]
  · rw [hpc] at hfront
    cases pp <;> simp_all [frontOk, ProducerPhase.waits, CompressPc.phase, CompressPhase.busy]

theorem holding_waitOutput : (OutputPc.waitOutput : OutputPc O).holding = [] := rfl

theorem Inv.pending_nil_of_blocked (h : Inv config s) (hturn : InTurn config s.submitted)
    (hwaits : ∀ i < config.threads, (s.producer.phase s.currentIndex i).waits = true)
    (hcompress : ∀ i < config.threads, MultithreadedCompressor.compressStep config s i = none)
    (houtput : MultithreadedCompressor.outputStep config s = none) :
    s.outputPc = .waitOutput ∧ ∀ i < config.threads, pending config (s.threads i) = [] := by
  have hindex := h.outputIndex_lt
  have hthread := h.threads s.outputIndex hindex
  have hphase := hwaits s.outputIndex hindex
  rcases outputStep_none houtput with ⟨hpc, hevent⟩ | hpc
  · refine ⟨hpc, ?_⟩
    rw [hpc] at hthread
    have hnil := pending_of_blocked hthread hphase hevent (hcompress _ hindex)
    -- the next output would be on its way in this thread
    have hall : s.outputs = expected config s.submitted := by
      have hprefix := h.outputs_prefix hturn
      rw [hpc, holding_waitOutput, List.append_nil] at hprefix
      apply hprefix.eq_of_length_le
      by_contra hlt
      have hlane := h.lanes_expected hturn hindex
      rw [hpc, holding_waitOutput, List.append_nil, hnil, List.map_nil, List.append_nil] at hlane
      have hnext := getElem?_eq_lane config.threads_pos s.outputs.length (expected config s.submitted)
      rw [← h.index, hlane, h.index, ← getElem?_eq_lane config.threads_pos, List.getElem?_length] at hnext
      rw [List.getElem?_eq_none_iff] at hnext
      exact hlt hnext
    intro i hi
    have hlane := h.lanes_expected hturn hi
    rw [hpc, holding_waitOutput, List.append_nil, ← hall] at hlane
    simpa using hlane
  · rw [hpc, OutputPc.phase, if_pos rfl] at hthread
    have hback := hthread.back
    revert hphase hback
    cases s.producer.phase s.currentIndex s.outputIndex <;> intro hphase hback <;>
      simp [backOk, ProducerPhase.waits] at hphase hback

theorem ready_of_blocked (hok : ThreadOk .away op (s.threads i)) (hs : compressStep config s i = none)
    (hnil : pending config (s.threads i) = []) : (s.threads i).compressReady = true := by
  have hfront := hok.front
  rcases compressStep_none hs with ⟨hpc, hcompress⟩ | ⟨result, hpc, -⟩ | hpc
  · rw [hpc, hcompress] at hfront
    simp_all [frontOk, CompressPc.phase]
  · simp [pending, hpc, CompressPc.holding] at hnil
  · rw [hpc] at hfront
    simp [frontOk, CompressPc.phase] at hfront

theorem done_of_blocked (hok : ThreadOk .ready op (s.threads i)) (hs : compressStep config s i = none)
    (hnil : pending config (s.threads i) = []) : (s.threads i).compressDone = true := by
  have hdone := hok.done
  rcases compressStep_none hs with ⟨hpc, -⟩ | ⟨result, hpc, -⟩ | hpc
  · rw [hpc] at hdone
    simpa [doneOk, CompressPc.phase] using hdone
  · simp [pending, hpc, CompressPc.holding] at hnil
  · rw [hpc] at hdone
    simp [doneOk, CompressPc.phase] at hdone

theorem outputReady_of_blocked (hok : ThreadOk .done .away (s.threads i))
    (hnil : pending config (s.threads i) = []) : (s.threads i).outputReady = true := by
  have hback := hok.back
  have hslot : (s.threads i).outputParameters = none := by
    cases hp : (s.threads i).outputParameters with
    | none => rfl
    | some o => simp [pending, hp] at hnil
  rw [hslot, waiting_of_doneOk hok.done] at hback
  cases hready : (s.threads i).outputReady with
  | true => rfl
  | false =>
      cases hevent : (s.threads i).outputEvent <;> simp [backOk, hready, hevent] at hback

theorem returned_of_blocked (hok : ThreadOk .released op (s.threads i)) (hs : compressStep config s i = none) :
    (s.threads i).pc = .returned := by
  have hfront := hok.front
  have hdone := hok.done
  rcases compressStep_none hs with ⟨hpc, hcompress⟩ | ⟨result, hpc, -⟩ | hpc
  · rw [hpc, hcompress] at hfront
    simp [frontOk, CompressPc.phase] at hfront
  · rw [hpc] at hdone
    simp [doneOk, CompressPc.phase] at hdone
  · exact hpc

end Blocked

/-- The step submits parameters that can be compressed only when the number of those that could not is a multiple of the
number of threads. -/
def submitsInTurn (config : Config P O) (s : State P O) (a : Action P) : Bool :=
  match a, s.producer with
  | .producer, .storeParameters p =>
      (compressed config (some p)).isNone ||
        s.submitted.countP (fun q => (compressed config (some q)).isNone) % config.threads = 0
  | _, _ => true

theorem length_filterMap_add (f : P → Option O) (l : List P) :
    (l.filterMap f).length + l.countP (fun p => (f p).isNone) = l.length := by
  induction l with
  | nil => rfl
  | cons p l ih =>
      cases hp : f p with
      | none =>
          rw [List.filterMap_cons_none hp, List.countP_cons, hp, List.length_cons, ← ih]
          rfl
      | some o =>
          rw [List.filterMap_cons_some hp, List.countP_cons, hp, List.length_cons, List.length_cons, ← ih]
          simp only [Option.isNone_some, Bool.false_eq_true, if_false, Nat.add_zero]
          omega

theorem InTurn.append {submitted : List P} {p : P} (h : InTurn config submitted)
    (hp : (compressed config (some p)).isSome →
      submitted.countP (fun q => (compressed config (some q)).isNone) % config.threads = 0) :
    InTurn config (submitted ++ [p]) := by
  intro before q hbefore hq
  cases List.prefix_concat_iff.mp hbefore with
  | inl heq =>
      obtain ⟨hb, hpq⟩ := List.append_inj' heq rfl
      rw [List.singleton_inj] at hpq
      rw [hb, ← length_filterMap_add (fun p => compressed config (some p)) submitted, Nat.add_mod, hp (hpq ▸ hq),
        Nat.add_zero, Nat.mod_mod]
  | inr hmore => exact h before q hmore hq

theorem inTurn_of_reach
    (h : Reach (MultithreadedCompressor.step config) (fun s a => submitsInTurn config s a = true) {} s) :
    InTurn config s.submitted := by
  refine h.invariant (fun s => InTurn config s.submitted) ?_ ?_
  · intro before p hbefore
    have := hbefore.length_le
    simp at this
  · intro s a s' hturn hok hs
    rcases step_call hs with ⟨producer, -, rfl⟩ | ⟨error, -, rfl⟩ | ⟨rfl, hs⟩ | ⟨i, -, hs⟩ | hs
    · exact hturn
    · exact hturn
    · rcases producerStep_submitted hs with hsame | ⟨p, hp, hmore⟩
      · rw [hsame]
        exact hturn
      · rw [hmore]
        refine hturn.append fun hsome => ?_
        simp only [submitsInTurn, hp, Bool.or_eq_true, decide_eq_true_eq] at hok
        cases hok with
        | inl hnone =>
            rw [Option.isNone_iff_eq_none] at hnone
            rw [hnone] at hsome
            cases hsome
        | inr hcount => exact hcount
    · rw [(compressStep_frame hs).2.2]
      exact hturn
    · rw [(outputStep_frame hs).2]
      exact hturn

/-- When no parameters that can be compressed come out of turn, the producer is not blocked for good. -/
theorem not_deadlocked (config : Config P O) {s : State P O}
    (h : Reach (MultithreadedCompressor.step config) (fun s a => submitsInTurn config s a = true) {} s) :
    ¬ Deadlocked config s := by
  rintro ⟨hout, hend, hproducer, hcompress, houtput⟩
  have hinv := inv_of_reach h
  have hturn := inTurn_of_reach h
  rw [producerStep] at hproducer
  cases hp : s.producer with
  | outside => exact hout hp
  | shutdownDone => exact hend hp
  | waitReady p =>
      simp only [hp] at hproducer
      have hphase : ∀ i, s.producer.phase s.currentIndex i = .away := fun i => by rw [hp]; rfl
      have hcurrent := hinv.current.of_plain (by rw [hp]; trivial)
      have hlt : s.currentIndex < config.threads := by
        rw [hcurrent]
        exact Nat.mod_lt _ config.threads_pos
      obtain ⟨-, hnil⟩ := hinv.pending_nil_of_blocked hturn (fun i _ => by rw [hphase]; rfl) hcompress houtput
      have hthread := hinv.threads s.currentIndex hlt
      rw [hphase] at hthread
      rw [ready_of_blocked hthread (hcompress _ hlt) (hnil _ hlt)] at hproducer
      cases hproducer
  | shutdownWaitReady i =>
      simp only [hp] at hproducer
      have hi : i < config.threads := by
        have := hinv.round
        rw [hp] at this
        exact this
      obtain ⟨-, hnil⟩ := hinv.pending_nil_of_blocked hturn
        (fun j _ => by rw [hp, ProducerPc.phase]; split <;> rfl) hcompress houtput
      have hthread := hinv.threads i hi
      rw [hp, ProducerPc.phase, if_neg (Nat.lt_irrefl i)] at hthread
      rw [ready_of_blocked hthread (hcompress _ hi) (hnil _ hi)] at hproducer
      cases hproducer
  | shutdownWaitDone i =>
      simp only [hp] at hproducer
      have hi : i < config.threads := by
        have := hinv.round
        rw [hp] at this
        exact this
      obtain ⟨-, hnil⟩ := hinv.pending_nil_of_blocked hturn
        (fun j _ => by rw [hp, ProducerPc.phase]; split <;> rfl) hcompress houtput
      have hthread := hinv.threads i hi
      rw [hp, ProducerPc.phase, if_neg (Nat.lt_irrefl i)] at hthread
      rw [done_of_blocked hthread (hcompress _ hi) (hnil _ hi)] at hproducer
      cases hproducer
  | shutdownWaitOutput i =>
      simp only [hp] at hproducer
      have hi : i < config.threads := by
        have := hinv.round
        rw [hp] at this
        exact this
      obtain ⟨hpc, hnil⟩ := hinv.pending_nil_of_blocked hturn
        (fun j _ => by rw [hp, ProducerPc.phase]; split <;> rfl) hcompress houtput
      have hthread := hinv.threads i hi
      rw [hp, ProducerPc.phase, if_neg (Nat.lt_irrefl i), hpc] at hthread
      rw [outputReady_of_blocked hthread (hnil _ hi)] at hproducer
      cases hproducer
  | shutdownJoin i =>
      simp only [hp] at hproducer
      have hi : i < config.threads := by
        have := hinv.round
        rw [hp] at this
        exact this
      have hthread := hinv.threads i hi
      rw [hp] at hthread
      rw [returned_of_blocked hthread (hcompress _ hi)] at hproducer
      cases hproducer
  | shutdownJoinOutput =>
      simp only [hp] at hproducer
      rcases outputStep_none houtput with ⟨hpc, hevent⟩ | hpc
      · have hback := (hinv.threads s.outputIndex hinv.outputIndex_lt).back
        rw [hp, hpc, hevent] at hback
        simp [ProducerPc.phase, OutputPc.phase, backOk] at hback
      · rw [hpc] at hproducer
        cases hproducer
  | checkStatus p =>
      simp only [hp] at hproducer
      cases hproducer
  | storeParameters p =>
      simp only [hp] at hproducer
      cases hproducer
  | signalCompress =>
      simp only [hp] at hproducer
      cases hproducer
  | shutdownStore =>
      simp only [hp] at hproducer
      cases hproducer
  | shutdownCompress i =>
      simp only [hp] at hproducer
      cases hproducer
  | shutdownOutput i =>
      simp only [hp] at hproducer
      cases hproducer

/-! ## Two threads -/

def twoThreads : Config Nat Nat where
  threads := 2
  threads_pos := Nat.two_pos
  setUpCompressThreadState _ := .success
  compress
    | some (p + 1) => .ok p
    | _ => .error .internalError
  output _ _ := .success

def startAndSubmit (submitted : List Nat) : List (Action Nat) :=
  List.replicate 3 (Action.compress 0) ++ List.replicate 3 (Action.compress 1) ++ List.replicate 2 Action.output ++
    submitted.flatMap fun p => Action.compressAndWrite p :: List.replicate 4 Action.producer

/-- The first number cannot be compressed. The output thread waits for it, and `Shutdown` for the second one. -/
theorem twoThreads_deadlock : ∃ s, Reach (step twoThreads) anyStep {} s ∧ Deadlocked twoThreads s := by
  refine ⟨_, @reach_of_run _ _ _ (startAndSubmit [0, 1] ++ List.replicate 8 (Action.compress 0) ++
    List.replicate 10 (Action.compress 1) ++ Action.shutdown :: List.replicate 5 Action.producer) _ _ rfl, nofun, nofun, rfl, ?_, rfl⟩
  intro i hi
  match i, hi with
  | 0, _ => rfl
  | 1, _ => rfl

/-- Two numbers that cannot be compressed come before one that can. -/
def turnSchedule : List (Action Nat) :=
  startAndSubmit [0, 0] ++ List.replicate 5 (Action.compress 0) ++ Action.compressAndWrite 5 ::
    List.replicate 4 Action.producer ++ List.replicate 3 (Action.compress 0) ++ List.replicate 8 (Action.compress 1) ++
      List.replicate 10 (Action.compress 0) ++ [Action.shutdown]

theorem twoThreads_not_deadlocked : ∃ s, Reach (step twoThreads) (fun s a => submitsInTurn twoThreads s a = true) {} s ∧
    s.submitted = [0, 0, 5] ∧ ¬ Deadlocked twoThreads s := by
  have hrun : (run (fun s a => if submitsInTurn twoThreads s a = true then step twoThreads s a else none) {}
      turnSchedule).map (·.submitted) = some [0, 0, 5] := by
    decide +kernel
  obtain ⟨s, hs, hsubmitted⟩ := Option.map_eq_some_iff.mp hrun
  have hreach := reach_of_guarded hs
  exact ⟨s, hreach, hsubmitted, not_deadlocked twoThreads hreach⟩

def copyingThreads : Config Nat Nat := { twoThreads with compress := fun p => .ok (p.getD 0) }

def copySchedule : List (Action Nat) :=
  startAndSubmit [1, 2] ++ List.replicate 10 (Action.compress 1) ++ List.replicate 10 (Action.compress 0) ++
    List.replicate 10 Action.output ++ Action.shutdown :: List.replicate 11 Action.producer ++
    List.replicate 2 (Action.compress 0) ++ List.replicate 2 (Action.compress 1) ++ List.replicate 2 Action.output ++
    List.replicate 3 Action.producer

theorem copyingThreads_output : ∃ s, run (step copyingThreads) {} copySchedule = some s ∧ s.submitted = [1, 2] ∧
    s.outputs = s.submitted.map some := by
  have hrun : (run (step copyingThreads) {} copySchedule).map (fun s => (s.submitted, s.producer)) =
      some ([1, 2], .shutdownDone) := by
    decide +kernel
  obtain ⟨s, hs, hend⟩ := Option.map_eq_some_iff.mp hrun
  obtain ⟨hsubmitted, hdone⟩ := Prod.mk.inj hend
  exact ⟨s, hs, hsubmitted, (output_in_order copyingThreads (fun _ => rfl) (reach_of_run hs)).2.1 hdone⟩

end Karphin.DiscIO.MultithreadedCompressor
