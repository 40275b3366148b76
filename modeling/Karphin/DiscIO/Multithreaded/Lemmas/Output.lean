import Karphin.DiscIO.Multithreaded.Lemmas.Producer

/-!
# Steps of the output thread, and all reachable states
-/

namespace Karphin.DiscIO.MultithreadedCompressor

open Karphin.Lib

variable {P O : Type} {config : Config P O} {s s' : State P O} {i j : Nat}

/-! ## What a step does to the phases -/

section Phases

variable {pp : ProducerPhase} {op : OutputPhase} {k : CompressPhase} {ready event done filled : Bool}

theorem backOk_start (h : backOk pp .starting k ready event filled = true) :
    backOk pp .away k true event filled = true := by
  cases pp <;> cases k <;> cases event <;> simp_all [backOk]

theorem backOk_wake (h : backOk pp .away k ready true filled = true) :
    backOk pp .checking k ready false filled = true := by
  cases pp <;> cases k <;> simp_all [backOk]

theorem backOk_run (hc : pp ≠ .compressed) (hr : pp ≠ .released) (h : backOk pp .checking k ready event filled = true) :
    backOk pp .taking k ready event filled = true := by
  cases pp <;> cases k <;> simp_all [backOk]

theorem backOk_return (hs : pp = .output ∨ pp = .compressed ∨ pp = .released)
    (h : backOk pp .checking k ready event filled = true) : backOk pp .returned k ready event filled = true := by
  rcases hs with rfl | rfl | rfl <;> cases event <;> simp_all [backOk]

theorem backOk_taking_filled (h : backOk pp .taking k ready event filled = true) : filled = true := by
  cases pp <;> cases k <;> cases event <;> simp_all [backOk]

theorem backOk_take (h : backOk pp .taking k ready event filled = true) :
    backOk pp .taken k ready event false = true := by
  cases pp <;> cases k <;> cases event <;> simp_all [backOk]

theorem backOk_ready (h : backOk pp .taken k ready event filled = true) :
    backOk pp .away k true event filled = true := by
  cases pp <;> cases k <;> cases event <;> simp_all [backOk]

end Phases

/-! ## Every step -/

/-- What the output thread leaves alone, and the thread whose events it changes. -/
structure OutputStep (i : Nat) (t : CompressThread P O) (s s' : State P O) : Prop where
  threads : s'.threads = Function.update s.threads i t
  shuttingDown : s'.shuttingDown = s.shuttingDown
  producer : s'.producer = s.producer
  currentIndex : s'.currentIndex = s.currentIndex
  submitted : s'.submitted = s.submitted
  outputIndex : s'.outputIndex = s.outputIndex
  outputs : s'.outputs = s.outputs

theorem Inv.outputStep_of {t : CompressThread P O} (h : Inv config s) (hs : OutputStep i t s s')
    (hstart : s'.outputPc.round < config.threads)
    (hother : ∀ j < config.threads, j ≠ i → s'.outputPc.phase s.outputIndex j = s.outputPc.phase s.outputIndex j)
    (hok : ThreadOk (s.producer.phase s.currentIndex i) (s'.outputPc.phase s.outputIndex i) t)
    (hlanes : ∀ j < config.threads, ((lane config.threads j s.submitted).filterMap fun p => compressed config (some p)).map
        some = lane config.threads j (s.outputs ++ s'.outputPc.holding) ++
          (pending config (Function.update s.threads i t j)).map some) : Inv config s' := by
  refine ⟨?_, ?_, ?_, ?_, hstart, ?_, ?_⟩
  · have hcurrent := h.current
    rw [CurrentOk] at hcurrent ⊢
    rw [hs.producer, hs.submitted, hs.currentIndex]
    exact hcurrent
  · rw [hs.outputIndex, hs.outputs]
    exact h.index
  · rw [hs.shuttingDown, hs.producer]
    exact h.shutting
  · rw [hs.producer]
    exact h.round
  · intro j hj
    rw [hs.producer, hs.currentIndex, hs.outputIndex, hs.threads]
    by_cases hij : j = i
    · rw [hij, Function.update_self]
      exact hok
    · rw [Function.update_of_ne hij, hother j hj hij]
      exact h.threads j hj
  · intro j hj
    rw [hs.submitted, hs.outputs, hs.threads]
    exact hlanes j hj

theorem Inv.lanes_of_pending {t : CompressThread P O} (h : Inv config s)
    (hpending : pending config t = pending config (s.threads i)) :
    ∀ j < config.threads, ((lane config.threads j s.submitted).filterMap fun p => compressed config (some p)).map some =
      lane config.threads j (s.outputs ++ s.outputPc.holding) ++
        (pending config (Function.update s.threads i t j)).map some := by
  intro j hj
  by_cases hij : j = i
  · rw [hij, Function.update_self, hpending, ← hij]
    exact h.lanes j hj
  · rw [Function.update_of_ne hij]
    exact h.lanes j hj

theorem Inv.outputIndex_lt (h : Inv config s) : s.outputIndex < config.threads := by
  rw [h.index]
  exact Nat.mod_lt _ config.threads_pos

theorem phase_checking_other {index : Nat} (h : j ≠ index) :
    (OutputPc.checkShuttingDown : OutputPc O).phase index j = .away := by
  rw [OutputPc.phase, if_neg fun heq => h heq.symm]

theorem phase_taking_other {index : Nat} (h : j ≠ index) :
    (OutputPc.takeParameters : OutputPc O).phase index j = .away := by
  rw [OutputPc.phase, if_neg fun heq => h heq.symm]

theorem phase_taken_other {index : Nat} {p : Option O} (h : j ≠ index) :
    (OutputPc.signalReady p).phase index j = .away := by
  rw [OutputPc.phase, if_neg fun heq => h heq.symm]

theorem phase_returned_other {index : Nat} (h : j ≠ index) :
    (OutputPc.returned : OutputPc O).phase index j = .away := by
  rw [OutputPc.phase, if_neg fun heq => h heq.symm]

theorem Inv.takeParameters (h : Inv config s) (hpc : s.outputPc = .takeParameters) :
    Inv config { s.setThread s.outputIndex { s.threads s.outputIndex with outputParameters := none } with
      outputPc := .signalReady (s.threads s.outputIndex).outputParameters } := by
  have hthread := h.threads s.outputIndex h.outputIndex_lt
  rw [hpc, OutputPc.phase, if_pos rfl] at hthread
  have hfilled := backOk_taking_filled hthread.back
  obtain ⟨o, ho⟩ := Option.isSome_iff_exists.mp hfilled
  refine h.outputStep_of ⟨rfl, rfl, rfl, rfl, rfl, rfl, rfl⟩ config.threads_pos ?_ ?_ ?_
  · intro j _ hne
    rw [hpc]
    exact (phase_taken_other hne).trans (phase_taking_other hne).symm
  · simp only [OutputPc.phase, if_true]
    exact ⟨hthread.front, hthread.done, backOk_take hthread.back⟩
  · intro j hj
    have hlane := h.lanes j hj
    rw [hpc] at hlane
    simp only [OutputPc.holding, List.append_nil] at hlane ⊢
    by_cases hij : j = s.outputIndex
    · have hturn : s.outputs.length % config.threads = j := by rw [hij, h.index]
      rw [lane_append_singleton hj, if_pos hturn, hlane, hij, Function.update_self]
      simp only [pending, ho, Option.toList_some, Option.toList_none, List.nil_append, List.append_assoc,
        List.map_append, List.map_cons, List.map_nil]
    · have hturn : s.outputs.length % config.threads ≠ j := fun heq => hij (heq.symm.trans h.index.symm)
      rw [lane_append_other hj hturn, Function.update_of_ne hij]
      exact hlane

theorem Inv.output {p : Option O} {pc : OutputPc O} (h : Inv config s) (hpc : s.outputPc = .output p)
    (hphase : ∀ index j, pc.phase index j = .away) (hholding : pc.holding = []) (hround : pc.round = 0) :
    Inv config { s with
      outputs := s.outputs ++ [p], outputIndex := nextIndex config s.outputIndex, outputPc := pc } := by
  refine ⟨?_, ?_, h.shutting, h.round, ?_, ?_, ?_⟩
  · have hcurrent := h.current
    rw [CurrentOk] at hcurrent ⊢
    exact hcurrent
  · simp only [List.length_append, List.length_singleton]
    rw [h.index, nextIndex_mod]
  · simp only [hround]
    exact config.threads_pos
  · intro j hj
    have ht := h.threads j hj
    rw [hpc] at ht
    simp only [hphase]
    exact ht
  · intro j hj
    have hlane := h.lanes j hj
    rw [hpc] at hlane
    simp only [hholding, List.append_nil]
    exact hlane

theorem Inv.outputStep (h : Inv config s) (hs : MultithreadedCompressor.outputStep config s = some s') :
    Inv config s' := by
  rw [MultithreadedCompressor.outputStep] at hs
  cases hpc : s.outputPc with
  | start i =>
      simp only [hpc, Option.some.injEq] at hs
      subst hs
      have hi : i < config.threads := by
        have := h.start
        rw [hpc] at this
        exact this
      have hthread := h.threads i hi
      rw [hpc, OutputPc.phase, if_pos (Nat.le_refl i)] at hthread
      have hlanes := h.lanes_of_pending (i := i) (t := { s.threads i with outputReady := true }) rfl
      rw [hpc] at hlanes
      by_cases hlast : i + 1 < config.threads
      · simp only [if_pos hlast]
        refine h.outputStep_of ⟨rfl, rfl, rfl, rfl, rfl, rfl, rfl⟩ hlast ?_ ?_ hlanes
        · intro j _ hne
          rw [hpc]
          have hround : (i + 1 ≤ j) = (i ≤ j) := by
            rw [eq_iff_iff]
            omega
          simp only [OutputPc.phase, hround]
        · simp only [OutputPc.phase, if_neg (Nat.not_succ_le_self i)]
          exact ⟨hthread.front, hthread.done, backOk_start hthread.back⟩
      · simp only [if_neg hlast]
        refine h.outputStep_of ⟨rfl, rfl, rfl, rfl, rfl, rfl, rfl⟩ config.threads_pos ?_ ?_ hlanes
        · intro j hj hne
          rw [hpc, OutputPc.phase, OutputPc.phase, if_neg (by omega)]
        · exact ⟨hthread.front, hthread.done, backOk_start hthread.back⟩
  | waitOutput =>
      simp only [hpc] at hs
      cases hevent : (s.threads s.outputIndex).outputEvent with
      | false =>
          rw [hevent] at hs
          cases hs
      | true =>
          simp only [hevent, if_true, Option.some.injEq] at hs
          subst hs
          have hthread := h.threads s.outputIndex h.outputIndex_lt
          rw [hpc, OutputPc.phase] at hthread
          have hback := hthread.back
          rw [hevent] at hback
          have hlanes := h.lanes_of_pending (i := s.outputIndex)
            (t := { s.threads s.outputIndex with outputEvent := false }) rfl
          rw [hpc] at hlanes
          refine h.outputStep_of ⟨rfl, rfl, rfl, rfl, rfl, rfl, rfl⟩ config.threads_pos ?_ ?_ hlanes
          · intro j _ hne
            rw [hpc]
            exact phase_checking_other hne
          · simp only [OutputPc.phase, if_true]
            exact ⟨hthread.front, hthread.done, backOk_wake hback⟩
  | checkShuttingDown =>
      simp only [hpc, Option.some.injEq] at hs
      subst hs
      have hthread := h.threads s.outputIndex h.outputIndex_lt
      rw [hpc, OutputPc.phase, if_pos rfl] at hthread
      have hlanes := h.lanes_of_pending (i := s.outputIndex) (t := s.threads s.outputIndex) rfl
      rw [hpc] at hlanes
      have hsame : s.threads = Function.update s.threads s.outputIndex (s.threads s.outputIndex) :=
        (Function.update_eq_self ..).symm
      cases hshutting : s.shuttingDown with
      | false =>
          obtain ⟨hc, hr⟩ := h.phase_of_running hshutting s.outputIndex
          simp only [Bool.false_eq_true, if_false]
          refine h.outputStep_of ⟨hsame, hshutting.symm, rfl, rfl, rfl, rfl, rfl⟩ config.threads_pos ?_ ?_ hlanes
          · intro j _ hne
            rw [hpc]
            exact (phase_taking_other hne).trans (phase_checking_other hne).symm
          · simp only [OutputPc.phase, if_true]
            exact ⟨hthread.front, hthread.done, backOk_run hc hr hthread.back⟩
      | true =>
          have hphase := h.phase_of_shutting hshutting s.outputIndex
          simp only [if_true]
          refine h.outputStep_of ⟨hsame, hshutting.symm, rfl, rfl, rfl, rfl, rfl⟩ config.threads_pos ?_ ?_ hlanes
          · intro j _ hne
            rw [hpc]
            exact (phase_returned_other hne).trans (phase_checking_other hne).symm
          · simp only [OutputPc.phase, if_true]
            exact ⟨hthread.front, hthread.done, backOk_return hphase hthread.back⟩
  | takeParameters =>
      simp only [hpc, Option.some.injEq] at hs
      subst hs
      exact h.takeParameters hpc
  | signalReady p =>
      simp only [hpc, Option.some.injEq] at hs
      subst hs
      have hthread := h.threads s.outputIndex h.outputIndex_lt
      rw [hpc, OutputPc.phase, if_pos rfl] at hthread
      have hlanes := h.lanes_of_pending (i := s.outputIndex)
        (t := { s.threads s.outputIndex with outputReady := true }) rfl
      rw [hpc] at hlanes
      refine h.outputStep_of ⟨rfl, rfl, rfl, rfl, rfl, rfl, rfl⟩ config.threads_pos ?_ ?_ hlanes
      · intro j _ hne
        rw [hpc]
        exact (phase_taken_other hne).symm
      · exact ⟨hthread.front, hthread.done, backOk_ready hthread.back⟩
  | output p =>
      simp only [hpc, Option.some.injEq] at hs
      subst hs
      split
      · exact h.output hpc (fun _ _ => rfl) rfl rfl
      · exact h.output hpc (fun _ _ => rfl) rfl rfl
  | failed error =>
      simp only [hpc, Option.some.injEq] at hs
      subst hs
      refine ⟨?_, h.index, h.shutting, h.round, config.threads_pos, ?_, ?_⟩
      · have hcurrent := h.current
        rw [CurrentOk] at hcurrent ⊢
        exact hcurrent
      · intro j hj
        have ht := h.threads j hj
        rw [hpc] at ht
        exact ht
      · intro j hj
        have hlane := h.lanes j hj
        rw [hpc] at hlane
        exact hlane
  | returned =>
      simp only [hpc] at hs
      cases hs

/-! ## All reachable states -/

theorem Inv.step {a : Action P} (h : Inv config s) (hs : MultithreadedCompressor.step config s a = some s') :
    Inv config s' := by
  cases a with
  | compressAndWrite p =>
      cases hp : s.producer with
      | outside =>
          simp only [MultithreadedCompressor.step, hp, Option.some.injEq] at hs
          subst hs
          exact h.producerStep_none (fun j _ => by rw [hp]; rfl) (by rw [hp]; trivial) trivial (by rw [hp]; rfl)
            config.threads_pos
      | _ =>
          simp only [MultithreadedCompressor.step, hp] at hs
          cases hs
  | setError error =>
      cases hp : s.producer with
      | outside =>
          simp only [MultithreadedCompressor.step, hp, Option.some.injEq] at hs
          subst hs
          refine ⟨?_, h.index, h.shutting, h.round, h.start, h.threads, h.lanes⟩
          have hcurrent := h.current
          rw [CurrentOk] at hcurrent ⊢
          exact hcurrent
      | _ =>
          simp only [MultithreadedCompressor.step, hp] at hs
          cases hs
  | shutdown =>
      cases hp : s.producer with
      | outside =>
          simp only [MultithreadedCompressor.step, hp, Option.some.injEq] at hs
          subst hs
          refine h.producerStep_none (fun j _ => ?_) (by rw [hp]; trivial) trivial (by rw [hp]; rfl) config.threads_pos
          rw [hp]
          simp only [ProducerPc.phase, Nat.not_lt_zero, if_false]
      | _ =>
          simp only [MultithreadedCompressor.step, hp] at hs
          cases hs
  | producer => exact h.producerStep hs
  | compress i =>
      simp only [MultithreadedCompressor.step] at hs
      split at hs
      · next hi => exact h.compressStep hi hs
      · cases hs
  | output => exact h.outputStep hs

theorem inv_of_reach {ok : State P O → Action P → Prop} (h : Reach (MultithreadedCompressor.step config) ok {} s) :
    Inv config s :=
  h.invariant (Inv config) (inv_start config) fun hinv _ hs => hinv.step hs

end Karphin.DiscIO.MultithreadedCompressor
