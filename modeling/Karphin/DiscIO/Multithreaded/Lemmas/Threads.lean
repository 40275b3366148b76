import Karphin.DiscIO.Multithreaded.Lemmas.Phases

/-!
# Steps of the compression threads
-/

namespace Karphin.DiscIO.MultithreadedCompressor

open Karphin.Lib

variable {P O : Type} {config : Config P O} {s s' : State P O} {i j : Nat}

/-- The state when only one thread, and perhaps the result, has changed. -/
structure ThreadStep (i : Nat) (t : CompressThread P O) (s s' : State P O) : Prop where
  threads : s'.threads = Function.update s.threads i t
  shuttingDown : s'.shuttingDown = s.shuttingDown
  producer : s'.producer = s.producer
  currentIndex : s'.currentIndex = s.currentIndex
  outputPc : s'.outputPc = s.outputPc
  outputIndex : s'.outputIndex = s.outputIndex
  submitted : s'.submitted = s.submitted
  outputs : s'.outputs = s.outputs

theorem threadStep_setThread (s : State P O) (i : Nat) (t : CompressThread P O) :
    ThreadStep i t s (s.setThread i t) := ⟨rfl, rfl, rfl, rfl, rfl, rfl, rfl, rfl⟩

theorem threadStep_setError (s : State P O) (error : ConversionResultCode) (i : Nat) (t : CompressThread P O) :
    ThreadStep i t s ((s.setError error).setThread i t) := ⟨rfl, rfl, rfl, rfl, rfl, rfl, rfl, rfl⟩

theorem Inv.threadStep {t : CompressThread P O} (h : Inv config s) (hs : ThreadStep i t s s')
    (hok : ThreadOk (s.producer.phase s.currentIndex i) (s.outputPc.phase s.outputIndex i) t)
    (hpending : pending config t = pending config (s.threads i)) : Inv config s' := by
  have hother : ∀ j ≠ i, s'.threads j = s.threads j := by
    intro j hj
    rw [hs.threads, Function.update_of_ne hj]
  have hself : s'.threads i = t := by rw [hs.threads, Function.update_self]
  constructor
  · have hcurrent := h.current
    rw [CurrentOk] at hcurrent ⊢
    rw [hs.producer, hs.submitted, hs.currentIndex]
    exact hcurrent
  · rw [hs.outputIndex, hs.outputs]
    exact h.index
  · rw [hs.shuttingDown, hs.producer]
    exact h.shutting
  · rw [hs.producer]
    exact h.round
  · rw [hs.outputPc]
    exact h.start
  · intro j hj
    rw [hs.producer, hs.currentIndex, hs.outputPc, hs.outputIndex]
    by_cases hij : j = i
    · rw [hij, hself]
      exact hok
    · rw [hother j hij]
      exact h.threads j hj
  · intro j hj
    rw [hs.submitted, hs.outputs, hs.outputPc]
    by_cases hij : j = i
    · rw [hij, hself, hpending, ← hij]
      exact h.lanes j hj
    · rw [hother j hij]
      exact h.lanes j hj

theorem Inv.phase_of_running (h : Inv config s) (hs : s.shuttingDown = false) (i : Nat) :
    s.producer.phase s.currentIndex i ≠ .compressed ∧ s.producer.phase s.currentIndex i ≠ .released := by
  have hflag := h.shutting
  rw [hs] at hflag
  cases hp : s.producer <;> rw [hp] at hflag <;>
    first
    | cases hflag; done
    | (simp only [ProducerPc.phase]; split <;> simp)
    | simp [ProducerPc.phase]

theorem Inv.phase_of_shutting (h : Inv config s) (hs : s.shuttingDown = true) (i : Nat) :
    s.producer.phase s.currentIndex i = .output ∨ s.producer.phase s.currentIndex i = .compressed ∨
      s.producer.phase s.currentIndex i = .released := by
  have hflag := h.shutting
  rw [hs] at hflag
  cases hp : s.producer <;> rw [hp] at hflag <;>
    first
    | cases hflag; done
    | (simp only [ProducerPc.phase]; split <;> simp)
    | simp [ProducerPc.phase]

/-! ## What a step does to the phases -/

section Phases

variable {pp : ProducerPhase} {op : OutputPhase} {k k' : CompressPhase} {ready event done filled : Bool}

attribute [local simp] frontOk doneOk backOk CompressPhase.busy

theorem frontOk_firstReady (h : frontOk pp .starting ready event filled = true) :
    frontOk pp .firstDone true event filled = true := by
  cases pp <;> simp_all

theorem frontOk_busy (hk : (k.busy && k != .waiting) = true) :
    frontOk pp k ready event filled = frontOk pp .working ready event filled := by
  cases k with
  | starting => cases hk
  | waiting => cases hk
  | checking => cases hk
  | taking => cases hk
  | resetting => cases hk
  | signallingReady => cases hk
  | returned => cases hk
  | _ => cases pp <;> rfl

theorem frontOk_signalDone (h : frontOk pp .working ready event filled = true) :
    frontOk pp .waiting ready event filled = true := by
  cases pp <;> cases event <;> simp_all

theorem frontOk_wait (h : frontOk pp .waiting ready true filled = true) :
    frontOk pp .checking ready false filled = true := by
  cases pp <;> simp_all

theorem frontOk_run (hc : pp ≠ .compressed) (hr : pp ≠ .released) (h : frontOk pp .checking ready event filled = true) :
    frontOk pp .taking ready event filled = true := by
  cases pp <;> simp_all

theorem frontOk_return (hs : pp = .output ∨ pp = .compressed ∨ pp = .released)
    (h : frontOk pp .checking ready event filled = true) : frontOk pp .returned ready event filled = true := by
  rcases hs with rfl | rfl | rfl <;> cases event <;> simp_all

theorem frontOk_take (h : frontOk pp .taking ready event filled = true) :
    frontOk pp .resetting ready event false = true := by
  cases pp <;> cases event <;> simp_all

theorem frontOk_taking_filled (pp : ProducerPhase) (ready event : Bool) :
    ¬ frontOk pp .taking ready event false = true := by
  cases pp <;> cases event <;> simp

theorem frontOk_reset (h : frontOk pp .resetting ready event filled = true) :
    frontOk pp .signallingReady ready event filled = true := by
  cases pp <;> cases event <;> simp_all

theorem frontOk_signal (h : frontOk pp .signallingReady ready event filled = true) :
    frontOk pp .working true event filled = true := by
  cases pp <;> cases event <;> simp_all

def CompressPhase.undone : CompressPhase → Bool
  | .waiting => false
  | .checking => false
  | .taking => false
  | .resetting => false
  | .returned => false
  | _ => true

theorem doneOk_undone (hk : k.undone = true) : doneOk pp k done = doneOk pp .working done := by
  cases k with
  | waiting => cases hk
  | checking => cases hk
  | taking => cases hk
  | resetting => cases hk
  | returned => cases hk
  | _ => cases pp <;> rfl

theorem doneOk_signal (h : doneOk pp .working done = true) : doneOk pp .waiting true = true := by
  cases pp <;> simp_all

theorem doneOk_wait (hf : frontOk pp .waiting ready true filled = true) (h : doneOk pp .waiting done = true) :
    doneOk pp .checking done = true := by
  cases pp <;> simp_all

theorem doneOk_run (hc : pp ≠ .compressed) (hr : pp ≠ .released) (h : doneOk pp .checking done = true) :
    doneOk pp .taking done = true := by
  cases pp <;> simp_all

theorem doneOk_return (hs : pp = .output ∨ pp = .compressed ∨ pp = .released) (h : doneOk pp .checking done = true) :
    doneOk pp .returned done = true := by
  rcases hs with rfl | rfl | rfl <;> simp_all

theorem doneOk_take (h : doneOk pp .taking done = true) : doneOk pp .resetting done = true := by
  cases pp <;> simp_all

theorem doneOk_reset (h : doneOk pp .resetting done = true) : doneOk pp .signallingReady false = true := by
  cases pp <;> simp_all

def CompressPhase.outside : CompressPhase → Bool
  | .storing => false
  | .signalling => false
  | _ => true

theorem backOk_outside (hk : k.outside = true) :
    backOk pp op k ready event filled = backOk pp op .working ready event filled := by
  cases k with
  | storing => cases hk
  | signalling => cases hk
  | _ => cases pp <;> cases op <;> rfl

theorem backOk_wait (hd : doneOk pp .working done = true) (h : backOk pp op .working true event filled = true) :
    backOk pp op .storing false event filled = true := by
  cases pp <;> cases op <;> simp_all

theorem backOk_store (hd : doneOk pp .storing done = true) (h : backOk pp op .storing ready event filled = true) :
    backOk pp op .signalling ready event true = true := by
  cases pp <;> cases op <;> simp_all

theorem backOk_signal (hd : doneOk pp .signalling done = true) (h : backOk pp op .signalling ready event filled = true) :
    backOk pp op .finishing ready true filled = true := by
  cases pp <;> cases op <;> simp_all

theorem filled_of_storing (hd : doneOk pp .storing done = true) (h : backOk pp op .storing ready event filled = true) :
    filled = false := by
  cases pp <;> cases op <;> simp_all

end Phases

/-! ## Every step -/

theorem Inv.compressStep (h : Inv config s) (hi : i < config.threads)
    (hs : MultithreadedCompressor.compressStep config s i = some s') : Inv config s' := by
  obtain ⟨hfront, hdone, hback⟩ := h.threads i hi
  rw [MultithreadedCompressor.compressStep] at hs
  cases hpc : (s.threads i).pc with
  | setUp =>
      simp only [hpc, CompressPc.phase, Option.some.injEq] at hfront hdone hback hs
      subst hs
      split
      · refine h.threadStep (threadStep_setThread ..) ⟨hfront, hdone, hback⟩ ?_
        simp only [pending, hpc, CompressPc.holding]
      · refine h.threadStep (threadStep_setThread ..) ⟨hfront, hdone, hback⟩ ?_
        simp only [pending, hpc, CompressPc.holding]
  | setUpFailed error =>
      simp only [hpc, CompressPc.phase, Option.some.injEq] at hfront hdone hback hs
      subst hs
      refine h.threadStep (threadStep_setError ..) ⟨hfront, hdone, hback⟩ ?_
      simp only [pending, hpc, CompressPc.holding]
  | firstReady =>
      simp only [hpc, CompressPc.phase, Option.some.injEq] at hfront hdone hback hs
      subst hs
      refine h.threadStep (threadStep_setThread ..) ⟨frontOk_firstReady hfront, ?_, ?_⟩ ?_
      · exact (doneOk_undone rfl).trans ((doneOk_undone rfl).symm.trans hdone)
      · exact (backOk_outside rfl).trans ((backOk_outside rfl).symm.trans hback)
      · simp only [pending, hpc, CompressPc.holding]
  | firstDone =>
      simp only [hpc, CompressPc.phase, Option.some.injEq] at hfront hdone hback hs
      subst hs
      rw [frontOk_busy rfl] at hfront
      rw [doneOk_undone rfl] at hdone
      refine h.threadStep (threadStep_setThread ..) ⟨frontOk_signalDone hfront, doneOk_signal hdone, ?_⟩ ?_
      · exact (backOk_outside rfl).trans ((backOk_outside rfl).symm.trans hback)
      · simp only [pending, hpc, CompressPc.holding]
  | waitCompress =>
      simp only [hpc, CompressPc.phase] at hfront hdone hback hs
      cases hevent : (s.threads i).compressEvent with
      | false =>
          rw [hevent] at hs
          cases hs
      | true =>
          simp only [hevent, if_true, Option.some.injEq] at hfront hs
          subst hs
          refine h.threadStep (threadStep_setThread ..) ⟨frontOk_wait hfront, doneOk_wait hfront hdone, ?_⟩ ?_
          · exact (backOk_outside rfl).trans ((backOk_outside rfl).symm.trans hback)
          · simp only [pending, hpc, CompressPc.holding]
  | checkShuttingDown =>
      simp only [hpc, CompressPc.phase, Option.some.injEq] at hfront hdone hback hs
      subst hs
      cases hshutting : s.shuttingDown with
      | false =>
          obtain ⟨hc, hr⟩ := h.phase_of_running hshutting i
          simp only [Bool.false_eq_true, if_false]
          refine h.threadStep (threadStep_setThread ..) ⟨frontOk_run hc hr hfront, doneOk_run hc hr hdone, ?_⟩ ?_
          · exact (backOk_outside rfl).trans ((backOk_outside rfl).symm.trans hback)
          · simp only [pending, hpc, CompressPc.holding]
      | true =>
          have hphase := h.phase_of_shutting hshutting i
          simp only [if_true]
          refine h.threadStep (threadStep_setThread ..)
            ⟨frontOk_return hphase hfront, doneOk_return hphase hdone, ?_⟩ ?_
          · exact (backOk_outside rfl).trans ((backOk_outside rfl).symm.trans hback)
          · simp only [pending, hpc, CompressPc.holding]
  | takeParameters =>
      simp only [hpc, CompressPc.phase, Option.some.injEq] at hfront hdone hback hs
      subst hs
      refine h.threadStep (threadStep_setThread ..) ⟨frontOk_take hfront, doneOk_take hdone, ?_⟩ ?_
      · exact (backOk_outside rfl).trans ((backOk_outside rfl).symm.trans hback)
      · cases hslot : (s.threads i).compressParameters with
        | none =>
            rw [hslot] at hfront
            exact absurd hfront (frontOk_taking_filled _ _ _)
        | some p =>
            simp only [pending, hpc, CompressPc.holding, hslot, Option.toList_some, Option.toList_none,
              List.filterMap_cons, List.filterMap_nil, List.append_nil]
            cases compressed config (some p) <;> simp
  | resetDone p =>
      simp only [hpc, CompressPc.phase, Option.some.injEq] at hfront hdone hback hs
      subst hs
      refine h.threadStep (threadStep_setThread ..) ⟨frontOk_reset hfront, doneOk_reset hdone, ?_⟩ ?_
      · exact (backOk_outside rfl).trans ((backOk_outside rfl).symm.trans hback)
      · simp only [pending, hpc, CompressPc.holding]
  | signalReady p =>
      simp only [hpc, CompressPc.phase, Option.some.injEq] at hfront hdone hback hs
      subst hs
      rw [doneOk_undone rfl] at hdone
      refine h.threadStep (threadStep_setThread ..) ⟨frontOk_signal hfront, hdone, ?_⟩ ?_
      · exact (backOk_outside rfl).trans ((backOk_outside rfl).symm.trans hback)
      · simp only [pending, hpc, CompressPc.holding]
  | compress p =>
      simp only [hpc, CompressPc.phase] at hfront hdone hback hs
      cases hresult : config.compress p with
      | ok result =>
          simp only [hresult, Option.some.injEq] at hs
          subst hs
          refine h.threadStep (threadStep_setThread ..) ⟨hfront, hdone, hback⟩ ?_
          simp only [pending, hpc, CompressPc.holding, compressed, hresult, Except.toOption, Option.toList_some]
      | error error =>
          simp only [hresult, Option.some.injEq] at hs
          subst hs
          refine h.threadStep (threadStep_setThread ..) ⟨hfront, hdone, hback⟩ ?_
          simp only [pending, hpc, CompressPc.holding, compressed, hresult, Except.toOption, Option.toList_none]
  | failed error =>
      simp only [hpc, CompressPc.phase, Option.some.injEq] at hfront hdone hback hs
      subst hs
      refine h.threadStep (threadStep_setError ..) ⟨?_, ?_, ?_⟩ ?_
      · exact (frontOk_busy rfl).trans hfront
      · exact (doneOk_undone rfl).trans hdone
      · exact (backOk_outside rfl).trans hback
      · simp only [pending, hpc, CompressPc.holding]
  | waitOutputReady result =>
      simp only [hpc, CompressPc.phase] at hfront hdone hback hs
      cases hready : (s.threads i).outputReady with
      | false =>
          rw [hready] at hs
          cases hs
      | true =>
          simp only [hready, if_true, Option.some.injEq] at hback hs
          subst hs
          refine h.threadStep (threadStep_setThread ..) ⟨?_, ?_, backOk_wait hdone hback⟩ ?_
          · exact (frontOk_busy rfl).trans hfront
          · exact (doneOk_undone rfl).trans hdone
          · simp only [pending, hpc, CompressPc.holding]
  | storeParameters result =>
      simp only [hpc, CompressPc.phase, Option.some.injEq] at hfront hdone hback hs
      subst hs
      refine h.threadStep (threadStep_setThread ..) ⟨?_, ?_, backOk_store hdone hback⟩ ?_
      · exact (frontOk_busy rfl).trans ((frontOk_busy rfl).symm.trans hfront)
      · exact (doneOk_undone rfl).trans ((doneOk_undone rfl).symm.trans hdone)
      · have hslot := filled_of_storing hdone hback
        rw [Option.isSome_eq_false_iff, Option.isNone_iff_eq_none] at hslot
        simp only [pending, hpc, CompressPc.holding, hslot, Option.toList_some, Option.toList_none, List.nil_append,
          List.append_nil]
  | signalOutput =>
      simp only [hpc, CompressPc.phase, Option.some.injEq] at hfront hdone hback hs
      subst hs
      refine h.threadStep (threadStep_setThread ..) ⟨?_, ?_, backOk_signal hdone hback⟩ ?_
      · exact (frontOk_busy rfl).trans ((frontOk_busy rfl).symm.trans hfront)
      · exact (doneOk_undone rfl).trans ((doneOk_undone rfl).symm.trans hdone)
      · simp only [pending, hpc, CompressPc.holding]
  | signalDone =>
      simp only [hpc, CompressPc.phase, Option.some.injEq] at hfront hdone hback hs
      subst hs
      rw [frontOk_busy rfl] at hfront
      rw [doneOk_undone rfl] at hdone
      refine h.threadStep (threadStep_setThread ..) ⟨frontOk_signalDone hfront, doneOk_signal hdone, ?_⟩ ?_
      · exact (backOk_outside rfl).trans ((backOk_outside rfl).symm.trans hback)
      · simp only [pending, hpc, CompressPc.holding]
  | returned =>
      simp only [hpc] at hs
      cases hs

end Karphin.DiscIO.MultithreadedCompressor
