import Karphin.DiscIO.Multithreaded.Lemmas.Threads

/-!
# Steps of the producer
-/

namespace Karphin.DiscIO.MultithreadedCompressor

open Karphin.Lib

variable {P O : Type} {config : Config P O} {s s' : State P O} {i j : Nat}

/-! ## What a step does to the phases -/

section Phases

variable {pp : ProducerPhase} {op : OutputPhase} {k : CompressPhase} {ready event done filled : Bool}

theorem frontOk_collect (h : frontOk .away k true event filled = true) : frontOk .ready k false event filled = true := by
  cases k <;> cases event <;> simp_all [frontOk, CompressPhase.busy]

theorem frontOk_store (h : frontOk .storing k ready event filled = true) :
    frontOk .signalling k ready event true = true := by
  cases k <;> cases event <;> simp_all [frontOk, CompressPhase.busy]

theorem frontOk_storing_empty (h : frontOk .storing k ready event filled = true) : filled = false := by
  cases k <;> cases event <;> simp_all [frontOk, CompressPhase.busy]

theorem frontOk_send (h : frontOk .signalling k ready event filled = true) :
    frontOk .away k ready true filled = true := by
  cases k <;> cases event <;> simp_all [frontOk, CompressPhase.busy]

theorem waiting_of_done (hf : frontOk .ready k ready event filled = true) (hd : doneOk .ready k true = true) :
    k = .waiting := by
  cases k <;> simp_all [frontOk, doneOk, CompressPhase.busy]

theorem waiting_of_doneOk (hd : doneOk .done k done = true) : k = .waiting := by
  cases k <;> simp_all [doneOk]

theorem waiting_of_outputOk (hd : doneOk .output k done = true) : k = .waiting := by
  cases k <;> simp_all [doneOk]

theorem backOk_collect (h : backOk .done op .waiting true event filled = true) :
    backOk .output op .waiting false event filled = true := by
  cases op <;> cases event <;> simp_all [backOk]

theorem frontOk_end (h : frontOk .output .waiting ready event filled = true) :
    frontOk .compressed .waiting ready true filled = true := by
  cases ready <;> cases event <;> simp_all [frontOk, CompressPhase.busy]

theorem backOk_end (h : backOk .compressed op k ready event filled = true) :
    backOk .released op k ready true filled = true := by
  cases op <;> cases event <;> simp_all [backOk]

end Phases

/-! ## Loops over all threads -/

theorem nextRound_phase {stage : Nat → ProducerPc P} {after : ProducerPc P} {before' after' : ProducerPhase} {cur : Nat}
    (hstage : ∀ k j, (stage k).phase cur j = if j < k then after' else before')
    (hafter : ∀ j, after.phase cur j = after') (hj : j < config.threads) :
    (nextRound config stage i after).phase cur j = if j < i + 1 then after' else before' := by
  rw [nextRound]
  split
  · rw [hstage]
  · rw [hafter, if_pos (by omega)]

theorem nextRound_shutting {stage : Nat → ProducerPc P} {after : ProducerPc P} {b : Bool}
    (hstage : ∀ k, (stage k).shutting = b) (hafter : after.shutting = b) :
    (nextRound config stage i after).shutting = b := by
  rw [nextRound]
  split
  · rw [hstage]
  · rw [hafter]

theorem nextRound_round {stage : Nat → ProducerPc P} {after : ProducerPc P}
    (hstage : ∀ k, (stage k).round = k) (hafter : after.round = 0) :
    (nextRound config stage i after).round < config.threads := by
  rw [nextRound]
  split
  · next hlt => rw [hstage]; exact hlt
  · rw [hafter]
    exact config.threads_pos

def ProducerPc.plain : ProducerPc P → Prop
  | .signalCompress => False
  | _ => True

theorem CurrentOk.of_plain {n : Nat} (hplain : s.producer.plain) (h : CurrentOk n s) :
    s.currentIndex = s.submitted.length % n := by
  rw [CurrentOk] at h
  cases hp : s.producer with
  | signalCompress =>
      rw [hp] at hplain
      exact hplain.elim
  | _ => simpa only [hp] using h

theorem currentOk_of_plain {n : Nat} (hplain : s.producer.plain) (h : s.currentIndex = s.submitted.length % n) :
    CurrentOk n s := by
  rw [CurrentOk]
  cases hp : s.producer with
  | signalCompress =>
      rw [hp] at hplain
      exact hplain.elim
  | _ => exact h

theorem nextRound_plain {stage : Nat → ProducerPc P} {after : ProducerPc P}
    (hstage : ∀ k, (stage k).plain) (hafter : after.plain) : (nextRound config stage i after).plain := by
  rw [nextRound]
  split
  · exact hstage _
  · exact hafter

theorem phase_storeParameters_other {p : P} {cur : Nat} (h : j ≠ cur) :
    (ProducerPc.storeParameters p).phase cur j = .away := by
  rw [ProducerPc.phase, if_neg fun heq => h heq.symm]

theorem phase_signalCompress_other {cur : Nat} (h : j ≠ cur) :
    (ProducerPc.signalCompress : ProducerPc P).phase cur j = .away := by
  rw [ProducerPc.phase, if_neg fun heq => h heq.symm]

/-! ## Every step -/

/-- What the producer leaves alone, and the thread whose events it changes. -/
structure ProducerStep (i : Nat) (t : CompressThread P O) (s s' : State P O) : Prop where
  threads : s'.threads = Function.update s.threads i t
  outputPc : s'.outputPc = s.outputPc
  outputIndex : s'.outputIndex = s.outputIndex
  outputs : s'.outputs = s.outputs

theorem Inv.producerStep_of {t : CompressThread P O} (h : Inv config s) (hs : ProducerStep i t s s')
    (hsubmitted : s'.submitted = s.submitted) (hcurrent : CurrentOk config.threads s')
    (hshutting : s'.shuttingDown = s'.producer.shutting) (hround : s'.producer.round < config.threads)
    (hother : ∀ j < config.threads, j ≠ i →
      s'.producer.phase s'.currentIndex j = s.producer.phase s.currentIndex j)
    (hok : ThreadOk (s'.producer.phase s'.currentIndex i) (s.outputPc.phase s.outputIndex i) t)
    (hpending : pending config t = pending config (s.threads i)) : Inv config s' := by
  have hthread : ∀ j ≠ i, s'.threads j = s.threads j := by
    intro j hj
    rw [hs.threads, Function.update_of_ne hj]
  have hself : s'.threads i = t := by rw [hs.threads, Function.update_self]
  refine ⟨hcurrent, ?_, hshutting, hround, ?_, ?_, ?_⟩
  · rw [hs.outputIndex, hs.outputs]
    exact h.index
  · rw [hs.outputPc]
    exact h.start
  · intro j hj
    rw [hs.outputPc, hs.outputIndex]
    by_cases hij : j = i
    · rw [hij, hself]
      exact hok
    · rw [hthread j hij, hother j hj hij]
      exact h.threads j hj
  · intro j hj
    rw [hsubmitted, hs.outputs, hs.outputPc]
    by_cases hij : j = i
    · rw [hij, hself, hpending, ← hij]
      exact h.lanes j hj
    · rw [hthread j hij]
      exact h.lanes j hj

theorem Inv.producerStep_none {producer : ProducerPc P} (h : Inv config s)
    (hphase : ∀ j < config.threads, producer.phase s.currentIndex j = s.producer.phase s.currentIndex j)
    (hplain : s.producer.plain) (hplain' : producer.plain) (hshutting : producer.shutting = s.producer.shutting)
    (hround : producer.round < config.threads) : Inv config { s with producer } where
  current := by
    have hcurrent := h.current.of_plain hplain
    exact currentOk_of_plain hplain' hcurrent
  index := h.index
  shutting := h.shutting.trans hshutting.symm
  round := hround
  start := h.start
  threads j hj := by
    simp only [hphase j hj]
    exact h.threads j hj
  lanes := h.lanes

theorem Inv.producerStep_round {stage : Nat → ProducerPc P} {after : ProducerPc P} {before' after' : ProducerPhase}
    {t : CompressThread P O} (h : Inv config s) (hp : s.producer = stage i)
    (hstage : ∀ k j, (stage k).phase s.currentIndex j = if j < k then after' else before')
    (hafter : ∀ j, after.phase s.currentIndex j = after') (hplain : ∀ k, (stage k).plain) (hplain' : after.plain)
    (hshutting : ∀ k, (stage k).shutting = after.shutting) (hround : ∀ k, (stage k).round = k)
    (hround' : after.round = 0) (hpending : pending config t = pending config (s.threads i))
    (hok : ThreadOk before' (s.outputPc.phase s.outputIndex i) (s.threads i) →
      ThreadOk after' (s.outputPc.phase s.outputIndex i) t) :
    Inv config { s.setThread i t with producer := nextRound config stage i after } := by
  have hi : i < config.threads := by
    have := h.round
    rw [hp, hround] at this
    exact this
  have hthread := h.threads i hi
  rw [hp, hstage, if_neg (Nat.lt_irrefl i)] at hthread
  refine h.producerStep_of ⟨rfl, rfl, rfl, rfl⟩ rfl ?_ ?_ (nextRound_round hround hround') ?_ ?_ hpending
  · have hcurrent := h.current.of_plain (by rw [hp]; exact hplain i)
    exact currentOk_of_plain (nextRound_plain hplain hplain') hcurrent
  · have hflag := h.shutting
    rw [hp, hshutting] at hflag
    exact hflag.trans (nextRound_shutting hshutting rfl).symm
  · intro j hj hne
    have hround : (j < i + 1) = (j < i) := by
      rw [eq_iff_iff]
      omega
    rw [hp, hstage]
    simp only [State.setThread]
    rw [nextRound_phase hstage hafter hj]
    simp only [hround]
  · simp only [State.setThread]
    rw [nextRound_phase hstage hafter hi, if_pos (Nat.lt_succ_self i)]
    exact hok hthread

theorem nextIndex_mod (config : Config P O) (m : Nat) :
    nextIndex config (m % config.threads) = (m + 1) % config.threads := by
  have hlt := Nat.mod_lt m config.threads_pos
  rw [nextIndex, Nat.add_mod_eq_ite]
  by_cases hone : config.threads = 1
  · simp [hone, Nat.mod_one]
  · have h1 : 1 % config.threads = 1 := Nat.mod_eq_of_lt (by have := config.threads_pos; omega)
    rw [h1]

theorem Inv.storeParameters {p : P} (h : Inv config s) (hp : s.producer = .storeParameters p) :
    Inv config { s.setThread s.currentIndex { s.threads s.currentIndex with compressParameters := some p } with
      producer := .signalCompress, submitted := s.submitted ++ [p] } := by
  have hcurrent : s.currentIndex = s.submitted.length % config.threads := h.current.of_plain (by rw [hp]; trivial)
  have hlt : s.currentIndex < config.threads := by
    rw [hcurrent]
    exact Nat.mod_lt _ config.threads_pos
  have hthread := h.threads s.currentIndex hlt
  rw [hp, ProducerPc.phase, if_pos rfl] at hthread
  have hempty := frontOk_storing_empty hthread.front
  rw [Option.isSome_eq_false_iff, Option.isNone_iff_eq_none] at hempty
  refine ⟨⟨s.submitted, p, rfl, hcurrent⟩, h.index, ?_, config.threads_pos, h.start, ?_, ?_⟩
  · have hflag := h.shutting
    rw [hp] at hflag
    exact hflag
  · intro j hj
    by_cases hij : j = s.currentIndex
    · simp only [hij, State.setThread, ProducerPc.phase, if_true, Function.update_self]
      exact ⟨frontOk_store hthread.front, hthread.done, hthread.back⟩
    · have hj' := h.threads j hj
      rw [hp, phase_storeParameters_other hij, ← phase_signalCompress_other hij] at hj'
      simp only [State.setThread, Function.update_of_ne hij]
      exact hj'
  · intro j hj
    have hlane := h.lanes j hj
    by_cases hij : j = s.currentIndex
    · have hturn : s.submitted.length % config.threads = j := by rw [hij, hcurrent]
      simp only [hij, State.setThread, Function.update_self]
      rw [← hij, lane_append_singleton hj, if_pos hturn, List.filterMap_append, List.map_append, hlane, hij]
      simp only [pending, hempty, Option.toList_some, Option.toList_none, List.filterMap_nil, List.append_nil,
        List.map_append, List.append_assoc]
    · have hturn : s.submitted.length % config.threads ≠ j := fun heq => hij (heq.symm.trans hcurrent.symm)
      simp only [State.setThread, Function.update_of_ne hij]
      rw [lane_append_other hj hturn]
      exact hlane

theorem Inv.signalCompress (h : Inv config s) (hp : s.producer = .signalCompress) :
    Inv config { s.setThread s.currentIndex { s.threads s.currentIndex with compressEvent := true } with
      producer := .outside, currentIndex := nextIndex config s.currentIndex } := by
  have hcurrent := h.current
  rw [CurrentOk, hp] at hcurrent
  obtain ⟨before, p, hsubmitted, hindex⟩ := hcurrent
  have hlt : s.currentIndex < config.threads := by
    rw [hindex]
    exact Nat.mod_lt _ config.threads_pos
  have hthread := h.threads s.currentIndex hlt
  rw [hp, ProducerPc.phase, if_pos rfl] at hthread
  refine h.producerStep_of ⟨rfl, rfl, rfl, rfl⟩ rfl ?_ ?_ config.threads_pos ?_ ?_ rfl
  · rw [CurrentOk]
    simp only [State.setThread]
    rw [hindex, nextIndex_mod, hsubmitted, List.length_append, List.length_singleton]
  · have hflag := h.shutting
    rw [hp] at hflag
    exact hflag
  · intro j _ hne
    rw [hp]
    exact (phase_signalCompress_other hne).symm
  · exact ⟨frontOk_send hthread.front, hthread.done, hthread.back⟩

theorem Inv.waitReady {p : P} (h : Inv config s) (hp : s.producer = .waitReady p)
    (hready : (s.threads s.currentIndex).compressReady = true) :
    Inv config { s.setThread s.currentIndex { s.threads s.currentIndex with compressReady := false } with
      producer := .storeParameters p } := by
  have hcurrent : s.currentIndex = s.submitted.length % config.threads := h.current.of_plain (by rw [hp]; trivial)
  have hlt : s.currentIndex < config.threads := by
    rw [hcurrent]
    exact Nat.mod_lt _ config.threads_pos
  have hthread := h.threads s.currentIndex hlt
  rw [hp, ProducerPc.phase] at hthread
  have hfront := hthread.front
  rw [hready] at hfront
  refine h.producerStep_of ⟨rfl, rfl, rfl, rfl⟩ rfl hcurrent ?_ config.threads_pos ?_ ?_ rfl
  · have hflag := h.shutting
    rw [hp] at hflag
    exact hflag
  · intro j _ hne
    rw [hp]
    exact phase_storeParameters_other hne
  · simp only [ProducerPc.phase, State.setThread, if_true]
    exact ⟨frontOk_collect hfront, hthread.done, hthread.back⟩

theorem Inv.producerStep (h : Inv config s) (hs : MultithreadedCompressor.producerStep config s = some s') :
    Inv config s' := by
  rw [MultithreadedCompressor.producerStep] at hs
  cases hp : s.producer with
  | outside =>
      simp only [hp] at hs
      cases hs
  | checkStatus p =>
      simp only [hp, Option.some.injEq] at hs
      subst hs
      split
      · exact h.producerStep_none (fun j _ => by rw [hp]; rfl) (by rw [hp]; trivial) trivial (by rw [hp]; rfl)
          config.threads_pos
      · exact h.producerStep_none (fun j _ => by rw [hp]; rfl) (by rw [hp]; trivial) trivial (by rw [hp]; rfl)
          config.threads_pos
  | waitReady p =>
      simp only [hp] at hs
      cases hready : (s.threads s.currentIndex).compressReady with
      | false =>
          rw [hready] at hs
          cases hs
      | true =>
          simp only [hready, if_true, Option.some.injEq] at hs
          subst hs
          exact h.waitReady hp hready
  | storeParameters p =>
      simp only [hp, Option.some.injEq] at hs
      subst hs
      exact h.storeParameters hp
  | signalCompress =>
      simp only [hp, Option.some.injEq] at hs
      subst hs
      exact h.signalCompress hp
  | shutdownWaitReady i =>
      simp only [hp] at hs
      cases hready : (s.threads i).compressReady with
      | false =>
          rw [hready] at hs
          cases hs
      | true =>
          simp only [hready, if_true, Option.some.injEq] at hs
          subst hs
          refine h.producerStep_round hp (fun _ _ => rfl) (fun _ => rfl) (fun _ => trivial) trivial (fun _ => rfl)
            (fun _ => rfl) rfl rfl fun ht => ?_
          have hfront := ht.front
          rw [hready] at hfront
          exact ⟨frontOk_collect hfront, ht.done, ht.back⟩
  | shutdownWaitDone i =>
      simp only [hp] at hs
      cases hready : (s.threads i).compressDone with
      | false =>
          rw [hready] at hs
          cases hs
      | true =>
          simp only [hready, if_true, Option.some.injEq] at hs
          subst hs
          refine h.producerStep_round hp (fun _ _ => rfl) (fun _ => rfl) (fun _ => trivial) trivial (fun _ => rfl)
            (fun _ => rfl) rfl rfl fun ht => ?_
          have hdone := ht.done
          rw [hready] at hdone
          refine ⟨ht.front, ?_, ht.back⟩
          simp only [waiting_of_done ht.front hdone]
          rfl
  | shutdownWaitOutput i =>
      simp only [hp] at hs
      cases hready : (s.threads i).outputReady with
      | false =>
          rw [hready] at hs
          cases hs
      | true =>
          simp only [hready, if_true, Option.some.injEq] at hs
          subst hs
          refine h.producerStep_round hp (fun _ _ => rfl) (fun _ => rfl) (fun _ => trivial) trivial (fun _ => rfl)
            (fun _ => rfl) rfl rfl fun ht => ?_
          have hwaiting := waiting_of_doneOk ht.done
          have hback := ht.back
          rw [hready, hwaiting] at hback
          refine ⟨ht.front, ht.done, ?_⟩
          simp only [hwaiting]
          exact backOk_collect hback
  | shutdownStore =>
      simp only [hp, Option.some.injEq] at hs
      subst hs
      refine ⟨?_, h.index, rfl, config.threads_pos, h.start, ?_, h.lanes⟩
      · have hcurrent := h.current.of_plain (by rw [hp]; trivial)
        exact hcurrent
      · intro j hj
        have ht := h.threads j hj
        rw [hp] at ht
        exact ht
  | shutdownCompress i =>
      simp only [hp, Option.some.injEq] at hs
      subst hs
      refine h.producerStep_round hp (fun _ _ => rfl) (fun _ => rfl) (fun _ => trivial) trivial (fun _ => rfl)
        (fun _ => rfl) rfl rfl fun ht => ?_
      have hwaiting := waiting_of_outputOk ht.done
      have hfront := ht.front
      have hdone := ht.done
      rw [hwaiting] at hfront hdone
      refine ⟨?_, ?_, ht.back⟩
      · simp only [hwaiting]
        exact frontOk_end hfront
      · simp only [hwaiting]
        exact hdone
  | shutdownOutput i =>
      simp only [hp, Option.some.injEq] at hs
      subst hs
      exact h.producerStep_round hp (fun _ _ => rfl) (fun _ => rfl) (fun _ => trivial) trivial (fun _ => rfl)
        (fun _ => rfl) rfl rfl fun ht => ⟨ht.front, ht.done, backOk_end ht.back⟩
  | shutdownJoin i =>
      simp only [hp] at hs
      split at hs
      · simp only [Option.some.injEq] at hs
        subst hs
        refine h.producerStep_none (fun j _ => ?_) (by rw [hp]; trivial) (nextRound_plain (fun _ => trivial) trivial)
          ?_ (nextRound_round (fun _ => rfl) rfl)
        · rw [hp, nextRound]
          split <;> rfl
        · rw [hp]
          exact nextRound_shutting (fun _ => rfl) rfl
      · cases hs
  | shutdownJoinOutput =>
      simp only [hp] at hs
      split at hs
      · simp only [Option.some.injEq] at hs
        subst hs
        exact h.producerStep_none (fun j _ => by rw [hp]; rfl) (by rw [hp]; trivial) trivial (by rw [hp]; rfl)
          config.threads_pos
      · cases hs
  | shutdownDone =>
      simp only [hp] at hs
      cases hs

end Karphin.DiscIO.MultithreadedCompressor
