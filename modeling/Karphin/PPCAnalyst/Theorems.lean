import Karphin.PPCAnalyst.Lemmas.Scan

/-! Reordering a block keeps what it does, and the registers that the scan discards are dead. -/

namespace Karphin.PPCAnalyst

open Karphin.PowerPC Karphin.Lib Karphin.PowerPC.Interpreter

variable {an : PPCAnalyzer} {p : Pass} {code : List CodeOp}

/-! ## One pass -/

def isFpuOp (op : CodeOp) : Bool := op.op.has .useFPU

theorem loop_reached {l : Loop} (hcode : code ≠ [])
    (h : Reach (loopStep an p) anyStep (Loop.init p code) l) :
    (∃ reached k, l.At p code.length reached k) ∧ l.code.Perm code ∧
      l.code.filter isFpuOp = code.filter isFpuOp := by
  refine h.invariant (fun l => (∃ reached k, l.At p code.length reached k) ∧ l.code.Perm code ∧
    l.code.filter isFpuOp = code.filter isFpuOp) ⟨⟨0, 0, Loop.init_at code hcode⟩, .refl _, rfl⟩ ?_
  rintro l _ l' ⟨⟨reached, k, hat⟩, hperm, hfilter⟩ _ hstep
  obtain ⟨hat', hbub⟩ := turn_some hat (show l.turn an p = some l' from hstep)
  refine ⟨hat', ?_⟩
  rcases hbub with heq | ⟨a, b, hswap, hbub⟩
  · rw [heq]
    exact ⟨hperm, hfilter⟩
  · obtain ⟨-, -, -, hcan⟩ := swapping_at hswap
    have hb : isFpuOp b = false :=
      modelled_not_useFPU (modelled_of_integer (CanSwapAdjacentOps_spec hcan).integer)
    exact ⟨hbub.perm.trans hperm, (hbub.filter hb).trans hfilter⟩

def Plain (code : List CodeOp) : Prop := ∀ op ∈ code, Decoded op ∧ op.op.has .useFPU = false

theorem Plain.perm {code' : List CodeOp} (h : Plain code) (hperm : code'.Perm code) : Plain code' :=
  fun op hop => h op (hperm.mem_iff.mp hop)

theorem Bubbled.mem {a b : CodeOp} {code' : List CodeOp} (h : Bubbled a b code code') :
    a ∈ code ∧ b ∈ code := by
  cases h <;> simp

theorem runOps_reached {ρ : Type} (m : Unmodelled ρ) (hcode : code ≠ []) (hplain : Plain code)
    (hso : ∀ l, Reach (loopStep an p) anyStep (Loop.init p code) l → l.crosses an p = false) {l : Loop}
    (h : Reach (loopStep an p) anyStep (Loop.init p code) l) (s : PowerPCState ρ) :
    runOps m l.code s = runOps m code s := by
  induction h with
  | refl => rfl
  | @tail l _ l' hreach _ hstep ih =>
      obtain ⟨⟨reached, k, hat⟩, hperm, -⟩ := loop_reached hcode hreach
      have hturn : l.turn an p = some l' := hstep
      rcases (turn_some hat hturn).2 with heq | ⟨a, b, hswap, hbub⟩
      · rw [heq, ih]
      · -- the one swap of this turn
        obtain ⟨-, -, hmoves, hcan⟩ := swapping_at hswap
        have hcross : crossesSO a b = false := by
          have hl := hso l hreach
          simpa [Loop.crosses, hturn, hswap] using hl
        obtain ⟨hA, hfpu⟩ := hplain.perm hperm a hbub.mem.1
        obtain ⟨hB, -⟩ := hplain.perm hperm b hbub.mem.2
        rw [runOps_bubbled m hbub (CanSwapAdjacentOps_spec hcan) hmoves hA hB hfpu hcross, ih]

/-! ## All passes -/

theorem passes_spec : ∀ {ps : List Pass} {code : List CodeOp}, code ≠ [] →
    ∃ code', ps.foldlM (ReorderInstructionsCore an) code = some code' ∧ code'.Perm code ∧
      code'.filter isFpuOp = code.filter isFpuOp ∧
      (Plain code → KeepsSO an ps code → ∀ {ρ : Type} (m : Unmodelled ρ) (s : PowerPCState ρ),
        runOps m code' s = runOps m code s)
  | [], code, _ => ⟨code, rfl, .refl _, rfl, fun _ _ _ _ _ => rfl⟩
  | p :: ps, code, hcode => by
      obtain ⟨l, hreach, hcore⟩ := @ReorderInstructionsCore_ends an p code hcode
      obtain ⟨-, hperm, hfilter⟩ := loop_reached hcode hreach
      have hne : l.code ≠ [] := by
        intro h
        rw [h] at hperm
        exact hcode hperm.symm.eq_nil
      obtain ⟨code', hpasses, hperm', hfilter', hrun⟩ := passes_spec hne
      refine ⟨code', ?_, hperm'.trans hperm, hfilter'.trans hfilter, ?_⟩
      · rw [List.foldlM_cons, hcore]
        exact hpasses
      · rintro hplain ⟨hso, hrest⟩ ρ m s
        rw [hrun (hplain.perm hperm) (hrest _ hcore) m s, runOps_reached m hcode hplain hso hreach]

theorem readBlock_plain : ∀ {fpaAny : Bool} {block : List (BitVec 32 × UGeckoInstruction)},
    (∀ i ∈ block, (GetOpInfo i.2).has .useFPU = false) → Plain (readBlock an fpaAny block)
  | _, [], _ => fun op hop => nomatch hop
  | fpaAny, (address, inst) :: block, hfpu => by
      intro op hop
      rcases List.mem_cons.mp hop with rfl | hop
      · exact ⟨SetInstructionStats_decoded fpaAny address inst, hfpu (address, inst) List.mem_cons_self⟩
      · exact readBlock_plain (fun i hi => hfpu i (List.mem_cons_of_mem _ hi)) op hop

theorem keepsSO_of_no_mcrxr : ∀ {ps : List Pass} {code : List CodeOp}, code ≠ [] →
    (∀ op ∈ code, op.op ≠ .mcrxr) → KeepsSO an ps code
  | [], _, _, _ => trivial
  | p :: ps, code, hcode, hno => by
      have hkeep : ∀ {code' : List CodeOp}, code'.Perm code → code' ≠ [] ∧ ∀ op ∈ code', op.op ≠ .mcrxr := by
        intro code' hperm
        refine ⟨?_, fun op hop => hno op (hperm.mem_iff.mp hop)⟩
        rintro rfl
        exact hcode hperm.symm.eq_nil
      constructor
      · intro l hreach
        have hl := (hkeep (loop_reached hcode hreach).2.1).2
        cases hturn : l.turn an p with
        | none => simp [Loop.crosses, hturn]
        | some l' =>
            cases hswap : (l.advance p).swapping an p with
            | none => simp [Loop.crosses, hturn, hswap]
            | some pair =>
                obtain ⟨ha, -, -, -⟩ := swapping_at hswap
                have hmem : pair.1 ∈ l.code := by
                  have hcode : (l.advance p).code = l.code := by
                    unfold Loop.advance
                    split <;> rfl
                  rw [← hcode]
                  exact List.mem_of_getElem? ha
                simp [Loop.crosses, hturn, hswap, crossesSO, hl pair.1 hmem]
      · intro code' hcore
        obtain ⟨l, hreach, hcore'⟩ := @ReorderInstructionsCore_ends an p code hcode
        rw [hcore] at hcore'
        cases hcore'
        obtain ⟨hne, hno'⟩ := hkeep (loop_reached hcode hreach).2.1
        exact keepsSO_of_no_mcrxr hne hno'

theorem reorderBlock_spec (an : PPCAnalyzer) (code : List CodeOp) :
    ∃ code', reorderBlock an code = some code' ∧ code'.Perm code ∧
      code'.filter isFpuOp = code.filter isFpuOp ∧
      (Plain code → KeepsSO an (passes an) code → ∀ {ρ : Type} (m : Unmodelled ρ) (s : PowerPCState ρ),
        runOps m code' s = runOps m code s) := by
  unfold reorderBlock
  split
  · next hlen =>
      refine passes_spec ?_
      rintro rfl
      simp at hlen
  · exact ⟨code, rfl, .refl _, rfl, fun _ _ _ _ _ => rfl⟩

/-- Reordering a block of integer, CR and system register instructions ends with the same ops. It ends in
the same way from every state as the block as it was read, when no pass moves an instruction that copies SO
across `mcrxr`. -/
theorem reorder_equivalent (an : PPCAnalyzer) (block : List (BitVec 32 × UGeckoInstruction))
    (hfpu : ∀ i ∈ block, (GetOpInfo i.2).has .useFPU = false) :
    ∃ code', reorderBlock an (readBlock an false block) = some code' ∧
      code'.Perm (readBlock an false block) ∧
      (KeepsSO an (passes an) (readBlock an false block) →
        ∀ {ρ : Type} (m : Unmodelled ρ) (s : PowerPCState ρ),
          runOps m code' s = runOps m (readBlock an false block) s) := by
  obtain ⟨code', hcode', hperm, -, hrun⟩ := reorderBlock_spec an (readBlock an false block)
  exact ⟨code', hcode', hperm, hrun (readBlock_plain hfpu)⟩

def jitAnalyzer : PPCAnalyzer where
  carryMerge := true
  branchMerge := true
  crorMerge := true
  isDebuggingEnabled := false
  enableFloatExceptions := false
  enableDivByZeroExceptions := false
  isAddressBreakPoint _ := false
  tryReplaceFunction _ := false

/-- `cmpwi r3, 0; addi r4, r4, 1; beq 8`: the compare moves down to the branch. -/
def compareBlock : List (BitVec 32 × UGeckoInstruction) :=
  [(0x80003100#32, ⟨0x2C030000#32⟩), (0x80003104#32, ⟨0x38840001#32⟩), (0x80003108#32, ⟨0x41820008#32⟩)]

theorem reorder_equivalent_compareBlock :
    (∀ i ∈ compareBlock, (GetOpInfo i.2).has .useFPU = false) ∧
    KeepsSO jitAnalyzer (passes jitAnalyzer) (readBlock jitAnalyzer false compareBlock) ∧
    ∃ code', reorderBlock jitAnalyzer (readBlock jitAnalyzer false compareBlock) = some code' ∧
      code' ≠ readBlock jitAnalyzer false compareBlock ∧
      ∀ (m : Unmodelled Unit) (s : PowerPCState Unit),
        runOps m code' s = runOps m (readBlock jitAnalyzer false compareBlock) s := by
  have hfpu : ∀ i ∈ compareBlock, (GetOpInfo i.2).has .useFPU = false := by decide
  have hso : KeepsSO jitAnalyzer (passes jitAnalyzer) (readBlock jitAnalyzer false compareBlock) :=
    keepsSO_of_no_mcrxr (by decide) (by decide)
  obtain ⟨code', hcode', -, hrun⟩ := reorder_equivalent jitAnalyzer compareBlock hfpu
  refine ⟨hfpu, hso, code', hcode', ?_, hrun hso⟩
  rintro rfl
  exact absurd hcode' (by decide)

/-- `mcrxr cr0; cmpwi cr1, r3, 0; blr` -/
def clearingBlock : List (BitVec 32 × UGeckoInstruction) :=
  [(0x80003100#32, ⟨0x7C000400#32⟩), (0x80003104#32, ⟨0x2C830000#32⟩), (0x80003108#32, ⟨0x4E800020#32⟩)]

/-- Nothing but the registers: a branch leaves the block with them. -/
def bareMachine : Unmodelled Unit where
  HID2 _ := 0
  fpu _ _ fpscr _ rest := ((fpscr, rest), 0)
  run _ _ _ s := .leave s
  raise _ s := s
  CheckExceptions s := s

def overflowed : PowerPCState Unit where
  gpr _ := 0
  cr _ := 0
  xerCa := 0
  xerSoOv := 2
  xerStringctrl := 0
  fpscr := 0
  msr := 0
  rest := ()

def Exit.state {ρ : Type} : Exit ρ → PowerPCState ρ
  | .finished s => s
  | .left _ s => s

/-- The compare moves in front of `mcrxr` and copies the SO bit that the block would have cleared. -/
theorem reorder_changes_cr1 :
    ¬ ∃ code', reorderBlock jitAnalyzer (readBlock jitAnalyzer false clearingBlock) = some code' ∧
      code'.Perm (readBlock jitAnalyzer false clearingBlock) ∧
      ∀ {ρ : Type} (m : Unmodelled ρ) (s : PowerPCState ρ),
        runOps m code' s = runOps m (readBlock jitAnalyzer false clearingBlock) s := by
  rintro ⟨code', hcode', -, hrun⟩
  have hcr1 := congrArg (fun exit => exit.state.GetField 1) (hrun bareMachine overflowed)
  have hdiffer : (reorderBlock jitAnalyzer (readBlock jitAnalyzer false clearingBlock)).all fun code' =>
      decide ((runOps bareMachine code' overflowed).state.GetField 1 ≠
        (runOps bareMachine (readBlock jitAnalyzer false clearingBlock) overflowed).state.GetField 1) := by
    decide
  simp only [hcode', Option.all_some, decide_eq_true_eq] at hdiffer
  exact hdiffer hcr1

/-! ## Discardable registers -/

theorem readBlock_first_fpu : ∀ {block : List (BitVec 32 × UGeckoInstruction)} {op : CodeOp},
    (readBlock an false block).find? isFpuOp = some op → op.canCauseException = true
  | [], _, h => nomatch h
  | (address, inst) :: block, op, h => by
      cases hfpu : (GetOpInfo inst).has .useFPU with
      | true =>
          have hhead : isFpuOp (SetInstructionStats an false address inst) = true := hfpu
          simp only [readBlock, List.find?_cons, hhead, Option.some.injEq] at h
          rw [← h]
          simp [SetInstructionStats, hfpu]
      | false =>
          have hhead : isFpuOp (SetInstructionStats an false address inst) = false := hfpu
          simp only [readBlock, List.find?_cons, hhead, hfpu, Bool.or_false] at h
          exact readBlock_first_fpu h

/-- The value that a register holds behind an op which takes it for discardable is dead: whatever is put in
its place, the rest of the block is left at the same points with the same states. -/
theorem discardable_dead {ρ : Type} (an : PPCAnalyzer) (m : Unmodelled ρ) (hook : Hook ρ)
    (hm : KeepsFP m hook) (block : List (BitVec 32 × UGeckoInstruction)) :
    ∃ code, Analyze an block = some code ∧ ∀ {i : Nat} {op : AnalyzedOp}, code[i]? = some op →
      ∀ {s₀ s : PowerPCState ρ}, runThrough an m hook ((code.take (i + 1)).map (·.code)) s₀ = some s →
        (∀ r ∈ op.gprDiscardable, ∀ value,
          trace an m hook ((code.drop (i + 1)).map (·.code)) (s.setGpr r value) =
            trace an m hook ((code.drop (i + 1)).map (·.code)) s) ∧
        (∀ field ∈ op.crDiscardable, ∀ value,
          trace an m hook ((code.drop (i + 1)).map (·.code)) (s.setCr field value) =
            trace an m hook ((code.drop (i + 1)).map (·.code)) s) := by
  obtain ⟨ops, hops, hperm, hfilter, -⟩ := reorderBlock_spec an (readBlock an false block)
  have hdec : ∀ op ∈ ops, Decoded op := fun op hop => readBlock_decoded op (hperm.mem_iff.mp hop)
  refine ⟨(backwardScan an ops).1, by simp [Analyze, hops], ?_⟩
  intro i op hop s₀ s hrun
  rw [List.map_take, backwardScan_code] at hrun
  rw [List.map_drop, backwardScan_code]
  have hready : FpReady an (ops.drop (i + 1)) s := by
    have hstart : FpReady an (ops.take (i + 1) ++ ops.drop (i + 1)) s₀ := by
      rw [List.take_append_drop]
      left
      intro first hfirst
      have hfirst : ops.find? isFpuOp = some first := hfirst
      rw [← List.head?_filter, hfilter, List.head?_filter] at hfirst
      simp [mayExitBlock, readBlock_first_fpu hfirst]
    exact FpReady.runThrough hm (fun op h => hdec op (List.mem_of_mem_take h)) hstart hrun
  have hdec' : ∀ op ∈ ops.drop (i + 1), Decoded op := fun op h => hdec op (List.mem_of_mem_drop h)
  obtain ⟨hgpr, hcr⟩ := discardable_at hop
  constructor
  · intro r hr value
    refine (trace_alike hm hdec' hready ?_).symm
    intro ℓ hℓ
    cases ℓ with
    | gpr r' =>
        have hne : r' ≠ r := by
          rintro rfl
          exact hℓ (hgpr hr)
        simp [PowerPCState.setGpr, hne]
    | cr | ca | soOv | rest => rfl
  · intro field hf value
    refine (trace_alike hm hdec' hready ?_).symm
    intro ℓ hℓ
    cases ℓ with
    | cr field' =>
        have hne : field' ≠ field := by
          rintro rfl
          exact hℓ (hcr hf)
        simp [PowerPCState.setCr, hne]
    | gpr | ca | soOv | rest => rfl

/-- `li r3, 1; li r3, 2; blr` -/
def overwritingBlock : List (BitVec 32 × UGeckoInstruction) :=
  [(0x80003100#32, ⟨0x38600001#32⟩), (0x80003104#32, ⟨0x38600002#32⟩), (0x80003108#32, ⟨0x4E800020#32⟩)]

theorem discardable_dead_overwritingBlock :
    KeepsFP bareMachine (fun _ s => .next s) ∧
    ∃ code op, Analyze jitAnalyzer overwritingBlock = some code ∧ code[0]? = some op ∧
      3 ∈ op.gprDiscardable ∧
      ∃ s, runThrough jitAnalyzer bareMachine (fun _ s => .next s) ((code.take 1).map (·.code)) overflowed =
        some s ∧
        ∀ value, trace jitAnalyzer bareMachine (fun _ s => .next s) ((code.drop 1).map (·.code))
            (s.setGpr 3 value) =
          trace jitAnalyzer bareMachine (fun _ s => .next s) ((code.drop 1).map (·.code)) s := by
  have hm : KeepsFP bareMachine (fun _ s => .next s) := by
    constructor
    · intro _ _ _ _ _ h
      cases h
    · intro _ _ _ h hon
      cases h
      exact hon
  have hfacts : (Analyze jitAnalyzer overwritingBlock).all (fun code =>
      code[0]?.any (fun op => decide (3 ∈ op.gprDiscardable)) &&
        (runThrough jitAnalyzer bareMachine (fun _ s => .next s) ((code.take 1).map (·.code))
          overflowed).isSome) = true := by
    decide
  obtain ⟨code, hcode, hdead⟩ := discardable_dead jitAnalyzer bareMachine (fun _ s => .next s) hm overwritingBlock
  simp only [hcode, Option.all_some, Bool.and_eq_true, Option.any_eq_true, decide_eq_true_eq,
    Option.isSome_iff_exists] at hfacts
  obtain ⟨⟨op, hop, hr⟩, s, hs⟩ := hfacts
  exact ⟨hm, code, op, hcode, hop, hr, s, hs, (hdead hop hs).1 3 hr⟩

end Karphin.PPCAnalyst
