import Karphin.PPCAnalyst.Lemmas.Reorder

/-! The backward scan against the interpreter: what it takes for discardable cannot be seen. -/

namespace Karphin.PPCAnalyst

open Karphin.PowerPC Karphin.Lib Karphin.PowerPC.Interpreter

variable {ρ : Type} {an : PPCAnalyzer} {m : Unmodelled ρ} {hook : Hook ρ} {op : CodeOp}
  {s s' t : PowerPCState ρ}

/-! ## Ops that cannot leave the block -/

theorem GetOpInfo_mtspr {inst : UGeckoInstruction} (h : IsMtspr inst = true) : GetOpInfo inst = .mtspr := by
  simp only [IsMtspr, Bool.and_eq_true, beq_iff_eq] at h
  simp only [GetOpInfo, h.1, h.2]
  rfl

theorem flags_of_not_exit (hdec : Decoded op) (hexit : mayExitBlock an op = false) :
    isHooked an op = false ∧ op.op.has .endBlock = false ∧ op.op.has .loadStore = false ∧
      op.op.has .programException = false := by
  simp only [mayExitBlock, Bool.or_eq_false_iff] at hexit
  obtain ⟨⟨hhook, hend⟩, hexc⟩ := hexit
  obtain ⟨hload, hprogram⟩ := hdec.noException hexc
  refine ⟨hhook, ?_, hload, hprogram⟩
  rw [hdec.canEndBlock, InstructionCanEndBlock, Bool.and_eq_false_iff] at hend
  rcases hend with hend | hend
  · exact hend
  · -- only `mtspr` has the flag without ending the block
    simp only [Bool.or_eq_false_iff, Bool.not_eq_false'] at hend
    rw [hdec.opinfo, GetOpInfo_mtspr hend.1] at hprogram
    exact absurd hprogram (by decide)

theorem modelled_of_quiet {op : Op} (hend : op.has .endBlock = false) (hload : op.has .loadStore = false)
    (hprogram : op.has .programException = false) (hfpu : op.has .useFPU = false) : modelled op = true := by
  have hall : (op.has .endBlock || op.has .loadStore || op.has .programException || op.has .useFPU ||
      modelled op) = true := by
    cases op <;> rfl
  simpa [hend, hload, hprogram, hfpu] using hall

theorem fpuArithmetic_of_quiet {op : Op} (hload : op.has .loadStore = false)
    (hprogram : op.has .programException = false) (hfpu : op.has .useFPU = true) :
    isFpuArithmetic op.type = true := by
  have hall : (!op.has .useFPU || op.has .loadStore || op.has .programException ||
      isFpuArithmetic op.type) = true := by
    cases op <;> rfl
  simpa [hload, hprogram, hfpu] using hall

/-! ## Floating point instructions -/

section
variable {inst : UGeckoInstruction}

theorem fpuArithmetic_tables :
    ∀ table ∈ [primaryTable, table19, table31, table4_2, table4_3, table4], ∀ row ∈ table,
      isFpuArithmetic row.2.type = false := by
  decide

theorem fpuArithmetic_OPCD (h : isFpuArithmetic (GetOpInfo inst).type = true) :
    inst.OPCD.toNat = 59 ∨ inst.OPCD.toNat = 63 := by
  have hknown : GetOpInfo inst ≠ .unknown_instruction := by
    intro hu
    rw [hu] at h
    exact absurd h (by decide)
  have hother : ∀ {table : List (Nat × Op)}, InTable (GetOpInfo inst) table →
      table ∈ [primaryTable, table19, table31, table4_2, table4_3, table4] → False := by
    rintro table ⟨row, hrow, hop⟩ htable
    rw [← hop, fpuArithmetic_tables table htable row hrow] at h
    cases h
  rcases GetOpInfo_cases rfl hknown with ⟨-, h4⟩ | ⟨-, h19⟩ | ⟨-, h31⟩ | h59 | h63 | hrow
  · rcases h4 with h4 | h4 | h4 <;> exact (hother h4 (by simp)).elim
  · exact (hother ⟨_, h19, rfl⟩ (by simp)).elim
  · exact (hother ⟨_, h31, rfl⟩ (by simp)).elim
  · exact .inl h59.1
  · exact .inr h63.1
  · exact (hother ⟨_, hrow, rfl⟩ (by simp)).elim

theorem crOutOf_fpuArithmetic {op : Op} (h : isFpuArithmetic op.type = true) :
    crOutOf op inst = if op = .fcmpo ∨ op = .fcmpu ∨ op = .mcrfs then {inst.CRFD}
      else if inst.Rc then {1} else ∅ := by
  have hall : (!isFpuArithmetic op.type || (!op.has .setAllCR && !op.has .setCR0 && !op.has .rcBit &&
      !op.has .setCR1 && op.type != .cr &&
      (op.has .setCRn == decide (op = .fcmpo ∨ op = .fcmpu ∨ op = .mcrfs)) &&
      (op.has .setCRn || op.has .rcBitF))) = true := by
    cases op <;> rfl
  simp only [h, Bool.not_true, Bool.false_or, Bool.and_eq_true, Bool.not_eq_true', beq_iff_eq,
    bne_iff_ne, Bool.or_eq_true] at hall
  obtain ⟨⟨⟨⟨⟨⟨hall, h0⟩, hrc⟩, h1⟩, htype⟩, hn⟩, hf⟩ := hall
  by_cases hcmp : op = .fcmpo ∨ op = .fcmpu ∨ op = .mcrfs
  · simp only [hcmp, decide_true] at hn
    simp [crOutOf, hall, hn, hcmp]
  · simp only [hcmp, decide_false] at hn
    have hf : op.has .rcBitF = true := by simpa [hn] using hf
    simp [crOutOf, hall, hn, hcmp, h0, hrc, h1, hf, htype]

theorem regsOutOf_fpuArithmetic (h : isFpuArithmetic (GetOpInfo inst).type = true) :
    regsOutOf (GetOpInfo inst) inst = ∅ := by
  have hall : ∀ op : Op, (!isFpuArithmetic op.type || writesNoGpr op) = true := by
    intro op
    cases op <;> rfl
  have hregs : writesNoGpr (GetOpInfo inst) = true := by simpa [h] using hall (GetOpInfo inst)
  refine regsOutOf_none hregs ?_
  intro h46
  rcases fpuArithmetic_OPCD h with h | h <;> simp [h46] at h

def fpuWrites (inst : UGeckoInstruction) : Set Loc
  | .cr field => field ∈ crOutOf (GetOpInfo inst) inst
  | .rest => True
  | _ => False

theorem fpuInstruction_footprint (h : isFpuArithmetic (GetOpInfo inst).type = true) :
    Footprint get (fpuInstruction m inst) {.rest} (fpuWrites inst) where
  frame s ℓ hℓ := by
    have hcr : ∀ {field}, (.cr field : Loc) ∉ fpuWrites inst → field ∉ crOutOf (GetOpInfo inst) inst := id
    cases ℓ with
    | cr field =>
        have hf := hcr hℓ
        rw [crOutOf_fpuArithmetic h] at hf
        simp only [get_cr_eq, fpuInstruction]
        split
        · next hcmp =>
            simp only [if_pos hcmp, Finset.mem_singleton] at hf
            simp [PowerPCState.SetField, PowerPCState.setCr, hf]
        · next hcmp =>
            simp only [if_neg hcmp] at hf
            split
            · next hrc =>
                simp only [if_pos hrc, Finset.mem_singleton] at hf
                simp [PowerPCState.SetField, PowerPCState.setCr, hf]
            · rfl
    | rest => exact absurd trivial hℓ
    | gpr | ca | soOv =>
        simp only [fpuInstruction]
        split
        · rfl
        · split <;> rfl
  determined {s t} hagree ℓ hℓ := by
    obtain ⟨hstr, hfpscr, hmsr, hrest⟩ := get_rest_eq.mp (hagree .rest rfl)
    cases ℓ with
    | cr field =>
        have hf : field ∈ crOutOf (GetOpInfo inst) inst := hℓ
        rw [crOutOf_fpuArithmetic h] at hf
        simp only [get_cr_eq, fpuInstruction, hfpscr, hmsr, hrest]
        split
        · next hcmp =>
            simp only [if_pos hcmp, Finset.mem_singleton] at hf
            simp [PowerPCState.SetField, PowerPCState.setCr, hf]
        · next hcmp =>
            simp only [if_neg hcmp] at hf
            split
            · next hrc =>
                simp only [if_pos hrc, Finset.mem_singleton] at hf
                simp [PowerPCState.SetField, PowerPCState.setCr, hf]
            · next hrc => simp [hrc] at hf
    | rest =>
        simp only [get_rest_eq, fpuInstruction, hfpscr, hmsr, hrest]
        split
        · simp [PowerPCState.SetField, PowerPCState.setCr, hstr]
        · split <;> simp [PowerPCState.SetField, PowerPCState.setCr, hstr]
    | gpr | ca | soOv => exact absurd hℓ id

theorem fpuInstruction_msr : (fpuInstruction m inst s).msr = s.msr := by
  simp only [fpuInstruction]
  split
  · rfl
  · split <;> rfl

theorem SingleStepInner_fpuArithmetic (address : BitVec 32)
    (h : isFpuArithmetic (GetOpInfo inst).type = true) (hfpu : (GetOpInfo inst).has .useFPU = true)
    (hon : fpEnabled s = true) :
    SingleStepInner m address inst s = .next (fpuInstruction m inst s) := by
  have hnone : interpreterTable (ρ := ρ) (GetOpInfo inst) = none := by
    cases hf : interpreterTable (ρ := ρ) (GetOpInfo inst) with
    | none => rfl
    | some f => simp [modelled_not_useFPU (modelled_of_some hf)] at hfpu
  have hopcd : inst.OPCD.toNat ∉ [0, 4, 56, 57, 60, 61] := by
    rcases fpuArithmetic_OPCD h with h | h <;> simp [h]
  rw [SingleStepInner_eq m address hopcd (fun _ => hon)]
  simp [RunInterpreterOp, hnone, h]

end

/-! ## One quiet op

An op that may not exit is a state transformer whose footprint the stats describe. -/

/-- The registers that a transformer reads and writes are among those of the stats. -/
structure Described (op : CodeOp) (f : PowerPCState ρ → PowerPCState ρ) (R W : Set Loc) : Prop where
  footprint : Footprint get f R W
  gprIn : ∀ {r}, .gpr r ∈ R → r ∈ op.regsIn
  crIn : ∀ {field}, .cr field ∈ R → field ∈ op.crIn
  gprOut : ∀ {r}, r ∈ op.regsOut → .gpr r ∈ W
  crOut : ∀ {field}, field ∈ op.crOut → .cr field ∈ W
  msr : ∀ s, (f s).msr = s.msr

theorem stepOp_quiet (m : Unmodelled ρ) (hook : Hook ρ) (hdec : Decoded op)
    (hexit : mayExitBlock an op = false) :
    ∃ f R W, Described op f R W ∧ ∀ {s}, (op.op.has .useFPU = true → fpEnabled s = true) →
      stepOp an m hook op s = .next (f s) := by
  obtain ⟨hhook, hend, hload, hprogram⟩ := flags_of_not_exit hdec hexit
  cases hfpu : op.op.has .useFPU with
  | false =>
      have hmod := modelled_of_quiet hend hload hprogram hfpu
      rw [hdec.opinfo] at hmod
      obtain ⟨f, hf⟩ := runs_of_modelled (ρ := ρ) hmod
      have hfoot := modelled_footprint hf
      rw [← hdec.opinfo] at hfoot
      refine ⟨f op.inst, _, _, ⟨hfoot, ?_, ?_, ?_, ?_, ?_⟩, ?_⟩
      · intro r hr
        rw [hdec.regsIn]
        exact hr
      · intro field hr
        rw [hdec.crIn]
        exact hr
      · intro r hr
        rw [hdec.regsOut] at hr
        exact hr
      · intro field hr
        rw [hdec.crOut] at hr
        exact hr
      · intro s
        exact (get_rest_eq.mp (hfoot.frame s .rest id)).2.2.1
      · intro s _
        simp [stepOp, hhook, SingleStepInner_modelled m op.address hf]
  | true =>
      have harith := fpuArithmetic_of_quiet hload hprogram hfpu
      rw [hdec.opinfo] at harith hfpu
      refine ⟨fpuInstruction m op.inst, _, _, ⟨fpuInstruction_footprint harith, ?_, ?_, ?_, ?_, ?_⟩, ?_⟩
      · intro r hr
        cases hr
      · intro field hr
        cases hr
      · intro r hr
        rw [hdec.regsOut, hdec.opinfo, regsOutOf_fpuArithmetic harith] at hr
        simp at hr
      · intro field hr
        rw [hdec.crOut, hdec.opinfo] at hr
        exact hr
      · intro s
        exact fpuInstruction_msr
      · intro s hon
        simp [stepOp, hhook, SingleStepInner_fpuArithmetic op.address harith hfpu (hon rfl)]

/-! ## Discardable registers -/

def discardable (scan : Scan) : Set Loc
  | .gpr r => r ∈ scan.gprDiscardable
  | .cr field => field ∈ scan.crDiscardable
  | _ => False

def Alike (scan : Scan) (s t : PowerPCState ρ) : Prop := AgreeOn get (discardable scan)ᶜ s t

theorem Alike.fpEnabled {scan : Scan} (h : Alike scan s t) : fpEnabled s = fpEnabled t := by
  have hmsr := (get_rest_eq.mp (h .rest id)).2.2.1
  rw [Interpreter.fpEnabled, Interpreter.fpEnabled, hmsr]

theorem Alike.eq {scan : Scan} (h : Alike scan s t) (hgpr : scan.gprDiscardable = ∅)
    (hcr : scan.crDiscardable = ∅) : s = t := by
  refine get_ext fun ℓ => h ℓ ?_
  cases ℓ with
  | gpr r =>
      intro hr
      have hr : r ∈ scan.gprDiscardable := hr
      simp [hgpr] at hr
  | cr field =>
      intro hf
      have hf : field ∈ scan.crDiscardable := hf
      simp [hcr] at hf
  | ca | soOv | rest => exact id

theorem before_exit {scan : Scan} (hexit : mayExitBlock an op = true) :
    (scan.before an op).gprDiscardable = ∅ ∧ (scan.before an op).crDiscardable = ∅ := by
  cases hhook : isHooked an op with
  | true => simp [Scan.before, hhook]
  | false =>
      have h : (op.canEndBlock || op.canCauseException) = true := by
        simpa [mayExitBlock, hhook] using hexit
      simp [Scan.before, hhook, h]

theorem before_quiet {scan : Scan} (hexit : mayExitBlock an op = false) :
    (scan.before an op).gprDiscardable = (scan.gprDiscardable ∪ op.regsOut) \ op.regsIn ∧
      (scan.before an op).crDiscardable = (scan.crDiscardable ∪ op.crOut) \ op.crIn := by
  simp only [mayExitBlock, Bool.or_eq_false_iff] at hexit
  simp [Scan.before, hexit]

theorem alike_step {scan : Scan} {f : PowerPCState ρ → PowerPCState ρ} {R W : Set Loc}
    (hf : Described op f R W) (hexit : mayExitBlock an op = false) (h : Alike (scan.before an op) s t) :
    Alike scan (f s) (f t) := by
  obtain ⟨hgpr, hcr⟩ := @before_quiet an op scan hexit
  have hd : Disjoint R (discardable (scan.before an op)) := by
    rw [Set.disjoint_left]
    intro ℓ hR hD
    cases ℓ with
    | gpr r =>
        have hD : r ∈ (scan.before an op).gprDiscardable := hD
        rw [hgpr, Finset.mem_sdiff] at hD
        exact hD.2 (hf.gprIn hR)
    | cr field =>
        have hD : field ∈ (scan.before an op).crDiscardable := hD
        rw [hcr, Finset.mem_sdiff] at hD
        exact hD.2 (hf.crIn hR)
    | ca | soOv | rest => exact hD
  refine (hf.footprint.agreeOn_compl hd h).mono ?_
  -- what was discardable and is not written is still discardable
  rw [Set.compl_subset_compl]
  rintro ℓ ⟨hD, hW⟩
  cases ℓ with
  | gpr r =>
      have hD : r ∈ (scan.before an op).gprDiscardable := hD
      rw [hgpr, Finset.mem_sdiff, Finset.mem_union] at hD
      exact hD.1.resolve_right fun h => hW (hf.gprOut h)
  | cr field =>
      have hD : field ∈ (scan.before an op).crDiscardable := hD
      rw [hcr, Finset.mem_sdiff, Finset.mem_union] at hD
      exact hD.1.resolve_right fun h => hW (hf.crOut h)
  | ca | soOv | rest => exact hD

/-! ## The floating point unit stays on -/

/-- What is not modelled leaves MSR.FP on as long as the block goes on. The instructions that change the MSR
end the block. -/
structure KeepsFP (m : Unmodelled ρ) (hook : Hook ρ) : Prop where
  run : ∀ {op inst address s s'}, m.run op inst address s = .next s' → fpEnabled s = true → fpEnabled s' = true
  hook : ∀ {address s s'}, hook address s = .next s' → fpEnabled s = true → fpEnabled s' = true

theorem modelled_msr {f : UGeckoInstruction → PowerPCState ρ → PowerPCState ρ} {inst : UGeckoInstruction}
    (hf : interpreterTable (GetOpInfo inst) = some f) (s : PowerPCState ρ) : (f inst s).msr = s.msr :=
  (get_rest_eq.mp ((modelled_footprint hf).frame s .rest id)).2.2.1

theorem RunInterpreterOp_fpEnabled {address : BitVec 32} {inst : UGeckoInstruction} (hm : KeepsFP m hook)
    (h : RunInterpreterOp m address inst s = .next s') (hon : fpEnabled s = true) : fpEnabled s' = true := by
  unfold RunInterpreterOp at h
  dsimp only at h
  split at h
  · next f hf =>
      cases h
      rwa [fpEnabled, modelled_msr hf]
  · split at h
    · cases h
      rwa [fpEnabled, fpuInstruction_msr]
    · exact hm.run h hon

theorem SingleStepInner_fpEnabled {address : BitVec 32} {inst : UGeckoInstruction} (hm : KeepsFP m hook)
    (h : SingleStepInner m address inst s = .next s')
    (hon : fpEnabled s = true ∨ (GetOpInfo inst).has .useFPU = true) : fpEnabled s' = true := by
  unfold SingleStepInner at h
  split at h
  · cases h
  split at h
  · cases h
  split at h
  · next hfp => exact RunInterpreterOp_fpEnabled hm h hfp
  · next hfp =>
      have hfpu := hon.resolve_left hfp
      simp [hfpu] at h

theorem stepOp_fpEnabled (hm : KeepsFP m hook) (hdec : Decoded op) (h : stepOp an m hook op s = .next s')
    (hon : fpEnabled s = true ∨ op.op.has .useFPU = true) : fpEnabled s' = true := by
  rw [hdec.opinfo] at hon
  unfold stepOp at h
  split at h
  · split at h
    · next s₁ hhook => exact SingleStepInner_fpEnabled hm h (hon.imp_left (hm.hook hhook))
    · cases h
  · exact SingleStepInner_fpEnabled hm h hon

def FpReady (an : PPCAnalyzer) (ops : List CodeOp) (s : PowerPCState ρ) : Prop :=
  (∀ op, ops.find? (·.op.has .useFPU) = some op → mayExitBlock an op = true) ∨ fpEnabled s = true

theorem FpReady.head {ops : List CodeOp} (h : FpReady an (op :: ops) s) (hexit : mayExitBlock an op = false)
    (hfpu : op.op.has .useFPU = true) : fpEnabled s = true := by
  rcases h with h | h
  · have hop := h op (by simp [hfpu])
    simp [hexit] at hop
  · exact h

theorem FpReady.tail {ops : List CodeOp} (hm : KeepsFP m hook) (hdec : Decoded op)
    (h : FpReady an (op :: ops) s) (hstep : stepOp an m hook op s = .next s') : FpReady an ops s' := by
  cases hfpu : op.op.has .useFPU with
  | true => exact .inr (stepOp_fpEnabled hm hdec hstep (.inr hfpu))
  | false =>
      rcases h with h | h
      · left
        intro op' hop'
        exact h op' (by simp [hfpu, hop'])
      · exact .inr (stepOp_fpEnabled hm hdec hstep (.inl h))

/-! ## Whole traces -/

theorem trace_alike (hm : KeepsFP m hook) : ∀ {ops : List CodeOp} {s t : PowerPCState ρ},
    (∀ op ∈ ops, Decoded op) → FpReady an ops s → Alike (backwardScan an ops).2 s t →
    trace an m hook ops s = trace an m hook ops t
  | [], s, t, _, _, h => by rw [h.eq rfl rfl]
  | op :: ops, s, t, hdec, hready, h => by
      cases hexit : mayExitBlock an op with
      | true =>
          obtain ⟨hgpr, hcr⟩ := @before_exit an op ((backwardScan an ops).2.behind op) hexit
          rw [h.eq hgpr hcr]
      | false =>
          have hop := hdec op List.mem_cons_self
          obtain ⟨f, R, W, hf, hstep⟩ := stepOp_quiet m hook hop hexit
          have hs : stepOp an m hook op s = .next (f s) := hstep (hready.head hexit)
          have ht : stepOp an m hook op t = .next (f t) := by
            refine hstep fun hfpu => ?_
            rw [← h.fpEnabled]
            exact hready.head hexit hfpu
          have hbehind : Alike ((backwardScan an ops).2.behind op) (f s) (f t) := alike_step hf hexit h
          have hrest := hready.tail hm hop hs
          have hdec' : ∀ op ∈ ops, Decoded op := fun op h => hdec op (List.mem_cons_of_mem _ h)
          simp only [trace, hexit, hs, ht, Bool.false_eq_true, if_false, List.nil_append]
          cases hgather : CanCauseGatherPipeInterruptCheck op with
          | true =>
              have heq : f s = f t := hbehind.eq (by simp [Scan.behind, hgather]) (by simp [Scan.behind, hgather])
              rw [heq]
          | false =>
              have hafter : Alike (backwardScan an ops).2 (f s) (f t) := by
                simpa [Scan.behind, hgather] using hbehind
              simp only [Bool.false_eq_true, if_false, List.nil_append]
              exact trace_alike hm hdec' hrest hafter

theorem FpReady.runThrough (hm : KeepsFP m hook) : ∀ {pre ops : List CodeOp} {s s' : PowerPCState ρ},
    (∀ op ∈ pre, Decoded op) → FpReady an (pre ++ ops) s → runThrough an m hook pre s = some s' →
    FpReady an ops s'
  | [], ops, s, s', _, h, hrun => by
      cases hrun
      exact h
  | op :: pre, ops, s, s', hdec, h, hrun => by
      simp only [PPCAnalyst.runThrough] at hrun
      split at hrun
      · cases hrun
      · next s₁ hstep =>
          have hnext : FpReady an (pre ++ ops) s₁ := FpReady.tail hm (hdec op List.mem_cons_self) h hstep
          exact FpReady.runThrough hm (fun op h => hdec op (List.mem_cons_of_mem _ h)) hnext hrun

/-! ## Positions in the block -/

theorem backwardScan_code : ∀ ops : List CodeOp, (backwardScan an ops).1.map (·.code) = ops
  | [] => rfl
  | op :: ops => by simp [backwardScan, backwardScan_code ops]

theorem discardable_at : ∀ {ops : List CodeOp} {i : Nat} {op : AnalyzedOp},
    (backwardScan an ops).1[i]? = some op →
    op.gprDiscardable ⊆ (backwardScan an (ops.drop (i + 1))).2.gprDiscardable ∧
      op.crDiscardable ⊆ (backwardScan an (ops.drop (i + 1))).2.crDiscardable
  | [], _, _, h => by simp [backwardScan] at h
  | _ :: ops, i + 1, op, h => by
      simp only [backwardScan, List.getElem?_cons_succ] at h
      simpa using discardable_at h
  | op' :: ops, 0, op, h => by
      simp only [backwardScan, List.getElem?_cons_zero, Option.some.injEq] at h
      subst h
      simp only [Nat.zero_add, List.drop_succ_cons, List.drop_zero, Scan.behind]
      split <;> simp

end Karphin.PPCAnalyst
