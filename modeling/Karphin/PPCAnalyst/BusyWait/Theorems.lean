import Karphin.PPCAnalyst.BusyWait.Effects

/-!
# Busy wait loops run again

A loop that `IsBusyWaitLoop` accepts maps the state behind its first pass to itself, unless it carries something over
that the analysis does not look at.
-/

namespace Karphin.PPCAnalyst

open Karphin.PowerPC Karphin.Lib Karphin.PowerPC.Interpreter

variable {μ : Type} {n : Nat} {an : PPCAnalyzer} {m_address : BitVec 32} {mmu : Nat → Mmu} {m m₁ : Machine μ}
  {op : LoopOp} {ops code : List LoopOp} {write_disallowed_regs written_regs : Finset (Fin 32)} {r : Fin 32}

/-! ## What the analysis accepts -/

structure FromStats (o : LoopOp) : Prop where
  op : o.op = GetOpInfo o.inst
  regsIn : o.regsIn = regsInOf o.op o.inst
  regsOut : o.regsOut = regsOutOf o.op o.inst
  branchUsesCtr : o.branchUsesCtr = branchUsesCtrOf o.inst

theorem readLoop_fromStats {fpaAny : Bool} {entries : List BlockEntry} (h : op ∈ readLoop an fpaAny entries) :
    FromStats op := by
  induction entries generalizing fpaAny with
  | nil => exact nomatch h
  | cons e entries ih =>
    rcases List.mem_cons.mp h with rfl | h
    · exact ⟨rfl, rfl, rfl, rfl⟩
    · exact ih h

inductive Accepted : (write_disallowed_regs written_regs : Finset (Fin 32)) → List LoopOp → Prop
  | nil {wd w : Finset (Fin 32)} : Accepted wd w []
  | branch {o : LoopOp} {os : List LoopOp} {wd w : Finset (Fin 32)} : o.op.type = .branch →
      o.branchUsesCtr = false → Accepted wd w os → Accepted wd w (o :: os)
  | other {o : LoopOp} {os : List LoopOp} {wd w : Finset (Fin 32)} : o.op.type = .integer ∨ o.op.type = .load →
      o.regsOut ∩ (wd ∪ (o.regsIn \ w)) = ∅ → Accepted (wd ∪ (o.regsIn \ w)) (w ∪ o.regsOut) os →
      Accepted wd w (o :: os)

theorem busyWaitScan_accepted {behind : Nat} :
    busyWaitScan m_address behind code write_disallowed_regs written_regs = true →
      Accepted write_disallowed_regs written_regs (code.take (behind + 1)) := by
  induction code generalizing behind write_disallowed_regs written_regs with
  | nil => exact fun _ => .nil
  | cons op code ih =>
    intro h
    rw [List.take_succ_cons]
    unfold busyWaitScan at h
    dsimp only at h
    split at h
    · next hbranch =>
      split at h
      · cases h
      · next hctr =>
        refine .branch hbranch (Bool.eq_false_iff.mpr hctr) ?_
        split at h
        · next hlast => rw [hlast.2, List.take_zero]; exact .nil
        · cases behind with
          | zero => cases h
          | succ behind => exact ih h
    · split at h
      · cases h
      · next htype =>
        split at h
        · cases h
        · next hout =>
          refine .other ?_ (not_not.mp hout) ?_
          · by_contra hneither
            exact htype (not_or.mp hneither)
          · cases behind with
            | zero => cases h
            | succ behind => exact ih h

theorem Accepted.not_written (h : Accepted write_disallowed_regs written_regs ops) (hr : r ∈ write_disallowed_regs) :
    ∀ op ∈ ops, op.op.type ≠ .branch → r ∉ op.regsOut := by
  induction h with
  | nil => exact fun _ hop => nomatch hop
  | branch hbranch _ _ ih =>
    intro op hop htype
    rcases List.mem_cons.mp hop with rfl | hop
    · exact absurd hbranch htype
    · exact ih hr op hop htype
  | other _ hout _ ih =>
    intro op hop htype hwritten
    rcases List.mem_cons.mp hop with rfl | hop
    · rw [← Finset.disjoint_iff_inter_eq_empty] at hout
      exact Finset.disjoint_left.mp hout hwritten (Finset.mem_union_left _ hr)
    · exact ih (Finset.mem_union_left _ hr) op hop htype hwritten

theorem Accepted.types (h : Accepted write_disallowed_regs written_regs ops) : ∀ op ∈ ops,
    (op.op.type = .branch ∧ op.branchUsesCtr = false) ∨ op.op.type = .integer ∨ op.op.type = .load := by
  induction h with
  | nil => exact fun _ hop => nomatch hop
  | branch hbranch hctr _ ih =>
    intro op hop
    rcases List.mem_cons.mp hop with rfl | hop
    · exact .inl ⟨hbranch, hctr⟩
    · exact ih op hop
  | other htype _ _ ih =>
    intro op hop
    rcases List.mem_cons.mp hop with rfl | hop
    · exact .inr htype
    · exact ih op hop

/-! ## What the scan says about the registers -/

theorem placesOf_branch (h : op.op.type = .branch) :
    placesOf n op = ⟨branchReads op.op op.inst, alwaysLinks op.op op.inst, links op.inst⟩ := by
  rw [placesOf, h]

theorem placesOf_integer (h : op.op.type = .integer) : placesOf n op = ⟨Set.image .cpu (reads op.op op.inst),
    Set.image .cpu (writes op.op op.inst), Set.image .cpu (writes op.op op.inst)⟩ := by
  rw [placesOf, h]

theorem regsWritten_integer {inst : UGeckoInstruction} {o : Op} (h : o.type = .integer) :
    regsWritten n o inst = regsOutOf o inst := by
  cases o
  case lswx | lswi => exact absurd h (by decide)
  all_goals rfl

theorem gpr_mem_image {s : Set Loc} : Place.cpu (.gpr r) ∈ Set.image Place.cpu s ↔ Loc.gpr r ∈ s :=
  ⟨fun ⟨_, hs, heq⟩ => by cases heq; exact hs, fun hs => ⟨_, hs, rfl⟩⟩

theorem gpr_reads (hstats : FromStats op) (htype : op.op.type = .integer ∨ op.op.type = .load)
    (h : .cpu (.gpr r) ∈ (placesOf n op).reads) : r ∈ op.regsIn := by
  have himage : .cpu (.gpr r) ∈ Set.image Place.cpu (reads op.op op.inst) := by
    rcases htype with htype | htype
    · rwa [placesOf_integer htype] at h
    · rwa [placesOf_load htype] at h
  rw [hstats.regsIn]
  exact gpr_mem_image.mp himage

theorem gpr_writes (htype : op.op.type = .integer ∨ op.op.type = .load) :
    .cpu (.gpr r) ∈ (placesOf n op).writes ↔ r ∈ regsWritten n op.op op.inst := by
  rcases htype with htype | htype
  · rw [placesOf_integer htype, regsWritten_integer htype]
    exact gpr_mem_image
  · rw [placesOf_load htype]
    exact Iff.rfl

theorem gpr_mayWrite (htype : op.op.type = .integer ∨ op.op.type = .load) :
    .cpu (.gpr r) ∈ (placesOf n op).mayWrite ↔ r ∈ regsWritten n op.op op.inst := by
  rcases htype with htype | htype
  · rw [placesOf_integer htype, regsWritten_integer htype]
    exact gpr_mem_image
  · rw [placesOf_load htype]
    exact Iff.rfl

theorem mem_followed {p : Place} : p ∈ followed n ops ↔
    ∃ r, p = .cpu (.gpr r) ∧ ∀ op ∈ ops, r ∈ regsWritten n op.op op.inst ↔ r ∈ op.regsOut := by
  constructor
  · intro h
    cases p with
    | cpu ℓ =>
      cases ℓ with
      | gpr r => exact ⟨r, rfl, h⟩
      | cr field => exact h.elim
      | ca => exact h.elim
      | soOv => exact h.elim
      | rest => exact h.elim
    | lr => exact h.elim
    | ctr => exact h.elim
    | reserve => exact h.elim
  · rintro ⟨r, rfl, h⟩
    exact h

theorem followed_cons : followed n (op :: ops) ⊆ followed n ops := by
  intro p hp
  obtain ⟨r, rfl, h⟩ := mem_followed.mp hp
  exact mem_followed.mpr ⟨r, rfl, fun op hop => h op (List.mem_cons_of_mem _ hop)⟩

theorem Accepted.settled (h : Accepted write_disallowed_regs written_regs ops) {U A : Set Place}
    (hstats : ∀ op ∈ ops, FromStats op) (hU : U ⊆ followed n ops)
    (hwritten : ∀ r, .cpu (.gpr r) ∈ U → r ∈ written_regs → .cpu (.gpr r) ∈ A)
    (hkept : ∀ r, .cpu (.gpr r) ∈ U → r ∉ written_regs →
      (∀ op ∈ ops, op.op.type ≠ .branch → r ∉ op.regsOut) → .cpu (.gpr r) ∈ A) :
    Settled U A (ops.map (placesOf n)) := by
  induction h generalizing A with
  | nil => trivial
  | @branch op ops wd w hbranch hctr _ ih =>
    refine ⟨fun p hp => ?_, ih (fun o ho => hstats o (List.mem_cons_of_mem _ ho)) (hU.trans followed_cons)
      (fun r hr hw => .inl (hwritten r hr hw)) fun r hr hw hnone => .inl (hkept r hr hw fun o ho htype => ?_)⟩
    · obtain ⟨r, rfl, -⟩ := mem_followed.mp (hU hp.2)
      have hreads := hp.1
      rw [placesOf_branch hbranch] at hreads
      exact hreads.elim
    · rcases List.mem_cons.mp ho with rfl | ho
      · exact absurd hbranch htype
      · exact hnone o ho htype
  | @other op ops wd w htype hout hrest ih =>
    have hstats' := hstats op List.mem_cons_self
    refine ⟨fun p hp => ?_, ih (fun o ho => hstats o (List.mem_cons_of_mem _ ho)) (hU.trans followed_cons)
      (fun r hr hw => ?_) fun r hr hw hnone => ?_⟩
    · -- a register that has not been written is not to be written from here on
      obtain ⟨r, rfl, -⟩ := mem_followed.mp (hU hp.2)
      by_cases hw : r ∈ w
      · exact hwritten r hp.2 hw
      · have hdisallowed : r ∈ wd ∪ (op.regsIn \ w) :=
          Finset.mem_union_right _ (Finset.mem_sdiff.mpr ⟨gpr_reads hstats' htype hp.1, hw⟩)
        refine hkept r hp.2 hw fun o ho htype' hr => ?_
        rcases List.mem_cons.mp ho with rfl | ho
        · exact Finset.disjoint_left.mp (Finset.disjoint_iff_inter_eq_empty.mpr hout) hr hdisallowed
        · exact hrest.not_written hdisallowed o ho htype' hr
    · obtain ⟨r', heq, hfollowed⟩ := mem_followed.mp (hU hr)
      cases heq
      rcases Finset.mem_union.mp hw with hw | hw
      · exact .inl (hwritten r hr hw)
      · exact .inr ((gpr_writes htype).mpr ((hfollowed op List.mem_cons_self).mpr hw))
    · rw [Finset.mem_union, not_or] at hw
      refine .inl (hkept r hr hw.1 fun o ho htype' => ?_)
      rcases List.mem_cons.mp ho with rfl | ho
      · exact hw.2
      · exact hnone o ho htype'

theorem untouched_of_regsOut (htypes : ∀ op ∈ ops, op.op.type = .branch ∨ op.op.type = .integer ∨ op.op.type = .load)
    (hr : .cpu (.gpr r) ∈ followed n ops) (hnone : ∀ op ∈ ops, op.op.type ≠ .branch → r ∉ op.regsOut) :
    .cpu (.gpr r) ∈ untouched (ops.map (placesOf n)) := by
  intro p hp hmay
  obtain ⟨op, hop, rfl⟩ := List.mem_map.mp hp
  rcases htypes op hop with hbranch | htype
  · rw [placesOf_branch hbranch] at hmay
    exact hmay
  · have hne : op.op.type ≠ .branch := by
      rcases htype with htype | htype <;> rw [htype] <;> decide
    exact hnone op hop hne ((hr op hop).mp ((gpr_mayWrite htype).mp hmay))

/-! ## Passes -/

def transformers (m_address : BitVec 32) : List LoopOp → (Nat → Mmu) → List (Machine μ → Option (Machine μ))
  | [], _ => []
  | op :: ops, mmu => stepTo ((ops.head?.map (·.address)).getD m_address) (mmu 0) op ::
      transformers m_address ops fun i => mmu (i + 1)

theorem pass_eq : pass m_address ops mmu m = runAll (transformers m_address ops mmu) m := by
  induction ops generalizing mmu m with
  | nil => rfl
  | cons op ops ih =>
    rw [pass, transformers, runAll]
    exact Option.bind_congr fun m' _ => ih

theorem transformers_effect (hstats : ∀ op ∈ ops, FromStats op) (htypes : ∀ op ∈ ops,
    (op.op.type = .branch ∧ op.branchUsesCtr = false) ∨ op.op.type = .integer ∨ op.op.type = .load) :
    List.Forall₂ (Effect look (Counts (μ := μ) n)) (transformers m_address ops mmu) (ops.map (placesOf n)) := by
  induction ops generalizing mmu with
  | nil => exact .nil
  | cons op ops ih =>
    refine .cons ?_ (ih (fun o ho => hstats o (List.mem_cons_of_mem _ ho)) fun o ho =>
      htypes o (List.mem_cons_of_mem _ ho))
    have hop := hstats op List.mem_cons_self
    rcases htypes op List.mem_cons_self with ⟨hbranch, hctr⟩ | hinteger | hload
    · exact effect_branch hop.op hbranch (hop.branchUsesCtr.symm.trans hctr) _ _
    · exact effect_integer hop.op hinteger _ _
    · exact effect_load hop.op hload _ _

/-- The second pass of a busy wait loop goes through the same ops back to the entry and leaves the machine as it is, as
long as the ops carry nothing over that the analysis does not look at. -/
theorem IsBusyWaitLoop_idempotent (an : PPCAnalyzer) (m_address : BitVec 32) (block : List BlockEntry)
    (instructions : Nat) (mmu : Nat → Mmu) (m m₁ : Machine μ)
    (hloop : IsBusyWaitLoop m_address (readLoop an false block) instructions = true)
    (hcarry : CarriesNothingOver (byteCount m.cpu) (loopBody (readLoop an false block) instructions))
    (hpass : pass m_address (loopBody (readLoop an false block) instructions) mmu m = some m₁) :
    pass m_address (loopBody (readLoop an false block) instructions) mmu m₁ = some m₁ := by
  have haccepted : Accepted ∅ ∅ (loopBody (readLoop an false block) instructions) := busyWaitScan_accepted hloop
  have hstats : ∀ op ∈ loopBody (readLoop an false block) instructions, FromStats op :=
    fun op hop => readLoop_fromStats (List.mem_of_mem_take hop)
  generalize loopBody (readLoop an false block) instructions = body at *
  have htypes := haccepted.types
  have hsettled := haccepted.settled hstats (le_refl (followed (byteCount m.cpu) body))
    (fun r _ hw => absurd hw (Finset.notMem_empty r)) fun r hr _ hnone => untouched_of_regsOut
      (fun op hop => (htypes op hop).imp And.left id) hr hnone
  rw [pass_eq] at hpass ⊢
  exact runAll_again look_ext (transformers_effect hstats htypes) (hsettled.of_compl hcarry) rfl hpass

def equalMachine : Machine Unit where
  cpu := ⟨fun _ => 0, fun _ => PPCToInternal 2, 0, 0, 0, 0, 0, ()⟩
  lr := 0
  ctr := 0
  reserve := false
  reserveAddress := 0

def zeroMmu : Mmu := ⟨fun _ => 0, fun _ => 0, fun _ => 0⟩

/-- The options of no recompiler; they do not matter to the loops. -/
def plainAnalyzer : PPCAnalyzer := ⟨false, false, false, false, false, false, fun _ => false, fun _ => false⟩

/-- `lwz r3, 0(r4); cmpwi r3, 0; beq` back to the load -/
def pollingLoop : List BlockEntry :=
  [⟨0x80003000, ⟨0x80640000⟩, none⟩, ⟨0x80003004, ⟨0x2C030000⟩, none⟩, ⟨0x80003008, ⟨0x4182FFF8⟩, none⟩]

def pollingBody : List LoopOp := loopBody (readLoop plainAnalyzer false pollingLoop) 2

theorem pollingLoop_carriesNothingOver : CarriesNothingOver 0 pollingBody := by
  have hgpr : ∀ r, Place.cpu (.gpr r) ∈ followed 0 pollingBody := by
    intro r op hop
    have hno : ∀ op ∈ pollingBody, regsWritten 0 op.op op.inst = op.regsOut := by decide
    rw [hno op hop]
  have hbody : pollingBody.map (placesOf 0) =
      [⟨Set.image .cpu (reads .lwz ⟨0x80640000⟩), loadWrites 0 .lwz ⟨0x80640000⟩, loadWrites 0 .lwz ⟨0x80640000⟩⟩,
        ⟨Set.image .cpu (reads .cmpi ⟨0x2C030000⟩), Set.image .cpu (writes .cmpi ⟨0x2C030000⟩),
          Set.image .cpu (writes .cmpi ⟨0x2C030000⟩)⟩,
        ⟨branchReads .bcx ⟨0x4182FFF8⟩, alwaysLinks .bcx ⟨0x4182FFF8⟩, links ⟨0x4182FFF8⟩⟩] := rfl
  have hkept : ∀ ℓ, (ℓ = .rest ∨ ℓ = .soOv) → .cpu ℓ ∈ untouched (pollingBody.map (placesOf 0)) := by
    intro ℓ hℓ p hp
    have hcmpi : ¬ writesSO .cmpi := not_writesSO rfl (by decide)
    rw [hbody] at hp
    simp only [List.mem_cons, List.not_mem_nil, or_false] at hp
    rcases hℓ with rfl | rfl
    · rcases hp with rfl | rfl | rfl
      · exact fun h => h
      · rintro ⟨_, h, heq⟩
        cases heq
        exact h
      · exact fun h => h
    · rcases hp with rfl | rfl | rfl
      · exact fun h => h
      · rintro ⟨_, h, heq⟩
        cases heq
        exact hcmpi h
      · exact fun h => h
  have hreads : ∀ {o : Op} {inst : UGeckoInstruction} {ℓ : Loc}, crInOf o inst = ∅ → o.has .readCA = false →
      ℓ ∈ reads o inst → .cpu ℓ ∈ (followed 0 pollingBody)ᶜ → .cpu ℓ ∈ untouched (pollingBody.map (placesOf 0)) := by
    intro o inst ℓ hcr hca hℓ hnot
    cases ℓ with
    | gpr r => exact absurd (hgpr r) hnot
    | cr field =>
      have hin : field ∈ crInOf o inst := hℓ
      simp [hcr] at hin
    | ca =>
      have hread : o.has .readCA = true := hℓ
      simp [hca] at hread
    | soOv => exact hkept _ (.inr rfl)
    | rest => exact hkept _ (.inl rfl)
  rw [CarriesNothingOver]
  generalize untouched (pollingBody.map (placesOf 0)) = A at *
  rw [hbody]
  refine ⟨?_, ?_, ?_, trivial⟩
  · rintro p ⟨⟨ℓ, hℓ, rfl⟩, hnot⟩
    exact hreads (by decide) rfl hℓ hnot
  · rintro p ⟨⟨ℓ, hℓ, rfl⟩, hnot⟩
    exact .inl (hreads (by decide) rfl hℓ hnot)
  · -- the branch reads the field that the compare has written
    rintro p ⟨hp, -⟩
    cases p with
    | cpu ℓ =>
      cases ℓ with
      | cr field =>
        have hfield : field = crFieldOf (UGeckoInstruction.BI ⟨0x4182FFF8⟩) := hp.2.2
        refine .inr ⟨.cr field, ?_, rfl⟩
        rw [hfield]
        exact show crFieldOf (UGeckoInstruction.BI ⟨0x4182FFF8⟩) ∈ crOutOf .cmpi ⟨0x2C030000⟩ by decide
      | gpr r => exact hp.elim
      | ca => exact hp.elim
      | soOv => exact hp.elim
      | rest => exact hp.elim
    | lr => exact absurd hp (by rintro ⟨⟩)
    | ctr => exact absurd hp (by rintro ⟨⟩)
    | reserve => exact hp.elim

theorem pollingLoop_again : ∃ m₁, pass 0x80003000 pollingBody (fun _ => zeroMmu) equalMachine = some m₁ ∧
    pass 0x80003000 pollingBody (fun _ => zeroMmu) m₁ = some m₁ := by
  have hsome : (pass 0x80003000 pollingBody (fun _ => zeroMmu) equalMachine).isSome = true := by
    decide
  obtain ⟨m₁, hm₁⟩ := Option.isSome_iff_exists.mp hsome
  exact ⟨m₁, hm₁, IsBusyWaitLoop_idempotent plainAnalyzer 0x80003000 pollingLoop 2 (fun _ => zeroMmu) equalMachine m₁
    (by decide) pollingLoop_carriesNothingOver hm₁⟩

/-- `bne` out of the block, `cmpwi r3, 1`, `b` back to the first branch -/
def leavingLoop : List BlockEntry :=
  [⟨0x80003000, ⟨0x40820020⟩, none⟩, ⟨0x80003004, ⟨0x2C030001⟩, none⟩, ⟨0x80003008, ⟨0x4BFFFFF8⟩, none⟩]

/-- The first pass ends at the entry with EQ cleared, and the second one leaves the loop. -/
theorem leavingLoop_leaves :
    IsBusyWaitLoop 0x80003000 (readLoop plainAnalyzer false leavingLoop) 2 = true ∧
    ∃ m₁, pass 0x80003000 (loopBody (readLoop plainAnalyzer false leavingLoop) 2) (fun _ => zeroMmu) equalMachine =
      some m₁ ∧
      pass 0x80003000 (loopBody (readLoop plainAnalyzer false leavingLoop) 2) (fun _ => zeroMmu) m₁ = none := by
  have hpasses : ((pass 0x80003000 (loopBody (readLoop plainAnalyzer false leavingLoop) 2) (fun _ => zeroMmu)
      equalMachine).any fun m₁ => (pass 0x80003000 (loopBody (readLoop plainAnalyzer false leavingLoop) 2)
        (fun _ => zeroMmu) m₁).isNone) = true := by
    decide
  obtain ⟨m₁, hm₁, hnone⟩ := (Option.any_eq_true _ _).mp hpasses
  exact ⟨by decide, m₁, hm₁, Option.isNone_iff_eq_none.mp hnone⟩

end Karphin.PPCAnalyst
