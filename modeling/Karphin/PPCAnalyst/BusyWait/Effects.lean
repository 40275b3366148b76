import Karphin.PowerPC.LoadsAndBranches
import Karphin.PPCAnalyst.Lemmas.Footprints

/-!
# Busy wait loops

`PPCAnalyzer::IsBusyWaitLoop`, the stats of the branches that it looks at, and the execution of the loops that it
accepts.
-/

namespace Karphin.PPCAnalyst

open Karphin.PowerPC Karphin.Lib Karphin.PowerPC.Interpreter

/-! ## The analysis -/

structure LoopOp extends CodeOp where
  branchUsesCtr : Bool
  branchTo : BitVec 32

def branchToOf (address : BitVec 32) (inst : UGeckoInstruction) : BitVec 32 :=
  if inst.OPCD = 18 then bxDestination inst address
  else if inst.OPCD = 16 then bcxDestination inst address
  else 0xFFFFFFFF

def branchUsesCtrOf (inst : UGeckoInstruction) : Bool :=
  if inst.OPCD = 16 then !dontDecrement inst
  else if inst.OPCD = 19 ∧ inst.SUBOP10 = 16 then !dontDecrement inst
  else if inst.OPCD = 19 ∧ inst.SUBOP10 = 528 then !dontDecrement inst
  else false

/-- An instruction as `Analyze` reads it. A return that it merges with an earlier call has a known destination. -/
structure BlockEntry where
  address : BitVec 32
  inst : UGeckoInstruction
  returnsTo : Option (BitVec 32)

variable (an : PPCAnalyzer)

def readLoop (fpaAny : Bool) : List BlockEntry → List LoopOp
  | [] => []
  | e :: entries =>
      { SetInstructionStats an fpaAny e.address e.inst with
        branchUsesCtr := branchUsesCtrOf e.inst
        branchTo := e.returnsTo.getD (branchToOf e.address e.inst) } ::
        readLoop (fpaAny || (GetOpInfo e.inst).has .useFPU) entries

/-- The loop of `IsBusyWaitLoop`, with the number of ops behind the one it looks at. -/
def busyWaitScan (m_address : BitVec 32) :
    Nat → List LoopOp → (write_disallowed_regs written_regs : Finset (Fin 32)) → Bool
  | _, [], _, _ => false
  | behind, op :: code, write_disallowed_regs, written_regs =>
      let next (write_disallowed_regs written_regs : Finset (Fin 32)) : Bool :=
        match behind with
        | 0 => false
        | behind + 1 => busyWaitScan m_address behind code write_disallowed_regs written_regs
      if op.op.type = .branch then
        if op.branchUsesCtr then false
        else if op.branchTo = m_address ∧ behind = 0 then true
        else next write_disallowed_regs written_regs
      else if op.op.type ≠ .integer ∧ op.op.type ≠ .load then false
      else
        let write_disallowed_regs := write_disallowed_regs ∪ (op.regsIn \ written_regs)
        if op.regsOut ∩ write_disallowed_regs ≠ ∅ then false
        else next write_disallowed_regs (written_regs ∪ op.regsOut)

def IsBusyWaitLoop (m_address : BitVec 32) (code : List LoopOp) (instructions : Nat) : Bool :=
  busyWaitScan m_address instructions code ∅ ∅

/-- The ops that `IsBusyWaitLoop` has looked at when it returns `true`. -/
def loopBody (code : List LoopOp) (instructions : Nat) : List LoopOp := code.take (instructions + 1)

/-! ## Execution -/

variable {μ : Type}

/-- One op, and the address of the next one; `none` when it raises an exception. -/
def stepLoop (mmu : Mmu) (op : LoopOp) (m : Machine μ) : Option (BitVec 32 × Machine μ) :=
  match op.op.type with
  | .branch => runBranch op.op op.inst op.address m
  | .load => (runLoad mmu op.op op.inst m).map fun m => (op.address + 4, m)
  | _ => (interpreterTable op.op).map fun f => (op.address + 4, { m with cpu := f op.inst m.cpu })

def stepTo (next : BitVec 32) (mmu : Mmu) (op : LoopOp) (m : Machine μ) : Option (Machine μ) :=
  match stepLoop mmu op m with
  | some (npc, m) => if npc = next then some m else none
  | none => none

/-- One pass over the ops, each with what its loads return. It goes from each op to the one behind it and from the
last one back to the block's entry; `none` when it leaves the ops elsewhere. -/
def pass (m_address : BitVec 32) : List LoopOp → (Nat → Mmu) → Machine μ → Option (Machine μ)
  | [], _, m => some m
  | op :: ops, mmu, m =>
      let next := (ops.head?.map (·.address)).getD m_address
      (stepTo next (mmu 0) op m).bind (pass m_address ops fun i => mmu (i + 1))

/-! ## What the ops read and write -/

inductive Place
  | cpu (ℓ : Loc)
  | lr
  | ctr
  | reserve

def Place.Val (μ : Type) : Place → Type
  | .cpu ℓ => ℓ.Val μ
  | .lr => BitVec 32
  | .ctr => BitVec 32
  | .reserve => Bool × BitVec 32

def look (m : Machine μ) : (p : Place) → p.Val μ
  | .cpu ℓ => get m.cpu ℓ
  | .lr => m.lr
  | .ctr => m.ctr
  | .reserve => (m.reserve, m.reserveAddress)

def stringRegs (inst : UGeckoInstruction) (n : Nat) : Finset (Fin 32) :=
  (Finset.range n).image fun k => inst.RD + Fin.ofNat 32 (k / 4)

/-- The registers that an op writes when the byte count in XER is `n`. -/
def regsWritten (n : Nat) (op : Op) (inst : UGeckoInstruction) : Finset (Fin 32) :=
  match op with
  | .lswx => stringRegs inst n
  | .lswi => stringRegs inst (if inst.NB ≠ 0 then inst.NB else 32)
  | op => regsOutOf op inst

def loadWrites (n : Nat) (op : Op) (inst : UGeckoInstruction) : Set Place
  | .cpu (.gpr r) => r ∈ regsWritten n op inst
  | .reserve => op = .lwarx
  | _ => False

def branchReads (op : Op) (inst : UGeckoInstruction) : Set Place
  | .cpu (.cr field) => op ≠ .bx ∧ dontCheckCondition inst = false ∧ field = crFieldOf inst.BI
  | .lr => op = .bclrx
  | .ctr => op = .bcctrx
  | _ => False

def links (inst : UGeckoInstruction) : Set Place
  | .lr => inst.LK
  | _ => False

def alwaysLinks (op : Op) (inst : UGeckoInstruction) : Set Place
  | .lr => inst.LK ∧ (op = .bx ∨ dontCheckCondition inst)
  | _ => False

def placesOf (n : Nat) (op : LoopOp) : Places Place :=
  match op.op.type with
  | .branch => ⟨branchReads op.op op.inst, alwaysLinks op.op op.inst, links op.inst⟩
  | .load => ⟨Set.image .cpu (reads op.op op.inst), loadWrites n op.op op.inst, loadWrites n op.op op.inst⟩
  | _ => ⟨Set.image .cpu (reads op.op op.inst), Set.image .cpu (writes op.op op.inst),
      Set.image .cpu (writes op.op op.inst)⟩

/-- The registers for which `regsOut` says what the ops write. String loads write others than RD. -/
def followed (n : Nat) (ops : List LoopOp) : Set Place
  | .cpu (.gpr r) => ∀ op ∈ ops, r ∈ regsWritten n op.op op.inst ↔ r ∈ op.regsOut
  | _ => False

/-- Where `IsBusyWaitLoop` does not look, the ops carry nothing over to the next pass: what one of them reads is
written by none of them, or it has been written by one before. -/
def CarriesNothingOver (n : Nat) (ops : List LoopOp) : Prop :=
  Settled (followed n ops)ᶜ (untouched (ops.map (placesOf n))) (ops.map (placesOf n))

end Karphin.PPCAnalyst

/-! The effect of each op that a busy wait loop may have. -/

namespace Karphin.PPCAnalyst

open Karphin.PowerPC Karphin.Lib Karphin.PowerPC.Interpreter

variable {μ : Type} {n : Nat} {R W : Set Loc} {s t : PowerPCState μ} {m m' : Machine μ} {inst : UGeckoInstruction}
  {op : Op}

theorem look_ext (h : ∀ p, look m p = look m' p) : m = m' := by
  cases m with
  | mk cpu lr ctr reserve reserveAddress =>
    cases m' with
    | mk cpu' lr' ctr' reserve' reserveAddress' =>
      have hcpu : cpu = cpu' := get_ext fun ℓ => h (.cpu ℓ)
      have hlr : lr = lr' := h .lr
      have hctr : ctr = ctr' := h .ctr
      have hreserve : (reserve, reserveAddress) = (reserve', reserveAddress') := h .reserve
      simp only [Prod.mk.injEq] at hreserve
      simp [hcpu, hlr, hctr, hreserve]

theorem agreeOn_cpu (h : AgreeOn look (Set.image .cpu R) m m') : AgreeOn get R m.cpu m'.cpu :=
  fun ℓ hℓ => h (.cpu ℓ) ⟨ℓ, hℓ, rfl⟩

theorem byteCount_eq (h : get s .rest = get t .rest) : byteCount s = byteCount t := by
  rw [byteCount, byteCount, (get_rest_eq.mp h).1]

theorem littleEndian_eq (h : get s .rest = get t .rest) : littleEndian s = littleEndian t := by
  rw [littleEndian, littleEndian, (get_rest_eq.mp h).2.2.1]

def Counts (n : Nat) (m : Machine μ) : Prop := byteCount m.cpu = n

theorem cpu_footprint {g : PowerPCState μ → PowerPCState μ} (hg : Footprint get g R W) :
    Footprint look (fun m => { m with cpu := g m.cpu }) (Set.image .cpu R) (Set.image .cpu W) where
  frame m p hp := by
    cases p with
    | cpu ℓ => exact hg.frame m.cpu ℓ fun hℓ => hp ⟨ℓ, hℓ, rfl⟩
    | lr => rfl
    | ctr => rfl
    | reserve => rfl
  determined h := by
    rintro p ⟨ℓ, hℓ, rfl⟩
    exact hg.determined (agreeOn_cpu h) ℓ hℓ

theorem Counts.of_frame {g : PowerPCState μ → PowerPCState μ} (hg : Footprint get g R W) (hrest : .rest ∉ W)
    (hm : Counts n m) : byteCount (g m.cpu) = n :=
  (byteCount_eq (hg.frame m.cpu .rest hrest)).trans hm

/-! ## Integer instructions -/

theorem stepTo_integer {next : BitVec 32} {mmu : Mmu} {o : LoopOp} (htype : o.op.type = .integer)
    {f : UGeckoInstruction → PowerPCState μ → PowerPCState μ} (hf : interpreterTable o.op = some f) :
    stepTo next mmu o m = if decide (o.address + 4 ≠ next) then none else some { m with cpu := f o.inst m.cpu } := by
  simp [stepTo, stepLoop, htype, hf]

theorem effect_integer {o : LoopOp} (hop : o.op = GetOpInfo o.inst) (htype : o.op.type = .integer) (next : BitVec 32)
    (mmu : Mmu) : Effect look (Counts (μ := μ) n) (stepTo next mmu o) (placesOf n o) := by
  have hsome : (interpreterTable (ρ := μ) o.op).isSome = true := by
    rw [isSome_eq_modelled, modelled_of_integer htype]
  obtain ⟨f, hf⟩ := Option.isSome_iff_exists.mp hsome
  have hfoot : Footprint get (f o.inst) (reads o.op o.inst) (writes o.op o.inst) := by
    rw [hop] at hf ⊢
    exact modelled_footprint hf
  have hplaces : placesOf n o = ⟨Set.image .cpu (reads o.op o.inst), Set.image .cpu (writes o.op o.inst),
      Set.image .cpu (writes o.op o.inst)⟩ := by
    rw [placesOf]
    split
    · next hbranch => exact absurd (htype.symm.trans hbranch) (by decide)
    · next hload => exact absurd (htype.symm.trans hload) (by decide)
    · rfl
  rw [hplaces]
  exact (cpu_footprint hfoot).effect (fun _ => decide (o.address + 4 ≠ next))
    (fun _ hm => Counts.of_frame hfoot (fun h => h) hm) (fun _ => rfl) fun _ _ => stepTo_integer htype hf

/-! ## Loads -/

def gprs (regs : Finset (Fin 32)) : Set Loc
  | .gpr r => r ∈ regs
  | _ => False

theorem gprs_footprint {f : PowerPCState μ → PowerPCState μ} {regs : Finset (Fin 32)}
    (hframe : ∀ s, ∃ g, f s = { s with gpr := g } ∧ ∀ r ∉ regs, g r = s.gpr r)
    (hregs : ∀ {s t}, AgreeOn get R s t → ∀ r ∈ regs, (f s).gpr r = (f t).gpr r) :
    Footprint get f R (gprs regs) where
  frame s ℓ hℓ := by
    obtain ⟨g, hg, hkept⟩ := hframe s
    rw [hg]
    cases ℓ with
    | gpr r => exact hkept r hℓ
    | cr field => rfl
    | ca => rfl
    | soOv => rfl
    | rest => rfl
  determined h ℓ hℓ := by
    cases ℓ with
    | gpr r => exact hregs h r hℓ
    | cr field => exact hℓ.elim
    | ca => exact hℓ.elim
    | soOv => exact hℓ.elim
    | rest => exact hℓ.elim

theorem primaryTable_load : ∀ row ∈ primaryTable, row.2.type = .load → row.1 ≠ 46 := by
  decide

theorem otherTables_load : ∀ table ∈ table19 :: floatTables, ∀ row ∈ table, row.2.type ≠ .load := by
  decide

theorem load_OPCD (hop : GetOpInfo inst = op) (h : op.type = .load) : inst.OPCD ≠ 46#6 := by
  have hknown : op ≠ .unknown_instruction := by
    rintro rfl
    exact absurd h (by decide)
  have hother : ∀ {table : List (Nat × Op)}, InTable op table → table ∈ table19 :: floatTables → False := by
    rintro table ⟨row, hrow, rfl⟩ htable
    exact otherTables_load table htable row hrow h
  intro h46
  rcases GetOpInfo_cases hop hknown with ⟨h4, -⟩ | ⟨h19, -⟩ | ⟨h31, -⟩ | ⟨h59, -⟩ | ⟨h63, -⟩ | hprimary
  · simp [h46] at h4
  · simp [h46] at h19
  · simp [h46] at h31
  · simp [h46] at h59
  · simp [h46] at h63
  · exact primaryTable_load _ hprimary h (by simp [h46])

theorem agree_EA (h : AgreeOn get (reads op inst) s t) (ha : op.has .inA0 = true) :
    Helper_Get_EA s inst = Helper_Get_EA t inst := by
  unfold Helper_Get_EA
  split
  · next h0 => rw [agree_RA0 h ha h0]
  · rfl

theorem agree_EA_U (h : AgreeOn get (reads op inst) s t) (ha : op.has .inA = true) :
    Helper_Get_EA_U s inst = Helper_Get_EA_U t inst := by
  rw [Helper_Get_EA_U, Helper_Get_EA_U, agree_RA h ha]

theorem agree_EA_X (h : AgreeOn get (reads op inst) s t) (ha : op.has .inA0 = true) (hb : op.has .inB = true) :
    Helper_Get_EA_X s inst = Helper_Get_EA_X t inst := by
  unfold Helper_Get_EA_X
  split
  · next h0 => rw [agree_RA0 h ha h0, agree_RB h hb]
  · rw [agree_RB h hb]

theorem agree_EA_UX (h : AgreeOn get (reads op inst) s t) (ha : op.has .inA = true) (hb : op.has .inB = true) :
    Helper_Get_EA_UX s inst = Helper_Get_EA_UX t inst := by
  rw [Helper_Get_EA_UX, Helper_Get_EA_UX, agree_RA h ha, agree_RB h hb]

section
variable {ea : PowerPCState μ → UGeckoInstruction → BitVec 32} {read : BitVec 32 → BitVec 32}

theorem load_footprint (hD : writesD op = true) (h46 : inst.OPCD ≠ 46#6)
    (hea : ∀ {s t}, AgreeOn get (reads op inst) s t → ea s inst = ea t inst) :
    Footprint get (load ea read inst) (reads op inst) (gprs (regsOutOf op inst)) := by
  rw [regsOutOf_D hD h46]
  refine gprs_footprint (fun s => ⟨_, rfl, fun r hr => ?_⟩) fun {s t} h r hr => ?_
  · have hne : r ≠ inst.RD := by simpa using hr
    simp [hne]
  · have heq : r = inst.RD := by simpa using hr
    simp [load, PowerPCState.setGpr, heq, hea h]

theorem loadUpdate_footprint (hD : op.has .outD = true) (hA : op.has .outA = true) (h46 : inst.OPCD ≠ 46#6)
    (hea : ∀ {s t}, AgreeOn get (reads op inst) s t → ea s inst = ea t inst) :
    Footprint get (loadUpdate ea read inst) (reads op inst) (gprs (regsOutOf op inst)) := by
  have hregs : regsOutOf op inst = {inst.RA, inst.RD} := by
    simp [regsOutOf, when, hD, hA, h46]
  rw [hregs]
  refine gprs_footprint (fun s => ⟨_, rfl, fun r hr => ?_⟩) fun {s t} h r hr => ?_
  · have hne : r ≠ inst.RA ∧ r ≠ inst.RD := by simpa using hr
    simp [load, PowerPCState.setGpr, hne]
  · have heq : r = inst.RA ∨ r = inst.RD := by simpa using hr
    by_cases hA : r = inst.RA
    · simp [loadUpdate, load, PowerPCState.setGpr, hA, hea h]
    · simp [loadUpdate, load, PowerPCState.setGpr, heq.resolve_left hA, hea h, Function.update_apply]

end

theorem wordLoads_footprint {mmu : Mmu} {f : UGeckoInstruction → PowerPCState μ → PowerPCState μ}
    (hf : wordLoads mmu op = some f) (h46 : inst.OPCD ≠ 46#6) :
    Footprint get (f inst) (reads op inst) (gprs (regsOutOf op inst)) := by
  cases op
  case lbz | lhz | lha | lwz =>
      cases hf
      exact load_footprint rfl h46 fun h => agree_EA h rfl
  case lbzx | lhzx | lhax | lwzx | lhbrx | lwbrx =>
      cases hf
      exact load_footprint rfl h46 fun h => agree_EA_X h rfl rfl
  case lbzu | lhzu | lhau | lwzu =>
      cases hf
      exact loadUpdate_footprint rfl rfl h46 fun h => agree_EA_U h rfl
  case lbzux | lhzux | lhaux | lwzux =>
      cases hf
      exact loadUpdate_footprint rfl rfl h46 fun h => agree_EA_UX h rfl rfl
  all_goals exact nomatch hf

/-! ### String loads -/

section
variable {mmu : Mmu} {EA : BitVec 32} {k : Nat} {r : Fin 32}

def stringReg (inst : UGeckoInstruction) (k : Nat) : Fin 32 := inst.RD + Fin.ofNat 32 (k / 4)

theorem lswxByte_frame (mmu : Mmu) (inst : UGeckoInstruction) (EA : BitVec 32) (s : PowerPCState μ) (k : Nat) :
    ∃ g, lswxByte mmu inst EA s k = { s with gpr := g } ∧
    ∀ r, r ≠ stringReg inst k → g r = s.gpr r := by
  unfold lswxByte
  dsimp only
  split
  · exact ⟨_, rfl, fun r hr => (Function.update_of_ne hr _ _).trans (Function.update_of_ne hr _ _)⟩
  · exact ⟨_, rfl, fun r hr => Function.update_of_ne hr _ _⟩

theorem lswxByte_gpr : (lswxByte mmu inst EA s k).gpr (stringReg inst k) =
    (if k % 4 = 0 then 0 else s.gpr (stringReg inst k)) |||
      readByte mmu (EA + BitVec.ofNat 32 k) <<< (24 - k % 4 * 8) := by
  unfold lswxByte stringReg
  dsimp only
  split <;> simp [PowerPCState.setGpr]

theorem stringRegs_succ : stringRegs inst (k + 1) = insert (stringReg inst k) (stringRegs inst k) := by
  rw [stringRegs, Finset.range_add_one, Finset.image_insert]
  rfl

theorem stringReg_next (h : k % 4 = 3) : stringReg inst (k + 1) = stringReg inst k + 1 := by
  have hk : (k + 1) / 4 = k / 4 + 1 := by omega
  rw [stringReg, stringReg, hk]
  apply Fin.ext
  simp only [Fin.val_add, Fin.ofNat]
  omega

theorem stringReg_mem (h : k % 4 ≠ 0) : stringReg inst k ∈ stringRegs inst k := by
  have hlast : (k - 1) / 4 = k / 4 := by omega
  exact Finset.mem_image.mpr ⟨k - 1, Finset.mem_range.mpr (by omega), by rw [hlast, stringReg]⟩

def stringBytes (mmu : Mmu) (inst : UGeckoInstruction) (EA : BitVec 32) (k : Nat) (s : PowerPCState μ) :
    PowerPCState μ :=
  (List.range k).foldl (lswxByte mmu inst EA) s

theorem stringBytes_succ : stringBytes mmu inst EA (k + 1) s =
    lswxByte mmu inst EA (stringBytes mmu inst EA k s) k := by
  simp [stringBytes, List.range_succ]

theorem stringBytes_frame : ∃ g, stringBytes mmu inst EA k s = { s with gpr := g } ∧
    ∀ r ∉ stringRegs inst k, g r = s.gpr r := by
  induction k with
  | zero => exact ⟨s.gpr, rfl, fun _ _ => rfl⟩
  | succ k ih =>
    obtain ⟨g, hg, hkept⟩ := ih
    obtain ⟨g', hg', hkept'⟩ := lswxByte_frame mmu inst EA (stringBytes mmu inst EA k s) k
    rw [stringBytes_succ, hg']
    refine ⟨g', by rw [hg], fun r hr => ?_⟩
    rw [stringRegs_succ, Finset.mem_insert, not_or] at hr
    rw [hkept' r hr.1, hg]
    exact hkept r hr.2

theorem stringBytes_gpr (hr : r ∈ stringRegs inst k) :
    (stringBytes mmu inst EA k s).gpr r = (stringBytes mmu inst EA k t).gpr r := by
  induction k with
  | zero => simp [stringRegs] at hr
  | succ k ih =>
    rw [stringBytes_succ, stringBytes_succ]
    by_cases hlast : r = stringReg inst k
    · subst hlast
      rw [lswxByte_gpr, lswxByte_gpr]
      split
      · rfl
      · next hk => rw [ih (stringReg_mem hk)]
    · obtain ⟨g, hg, hkept⟩ := lswxByte_frame mmu inst EA (stringBytes mmu inst EA k s) k
      obtain ⟨g', hg', hkept'⟩ := lswxByte_frame mmu inst EA (stringBytes mmu inst EA k t) k
      rw [stringRegs_succ] at hr
      rw [hg, hg']
      change g r = g' r
      rw [hkept r hlast, hkept' r hlast]
      exact ih (Finset.mem_of_mem_insert_of_ne hr hlast)

theorem stringBytes_footprint {ea : PowerPCState μ → BitVec 32} (hea : ∀ {s t}, AgreeOn get R s t → ea s = ea t) :
    Footprint get (fun s => stringBytes mmu inst (ea s) k s) R (gprs (stringRegs inst k)) :=
  gprs_footprint (fun _ => stringBytes_frame) fun h r hr => by rw [hea h, stringBytes_gpr hr]

theorem lswiLoop_eq {left i : Nat} (hi : i = k % 4 * 8) (hr : (if i = 0 then r + 1 else r) = stringReg inst k) :
    lswiLoop mmu left r i (EA + BitVec.ofNat 32 k) s = (List.range' k left).foldl (lswxByte mmu inst EA) s := by
  induction left generalizing k r i s with
  | zero => rfl
  | succ left ih =>
    have hi0 : i = 0 ↔ k % 4 = 0 := by omega
    have hnext : EA + BitVec.ofNat 32 k + 1 = EA + BitVec.ofNat 32 (k + 1) := by
      rw [BitVec.add_assoc, BitVec.ofNat_add]
      rfl
    have hbyte : lswxByte mmu inst EA s k = (if i = 0 then s.setGpr (stringReg inst k) 0 else s).setGpr
        (stringReg inst k) ((if i = 0 then s.setGpr (stringReg inst k) 0 else s).gpr (stringReg inst k) |||
          readByte mmu (EA + BitVec.ofNat 32 k) <<< (24 - i)) := by
      simp only [hi0]
      rw [hi]
      rfl
    rw [List.range'_succ, List.foldl_cons, hbyte, lswiLoop, hr, hnext]
    apply ih
    · split <;> omega
    · by_cases hwrap : i + 8 = 32
      · simp [hwrap, stringReg_next (show k % 4 = 3 by omega)]
      · have hk : (k + 1) / 4 = k / 4 := by omega
        simp [hwrap, stringReg, hk]

theorem lswiLoop_start : lswiLoop mmu k (inst.RD - 1) 0 EA s = stringBytes mmu inst EA k s := by
  have hloop : lswiLoop mmu k (inst.RD - 1) 0 (EA + BitVec.ofNat 32 0) s =
      (List.range' 0 k).foldl (lswxByte mmu inst EA) s := lswiLoop_eq rfl (by simp [stringReg])
  have hEA : EA + BitVec.ofNat 32 0 = EA := BitVec.add_zero EA
  rw [hEA] at hloop
  rw [hloop, stringBytes, List.range_eq_range']

end

def lswiEA (inst : UGeckoInstruction) (s : PowerPCState μ) : BitVec 32 := if inst.RA ≠ 0 then s.gpr inst.RA else 0

theorem lswi_eq {mmu : Mmu} : lswi mmu inst s = if littleEndian s then none else
    some (stringBytes mmu inst (lswiEA inst s) (if inst.NB ≠ 0 then inst.NB else 32) s) := by
  rw [lswi, lswiLoop_start]
  rfl

theorem agree_lswiEA (h : AgreeOn get (reads op inst) s t) (ha : op.has .inA0 = true) :
    lswiEA inst s = lswiEA inst t := by
  unfold lswiEA
  split
  · next h0 => rw [agree_RA0 h ha h0]
  · rfl

/-! ### All loads -/

theorem loadWrites_eq {o : LoopOp} (h : o.op ≠ .lwarx) :
    loadWrites n o.op o.inst = Set.image .cpu (gprs (regsWritten n o.op o.inst)) := by
  ext p
  cases p with
  | cpu ℓ =>
    cases ℓ with
    | gpr r => exact ⟨fun hr => ⟨.gpr r, hr, rfl⟩, fun ⟨_, hr, heq⟩ => by cases heq; exact hr⟩
    | cr field => exact ⟨False.elim, fun ⟨_, hr, heq⟩ => by cases heq; exact hr⟩
    | ca => exact ⟨False.elim, fun ⟨_, hr, heq⟩ => by cases heq; exact hr⟩
    | soOv => exact ⟨False.elim, fun ⟨_, hr, heq⟩ => by cases heq; exact hr⟩
    | rest => exact ⟨False.elim, fun ⟨_, hr, heq⟩ => by cases heq; exact hr⟩
  | lr => exact ⟨False.elim, fun ⟨_, _, heq⟩ => nomatch heq⟩
  | ctr => exact ⟨False.elim, fun ⟨_, _, heq⟩ => nomatch heq⟩
  | reserve => exact ⟨fun hr => absurd hr h, fun ⟨_, _, heq⟩ => nomatch heq⟩

theorem agree_littleEndian (h : AgreeOn get (reads op inst) s t) : littleEndian s = littleEndian t :=
  littleEndian_eq (h .rest trivial)

theorem placesOf_load {o : LoopOp} (htype : o.op.type = .load) : placesOf n o =
    ⟨Set.image .cpu (reads o.op o.inst), loadWrites n o.op o.inst, loadWrites n o.op o.inst⟩ := by
  rw [placesOf, htype]

theorem stepTo_load {next : BitVec 32} {mmu : Mmu} {o : LoopOp} (htype : o.op.type = .load) {fails : Bool}
    (hrun : runLoad mmu o.op o.inst m = if fails then none else some m') :
    stepTo next mmu o m = if fails || decide (o.address + 4 ≠ next) then none else some m' := by
  cases fails with
  | true => simp [stepTo, stepLoop, htype, hrun]
  | false => simp [stepTo, stepLoop, htype, hrun]

theorem effect_cpuLoad {o : LoopOp} {next : BitVec 32} {mmu : Mmu} (htype : o.op.type = .load) (hne : o.op ≠ .lwarx)
    (fails : PowerPCState μ → Bool) {g : PowerPCState μ → PowerPCState μ}
    (hg : Footprint get g (reads o.op o.inst) (gprs (regsWritten n o.op o.inst)))
    (hfails : ∀ {s t}, AgreeOn get (reads o.op o.inst) s t → fails s = fails t)
    (hrun : ∀ m, Counts n m →
      runLoad mmu o.op o.inst m = if fails m.cpu then none else some { m with cpu := g m.cpu }) :
    Effect look (Counts (μ := μ) n) (stepTo next mmu o) (placesOf n o) := by
  rw [placesOf_load htype, loadWrites_eq hne]
  exact (cpu_footprint hg).effect (fun m => fails m.cpu || decide (o.address + 4 ≠ next))
    (fun _ hm => Counts.of_frame hg (fun h => h) hm) (fun h => by rw [hfails (agreeOn_cpu h)])
    fun m hm => stepTo_load htype (hrun m hm)

def loadAndReserve (mmu : Mmu) (inst : UGeckoInstruction) (m : Machine μ) : Machine μ :=
  { m with
    cpu := m.cpu.setGpr inst.RD (mmu.Read_U32 (Helper_Get_EA_X m.cpu inst))
    reserve := true
    reserveAddress := Helper_Get_EA_X m.cpu inst }

theorem loadAndReserve_footprint (mmu : Mmu) (h46 : inst.OPCD ≠ 46#6) :
    Footprint look (loadAndReserve (μ := μ) mmu inst) (Set.image .cpu (reads .lwarx inst))
      (loadWrites n .lwarx inst) := by
  have hg : Footprint get (load (μ := μ) Helper_Get_EA_X mmu.Read_U32 inst) (reads .lwarx inst)
      (gprs (regsOutOf .lwarx inst)) := load_footprint rfl h46 fun h => agree_EA_X h rfl rfl
  constructor
  · intro m p hp
    cases p with
    | cpu ℓ =>
      refine hg.frame m.cpu ℓ fun hℓ => hp ?_
      cases ℓ with
      | gpr r => exact hℓ
      | cr field => exact hℓ
      | ca => exact hℓ
      | soOv => exact hℓ
      | rest => exact hℓ
    | lr => rfl
    | ctr => rfl
    | reserve => exact absurd rfl hp
  · intro m m' h p hp
    have hcpu := agreeOn_cpu h
    cases p with
    | cpu ℓ =>
      refine hg.determined hcpu ℓ ?_
      cases ℓ with
      | gpr r => exact hp
      | cr field => exact hp
      | ca => exact hp
      | soOv => exact hp
      | rest => exact hp
    | lr => exact hp.elim
    | ctr => exact hp.elim
    | reserve => exact congrArg (Prod.mk true) (agree_EA_X hcpu rfl rfl)

theorem effect_lwarx {o : LoopOp} (hop : o.op = .lwarx) (h46 : o.inst.OPCD ≠ 46#6) (next : BitVec 32) (mmu : Mmu) :
    Effect look (Counts (μ := μ) n) (stepTo next mmu o) (placesOf n o) := by
  have htype : o.op.type = .load := by rw [hop]; rfl
  rw [placesOf_load htype, hop]
  refine (loadAndReserve_footprint mmu h46).effect
    (fun m => decide (Helper_Get_EA_X m.cpu o.inst &&& 0b11 ≠ 0) || decide (o.address + 4 ≠ next))
    (fun _ hm => hm) (fun h => ?_) fun m _ => stepTo_load htype ?_
  · rw [agree_EA_X (agreeOn_cpu h) rfl rfl]
  · rw [hop, runLoad, lwarx]
    simp only [decide_eq_true_eq]
    rfl

theorem load_cases (mmu : Mmu) (h : op.type = .load) :
    op = .lwarx ∨ op = .lswx ∨ op = .lswi ∨ (wordLoads (μ := μ) mmu op).isSome = true := by
  have hall : (!decide (op.type = .load) || decide (op = .lwarx) || decide (op = .lswx) || decide (op = .lswi) ||
      (wordLoads (μ := μ) mmu op).isSome) = true := by cases op <;> rfl
  simpa [h, or_assoc] using hall

theorem runLoad_word {mmu : Mmu} {f : UGeckoInstruction → PowerPCState μ → PowerPCState μ}
    (hf : wordLoads mmu op = some f) : runLoad mmu op inst m = some { m with cpu := f inst m.cpu } := by
  cases op
  case lwarx | lswx | lswi => exact nomatch hf
  all_goals simp only [runLoad, hf, Option.map_some]

theorem regsWritten_word {mmu : Mmu} {f : UGeckoInstruction → PowerPCState μ → PowerPCState μ}
    (hf : wordLoads mmu op = some f) : regsWritten n op inst = regsOutOf op inst := by
  cases op
  case lwarx | lswx | lswi => exact nomatch hf
  all_goals rfl

theorem effect_load {o : LoopOp} (hop : o.op = GetOpInfo o.inst) (htype : o.op.type = .load) (next : BitVec 32)
    (mmu : Mmu) : Effect look (Counts (μ := μ) n) (stepTo next mmu o) (placesOf n o) := by
  have h46 := load_OPCD hop.symm htype
  rcases load_cases (μ := μ) mmu htype with hlwarx | hlswx | hlswi | hsome
  · exact effect_lwarx hlwarx h46 next mmu
  · refine effect_cpuLoad htype (by simp [hlswx]) littleEndian
      (g := fun s => stringBytes mmu o.inst (Helper_Get_EA_X s o.inst) n s) ?_ (fun h => agree_littleEndian h) ?_
    · rw [hlswx]
      exact stringBytes_footprint fun h => agree_EA_X h rfl rfl
    · intro m hm
      rw [hlswx, runLoad, lswx, hm]
      split <;> rfl
  · refine effect_cpuLoad htype (by simp [hlswi]) littleEndian
      (g := fun s => stringBytes mmu o.inst (lswiEA o.inst s) (if o.inst.NB ≠ 0 then o.inst.NB else 32) s) ?_
      (fun h => agree_littleEndian h) ?_
    · rw [hlswi]
      exact stringBytes_footprint fun h => agree_lswiEA h rfl
    · intro m hm
      rw [hlswi, runLoad, lswi_eq]
      split <;> rfl
  · obtain ⟨f, hf⟩ := Option.isSome_iff_exists.mp hsome
    have hne : o.op ≠ .lwarx := by
      intro h
      rw [h] at hf
      exact nomatch hf
    refine effect_cpuLoad htype hne (fun _ => false) (g := f o.inst) ?_ (fun _ => rfl) fun m _ => runLoad_word hf
    rw [regsWritten_word hf]
    exact wordLoads_footprint hf h46

/-! ## Branches -/

theorem primaryTable_branch : ∀ row ∈ primaryTable, row.2.type = .branch →
    row.2 ≠ .bclrx ∧ (row.2 = .bcx → row.1 = 16) := by
  decide

theorem table19_branch : ∀ row ∈ table19, row.2.type = .branch → row.2 ≠ .bcx ∧ (row.2 = .bclrx → row.1 = 16) := by
  decide

theorem otherTables_branch : ∀ table ∈ table31 :: floatTables, ∀ row ∈ table, row.2.type ≠ .branch := by
  decide

theorem branch_OPCD (hop : GetOpInfo inst = op) (h : op.type = .branch) :
    (op = .bcx → inst.OPCD = 16) ∧ (op = .bclrx → inst.OPCD = 19 ∧ inst.SUBOP10 = 16) := by
  have hknown : op ≠ .unknown_instruction := by
    rintro rfl
    exact absurd h (by decide)
  have hother : ∀ {table : List (Nat × Op)}, InTable op table → table ∈ table31 :: floatTables → False := by
    rintro table ⟨row, hrow, rfl⟩ htable
    exact otherTables_branch table htable row hrow h
  rcases GetOpInfo_cases hop hknown with ⟨-, h4⟩ | ⟨hopcd, h19⟩ | ⟨-, h31⟩ | ⟨-, h59⟩ | ⟨-, h63⟩ | hprimary
  · rcases h4 with h4 | h4 | h4 <;> exact (hother h4 (by simp [floatTables])).elim
  · obtain ⟨hbcx, hbclrx⟩ := table19_branch _ h19 h
    exact ⟨fun h => absurd h hbcx, fun h => ⟨BitVec.eq_of_toNat_eq hopcd, BitVec.eq_of_toNat_eq (hbclrx h)⟩⟩
  · exact (hother ⟨_, h31, rfl⟩ (by simp)).elim
  · exact (hother h59 (by simp [floatTables])).elim
  · rcases h63 with h63 | h63 <;> exact (hother h63 (by simp [floatTables])).elim
  · obtain ⟨hbclrx, hbcx⟩ := primaryTable_branch _ hprimary h
    exact ⟨fun h => BitVec.eq_of_toNat_eq (hbcx h), fun h => absurd h hbclrx⟩

theorem dontDecrement_of_not_usesCtr (hop : GetOpInfo inst = op) (h : op.type = .branch)
    (hctr : branchUsesCtrOf inst = false) (hdec : op = .bcx ∨ op = .bclrx) : dontDecrement inst = true := by
  obtain ⟨hbcx, hbclrx⟩ := branch_OPCD hop h
  rcases hdec with h | h
  · simpa [branchUsesCtrOf, hbcx h] using hctr
  · simpa [branchUsesCtrOf, hbclrx h] using hctr

def destination (op : Op) (inst : UGeckoInstruction) (pc : BitVec 32) (m : Machine μ) : BitVec 32 :=
  match op with
  | .bx => bxDestination inst pc
  | .bcx => bcxDestination inst pc
  | .bcctrx => m.ctr &&& ~~~3#32
  | _ => m.lr &&& ~~~3#32

def isTaken (op : Op) (inst : UGeckoInstruction) (m : Machine μ) : Bool :=
  decide (op = .bx) || conditionCheck inst m.cpu

theorem runBranch_eq (h : op.type = .branch) (hdec : op = .bcx ∨ op = .bclrx → dontDecrement inst = true)
    (pc : BitVec 32) (m : Machine μ) : runBranch op inst pc m = some
      (if isTaken op inst m then taken inst pc (destination op inst pc m) m else (pc + 4, m)) := by
  cases op
  case bx => simp [runBranch, isTaken, bx, taken, destination]
  case bcx => simp [runBranch, isTaken, bcx, destination, decremented, counterCheck, hdec]
  case bcctrx => simp [runBranch, isTaken, bcctrx, destination]
  case bclrx => simp [runBranch, isTaken, bclrx, destination, decremented, counterCheck, hdec]
  all_goals exact absurd h (by decide)

theorem agree_isTaken (h : AgreeOn look (branchReads op inst) m m') : isTaken op inst m = isTaken op inst m' := by
  by_cases hbx : op = .bx
  · simp [isTaken, hbx]
  · cases hcheck : dontCheckCondition inst with
    | true => simp [isTaken, conditionCheck, hcheck]
    | false =>
      have hcr : m.cpu.cr (crFieldOf inst.BI) = m'.cpu.cr (crFieldOf inst.BI) :=
        h (.cpu (.cr (crFieldOf inst.BI))) ⟨hbx, hcheck, rfl⟩
      simp [isTaken, conditionCheck, PowerPCState.GetBit, PowerPCState.GetField, hcr]

theorem agree_destination (htype : op.type = .branch) (h : AgreeOn look (branchReads op inst) m m') (pc : BitVec 32) :
    destination op inst pc m = destination op inst pc m' := by
  cases op
  case bx => rfl
  case bcx => rfl
  case bcctrx =>
      have hctr : m.ctr = m'.ctr := h .ctr rfl
      simp only [destination, hctr]
  case bclrx =>
      have hlr : m.lr = m'.lr := h .lr rfl
      simp only [destination, hlr]
  all_goals exact absurd htype (by decide)

def branchNpc (o : LoopOp) (m : Machine μ) : BitVec 32 :=
  if isTaken o.op o.inst m then destination o.op o.inst o.address m else o.address + 4

def linked (o : LoopOp) (m : Machine μ) : Machine μ :=
  if isTaken o.op o.inst m && o.inst.LK then { m with lr := o.address + 4 } else m

section
variable {o : LoopOp}

theorem stepTo_branch {next : BitVec 32} {mmu : Mmu} (htype : o.op.type = .branch)
    (hdec : o.op = .bcx ∨ o.op = .bclrx → dontDecrement o.inst = true) :
    stepTo next mmu o m = if branchNpc o m = next then some (linked o m) else none := by
  have hrun : stepLoop mmu o m = some (branchNpc o m, linked o m) := by
    rw [stepLoop, htype]
    dsimp only
    rw [runBranch_eq htype hdec, branchNpc, linked]
    by_cases htaken : isTaken o.op o.inst m = true
    · simp [htaken, taken]
    · simp [htaken]
  simp only [stepTo, hrun]

@[simp] theorem linked_cpu : (linked o m).cpu = m.cpu := by
  unfold linked
  split <;> rfl

theorem linked_frame : AgreeOn look (links o.inst)ᶜ (linked o m) m := by
  intro p hp
  unfold linked
  split
  · next hlk =>
    cases p with
    | cpu ℓ => rfl
    | lr => exact absurd (Bool.and_eq_true_iff.mp hlk).2 hp
    | ctr => rfl
    | reserve => rfl
  · rfl

theorem linked_alwaysLinks : AgreeOn look (alwaysLinks o.op o.inst) (linked o m) (linked o m') := by
  have hset : ∀ m : Machine μ, alwaysLinks o.op o.inst .lr → (linked o m).lr = o.address + 4 := by
    intro m hlr
    have htaken : isTaken o.op o.inst m = true := by
      rcases hlr.2 with hbx | hcheck
      · simp [isTaken, hbx]
      · simp [isTaken, conditionCheck, hcheck]
    simp [linked, htaken, show o.inst.LK = true from hlr.1]
  intro p hp
  cases p with
  | cpu ℓ => exact hp.elim
  | lr => exact (hset m hp).trans (hset m' hp).symm
  | ctr => exact hp.elim
  | reserve => exact hp.elim

theorem linked_lockstep (htaken : isTaken o.op o.inst m = isTaken o.op o.inst m') (p : Place) :
    look (linked o m) p = look (linked o m') p ∨
      (look (linked o m) p = look m p ∧ look (linked o m') p = look m' p) := by
  unfold linked
  rw [htaken]
  split
  · cases p with
    | lr => exact .inl rfl
    | cpu ℓ => exact .inr ⟨rfl, rfl⟩
    | ctr => exact .inr ⟨rfl, rfl⟩
    | reserve => exact .inr ⟨rfl, rfl⟩
  · exact .inr ⟨rfl, rfl⟩

theorem effect_branch (hop : o.op = GetOpInfo o.inst) (htype : o.op.type = .branch)
    (hctr : branchUsesCtrOf o.inst = false) (next : BitVec 32) (mmu : Mmu) :
    Effect look (Counts (μ := μ) n) (stepTo next mmu o) (placesOf n o) := by
  have hdec := dontDecrement_of_not_usesCtr hop.symm htype hctr
  have hplaces : placesOf n o = ⟨branchReads o.op o.inst, alwaysLinks o.op o.inst, links o.inst⟩ := by
    rw [placesOf, htype]
  rw [hplaces]
  constructor
  · intro m m' hm hrun
    rw [stepTo_branch htype hdec] at hrun
    split at hrun
    · obtain rfl := Option.some.inj hrun
      simpa [Counts] using hm
    · cases hrun
  · intro m m' hm hrun
    rw [stepTo_branch htype hdec] at hrun
    split at hrun
    · obtain rfl := Option.some.inj hrun
      exact linked_frame
    · cases hrun
  · intro m₁ m₂ m' hm₁ hm₂ hagree hrun
    have htaken := agree_isTaken hagree
    have hnpc : branchNpc o m₁ = branchNpc o m₂ := by
      rw [branchNpc, branchNpc, htaken, agree_destination htype hagree]
    rw [stepTo_branch htype hdec] at hrun
    split at hrun
    · next hnext =>
      obtain rfl := Option.some.inj hrun
      refine ⟨linked o m₂, ?_, linked_alwaysLinks, linked_lockstep htaken⟩
      rw [stepTo_branch htype hdec, if_pos (hnpc.symm.trans hnext)]
    · cases hrun

end

end Karphin.PPCAnalyst
