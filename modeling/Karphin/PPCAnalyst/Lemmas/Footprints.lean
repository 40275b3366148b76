import Karphin.PPCAnalyst.Defs
import Karphin.Lib.Settled

/-! The footprints of the modelled instructions, in terms of their stats. -/

namespace Karphin.PPCAnalyst

open Karphin.PowerPC Karphin.Lib Karphin.PowerPC.Interpreter

inductive Loc
  | gpr (r : Fin 32)
  | cr (field : Fin 8)
  | ca
  | soOv
  | rest
  deriving DecidableEq

def Loc.Val (ρ : Type) : Loc → Type
  | .gpr _ => BitVec 32
  | .cr _ => BitVec 64
  | .ca => BitVec 8
  | .soOv => BitVec 8
  | .rest => BitVec 16 × BitVec 32 × BitVec 32 × ρ

variable {ρ : Type}

def get (s : PowerPCState ρ) : (ℓ : Loc) → ℓ.Val ρ
  | .gpr r => s.gpr r
  | .cr field => s.cr field
  | .ca => s.xerCa
  | .soOv => s.xerSoOv
  | .rest => (s.xerStringctrl, s.fpscr, s.msr, s.rest)

theorem get_ext {s t : PowerPCState ρ} (h : ∀ ℓ, get s ℓ = get t ℓ) : s = t := by
  cases s with
  | mk gpr cr ca soOv str fpscr msr rest =>
      cases t with
      | mk gpr' cr' ca' soOv' str' fpscr' msr' rest' =>
          have hgpr : gpr = gpr' := funext fun r => h (.gpr r)
          have hcr : cr = cr' := funext fun f => h (.cr f)
          have hca : ca = ca' := h .ca
          have hso : soOv = soOv' := h .soOv
          have hrest : (str, fpscr, msr, rest) = (str', fpscr', msr', rest') := h .rest
          simp only [Prod.mk.injEq] at hrest
          simp [hgpr, hcr, hca, hso, hrest]

@[simp] theorem get_gpr_eq {s t : PowerPCState ρ} {r : Fin 32} :
    get s (.gpr r) = get t (.gpr r) ↔ s.gpr r = t.gpr r := Iff.rfl

@[simp] theorem get_cr_eq {s t : PowerPCState ρ} {field : Fin 8} :
    get s (.cr field) = get t (.cr field) ↔ s.cr field = t.cr field := Iff.rfl

@[simp] theorem get_ca_eq {s t : PowerPCState ρ} : get s .ca = get t .ca ↔ s.xerCa = t.xerCa := Iff.rfl

@[simp] theorem get_soOv_eq {s t : PowerPCState ρ} : get s .soOv = get t .soOv ↔ s.xerSoOv = t.xerSoOv :=
  Iff.rfl

theorem get_rest_eq {s t : PowerPCState ρ} : get s .rest = get t .rest ↔
    s.xerStringctrl = t.xerStringctrl ∧ s.fpscr = t.fpscr ∧ s.msr = t.msr ∧ s.rest = t.rest := by
  change (s.xerStringctrl, s.fpscr, s.msr, s.rest) = (t.xerStringctrl, t.fpscr, t.msr, t.rest) ↔ _
  simp only [Prod.mk.injEq]

/-- XER.SO is copied into a CR field by the integer instructions that set one, and accumulated by the
overflow forms. No flag of the tables says so. -/
def readsSO (op : Op) (inst : UGeckoInstruction) : Prop :=
  (op.type = .integer ∧ crOutOf op inst ≠ ∅) ∨ op.has .setOE ∨ op = .mcrxr

def writesSO (op : Op) : Prop := op.has .setOE ∨ op = .mcrxr

theorem not_writesSO {op : Op} (hoe : op.has .setOE = false) (hmc : op ≠ .mcrxr) : ¬ writesSO op := by
  simp [writesSO, hoe, hmc]

def reads (op : Op) (inst : UGeckoInstruction) : Set Loc
  | .gpr r => r ∈ regsInOf op inst
  | .cr field => field ∈ crInOf op inst
  | .ca => op.has .readCA
  | .soOv => readsSO op inst
  | .rest => True

def writes (op : Op) (inst : UGeckoInstruction) : Set Loc
  | .gpr r => r ∈ regsOutOf op inst
  | .cr field => field ∈ crOutOf op inst
  | .ca => op.has .setCA
  | .soOv => writesSO op
  | .rest => False

section
variable {op : Op} {inst : UGeckoInstruction} {s t : PowerPCState ρ}

/-! ## What the stats say about the operands -/

theorem agree_RA (h : AgreeOn get (reads op inst) s t) (ha : op.has .inA = true) :
    s.gpr inst.RA = t.gpr inst.RA :=
  h (.gpr inst.RA) (show inst.RA ∈ regsInOf op inst by simp [regsInOf, when, ha])

theorem agree_RA0 (h : AgreeOn get (reads op inst) s t) (ha : op.has .inA0 = true) (h0 : inst.RA ≠ 0) :
    s.gpr inst.RA = t.gpr inst.RA :=
  h (.gpr inst.RA) (show inst.RA ∈ regsInOf op inst by simp [regsInOf, when, ha, h0])

theorem agree_RB (h : AgreeOn get (reads op inst) s t) (hb : op.has .inB = true) :
    s.gpr inst.RB = t.gpr inst.RB :=
  h (.gpr inst.RB) (show inst.RB ∈ regsInOf op inst by simp [regsInOf, when, hb])

theorem agree_RS (h : AgreeOn get (reads op inst) s t) (hs : op.has .inS = true) :
    s.gpr inst.RS = t.gpr inst.RS :=
  h (.gpr inst.RS) (show inst.RS ∈ regsInOf op inst by simp [regsInOf, when, hs])

theorem agree_GetCarry (h : AgreeOn get (reads op inst) s t) (hca : op.has .readCA = true) :
    s.GetCarry = t.GetCarry := by
  have hxer : s.xerCa = t.xerCa := h .ca hca
  rw [PowerPCState.GetCarry, PowerPCState.GetCarry, hxer]

theorem agree_GetField (h : AgreeOn get (reads op inst) s t) {field : Fin 8}
    (hf : field ∈ crInOf op inst) : s.GetField field = t.GetField field := by
  have hcr : s.cr field = t.cr field := h (.cr field) hf
  rw [PowerPCState.GetField, PowerPCState.GetField, hcr]

theorem agree_SO (h : AgreeOn get (reads op inst) s t) (hso : readsSO op inst) :
    s.xerSoOv = t.xerSoOv :=
  h .soOv hso

/-! ## What the stats say about the destination -/

def writesA (op : Op) : Bool := op.has .outA && !op.has .outD
def writesD (op : Op) : Bool := op.has .outD && !op.has .outA

def recordForm (op : Op) : Bool :=
  op.type == .integer && op.has .rcBit && !op.has .setAllCR && !op.has .setCRn && !op.has .setCR0 &&
    !op.has .setCR1 && !op.has .rcBitF

def alwaysRecords (op : Op) : Bool :=
  op.type == .integer && op.has .setCR0 && !op.has .setAllCR && !op.has .setCRn

def neverRecords (op : Op) : Bool :=
  op.type != .cr && !op.has .setAllCR && !op.has .setCRn && !op.has .setCR0 && !op.has .rcBit &&
    !op.has .setCR1 && !op.has .rcBitF

theorem regsOutOf_A (h : writesA op = true) (h46 : inst.OPCD ≠ 46#6) : regsOutOf op inst = {inst.RA} := by
  simp only [writesA, Bool.and_eq_true, Bool.not_eq_true'] at h
  simp [regsOutOf, when, h.1, h.2, h46]

theorem regsOutOf_D (h : writesD op = true) (h46 : inst.OPCD ≠ 46#6) : regsOutOf op inst = {inst.RD} := by
  simp only [writesD, Bool.and_eq_true, Bool.not_eq_true'] at h
  simp [regsOutOf, when, h.1, h.2, h46]

theorem crOutOf_record (h : recordForm op = true) :
    crOutOf op inst = if inst.Rc then {0} else ∅ := by
  simp only [recordForm, Bool.and_eq_true, Bool.not_eq_true', beq_iff_eq] at h
  obtain ⟨⟨⟨⟨⟨⟨htype, hrc⟩, hall⟩, hn⟩, h0⟩, h1⟩, hf⟩ := h
  simp [crOutOf, htype, hrc, hall, hn, h0, h1, hf]

theorem crOutOf_always (h : alwaysRecords op = true) : crOutOf op inst = {0} := by
  simp only [alwaysRecords, Bool.and_eq_true, Bool.not_eq_true', beq_iff_eq] at h
  simp [crOutOf, h]

theorem crOutOf_never (h : neverRecords op = true) : crOutOf op inst = ∅ := by
  simp only [neverRecords, Bool.and_eq_true, Bool.not_eq_true', bne_iff_ne, ne_eq] at h
  simp [crOutOf, h]

/-! ## Instructions with a destination register

All of them write a register, and then some of the carry, OV and CR0. -/

def writeResult (d : Fin 32) (ca oe rc : Bool) (value : PowerPCState ρ → BitVec 32)
    (carry ov : PowerPCState ρ → Bool) (s : PowerPCState ρ) : PowerPCState ρ :=
  let s₁ := s.setGpr d (value s)
  let s₂ := if ca then s₁.SetCarry (carry s) else s₁
  let s₃ := if oe then s₂.SetXER_OV (ov s) else s₂
  if rc then Helper_UpdateCR0 s₃ (value s) else s₃

section
variable {d : Fin 32} {ca oe rc : Bool} {value : PowerPCState ρ → BitVec 32}
  {carry ov : PowerPCState ρ → Bool}

theorem writeResult_gpr : (writeResult d ca oe rc value carry ov s).gpr = Function.update s.gpr d (value s) := by
  cases ca <;> cases oe <;> cases rc <;> rfl

theorem writeResult_ca : (writeResult d ca oe rc value carry ov s).xerCa =
    if ca then (BitVec.ofBool (carry s)).setWidth 8 else s.xerCa := by
  cases ca <;> cases oe <;> cases rc <;> rfl

theorem writeResult_soOv : (writeResult d ca oe rc value carry ov s).xerSoOv =
    if oe then (s.SetXER_OV (ov s)).xerSoOv else s.xerSoOv := by
  cases ca <;> cases oe <;> cases rc <;> rfl

theorem writeResult_cr : (writeResult d ca oe rc value carry ov s).cr =
    if rc then (Helper_UpdateCR0 { s with xerSoOv := (writeResult d ca oe rc value carry ov s).xerSoOv }
      (value s)).cr else s.cr := by
  cases ca <;> cases oe <;> cases rc <;> rfl

theorem writeResult_rest : get (writeResult d ca oe rc value carry ov s) .rest = get s .rest := by
  cases ca <;> cases oe <;> cases rc <;> rfl

theorem updateCR0_cr (s : PowerPCState ρ) (value : BitVec 32) {field : Fin 8} (h : field ≠ 0) :
    (Helper_UpdateCR0 s value).cr field = s.cr field := by
  simp [Helper_UpdateCR0, PowerPCState.setCr, h]

theorem updateCR0_cr_zero {value : BitVec 32} (hso : s.xerSoOv = t.xerSoOv) :
    (Helper_UpdateCR0 s value).cr 0 = (Helper_UpdateCR0 t value).cr 0 := by
  simp [Helper_UpdateCR0, PowerPCState.setCr, PowerPCState.GetXER_SO, hso]

theorem writeResult_footprint (hregs : regsOutOf op inst = {d})
    (hcr : crOutOf op inst = if rc then {0} else ∅) (htype : rc = true → op.type = .integer)
    (hmc : op ≠ .mcrxr) (hca : op.has .setCA = ca) (hoe : op.has .setOE = oe)
    (hvalue : ∀ {s t}, AgreeOn get (reads op inst) s t → value s = value t)
    (hcarry : ∀ {s t}, ca = true → AgreeOn get (reads op inst) s t → carry s = carry t)
    (hov : ∀ {s t}, oe = true → AgreeOn get (reads op inst) s t → ov s = ov t) :
    Footprint get (writeResult d ca oe rc value carry ov) (reads op inst) (writes op inst) where
  frame s ℓ hℓ := by
    cases ℓ with
    | gpr r =>
        have hr : r ≠ d := by
          intro h
          exact hℓ (show r ∈ regsOutOf op inst by simp [hregs, h])
        simp [writeResult_gpr, hr]
    | cr field =>
        have hf : field ∉ crOutOf op inst := hℓ
        cases rc with
        | false => simp [writeResult_cr]
        | true =>
            have h0 : field ≠ 0 := by simpa [hcr] using hf
            rw [get_cr_eq, writeResult_cr, if_pos rfl, updateCR0_cr _ _ h0]
    | ca =>
        have hf : ca = false := by
          have h : ¬ op.has .setCA = true := hℓ
          rw [hca] at h
          exact Bool.eq_false_iff.mpr h
        simp [writeResult_ca, hf]
    | soOv =>
        have hf : oe = false := by
          have h : ¬ writesSO op := hℓ
          rw [writesSO, hoe] at h
          exact Bool.eq_false_iff.mpr fun hoe => h (.inl hoe)
        simp [writeResult_soOv, hf]
    | rest => exact writeResult_rest
  determined {s t} h := by
    have hso : oe = true ∨ rc = true → s.xerSoOv = t.xerSoOv := by
      intro hor
      refine agree_SO h ?_
      rcases hor with hoe' | hrc
      · exact .inr (.inl (hoe.trans hoe'))
      · exact .inl ⟨htype hrc, by simp [hcr, hrc]⟩
    have hsoAfter : rc = true → (writeResult d ca oe rc value carry ov s).xerSoOv =
        (writeResult d ca oe rc value carry ov t).xerSoOv := by
      intro hrc
      simp only [writeResult_soOv, PowerPCState.SetXER_OV, hso (.inr hrc)]
      split
      · next hoe' => rw [hov hoe' h]
      · rfl
    intro ℓ hℓ
    cases ℓ with
    | gpr r =>
        have hr : r = d := by
          have hr : r ∈ regsOutOf op inst := hℓ
          simpa [hregs] using hr
        simp [writeResult_gpr, hr, hvalue h]
    | cr field =>
        have hf : field ∈ crOutOf op inst := hℓ
        cases rc with
        | false => simp [hcr] at hf
        | true =>
            have h0 : field = 0 := by simpa [hcr] using hf
            subst h0
            rw [get_cr_eq, writeResult_cr, writeResult_cr, if_pos rfl, if_pos rfl, hvalue h]
            exact updateCR0_cr_zero (hsoAfter rfl)
    | ca =>
        have hf : ca = true := by
          have h : op.has .setCA = true := hℓ
          exact hca.symm.trans h
        simp [writeResult_ca, hf, hcarry hf h]
    | soOv =>
        have hf : oe = true := by
          have h : writesSO op := hℓ
          rcases h with h | h
          · exact hoe.symm.trans h
          · exact absurd h hmc
        simp [writeResult_soOv, PowerPCState.SetXER_OV, hf, hso (.inl hf), hov hf h]
    | rest => exact absurd hℓ id

/-! The shapes in which the interpreter functions come. -/

theorem setGpr_footprint (hregs : regsOutOf op inst = {d}) (hop : neverRecords op = true)
    (hmc : op ≠ .mcrxr) (hca : op.has .setCA = false) (hoe : op.has .setOE = false)
    (hvalue : ∀ {s t}, AgreeOn get (reads op inst) s t → value s = value t) :
    Footprint get (fun s => s.setGpr d (value s)) (reads op inst) (writes op inst) :=
  @writeResult_footprint ρ op inst d false false false value (fun _ => false) (fun _ => false)
    hregs (crOutOf_never hop) nofun hmc hca hoe hvalue nofun nofun

theorem carry_footprint (hregs : regsOutOf op inst = {d}) (hop : neverRecords op = true)
    (hmc : op ≠ .mcrxr) (hca : op.has .setCA = true) (hoe : op.has .setOE = false)
    (hvalue : ∀ {s t}, AgreeOn get (reads op inst) s t → value s = value t)
    (hcarry : ∀ {s t}, AgreeOn get (reads op inst) s t → carry s = carry t) :
    Footprint get (fun s => (s.setGpr d (value s)).SetCarry (carry s)) (reads op inst) (writes op inst) :=
  @writeResult_footprint ρ op inst d true false false value carry (fun _ => false)
    hregs (crOutOf_never hop) nofun hmc hca hoe hvalue (fun _ => hcarry) nofun

theorem integer_of_recordForm (h : recordForm op = true) : op.type = .integer := by
  simp only [recordForm, Bool.and_eq_true, beq_iff_eq] at h
  exact h.1.1.1.1.1.1

theorem integer_of_alwaysRecords (h : alwaysRecords op = true) : op.type = .integer := by
  simp only [alwaysRecords, Bool.and_eq_true, beq_iff_eq] at h
  exact h.1.1.1

theorem record_footprint (hregs : regsOutOf op inst = {d}) (hop : recordForm op = true)
    (hmc : op ≠ .mcrxr) (hca : op.has .setCA = false) (hoe : op.has .setOE = false)
    (hvalue : ∀ {s t}, AgreeOn get (reads op inst) s t → value s = value t) :
    Footprint get (fun s => record inst (value s) (s.setGpr d (value s))) (reads op inst)
      (writes op inst) :=
  @writeResult_footprint ρ op inst d false false inst.Rc value (fun _ => false) (fun _ => false)
    hregs (crOutOf_record hop) (fun _ => integer_of_recordForm hop) hmc hca hoe hvalue nofun nofun

theorem recordCarry_footprint (hregs : regsOutOf op inst = {d}) (hop : recordForm op = true)
    (hmc : op ≠ .mcrxr) (hca : op.has .setCA = true) (hoe : op.has .setOE = false)
    (hvalue : ∀ {s t}, AgreeOn get (reads op inst) s t → value s = value t)
    (hcarry : ∀ {s t}, AgreeOn get (reads op inst) s t → carry s = carry t) :
    Footprint get (fun s => record inst (value s) ((s.setGpr d (value s)).SetCarry (carry s)))
      (reads op inst) (writes op inst) :=
  @writeResult_footprint ρ op inst d true false inst.Rc value carry (fun _ => false)
    hregs (crOutOf_record hop) (fun _ => integer_of_recordForm hop) hmc hca hoe hvalue (fun _ => hcarry) nofun

theorem updateCR0_footprint (hregs : regsOutOf op inst = {d}) (hop : alwaysRecords op = true)
    (hmc : op ≠ .mcrxr) (hca : op.has .setCA = false) (hoe : op.has .setOE = false)
    (hvalue : ∀ {s t}, AgreeOn get (reads op inst) s t → value s = value t) :
    Footprint get (fun s => Helper_UpdateCR0 (s.setGpr d (value s)) (value s)) (reads op inst)
      (writes op inst) :=
  @writeResult_footprint ρ op inst d false false true value (fun _ => false) (fun _ => false)
    hregs (crOutOf_always hop) (fun _ => integer_of_alwaysRecords hop) hmc hca hoe hvalue nofun nofun

theorem updateCR0Carry_footprint (hregs : regsOutOf op inst = {d}) (hop : alwaysRecords op = true)
    (hmc : op ≠ .mcrxr) (hca : op.has .setCA = true) (hoe : op.has .setOE = false)
    (hvalue : ∀ {s t}, AgreeOn get (reads op inst) s t → value s = value t)
    (hcarry : ∀ {s t}, AgreeOn get (reads op inst) s t → carry s = carry t) :
    Footprint get (fun s => Helper_UpdateCR0 ((s.setGpr d (value s)).SetCarry (carry s)) (value s))
      (reads op inst) (writes op inst) :=
  @writeResult_footprint ρ op inst d true false true value carry (fun _ => false)
    hregs (crOutOf_always hop) (fun _ => integer_of_alwaysRecords hop) hmc hca hoe hvalue (fun _ => hcarry) nofun

theorem arithmetic_footprint (h46 : inst.OPCD ≠ 46#6) (hd : writesD op = true) (hop : recordForm op = true)
    (hmc : op ≠ .mcrxr) (hca : op.has .setCA = false) (hoe : op.has .setOE = inst.OE)
    (hvalue : ∀ {s t}, AgreeOn get (reads op inst) s t → value s = value t)
    (hov : ∀ {s t}, AgreeOn get (reads op inst) s t → ov s = ov t) :
    Footprint get (fun s => arithmetic inst s (value s) (ov s)) (reads op inst) (writes op inst) :=
  @writeResult_footprint ρ op inst inst.RD false inst.OE inst.Rc value (fun _ => false) ov
    (regsOutOf_D hd h46) (crOutOf_record hop) (fun _ => integer_of_recordForm hop) hmc hca hoe hvalue nofun
    (fun _ => hov)

theorem arithmeticCarry_footprint (h46 : inst.OPCD ≠ 46#6) (hd : writesD op = true)
    (hop : recordForm op = true) (hmc : op ≠ .mcrxr) (hca : op.has .setCA = true)
    (hoe : op.has .setOE = inst.OE)
    (hvalue : ∀ {s t}, AgreeOn get (reads op inst) s t → value s = value t)
    (hcarry : ∀ {s t}, AgreeOn get (reads op inst) s t → carry s = carry t)
    (hov : ∀ {s t}, AgreeOn get (reads op inst) s t → ov s = ov t) :
    Footprint get (fun s => arithmeticCarry inst s (value s) (carry s) (ov s)) (reads op inst)
      (writes op inst) :=
  @writeResult_footprint ρ op inst inst.RD true inst.OE inst.Rc value carry ov
    (regsOutOf_D hd h46) (crOutOf_record hop) (fun _ => integer_of_recordForm hop) hmc hca hoe hvalue
    (fun _ => hcarry) (fun _ => hov)

end

/-! ## Condition register instructions -/

def writesNoGpr (op : Op) : Bool := !op.has .outA && !op.has .outD

theorem regsOutOf_none (h : writesNoGpr op = true) (h46 : inst.OPCD ≠ 46#6) : regsOutOf op inst = ∅ := by
  simp only [writesNoGpr, Bool.and_eq_true, Bool.not_eq_true'] at h
  simp [regsOutOf, when, h.1, h.2, h46]

theorem setField_footprint {field : Fin 8} {value : PowerPCState ρ → BitVec 4}
    (hregs : regsOutOf op inst = ∅) (hcr : crOutOf op inst = {field}) (hca : op.has .setCA = false)
    (hso : ¬ writesSO op) (hvalue : ∀ {s t}, AgreeOn get (reads op inst) s t → value s = value t) :
    Footprint get (fun s => s.SetField field (value s)) (reads op inst) (writes op inst) where
  frame s ℓ hℓ := by
    cases ℓ with
    | cr f =>
        have hf : f ≠ field := by
          intro h
          exact hℓ (show f ∈ crOutOf op inst by simp [hcr, h])
        simp [PowerPCState.SetField, PowerPCState.setCr, hf]
    | gpr | ca | soOv | rest => rfl
  determined {s t} h ℓ hℓ := by
    cases ℓ with
    | cr f =>
        have hf : f ∈ crOutOf op inst := hℓ
        simp only [hcr, Finset.mem_singleton] at hf
        simp [PowerPCState.SetField, PowerPCState.setCr, hf, hvalue h]
    | gpr r =>
        have hr : r ∈ regsOutOf op inst := hℓ
        simp [hregs] at hr
    | ca =>
        have hca' : op.has .setCA = true := hℓ
        simp [hca] at hca'
    | soOv => exact absurd hℓ hso
    | rest => exact absurd hℓ id

theorem compare_footprint {less greater : PowerPCState ρ → Bool} (h46 : inst.OPCD ≠ 46#6)
    (hregs : writesNoGpr op = true) (hcr : crOutOf op inst = {inst.CRFD}) (htype : op.type = .integer)
    (hca : op.has .setCA = false) (hso : ¬ writesSO op)
    (hless : ∀ {s t}, AgreeOn get (reads op inst) s t → less s = less t)
    (hgreater : ∀ {s t}, AgreeOn get (reads op inst) s t → greater s = greater t) :
    Footprint get (fun s => Helper_IntCompare s inst (less s) (greater s)) (reads op inst)
      (writes op inst) := by
  refine setField_footprint (regsOutOf_none hregs h46) hcr hca hso ?_
  intro s t h
  have hxer : s.GetXER_SO = t.GetXER_SO := by
    rw [PowerPCState.GetXER_SO, agree_SO h (.inl ⟨htype, by simp [hcr]⟩), PowerPCState.GetXER_SO]
  rw [hxer, hless h, hgreater h]

theorem crBit_eq (f : Bool → Bool → Bool) (inst : UGeckoInstruction) (s : PowerPCState ρ) :
    crBit f inst s = s.SetField (crFieldOf inst.CRBD)
      (if f (s.GetBit inst.CRBA) (s.GetBit inst.CRBB) then
        s.GetField (crFieldOf inst.CRBD) ||| 0x8#4 >>> (inst.CRBD &&& 3#5).toNat
      else s.GetField (crFieldOf inst.CRBD) &&& ~~~(0x8#4 >>> (inst.CRBD &&& 3#5).toNat)) := by
  unfold crBit PowerPCState.SetBit
  split <;> rfl

theorem crBit_footprint (f : Bool → Bool → Bool) (h46 : inst.OPCD ≠ 46#6)
    (hop : opInfo op = ⟨.cr, []⟩) (hmc : op ≠ .mcrxr) :
    Footprint get (crBit (ρ := ρ) f inst) (reads op inst) (writes op inst) := by
  have hno : ∀ flag, op.has flag = false := fun flag => by simp [Op.has, hop]
  have htype : op.type = .cr := by simp [Op.type, hop]
  have hin : crInOf op inst = {crFieldOf inst.CRBA, crFieldOf inst.CRBB, crFieldOf inst.CRBD} := by
    simp [crInOf, hno, htype]
  rw [funext (crBit_eq f inst)]
  refine setField_footprint (regsOutOf_none (by simp [writesNoGpr, hno]) h46) (by simp [crOutOf, hno, htype])
    (hno _) (by simp [writesSO, hno, hmc]) ?_
  intro s t h
  have ha : s.GetField (crFieldOf inst.CRBA) = t.GetField (crFieldOf inst.CRBA) :=
    agree_GetField h (by simp [hin])
  have hb : s.GetField (crFieldOf inst.CRBB) = t.GetField (crFieldOf inst.CRBB) :=
    agree_GetField h (by simp [hin])
  have hd : s.GetField (crFieldOf inst.CRBD) = t.GetField (crFieldOf inst.CRBD) :=
    agree_GetField h (by simp [hin])
  rw [PowerPCState.GetBit, PowerPCState.GetBit, ha, hb, hd, PowerPCState.GetBit, PowerPCState.GetBit]

theorem mcrxr_footprint (h46 : inst.OPCD ≠ 46#6) :
    Footprint get (mcrxr (ρ := ρ) inst) (reads .mcrxr inst) (writes .mcrxr inst) where
  frame s ℓ hℓ := by
    cases ℓ with
    | cr f =>
        have hf : f ≠ inst.CRFD := by
          intro h
          exact hℓ (show f ∈ crOutOf .mcrxr inst from Finset.mem_singleton.mpr h)
        simp [mcrxr, PowerPCState.SetField, PowerPCState.setCr, hf]
    | ca => exact absurd (show Op.has .mcrxr .setCA = true from rfl) hℓ
    | soOv => exact absurd (show writesSO .mcrxr from .inr rfl) hℓ
    | gpr | rest => rfl
  determined {s t} h ℓ hℓ := by
    have hca : s.xerCa = t.xerCa := h .ca (show Op.has .mcrxr .readCA = true from rfl)
    have hso : s.xerSoOv = t.xerSoOv := agree_SO h (.inr (.inr rfl))
    have hstr : s.xerStringctrl = t.xerStringctrl := (get_rest_eq.mp (h .rest trivial)).1
    cases ℓ with
    | cr f =>
        have hf : f = inst.CRFD := Finset.mem_singleton.mp hℓ
        simp [mcrxr, PowerPCState.SetField, PowerPCState.setCr, PowerPCState.GetXER, hf, hca, hso, hstr]
    | gpr r =>
        have hr : r ∈ regsOutOf .mcrxr inst := hℓ
        rw [@regsOutOf_none .mcrxr inst rfl h46] at hr
        simp at hr
    | ca | soOv => rfl
    | rest => exact absurd hℓ id

theorem mtcrf_footprint (h46 : inst.OPCD ≠ 46#6) :
    Footprint get (mtcrf (ρ := ρ) inst) (reads .mtcrf inst) (writes .mtcrf inst) where
  frame s ℓ hℓ := by
    cases ℓ with
    | cr f => exact absurd (show f ∈ crOutOf .mtcrf inst from Finset.mem_univ f) hℓ
    | gpr | ca | soOv | rest =>
        unfold mtcrf
        split <;> rfl
  determined {s t} h ℓ hℓ := by
    have hS : s.gpr inst.RS = t.gpr inst.RS := agree_RS h rfl
    have hcr : s.GetCR = t.GetCR := by
      have hfield : s.GetField = t.GetField := by
        funext f
        exact agree_GetField h (Finset.mem_univ f)
      rw [PowerPCState.GetCR, hfield, PowerPCState.GetCR]
    cases ℓ with
    | cr f =>
        rw [get_cr_eq, mtcrf, mtcrf, hS, hcr]
        split <;> rfl
    | gpr r =>
        have hr : r ∈ regsOutOf .mtcrf inst := hℓ
        rw [regsOutOf_none rfl h46] at hr
        simp at hr
    | ca => exact absurd hℓ (show ¬ Op.has .mtcrf .setCA = true by decide)
    | soOv =>
        exact absurd hℓ (not_writesSO rfl (by decide))
    | rest => exact absurd hℓ id

theorem nothing_footprint (h46 : inst.OPCD ≠ 46#6) (hregs : writesNoGpr op = true)
    (hop : neverRecords op = true) (hca : op.has .setCA = false) (hso : ¬ writesSO op) :
    Footprint get (nothing (ρ := ρ) inst) (reads op inst) (writes op inst) where
  frame _ _ _ := rfl
  determined _ ℓ hℓ := by
    cases ℓ with
    | gpr r =>
        have hr : r ∈ regsOutOf op inst := hℓ
        simp [regsOutOf_none hregs h46] at hr
    | cr f =>
        have hf : f ∈ crOutOf op inst := hℓ
        simp [crOutOf_never hop] at hf
    | ca =>
        have hca' : op.has .setCA = true := hℓ
        simp [hca] at hca'
    | soOv => exact absurd hℓ hso
    | rest => exact absurd hℓ id

/-! ## Every modelled instruction -/

def overflowForm (op : Op) : Bool :=
  [.addx, .addox, .addcx, .addcox, .addex, .addeox, .addmex, .addmeox, .addzex, .addzeox, .divwx, .divwox,
    .divwux, .divwuox, .mullwx, .mullwox, .negx, .negox, .subfx, .subfox, .subfcx, .subfcox, .subfex,
    .subfeox, .subfmex, .subfmeox, .subfzex, .subfzeox].contains op

theorem logicalImmediate_footprint {g : BitVec 32 → BitVec 32 → BitVec 32} (h46 : inst.OPCD ≠ 46#6)
    (hop : opInfo op = ⟨.integer, [.outA, .inS]⟩) (hmc : op ≠ .mcrxr) :
    Footprint get (logicalImmediate (ρ := ρ) g inst) (reads op inst) (writes op inst) := by
  have hS : op.has .inS = true := by simp [Op.has, hop]
  refine setGpr_footprint (regsOutOf_A (by simp [writesA, Op.has, hop]) h46)
    (by simp [neverRecords, Op.type, Op.has, hop]) hmc (by simp [Op.has, hop]) (by simp [Op.has, hop]) ?_
  intro s t h
  simp only [agree_RS h hS]

theorem logical_footprint {g : BitVec 32 → BitVec 32 → BitVec 32} (h46 : inst.OPCD ≠ 46#6)
    (hop : opInfo op = ⟨.integer, [.outA, .inS, .inB, .rcBit]⟩) (hmc : op ≠ .mcrxr) :
    Footprint get (logical (ρ := ρ) g inst) (reads op inst) (writes op inst) := by
  have hS : op.has .inS = true := by simp [Op.has, hop]
  have hB : op.has .inB = true := by simp [Op.has, hop]
  refine record_footprint (regsOutOf_A (by simp [writesA, Op.has, hop]) h46)
    (by simp [recordForm, Op.type, Op.has, hop]) hmc (by simp [Op.has, hop]) (by simp [Op.has, hop]) ?_
  intro s t h
  simp only [agree_RS h hS, agree_RB h hB]

theorem addi_footprint (h46 : inst.OPCD ≠ 46#6) :
    Footprint get (addi (ρ := ρ) inst) (reads .addi inst) (writes .addi inst) := by
  refine setGpr_footprint (regsOutOf_D rfl h46) rfl (by decide) rfl rfl ?_
  intro s t h
  by_cases h0 : inst.RA = 0
  · simp [h0]
  · simp [h0, agree_RA0 h rfl h0]

theorem addis_footprint (h46 : inst.OPCD ≠ 46#6) :
    Footprint get (addis (ρ := ρ) inst) (reads .addis inst) (writes .addis inst) := by
  refine setGpr_footprint (regsOutOf_D rfl h46) rfl (by decide) rfl rfl ?_
  intro s t h
  by_cases h0 : inst.RA = 0
  · simp [h0]
  · simp [h0, agree_RA0 h rfl h0]

theorem addic_rc_eq (s : PowerPCState ρ) :
    addic_rc inst s = Helper_UpdateCR0 ((s.setGpr inst.RD (s.gpr inst.RA + inst.SIMM_16)).SetCarry
      (Helper_Carry (s.gpr inst.RA) inst.SIMM_16)) (s.gpr inst.RA + inst.SIMM_16) := by
  simp [addic_rc, addic, PowerPCState.SetCarry, PowerPCState.setGpr]

theorem andi_rc_eq (s : PowerPCState ρ) :
    andi_rc inst s = Helper_UpdateCR0 (s.setGpr inst.RA (s.gpr inst.RS &&& inst.UIMM))
      (s.gpr inst.RS &&& inst.UIMM) := by
  simp [andi_rc, logicalImmediate, PowerPCState.setGpr]

theorem andis_rc_eq (s : PowerPCState ρ) :
    andis_rc inst s = Helper_UpdateCR0 (s.setGpr inst.RA (s.gpr inst.RS &&& inst.UIMM <<< 16))
      (s.gpr inst.RS &&& inst.UIMM <<< 16) := by
  simp [andis_rc, logicalImmediate, PowerPCState.setGpr]

theorem subfic_footprint (h46 : inst.OPCD ≠ 46#6) :
    Footprint get (subfic (ρ := ρ) inst) (reads .subfic inst) (writes .subfic inst) := by
  refine carry_footprint (regsOutOf_D rfl h46) rfl (by decide) rfl rfl ?_ ?_
  · intro s t h
    simp only [agree_RA h rfl]
  · intro s t h
    have hA : (s.setGpr inst.RD (inst.SIMM_16 - s.gpr inst.RA)).gpr inst.RA =
        (t.setGpr inst.RD (inst.SIMM_16 - t.gpr inst.RA)).gpr inst.RA := by
      simp only [PowerPCState.setGpr, Function.update_apply, agree_RA h rfl]
    simp only [hA]

theorem mcrf_footprint (h46 : inst.OPCD ≠ 46#6) :
    Footprint get (mcrf (ρ := ρ) inst) (reads .mcrf inst) (writes .mcrf inst) := by
  refine setField_footprint (regsOutOf_none rfl h46) rfl rfl (not_writesSO rfl (by decide)) ?_
  intro s t h
  exact agree_GetField h (Finset.mem_singleton_self inst.CRFS)

theorem mfcr_footprint (h46 : inst.OPCD ≠ 46#6) :
    Footprint get (mfcr (ρ := ρ) inst) (reads .mfcr inst) (writes .mfcr inst) := by
  refine setGpr_footprint (regsOutOf_D rfl h46) rfl (by decide) rfl rfl ?_
  intro s t h
  have hfield : s.GetField = t.GetField := by
    funext f
    exact agree_GetField h (Finset.mem_univ f)
  rw [PowerPCState.GetCR, hfield, PowerPCState.GetCR]

theorem interpreterTable_footprint {f : UGeckoInstruction → PowerPCState ρ → PowerPCState ρ}
    (hf : interpreterTable op = some f) (h46 : inst.OPCD ≠ 46#6)
    (hoe : overflowForm op = true → op.has .setOE = inst.OE) :
    Footprint get (f inst) (reads op inst) (writes op inst) := by
  cases op
  case addi =>
      cases hf
      exact addi_footprint h46
  case addis =>
      cases hf
      exact addis_footprint h46
  case mulli =>
      cases hf
      exact setGpr_footprint (regsOutOf_D rfl h46) rfl (by decide) rfl rfl fun h => by
        simp only [agree_RA h rfl]
  case addic =>
      cases hf
      exact carry_footprint (regsOutOf_D rfl h46) rfl (by decide) rfl rfl
        (fun h => by simp only [agree_RA h rfl]) (fun h => by simp only [agree_RA h rfl])
  case addic_rc =>
      cases hf
      rw [funext addic_rc_eq]
      exact updateCR0Carry_footprint (regsOutOf_D rfl h46) rfl (by decide) rfl rfl
        (fun h => by simp only [agree_RA h rfl]) (fun h => by simp only [agree_RA h rfl])
  case subfic =>
      cases hf
      exact subfic_footprint h46
  case ori | oris | xori | xoris =>
      cases hf
      exact logicalImmediate_footprint h46 rfl (by decide)
  case andi_rc =>
      cases hf
      rw [funext andi_rc_eq]
      exact updateCR0_footprint (regsOutOf_A rfl h46) rfl (by decide) rfl rfl fun h => by
        simp only [agree_RS h rfl]
  case andis_rc =>
      cases hf
      rw [funext andis_rc_eq]
      exact updateCR0_footprint (regsOutOf_A rfl h46) rfl (by decide) rfl rfl fun h => by
        simp only [agree_RS h rfl]
  case cmpi | cmpli =>
      cases hf
      exact compare_footprint h46 rfl rfl rfl rfl (not_writesSO rfl (by decide))
        (fun h => by simp only [agree_RA h rfl]) (fun h => by simp only [agree_RA h rfl])
  case cmp | cmpl =>
      cases hf
      exact compare_footprint h46 rfl rfl rfl rfl (not_writesSO rfl (by decide))
        (fun h => by simp only [agree_RA h rfl, agree_RB h rfl])
        (fun h => by simp only [agree_RA h rfl, agree_RB h rfl])
  case andx | andcx | eqvx | nandx | norx | orx | orcx | xorx | slwx | srwx =>
      cases hf
      exact logical_footprint h46 rfl (by decide)
  case rlwimix =>
      cases hf
      exact record_footprint (regsOutOf_A rfl h46) rfl (by decide) rfl rfl fun h => by
        simp only [agree_RA h rfl, agree_RS h rfl]
  case rlwnmx =>
      cases hf
      exact record_footprint (regsOutOf_A rfl h46) rfl (by decide) rfl rfl fun h => by
        simp only [agree_RS h rfl, agree_RB h rfl]
  case rlwinmx | cntlzwx | extsbx | extshx =>
      cases hf
      exact record_footprint (regsOutOf_A rfl h46) rfl (by decide) rfl rfl fun h => by
        simp only [agree_RS h rfl]
  case srawx =>
      cases hf
      exact recordCarry_footprint (regsOutOf_A rfl h46) rfl (by decide) rfl rfl
        (fun h => by simp only [agree_RS h rfl, agree_RB h rfl])
        (fun h => by simp only [agree_RS h rfl, agree_RB h rfl])
  case srawix =>
      cases hf
      exact recordCarry_footprint (regsOutOf_A rfl h46) rfl (by decide) rfl rfl
        (fun h => by simp only [agree_RS h rfl]) (fun h => by simp only [agree_RS h rfl])
  case mulhwx | mulhwux =>
      cases hf
      exact record_footprint (regsOutOf_D rfl h46) rfl (by decide) rfl rfl fun h => by
        simp only [agree_RA h rfl, agree_RB h rfl]
  case addx | addox | divwx | divwox | divwux | divwuox | mullwx | mullwox | subfx | subfox =>
      cases hf
      exact arithmetic_footprint h46 rfl rfl (by decide) rfl (hoe rfl)
        (fun h => by simp only [agree_RA h rfl, agree_RB h rfl])
        (fun h => by simp only [agree_RA h rfl, agree_RB h rfl])
  case negx | negox =>
      cases hf
      exact arithmetic_footprint h46 rfl rfl (by decide) rfl (hoe rfl)
        (fun h => by simp only [agree_RA h rfl]) (fun h => by simp only [agree_RA h rfl])
  case addcx | addcox | subfcx | subfcox =>
      cases hf
      exact arithmeticCarry_footprint h46 rfl rfl (by decide) rfl (hoe rfl)
        (fun h => by simp only [agree_RA h rfl, agree_RB h rfl])
        (fun h => by simp only [agree_RA h rfl, agree_RB h rfl])
        (fun h => by simp only [agree_RA h rfl, agree_RB h rfl])
  case addex | addeox | subfex | subfeox =>
      cases hf
      exact arithmeticCarry_footprint h46 rfl rfl (by decide) rfl (hoe rfl)
        (fun h => by simp only [agree_RA h rfl, agree_RB h rfl, agree_GetCarry h rfl])
        (fun h => by simp only [agree_RA h rfl, agree_RB h rfl, agree_GetCarry h rfl])
        (fun h => by simp only [agree_RA h rfl, agree_RB h rfl, agree_GetCarry h rfl])
  case addmex | addmeox | addzex | addzeox | subfmex | subfmeox | subfzex | subfzeox =>
      cases hf
      exact arithmeticCarry_footprint h46 rfl rfl (by decide) rfl (hoe rfl)
        (fun h => by simp only [agree_RA h rfl, agree_GetCarry h rfl])
        (fun h => by simp only [agree_RA h rfl, agree_GetCarry h rfl])
        (fun h => by simp only [agree_RA h rfl, agree_GetCarry h rfl])
  case crand | crandc | creqv | crnand | crnor | cror | crorc | crxor =>
      cases hf
      exact crBit_footprint _ h46 rfl (by decide)
  case mcrf =>
      cases hf
      exact mcrf_footprint h46
  case mcrxr =>
      cases hf
      exact mcrxr_footprint h46
  case mfcr =>
      cases hf
      exact mfcr_footprint h46
  case mtcrf =>
      cases hf
      exact mtcrf_footprint h46
  case isync | sync | eieio | dcbt | dcbtst | dcba =>
      cases hf
      exact nothing_footprint h46 rfl rfl rfl (not_writesSO rfl (by decide))
  all_goals exact nomatch hf

end

end Karphin.PPCAnalyst

/-! What an instruction word must look like when it decodes to a modelled instruction. -/

namespace Karphin.PPCAnalyst

open Karphin.PowerPC Karphin.Lib Karphin.PowerPC.Interpreter

variable {ρ : Type} {inst : UGeckoInstruction} {op : Op}

def InTable (op : Op) (table : List (Nat × Op)) : Prop := ∃ row ∈ table, row.2 = op

theorem lookup_inTable {table : List (Nat × Op)} {opcode : Nat} (h : lookup table opcode = some op) :
    InTable op table :=
  ⟨_, lookup_mem h, rfl⟩

theorem GetOpInfo_cases (h : GetOpInfo inst = op) (hknown : op ≠ .unknown_instruction) :
    (inst.OPCD.toNat = 4 ∧ (InTable op table4_2 ∨ InTable op table4_3 ∨ InTable op table4)) ∨
    (inst.OPCD.toNat = 19 ∧ (inst.SUBOP10.toNat, op) ∈ table19) ∨
    (inst.OPCD.toNat = 31 ∧ (inst.SUBOP10.toNat, op) ∈ table31) ∨
    (inst.OPCD.toNat = 59 ∧ InTable op table59) ∨
    (inst.OPCD.toNat = 63 ∧ (InTable op table63_2 ∨ InTable op table63)) ∨
    (inst.OPCD.toNat, op) ∈ primaryTable := by
  have hfound : ∀ {found : Option Op}, found.getD .unknown_instruction = op → found = some op := by
    intro found hop
    cases found with
    | none => exact absurd hop.symm hknown
    | some o => rw [← hop, Option.getD_some]
  unfold GetOpInfo at h
  dsimp only at h
  split at h
  · next h4 =>
      rcases Option.or_eq_some_iff.mp (hfound h) with h | ⟨-, h⟩
      · exact .inl ⟨h4, .inl (lookup_inTable h)⟩
      · rcases Option.or_eq_some_iff.mp h with h | ⟨-, h⟩
        · exact .inl ⟨h4, .inr (.inl (lookup_inTable h))⟩
        · exact .inl ⟨h4, .inr (.inr (lookup_inTable h))⟩
  · next h19 => exact .inr (.inl ⟨h19, lookup_mem (hfound h)⟩)
  · next h31 => exact .inr (.inr (.inl ⟨h31, lookup_mem (hfound h)⟩))
  · next h59 => exact .inr (.inr (.inr (.inl ⟨h59, lookup_inTable (hfound h)⟩)))
  · next h63 =>
      rcases Option.or_eq_some_iff.mp (hfound h) with h | ⟨-, h⟩
      · exact .inr (.inr (.inr (.inr (.inl ⟨h63, .inl (lookup_inTable h)⟩))))
      · exact .inr (.inr (.inr (.inr (.inl ⟨h63, .inr (lookup_inTable h)⟩))))
  · exact .inr (.inr (.inr (.inr (.inr (lookup_mem (hfound h))))))

/-! ## The modelled instructions -/

def modelled (op : Op) : Bool := (interpreterTable (ρ := Unit) op).isSome

theorem isSome_eq_modelled (op : Op) : (interpreterTable (ρ := ρ) op).isSome = modelled op := by
  cases op <;> rfl

theorem modelled_of_integer {op : Op} (h : op.type = .integer) : modelled op = true := by
  have hall : (op.type != .integer || modelled op) = true := by cases op <;> rfl
  simpa [h] using hall

theorem modelled_of_some {f : UGeckoInstruction → PowerPCState ρ → PowerPCState ρ}
    (hf : interpreterTable op = some f) : modelled op = true := by
  rw [← isSome_eq_modelled (ρ := ρ), hf, Option.isSome_some]

theorem primaryTable_modelled : ∀ row ∈ primaryTable, modelled row.2 = true →
    row.1 ∉ [0, 4, 46, 47, 56, 57, 60, 61] ∧ overflowForm row.2 = false := by
  decide

theorem table19_modelled : ∀ row ∈ table19, overflowForm row.2 = false := by
  decide

theorem table31_modelled : ∀ row ∈ table31, overflowForm row.2 = true →
    row.2.has .setOE = decide (512 ≤ row.1) := by
  decide

def floatTables : List (List (Nat × Op)) := [table4_2, table4_3, table4, table59, table63_2, table63]

theorem floatTables_not_modelled : ∀ table ∈ floatTables, ∀ row ∈ table, modelled row.2 = false := by
  decide

theorem modelled_cases (hop : GetOpInfo inst = op) (h : modelled op = true) :
    (inst.OPCD.toNat = 19 ∧ (inst.SUBOP10.toNat, op) ∈ table19) ∨
    (inst.OPCD.toNat = 31 ∧ (inst.SUBOP10.toNat, op) ∈ table31) ∨
    (inst.OPCD.toNat, op) ∈ primaryTable := by
  have hknown : op ≠ .unknown_instruction := by
    rintro rfl
    exact absurd h (by decide)
  have hfloat : ∀ {table : List (Nat × Op)}, InTable op table → table ∈ floatTables → False := by
    rintro table ⟨row, hrow, rfl⟩ htable
    simp [floatTables_not_modelled table htable row hrow] at h
  rcases GetOpInfo_cases hop hknown with ⟨-, h4⟩ | h19 | h31 | ⟨-, h59⟩ | ⟨-, h63⟩ | hprimary
  · rcases h4 with h4 | h4 | h4 <;> exact (hfloat h4 (by simp [floatTables])).elim
  · exact .inl h19
  · exact .inr (.inl h31)
  · exact (hfloat h59 (by simp [floatTables])).elim
  · rcases h63 with h63 | h63 <;> exact (hfloat h63 (by simp [floatTables])).elim
  · exact .inr (.inr hprimary)

theorem modelled_OPCD (hop : GetOpInfo inst = op) (h : modelled op = true) :
    inst.OPCD.toNat ∉ [0, 4, 46, 47, 56, 57, 60, 61] := by
  rcases modelled_cases hop h with ⟨h19, -⟩ | ⟨h31, -⟩ | hprimary
  · simp [h19]
  · simp [h31]
  · exact (primaryTable_modelled _ hprimary h).1

theorem setOE_eq (hop : GetOpInfo inst = op) (h : modelled op = true) (hoe : overflowForm op = true) :
    op.has .setOE = inst.OE := by
  rcases modelled_cases hop h with ⟨-, h19⟩ | ⟨-, h31⟩ | hprimary
  · simp [table19_modelled _ h19] at hoe
  · rw [inst.OE_eq, table31_modelled _ h31 hoe]
  · simp [(primaryTable_modelled _ hprimary h).2] at hoe

theorem modelled_footprint {f : UGeckoInstruction → PowerPCState ρ → PowerPCState ρ}
    (hf : interpreterTable (GetOpInfo inst) = some f) :
    Footprint get (f inst) (reads (GetOpInfo inst) inst) (writes (GetOpInfo inst) inst) := by
  have hmod : modelled (GetOpInfo inst) = true := modelled_of_some hf
  have h46 : inst.OPCD ≠ 46#6 := by
    intro h
    have hmem := modelled_OPCD rfl hmod
    simp [h] at hmem
  exact interpreterTable_footprint hf h46 (setOE_eq rfl hmod)

theorem modelled_not_useFPU (h : modelled op = true) : op.has .useFPU = false := by
  have hall : (!modelled op || !op.has .useFPU) = true := by cases op <;> rfl
  simpa [h] using hall

theorem SingleStepInner_eq (m : Unmodelled ρ) (address : BitVec 32) {s : PowerPCState ρ}
    (hopcd : inst.OPCD.toNat ∉ [0, 4, 56, 57, 60, 61])
    (hfp : (GetOpInfo inst).has .useFPU = true → fpEnabled s = true) :
    SingleStepInner m address inst s = RunInterpreterOp m address inst s := by
  have hhex : inst.hex ≠ 0#32 := by
    intro h
    simp [UGeckoInstruction.OPCD, h] at hopcd
  have hps : IsPairedSingleInstruction inst = false := by
    simp only [List.mem_cons, List.not_mem_nil, or_false, not_or] at hopcd
    simp [IsPairedSingleInstruction, IsPairedSingleQuantizedNonIndexedInstruction, ← BitVec.toNat_inj, hopcd]
  have hvalid : IsInvalidPairedSingleExecution m inst s = false := by
    have hq : IsPairedSingleQuantizedNonIndexedInstruction inst = false := by
      simp only [IsPairedSingleInstruction, Bool.or_eq_false_iff] at hps
      exact hps.2
    simp [IsInvalidPairedSingleExecution, hps, hq]
  cases hon : fpEnabled s with
  | true => simp [SingleStepInner, hhex, hvalid, hon]
  | false =>
      have hfpu : (GetOpInfo inst).has .useFPU = false := by
        cases hfpu : (GetOpInfo inst).has .useFPU with
        | false => rfl
        | true => simp [hfp hfpu] at hon
      simp [SingleStepInner, hhex, hvalid, hon, hfpu]

theorem SingleStepInner_modelled {f : UGeckoInstruction → PowerPCState ρ → PowerPCState ρ}
    (m : Unmodelled ρ) (address : BitVec 32) (hf : interpreterTable (GetOpInfo inst) = some f)
    (s : PowerPCState ρ) : SingleStepInner m address inst s = .next (f inst s) := by
  have hmod : modelled (GetOpInfo inst) = true := modelled_of_some hf
  have hopcd : inst.OPCD.toNat ∉ [0, 4, 56, 57, 60, 61] := by
    have hmem := modelled_OPCD rfl hmod
    simp only [List.mem_cons, List.not_mem_nil, or_false, not_or] at hmem ⊢
    simp [hmem]
  rw [SingleStepInner_eq m address hopcd (by simp [modelled_not_useFPU hmod])]
  simp [RunInterpreterOp, hf]

end Karphin.PPCAnalyst
