import Karphin.Arm64Gen.Machine

/-!
# Moving immediates

The code that moves an immediate into a register: a base that one instruction or none of its parts makes, and then the parts of
16 bits that the base does not have.
-/

namespace Karphin.Arm64Gen

def part {w : Nat} (v : BitVec w) (i : Nat) : BitVec 16 := (v >>> (16 * i)).setWidth 16

namespace ARM64XEmitter

structure Part where
  imm : BitVec 16
  shift : Nat
  deriving DecidableEq

inductive Approach
  | movzBase | movnBase | adrBase | adrpBase | orrBase
  deriving DecidableEq

structure Best (w : Nat) where
  parts : List Part
  approach : Approach
  base : BitVec w

def instructionsRequired (parts : List Part) : Approach → Nat
  | .movzBase | .movnBase => parts.length
  | .adrBase | .adrpBase | .orrBase => parts.length + 1

def partsOf {w : Nat} (imm base : BitVec w) : List Part :=
  (List.range (w / 16)).filterMap fun i => if part imm i ≠ part base i then some ⟨part imm i, i⟩ else none

def tryBase {w : Nat} (imm : BitVec w) (best : Best w) (base : BitVec w) (approach : Approach) : Best w :=
  let parts := partsOf imm base
  if instructionsRequired parts approach < instructionsRequired best.parts best.approach then ⟨parts, approach, base⟩
  else best

def sext21Bit (x : BitVec 64) : BitVec 64 :=
  x &&& 0x1fffff ||| (if x &&& 0x100000 ≠ 0 then ~~~(0x1fffff : BitVec 64) else 0)

def adrpOffset (imm pc : BitVec 64) : BitVec 64 := sext21Bit ((imm >>> 12) - (pc >>> 12)) <<< 12

def adrOffset (imm pc : BitVec 64) : BitVec 64 := sext21Bit (imm - pc)

def adrpBase (imm pc : BitVec 64) : BitVec 64 := (pc &&& ~~~(0xfff : BitVec 64)) + adrpOffset imm pc

def adrBase (imm pc : BitVec 64) : BitVec 64 := pc + adrOffset imm pc

/-- The immediates that are tried for `ORR`: a half or a quarter repeated. -/
def orrBases : (b64Bit : Bool) → BitVec (width b64Bit) → List (BitVec (width b64Bit))
  | true, (imm : BitVec 64) =>
      [(imm <<< 32 ||| imm &&& 0x00000000ffffffff : BitVec 64),
        (imm &&& 0xffffffff00000000 ||| imm >>> 32 : BitVec 64),
        (imm <<< 48 ||| imm &&& 0x0000ffffffff0000 ||| imm >>> 48 : BitVec 64)]
  | false, imm => [imm]

/-- The base with the fewest instructions; the first one of them. -/
def chooseBase (b64Bit : Bool) (imm : BitVec (width b64Bit)) (pc : BitVec 64) : Best (width b64Bit) :=
  let best := ⟨partsOf imm 0, .movzBase, 0⟩
  let best := tryBase imm best (~~~0) .movnBase
  let best :=
    if b64Bit then
      let best := tryBase imm best ((adrpBase (imm.setWidth 64) pc).setWidth (width b64Bit)) .adrpBase
      tryBase imm best ((adrBase (imm.setWidth 64) pc).setWidth (width b64Bit)) .adrBase
    else best
  if instructionsRequired best.parts best.approach > 1 then
    (orrBases b64Bit imm).foldl
      (fun best base =>
        if (LogicalImm.ofValue (base.setWidth 64) (GPRSize.ofBool b64Bit)).valid then tryBase imm best base .orrBase
        else best)
      best
  else best

/-- The assertion that `TryORRI2R` succeeds is a part of it here. -/
def tryORRI2R (Rd Rn : ARM64Reg) (imm : BitVec 64) : Emit :=
  let result := LogicalImm.ofValue imm (GPRSize.ofBool Rd.is64Bit)
  if result.valid then orr Rd Rn result else none

/-- The parts behind the base. After `ADRP` the lowest part is added. -/
def uploadParts (Rd : ARM64Reg) (approach : Approach) (adrpBase : BitVec 64) : List Part → Emit
  | [] => some []
  | p :: parts => do
      let code ←
        if approach = .adrpBase ∧ p.shift = 0 then
          if p.imm.setWidth 64 = (adrpBase &&& 0xf000) + (p.imm &&& 0xfff).setWidth 64 then
            encodeAddSubImmInst false false Rd Rd ((p.imm &&& 0xfff).setWidth 32) false
          else none
        else movk Rd (p.imm.setWidth 32) p.shift
      let rest ← uploadParts Rd approach adrpBase parts
      some (code ++ rest)

def movI2RImpl (Rd : ARM64Reg) (imm : BitVec (width Rd.is64Bit)) (pc : BitVec 64) : Emit := do
  let best := chooseBase Rd.is64Bit imm pc
  let base := adrpBase (imm.setWidth 64) pc
  match best.approach with
  | .movzBase =>
      let p := best.parts.headD ⟨0, 0⟩
      let code ← movz Rd (p.imm.setWidth 32) p.shift
      let rest ← uploadParts Rd .movzBase base best.parts.tail
      some (code ++ rest)
  | .movnBase =>
      let p := best.parts.headD ⟨0xffff, 0⟩
      let code ← movn Rd ((~~~p.imm).setWidth 32) p.shift
      let rest ← uploadParts Rd .movnBase base best.parts.tail
      some (code ++ rest)
  | .adrBase =>
      let code ← adr Rd ((adrOffset (imm.setWidth 64) pc).setWidth 32)
      let rest ← uploadParts Rd .adrBase base best.parts
      some (code ++ rest)
  | .adrpBase =>
      let code ← adrp Rd (adrpOffset (imm.setWidth 64) pc)
      let rest ← uploadParts Rd .adrpBase base best.parts
      some (code ++ rest)
  | .orrBase =>
      let code ← tryORRI2R Rd (if Rd.is64Bit then .zr else .wzr) (best.base.setWidth 64)
      let rest ← uploadParts Rd .orrBase base best.parts
      some (code ++ rest)

def movI2R (Rd : ARM64Reg) (imm pc : BitVec 64) : Emit := movI2RImpl Rd (imm.setWidth (width Rd.is64Bit)) pc

end ARM64XEmitter

/-! ## Parts -/

section

variable {w n : Nat} {u v imm base : BitVec w}

theorem getLsbD_part (v : BitVec w) (k : Nat) {i : Nat} (hi : i < 16) : (part v k).getLsbD i = v.getLsbD (16 * k + i) := by
  rw [part, BitVec.getLsbD_setWidth, BitVec.getLsbD_ushiftRight, decide_eq_true hi, Bool.true_and]

theorem eq_of_part (hw : w = 16 * n) (h : ∀ k < n, part u k = part v k) : u = v := by
  refine BitVec.eq_of_getLsbD_eq fun i hi => ?_
  have hj := Nat.mod_lt i (show 0 < 16 by decide)
  have hbit := congrArg (fun x => BitVec.getLsbD x (i % 16)) (h (i / 16) (by omega))
  simp only [getLsbD_part _ _ hj, Nat.div_add_mod] at hbit
  exact hbit

theorem getLsbD_insertPart (v : BitVec w) (imm : BitVec 16) (pos : Nat) {i : Nat} (hi : i < w) :
    (insertPart v imm pos).getLsbD i =
      if 16 * pos ≤ i ∧ i < 16 * pos + 16 then imm.getLsbD (i - 16 * pos) else v.getLsbD i := by
  rw [insertPart, BitVec.getLsbD_or, BitVec.getLsbD_and, BitVec.getLsbD_not, BitVec.getLsbD_shiftLeft,
    BitVec.getLsbD_shiftLeft, BitVec.getLsbD_setWidth, BitVec.getLsbD_setWidth, BitVec.getLsbD_allOnes]
  by_cases hlow : i < 16 * pos
  · rw [if_neg (by omega)]
    simp [hi, hlow]
  · by_cases hhigh : i < 16 * pos + 16
    · rw [if_pos ⟨by omega, hhigh⟩]
      simp [hi, hlow, show i - 16 * pos < w by omega, show i - 16 * pos < 16 by omega]
    · rw [if_neg (by omega)]
      simp [hi, hlow, show ¬ i - 16 * pos < 16 by omega, BitVec.getLsbD_of_ge imm (i - 16 * pos) (by omega)]

theorem part_insertPart (hw : w = 16 * n) (v : BitVec w) (imm : BitVec 16) (pos : Nat) {k : Nat} (hk : k < n) :
    part (insertPart v imm pos) k = if k = pos then imm else part v k := by
  refine BitVec.eq_of_getLsbD_eq fun i hi => ?_
  rw [getLsbD_part _ _ hi, getLsbD_insertPart _ _ _ (by omega)]
  by_cases hpos : k = pos
  · rw [if_pos (by omega), if_pos hpos, hpos]
    congr 1
    omega
  · rw [if_neg (by omega), if_neg hpos, getLsbD_part _ _ hi]

theorem not_insertPart_zero (imm : BitVec 16) (pos : Nat) :
    ~~~(insertPart (0 : BitVec w) (~~~imm) pos) = insertPart (~~~0) imm pos := by
  refine BitVec.eq_of_getLsbD_eq fun i hi => ?_
  rw [BitVec.getLsbD_not, getLsbD_insertPart _ _ _ hi, getLsbD_insertPart _ _ _ hi]
  split
  next hin => simp [hi, show i - 16 * pos < 16 by omega]
  · simp [hi]

namespace ARM64XEmitter

def applyParts (parts : List Part) (v : BitVec w) : BitVec w := parts.foldl (fun v p => insertPart v p.imm p.shift) v

def PartsOf (imm : BitVec w) (parts : List Part) : Prop := ∀ p ∈ parts, 16 * p.shift < w ∧ p.imm = part imm p.shift

theorem part_applyParts (hw : w = 16 * n) {parts : List Part} (h : PartsOf imm parts) {k : Nat} (hk : k < n) :
    part (applyParts parts v) k = if ∃ p ∈ parts, p.shift = k then part imm k else part v k := by
  induction parts generalizing v with
  | nil => simp [applyParts]
  | cons p parts ih =>
      obtain ⟨hp, hparts⟩ := List.forall_mem_cons.mp h
      have hstep : part (applyParts (p :: parts) v) k = part (applyParts parts (insertPart v p.imm p.shift)) k := rfl
      rw [hstep, ih hparts, part_insertPart hw _ _ _ hk]
      by_cases hrest : ∃ q ∈ parts, q.shift = k
      · rw [if_pos hrest, if_pos]
        obtain ⟨q, hq, hshift⟩ := hrest
        exact ⟨q, List.mem_cons_of_mem _ hq, hshift⟩
      · rw [if_neg hrest]
        by_cases hfirst : k = p.shift
        · rw [if_pos hfirst, if_pos ⟨p, List.mem_cons_self, hfirst.symm⟩, hp.2, hfirst]
        · rw [if_neg hfirst, if_neg]
          rintro ⟨q, hq, hshift⟩
          rcases List.mem_cons.mp hq with rfl | hq
          · exact hfirst hshift.symm
          · exact hrest ⟨q, hq, hshift⟩

theorem mem_partsOf {p : Part} (hw : w = 16 * n) : p ∈ partsOf imm base ↔
    p.shift < n ∧ p.imm = part imm p.shift ∧ part imm p.shift ≠ part base p.shift := by
  have hn : w / 16 = n := by omega
  rw [partsOf, List.mem_filterMap, hn]
  refine ⟨fun ⟨k, hk, hp⟩ => ?_, fun ⟨hk, himm, hne⟩ => ⟨p.shift, List.mem_range.mpr hk, ?_⟩⟩
  · obtain ⟨hne, heq⟩ := Option.ite_none_right_eq_some.mp hp
    cases heq
    exact ⟨List.mem_range.mp hk, rfl, hne⟩
  · rw [if_pos hne, ← himm]

theorem partsOf_partsOf (hw : w = 16 * n) : PartsOf imm (partsOf imm base) := by
  intro p hp
  obtain ⟨hshift, himm, -⟩ := (mem_partsOf hw).mp hp
  exact ⟨by omega, himm⟩

theorem partsOf_sorted (imm base : BitVec w) : (partsOf imm base).Pairwise (·.shift < ·.shift) := by
  refine List.Pairwise.filterMap _ (fun i j hij p hp q hq => ?_) List.pairwise_lt_range
  obtain ⟨-, heqp⟩ := Option.ite_none_right_eq_some.mp hp
  obtain ⟨-, heqq⟩ := Option.ite_none_right_eq_some.mp hq
  cases heqp
  cases heqq
  exact hij

theorem applyParts_partsOf (hw : w = 16 * n) : applyParts (partsOf imm base) base = imm := by
  refine eq_of_part hw fun k hk => ?_
  rw [part_applyParts hw (partsOf_partsOf hw) hk]
  split
  · rfl
  next hnone =>
    by_contra hne
    exact hnone ⟨⟨part imm k, k⟩, (mem_partsOf hw).mpr ⟨hk, rfl, fun h => hne h.symm⟩, rfl⟩

end ARM64XEmitter

end

/-! ## Offsets from the program counter -/

namespace ARM64XEmitter

theorem sext21Bit_eq (x : BitVec 64) : sext21Bit x = (x.setWidth 21).signExtend 64 := by
  have hlow : ∀ i < 64, (0x1fffff : BitVec 64).getLsbD i = decide (i < 21) := by decide
  have hsign : (x &&& 0x100000 ≠ 0) ↔ x.getLsbD 20 = true := by
    have htwo : (0x100000 : BitVec 64) = BitVec.twoPow 64 20 := rfl
    rw [htwo, BitVec.and_twoPow]
    cases x.getLsbD 20
    · simp
    · simp only [if_true, iff_true]
      decide
  refine BitVec.eq_of_getLsbD_eq fun i hi => ?_
  rw [sext21Bit, BitVec.getLsbD_or, BitVec.getLsbD_and, hlow i hi, BitVec.getLsbD_signExtend, BitVec.msb_eq_getLsbD_last,
    BitVec.getLsbD_setWidth, BitVec.getLsbD_setWidth]
  by_cases hbit : i < 21
  · split
    · rw [BitVec.getLsbD_not, hlow i hi]
      simp [hi, hbit]
    · simp [hi, hbit]
  · split
    next h =>
      rw [BitVec.getLsbD_not, hlow i hi, hsign.mp h]
      simp [hi, hbit]
    next h =>
      rw [Bool.eq_false_iff.mpr (mt hsign.mpr h)]
      simp [hi, hbit]

theorem getLsbD_signExtend_of_lt (y : BitVec 21) {i : Nat} (hi : i < 21) : (y.signExtend 64).getLsbD i = y.getLsbD i := by
  rw [BitVec.getLsbD_signExtend, if_pos hi, decide_eq_true (show i < 64 by omega), Bool.true_and]

theorem setWidth_signExtend (y : BitVec 21) : (y.signExtend 64).setWidth 21 = y := by
  refine BitVec.eq_of_getLsbD_eq fun i hi => ?_
  rw [BitVec.getLsbD_setWidth, getLsbD_signExtend_of_lt y hi, decide_eq_true hi, Bool.true_and]

theorem adr_offset (imm pc : BitVec 64) :
    (((adrOffset imm pc).setWidth 32).setWidth 21).signExtend 64 = adrOffset imm pc := by
  rw [adrOffset, sext21Bit_eq, BitVec.setWidth_setWidth_of_le _ (by decide), setWidth_signExtend]

theorem adrp_offset (imm pc : BitVec 64) :
    ((((adrpOffset imm pc).sshiftRight 12).setWidth 32).setWidth 21).signExtend 64 <<< 12 = adrpOffset imm pc := by
  have hback : ∀ y : BitVec 21, (((y.signExtend 64 <<< 12).sshiftRight 12).setWidth 32).setWidth 21 = y := by
    intro y
    refine BitVec.eq_of_getLsbD_eq fun i hi => ?_
    rw [BitVec.setWidth_setWidth_of_le _ (by decide), BitVec.getLsbD_setWidth, BitVec.getLsbD_sshiftRight,
      if_pos (show 12 + i < 64 by omega), BitVec.getLsbD_shiftLeft, Nat.add_sub_cancel_left, getLsbD_signExtend_of_lt y hi]
    simp [hi, show ¬ 64 ≤ i by omega, show 12 + i < 64 by omega]
  rw [adrpOffset, sext21Bit_eq, hback]

theorem getLsbD_adrpBase (imm pc : BitVec 64) {i : Nat} (hi : i < 33) :
    (adrpBase imm pc).getLsbD i = (decide (12 ≤ i) && imm.getLsbD i) := by
  have hpage : pc &&& ~~~(0xfff : BitVec 64) = (pc >>> 12) <<< 12 := by
    have hlow : ∀ j < 64, (0xfff : BitVec 64).getLsbD j = decide (j < 12) := by decide
    refine BitVec.eq_of_getLsbD_eq fun j hj => ?_
    rw [BitVec.getLsbD_and, BitVec.getLsbD_not, hlow j hj, BitVec.getLsbD_shiftLeft, BitVec.getLsbD_ushiftRight]
    by_cases hjlow : j < 12
    · simp [hj, hjlow]
    · simp [hj, hjlow, show 12 + (j - 12) = j by omega]
  have hpages : (pc >>> 12 + sext21Bit (imm >>> 12 - pc >>> 12)).setWidth 21 = (imm >>> 12).setWidth 21 := by
    have hle : 21 ≤ 64 := by decide
    rw [BitVec.setWidth_add _ _ hle, sext21Bit_eq, setWidth_signExtend, ← BitVec.setWidth_add _ _ hle]
    rw [BitVec.add_comm, BitVec.sub_add_cancel]
  rw [adrpBase, adrpOffset, hpage, ← BitVec.shiftLeft_add_distrib, BitVec.getLsbD_shiftLeft]
  by_cases hlow : i < 12
  · simp [hlow, show ¬ 12 ≤ i by omega]
  · have hbit := congrArg (fun y => BitVec.getLsbD y (i - 12)) hpages
    simp only [BitVec.getLsbD_setWidth, BitVec.getLsbD_ushiftRight, show 12 + (i - 12) = i by omega,
      decide_eq_true (show i - 12 < 21 by omega), Bool.true_and] at hbit
    rw [hbit]
    simp [hlow, show 12 ≤ i by omega, show i < 64 by omega]

/-! ## The base -/

theorem getLsbD_add_of_and {x y : BitVec 64} (h : x &&& y = 0) (i : Nat) :
    (x + y).getLsbD i = (x.getLsbD i || y.getLsbD i) := by
  rw [BitVec.add_eq_or_of_and_eq_zero _ _ h, BitVec.getLsbD_or]

theorem getLsbD_lowBits (p : BitVec 16) (i : Nat) :
    ((p &&& 0xfff).setWidth 64).getLsbD i = (decide (i < 12) && p.getLsbD i) := by
  have hlow : ∀ i < 16, (0xfff : BitVec 16).getLsbD i = decide (i < 12) := by decide
  rw [BitVec.getLsbD_setWidth, BitVec.getLsbD_and]
  by_cases hi : i < 16
  · rw [hlow i hi, Bool.and_comm (p.getLsbD i)]
    simp [show i < 64 by omega]
  · rw [BitVec.getLsbD_of_ge p i (by omega)]
    simp

theorem adrpBase_and_lowBits (imm pc : BitVec 64) (p : BitVec 16) :
    adrpBase imm pc &&& (p &&& 0xfff).setWidth 64 = 0 := by
  refine BitVec.eq_of_getLsbD_eq fun i _ => ?_
  rw [BitVec.getLsbD_and, getLsbD_lowBits]
  by_cases hi : i < 12
  · rw [getLsbD_adrpBase imm pc (by omega)]
    simp [show ¬ 12 ≤ i by omega]
  · simp [hi]

theorem part_eq_adrpBase (imm pc : BitVec 64) :
    (part imm 0).setWidth 64 = (adrpBase imm pc &&& 0xf000) + (part imm 0 &&& 0xfff).setWidth 64 := by
  have hmask : ∀ i < 64, (0xf000 : BitVec 64).getLsbD i = decide (12 ≤ i ∧ i < 16) := by decide
  have hand : (adrpBase imm pc &&& 0xf000) &&& (part imm 0 &&& 0xfff).setWidth 64 = 0 := by
    rw [BitVec.and_assoc, BitVec.and_comm 0xf000, ← BitVec.and_assoc, adrpBase_and_lowBits]
    rfl
  refine BitVec.eq_of_getLsbD_eq fun i hi => ?_
  rw [getLsbD_add_of_and hand, BitVec.getLsbD_and, hmask i hi, getLsbD_lowBits, BitVec.getLsbD_setWidth]
  by_cases hpart : i < 16
  · rw [getLsbD_part _ _ hpart, getLsbD_adrpBase imm pc (by omega)]
    by_cases hlow : i < 12
    · simp [hi, hlow, show ¬ 12 ≤ i by omega]
    · simp [hi, hlow, hpart, show 12 ≤ i by omega]
  · rw [BitVec.getLsbD_of_ge _ i (by omega)]
    simp [hpart]

theorem adrpBase_add (imm pc : BitVec 64) :
    adrpBase imm pc + (part imm 0 &&& 0xfff).setWidth 64 = insertPart (adrpBase imm pc) (part imm 0) 0 := by
  refine BitVec.eq_of_getLsbD_eq fun i hi => ?_
  rw [getLsbD_add_of_and (adrpBase_and_lowBits imm pc _), getLsbD_insertPart _ _ _ hi, getLsbD_lowBits]
  by_cases hpart : i < 16
  · rw [if_pos (by omega), Nat.mul_zero, Nat.sub_zero, getLsbD_adrpBase imm pc (by omega), getLsbD_part _ _ hpart]
    by_cases hlow : i < 12
    · simp [hlow, show ¬ 12 ≤ i by omega]
    · simp [hlow, show 12 ≤ i by omega]
  · rw [if_neg (by omega)]
    simp [show ¬ i < 12 by omega]

end ARM64XEmitter

/-! ## Running the code -/

namespace ARM64XEmitter

section

variable {Rd : ARM64Reg} {s : Cpu} {pc : BitVec 64} {imm v : BitVec (width Rd.is64Bit)}

theorem setWidth_width (v : BitVec (width Rd.is64Bit)) : (v.setWidth 64).setWidth (width Rd.is64Bit) = v := by
  rw [BitVec.setWidth_setWidth_of_le _ (width_le _), BitVec.setWidth_eq]

theorem uploadParts_movk (hr : Rd.num.val < 31) {approach : Approach} {base : BitVec 64} {parts : List Part}
    (hparts : PartsOf imm parts) (hmovk : ∀ p ∈ parts, ¬ (approach = .adrpBase ∧ p.shift = 0)) :
    ∃ code, uploadParts Rd approach base parts = some code ∧
      run pc code (s.writeZ Rd.num (v.setWidth 64)) = some (s.writeZ Rd.num ((applyParts parts v).setWidth 64)) := by
  induction parts generalizing pc v with
  | nil => exact ⟨[], rfl, rfl⟩
  | cons p parts ih =>
      obtain ⟨hp, hparts⟩ := List.forall_mem_cons.mp hparts
      obtain ⟨hpmovk, hmovk⟩ := List.forall_mem_cons.mp hmovk
      obtain ⟨code, hcode, hrun⟩ := @ih (pc + 4) (insertPart v p.imm p.shift) hparts hmovk
      refine ⟨.movk Rd.is64Bit Rd.num p.imm p.shift :: code, ?_, ?_⟩
      · rw [uploadParts, if_neg hpmovk, movk, encodeMOVWideInst_eq, hcode]
        rfl
      · rw [run, Instr.exec, if_pos hp.1, Cpu.readZ_writeZ _ hr, Cpu.writeZ_writeZ _ hr, setWidth_width]
        exact hrun

theorem uploadParts_adrp {r : Fin 32} (hr : r.val < 31) {s : Cpu} {pc page imm : BitVec 64} :
    ∃ code, uploadParts ⟨true, r⟩ .adrpBase (adrpBase imm page) (partsOf imm (adrpBase imm page)) = some code ∧
      run pc code (s.writeZ r (adrpBase imm page)) = some (s.writeZ r imm) := by
  have himm : applyParts (partsOf imm (adrpBase imm page)) (adrpBase imm page) = imm := applyParts_partsOf (n := 4) rfl
  have hof : PartsOf imm (partsOf imm (adrpBase imm page)) := partsOf_partsOf (n := 4) rfl
  have hsorted := partsOf_sorted imm (adrpBase imm page)
  generalize partsOf imm (adrpBase imm page) = parts at himm hof hsorted
  have hmovk : ∀ (parts : List Part) (v : BitVec 64) (pc : BitVec 64), PartsOf imm parts → (∀ p ∈ parts, p.shift ≠ 0) →
      ∃ code, uploadParts ⟨true, r⟩ .adrpBase (adrpBase imm page) parts = some code ∧
        run pc code (s.writeZ r v) = some (s.writeZ r (applyParts parts v)) := by
    intro parts v pc hof hshift
    obtain ⟨code, hcode, hrun⟩ := @uploadParts_movk ⟨true, r⟩ s pc imm v hr .adrpBase (adrpBase imm page) parts hof
      fun p hp h => hshift p hp h.2
    have hwide : @BitVec.setWidth (width true) 64 v = v := BitVec.setWidth_eq v
    rw [hwide] at hrun
    exact ⟨code, hcode, hrun.trans (congrArg (some <| s.writeZ r ·) (BitVec.setWidth_eq (applyParts parts v)))⟩
  cases parts with
  | nil =>
      refine ⟨[], rfl, ?_⟩
      rw [applyParts, List.foldl_nil] at himm
      rw [run, himm]
  | cons p parts =>
      obtain ⟨hlater, hsorted⟩ := List.pairwise_cons.mp hsorted
      obtain ⟨hp, hofs⟩ := List.forall_mem_cons.mp hof
      by_cases hshift : p.shift = 0
      · obtain ⟨code, hcode, hrun⟩ := hmovk parts (insertPart (adrpBase imm page) p.imm p.shift) (pc + 4) hofs
          fun q hq => by have := hlater q hq; omega
        have hsmall : ((p.imm &&& 0xfff).setWidth 32).toNat < 2 ^ 12 := by
          rw [BitVec.toNat_setWidth_of_le (by decide), BitVec.toNat_and]
          exact Nat.lt_succ_of_le Nat.and_le_right
        have hpage : p.imm.setWidth 64 = (adrpBase imm page &&& 0xf000) + (p.imm &&& 0xfff).setWidth 64 := by
          rw [hp.2, hshift]
          exact part_eq_adrpBase imm page
        have hadd : adrpBase imm page + (p.imm &&& 0xfff).setWidth 64 = insertPart (adrpBase imm page) p.imm p.shift := by
          rw [hp.2, hshift]
          exact adrpBase_add imm page
        have hlow : (((p.imm &&& 0xfff).setWidth 32).setWidth 12).setWidth 64 = (p.imm &&& 0xfff).setWidth 64 := by
          rw [BitVec.toNat_setWidth_of_le (by decide)] at hsmall
          refine BitVec.eq_of_toNat_eq ?_
          simp only [BitVec.toNat_setWidth]
          omega
        refine ⟨.addSubImm true false false r r (((p.imm &&& 0xfff).setWidth 32).setWidth 12) false :: code, ?_, ?_⟩
        · rw [uploadParts, if_pos ⟨rfl, hshift⟩, if_pos hpage, encodeAddSubImmInst_eq _ _ _ _ hsmall, hcode]
          rfl
        · refine Option.bind_eq_some_iff.mpr ⟨s.writeZ r (insertPart (adrpBase imm page) p.imm p.shift), ?_, ?_⟩
          · rw [Instr.exec_addSubImm _ _ _ _ hr hr, Cpu.readZ_writeZ _ hr, Cpu.writeZ_writeZ _ hr, ← hadd, ← hlow]
            refine congrArg (some <| s.writeZ r ·) ?_
            change BitVec.setWidth 64 (BitVec.setWidth 64 (adrpBase imm page) + BitVec.setWidth 64 _ <<< 0) = _
            rw [BitVec.setWidth_eq, BitVec.setWidth_eq, BitVec.shiftLeft_zero]
          · rw [hrun]
            exact congrArg (some <| s.writeZ r ·) himm
      · obtain ⟨code, hcode, hrun⟩ := hmovk (p :: parts) (adrpBase imm page) pc hof fun q hq => by
          rcases List.mem_cons.mp hq with rfl | hq
          · exact hshift
          · have := hlater q hq
            omega
        rw [himm] at hrun
        exact ⟨code, hcode, hrun⟩

end

/-! ## The choice of a base -/

def Approach.Makes {b64Bit : Bool} (imm : BitVec (width b64Bit)) (pc : BitVec 64) (base : BitVec (width b64Bit)) :
    Approach → Prop
  | .movzBase => base = 0
  | .movnBase => base = ~~~0
  | .adrBase => b64Bit = true ∧ base = (ARM64XEmitter.adrBase (imm.setWidth 64) pc).setWidth _
  | .adrpBase => b64Bit = true ∧ base = (ARM64XEmitter.adrpBase (imm.setWidth 64) pc).setWidth _
  | .orrBase => (LogicalImm.ofValue (base.setWidth 64) (GPRSize.ofBool b64Bit)).valid = true

structure Best.WellMade {b64Bit : Bool} (imm : BitVec (width b64Bit)) (pc : BitVec 64) (best : Best (width b64Bit)) :
    Prop where
  parts : best.parts = partsOf imm best.base
  makes : best.approach.Makes imm pc best.base

section

variable {b64Bit : Bool} {imm base : BitVec (width b64Bit)} {pc : BitVec 64} {best : Best (width b64Bit)}

theorem tryBase_wellMade (h : best.WellMade imm pc) {approach : Approach} (hmakes : approach.Makes imm pc base) :
    (tryBase imm best base approach).WellMade imm pc := by
  rw [tryBase]
  split
  · exact ⟨rfl, hmakes⟩
  · exact h

theorem orrBases_wellMade (bases : List (BitVec (width b64Bit))) (h : best.WellMade imm pc) :
    (bases.foldl
      (fun best base =>
        if (LogicalImm.ofValue (base.setWidth 64) (GPRSize.ofBool b64Bit)).valid then tryBase imm best base .orrBase
        else best)
      best).WellMade imm pc := by
  induction bases generalizing best with
  | nil => exact h
  | cons base bases ih =>
      rw [List.foldl_cons]
      refine ih ?_
      split
      next hvalid => exact tryBase_wellMade h hvalid
      · exact h

theorem chooseBase_wellMade (imm : BitVec (width b64Bit)) (pc : BitVec 64) :
    (chooseBase b64Bit imm pc).WellMade imm pc := by
  have hzero : Best.WellMade imm pc ⟨partsOf imm 0, .movzBase, 0⟩ := ⟨rfl, rfl⟩
  have hones := tryBase_wellMade hzero (show Approach.movnBase.Makes imm pc (~~~0) from rfl)
  have hpages : Best.WellMade imm pc
      (if b64Bit then
        tryBase imm
          (tryBase imm (tryBase imm ⟨partsOf imm 0, .movzBase, 0⟩ (~~~0) .movnBase)
            ((adrpBase (imm.setWidth 64) pc).setWidth (width b64Bit)) .adrpBase)
          ((adrBase (imm.setWidth 64) pc).setWidth (width b64Bit)) .adrBase
      else tryBase imm ⟨partsOf imm 0, .movzBase, 0⟩ (~~~0) .movnBase) := by
    split
    next h64 =>
      have hadrp : Approach.adrpBase.Makes imm pc ((adrpBase (imm.setWidth 64) pc).setWidth _) := ⟨h64, rfl⟩
      have hadr : Approach.adrBase.Makes imm pc ((adrBase (imm.setWidth 64) pc).setWidth _) := ⟨h64, rfl⟩
      exact tryBase_wellMade (tryBase_wellMade hones hadrp) hadr
    · exact hones
  rw [chooseBase]
  exact iteInduction (motive := fun best : Best _ => best.WellMade imm pc) (fun _ => orrBases_wellMade _ hpages) fun _ => hpages

end

section

variable {w n : Nat} {imm base : BitVec w}

theorem headD_spec (hw : 0 < w) {parts : List Part} {low : BitVec 16} (hlow : insertPart base low 0 = base)
    (hparts : PartsOf imm parts) (himm : applyParts parts base = imm) :
    16 * (parts.headD ⟨low, 0⟩).shift < w ∧ PartsOf imm parts.tail ∧
      applyParts parts.tail (insertPart base (parts.headD ⟨low, 0⟩).imm (parts.headD ⟨low, 0⟩).shift) = imm := by
  cases parts with
  | nil => exact ⟨hw, hparts, (congrArg (applyParts []) hlow).trans himm⟩
  | cons p parts =>
      obtain ⟨hp, hparts⟩ := List.forall_mem_cons.mp hparts
      exact ⟨hp.1, hparts, himm⟩

theorem insertPart_zero : insertPart (0 : BitVec w) 0 0 = 0 := by
  refine BitVec.eq_of_getLsbD_eq fun i hi => ?_
  rw [getLsbD_insertPart _ _ _ hi]
  simp

theorem insertPart_ones : insertPart (~~~0 : BitVec w) 0xffff 0 = ~~~0 := by
  have hones : ∀ i < 16, (0xffff : BitVec 16).getLsbD i = true := by decide
  refine BitVec.eq_of_getLsbD_eq fun i hi => ?_
  rw [getLsbD_insertPart _ _ _ hi]
  split
  next hin =>
      rw [hones _ (by omega)]
      simp [hi]
  · rfl

end

theorem setWidth_setWidth_of_64 {b64Bit : Bool} (h64 : b64Bit = true) (x : BitVec 64) :
    (x.setWidth (width b64Bit)).setWidth 64 = x := by
  subst h64
  exact (BitVec.setWidth_setWidth_of_le _ (by decide)).trans (BitVec.setWidth_eq x)

theorem orr_eq {Rd Rn : ARM64Reg} {imm : LogicalImm} (hvalid : imm.valid = true)
    (h : (imm.decode (GPRSize.ofBool Rn.is64Bit)).isSome = true) :
    orr Rd Rn imm = some [.orrImm Rn.is64Bit Rd.num Rn.num imm] := by
  rw [orr, if_pos]
  rw [hvalid, Bool.true_and, Bool.or_eq_true]
  cases hn : imm.n with
  | false => exact .inr rfl
  | true =>
      left
      cases hwide : Rn.is64Bit with
      | true => rfl
      | false =>
          rw [hwide] at h
          simp [LogicalImm.decode, LogicalImm.elementSize, hn, GPRSize.ofBool, GPRSize.bits] at h

section

variable {r : Fin 32} {s : Cpu} {pc : BitVec 64}

theorem exec_orrImm (hr : r.val < 31) {b64Bit : Bool} {v : BitVec 64}
    (hv : (LogicalImm.ofValue v (GPRSize.ofBool b64Bit)).valid = true) :
    (Instr.orrImm b64Bit r 31 (LogicalImm.ofValue v (GPRSize.ofBool b64Bit))).exec pc s =
      some (s.writeZ r ((v.setWidth (width b64Bit)).setWidth 64)) := by
  have hzero : s.readZ 31 = 0 := rfl
  rw [Instr.exec, LogicalImm.decode_ofValue hv, hzero]
  simp only [Cpu.writeSP_eq s hr, BitVec.ofNat_eq_ofNat, BitVec.setWidth_zero, BitVec.zero_or]
  cases b64Bit <;> rfl

theorem run_movI2RImpl (b64Bit : Bool) (hr : r.val < 31) (imm : BitVec (width b64Bit)) (page : BitVec 64) :
    ∃ code, movI2RImpl ⟨b64Bit, r⟩ imm page = some code ∧
      run page code s = some (s.writeZ r (imm.setWidth 64)) := by
  have hw : width b64Bit = 16 * (width b64Bit / 16) := width_eq b64Bit
  have hpos : 0 < width b64Bit := by cases b64Bit <;> decide
  obtain ⟨hparts, hmakes⟩ := chooseBase_wellMade imm page
  have hof : PartsOf imm (chooseBase b64Bit imm page).parts := by
    rw [hparts]
    exact partsOf_partsOf hw
  have himm : applyParts (chooseBase b64Bit imm page).parts (chooseBase b64Bit imm page).base = imm := by
    rw [hparts]
    exact applyParts_partsOf hw
  rw [movI2RImpl]
  generalize chooseBase b64Bit imm page = best at hparts hmakes hof himm
  obtain ⟨parts, approach, base⟩ := best
  dsimp only at hparts hmakes hof himm ⊢
  have hmovk : ∀ {approach : Approach} (parts : List Part) (v : BitVec (width b64Bit)), approach ≠ .adrpBase →
      PartsOf imm parts → applyParts parts v = imm →
      ∃ code, uploadParts ⟨b64Bit, r⟩ approach (adrpBase (imm.setWidth 64) page) parts = some code ∧
        run (page + 4) code (s.writeZ r (v.setWidth 64)) = some (s.writeZ r (imm.setWidth 64)) := by
    intro approach parts v happroach hof himm
    obtain ⟨code, hcode, hrun⟩ := @uploadParts_movk ⟨b64Bit, r⟩ s (page + 4) imm v hr approach
      (adrpBase (imm.setWidth 64) page) parts hof fun _ _ h => happroach h.1
    rw [himm] at hrun
    exact ⟨code, hcode, hrun⟩
  cases approach with
  | movzBase =>
      cases (hmakes : base = 0)
      obtain ⟨hshift, hof, himm⟩ := headD_spec hpos insertPart_zero hof himm
      obtain ⟨code, hcode, hrun⟩ := hmovk parts.tail _ (show Approach.movzBase ≠ _ by decide) hof himm
      refine ⟨.movz b64Bit r (parts.headD ⟨0, 0⟩).imm (parts.headD ⟨0, 0⟩).shift :: code, ?_, ?_⟩
      · simp only [movz, encodeMOVWideInst_eq, hcode, Option.bind_eq_bind, Option.bind_some]
        rfl
      · rw [run, Instr.exec, if_pos hshift]
        exact hrun
  | movnBase =>
      cases (hmakes : base = ~~~0)
      obtain ⟨hshift, hof, himm⟩ := headD_spec hpos insertPart_ones hof himm
      obtain ⟨code, hcode, hrun⟩ := hmovk parts.tail _ (show Approach.movnBase ≠ _ by decide) hof himm
      refine ⟨.movn b64Bit r (~~~(parts.headD ⟨0xffff, 0⟩).imm) (parts.headD ⟨0xffff, 0⟩).shift :: code, ?_, ?_⟩
      · simp only [movn, encodeMOVWideInst_eq, hcode, Option.bind_eq_bind, Option.bind_some]
        rfl
      · rw [run, Instr.exec, if_pos hshift, not_insertPart_zero]
        exact hrun
  | adrBase =>
      obtain ⟨h64, hbase⟩ := hmakes
      obtain ⟨code, hcode, hrun⟩ := hmovk parts base (show Approach.adrBase ≠ _ by decide) hof himm
      refine ⟨.adr r (((adrOffset (imm.setWidth 64) page).setWidth 32).setWidth 21) :: code, ?_, ?_⟩
      · simp only [adr, hcode, Option.bind_eq_bind, Option.bind_some]
        rfl
      · have hvalue : base.setWidth 64 = page + adrOffset (imm.setWidth 64) page := by
          rw [hbase]
          exact setWidth_setWidth_of_64 h64 _
        rw [run, Instr.exec, adr_offset, ← hvalue]
        exact hrun
  | adrpBase =>
      obtain ⟨h64, hbase⟩ := hmakes
      subst h64
      have hwide : @BitVec.setWidth (width true) 64 imm = imm := BitVec.setWidth_eq imm
      have hparts : parts = @partsOf 64 imm (adrpBase imm page) := by
        rw [hparts, hbase, hwide]
        exact congrArg (partsOf imm) (BitVec.setWidth_eq _)
      obtain ⟨code, hcode, hrun⟩ := @uploadParts_adrp r hr s (page + 4) page imm
      rw [← hparts] at hcode
      refine ⟨.adrp r (((((adrpOffset imm page).sshiftRight 12).setWidth 32)).setWidth 21) :: code, ?_, ?_⟩
      · rw [hwide]
        simp only [adrp, hcode, Option.bind_eq_bind, Option.bind_some]
        rfl
      · rw [run, Instr.exec, adrp_offset imm page, hwide]
        exact hrun
  | orrBase =>
      have hvalid : (LogicalImm.ofValue (base.setWidth 64) (GPRSize.ofBool b64Bit)).valid = true := hmakes
      obtain ⟨code, hcode, hrun⟩ := hmovk parts base (show Approach.orrBase ≠ _ by decide) hof himm
      refine ⟨.orrImm b64Bit r 31 (LogicalImm.ofValue (base.setWidth 64) (GPRSize.ofBool b64Bit)) :: code, ?_, ?_⟩
      · have hzero : (if b64Bit then ARM64Reg.zr else ARM64Reg.wzr) = ⟨b64Bit, 31⟩ := by cases b64Bit <;> rfl
        have hdecode := congrArg Option.isSome (LogicalImm.decode_ofValue hvalid)
        rw [hzero, tryORRI2R, if_pos hvalid, orr_eq hvalid hdecode]
        simp only [hcode, Option.bind_eq_bind, Option.bind_some]
        rfl
      · rw [run, exec_orrImm hr hvalid, BitVec.setWidth_setWidth_of_le _ (width_le _), BitVec.setWidth_eq]
        exact hrun

end

/-- At every address the emitted code leaves the immediate in the register, and changes nothing else. -/
theorem run_movI2R (b64Bit : Bool) (r : Fin 31) (imm pc : BitVec 64) (s : Cpu) :
    ∃ code, movI2R ⟨b64Bit, r.castSucc⟩ imm pc = some code ∧
      run pc code s = some { s with x := Function.update s.x r ((imm.setWidth (width b64Bit)).setWidth 64) } := by
  obtain ⟨code, hcode, hrun⟩ := @run_movI2RImpl r.castSucc s b64Bit r.isLt (imm.setWidth (width b64Bit)) pc
  refine ⟨code, hcode, hrun.trans ?_⟩
  rw [Cpu.writeZ, dif_pos (show r.castSucc.val < 31 from r.isLt)]
  rfl

end ARM64XEmitter

end Karphin.Arm64Gen
