import Karphin.Common.MathUtil
import Karphin.Lib.X64
import Karphin.PowerPC.DivUtils.Unsigned
import Karphin.PowerPC.Interpreter

/-!
# Divisions by a constant

The code that `Jit64::divwux` and `Jit64::divwx` emit when only the divisor is known. What follows it for the record bit is
left out.
-/

namespace Karphin.PowerPC.Jit64

open Karphin.Common Karphin.Lib.X64

def RSCRATCH : X64Reg := .rax

inductive PPCState
  | gpr (i : Fin 32)
  | xerSoOv
  deriving DecidableEq

/-- Where the register cache has the dividend, register `a` of the guest, and the quotient, its register `d`. -/
structure Operands (a d : Fin 32) where
  /-- `gpr.Bind(d, RCMode::Write)` -/
  rd : X64Reg
  /-- `gpr.Use(a, RCMode::Read)` -/
  ra : Source PPCState
  /-- `gpr.Bind(a, RCMode::Read)` -/
  bound : X64Reg
  rd_ne : rd ≠ RSCRATCH
  bound_ne : bound ≠ RSCRATCH
  bound_eq : bound = rd ↔ d = a
  ra_eq : ra = .mem (.gpr a) ∧ d ≠ a ∨ ra = .reg bound

/-- The dividend is where the register cache has it, with zeroes above it in a register. -/
structure Operands.Hold {a d : Fin 32} (ops : Operands a d) (s : State PPCState) (dividend : BitVec 32) : Prop where
  word : s.words (.gpr a) = dividend ∨ ops.ra = .reg ops.bound
  register : s.regs ops.bound = dividend.setWidth 64

def generateConstantOverflow (overflow : Bool) : List (Instr PPCState) :=
  if overflow then [.mov8 .xerSoOv 3] else [.and8 .xerSoOv 0xFE]

def constantOverflow (OE overflow : Bool) : List (Instr PPCState) :=
  if OE then generateConstantOverflow overflow else []

def moveDividend {a d : Fin 32} (ops : Operands a d) : List (Instr PPCState) :=
  if d ≠ a then [.mov32 ops.rd ops.ra] else []

def divwux {a d : Fin 32} (ops : Operands a d) (divisor : BitVec 32) (OE : Bool) : List (Instr PPCState) :=
  let code : List (Instr PPCState) :=
    if isPow2 divisor.toNat then
      let shift := intLog2 divisor.toNat
      moveDividend ops ++ (if shift ≠ 0 then [Instr.shift .shr .w32 ops.rd shift] else [])
    else
      let m := UnsignedDivisionConstants divisor
      if !m.fast then
        [Instr.mov32 RSCRATCH (.imm m.multiplier)] ++ moveDividend ops ++
          [Instr.imul64 ops.rd RSCRATCH, .arithmetic .add .w64 ops.rd RSCRATCH,
            .shift .shr .w64 ops.rd (m.shift.toNat + 32)]
      else
        (if m.multiplier &&& 0x80000000 = 0 then [Instr.imul64Imm ops.rd ops.bound m.multiplier]
        else if d = a then [Instr.mov32 RSCRATCH (.imm m.multiplier), .imul64 ops.rd RSCRATCH]
        else [Instr.mov32 ops.rd (.imm m.multiplier), .imul64 ops.rd ops.bound]) ++
          [Instr.shift .shr .w64 ops.rd (m.shift.toNat + 32)]
  code ++ constantOverflow OE false

/-! ## Signed -/

def simpleReg : Source PPCState → Option X64Reg
  | .reg r => some r
  | _ => none

def divideByTwo {a d : Fin 32} (ops : Operands a d) : List (Instr PPCState) :=
  let (move, tmp, sign) : List (Instr PPCState) × X64Reg × X64Reg :=
    match simpleReg ops.ra with
    | none => ([.mov32 RSCRATCH ops.ra, .mov32 ops.rd (.reg RSCRATCH)], RSCRATCH, RSCRATCH)
    | some ra => if d = a then ([.mov32 RSCRATCH ops.ra], RSCRATCH, RSCRATCH) else ([.mov32 ops.rd ops.ra], ra, ops.rd)
  move ++ [Instr.shift .shr .w32 sign 31, .arithmetic .add .w32 ops.rd tmp, .shift .sar .w32 ops.rd 1]

def divideByPow2 {a d : Fin 32} (ops : Operands a d) (absVal : BitVec 32) : List (Instr PPCState) :=
  let (move, dividend, sum, src, cond) : List (Instr PPCState) × X64Reg × X64Reg × X64Reg × CCFlags :=
    match simpleReg ops.ra with
    | none => ([.mov32 RSCRATCH ops.ra], RSCRATCH, ops.rd, RSCRATCH, .ns)
    | some ra => if d = a then ([], ops.rd, RSCRATCH, RSCRATCH, .s) else ([], ra, ops.rd, ra, .ns)
  move ++ [Instr.test32 dividend dividend, .lea32 sum dividend (absVal - 1), .cmov32 cond ops.rd src,
    .shift .sar .w32 ops.rd (intLog2 absVal.toNat)]

def divideByMagic {a d : Fin 32} (ops : Operands a d) (divisor : BitVec 32) (m : SignedMagic) : List (Instr PPCState) :=
  let shift := m.shift.toNat
  [Instr.movsx RSCRATCH ops.ra] ++
    (if 0 < divisor.toInt ∧ m.multiplier.toInt < 0 then
      [Instr.imul64Imm ops.rd RSCRATCH m.multiplier, .shift .shr .w64 ops.rd 32, .arithmetic .add .w32 ops.rd RSCRATCH,
        .shift .shr .w32 RSCRATCH 31, .shift .sar .w32 ops.rd shift]
    else if divisor.toInt < 0 ∧ 0 < m.multiplier.toInt then
      [Instr.imul64Imm ops.rd RSCRATCH m.multiplier, .shift .shr .w64 RSCRATCH 32, .arithmetic .sub .w32 RSCRATCH ops.rd,
        .mov32 ops.rd (.reg RSCRATCH), .shift .shr .w32 ops.rd 31, .shift .sar .w32 RSCRATCH shift]
    else if 0 < m.multiplier.toInt then
      [Instr.imul64Imm ops.rd RSCRATCH m.multiplier, .shift .shr .w32 RSCRATCH 31, .shift .sar .w64 ops.rd (32 + shift)]
    else
      [Instr.imul64Imm RSCRATCH RSCRATCH m.multiplier, .mov64 ops.rd RSCRATCH, .shift .shr .w64 RSCRATCH 63,
        .shift .sar .w64 ops.rd (32 + shift)]) ++
    [Instr.arithmetic .add .w32 ops.rd RSCRATCH]

def divwx {a d : Fin 32} (ops : Operands a d) (divisor : BitVec 32) (OE : Bool) : Option (List (Instr PPCState)) :=
  let negate : List (Instr PPCState) := if divisor.toInt < 0 then [Instr.neg32 ops.rd] else []
  if divisor.toInt = 0 then some (moveDividend ops ++ [Instr.shift .sar .w32 ops.rd 31] ++ constantOverflow OE true)
  else if divisor.toInt = 1 then some (moveDividend ops ++ constantOverflow OE false)
  else if divisor.toInt = -1 then
    let overflow := [Instr.mov32 ops.rd (.imm 0xFFFFFFFF)] ++ constantOverflow OE true
    let normal := constantOverflow OE false
    some (moveDividend ops ++ [Instr.neg32 ops.rd, .jcc .no (overflow.length + 1)] ++ overflow ++
      [Instr.jmp normal.length] ++ normal)
  else if divisor.toInt = 2 ∨ divisor.toInt = -2 then some (divideByTwo ops ++ negate ++ constantOverflow OE false)
  else if isPow2 divisor.toInt || isPow2 (-divisor.toInt) then
    some (divideByPow2 ops (BitVec.ofNat 32 divisor.toInt.natAbs) ++ negate ++ constantOverflow OE false)
  else (SignedDivisionConstants divisor).map fun m => divideByMagic ops divisor m ++ constantOverflow OE false

end Karphin.PowerPC.Jit64

/-!
# Unsigned division by a constant

The code for a divisor that is not a power of two leaves the quotient of the interpreter.
-/

namespace Karphin.PowerPC.Jit64

open Karphin.Common Karphin.Lib.X64

variable {a d : Fin 32} {divisor : BitVec 32}

/-! ## The dividend -/

theorem Operands.Hold.source {ops : Operands a d} {s : State PPCState} {dividend : BitVec 32}
    (h : ops.Hold s dividend) : s.source ops.ra = dividend := by
  have hread : s.read32 ops.bound = dividend := by
    rw [State.read32, h.register, BitVec.setWidth_setWidth_of_le _ (by decide), BitVec.setWidth_eq]
  rcases ops.ra_eq with ⟨hmem, -⟩ | hreg
  · rw [hmem]
    rcases h.word with hword | hreg
    · exact hword
    · rw [hmem] at hreg
      cases hreg
  · rw [hreg]
    exact hread

theorem Operands.Hold.write64 {ops : Operands a d} {s : State PPCState} {dividend : BitVec 32} (h : ops.Hold s dividend)
    {r : X64Reg} (hr : r ≠ ops.bound) (value : BitVec 64) : ops.Hold (s.write64 r value) dividend :=
  ⟨h.word, (State.regs_write64_of_ne hr.symm value).trans h.register⟩

theorem Operands.Hold.write32 {ops : Operands a d} {s : State PPCState} {dividend : BitVec 32} (h : ops.Hold s dividend)
    {r : X64Reg} (hr : r ≠ ops.bound) (value : BitVec 32) : ops.Hold (s.write32 r value) dividend :=
  h.write64 hr _

def Leaves (code : List (Instr PPCState)) (s : State PPCState) (r : X64Reg) (value : BitVec 32) : Prop :=
  ∃ s', run code s = some s' ∧ s'.regs r = value.setWidth 64

theorem Leaves.append_constantOverflow {code : List (Instr PPCState)} {s : State PPCState} {r : X64Reg} {value : BitVec 32}
    (h : Leaves code s r value) (hcode : code.all (!·.isJump) = true) (OE overflow : Bool) :
    Leaves (code ++ constantOverflow OE overflow) s r value := by
  obtain ⟨s', hrun, hvalue⟩ := h
  obtain ⟨s'', hoverflow, hregs⟩ : ∃ s'', run (constantOverflow OE overflow) s' = some s'' ∧ s''.regs = s'.regs := by
    cases OE <;> cases overflow <;> exact ⟨_, rfl, rfl⟩
  refine ⟨s'', ?_, hregs ▸ hvalue⟩
  rw [run_append hcode, hrun, Option.bind_some, hoverflow]

theorem toNat_mul_setWidth (n m : BitVec 32) : (n.setWidth 64 * m.setWidth 64).toNat = n.toNat * m.toNat := by
  have hlt : n.toNat * m.toNat < 2 ^ 64 := Nat.lt_of_lt_of_le (Nat.mul_lt_mul'' n.isLt m.isLt) (by decide)
  rw [BitVec.toNat_mul, BitVec.toNat_setWidth_of_le (by decide), BitVec.toNat_setWidth_of_le (by decide),
    Nat.mod_eq_of_lt hlt]

theorem ushiftRight_eq_div {x : BitVec 64} {k : Nat} {n : BitVec 32} (h : x.toNat / 2 ^ k = n.toNat / divisor.toNat) :
    x >>> k = (n / divisor).setWidth 64 := by
  apply BitVec.eq_of_toNat_eq
  rw [BitVec.toNat_ushiftRight, Nat.shiftRight_eq_div_pow, h, BitVec.toNat_setWidth_of_le (by decide), BitVec.toNat_udiv]

open UnsignedDivision in
theorem isPow2_eq_false (h : NotPow2 divisor) : isPow2 divisor.toNat = false := by
  rw [← Bool.not_eq_true, isPow2_iff]
  rintro ⟨k, hk⟩
  exact h.2 k (by exact_mod_cast hk)

theorem signExtend_of_and_eq_zero {m : BitVec 32} (h : m &&& 0x80000000 = 0) : m.signExtend 64 = m.setWidth 64 := by
  have hmsb : m.msb = false := by
    have htop : (0x80000000 : BitVec 32).msb = true := rfl
    have hand := congrArg BitVec.msb h
    rw [BitVec.msb_and, htop, Bool.and_true] at hand
    exact hand
  exact BitVec.signExtend_eq_setWidth_of_msb_false hmsb

theorem leaves_roundDown (ops : Operands a d) {s : State PPCState} {n : BitVec 32} (hold : ops.Hold s n)
    {multiplier value : BitVec 32} {count : Nat}
    (hvalue : (n.setWidth 64 * multiplier.setWidth 64 + multiplier.setWidth 64) >>> (count % 64) = value.setWidth 64) :
    Leaves ([Instr.mov32 RSCRATCH (.imm multiplier)] ++ moveDividend ops ++
      [Instr.imul64 ops.rd RSCRATCH, .arithmetic .add .w64 ops.rd RSCRATCH, .shift .shr .w64 ops.rd count])
        s ops.rd value := by
  have hne := ops.rd_ne
  by_cases hda : d = a
  · have hregister := hold.register
    rw [ops.bound_eq.mpr hda] at hregister
    rw [moveDividend, if_neg (not_not.mpr hda)]
    refine ⟨_, rfl, ?_⟩
    simp [hne, hne.symm, hregister, Arithmetic.value, Shift.value, hvalue]
  · have hsource := (hold.write32 ops.bound_ne.symm multiplier).source
    rw [moveDividend, if_pos hda]
    refine ⟨_, rfl, ?_⟩
    simp [hne.symm, hsource, Arithmetic.value, Shift.value, hvalue]

theorem leaves_roundUp_imm (ops : Operands a d) {s : State PPCState} {n : BitVec 32} (hold : ops.Hold s n)
    {multiplier value : BitVec 32} {count : Nat}
    (hvalue : (n.setWidth 64 * multiplier.signExtend 64) >>> (count % 64) = value.setWidth 64) :
    Leaves [.imul64Imm ops.rd ops.bound multiplier, .shift .shr .w64 ops.rd count] s ops.rd value := by
  refine ⟨_, rfl, ?_⟩
  simp [hold.register, Shift.value, hvalue]

theorem leaves_roundUp (ops : Operands a d) {s : State PPCState} {n : BitVec 32} (hold : ops.Hold s n)
    {multiplier value : BitVec 32} {count : Nat}
    (hvalue : (n.setWidth 64 * multiplier.setWidth 64) >>> (count % 64) = value.setWidth 64) :
    Leaves ((if d = a then [Instr.mov32 RSCRATCH (.imm multiplier), .imul64 ops.rd RSCRATCH]
      else [Instr.mov32 ops.rd (.imm multiplier), .imul64 ops.rd ops.bound]) ++ [Instr.shift .shr .w64 ops.rd count])
        s ops.rd value := by
  have hne := ops.rd_ne
  have hregister := hold.register
  by_cases hda : d = a
  · rw [ops.bound_eq.mpr hda] at hregister
    rw [if_pos hda]
    refine ⟨_, rfl, ?_⟩
    simp [hne, hregister, Shift.value, hvalue]
  · have hbound : ops.bound ≠ ops.rd := fun heq => hda (ops.bound_eq.mp heq)
    rw [if_neg hda]
    refine ⟨_, rfl, ?_⟩
    rw [BitVec.mul_comm] at hvalue
    simp [hbound, hregister, Shift.value, hvalue]

open UnsignedDivision in
theorem leaves_divwux (h : NotPow2 divisor) (ops : Operands a d) (OE : Bool) {s : State PPCState} {n : BitVec 32}
    (hold : ops.Hold s n) : Leaves (divwux ops divisor OE) s ops.rd (n / divisor) := by
  have hshift : ((UnsignedDivisionConstants divisor).shift.toNat + 32) % 64 =
      32 + (UnsignedDivisionConstants divisor).shift.toNat := by
    have hlt := UnsignedDivisionConstants_shift_lt h
    omega
  rw [divwux, isPow2_eq_false h]
  cases hfast : (UnsignedDivisionConstants divisor).fast with
  | false =>
      simp only [hfast, Bool.false_eq_true, ↓reduceIte, Bool.not_false]
      apply Leaves.append_constantOverflow
      · apply leaves_roundDown ops hold
        rw [hshift]
        apply ushiftRight_eq_div
        rw [BitVec.toNat_add, toNat_mul_setWidth, BitVec.toNat_setWidth_of_le (by decide),
          Nat.mod_eq_of_lt (mul_multiplier_lt divisor n)]
        exact div_of_slow h hfast n
      · rw [moveDividend]
        split <;> rfl
  | true =>
      have hquotient : (n.setWidth 64 * (UnsignedDivisionConstants divisor).multiplier.setWidth 64) >>>
          (((UnsignedDivisionConstants divisor).shift.toNat + 32) % 64) = (n / divisor).setWidth 64 := by
        rw [hshift]
        apply ushiftRight_eq_div
        rw [toNat_mul_setWidth]
        exact div_of_fast h hfast n
      simp only [hfast, Bool.false_eq_true, ↓reduceIte, Bool.not_true]
      by_cases htop : (UnsignedDivisionConstants divisor).multiplier &&& 0x80000000 = 0
      · rw [if_pos htop]
        apply Leaves.append_constantOverflow
        · apply leaves_roundUp_imm ops hold
          rw [signExtend_of_and_eq_zero htop]
          exact hquotient
        · rfl
      · rw [if_neg htop]
        apply Leaves.append_constantOverflow
        · exact leaves_roundUp ops hold hquotient
        · split <;> rfl

/-! ## The interpreter -/

theorem arithmetic_gpr {ρ : Type} (inst : UGeckoInstruction) (p : PowerPCState ρ) (result : BitVec 32) (ov : Bool) :
    (Interpreter.arithmetic inst p result ov).gpr inst.RD = result := by
  rw [Interpreter.arithmetic, Interpreter.record, Interpreter.overflow]
  cases inst.Rc <;> cases inst.OE <;>
    simp [PowerPCState.setGpr, PowerPCState.SetXER_OV, Interpreter.Helper_UpdateCR0, PowerPCState.setCr]

open UnsignedDivision in
/-- The constants are exact, and the code for them leaves what the interpreter does. -/
theorem divwux_eq_interpreter (h : NotPow2 divisor) :
    Exact divisor ∧ (UnsignedDivisionConstants divisor).shift.toNat + 32 < 64 ∧
      (∀ n : BitVec 32,
        ((UnsignedDivisionConstants divisor).fast = true →
          n.toNat * (UnsignedDivisionConstants divisor).multiplier.toNat < 2 ^ 64 ∧
            n.toNat * (UnsignedDivisionConstants divisor).multiplier.toNat /
              2 ^ (32 + (UnsignedDivisionConstants divisor).shift.toNat) = n.toNat / divisor.toNat) ∧
        ((UnsignedDivisionConstants divisor).fast = false →
          n.toNat * (UnsignedDivisionConstants divisor).multiplier.toNat +
              (UnsignedDivisionConstants divisor).multiplier.toNat < 2 ^ 64 ∧
            (n.toNat * (UnsignedDivisionConstants divisor).multiplier.toNat +
                (UnsignedDivisionConstants divisor).multiplier.toNat) /
              2 ^ (32 + (UnsignedDivisionConstants divisor).shift.toNat) = n.toNat / divisor.toNat)) ∧
      ∀ {ρ : Type} (inst : UGeckoInstruction) (p : PowerPCState ρ) (ops : Operands inst.RA inst.RD) (s : State PPCState),
        p.gpr inst.RB = divisor → ops.Hold s (p.gpr inst.RA) →
          Leaves (divwux ops divisor inst.OE) s ops.rd ((Interpreter.divwux inst p).gpr inst.RD) := by
  refine ⟨exact h, UnsignedDivisionConstants_shift_lt h, fun n => ⟨fun hfast => ⟨?_, div_of_fast h hfast n⟩,
    fun hslow => ⟨mul_multiplier_lt divisor n, div_of_slow h hslow n⟩⟩, ?_⟩
  · exact Nat.lt_of_le_of_lt (Nat.le_add_right _ _) (mul_multiplier_lt divisor n)
  · rintro ρ inst p ops s rfl hold
    have hzero : (p.gpr inst.RB == 0) = false := beq_eq_false_iff_ne.mpr h.1
    have hvalue : (Interpreter.divwux inst p).gpr inst.RD = p.gpr inst.RA / p.gpr inst.RB := by
      rw [Interpreter.divwux, arithmetic_gpr, hzero, if_neg Bool.false_ne_true]
    rw [hvalue]
    exact leaves_divwux h ops inst.OE hold

open UnsignedDivision in
/-- Seven needs the multiplier that is rounded down. -/
theorem divwux_seven : Exact 7 ∧ (5 * (UnsignedDivisionConstants 7).multiplier.toNat +
    (UnsignedDivisionConstants 7).multiplier.toNat) / 2 ^ (32 + (UnsignedDivisionConstants 7).shift.toNat) = 5 / 7 := by
  have hseven : NotPow2 7 := by
    refine ⟨by decide, fun k => ?_⟩
    rcases k with _ | _ | _ | k
    · decide
    · decide
    · decide
    · have hpos := Nat.two_pow_pos k
      rw [Nat.pow_succ, Nat.pow_succ, Nat.pow_succ]
      change 7 ≠ _
      omega
  obtain ⟨hexact, -, hquotient, -⟩ := divwux_eq_interpreter hseven
  exact ⟨hexact, ((hquotient 5).2 (by decide)).2⟩

end Karphin.PowerPC.Jit64
