import Karphin.PowerPC.DivUtils.Theorems
import Karphin.PowerPC.Jit64.Unsigned

/-!
# Signed division by a constant

What the code for a divisor leaves, against the quotient of the interpreter.
-/

namespace Karphin.PowerPC.Jit64

open Karphin.Common Karphin.Lib.X64 SignedDivision

variable {a d : Fin 32} {divisor : BitVec 32}

/-! ## Multiplications -/

theorem toInt_range (x : BitVec 32) : -2 ^ 31 ≤ x.toInt ∧ x.toInt < 2 ^ 31 := ⟨BitVec.le_toInt x, BitVec.toInt_lt⟩

theorem mul_toInt_range (x y : BitVec 32) : -2 ^ (64 - 1) ≤ x.toInt * y.toInt ∧ x.toInt * y.toInt < 2 ^ (64 - 1) := by
  have hlow := @BitVec.le_toInt_mul_toInt 32 x y
  have hhigh := @BitVec.toInt_mul_toInt_le 32 x y
  constructor <;> omega

theorem roundToZero_eq (q : Int) : roundToZero q = q + if q < 0 then 1 else 0 := by
  rw [roundToZero]
  split <;> simp

theorem ediv_two_pow_neg_iff (x : Int) (k : Nat) : x / 2 ^ k < 0 ↔ x < 0 := by
  rw [Int.ediv_lt_iff_lt_mul (Int.pow_pos (by decide)), Int.zero_mul]

theorem high_add (n m : BitVec 32) (hneg : m.toInt < 0) :
    (m.toInt * n.toInt / 2 ^ 32 + n.toInt < 0 ↔ n.toInt < 0) ∧ -2 ^ (32 - 1) ≤ m.toInt * n.toInt / 2 ^ 32 + n.toInt ∧
      m.toInt * n.toInt / 2 ^ 32 + n.toInt < 2 ^ (32 - 1) := by
  obtain ⟨hnlow, hnhigh⟩ := toInt_range n
  obtain ⟨hmlow, hmhigh⟩ := toInt_range m
  have hsum : m.toInt * n.toInt / 2 ^ 32 + n.toInt = (m.toInt + 2 ^ 32) * n.toInt / 2 ^ 32 := by
    rw [← Int.add_mul_ediv_right _ _ (by decide : (2 : Int) ^ 32 ≠ 0)]
    congr 1
    ring
  rw [hsum, ediv_two_pow_neg_iff]
  rcases Int.lt_or_le n.toInt 0 with hn | hn
  · have hlt : (m.toInt + 2 ^ 32) * n.toInt < 0 := Int.mul_neg_of_pos_of_neg (by omega) hn
    have hle : 2 ^ 32 * n.toInt ≤ (m.toInt + 2 ^ 32) * n.toInt := Int.mul_le_mul_of_nonpos_right (by omega) (by omega)
    refine ⟨iff_of_true hlt hn, ?_, ?_⟩ <;> omega
  · have hge : 0 ≤ (m.toInt + 2 ^ 32) * n.toInt := Int.mul_nonneg (by omega) hn
    have hle : (m.toInt + 2 ^ 32) * n.toInt ≤ 2 ^ 32 * n.toInt := Int.mul_le_mul_of_nonneg_right (by omega) hn
    refine ⟨iff_of_false (Int.not_lt.mpr hge) (Int.not_lt.mpr hn), ?_, ?_⟩ <;> omega

theorem value_add (n m : BitVec 32) {shift : Nat} (hshift : shift < 32) (hneg : m.toInt < 0) :
    (((n.signExtend 64 * m.signExtend 64) >>> 32).setWidth 32 + (n.signExtend 64).setWidth 32).sshiftRight (shift % 32) +
        (n.signExtend 64).setWidth 32 >>> 31 =
      BitVec.ofInt 32 (roundToZero ((m.toInt * n.toInt / 2 ^ 32 + n.toInt) / 2 ^ shift)) := by
  obtain ⟨hsign, hlow, hhigh⟩ := high_add n m hneg
  have hhigh32 : ((n.signExtend 64 * m.signExtend 64) >>> 32).setWidth 32 + n =
      BitVec.ofInt 32 (m.toInt * n.toInt / 2 ^ 32 + n.toInt) := by
    rw [signExtend_mul_signExtend, setWidth_ushiftRight_ofInt, BitVec.ofInt_add, BitVec.ofInt_toInt, Int.mul_comm]
  rw [setWidth_signExtend (by decide), Nat.mod_eq_of_lt hshift, hhigh32, sshiftRight_ofInt (by decide) hlow hhigh, ushiftRight_31,
    ← BitVec.ofInt_add, roundToZero_eq]
  simp only [ediv_two_pow_neg_iff, hsign]

theorem value_pos (n m : BitVec 32) {shift : Nat} (hshift : shift < 32) (hpos : 0 < m.toInt) :
    ((n.signExtend 64 * m.signExtend 64).sshiftRight ((32 + shift) % 64)).setWidth 32 +
        (n.signExtend 64).setWidth 32 >>> 31 =
      BitVec.ofInt 32 (roundToZero (m.toInt * n.toInt / 2 ^ 32 / 2 ^ shift)) := by
  obtain ⟨hlow, hhigh⟩ := mul_toInt_range m n
  have hmod : (32 + shift) % 64 = 32 + shift := Nat.mod_eq_of_lt (by omega)
  have hsign : m.toInt * n.toInt < 0 ↔ n.toInt < 0 := by
    constructor
    · exact fun hlt => Int.not_le.mp fun hn => Int.not_lt.mpr (Int.mul_nonneg (Int.le_of_lt hpos) hn) hlt
    · exact Int.mul_neg_of_pos_of_neg hpos
  rw [setWidth_signExtend (by decide), hmod, signExtend_mul_signExtend, Int.mul_comm n.toInt,
    sshiftRight_ofInt (by decide) hlow hhigh, setWidth_ofInt (by decide), ushiftRight_31, ← BitVec.ofInt_add, Int.pow_add,
    ← Int.ediv_ediv_of_nonneg (by decide), roundToZero_eq]
  simp only [ediv_two_pow_neg_iff, hsign]

theorem value_neg (n m : BitVec 32) {shift : Nat} (hshift : shift < 32) :
    ((n.signExtend 64 * m.signExtend 64).sshiftRight ((32 + shift) % 64)).setWidth 32 +
        ((n.signExtend 64 * m.signExtend 64) >>> 63).setWidth 32 =
      BitVec.ofInt 32 (roundToZero (m.toInt * n.toInt / 2 ^ 32 / 2 ^ shift)) := by
  obtain ⟨hlow, hhigh⟩ := mul_toInt_range m n
  have hmod : (32 + shift) % 64 = 32 + shift := Nat.mod_eq_of_lt (by omega)
  rw [ushiftRight_63, hmod, signExtend_mul_signExtend, Int.mul_comm n.toInt, BitVec.toInt_ofInt_eq_self (by decide) hlow hhigh,
    sshiftRight_ofInt (by decide) hlow hhigh, setWidth_ofInt (by decide), ← BitVec.ofInt_add, Int.pow_add,
    ← Int.ediv_ediv_of_nonneg (by decide), roundToZero_eq]
  simp only [ediv_two_pow_neg_iff]

theorem magicQuotient_eq {d n : Int} {m : SignedMagic} (hright : ¬ (d < 0 ∧ 0 < m.multiplier.toInt)) :
    magicQuotient d m n = roundToZero ((if 0 < d ∧ m.multiplier.toInt < 0 then m.multiplier.toInt * n / 2 ^ 32 + n
      else m.multiplier.toInt * n / 2 ^ 32) / 2 ^ m.shift.toNat) := by
  rw [magicQuotient, if_neg hright]
  rfl

theorem leaves_divideByMagic (ops : Operands a d) {s : State PPCState} {n : BitVec 32} (hold : ops.Hold s n)
    {m : SignedMagic} (hshift : m.shift.toNat < 32) (hright : ¬ (divisor.toInt < 0 ∧ 0 < m.multiplier.toInt)) :
    Leaves (divideByMagic ops divisor m) s ops.rd (BitVec.ofInt 32 (magicQuotient divisor.toInt m n.toInt)) := by
  have hne := ops.rd_ne
  have hsource := hold.source
  rw [magicQuotient_eq hright, divideByMagic, if_neg hright]
  by_cases hadd : 0 < divisor.toInt ∧ m.multiplier.toInt < 0
  · rw [if_pos hadd, if_pos hadd, ← value_add n m.multiplier hshift hadd.2]
    refine ⟨_, rfl, ?_⟩
    simp [hne, hne.symm, hsource, Arithmetic.value, Shift.value]
  · rw [if_neg hadd, if_neg hadd]
    by_cases hpos : 0 < m.multiplier.toInt
    · rw [if_pos hpos, ← value_pos n m.multiplier hshift hpos]
      refine ⟨_, rfl, ?_⟩
      simp [hne, hne.symm, hsource, Arithmetic.value, Shift.value]
    · rw [if_neg hpos, ← value_neg n m.multiplier hshift]
      refine ⟨_, rfl, ?_⟩
      simp [hne, hne.symm, hsource, Arithmetic.value, Shift.value]

/-! ## The sequence for a negative divisor and a positive multiplier -/

theorem leaves_shifted (ops : Operands a d) {s : State PPCState} {n : BitVec 32} (hold : ops.Hold s n) {m : SignedMagic}
    (hwrong : divisor.toInt < 0 ∧ 0 < m.multiplier.toInt) :
    Leaves (divideByMagic ops divisor m) s ops.rd
      ((((n.signExtend 64 >>> 32).setWidth 32 - (n.signExtend 64 * m.multiplier.signExtend 64).setWidth 32) >>> 31) +
        ((n.signExtend 64 >>> 32).setWidth 32 - (n.signExtend 64 * m.multiplier.signExtend 64).setWidth 32).sshiftRight
          (m.shift.toNat % 32)) := by
  have hne := ops.rd_ne
  have hsource := hold.source
  have hnot : ¬ (0 < divisor.toInt ∧ m.multiplier.toInt < 0) := fun h => Int.lt_irrefl _ (Int.lt_trans h.1 hwrong.1)
  rw [divideByMagic, if_neg hnot, if_pos hwrong]
  refine ⟨_, rfl, ?_⟩
  simp [hne, hne.symm, hsource, Arithmetic.value, Shift.value]

theorem shifted_value {p : Nat} {m : SignedMagic} (hm : Magic divisor p m) (h : Valid divisor) {n : BitVec 32}
    (hwrong : divisor.toInt < 0 ∧ 0 < m.multiplier.toInt) (hn : n.toInt = -divisor.toInt) :
    (((n.signExtend 64 >>> 32).setWidth 32 - (n.signExtend 64 * m.multiplier.signExtend 64).setWidth 32) >>> 31) +
        ((n.signExtend 64 >>> 32).setWidth 32 - (n.signExtend 64 * m.multiplier.signExtend 64).setWidth 32).sshiftRight
          (m.shift.toNat % 32) = BitVec.ofInt 32 (delta (ad divisor).toNat p / 2 ^ (m.shift.toNat % 32)) := by
  obtain ⟨had, hlt⟩ := toNat_ad h
  have hmul := magnitude_mul h p
  have hpos : 0 < (ad divisor).toNat := by
    omega
  have hdelta := delta_le (ad divisor).toNat p
  have hvalue : m.multiplier.toInt = 2 ^ 32 - magnitude divisor p := by
    rcases hm.toInt_of_neg h hwrong.1 with ⟨-, hvalue⟩ | ⟨hneg, -⟩
    · exact hvalue
    · exact absurd hneg (Int.not_lt.mpr (Int.le_of_lt hwrong.2))
  have hn' : n.toInt = (ad divisor).toNat := by
    omega
  have hprod : n.toInt * m.multiplier.toInt =
      2 ^ 32 * ((ad divisor).toNat - 2 ^ (p - 32)) + -delta (ad divisor).toNat p := by
    have hpow : (2 : Int) ^ p = 2 ^ 32 * 2 ^ (p - 32) := by
      rw [← Int.pow_add, Nat.add_sub_cancel' hm.found.low]
    have hmul : (magnitude divisor p : Int) * (ad divisor).toNat = 2 ^ p + delta (ad divisor).toNat p := by
      exact_mod_cast hmul
    rw [hvalue, hn']
    linarith
  have hword : BitVec.ofInt 32 (n.toInt * m.multiplier.toInt) = -BitVec.ofInt 32 (delta (ad divisor).toNat p) := by
    have hzero : BitVec.ofInt 32 (2 ^ 32) = 0#32 := rfl
    rw [hprod, BitVec.ofInt_add, BitVec.ofInt_mul, hzero, BitVec.zero_mul, BitVec.zero_add, BitVec.ofInt_neg]
  have hhigh : (n.signExtend 64 >>> 32).setWidth 32 = 0#32 := by
    have hdiv : n.toInt / 2 ^ 32 = 0 := by
      omega
    have hupper := setWidth_ushiftRight_ofInt n.toInt
    rw [hdiv] at hupper
    exact hupper
  rw [hhigh, signExtend_mul_signExtend, setWidth_ofInt (by decide), hword, BitVec.zero_sub, BitVec.neg_neg,
    sshiftRight_ofInt (by decide) (by omega) (by omega), ushiftRight_31,
    BitVec.toInt_ofInt_eq_self (by decide) (by omega) (by omega), if_neg (by omega)]
  exact BitVec.zero_add _

/-! ## Powers of two -/

theorem Leaves.unique {code : List (Instr PPCState)} {s : State PPCState} {r : X64Reg} {v v' : BitVec 32}
    (h : Leaves code s r v) (h' : Leaves code s r v') : v = v' := by
  obtain ⟨s₁, hrun, hv⟩ := h
  obtain ⟨s₂, hrun', hv'⟩ := h'
  obtain rfl := Option.some.inj (hrun.symm.trans hrun')
  have hword := congrArg (BitVec.setWidth 32) (hv.symm.trans hv')
  rwa [BitVec.setWidth_setWidth_of_le _ (by decide), BitVec.setWidth_setWidth_of_le _ (by decide), BitVec.setWidth_eq,
    BitVec.setWidth_eq] at hword

theorem Leaves.append {code rest : List (Instr PPCState)} {s : State PPCState} {r : X64Reg} {v v' : BitVec 32}
    (h : Leaves code s r v) (hcode : code.all (!·.isJump) = true)
    (hrest : ∀ s' : State PPCState, s'.regs r = v.setWidth 64 → s'.read32 r = v → Leaves rest s' r v') :
    Leaves (code ++ rest) s r v' := by
  obtain ⟨s', hrun, hv⟩ := h
  have hread : s'.read32 r = v := by
    rw [State.read32, hv, BitVec.setWidth_setWidth_of_le _ (by decide), BitVec.setWidth_eq]
  obtain ⟨s'', hrun', hv'⟩ := hrest s' hv hread
  refine ⟨s'', ?_, hv'⟩
  rw [run_append hcode, hrun]
  exact hrun'

theorem Leaves.append_negate {code : List (Instr PPCState)} {s : State PPCState} {r : X64Reg} {v : BitVec 32}
    (h : Leaves code s r v) (divisor : BitVec 32) (hcode : code.all (!·.isJump) = true) :
    Leaves (code ++ if divisor.toInt < 0 then [.neg32 r] else []) s r (if divisor.toInt < 0 then -v else v) := by
  apply h.append hcode
  intro s' hv hread
  by_cases hneg : divisor.toInt < 0
  · rw [if_pos hneg, if_pos hneg]
    refine ⟨_, rfl, ?_⟩
    simp [hread]
  · rw [if_neg hneg, if_neg hneg]
    exact ⟨s', rfl, hv⟩

theorem leaves_divideByTwo (ops : Operands a d) {s : State PPCState} {n : BitVec 32} (hold : ops.Hold s n) :
    Leaves (divideByTwo ops) s ops.rd ((n + n >>> 31).sshiftRight 1) := by
  have hne := ops.rd_ne
  have hsource := hold.source
  rcases ops.ra_eq with ⟨hmem, -⟩ | hreg
  · rw [hmem] at hsource
    rw [divideByTwo, hmem]
    refine ⟨_, rfl, ?_⟩
    simp [hne, hne.symm, hsource, Arithmetic.value, Shift.value]
  · rw [hreg, State.source_reg] at hsource
    by_cases hda : d = a
    · have hbound := ops.bound_eq.mpr hda
      rw [hbound] at hsource
      rw [divideByTwo, hreg]
      simp only [simpleReg, if_pos hda]
      refine ⟨_, rfl, ?_⟩
      simp [hne, hsource, hbound, Arithmetic.value, Shift.value]
    · have hbound : ops.bound ≠ ops.rd := fun heq => hda (ops.bound_eq.mp heq)
      rw [divideByTwo, hreg]
      simp only [simpleReg, if_neg hda]
      refine ⟨_, rfl, ?_⟩
      simp [hsource, hbound, Arithmetic.value, Shift.value, BitVec.add_comm]

theorem leaves_divideByPow2 (ops : Operands a d) {s : State PPCState} {n : BitVec 32} (hold : ops.Hold s n)
    (absVal : BitVec 32) :
    Leaves (divideByPow2 ops absVal) s ops.rd
      ((if n.msb then n + (absVal - 1) else n).sshiftRight (intLog2 absVal.toNat % 32)) := by
  have hne := ops.rd_ne
  have hsource := hold.source
  have hlea (x : BitVec 64) (y : BitVec 32) : (x + y.signExtend 64).setWidth 32 = x.setWidth 32 + y := by
    rw [BitVec.setWidth_add _ _ (by decide), setWidth_signExtend (by decide)]
  rcases ops.ra_eq with ⟨hmem, -⟩ | hreg
  · rw [hmem] at hsource
    rw [divideByPow2, hmem]
    refine ⟨_, rfl, ?_⟩
    cases hmsb : n.msb <;> simp [hne.symm, hsource, hlea, hmsb, Shift.value, State.holds]
  · rw [hreg, State.source_reg] at hsource
    have hlow : (s.regs ops.bound).setWidth 32 = n := hsource
    by_cases hda : d = a
    · have hbound := ops.bound_eq.mpr hda
      rw [hbound] at hsource hlow
      rw [divideByPow2, hreg]
      simp only [simpleReg, if_pos hda]
      refine ⟨_, rfl, ?_⟩
      cases hmsb : n.msb <;> simp [hne, hsource, hlow, hlea, hmsb, Shift.value, State.holds]
    · have hbound : ops.bound ≠ ops.rd := fun heq => hda (ops.bound_eq.mp heq)
      rw [divideByPow2, hreg]
      simp only [simpleReg, if_neg hda]
      refine ⟨_, rfl, ?_⟩
      cases hmsb : n.msb <;> simp [hsource, hlow, hbound, hlea, hmsb, Shift.value, State.holds]

theorem tdiv_of_neg {n D : Int} (hD : 0 < D) (hn : n < 0) : n.tdiv D = (n + (D - 1)) / D := by
  rw [Int.tdiv_eq_ediv, Int.sign_eq_one_of_pos hD]
  by_cases hdvd : D ∣ n
  · have hzero : (D - 1) / D = 0 := Int.ediv_eq_zero_of_lt (by omega) (by omega)
    rw [if_pos (Or.inr hdvd), Int.add_ediv_of_dvd_left hdvd, hzero]
  · have hsplit : n + (D - 1) = n % D - 1 + D * (n / D + 1) := by
      have hdiv := Int.mul_ediv_add_emod n D
      rw [Int.mul_add, Int.mul_one]
      omega
    have hpos : D = 0 ∨ 0 < n % D := Int.emod_pos_of_not_dvd hdvd
    have hlt := Int.emod_lt_of_pos n hD
    have hzero : (n % D - 1) / D = 0 := Int.ediv_eq_zero_of_lt (by omega) (by omega)
    rw [if_neg (not_or.mpr ⟨Int.not_le.mpr hn, hdvd⟩), hsplit, Int.add_mul_ediv_left _ _ (Int.ne_of_gt hD), hzero,
      Int.zero_add]

theorem tdiv_of_nonneg {n : Int} (hn : 0 ≤ n) (D : Int) : n.tdiv D = n / D := by
  rw [Int.tdiv_eq_ediv, if_pos (Or.inl hn), Int.add_zero]

theorem msb_eq (n : BitVec 32) : n.msb = decide (n.toInt < 0) := BitVec.msb_eq_toInt

theorem value_two (n : BitVec 32) : (n + n >>> 31).sshiftRight 1 = BitVec.ofInt 32 (n.toInt.tdiv 2) := by
  obtain ⟨hlow, hhigh⟩ := toInt_range n
  have hsum : n + n >>> 31 = BitVec.ofInt 32 (n.toInt + if n.toInt < 0 then 1 else 0) := by
    rw [ushiftRight_31, BitVec.ofInt_add, BitVec.ofInt_toInt]
  by_cases hneg : n.toInt < 0
  · rw [if_pos hneg] at hsum
    rw [hsum, sshiftRight_ofInt (by decide) (by omega) (by omega), tdiv_of_neg (by decide) hneg]
    rfl
  · rw [if_neg hneg, Int.add_zero] at hsum
    rw [hsum, sshiftRight_ofInt (by decide) (by omega) (by omega), tdiv_of_nonneg (by omega)]
    rfl

theorem value_pow2 (n : BitVec 32) {k : Nat} (hk : k < 32) :
    (if n.msb then n + (BitVec.ofNat 32 (2 ^ k) - 1) else n).sshiftRight (intLog2 (BitVec.ofNat 32 (2 ^ k)).toNat % 32) =
      BitVec.ofInt 32 (n.toInt.tdiv (2 ^ k)) := by
  obtain ⟨hlow, hhigh⟩ := toInt_range n
  have hpow : 2 ^ k ≤ 2 ^ 31 := Nat.pow_le_pow_right (by decide) (by omega)
  have hcast : ((2 ^ k : Nat) : Int) = 2 ^ k := by
    push_cast
    rfl
  have hpos : (0 : Int) < 2 ^ k := Int.pow_pos (by decide)
  have hlog : intLog2 (BitVec.ofNat 32 (2 ^ k)).toNat % 32 = k := by
    have hword : (BitVec.ofNat 32 (2 ^ k)).toNat = 2 ^ k := Nat.mod_eq_of_lt (by omega)
    rw [hword, intLog2, Nat.log2_two_pow, Nat.mod_eq_of_lt hk]
  have hsum : n + (BitVec.ofNat 32 (2 ^ k) - 1) = BitVec.ofInt 32 (n.toInt + (2 ^ k - 1)) := by
    have hone : BitVec.ofInt 32 (-1) = -(1 : BitVec 32) := rfl
    rw [BitVec.ofInt_add, BitVec.ofInt_toInt, Int.sub_eq_add_neg, BitVec.ofInt_add, ← hcast, BitVec.ofInt_natCast, hone,
      ← BitVec.sub_eq_add_neg]
  rw [hlog, msb_eq]
  by_cases hneg : n.toInt < 0
  · rw [decide_eq_true hneg, if_pos rfl, hsum, sshiftRight_ofInt (by decide) (by omega) (by omega), tdiv_of_neg hpos hneg]
  · rw [decide_eq_false hneg, if_neg Bool.false_ne_true, sshiftRight_eq_div, tdiv_of_nonneg (by omega)]

/-! ## The interpreter -/

/-- What `Interpreter::divwx` writes. -/
def quotient (n divisor : BitVec 32) : BitVec 32 :=
  if divisor == 0 || (n == 0x80000000 && divisor == -1) then (if n.slt 0 then 0xFFFFFFFF#32 else 0) else n.sdiv divisor

theorem divwx_gpr {ρ : Type} (inst : UGeckoInstruction) (p : PowerPCState ρ) :
    (Interpreter.divwx inst p).gpr inst.RD = quotient (p.gpr inst.RA) (p.gpr inst.RB) := arithmetic_gpr _ _ _ _

theorem sdiv_eq_ofInt (n divisor : BitVec 32) : n.sdiv divisor = BitVec.ofInt 32 (n.toInt.tdiv divisor.toInt) := by
  apply BitVec.eq_of_toInt_eq
  rw [BitVec.toInt_sdiv, BitVec.toInt_ofInt]

theorem quotient_eq {n divisor : BitVec 32} (hzero : divisor.toInt ≠ 0) (hminus : divisor.toInt ≠ -1) :
    quotient n divisor = BitVec.ofInt 32 (n.toInt.tdiv divisor.toInt) := by
  have hz : (divisor == 0) = false := by
    rw [beq_eq_false_iff_ne]
    rintro rfl
    exact hzero rfl
  have hm : (divisor == -1) = false := by
    rw [beq_eq_false_iff_ne]
    rintro rfl
    exact hminus rfl
  rw [quotient, hz, hm, Bool.and_false, Bool.or_false, if_neg Bool.false_ne_true, sdiv_eq_ofInt]

/-! ## The branches -/

def Emits (ops : Operands a d) (divisor : BitVec 32) (OE : Bool) (s : State PPCState) (value : BitVec 32) : Prop :=
  ∃ code, divwx ops divisor OE = some code ∧ Leaves code s ops.rd value

theorem Emits.unique {ops : Operands a d} {OE : Bool} {s : State PPCState} {v v' : BitVec 32} (h : Emits ops divisor OE s v)
    (h' : Emits ops divisor OE s v') : v = v' := by
  obtain ⟨code, hsome, hleaves⟩ := h
  obtain ⟨code', hsome', hleaves'⟩ := h'
  obtain rfl := Option.some.inj (hsome.symm.trans hsome')
  exact hleaves.unique hleaves'

theorem leaves_moveDividend (ops : Operands a d) {s : State PPCState} {n : BitVec 32} (hold : ops.Hold s n) :
    Leaves (moveDividend ops) s ops.rd n := by
  rw [moveDividend]
  by_cases hda : d = a
  · have hregister := hold.register
    rw [ops.bound_eq.mpr hda] at hregister
    rw [if_neg (not_not.mpr hda)]
    exact ⟨s, rfl, hregister⟩
  · rw [if_pos hda]
    refine ⟨_, rfl, ?_⟩
    simp [hold.source]

theorem moveDividend_all (ops : Operands a d) : (moveDividend ops).all (!·.isJump) = true := by
  rw [moveDividend]
  split <;> rfl

theorem quotient_zero (n : BitVec 32) : quotient n 0 = n.sshiftRight 31 := by
  obtain ⟨hlow, hhigh⟩ := toInt_range n
  rw [quotient, beq_self_eq_true, Bool.true_or, if_pos rfl, sshiftRight_eq_div, slt_zero]
  by_cases hneg : n.toInt < 0
  · have hdiv : n.toInt / 2 ^ 31 = -1 := by
      omega
    rw [decide_eq_true hneg, if_pos rfl, hdiv]
    rfl
  · have hdiv : n.toInt / 2 ^ 31 = 0 := by
      omega
    rw [decide_eq_false hneg, if_neg Bool.false_ne_true, hdiv]
    rfl

theorem emits_zero (ops : Operands a d) (OE : Bool) {s : State PPCState} {n : BitVec 32} (hold : ops.Hold s n) :
    Emits ops 0 OE s (quotient n 0) := by
  have hzero : (0 : BitVec 32).toInt = 0 := rfl
  rw [Emits, divwx, if_pos hzero, quotient_zero]
  refine ⟨_, rfl, ?_⟩
  apply Leaves.append_constantOverflow
  · apply (leaves_moveDividend ops hold).append (moveDividend_all ops)
    intro s' hv hread
    refine ⟨_, rfl, ?_⟩
    simp [hread, Shift.value]
  · rw [List.all_append, moveDividend_all]
    rfl

theorem emits_one (ops : Operands a d) (OE : Bool) {s : State PPCState} {n : BitVec 32} (hold : ops.Hold s n) :
    Emits ops 1 OE s (quotient n 1) := by
  have hone : (1 : BitVec 32).toInt = 1 := rfl
  have hvalue : quotient n 1 = n := by
    rw [quotient_eq (by decide) (by decide), hone, Int.tdiv_one, BitVec.ofInt_toInt]
  rw [Emits, divwx, if_neg (by decide), if_pos hone, hvalue]
  exact ⟨_, rfl, (leaves_moveDividend ops hold).append_constantOverflow (moveDividend_all ops) OE false⟩

theorem quotient_minusOne (n : BitVec 32) : quotient n (-1) = if n.negOverflow then 0xFFFFFFFF else -n := by
  have hminus : (-1 : BitVec 32).toInt = -1 := rfl
  rw [quotient, BitVec.negOverflow_eq]
  by_cases hmin : n = BitVec.intMin 32
  · subst hmin
    rfl
  · have hne : (n == 0x80000000) = false := beq_eq_false_iff_ne.mpr hmin
    have hbool : (n == BitVec.intMin 32) = false := beq_eq_false_iff_ne.mpr hmin
    have hzero : ((-1 : BitVec 32) == 0) = false := rfl
    rw [hne, hbool, hzero, Bool.false_and, Bool.or_false, if_neg Bool.false_ne_true, sdiv_eq_ofInt, hminus, Int.tdiv_neg,
      Int.tdiv_one, BitVec.ofInt_neg, BitVec.ofInt_toInt]
    rfl

theorem emits_minusOne (ops : Operands a d) (OE : Bool) {s : State PPCState} {n : BitVec 32} (hold : ops.Hold s n) :
    Emits ops (-1) OE s (quotient n (-1)) := by
  have hminus : (-1 : BitVec 32).toInt = -1 := rfl
  rw [Emits, divwx, if_neg (by decide), if_neg (by decide), if_pos hminus, quotient_minusOne]
  refine ⟨_, rfl, ?_⟩
  simp only [List.append_assoc]
  apply (leaves_moveDividend ops hold).append (moveDividend_all ops)
  intro s' hv hread
  cases hov : n.negOverflow <;> cases OE <;>
    simp [Leaves, run, runFrom, step, constantOverflow, generateConstantOverflow, State.holds, hread, hov]

theorem ofInt_tdiv (n divisor : Int) :
    BitVec.ofInt 32 (n.tdiv divisor) = if divisor < 0 then -BitVec.ofInt 32 (n.tdiv divisor.natAbs)
      else BitVec.ofInt 32 (n.tdiv divisor.natAbs) := by
  by_cases hneg : divisor < 0
  · have habs : divisor = -(divisor.natAbs : Int) := by
      omega
    rw [if_pos hneg, ← BitVec.ofInt_neg, ← Int.tdiv_neg, ← habs]
  · have habs : divisor = divisor.natAbs := by
      omega
    rw [if_neg hneg, ← habs]

theorem negate_all (r : X64Reg) :
    (if divisor.toInt < 0 then [.neg32 r] else [] : List (Instr PPCState)).all (!·.isJump) = true := by
  split <;> rfl

theorem divideByTwo_all (ops : Operands a d) : (divideByTwo ops).all (!·.isJump) = true := by
  rw [divideByTwo]
  cases simpleReg ops.ra with
  | none => rfl
  | some ra => by_cases hda : d = a <;> simp [hda, Instr.isJump]

theorem divideByPow2_all (ops : Operands a d) (absVal : BitVec 32) : (divideByPow2 ops absVal).all (!·.isJump) = true := by
  rw [divideByPow2]
  cases simpleReg ops.ra with
  | none => rfl
  | some ra => by_cases hda : d = a <;> simp [hda, Instr.isJump]

theorem divideByMagic_all (ops : Operands a d) (m : SignedMagic) : (divideByMagic ops divisor m).all (!·.isJump) = true := by
  rw [divideByMagic]
  split
  · rfl
  · split
    · rfl
    · split <;> rfl

theorem emits_two (ops : Operands a d) (OE : Bool) {s : State PPCState} {n : BitVec 32} (hold : ops.Hold s n)
    (h : divisor.toInt = 2 ∨ divisor.toInt = -2) : Emits ops divisor OE s (quotient n divisor) := by
  have habs : divisor.toInt.natAbs = 2 := by
    omega
  have hleaves := (leaves_divideByTwo ops hold).append_negate divisor (divideByTwo_all ops)
  rw [quotient_eq (by omega) (by omega), ofInt_tdiv, habs, Emits, divwx, if_neg (by omega), if_neg (by omega),
    if_neg (by omega), if_pos h]
  rw [value_two] at hleaves
  refine ⟨_, rfl, hleaves.append_constantOverflow ?_ OE false⟩
  rw [List.all_append, divideByTwo_all, negate_all]
  rfl

def AbsPow2 (divisor : Int) : Prop := (isPow2 divisor || isPow2 (-divisor)) = true

instance (divisor : Int) : Decidable (AbsPow2 divisor) := inferInstanceAs (Decidable (_ = true))

theorem natAbs_of_absPow2 (h : AbsPow2 divisor.toInt) : ∃ k < 32, divisor.toInt.natAbs = 2 ^ k := by
  obtain ⟨hlow, hhigh⟩ := toInt_range divisor
  have hpow : ∃ k : Nat, divisor.toInt.natAbs = 2 ^ k := by
    rcases (Bool.or_eq_true _ _).mp h with hpos | hneg
    · obtain ⟨k, hk⟩ := (isPow2_iff _).mp hpos
      refine ⟨k, ?_⟩
      rw [hk, Int.natAbs_pow]
      rfl
    · obtain ⟨k, hk⟩ := (isPow2_iff _).mp hneg
      refine ⟨k, ?_⟩
      rw [← Int.natAbs_neg, hk, Int.natAbs_pow]
      rfl
  obtain ⟨k, hk⟩ := hpow
  have hle : 2 ^ k < 2 ^ 32 := by
    omega
  exact ⟨k, (Nat.pow_lt_pow_iff_right (by decide)).mp hle, hk⟩

theorem emits_pow2 (ops : Operands a d) (OE : Bool) {s : State PPCState} {n : BitVec 32} (hold : ops.Hold s n)
    (h : 2 < divisor.toInt.natAbs) (hpow : AbsPow2 divisor.toInt) : Emits ops divisor OE s (quotient n divisor) := by
  obtain ⟨k, hk, habs⟩ := natAbs_of_absPow2 hpow
  have hcast : ((2 ^ k : Nat) : Int) = 2 ^ k := by
    push_cast
    rfl
  rw [AbsPow2] at hpow
  have hleaves := (leaves_divideByPow2 ops hold (BitVec.ofNat 32 (2 ^ k))).append_negate divisor (divideByPow2_all ops _)
  rw [quotient_eq (by omega) (by omega), ofInt_tdiv, habs, hcast, Emits, divwx, if_neg (by omega), if_neg (by omega),
    if_neg (by omega), if_neg (by omega), if_pos hpow, habs]
  rw [value_pow2 n hk] at hleaves
  refine ⟨_, rfl, hleaves.append_constantOverflow ?_ OE false⟩
  rw [List.all_append, divideByPow2_all, negate_all]
  rfl

theorem valid_of_not_absPow2 (hzero : divisor.toInt ≠ 0) (hpow : ¬ AbsPow2 divisor.toInt) : Valid divisor := by
  have hone : ¬ divisor.toInt.natAbs = 1 := by
    intro habs
    apply hpow
    rcases Int.natAbs_eq divisor.toInt with heq | heq <;> rw [heq, habs] <;> decide
  refine ⟨by omega, ?_⟩
  intro hmin
  apply hpow
  rw [hmin]
  decide

theorem magicQuotient_range {p : Nat} {m : SignedMagic} (hm : Magic divisor p m) (h : Valid divisor) (n : BitVec 32) :
    -2 ^ 31 ≤ magicQuotient divisor.toInt m n.toInt ∧ magicQuotient divisor.toInt m n.toInt < 2 ^ 31 := by
  obtain ⟨hlow, hhigh⟩ := toInt_range n
  have hmag : (magnitude divisor p : Int) * 4 ≤ 3 * 2 ^ p := by
    have htwo := (bounds h).two_le
    have hdelta := delta_le (ad divisor).toNat p
    have hlt := (toNat_ad h).2
    have hpow : 2 ^ 32 ≤ 2 ^ p := Nat.pow_le_pow_right (by decide) hm.found.low
    have hmul : magnitude divisor p * 2 ≤ 2 ^ p + delta (ad divisor).toNat p := by
      rw [← magnitude_mul h p]
      exact Nat.mul_le_mul_left _ htwo
    have hnat : magnitude divisor p * 4 ≤ 3 * 2 ^ p := by
      omega
    exact_mod_cast hnat
  have hpos : (0 : Int) < 2 ^ p := Int.pow_pos (by decide)
  have hproduct : -(3 * 2 ^ 29 * 2 ^ p) ≤ n.toInt * magnitude divisor p ∧ n.toInt * magnitude divisor p ≤ 3 * 2 ^ 29 * 2 ^ p := by
    have hnonneg : (0 : Int) ≤ magnitude divisor p := Int.natCast_nonneg _
    have hge := Int.mul_le_mul_of_nonneg_right hlow hnonneg
    have hle := Int.mul_le_mul_of_nonneg_right (Int.le_of_lt hhigh) hnonneg
    constructor <;> linarith
  have hquotient : -(3 * 2 ^ 29) ≤ signedProduct divisor p n.toInt / 2 ^ p ∧
      signedProduct divisor p n.toInt / 2 ^ p ≤ 3 * 2 ^ 29 := by
    rw [signedProduct]
    constructor
    · rw [Int.le_ediv_iff_mul_le hpos]
      split <;> linarith
    · apply Int.ediv_le_of_le_mul hpos
      split <;> linarith
  rw [hm.quotient_eq h, roundToZero]
  split <;> constructor <;> omega

theorem tdiv_range (n : BitVec 32) {divisor : Int} (h : 2 ≤ divisor.natAbs) :
    -2 ^ 31 ≤ n.toInt.tdiv divisor ∧ n.toInt.tdiv divisor < 2 ^ 31 := by
  obtain ⟨hlow, hhigh⟩ := toInt_range n
  have habs : (n.toInt.tdiv divisor).natAbs ≤ 2 ^ 30 := by
    rw [Int.natAbs_tdiv]
    apply Nat.div_le_of_le_mul
    have hle := Nat.mul_le_mul_right (2 ^ 30) h
    omega
  constructor <;> omega

def LimitMissed (divisor n : Int) : Prop := divisor < -1 ∧ divisor ∣ 2 ^ 31 + 1 ∧ n = -2 ^ 31

/-- The constants of a negative divisor have a positive multiplier: its sequence shifts the dividend in place of the product. -/
def ShiftsDividend (divisor : BitVec 32) : Prop :=
  divisor.toInt < 0 ∧ ¬ AbsPow2 divisor.toInt ∧ ∃ m, SignedDivisionConstants divisor = some m ∧ 0 < m.multiplier.toInt

theorem not_dvd_of_absPow2 (hpow : AbsPow2 divisor.toInt) (hlt : divisor.toInt < -1) : ¬ divisor.toInt ∣ 2 ^ 31 + 1 := by
  obtain ⟨k, -, habs⟩ := natAbs_of_absPow2 hpow
  intro hdvd
  have hk : k ≠ 0 := by
    rintro rfl
    omega
  have htwo : 2 ∣ divisor.toInt.natAbs := by
    rw [habs]
    exact dvd_pow_self 2 hk
  have hodd := htwo.trans (Int.natAbs_dvd_natAbs.mpr hdvd)
  revert hodd
  decide

theorem divwx_of_magic (ops : Operands a d) (OE : Bool) {m : SignedMagic} (hzero : divisor.toInt ≠ 0)
    (hpow : ¬ AbsPow2 divisor.toInt) (hm : SignedDivisionConstants divisor = some m) :
    divwx ops divisor OE = some (divideByMagic ops divisor m ++ constantOverflow OE false) := by
  have htwo := (valid_of_not_absPow2 hzero hpow).1
  have hne2 : ¬ (divisor.toInt = 2 ∨ divisor.toInt = -2) := by
    rintro (heq | heq) <;> (rw [heq] at hpow; exact hpow (by decide))
  rw [AbsPow2] at hpow
  rw [divwx, if_neg hzero, if_neg (by omega), if_neg (by omega), if_neg hne2, if_neg hpow, hm]
  rfl

theorem emits_magic_iff (ops : Operands a d) (OE : Bool) {s : State PPCState} {n : BitVec 32} (hold : ops.Hold s n)
    (hzero : divisor.toInt ≠ 0) (hpow : ¬ AbsPow2 divisor.toInt) (hright : ¬ ShiftsDividend divisor) :
    Emits ops divisor OE s (quotient n divisor) ↔ ¬ LimitMissed divisor.toInt n.toInt := by
  have hvalid := valid_of_not_absPow2 hzero hpow
  have htwo := hvalid.1
  obtain ⟨t, m, -, hm, hmagic⟩ := SignedDivisionConstants_spec hvalid
  have hshift : m.shift.toNat < 32 := by
    have hhigh := hmagic.found.high
    rw [hmagic.shift]
    omega
  have hsigns : ¬ (divisor.toInt < 0 ∧ 0 < m.multiplier.toInt) := fun h => hright ⟨h.1, hpow, m, hm, h.2⟩
  have hcode := divwx_of_magic ops OE hzero hpow hm
  have hleaves := (leaves_divideByMagic ops hold hshift hsigns).append_constantOverflow (divideByMagic_all ops m) OE false
  have hiff : Emits ops divisor OE s (quotient n divisor) ↔
      magicQuotient divisor.toInt m n.toInt = n.toInt.tdiv divisor.toInt := by
    rw [← ofInt_inj (w := 32) (by decide) (magicQuotient_range hmagic hvalid n) (tdiv_range n htwo),
      ← quotient_eq hzero (by omega)]
    constructor
    · exact fun hemits => Emits.unique ⟨_, hcode, hleaves⟩ hemits
    · intro heq
      rw [heq] at hleaves
      exact ⟨_, hcode, hleaves⟩
  rw [hiff, hmagic.quotient_eq_tdiv_iff hvalid, MagicFails, LimitMissed]
  constructor
  · rintro hfails ⟨hlt, hdvd, hn⟩
    exact hfails ⟨by omega, Or.inl ⟨hn, hdvd⟩⟩
  · rintro hmissed ⟨hneg, ⟨hn, hdvd⟩ | ⟨heq, -⟩⟩
    · exact hmissed ⟨by omega, hdvd, hn⟩
    · rw [heq] at hpow
      exact hpow (by decide)

theorem emits_iff (ops : Operands a d) (OE : Bool) {s : State PPCState} {n : BitVec 32} (hold : ops.Hold s n)
    (hright : ¬ ShiftsDividend divisor) :
    Emits ops divisor OE s (quotient n divisor) ↔ ¬ LimitMissed divisor.toInt n.toInt := by
  by_cases hzero : divisor.toInt = 0
  · obtain rfl : divisor = 0 := BitVec.eq_of_toInt_eq hzero
    refine iff_of_true (emits_zero ops OE hold) ?_
    rintro ⟨hlt, -⟩
    omega
  by_cases hpow : AbsPow2 divisor.toInt
  · refine iff_of_true ?_ fun hmissed => not_dvd_of_absPow2 hpow hmissed.1 hmissed.2.1
    rcases (by omega : divisor.toInt = 1 ∨ divisor.toInt = -1 ∨ (divisor.toInt = 2 ∨ divisor.toInt = -2) ∨
      2 < divisor.toInt.natAbs) with hone | hminus | htwo | hlarge
    · obtain rfl : divisor = 1 := BitVec.eq_of_toInt_eq hone
      exact emits_one ops OE hold
    · obtain rfl : divisor = -1 := BitVec.eq_of_toInt_eq hminus
      exact emits_minusOne ops OE hold
    · exact emits_two ops OE hold htwo
    · exact emits_pow2 ops OE hold hlarge hpow
  · exact emits_magic_iff ops OE hold hzero hpow hright

theorem not_emits_of_shiftsDividend (ops : Operands a d) (OE : Bool) {s : State PPCState} {n : BitVec 32}
    (hold : ops.Hold s n) (h : ShiftsDividend divisor) (hn : n.toInt = -divisor.toInt) :
    ¬ Emits ops divisor OE s (quotient n divisor) := by
  obtain ⟨hneg, hpow, m, hm, hpos⟩ := h
  have hzero : divisor.toInt ≠ 0 := by
    omega
  have hvalid := valid_of_not_absPow2 hzero hpow
  have htwo := hvalid.1
  obtain ⟨t, m', -, hm', hmagic⟩ := SignedDivisionConstants_spec hvalid
  obtain rfl := Option.some.inj (hm.symm.trans hm')
  have hquotient : quotient n divisor = BitVec.ofInt 32 (-1) := by
    rw [quotient_eq hzero (by omega), hn, Int.neg_tdiv, Int.tdiv_self hzero]
  have hdelta : delta (ad divisor).toNat t.p / 2 ^ (m.shift.toNat % 32) < 2 ^ 31 := by
    have hle := delta_le (ad divisor).toNat t.p
    have hlt := (toNat_ad hvalid).2
    exact Nat.lt_of_le_of_lt (Nat.div_le_self _ _) (by omega)
  have hleaves := (leaves_shifted ops hold ⟨hneg, hpos⟩).append_constantOverflow (divideByMagic_all ops m) OE false
  intro hemits
  have heq := Emits.unique ⟨_, divwx_of_magic ops OE hzero hpow hm, hleaves⟩ hemits
  have hcast : (delta (ad divisor).toNat t.p : Int) / 2 ^ (m.shift.toNat % 32) =
      (delta (ad divisor).toNat t.p / 2 ^ (m.shift.toNat % 32) : Nat) := by
    push_cast
    rfl
  rw [shifted_value hmagic hvalid ⟨hneg, hpos⟩ hn, hquotient, hcast] at heq
  generalize delta (ad divisor).toNat t.p / 2 ^ (m.shift.toNat % 32) = q at hdelta heq
  have hminus := (ofInt_inj (by decide) (by omega) (by decide)).mp heq
  omega

theorem Operands.exists_hold (ops : Operands a d) (n : BitVec 32) : ∃ s, ops.Hold s n :=
  ⟨⟨fun _ => n.setWidth 64, none, fun _ => n, fun _ => 0⟩, Or.inl rfl, rfl⟩

theorem exists_gpr {i j : Fin 32} (hij : i ≠ j) (x y : BitVec 32) :
    ∃ p : PowerPCState Unit, p.gpr i = x ∧ p.gpr j = y := by
  have hi : Function.update (fun _ : Fin 32 => y) i x i = x := by
    rw [Function.update_self]
  have hj : Function.update (fun _ : Fin 32 => y) i x j = y := by
    rw [Function.update_of_ne hij.symm]
  exact ⟨⟨Function.update (fun _ => y) i x, fun _ => 0, 0, 0, 0, 0, 0, ()⟩, hi, hj⟩

/-- The code for a divisor leaves what the interpreter does, for every dividend, unless its sequence shifts the dividend or
it is one of those that the search stops too early for. Of the latter only one dividend is wrong. -/
theorem divwx_eq_interpreter_iff (divisor : BitVec 32) (inst : UGeckoInstruction) (hreg : inst.RA ≠ inst.RB)
    (ops : Operands inst.RA inst.RD) :
    ((∀ {ρ : Type} (p : PowerPCState ρ) (s : State PPCState), p.gpr inst.RB = divisor → ops.Hold s (p.gpr inst.RA) →
        Emits ops divisor inst.OE s ((Interpreter.divwx inst p).gpr inst.RD)) ↔
      ¬ ShiftsDividend divisor ∧ ¬ (divisor.toInt < -1 ∧ divisor.toInt ∣ 2 ^ 31 + 1)) ∧
    (¬ ShiftsDividend divisor → ∀ {ρ : Type} (p : PowerPCState ρ) (s : State PPCState), p.gpr inst.RB = divisor →
      ops.Hold s (p.gpr inst.RA) → (Emits ops divisor inst.OE s ((Interpreter.divwx inst p).gpr inst.RD) ↔
        ¬ LimitMissed divisor.toInt (p.gpr inst.RA).toInt)) := by
  have hpair : ¬ ShiftsDividend divisor → ∀ {ρ : Type} (p : PowerPCState ρ) (s : State PPCState), p.gpr inst.RB = divisor →
      ops.Hold s (p.gpr inst.RA) → (Emits ops divisor inst.OE s ((Interpreter.divwx inst p).gpr inst.RD) ↔
        ¬ LimitMissed divisor.toInt (p.gpr inst.RA).toInt) := by
    intro hright ρ p s hdivisor hold
    rw [divwx_gpr, hdivisor]
    exact emits_iff ops inst.OE hold hright
  refine ⟨⟨fun hall => ?_, ?_⟩, hpair⟩
  · have hemits (n : BitVec 32) : ∃ s, ops.Hold s n ∧ Emits ops divisor inst.OE s (quotient n divisor) := by
      obtain ⟨s, hold⟩ := ops.exists_hold n
      obtain ⟨p, rfl, hdivisor⟩ := exists_gpr hreg n divisor
      have hvalue := hall p s hdivisor hold
      rw [divwx_gpr, hdivisor] at hvalue
      exact ⟨s, hold, hvalue⟩
    have hright : ¬ ShiftsDividend divisor := by
      intro hwrong
      obtain ⟨s, hold, hvalue⟩ := hemits (-divisor)
      have hmin : divisor ≠ BitVec.intMin 32 := by
        rintro rfl
        exact hwrong.2.1 (by decide)
      exact not_emits_of_shiftsDividend ops inst.OE hold hwrong (BitVec.toInt_neg_of_ne_intMin hmin) hvalue
    refine ⟨hright, ?_⟩
    rintro ⟨hlt, hdvd⟩
    obtain ⟨s, hold, hvalue⟩ := hemits (BitVec.intMin 32)
    exact (emits_iff ops inst.OE hold hright).mp hvalue ⟨hlt, hdvd, rfl⟩
  · rintro ⟨hright, hlimit⟩ ρ p s hdivisor hold
    exact (hpair hright p s hdivisor hold).mpr fun hmissed => hlimit ⟨hmissed.1, hmissed.2.1⟩

def divw : UGeckoInstruction := ⟨0x7CA323D6⟩

def divwOperands : Operands divw.RA divw.RD where
  rd := .rbx
  ra := .reg .rcx
  bound := .rcx
  rd_ne := by decide
  bound_ne := by decide
  bound_eq := by decide
  ra_eq := Or.inr rfl

/-- Divisions by five are right. -/
theorem divwx_five :
    ∃ (p : PowerPCState Unit) (s : State PPCState), p.gpr divw.RA = 12 ∧ p.gpr divw.RB = 5 ∧
      divwOperands.Hold s (p.gpr divw.RA) ∧ Emits divwOperands 5 divw.OE s ((Interpreter.divwx divw p).gpr divw.RD) := by
  obtain ⟨p, hdividend, hdivisor⟩ := exists_gpr (by decide : divw.RA ≠ divw.RB) 12 5
  obtain ⟨s, hold⟩ := divwOperands.exists_hold (p.gpr divw.RA)
  refine ⟨p, s, hdividend, hdivisor, hold, ?_⟩
  refine (divwx_eq_interpreter_iff 5 divw (by decide) divwOperands).1.mpr ⟨?_, by decide⟩ p s hdivisor hold
  rintro ⟨hneg, -⟩
  exact absurd hneg (by decide)

/-- Minus seven takes the sequence that shifts the dividend: seven divided by it becomes one. -/
theorem divwx_minusSeven :
    ∃ (p : PowerPCState Unit) (s : State PPCState), p.gpr divw.RA = 7 ∧ p.gpr divw.RB = -7 ∧
      divwOperands.Hold s (p.gpr divw.RA) ∧ Emits divwOperands (-7) divw.OE s 1 ∧
      (Interpreter.divwx divw p).gpr divw.RD = -1 ∧ ¬ Emits divwOperands (-7) divw.OE s (-1) := by
  obtain ⟨p, hdividend, hdivisor⟩ := exists_gpr (by decide : divw.RA ≠ divw.RB) 7 (-7)
  obtain ⟨s, hold⟩ := divwOperands.exists_hold 7
  have hm : SignedDivisionConstants (-7) = some ⟨0x6DB6DB6D, 2⟩ := by
    decide
  have hleaves : Leaves (divideByMagic divwOperands (-7) ⟨0x6DB6DB6D, 2⟩) s divwOperands.rd 1 :=
    leaves_shifted divwOperands hold ⟨by decide, by decide⟩
  have hemits : Emits divwOperands (-7) divw.OE s 1 :=
    ⟨_, divwx_of_magic divwOperands _ (by decide) (by decide) hm,
      hleaves.append_constantOverflow (divideByMagic_all _ _) _ false⟩
  refine ⟨p, s, hdividend, hdivisor, hdividend ▸ hold, hemits, ?_, fun hminus => ?_⟩
  · rw [divwx_gpr, hdividend, hdivisor]
    decide
  · exact absurd (hemits.unique hminus) (by decide)

end Karphin.PowerPC.Jit64
