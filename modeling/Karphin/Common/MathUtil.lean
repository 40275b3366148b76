import Karphin.Lib.FinNumerals

/-!
# `MathUtil::NextPowerOf2`, `MathUtil::IsPow2` and `MathUtil::IntLog2`

The memory sizes of the emulated console are rounded up to a power of two, and the masks that cut an
address down to a memory region are one less than that power.
-/

namespace Karphin.Common

/-- `MathUtil::NextPowerOf2`: smear the highest set bit of `value - 1` downwards, then add one. The source
computes in `u32`; the two agree for `0 < value ≤ 2^31`. -/
def nextPowerOf2 (value : Nat) : Nat :=
  let v := value - 1
  let v := v ||| v >>> 1
  let v := v ||| v >>> 2
  let v := v ||| v >>> 4
  let v := v ||| v >>> 8
  let v := v ||| v >>> 16
  v + 1

/-- Bit `i` of `y` tells whether one of the `n` bits of `x` from `i` upwards is set. -/
def Smeared (n x y : Nat) : Prop :=
  ∀ i, y.testBit i = true ↔ ∃ j < n, x.testBit (i + j) = true

theorem Smeared.one (x : Nat) : Smeared 1 x x := by
  intro i
  constructor
  · intro h; exact ⟨0, by omega, h⟩
  · rintro ⟨j, hj, h⟩
    obtain rfl : j = 0 := by omega
    exact h

theorem Smeared.double {n x y} (h : Smeared n x y) : Smeared (n + n) x (y ||| y >>> n) := by
  intro i
  rw [Nat.testBit_or, Nat.testBit_shiftRight, Bool.or_eq_true, h i, h (n + i)]
  constructor
  · rintro (⟨j, hj, hx⟩ | ⟨j, hj, hx⟩)
    · exact ⟨j, by omega, hx⟩
    · exact ⟨n + j, by omega, by rwa [show i + (n + j) = n + i + j by omega]⟩
  · rintro ⟨j, hj, hx⟩
    by_cases hlt : j < n
    · exact Or.inl ⟨j, hlt, hx⟩
    · exact Or.inr ⟨j - n, by omega, by rwa [show n + i + (j - n) = i + j by omega]⟩

theorem Smeared.eq_two_pow {x y} (h : Smeared 32 x y) (hx : x < 2 ^ 32) :
    ∃ k, y + 1 = 2 ^ k ∧ x < 2 ^ k ∧ 2 ^ k ≤ 2 * x + 1 := by
  rcases Nat.eq_zero_or_pos x with rfl | hpos
  · refine ⟨0, ?_, by simp, by simp⟩
    have : y = 0 := by
      apply Nat.eq_of_testBit_eq
      intro i
      have := h i
      simp at this
      simp [this]
    simp [this]
  · have hne : x ≠ 0 := by omega
    have hlog : x.log2 < 32 := (Nat.log2_lt hne).mpr hx
    refine ⟨x.log2 + 1, ?_, Nat.lt_log2_self, ?_⟩
    case refine_2 =>
      have := Nat.log2_self_le hne
      rw [Nat.pow_succ]; omega
    have hy : y = 2 ^ (x.log2 + 1) - 1 := by
      apply Nat.eq_of_testBit_eq
      intro i
      rw [Nat.testBit_two_pow_sub_one, Bool.eq_iff_iff, h i, decide_eq_true_iff]
      constructor
      · rintro ⟨j, _, hj⟩
        have hge := Nat.ge_two_pow_of_testBit hj
        have := (Nat.le_log2 hne).mpr hge
        omega
      · intro hi
        exact ⟨x.log2 - i, by omega, by rw [show i + (x.log2 - i) = x.log2 by omega]; exact Nat.testBit_log2 hne⟩
    have := Nat.two_pow_pos (x.log2 + 1)
    omega

theorem nextPowerOf2_spec {value : Nat} (hpos : 0 < value) (hlt : value ≤ 2 ^ 32) :
    ∃ k, nextPowerOf2 value = 2 ^ k ∧ value ≤ 2 ^ k ∧ 2 ^ k < 2 * value := by
  have h := ((((Smeared.one (value - 1)).double).double).double).double.double
  obtain ⟨k, hk, hv, hmin⟩ := h.eq_two_pow (by omega)
  exact ⟨k, hk, by omega, by omega⟩

/-- `MathUtil::IntLog2`, which rounds down. -/
def intLog2 (val : Nat) : Nat := Nat.log2 val

/-- `MathUtil::IsPow2`, of an integer of any type. -/
def isPow2 (imm : Int) : Bool := 0 < imm && imm.toNat &&& (imm.toNat - 1) = 0

theorem isPow2_iff (imm : Int) : isPow2 imm = true ↔ ∃ k : Nat, imm = 2 ^ k := by
  rw [isPow2, Bool.and_eq_true, decide_eq_true_iff, decide_eq_true_iff]
  constructor
  · rintro ⟨hpos, hand⟩
    have hne : imm.toNat ≠ 0 := by omega
    obtain ⟨k, hk⟩ := (Nat.and_sub_one_eq_zero_iff_isPowerOfTwo hne).mp hand
    refine ⟨k, ?_⟩
    rw [← Int.toNat_of_nonneg (Int.le_of_lt hpos), hk, Int.natCast_pow]
    rfl
  · rintro ⟨k, rfl⟩
    have hpow : (2 ^ k : Int).toNat = 2 ^ k := Int.toNat_natCast (2 ^ k)
    have hpos := Nat.two_pow_pos k
    refine ⟨Int.natCast_pos.mpr hpos, ?_⟩
    rw [hpow, Nat.and_sub_one_eq_zero_iff_isPowerOfTwo (Nat.ne_of_gt hpos)]
    exact ⟨k, rfl⟩

end Karphin.Common
