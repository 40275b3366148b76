import Karphin.Lib.MagicDivision
import Karphin.PowerPC.DivUtils.Defs

/-!
# Unsigned division by a constant

The round-up method is tested on the greatest dividend with the greatest remainder, and where it fails the multiplier is
rounded down.
-/

namespace Karphin.PowerPC.UnsignedDivision

open Karphin.Lib.MagicDivision

variable {divisor : BitVec 32}

def NotPow2 (divisor : BitVec 32) : Prop := divisor ≠ 0 ∧ ∀ k, divisor.toNat ≠ 2 ^ k

/-! ## The intermediate values -/

theorem toNat_shift_add_clz (h : NotPow2 divisor) : (shift divisor).toNat + divisor.clz.toNat = 31 := by
  have hclz : divisor.clz.toNat < 32 := by
    have hlt := BitVec.clz_lt_iff_ne_zero.mpr h.1
    simpa [BitVec.lt_def] using hlt
  have hbits : (31 : BitVec 32).toNat = 31 := rfl
  rw [shift, BitVec.toNat_sub, hbits]
  omega

theorem shift_spec (h : NotPow2 divisor) :
    0 < (shift divisor).toNat ∧ (shift divisor).toNat ≤ 31 ∧ 2 ^ (shift divisor).toNat < divisor.toNat ∧
      divisor.toNat < 2 ^ ((shift divisor).toNat + 1) := by
  have hsum := toNat_shift_add_clz h
  obtain ⟨hne, hpow⟩ := h
  have hshift : (shift divisor).toNat = 31 - divisor.clz.toNat := Nat.eq_sub_of_add_eq hsum
  have hlow := BitVec.two_pow_sub_clz_le_toNat_of_ne_zero (by decide : 0 < 32) hne
  have hhigh := @BitVec.toNat_lt_two_pow_sub_clz 32 divisor
  have hsucc : 32 - divisor.clz.toNat = 31 - divisor.clz.toNat + 1 := by
    omega
  rw [hsucc] at hhigh
  rw [hshift]
  refine ⟨?_, Nat.sub_le _ _, Nat.lt_of_le_of_ne hlow (Ne.symm (hpow _)), hhigh⟩
  apply Nat.pos_of_ne_zero
  intro hzero
  rw [hzero] at hhigh
  have hone := hpow 0
  have hpos : divisor.toNat ≠ 0 := fun heq => hne (BitVec.eq_of_toNat_eq heq)
  omega

theorem not_dvd_pow (h : NotPow2 divisor) (k : Nat) : ¬ divisor.toNat ∣ 2 ^ k := by
  intro hdvd
  obtain ⟨i, -, hi⟩ := (Nat.dvd_prime_pow Nat.prime_two).mp hdvd
  exact h.2 i hi

theorem magicDividend_toNat (h : NotPow2 divisor) :
    (magicDividend divisor).toNat = 2 ^ (32 + (shift divisor).toNat) := by
  obtain ⟨-, hle, -, -⟩ := shift_spec h
  have hone : (0x100000000#64).toNat = 2 ^ 32 := rfl
  rw [magicDividend, BitVec.toNat_shiftLeft, hone, Nat.shiftLeft_eq, ← Nat.pow_add]
  exact Nat.mod_eq_of_lt (Nat.pow_lt_pow_right (by decide) (by omega))

theorem multiplier_spec (h : NotPow2 divisor) :
    (multiplier divisor).toNat = 2 ^ (32 + (shift divisor).toNat) / divisor.toNat ∧
      (multiplier divisor).toNat + 1 < 2 ^ 32 := by
  obtain ⟨-, hle, hlow, -⟩ := shift_spec h
  have hpos : 0 < divisor.toNat := Nat.zero_lt_of_lt hlow
  have hwide : (divisor.setWidth 64).toNat = divisor.toNat := BitVec.toNat_setWidth_of_le (by decide)
  have hlt : 2 ^ (32 + (shift divisor).toNat) / divisor.toNat + 1 < 2 ^ 32 := by
    -- Rounded down to at most `2 ^ 32 - 2`, as `divisor` is at most twice its shift.
    have hdiv : 2 ^ (32 + (shift divisor).toNat) / divisor.toNat < 2 ^ 32 - 1 := by
      rw [Nat.div_lt_iff_lt_mul hpos, Nat.pow_add]
      have hsucc : (2 ^ 32 - 1) * (2 ^ (shift divisor).toNat + 1) ≤ (2 ^ 32 - 1) * divisor.toNat :=
        Nat.mul_le_mul_left _ hlow
      have hpow : 2 ^ (shift divisor).toNat ≤ 2 ^ 31 := Nat.pow_le_pow_right (by decide) hle
      omega
    omega
  have hvalue : (multiplier divisor).toNat = 2 ^ (32 + (shift divisor).toNat) / divisor.toNat := by
    rw [multiplier, BitVec.toNat_setWidth, BitVec.toNat_udiv, magicDividend_toNat h, hwide]
    exact Nat.mod_eq_of_lt (Nat.lt_of_succ_lt hlt)
  exact ⟨hvalue, hvalue ▸ hlt⟩

theorem maxQuotient_spec (h : NotPow2 divisor) :
    0 < (maxQuotient divisor).toNat ∧ (maxQuotient divisor).toNat * divisor.toNat < 2 ^ 32 ∧
      2 ^ 32 < ((maxQuotient divisor).toNat + 1) * divisor.toNat := by
  obtain ⟨-, hle, hlow, -⟩ := shift_spec h
  have hpos : 0 < divisor.toNat := Nat.zero_lt_of_lt hlow
  have hvalue : (maxQuotient divisor).toNat = 2 ^ 32 / divisor.toNat := by
    rw [maxQuotient, BitVec.toNat_ushiftRight, (multiplier_spec h).1, Nat.shiftRight_eq_div_pow, Nat.div_div_eq_div_mul,
      Nat.mul_comm divisor.toNat, ← Nat.div_div_eq_div_mul, Nat.pow_add, Nat.mul_div_cancel _ (Nat.two_pow_pos _)]
  have hne : 2 ^ 32 % divisor.toNat ≠ 0 := fun hzero => not_dvd_pow h 32 (Nat.dvd_of_mod_eq_zero hzero)
  have hmod := Nat.mod_lt (2 ^ 32) hpos
  have hsplit := Nat.div_add_mod' (2 ^ 32) divisor.toNat
  rw [hvalue]
  refine ⟨Nat.div_pos (Nat.le_of_lt divisor.isLt) hpos, by omega, ?_⟩
  rw [Nat.add_mul, Nat.one_mul]
  omega

theorem lastDividend_spec (h : NotPow2 divisor) :
    (maxQuotient divisor * divisor - 1).toNat = (maxQuotient divisor).toNat * divisor.toNat - 1 ∧
      0 < (maxQuotient divisor).toNat * divisor.toNat := by
  obtain ⟨hquotient, hlt, -⟩ := maxQuotient_spec h
  have hpos : 0 < (maxQuotient divisor).toNat * divisor.toNat :=
    Nat.mul_pos hquotient (Nat.zero_lt_of_lt (shift_spec h).2.2.1)
  have hone : (1 : BitVec 32).toNat = 1 := rfl
  refine ⟨?_, hpos⟩
  rw [BitVec.toNat_sub, BitVec.toNat_mul, Nat.mod_eq_of_lt hlt, hone]
  omega

theorem multiplier_add_one (h : NotPow2 divisor) : (multiplier divisor + 1).toNat = (multiplier divisor).toNat + 1 := by
  rw [BitVec.toNat_add]
  exact Nat.mod_eq_of_lt (multiplier_spec h).2

theorem product_toNat (h : NotPow2 divisor) : (product divisor).toNat =
    ((multiplier divisor).toNat + 1) * ((maxQuotient divisor).toNat * divisor.toNat - 1) := by
  have hm := (multiplier divisor + 1).isLt
  have hn := (maxQuotient divisor * divisor - 1).isLt
  have hlt : (multiplier divisor + 1).toNat * (maxQuotient divisor * divisor - 1).toNat < 2 ^ 64 :=
    Nat.lt_of_lt_of_le (Nat.mul_lt_mul'' hm hn) (by decide)
  rw [product, BitVec.toNat_mul, BitVec.toNat_setWidth_of_le (by decide), BitVec.toNat_setWidth_of_le (by decide),
    Nat.mod_eq_of_lt hlt, multiplier_add_one h, (lastDividend_spec h).1]

theorem roundUp_toNat (h : NotPow2 divisor) :
    (roundUp divisor).toNat = (product divisor).toNat / 2 ^ (32 + (shift divisor).toNat) := by
  obtain ⟨-, hle, -, -⟩ := shift_spec h
  have hbits : (32 : BitVec 32).toNat = 32 := rfl
  have hshift : (shift divisor + 32).toNat = 32 + (shift divisor).toNat := by
    rw [BitVec.toNat_add, hbits]
    omega
  have hlt : (product divisor).toNat / 2 ^ (32 + (shift divisor).toNat) < 2 ^ 32 := by
    rw [Nat.pow_add, ← Nat.div_div_eq_div_mul]
    apply Nat.lt_of_le_of_lt (Nat.div_le_self _ _)
    exact Nat.div_lt_of_lt_mul (product divisor).isLt
  rw [roundUp, BitVec.toNat_setWidth, BitVec.toNat_ushiftRight, hshift, Nat.shiftRight_eq_div_pow]
  exact Nat.mod_eq_of_lt hlt

structure Exact (divisor : BitVec 32) : Prop where
  bits : (shift divisor).toNat + divisor.clz.toNat = 31
  dividend : (magicDividend divisor).toNat = 2 ^ 32 * 2 ^ (shift divisor).toNat
  quotient : (multiplier divisor).toNat = (magicDividend divisor).toNat / divisor.toNat
  succ : (multiplier divisor + 1).toNat = (multiplier divisor).toNat + 1
  last : (maxQuotient divisor * divisor - 1).toNat + 1 = (maxQuotient divisor).toNat * divisor.toNat
  test : (product divisor).toNat = (multiplier divisor + 1).toNat * (maxQuotient divisor * divisor - 1).toNat
  high : (roundUp divisor).toNat = (product divisor).toNat / 2 ^ ((shift divisor).toNat + 32)
  pred : (maxQuotient divisor - 1).toNat + 1 = (maxQuotient divisor).toNat

theorem exact (h : NotPow2 divisor) : Exact divisor := by
  obtain ⟨hquotient, -, -⟩ := maxQuotient_spec h
  obtain ⟨hlast, hpos⟩ := lastDividend_spec h
  have hone : (1 : BitVec 32).toNat = 1 := rfl
  refine ⟨toNat_shift_add_clz h, ?_, ?_, multiplier_add_one h, ?_, ?_, ?_, ?_⟩
  · rw [magicDividend_toNat h, Nat.pow_add]
  · rw [(multiplier_spec h).1, magicDividend_toNat h]
  · rw [hlast, Nat.sub_add_cancel hpos]
  · rw [product_toNat h, multiplier_add_one h, hlast]
  · rw [roundUp_toNat h, Nat.add_comm 32]
  · rw [BitVec.toNat_sub, hone]
    omega

/-! ## The two methods -/

theorem multiplier_mul (h : NotPow2 divisor) :
    ∃ f e, 0 < f ∧ 0 < e ∧ f + e = divisor.toNat ∧
      (multiplier divisor).toNat * divisor.toNat + f = 2 ^ (32 + (shift divisor).toNat) ∧
      ((multiplier divisor).toNat + 1) * divisor.toNat = 2 ^ (32 + (shift divisor).toNat) + e := by
  have hpos : 0 < divisor.toNat := Nat.zero_lt_of_lt (shift_spec h).2.2.1
  have hmod := Nat.mod_lt (2 ^ (32 + (shift divisor).toNat)) hpos
  have hsplit := Nat.div_add_mod' (2 ^ (32 + (shift divisor).toNat)) divisor.toNat
  have hne : 2 ^ (32 + (shift divisor).toNat) % divisor.toNat ≠ 0 :=
    fun hzero => not_dvd_pow h _ (Nat.dvd_of_mod_eq_zero hzero)
  refine ⟨2 ^ (32 + (shift divisor).toNat) % divisor.toNat,
    divisor.toNat - 2 ^ (32 + (shift divisor).toNat) % divisor.toNat, Nat.pos_of_ne_zero hne, Nat.sub_pos_of_lt hmod, ?_, ?_, ?_⟩
  · omega
  · rw [(multiplier_spec h).1]
    exact hsplit
  · rw [(multiplier_spec h).1, Nat.add_mul, Nat.one_mul]
    omega

theorem fast_iff (h : NotPow2 divisor) {e : Nat}
    (he : ((multiplier divisor).toNat + 1) * divisor.toNat = 2 ^ (32 + (shift divisor).toNat) + e) :
    fast divisor = true ↔
      ((maxQuotient divisor).toNat * divisor.toNat - 1) * e < 2 ^ (32 + (shift divisor).toNat) := by
  obtain ⟨hquotient, -, -⟩ := maxQuotient_spec h
  obtain ⟨hlast, hproduct⟩ := lastDividend_spec h
  have hpos : 0 < divisor.toNat := Nat.zero_lt_of_lt (shift_spec h).2.2.1
  have hone : (1 : BitVec 32).toNat = 1 := rfl
  have hsub : (maxQuotient divisor - 1).toNat = (maxQuotient divisor).toNat - 1 := by
    rw [BitVec.toNat_sub, hone]
    omega
  obtain ⟨q, hq⟩ := Nat.exists_eq_succ_of_ne_zero (Nat.ne_of_gt hquotient)
  have hn : (maxQuotient divisor).toNat * divisor.toNat - 1 = divisor.toNat - 1 + q * divisor.toNat := by
    rw [hq, Nat.succ_mul]
    omega
  have hdiv : (divisor.toNat - 1 + q * divisor.toNat) / divisor.toNat = q := by
    rw [Nat.add_mul_div_right _ _ hpos, Nat.div_eq_of_lt (Nat.sub_lt hpos Nat.one_pos), Nat.zero_add]
  have hmod : (divisor.toNat - 1 + q * divisor.toNat) % divisor.toNat = divisor.toNat - 1 := by
    rw [Nat.add_mul_mod_self_right, Nat.mod_eq_of_lt (Nat.sub_lt hpos Nat.one_pos)]
  have hiff := mul_div_eq_iff hpos (Nat.two_pow_pos (32 + (shift divisor).toNat)) he
    (n := divisor.toNat - 1 + q * divisor.toNat)
  rw [hdiv, hmod] at hiff
  rw [fast, beq_iff_eq, ← BitVec.toNat_inj, roundUp_toNat h, product_toNat h, hsub, hn, hq, Nat.succ_sub_one,
    Nat.mul_comm, hiff]
  obtain ⟨d, hd⟩ := Nat.exists_eq_succ_of_ne_zero (Nat.ne_of_gt hpos)
  rw [hd, Nat.succ_sub_one, Nat.succ_mul]
  omega

theorem roundUp_exact (h : NotPow2 divisor) (hfast : fast divisor = true) (n : BitVec 32) :
    n.toNat * ((multiplier divisor).toNat + 1) / 2 ^ (32 + (shift divisor).toNat) = n.toNat / divisor.toNat := by
  obtain ⟨f, e, hf, he, hsum, hdown, hup⟩ := multiplier_mul h
  obtain ⟨-, -, hnext⟩ := maxQuotient_spec h
  obtain ⟨-, hproduct⟩ := lastDividend_spec h
  have hbound := (fast_iff h hup).mp hfast
  have hpos : 0 < divisor.toNat := Nat.zero_lt_of_lt (shift_spec h).2.2.1
  have hsucc : (maxQuotient divisor).toNat * divisor.toNat - 1 + 1 = (maxQuotient divisor).toNat * divisor.toNat :=
    Nat.sub_add_cancel hproduct
  rw [mul_div_eq_iff hpos (Nat.two_pow_pos _) hup]
  rcases Nat.lt_or_ge ((maxQuotient divisor).toNat * divisor.toNat - 1) n.toNat with hgt | hle
  · obtain ⟨r, hr⟩ := Nat.exists_eq_add_of_lt hgt
    have hn := n.isLt
    rw [Nat.add_mul, Nat.one_mul] at hnext
    have hvalue : n.toNat = (maxQuotient divisor).toNat * divisor.toNat - 1 + 1 + r := by
      omega
    rw [hvalue]
    exact error_lt_of_gt (Dvd.intro_left _ hsucc.symm) hbound (by omega)
  · exact error_lt_of_le hpos hbound hle

theorem roundDown_exact (h : NotPow2 divisor) (hslow : fast divisor = false) (n : BitVec 32) :
    (n.toNat * (multiplier divisor).toNat + (multiplier divisor).toNat) / 2 ^ (32 + (shift divisor).toNat) =
      n.toNat / divisor.toNat := by
  obtain ⟨-, -, -, hhigh⟩ := shift_spec h
  obtain ⟨f, e, hf, he, hsum, hdown, hup⟩ := multiplier_mul h
  obtain ⟨-, hlt, -⟩ := maxQuotient_spec h
  have hpos : 0 < divisor.toNat := Nat.zero_lt_of_lt (shift_spec h).2.2.1
  have hbound : ¬ ((maxQuotient divisor).toNat * divisor.toNat - 1) * e < 2 ^ (32 + (shift divisor).toNat) := by
    rw [← fast_iff h hup, hslow]
    exact Bool.false_ne_true
  have hlarge : 2 ^ (shift divisor).toNat < e := by
    apply Nat.lt_of_not_le
    intro hle
    apply hbound
    have hprod : ((maxQuotient divisor).toNat * divisor.toNat - 1) * e < 2 ^ 32 * e :=
      Nat.mul_lt_mul_of_pos_right (by omega) he
    have hmul := Nat.mul_le_mul_left (2 ^ 32) hle
    rw [← Nat.pow_add] at hmul
    exact Nat.lt_of_lt_of_le hprod hmul
  have hsmall : f ≤ 2 ^ (shift divisor).toNat := by
    rw [Nat.pow_succ] at hhigh
    omega
  apply succ_mul_div_eq hpos hf hdown
  rw [Nat.pow_add]
  exact Nat.mul_le_mul n.isLt hsmall

/-! ## The constants -/

theorem two_pow_dvd_of_le_ctz {x : BitVec 32} {k : Nat} (hk : k ≤ x.ctz.toNat) : 2 ^ k ∣ x.toNat := by
  apply Nat.dvd_of_mod_eq_zero
  apply Nat.eq_of_testBit_eq
  intro i
  rw [Nat.testBit_mod_two_pow, Nat.zero_testBit]
  by_cases hi : i < k
  · have hbit : x.toNat.testBit i = false := BitVec.getLsbD_false_of_lt_ctz (Nat.lt_of_lt_of_le hi hk)
    rw [hbit, Bool.and_false]
  · rw [decide_eq_false hi, Bool.false_and]

end Karphin.PowerPC.UnsignedDivision

namespace Karphin.PowerPC

open UnsignedDivision

variable {divisor : BitVec 32}

theorem UnsignedDivisionConstants_fast : (UnsignedDivisionConstants divisor).fast = fast divisor := by
  rw [UnsignedDivisionConstants]
  cases fast divisor <;> rfl

theorem toNat_setWidth_shift (h : NotPow2 divisor) {s : BitVec 32} (hs : s.toNat ≤ (shift divisor).toNat) :
    (s.setWidth 8).toNat = s.toNat := by
  obtain ⟨-, hle, -, -⟩ := shift_spec h
  rw [BitVec.toNat_setWidth]
  omega

theorem UnsignedDivisionConstants_of_fast (h : NotPow2 divisor) (hfast : fast divisor = true) :
    ∃ zeroes ≤ (shift divisor).toNat,
      (UnsignedDivisionConstants divisor).shift.toNat = (shift divisor).toNat - zeroes ∧
        (UnsignedDivisionConstants divisor).multiplier.toNat * 2 ^ zeroes = (multiplier divisor).toNat + 1 := by
  have hconstants : ∃ t : BitVec 32, t.toNat ≤ (shift divisor).toNat ∧ t.toNat ≤ (multiplier divisor + 1).ctz.toNat ∧
      UnsignedDivisionConstants divisor =
        ⟨(multiplier divisor + 1) >>> t.toNat, (shift divisor - t).setWidth 8, true⟩ := by
    simp only [UnsignedDivisionConstants, hfast, ↓reduceIte, BitVec.ult]
    by_cases hlt : (multiplier divisor + 1).ctz.toNat < (shift divisor).toNat
    · refine ⟨(multiplier divisor + 1).ctz, Nat.le_of_lt hlt, Nat.le_refl _, ?_⟩
      simp only [hlt, decide_true, ↓reduceIte]
    · refine ⟨shift divisor, Nat.le_refl _, Nat.not_lt.mp hlt, ?_⟩
      simp only [hlt, decide_false, Bool.false_eq_true, ↓reduceIte]
  obtain ⟨t, hshift, hctz, hconstants⟩ := hconstants
  have hsub : (shift divisor - t).toNat = (shift divisor).toNat - t.toNat := by
    rw [BitVec.toNat_sub]
    omega
  refine ⟨t.toNat, hshift, ?_, ?_⟩
  · rw [hconstants, toNat_setWidth_shift h (hsub ▸ Nat.sub_le _ _), hsub]
  · rw [hconstants, BitVec.toNat_ushiftRight, Nat.shiftRight_eq_div_pow, Nat.div_mul_cancel (two_pow_dvd_of_le_ctz hctz),
      multiplier_add_one h]

theorem UnsignedDivisionConstants_of_slow (h : NotPow2 divisor) (hslow : fast divisor = false) :
    (UnsignedDivisionConstants divisor).shift.toNat = (shift divisor).toNat ∧
      (UnsignedDivisionConstants divisor).multiplier = multiplier divisor := by
  have hconstants : UnsignedDivisionConstants divisor = ⟨multiplier divisor, (shift divisor).setWidth 8, false⟩ := by
    simp only [UnsignedDivisionConstants, hslow, Bool.false_eq_true, ↓reduceIte]
  rw [hconstants]
  exact ⟨toNat_setWidth_shift h (Nat.le_refl _), rfl⟩

theorem UnsignedDivisionConstants_shift_lt (h : NotPow2 divisor) : (UnsignedDivisionConstants divisor).shift.toNat + 32 < 64 := by
  obtain ⟨-, hle, -, -⟩ := shift_spec h
  cases hfast : fast divisor with
  | false =>
      rw [(UnsignedDivisionConstants_of_slow h hfast).1]
      omega
  | true =>
      obtain ⟨zeroes, -, hshift, -⟩ := UnsignedDivisionConstants_of_fast h hfast
      rw [hshift]
      omega

theorem mul_multiplier_lt (divisor n : BitVec 32) : n.toNat * (UnsignedDivisionConstants divisor).multiplier.toNat +
    (UnsignedDivisionConstants divisor).multiplier.toNat < 2 ^ 64 := by
  have hn := n.isLt
  have hm := (UnsignedDivisionConstants divisor).multiplier.isLt
  have hprod : (n.toNat + 1) * (UnsignedDivisionConstants divisor).multiplier.toNat ≤ 2 ^ 32 * (2 ^ 32 - 1) :=
    Nat.mul_le_mul hn (by omega)
  rw [Nat.add_mul, Nat.one_mul] at hprod
  omega

theorem div_of_fast (h : NotPow2 divisor) (hfast : (UnsignedDivisionConstants divisor).fast = true) (n : BitVec 32) :
    n.toNat * (UnsignedDivisionConstants divisor).multiplier.toNat /
      2 ^ (32 + (UnsignedDivisionConstants divisor).shift.toNat) = n.toNat / divisor.toNat := by
  rw [UnsignedDivisionConstants_fast] at hfast
  obtain ⟨zeroes, hzeroes, hshift, hmultiplier⟩ := UnsignedDivisionConstants_of_fast h hfast
  have hexp : 32 + (shift divisor).toNat = 32 + ((shift divisor).toNat - zeroes) + zeroes := by
    omega
  rw [← roundUp_exact h hfast n, ← hmultiplier, hshift, hexp, Nat.pow_add _ _ zeroes, ← Nat.mul_assoc,
    Nat.mul_div_mul_right _ _ (Nat.two_pow_pos zeroes)]

theorem div_of_slow (h : NotPow2 divisor) (hslow : (UnsignedDivisionConstants divisor).fast = false) (n : BitVec 32) :
    (n.toNat * (UnsignedDivisionConstants divisor).multiplier.toNat +
        (UnsignedDivisionConstants divisor).multiplier.toNat) /
      2 ^ (32 + (UnsignedDivisionConstants divisor).shift.toNat) = n.toNat / divisor.toNat := by
  rw [UnsignedDivisionConstants_fast] at hslow
  obtain ⟨hshift, hmultiplier⟩ := UnsignedDivisionConstants_of_slow h hslow
  rw [hshift, hmultiplier]
  exact roundDown_exact h hslow n

end Karphin.PowerPC
