import Karphin.PowerPC.DivUtils.Signed

/-!
# The dividends of signed divisions

Which dividends the constants of a divisor are right for.
-/

namespace Karphin.PowerPC.SignedDivision

open Karphin.Lib.MagicDivision

/-- The divisors and dividends that the constants are wrong for: the limit of a negative divisor is too small for `-2 ^ 31`,
which is the next dividend with the greatest remainder where the divisor divides `2 ^ 31 + 1`, and for `2 ^ 31 - 1`, which is
the next one where it divides `2 ^ 31`. -/
def MagicFails (divisor n : Int) : Prop :=
  divisor < 0 ∧ (n = -2 ^ 31 ∧ divisor ∣ 2 ^ 31 + 1 ∨ divisor = -2 ^ 30 ∧ (n = 2 ^ 31 - 1 ∨ n = -(2 ^ 31 - 1)))

instance (divisor n : Int) : Decidable (MagicFails divisor n) := inferInstanceAs (Decidable (_ ∧ _))

section

variable {D A t p k : Nat}

theorem error_cases (hb : Bounds D A t) (hexits : Exits D A p) (hk : k ≤ t + 1) :
    k % D * 2 ^ p + k * delta D p < D * 2 ^ p ∨ (k = A + D ∧ t ≤ k) ∨ (k = A + 1 + D ∧ k = t + 1) := by
  have htwo := hb.two_le
  have hlt := hb.lt
  rcases Nat.lt_or_ge A k with hgt | hle
  · obtain ⟨r, rfl⟩ : ∃ r, k = A + 1 + r := ⟨k - (A + 1), by omega⟩
    by_cases hr : r + 2 ≤ D
    · exact Or.inl (error_lt_of_gt hb.dvd hexits hr)
    · omega
  · exact Or.inl (error_lt_of_le (by omega) hexits hle)

theorem error_of_dvd_succ (hD : 0 < D) (hdvd : D ∣ k + 1) :
    (k % D * 2 ^ p + k * delta D p < D * 2 ^ p ↔ k * delta D p < 2 ^ p) ∧
      (k % D * 2 ^ p + k * delta D p ≤ D * 2 ^ p ↔ k * delta D p ≤ 2 ^ p) := by
  have hmod : k % D + 1 = D := by
    have hlt := Nat.mod_lt k hD
    have hzero := Nat.mod_eq_zero_of_dvd hdvd
    rw [Nat.add_mod] at hzero
    apply Nat.le_antisymm hlt
    apply Nat.le_of_not_lt
    intro hsmall
    rcases Nat.lt_or_ge 1 D with hone | hone
    · rw [Nat.mod_eq_of_lt hone, Nat.mod_eq_of_lt hsmall] at hzero
      omega
    · omega
  have hsplit : D * 2 ^ p = k % D * 2 ^ p + 2 ^ p := by
    rw [← Nat.succ_mul, Nat.succ_eq_add_one, hmod]
  rw [hsplit, Nat.add_lt_add_iff_left, Nat.add_le_add_iff_left]
  exact ⟨Iff.rfl, Iff.rfl⟩

theorem delta_of_dvd_succ (htwo : 2 ≤ D) (hdvd : D ∣ 2 ^ 31 + 1) : delta D 32 = 2 := by
  obtain ⟨c, hc⟩ := hdvd
  have hne : D ≠ 2 := by
    rintro rfl
    omega
  have hcpos : 0 < c := by
    apply Nat.pos_of_ne_zero
    rintro rfl
    simp at hc
  have hpow : 2 ^ 32 = D - 2 + D * (2 * c - 1) := by
    obtain ⟨c, rfl⟩ := Nat.exists_eq_succ_of_ne_zero (Nat.ne_of_gt hcpos)
    have hexp : 2 * c.succ - 1 = 2 * c + 1 := by
      omega
    rw [hexp, Nat.mul_add, Nat.mul_one, Nat.mul_left_comm]
    rw [Nat.mul_succ] at hc
    omega
  rw [delta, hpow, Nat.add_mul_mod_self_left, Nat.mod_eq_of_lt (by omega)]
  omega

theorem delta_of_dvd (hdvd : D ∣ 2 ^ p) : delta D p = D := by
  rw [delta, Nat.mod_eq_zero_of_dvd hdvd, Nat.sub_zero]

end

/-! ## The power of a divisor -/

variable {divisor : BitVec 32} {p : Nat}

theorem Found.eq_of_dvd_succ (hp : Found divisor p) (h : Valid divisor) (hdvd : (ad divisor).toNat ∣ 2 ^ 31 + 1) : p = 32 := by
  apply Nat.le_antisymm _ hp.low
  apply Nat.le_of_not_lt
  intro hgt
  apply hp.first 32 (Nat.le_refl _) hgt
  rw [Exits, delta_of_dvd_succ (bounds h).two_le hdvd]
  have hanc := (anc_lt h).2
  omega

theorem Found.last_lt (hp : Found divisor p) (h : Valid divisor) (hlast : (anc divisor).toNat + (ad divisor).toNat = 2 ^ 31 - 1)
    (hdvd : (ad divisor).toNat ∣ 2 ^ 31) (hne : (ad divisor).toNat ≠ 2 ^ 30) :
    (2 ^ 31 - 1) * delta (ad divisor).toNat p < 2 ^ p := by
  obtain ⟨j, hj, hpow⟩ := (Nat.dvd_prime_pow Nat.prime_two).mp hdvd
  have hlt := (toNat_ad h).2
  have hsmall : j ≤ 29 := by
    apply Nat.le_of_not_lt
    intro hgt
    rcases Nat.lt_or_eq_of_le (Nat.succ_le_of_lt hgt) with hgt | heq
    · have hj31 : j = 31 := by
        omega
      rw [hpow, hj31] at hlt
      exact Nat.lt_irrefl _ hlt
    · rw [hpow, ← heq] at hne
      exact hne rfl
  have hdelta : delta (ad divisor).toNat p = 2 ^ j := by
    rw [delta_of_dvd (hdvd.trans (Nat.pow_dvd_pow 2 (Nat.le_trans (by decide) hp.low))), hpow]
  have hpow30 : 2 ^ j ≤ 2 ^ 29 := Nat.pow_le_pow_right (by decide) hsmall
  have hexits := hp.exits
  rw [Exits, hdelta] at hexits
  have hlarge : 2 ^ (30 + j) < 2 ^ p := by
    apply Nat.lt_of_le_of_lt _ hexits
    rw [Nat.pow_add]
    exact Nat.mul_le_mul_right _ (by omega)
  have hp31 : 31 + j ≤ p := by
    have hlt := (Nat.pow_lt_pow_iff_right (by decide)).mp hlarge
    omega
  rw [hdelta]
  calc (2 ^ 31 - 1) * 2 ^ j < 2 ^ 31 * 2 ^ j := Nat.mul_lt_mul_of_pos_right (by decide) (Nat.two_pow_pos j)
    _ = 2 ^ (31 + j) := (Nat.pow_add 2 31 j).symm
    _ ≤ 2 ^ p := Nat.pow_le_pow_right (by decide) hp31

theorem Found.last_gt (hp : Found divisor p) (hlast : (anc divisor).toNat = 2 ^ 30 - 1)
    (heq : (ad divisor).toNat = 2 ^ 30) : 2 ^ p < (2 ^ 31 - 1) * delta (ad divisor).toNat p := by
  have hdelta : ∀ {p}, 32 ≤ p → delta (ad divisor).toNat p = 2 ^ 30 := by
    intro p hlow
    rw [heq]
    exact delta_of_dvd (Nat.pow_dvd_pow 2 (Nat.le_trans (by decide) hlow))
  have hle : p ≤ 60 := by
    apply Nat.le_of_not_lt
    intro hgt
    apply hp.first 60 (by decide) hgt
    rw [Exits, hdelta (by decide), hlast]
    decide
  rw [hdelta hp.low]
  exact Nat.lt_of_le_of_lt (Nat.pow_le_pow_right (by decide) hle) (by decide)

/-! ## The dividends -/

theorem fits_of_pos (h : Valid divisor) (hp : Found divisor p) (hpos : 0 < divisor.toInt) {n : Int} (hlow : -2 ^ 31 ≤ n)
    (hhigh : n < 2 ^ 31) : Fits divisor p n := by
  have hb := bounds h
  have hlimit : limit divisor = 2 ^ 31 := if_neg (Int.not_lt.mpr (Int.le_of_lt hpos))
  have htwo := hb.two_le
  have hlt := hb.lt
  rw [hlimit] at hb hlt
  have hk : n.natAbs ≤ 2 ^ 31 + 1 := by
    omega
  rw [Fits]
  rcases error_cases hb hp.exits hk with herror | ⟨hlast, hle⟩ | ⟨hlast, hnext⟩
  · split
    · exact herror
    · exact Nat.le_of_lt herror
  · have hnat : n.natAbs = 2 ^ 31 := by
      omega
    have hdvd : (ad divisor).toNat ∣ 2 ^ 31 + 1 := by
      have hsum : 2 ^ 31 + 1 = (anc divisor).toNat + 1 + (ad divisor).toNat := by
        omega
      rw [hsum]
      exact Nat.dvd_add hb.dvd (Nat.dvd_refl _)
    rw [if_neg (by omega), hnat, hp.eq_of_dvd_succ h hdvd, (error_of_dvd_succ (by omega) hdvd).2,
      delta_of_dvd_succ htwo hdvd]
    decide
  · omega

theorem dvd_natAbs_iff (h : Valid divisor) (k : Nat) : (ad divisor).toNat ∣ k ↔ divisor.toInt ∣ k := by
  rw [(toNat_ad h).1, Int.dvd_natCast]

theorem anc_of_eq (h : Valid divisor) (heq : divisor.toInt = -2 ^ 30) :
    (ad divisor).toNat = 2 ^ 30 ∧ (anc divisor).toNat = 2 ^ 30 - 1 := by
  have had : (ad divisor).toNat = 2 ^ 30 := by
    rw [(toNat_ad h).1, heq]
    rfl
  rw [toNat_anc h, had, limit, if_pos (by omega)]
  decide

theorem not_fits (h : Valid divisor) (hp : Found divisor p) {n : Int} (hfails : MagicFails divisor.toInt n) :
    ¬ Fits divisor p n := by
  obtain ⟨hneg, ⟨rfl, hdvd⟩ | ⟨heq, hn⟩⟩ := hfails
  · have hdvd : (ad divisor).toNat ∣ 2 ^ 31 + 1 := (dvd_natAbs_iff h _).mpr hdvd
    have htwo := (bounds h).two_le
    have hnat : (-2 ^ 31 : Int).natAbs = 2 ^ 31 := rfl
    rw [Fits, if_pos (iff_of_true hneg (by decide)), hnat, (error_of_dvd_succ (by omega) hdvd).1,
      hp.eq_of_dvd_succ h hdvd, delta_of_dvd_succ htwo hdvd]
    decide
  · obtain ⟨had, hanc⟩ := anc_of_eq h heq
    have hnat : n.natAbs = 2 ^ 31 - 1 := by
      omega
    have hdvd : (ad divisor).toNat ∣ 2 ^ 31 - 1 + 1 := by
      rw [had]
      decide
    have hgt := hp.last_gt hanc had
    have hpos : 0 < (ad divisor).toNat := by
      omega
    rw [Fits, hnat, (error_of_dvd_succ hpos hdvd).1, (error_of_dvd_succ hpos hdvd).2]
    split <;> omega

theorem fits_of_neg (h : Valid divisor) (hp : Found divisor p) (hneg : divisor.toInt < 0) {n : Int} (hlow : -2 ^ 31 ≤ n)
    (hhigh : n < 2 ^ 31) (hfails : ¬ MagicFails divisor.toInt n) : Fits divisor p n := by
  have hb := bounds h
  have hlimit : limit divisor = 2 ^ 31 - 1 := if_pos hneg
  have htwo := hb.two_le
  have hpos : 0 < (ad divisor).toNat := by
    omega
  rw [hlimit] at hb
  have hk : n.natAbs ≤ 2 ^ 31 - 1 + 1 := by
    omega
  rw [Fits]
  rcases error_cases hb hp.exits hk with herror | ⟨hlast, hle⟩ | ⟨hlast, hnext⟩
  · split
    · exact herror
    · exact Nat.le_of_lt herror
  · have hsum : (ad divisor).toNat ∣ n.natAbs + 1 := by
      have hsum : n.natAbs + 1 = (anc divisor).toNat + 1 + (ad divisor).toNat := by
        omega
      rw [hsum]
      exact Nat.dvd_add hb.dvd (Nat.dvd_refl _)
    rcases Nat.lt_or_eq_of_le hk with hlt | heq
    · -- The dividend is `2 ^ 31 - 1` or its negative.
      have hnat : n.natAbs = 2 ^ 31 - 1 := by
        omega
      have hne : (ad divisor).toNat ≠ 2 ^ 30 := by
        intro had
        apply hfails
        have habs := (toNat_ad h).1
        exact ⟨hneg, Or.inr ⟨by omega, by omega⟩⟩
      rw [hnat] at hsum hlast
      have hlt := hp.last_lt h hlast.symm hsum hne
      rw [hnat, (error_of_dvd_succ hpos hsum).1, (error_of_dvd_succ hpos hsum).2]
      split
      · exact hlt
      · exact Nat.le_of_lt hlt
    · -- The dividend is `-2 ^ 31`.
      have hmin : n = -2 ^ 31 := by
        omega
      rw [heq] at hsum
      exact absurd ⟨hneg, Or.inl ⟨hmin, (dvd_natAbs_iff h _).mp hsum⟩⟩ hfails
  · -- The divisor divides `2 ^ 31`.
    have hdvd : (ad divisor).toNat ∣ n.natAbs := by
      rw [hlast]
      exact Nat.dvd_add hb.dvd (Nat.dvd_refl _)
    have hpow : 2 ^ 31 < 2 ^ p := Nat.pow_lt_pow_right (by decide) hp.low
    have hd : delta (ad divisor).toNat p = (ad divisor).toNat := by
      rw [hnext] at hdvd
      exact delta_of_dvd (hdvd.trans (Nat.pow_dvd_pow 2 (Nat.le_of_lt hp.low)))
    have hlt : n.natAbs * (ad divisor).toNat < (ad divisor).toNat * 2 ^ p := by
      rw [Nat.mul_comm]
      apply Nat.mul_lt_mul_of_pos_left _ hpos
      rw [hnext]
      exact hpow
    rw [hd, Nat.mod_eq_zero_of_dvd hdvd, Nat.zero_mul, Nat.zero_add]
    split
    · exact hlt
    · exact Nat.le_of_lt hlt

theorem Magic.quotient_eq_tdiv_iff {m : SignedMagic} (hm : Magic divisor p m) (h : Valid divisor) (n : BitVec 32) :
    magicQuotient divisor.toInt m n.toInt = n.toInt.tdiv divisor.toInt ↔ ¬ MagicFails divisor.toInt n.toInt := by
  have hlow : -2 ^ 31 ≤ n.toInt := BitVec.le_toInt n
  have hhigh : n.toInt < 2 ^ 31 := BitVec.toInt_lt
  rw [hm.quotient_eq_iff h]
  constructor
  · rintro (hzero | hfits)
    · rintro ⟨-, ⟨hn, -⟩ | ⟨-, hn⟩⟩ <;> omega
    · exact fun hfails => not_fits h hm.found hfails hfits
  · intro hfails
    rcases Int.lt_or_le divisor.toInt 0 with hneg | hnonneg
    · exact Or.inr (fits_of_neg h hm.found hneg hlow hhigh hfails)
    · have hpos : 0 < divisor.toInt := by
        have htwo := h.1
        omega
      exact Or.inr (fits_of_pos h hm.found hpos hlow hhigh)

/-- The search ends, and the quotients of its constants are right but for a few dividends of negative divisors. -/
theorem SignedDivisionConstants_quotient_iff (divisor : BitVec 32) (h : Valid divisor) :
    ∃ s m, loop (ad divisor) (anc divisor) 31 (start (ad divisor) (anc divisor)) = some s ∧
      SignedDivisionConstants divisor = some m ∧ 32 ≤ s.p ∧ s.p ≤ 63 ∧ m.shift.toNat = s.p - 32 ∧
      ∀ n : BitVec 32, magicQuotient divisor.toInt m n.toInt = n.toInt.tdiv divisor.toInt ↔
        ¬ MagicFails divisor.toInt n.toInt := by
  obtain ⟨s, m, hloop, hm, hmagic⟩ := SignedDivisionConstants_spec h
  exact ⟨s, m, hloop, hm, hmagic.found.low, Nat.le_succ_of_le hmagic.found.high, hmagic.shift,
    hmagic.quotient_eq_tdiv_iff h⟩

/-- Of seven. -/
theorem SignedDivisionConstants_seven :
    (7 : BitVec 32).toInt.natAbs = 7 ∧
      ∃ s m, loop (ad 7) (anc 7) 31 (start (ad 7) (anc 7)) = some s ∧ SignedDivisionConstants 7 = some m ∧ 32 ≤ s.p ∧ s.p ≤ 63 ∧
        m.shift.toNat = s.p - 32 ∧ ∀ n : BitVec 32, magicQuotient (7 : BitVec 32).toInt m n.toInt =
          n.toInt.tdiv (7 : BitVec 32).toInt ↔ ¬ MagicFails (7 : BitVec 32).toInt n.toInt :=
  ⟨by decide, SignedDivisionConstants_quotient_iff 7 ⟨by decide, by decide⟩⟩

/-- The quotient of the smallest dividend and -3 is one too large. -/
theorem SignedDivisionConstants_wrong :
    ∃ divisor n : BitVec 32, Valid divisor ∧ ∃ m, SignedDivisionConstants divisor = some m ∧
      magicQuotient divisor.toInt m n.toInt = 715827883 ∧ n.toInt.tdiv divisor.toInt = 715827882 := by
  refine ⟨-3, BitVec.intMin 32, ⟨by decide, by decide⟩, ⟨-0x55555556, 0⟩, ?_, ?_, ?_⟩ <;> decide

end Karphin.PowerPC.SignedDivision
