import Karphin.Lib.MagicDivision
import Karphin.PowerPC.DivUtils.Defs

/-!
# Signed division by a constant

The loop looks for the least power of two whose multiplier has an error that is small enough for the greatest dividend with
the greatest remainder, `anc`. For a negative divisor that dividend is chosen too small, which some dividends find out.
-/

namespace Karphin.PowerPC.SignedDivision

open Karphin.Lib.MagicDivision

/-! ## The search -/

def delta (D p : Nat) : Nat := D - 2 ^ p % D

def Exits (D A p : Nat) : Prop := A * delta D p < 2 ^ p

structure Quotients (D A : Nat) (s : Loop) : Prop where
  q1 : s.q1.toNat = 2 ^ s.p / A
  r1 : s.r1.toNat = 2 ^ s.p % A
  q2 : s.q2.toNat = 2 ^ s.p / D
  r2 : s.r2.toNat = 2 ^ s.p % D

structure Small (D A : Nat) (s : Loop) : Prop extends Quotients D A s where
  q1_lt : s.q1.toNat < 2 ^ 31
  q2_lt : s.q2.toNat < 2 ^ 31

theorem double_toNat {divisor q r : BitVec 32} {N : Nat} (hpos : 0 < divisor.toNat) (hlt : divisor.toNat ≤ 2 ^ 31)
    (hq : q.toNat = N / divisor.toNat) (hr : r.toNat = N % divisor.toNat) (hsmall : q.toNat < 2 ^ 31) :
    (double divisor q r).1.toNat = 2 * N / divisor.toNat ∧ (double divisor q r).2.toNat = 2 * N % divisor.toNat := by
  have hmod := Nat.mod_lt N hpos
  have hsplit : 2 * N = 2 * r.toNat + 2 * q.toNat * divisor.toNat := by
    have hdiv := Nat.div_add_mod' N divisor.toNat
    rw [hq, hr, Nat.mul_assoc]
    omega
  have htwo : (2 : BitVec 32).toNat = 2 := rfl
  have hone : (1 : BitVec 32).toNat = 1 := rfl
  have hqtwo : (q * 2).toNat = 2 * q.toNat := by
    rw [BitVec.toNat_mul, htwo]
    omega
  have hrtwo : (r * 2).toNat = 2 * r.toNat := by
    rw [BitVec.toNat_mul, htwo]
    omega
  rw [hsplit, Nat.add_mul_div_right _ _ hpos, Nat.add_mul_mod_self_right, double, BitVec.ule, hrtwo]
  by_cases hge : divisor.toNat ≤ 2 * r.toNat
  · have hdiv : 2 * r.toNat / divisor.toNat = 1 := by
      rw [Nat.div_eq_iff hpos]
      omega
    have hrest : 2 * r.toNat % divisor.toNat = 2 * r.toNat - divisor.toNat := by
      rw [Nat.mod_eq_sub_mod hge, Nat.mod_eq_of_lt (by omega)]
    rw [decide_eq_true hge, if_pos rfl, hdiv, hrest, BitVec.toNat_add, BitVec.toNat_sub, hqtwo, hrtwo, hone]
    omega
  · have hdiv : 2 * r.toNat / divisor.toNat = 0 := Nat.div_eq_of_lt (Nat.not_le.mp hge)
    have hrest : 2 * r.toNat % divisor.toNat = 2 * r.toNat := Nat.mod_eq_of_lt (Nat.not_le.mp hge)
    rw [decide_eq_false hge, if_neg Bool.false_ne_true, hdiv, hrest, hqtwo, hrtwo, Nat.zero_add]
    exact ⟨rfl, rfl⟩

section

variable {ad anc : BitVec 32} {s : Loop}

theorem Small.body (h : Small ad.toNat anc.toNat s) (had : 0 < ad.toNat) (had' : ad.toNat ≤ 2 ^ 31) (hanc : 0 < anc.toNat)
    (hanc' : anc.toNat ≤ 2 ^ 31) : Quotients ad.toNat anc.toNat (body ad anc s) := by
  obtain ⟨hq1, hr1⟩ := double_toNat hanc hanc' h.q1 h.r1 h.q1_lt
  obtain ⟨hq2, hr2⟩ := double_toNat had had' h.q2 h.r2 h.q2_lt
  rw [Nat.mul_comm, ← Nat.pow_succ] at hq1 hr1 hq2 hr2
  exact ⟨hq1, hr1, hq2, hr2⟩

theorem delta_pos {D : Nat} (hD : 0 < D) (p : Nat) : 0 < delta D p := Nat.sub_pos_of_lt (Nat.mod_lt _ hD)

theorem delta_le (D p : Nat) : delta D p ≤ D := Nat.sub_le _ _

theorem again_eq_false_iff (h : Quotients ad.toNat anc.toNat s) (had : 0 < ad.toNat) (hanc : 0 < anc.toNat) :
    again ad s = false ↔ Exits ad.toNat anc.toNat s.p := by
  have hmod := Nat.mod_lt (2 ^ s.p) hanc
  have hmod2 := Nat.mod_lt (2 ^ s.p) had
  have hdelta : (ad - s.r2).toNat = delta ad.toNat s.p := by
    have hlt := ad.isLt
    rw [delta, ← h.r2, BitVec.toNat_sub]
    rw [← h.r2] at hmod2
    omega
  have hsplit := Nat.div_add_mod (2 ^ s.p) anc.toNat
  rw [← h.q1, ← h.r1] at hsplit
  rw [← h.r1] at hmod
  have hzero : (0 : BitVec 32).toNat = 0 := rfl
  rw [again, Bool.or_eq_false_iff, Bool.and_eq_false_iff, BitVec.ult, decide_eq_false_iff_not, beq_eq_false_iff_ne,
    beq_eq_false_iff_ne, ne_eq, ne_eq, ← BitVec.toNat_inj, ← BitVec.toNat_inj, hdelta, hzero, Exits, ← hsplit, Nat.not_lt]
  constructor
  · rintro ⟨hle, hne⟩
    rcases Nat.lt_or_eq_of_le hle with hlt | heq
    · have hmul := Nat.mul_le_mul_left anc.toNat hlt
      rw [Nat.mul_succ] at hmul
      omega
    · rw [← heq] at hne ⊢
      omega
  · intro hexits
    constructor
    · apply Nat.le_of_not_lt
      intro hlt
      have hmul := Nat.mul_le_mul_left anc.toNat hlt
      rw [Nat.mul_succ] at hmul
      omega
    · rcases Nat.lt_or_ge s.q1.toNat (delta ad.toNat s.p) with hlt | hge
      · exact Or.inl (Nat.ne_of_lt hlt)
      · by_cases heq : s.q1.toNat = delta ad.toNat s.p
        · right
          rw [← heq] at hexits
          omega
        · exact Or.inl heq

theorem exits_62 {D A : Nat} (hD : D < 2 ^ 31) (hA : A < 2 ^ 31) : Exits D A 62 := by
  have hmul : A * delta D 62 ≤ A * 2 ^ 31 := Nat.mul_le_mul_left A (Nat.le_of_lt (Nat.lt_of_le_of_lt (delta_le D 62) hD))
  rw [Exits]
  omega

theorem Quotients.small (h : Quotients ad.toNat anc.toNat s) (had' : ad.toNat < 2 ^ 31) (hanc' : anc.toNat < 2 ^ 31) (hgo : ¬ Exits ad.toNat anc.toNat s.p) :
    Small ad.toNat anc.toNat s := by
  have hle : 2 ^ s.p ≤ anc.toNat * delta ad.toNat s.p := Nat.not_lt.mp hgo
  have hdelta := delta_le ad.toNat s.p
  refine ⟨h, ?_, ?_⟩
  · rw [h.q1]
    apply Nat.lt_of_le_of_lt _ (Nat.lt_of_le_of_lt hdelta had')
    exact Nat.div_le_of_le_mul hle
  · rw [h.q2]
    apply Nat.lt_of_le_of_lt _ hanc'
    apply Nat.div_le_of_le_mul
    rw [Nat.mul_comm] at hle
    exact Nat.le_trans hle (Nat.mul_le_mul_right _ hdelta)

theorem loop_spec (had : 0 < ad.toNat) (had' : ad.toNat < 2 ^ 31) (hanc : 0 < anc.toNat) (hanc' : anc.toNat < 2 ^ 31)
    (rounds : Nat) (s : Loop) (h : Small ad.toNat anc.toNat s) (hp : s.p < 62) (hrounds : 62 ≤ s.p + rounds) :
    ∃ s', loop ad anc rounds s = some s' ∧ Quotients ad.toNat anc.toNat s' ∧ s.p < s'.p ∧ s'.p ≤ 62 ∧
      Exits ad.toNat anc.toNat s'.p ∧ ∀ p, s.p < p → p < s'.p → ¬ Exits ad.toNat anc.toNat p := by
  induction rounds generalizing s with
  | zero => omega
  | succ rounds ih =>
      have hbody := h.body had (Nat.le_of_lt had') hanc (Nat.le_of_lt hanc')
      have hnext : (body ad anc s).p = s.p + 1 := rfl
      have hiff := again_eq_false_iff hbody had hanc
      rw [loop]
      cases hagain : again ad (body ad anc s) with
      | false =>
          refine ⟨body ad anc s, rfl, hbody, Nat.lt_succ_self _, hp, hiff.mp hagain, fun p hlow hhigh => ?_⟩
          rw [hnext] at hhigh
          omega
      | true =>
          have hgo : ¬ Exits ad.toNat anc.toNat (s.p + 1) := by
            rw [← hnext, ← hiff, hagain]
            exact Bool.true_eq_false.mp
          have hlt : s.p + 1 < 62 := by
            apply Nat.lt_of_le_of_ne hp
            intro (heq : s.p + 1 = 62)
            rw [heq] at hgo
            exact hgo (exits_62 had' hanc')
          obtain ⟨s', hloop, hs', hlow, hhigh, hexits, hfirst⟩ :=
            ih (body ad anc s) (hbody.small had' hanc' hgo) hlt (by omega)
          refine ⟨s', hloop, hs', Nat.lt_of_succ_lt hlow, hhigh, hexits, fun p hp' hp'' => ?_⟩
          rcases Nat.lt_or_eq_of_le hp' with hgt | heq
          · exact hfirst p hgt hp''
          · rw [← heq]
            exact hgo

end

/-! ## The divisor -/

def Valid (divisor : BitVec 32) : Prop := 2 ≤ divisor.toInt.natAbs ∧ divisor.toInt ≠ -2 ^ 31

def limit (divisor : BitVec 32) : Nat := if divisor.toInt < 0 then 2 ^ 31 - 1 else 2 ^ 31

structure Bounds (D A t : Nat) : Prop where
  two_le : 2 ≤ D
  dvd : D ∣ A + 1
  le : A + 1 ≤ t
  lt : t < A + 1 + D
  wide : D ≤ A + 1

variable {divisor : BitVec 32}

theorem toNat_ad (h : Valid divisor) : (ad divisor).toNat = divisor.toInt.natAbs ∧ (ad divisor).toNat < 2 ^ 31 := by
  have hlt := divisor.isLt
  obtain ⟨-, hmin⟩ := h
  rw [BitVec.toInt_eq_toNat_cond] at hmin
  rw [ad, BitVec.toNat_abs, BitVec.msb_eq_decide, BitVec.toInt_eq_toNat_cond]
  split at hmin <;> split <;> rename_i hmsb <;> simp at hmsb <;> omega

theorem toNat_anc (h : Valid divisor) :
    (anc divisor).toNat = limit divisor - 1 - limit divisor % (ad divisor).toNat := by
  obtain ⟨had, hlt⟩ := toNat_ad h
  have htwo := h.1
  have hslt : divisor.slt 0 = decide (divisor.toInt < 0) := by
    rw [BitVec.slt]
    rfl
  have ht : (two31 - (if divisor.slt 0 then 1 else 0)).toNat = limit divisor := by
    rw [hslt, limit]
    by_cases hneg : divisor.toInt < 0
    · rw [decide_eq_true hneg, if_pos rfl, if_pos hneg]
      rfl
    · rw [decide_eq_false hneg, if_neg Bool.false_ne_true, if_neg hneg]
      rfl
  have hmod := Nat.mod_lt (limit divisor) (by omega : 0 < (ad divisor).toNat)
  have hone : (1 : BitVec 32).toNat = 1 := rfl
  have hle : 2 ^ 31 - 1 ≤ limit divisor ∧ limit divisor ≤ 2 ^ 31 := by
    rw [limit]
    split <;> decide
  rw [anc, BitVec.toNat_sub, BitVec.toNat_sub, BitVec.toNat_umod, ht, hone]
  generalize limit divisor % (ad divisor).toNat = rest at hmod ⊢
  omega

theorem bounds (h : Valid divisor) : Bounds (ad divisor).toNat (anc divisor).toNat (limit divisor) := by
  obtain ⟨had, hlt⟩ := toNat_ad h
  have hlimit : limit divisor = 2 ^ 31 - 1 ∨ limit divisor = 2 ^ 31 := by
    rw [limit]
    split
    · exact Or.inl rfl
    · exact Or.inr rfl
  have hpos : 0 < (ad divisor).toNat := by
    have htwo := h.1
    omega
  have hmod := Nat.mod_lt (limit divisor) hpos
  have hsplit := Nat.div_add_mod (limit divisor) (ad divisor).toNat
  have hquotient : 0 < limit divisor / (ad divisor).toNat := Nat.div_pos (by omega) hpos
  have hmultiple : (ad divisor).toNat ≤ (ad divisor).toNat * (limit divisor / (ad divisor).toNat) :=
    Nat.le_mul_of_pos_right _ hquotient
  have hanc : (anc divisor).toNat + 1 = (ad divisor).toNat * (limit divisor / (ad divisor).toNat) := by
    rw [toNat_anc h]
    omega
  refine ⟨had ▸ h.1, hanc ▸ Nat.dvd_mul_right _ _, ?_, ?_, ?_⟩ <;> omega

theorem anc_lt (h : Valid divisor) : 0 < (anc divisor).toNat ∧ (anc divisor).toNat < 2 ^ 31 := by
  have hbounds := bounds h
  have htwo := hbounds.two_le
  have hwide := hbounds.wide
  have hle := hbounds.le
  have hlimit : limit divisor ≤ 2 ^ 31 := by
    rw [limit]
    split <;> decide
  omega

theorem toNat_two31_sub {x : BitVec 32} (hx : 0 < x.toNat) :
    (two31 / x).toNat = 2 ^ 31 / x.toNat ∧ (two31 - two31 / x * x).toNat = 2 ^ 31 % x.toNat := by
  have htwo31 : two31.toNat = 2 ^ 31 := rfl
  have hsplit := Nat.div_add_mod' (2 ^ 31) x.toNat
  have hmod := Nat.mod_lt (2 ^ 31) hx
  have hdiv : (two31 / x).toNat = 2 ^ 31 / x.toNat := by
    rw [BitVec.toNat_udiv, htwo31]
  refine ⟨hdiv, ?_⟩
  rw [BitVec.toNat_sub, BitVec.toNat_mul, hdiv, htwo31]
  omega

theorem start_small (h : Valid divisor) :
    Small (ad divisor).toNat (anc divisor).toNat (start (ad divisor) (anc divisor)) := by
  have hbounds := bounds h
  have htwo := hbounds.two_le
  have hwide := hbounds.wide
  have hlt := hbounds.lt
  have hlimit : 2 ^ 31 - 1 ≤ limit divisor := by
    rw [limit]
    split <;> decide
  have hhalf : ∀ {x : Nat}, 2 ≤ x → 2 ^ 31 / x < 2 ^ 31 := fun hx => Nat.div_lt_self (by decide) hx
  obtain ⟨hq1, hr1⟩ := toNat_two31_sub (by omega : 0 < (anc divisor).toNat)
  obtain ⟨hq2, hr2⟩ := toNat_two31_sub (by omega : 0 < (ad divisor).toNat)
  refine ⟨⟨hq1, hr1, hq2, hr2⟩, ?_, ?_⟩
  · exact hq1 ▸ hhalf (by omega)
  · exact hq2 ▸ hhalf htwo

structure Found (divisor : BitVec 32) (p : Nat) : Prop where
  low : 32 ≤ p
  high : p ≤ 62
  exits : Exits (ad divisor).toNat (anc divisor).toNat p
  first : ∀ p', 32 ≤ p' → p' < p → ¬ Exits (ad divisor).toNat (anc divisor).toNat p'

theorem loop_start (h : Valid divisor) :
    ∃ s, loop (ad divisor) (anc divisor) 31 (start (ad divisor) (anc divisor)) = some s ∧
      Quotients (ad divisor).toNat (anc divisor).toNat s ∧ Found divisor s.p := by
  have htwo := (bounds h).two_le
  obtain ⟨hanc, hanc'⟩ := anc_lt h
  obtain ⟨s, hloop, hs, hlow, hhigh, hexits, hfirst⟩ :=
    loop_spec (by omega) (toNat_ad h).2 hanc hanc' 31 _ (start_small h) (show 31 < 62 by decide)
      (show 62 ≤ 31 + 31 by decide)
  exact ⟨s, hloop, hs, hlow, hhigh, hexits, hfirst⟩

/-! ## The multiplier -/

def magnitude (divisor : BitVec 32) (p : Nat) : Nat := 2 ^ p / (ad divisor).toNat + 1

theorem magnitude_mul (h : Valid divisor) (p : Nat) :
    magnitude divisor p * (ad divisor).toNat = 2 ^ p + delta (ad divisor).toNat p := by
  have htwo := (bounds h).two_le
  have hmod := Nat.mod_lt (2 ^ p) (by omega : 0 < (ad divisor).toNat)
  have hsplit := Nat.div_add_mod' (2 ^ p) (ad divisor).toNat
  rw [magnitude, delta, Nat.add_mul, Nat.one_mul]
  omega

theorem magnitude_lt (h : Valid divisor) {p : Nat} (hp : Found divisor p) :
    magnitude divisor p < 2 ^ 32 ∧ magnitude divisor p ≠ 2 ^ 31 := by
  have htwo := (bounds h).two_le
  have hlt := (toNat_ad h).2
  obtain ⟨-, hanc⟩ := anc_lt h
  constructor
  · rcases Nat.lt_or_eq_of_le hp.low with hgt | heq
    · obtain ⟨k, rfl⟩ : ∃ k, p = k + 1 := ⟨p - 1, by omega⟩
      have hgo := Nat.not_lt.mp (hp.first k (by omega) (Nat.lt_succ_self k))
      have hdelta := Nat.mul_le_mul_left (anc divisor).toNat (delta_le (ad divisor).toNat k)
      have hdiv : 2 ^ (k + 1) / (ad divisor).toNat ≤ 2 * (anc divisor).toNat := by
        apply Nat.div_le_of_le_mul
        rw [Nat.pow_succ, Nat.mul_left_comm, Nat.mul_comm _ 2, Nat.mul_comm (ad divisor).toNat]
        omega
      rw [magnitude]
      omega
    · have hdiv : 2 ^ p / (ad divisor).toNat ≤ 2 ^ p / 2 := Nat.div_le_div_left htwo (by decide)
      rw [magnitude, ← heq] at *
      omega
  · intro heq
    have hmul := magnitude_mul h p
    have hdelta := delta_le (ad divisor).toNat p
    have hpos := delta_pos (by omega : 0 < (ad divisor).toNat) p
    obtain ⟨k, hk⟩ : 2 ^ 31 ∣ 2 ^ p := Nat.pow_dvd_pow 2 (Nat.le_of_lt hp.low)
    rw [heq, hk] at hmul
    omega

/-- The multiplier of a negative divisor is negative, and one of 32 bits is taken for a signed number. -/
structure Magic (divisor : BitVec 32) (p : Nat) (m : SignedMagic) : Prop where
  found : Found divisor p
  shift : m.shift.toNat = p - 32
  multiplier : m.multiplier = if divisor.toInt < 0 then -BitVec.ofNat 32 (magnitude divisor p)
    else BitVec.ofNat 32 (magnitude divisor p)

theorem slt_zero (divisor : BitVec 32) : divisor.slt 0 = decide (divisor.toInt < 0) := by
  rw [BitVec.slt]
  rfl

theorem SignedDivisionConstants_spec (h : Valid divisor) :
    ∃ s m, loop (ad divisor) (anc divisor) 31 (start (ad divisor) (anc divisor)) = some s ∧
      SignedDivisionConstants divisor = some m ∧ Magic divisor s.p m := by
  obtain ⟨s, hloop, hs, hfound⟩ := loop_start h
  have hvalue : s.q2 + 1 = BitVec.ofNat 32 (magnitude divisor s.p) := by
    apply BitVec.eq_of_toNat_eq
    have hone : (1 : BitVec 32).toNat = 1 := rfl
    rw [BitVec.toNat_add, BitVec.toNat_ofNat, hs.q2, hone, magnitude]
  have hlow := hfound.low
  have hhigh := hfound.high
  rw [SignedDivisionConstants, hloop]
  refine ⟨s, _, rfl, rfl, hfound, ?_, ?_⟩
  · rw [BitVec.toNat_ofNat]
    omega
  · change (if divisor.slt 0 then -(s.q2 + 1) else s.q2 + 1) = _
    rw [hvalue, slt_zero]
    by_cases hneg : divisor.toInt < 0 <;> simp [hneg]

theorem Magic.toInt_of_pos {p : Nat} {m : SignedMagic} (hm : Magic divisor p m) (h : Valid divisor)
    (hpos : 0 < divisor.toInt) : (m.multiplier.toInt < 0 ∧ m.multiplier.toInt = magnitude divisor p - 2 ^ 32) ∨
      (0 < m.multiplier.toInt ∧ m.multiplier.toInt = magnitude divisor p) := by
  obtain ⟨hlt, hne⟩ := magnitude_lt h hm.found
  have hsucc : 0 < magnitude divisor p := Nat.succ_pos _
  rw [hm.multiplier, if_neg (Int.not_lt.mpr (Int.le_of_lt hpos)), BitVec.toInt_eq_toNat_cond, BitVec.toNat_ofNat,
    Nat.mod_eq_of_lt hlt]
  split <;> omega

theorem Magic.toInt_of_neg {p : Nat} {m : SignedMagic} (hm : Magic divisor p m) (h : Valid divisor)
    (hneg : divisor.toInt < 0) : (0 < m.multiplier.toInt ∧ m.multiplier.toInt = 2 ^ 32 - magnitude divisor p) ∨
      (m.multiplier.toInt < 0 ∧ m.multiplier.toInt = -magnitude divisor p) := by
  obtain ⟨hlt, hne⟩ := magnitude_lt h hm.found
  have hsucc : 0 < magnitude divisor p := Nat.succ_pos _
  rw [hm.multiplier, if_pos hneg, BitVec.toInt_eq_toNat_cond, BitVec.toNat_neg, BitVec.toNat_ofNat,
    Nat.mod_eq_of_lt hlt]
  split <;> omega

/-! ## The quotient -/

/-- The high word of the product, with the dividend where the multiplier has the other sign than the divisor, shifted, and
rounded towards zero. -/
def magicQuotient (divisor : Int) (m : SignedMagic) (n : Int) : Int :=
  let q := m.multiplier.toInt * n / 2 ^ 32
  let q :=
    if 0 < divisor ∧ m.multiplier.toInt < 0 then q + n
    else if divisor < 0 ∧ 0 < m.multiplier.toInt then q - n
    else q
  let q := q / 2 ^ m.shift.toNat
  if q < 0 then q + 1 else q

def roundToZero (q : Int) : Int := if q < 0 then q + 1 else q

def signedProduct (divisor : BitVec 32) (p : Nat) (n : Int) : Int :=
  if divisor.toInt < 0 then -(n * magnitude divisor p) else n * magnitude divisor p

theorem Magic.high_eq {p : Nat} {m : SignedMagic} (hm : Magic divisor p m) (h : Valid divisor) (n : Int) :
    (if 0 < divisor.toInt ∧ m.multiplier.toInt < 0 then m.multiplier.toInt * n / 2 ^ 32 + n
      else if divisor.toInt < 0 ∧ 0 < m.multiplier.toInt then m.multiplier.toInt * n / 2 ^ 32 - n
      else m.multiplier.toInt * n / 2 ^ 32) = signedProduct divisor p n / 2 ^ 32 := by
  have hword : (2 : Int) ^ 32 ≠ 0 := by decide
  rw [signedProduct]
  rcases Int.lt_or_le divisor.toInt 0 with hneg | hnonneg
  · have hnot : ¬ 0 < divisor.toInt := Int.not_lt.mpr (Int.le_of_lt hneg)
    rw [if_neg (fun hpos => hnot hpos.1), if_pos hneg]
    rcases hm.toInt_of_neg h hneg with ⟨hsign, hvalue⟩ | ⟨hsign, hvalue⟩
    · have hprod : (2 ^ 32 - (magnitude divisor p : Int)) * n = -(n * magnitude divisor p) + n * 2 ^ 32 := by
        ring
      rw [if_pos ⟨hneg, hsign⟩, hvalue, hprod, Int.add_mul_ediv_right _ _ hword, Int.add_sub_cancel]
    · have hprod : -(magnitude divisor p : Int) * n = -(n * magnitude divisor p) := by
        ring
      rw [if_neg (fun hpos => Int.lt_irrefl _ (Int.lt_trans hsign hpos.2)), hvalue, hprod]
  · have hpos : 0 < divisor.toInt := by
      have htwo := h.1
      omega
    rw [if_neg (Int.not_lt.mpr hnonneg)]
    rcases hm.toInt_of_pos h hpos with ⟨hsign, hvalue⟩ | ⟨hsign, hvalue⟩
    · have hprod : ((magnitude divisor p : Int) - 2 ^ 32) * n = n * magnitude divisor p + -n * 2 ^ 32 := by
        ring
      rw [if_pos ⟨hpos, hsign⟩, hvalue, hprod, Int.add_mul_ediv_right _ _ hword, Int.neg_add_cancel_right]
    · rw [if_neg (fun hneg => Int.lt_irrefl _ (Int.lt_trans hsign hneg.2)),
        if_neg (fun hneg => Int.lt_irrefl _ (Int.lt_trans hpos hneg.1)), hvalue, Int.mul_comm]

theorem Magic.quotient_eq {p : Nat} {m : SignedMagic} (hm : Magic divisor p m) (h : Valid divisor) (n : Int) :
    magicQuotient divisor.toInt m n = roundToZero (signedProduct divisor p n / 2 ^ p) := by
  have hpow : (2 : Int) ^ p = 2 ^ 32 * 2 ^ (p - 32) := by
    rw [← pow_add, Nat.add_sub_cancel' hm.found.low]
  rw [hpow, ← Int.ediv_ediv_of_nonneg (by decide), ← hm.high_eq h, ← hm.shift]
  rfl

theorem roundToZero_eq_iff_of_pos (h : Valid divisor) (k p : Nat) :
    roundToZero ((k * magnitude divisor p : Nat) / (2 ^ p : Nat)) = (k / (ad divisor).toNat : Nat) ↔
      k % (ad divisor).toNat * 2 ^ p + k * delta (ad divisor).toNat p < (ad divisor).toNat * 2 ^ p := by
  have htwo := (bounds h).two_le
  rw [← mul_div_eq_iff (by omega) (Nat.two_pow_pos p) (magnitude_mul h p), ← Int.natCast_ediv, roundToZero,
    if_neg (Int.not_lt.mpr (Int.natCast_nonneg _)), Int.natCast_inj]

theorem roundToZero_eq_iff_of_neg (h : Valid divisor) {k : Nat} (hk : 0 < k) (p : Nat) :
    roundToZero (-(k * magnitude divisor p : Nat) / (2 ^ p : Nat)) = -(k / (ad divisor).toNat : Nat) ↔
      k % (ad divisor).toNat * 2 ^ p + k * delta (ad divisor).toNat p ≤ (ad divisor).toNat * 2 ^ p := by
  have htwo := (bounds h).two_le
  have hpos : 0 < (ad divisor).toNat := by
    omega
  have hlt : -((k * magnitude divisor p : Nat) : Int) / (2 ^ p : Nat) < 0 := by
    apply Int.ediv_neg_of_neg_of_pos
    · exact Int.neg_neg_of_pos (Int.natCast_pos.mpr (Nat.mul_pos hk (Nat.succ_pos _)))
    · exact Int.natCast_pos.mpr (Nat.two_pow_pos p)
  rw [← neg_mul_ediv_eq_iff hpos (Nat.two_pow_pos p) (delta_pos hpos p) hk (magnitude_mul h p), roundToZero, if_pos hlt]

/-- The error that a dividend may have: less where the signs are the same. -/
def Fits (divisor : BitVec 32) (p : Nat) (n : Int) : Prop :=
  if divisor.toInt < 0 ↔ n < 0 then
    n.natAbs % (ad divisor).toNat * 2 ^ p + n.natAbs * delta (ad divisor).toNat p < (ad divisor).toNat * 2 ^ p
  else n.natAbs % (ad divisor).toNat * 2 ^ p + n.natAbs * delta (ad divisor).toNat p ≤ (ad divisor).toNat * 2 ^ p

theorem Magic.quotient_eq_iff {p : Nat} {m : SignedMagic} (hm : Magic divisor p m) (h : Valid divisor) (n : Int) :
    magicQuotient divisor.toInt m n = n.tdiv divisor.toInt ↔ n = 0 ∨ Fits divisor p n := by
  obtain ⟨had, -⟩ := toNat_ad h
  have hpow : ((2 ^ p : Nat) : Int) = 2 ^ p := by
    exact_mod_cast rfl
  have htwo := h.1
  rw [hm.quotient_eq h, signedProduct, Fits]
  by_cases hzero : n = 0
  · subst hzero
    simp [roundToZero]
  rw [or_iff_right hzero, ← hpow]
  rcases Int.lt_or_le divisor.toInt 0 with hneg | hnonneg
  · have hd : divisor.toInt = -((ad divisor).toNat : Int) := by
      omega
    rw [if_pos hneg]
    rcases Int.lt_or_le n 0 with hn | hn
    · obtain ⟨k, rfl⟩ : ∃ k : Nat, n = -k := ⟨n.natAbs, by omega⟩
      rw [if_pos (iff_of_true hneg hn), hd, Int.neg_tdiv, Int.tdiv_neg, Int.neg_neg, Int.neg_mul, Int.neg_neg,
        Int.natAbs_neg, Int.natAbs_natCast, ← Int.ofNat_tdiv]
      exact roundToZero_eq_iff_of_pos h k p
    · obtain ⟨k, rfl⟩ : ∃ k : Nat, n = k := ⟨n.natAbs, by omega⟩
      rw [if_neg (fun hiff => Int.not_lt.mpr hn (hiff.mp hneg)), hd, Int.tdiv_neg, Int.natAbs_natCast, ← Int.ofNat_tdiv]
      exact roundToZero_eq_iff_of_neg h (by omega) p
  · have hd : divisor.toInt = (ad divisor).toNat := by
      omega
    rw [if_neg (Int.not_lt.mpr hnonneg)]
    rcases Int.lt_or_le n 0 with hn | hn
    · obtain ⟨k, rfl⟩ : ∃ k : Nat, n = -k := ⟨n.natAbs, by omega⟩
      rw [if_neg (fun hiff => Int.not_lt.mpr hnonneg (hiff.mpr hn)), hd, Int.neg_tdiv, Int.neg_mul, Int.natAbs_neg,
        Int.natAbs_natCast, ← Int.ofNat_tdiv]
      exact roundToZero_eq_iff_of_neg h (by omega) p
    · obtain ⟨k, rfl⟩ : ∃ k : Nat, n = k := ⟨n.natAbs, by omega⟩
      rw [if_pos (iff_of_false (Int.not_lt.mpr hnonneg) (Int.not_lt.mpr hn)), hd, Int.natAbs_natCast, ← Int.ofNat_tdiv]
      exact roundToZero_eq_iff_of_pos h k p

end Karphin.PowerPC.SignedDivision
