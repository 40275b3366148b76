import Karphin.Common.Crypto.Lemmas.Order

/-!
# What the functions on big numbers compute

Each is stated for the values of its operands. The sum is right when one operand is below the modulus and the other is not
above it; all that is built from it keeps to that.
-/

namespace Karphin.Common

open Lib

variable {a b N : List UInt8}

theorem bnCompare_eq : ∀ {a b : List UInt8}, a.length = b.length → bnCompare a b = compare (beValue a) (beValue b)
  | [], [], _ => rfl
  | x :: a, y :: b, h => by
      have hlen : a.length = b.length := Nat.succ.inj h
      have ha := beValue_lt a
      have hb := beValue_lt b
      rw [← hlen] at hb
      rw [bnCompare, bnCompare_eq hlen, beValue, beValue, ← hlen]
      rcases Nat.lt_trichotomy x.toNat y.toNat with hlt | heq | hgt
      · have hvalue : x.toNat * 256 ^ a.length + beValue a < y.toNat * 256 ^ a.length + beValue b := by
          have hstep : (x.toNat + 1) * 256 ^ a.length ≤ y.toNat * 256 ^ a.length := Nat.mul_le_mul_right _ hlt
          rw [Nat.succ_mul] at hstep
          omega
        rw [compare_lt_iff_lt.mpr hlt, compare_lt_iff_lt.mpr hvalue]
        rfl
      · rw [compare_eq_iff_eq.mpr heq, heq]
        simp [compare, compareOfLessAndEq]
      · have hvalue : y.toNat * 256 ^ a.length + beValue b < x.toNat * 256 ^ a.length + beValue a := by
          have hstep : (y.toNat + 1) * 256 ^ a.length ≤ x.toNat * 256 ^ a.length := Nat.mul_le_mul_right _ hgt
          rw [Nat.succ_mul] at hstep
          omega
        rw [compare_gt_iff_gt.mpr hgt, compare_gt_iff_gt.mpr hvalue]
        rfl

theorem bnCompare_ne_lt_iff (h : a.length = b.length) : bnCompare a b ≠ .lt ↔ beValue b ≤ beValue a := by
  rw [bnCompare_eq h, ne_eq, compare_lt_iff_lt, Nat.not_lt]

theorem bnCompare_eq_iff (h : a.length = b.length) : bnCompare a b = .eq ↔ a = b := by
  rw [bnCompare_eq h, compare_eq_iff_eq]
  constructor
  · exact beValue_inj h
  · intro hab
    rw [hab]

theorem bnSubLoop_value : ∀ {a N : List UInt8}, a.length = N.length →
    beValue (bnSubLoop a N).1 + beValue N = beValue a + (bnSubLoop a N).2 * 256 ^ N.length ∧ (bnSubLoop a N).2 ≤ 1
  | [], [], _ => ⟨rfl, Nat.zero_le _⟩
  | x :: a, y :: N, h => by
      have hlen : a.length = N.length := Nat.succ.inj h
      obtain ⟨ih, hc⟩ := bnSubLoop_value hlen
      have hrest : (bnSubLoop a N).1.length = N.length := bnSubModulus_length hlen
      have hx := UInt8.toNat_lt x
      have hy := UInt8.toNat_lt y
      have hbyte : (x - UInt8.ofNat (y.toNat + (bnSubLoop a N).2)).toNat + (y.toNat + (bnSubLoop a N).2) =
          x.toNat + (if x.toNat < y.toNat + (bnSubLoop a N).2 then 1 else 0) * 256 := by
        rw [UInt8.toNat_sub, UInt8.toNat_ofNat']
        split
        next => omega
        next => omega
      simp only [bnSubLoop, beValue, hrest, hlen, List.length_cons]
      refine ⟨?_, by split <;> omega⟩
      calc (x - UInt8.ofNat (y.toNat + (bnSubLoop a N).2)).toNat * 256 ^ N.length + beValue (bnSubLoop a N).1 +
            (y.toNat * 256 ^ N.length + beValue N)
          = (x - UInt8.ofNat (y.toNat + (bnSubLoop a N).2)).toNat * 256 ^ N.length + y.toNat * 256 ^ N.length +
              (beValue (bnSubLoop a N).1 + beValue N) := by ring
        _ = ((x - UInt8.ofNat (y.toNat + (bnSubLoop a N).2)).toNat + (y.toNat + (bnSubLoop a N).2)) * 256 ^ N.length +
              beValue a := by rw [ih]; ring
        _ = _ := by rw [hbyte]; ring

theorem bnAddLoop_value : ∀ {a b : List UInt8}, a.length = b.length →
    beValue (bnAddLoop a b).1 + (bnAddLoop a b).2 * 256 ^ a.length = beValue a + beValue b ∧ (bnAddLoop a b).2 ≤ 1
  | [], [], _ => ⟨rfl, Nat.zero_le _⟩
  | x :: a, y :: b, h => by
      have hlen : a.length = b.length := Nat.succ.inj h
      obtain ⟨ih, hc⟩ := bnAddLoop_value hlen
      have hrest : (bnAddLoop a b).1.length = a.length := bnAddLoop_length hlen
      have hx := UInt8.toNat_lt x
      have hy := UInt8.toNat_lt y
      have hbyte : (UInt8.ofNat (x.toNat + y.toNat + (bnAddLoop a b).2)).toNat +
          (if x.toNat + y.toNat + (bnAddLoop a b).2 ≥ 0x100 then 1 else 0) * 256 =
          x.toNat + y.toNat + (bnAddLoop a b).2 := by
        rw [UInt8.toNat_ofNat']
        split
        next => omega
        next => omega
      simp only [bnAddLoop, beValue, hrest, ← hlen, List.length_cons]
      refine ⟨?_, by split <;> omega⟩
      calc (UInt8.ofNat (x.toNat + y.toNat + (bnAddLoop a b).2)).toNat * 256 ^ a.length + beValue (bnAddLoop a b).1 +
            (if x.toNat + y.toNat + (bnAddLoop a b).2 ≥ 0x100 then 1 else 0) * 256 ^ (a.length + 1)
          = ((UInt8.ofNat (x.toNat + y.toNat + (bnAddLoop a b).2)).toNat +
              (if x.toNat + y.toNat + (bnAddLoop a b).2 ≥ 0x100 then 1 else 0) * 256) * 256 ^ a.length +
              beValue (bnAddLoop a b).1 := by ring
        _ = (x.toNat + y.toNat) * 256 ^ a.length +
              (beValue (bnAddLoop a b).1 + (bnAddLoop a b).2 * 256 ^ a.length) := by rw [hbyte]; ring
        _ = _ := by rw [ih]; ring

theorem bnSubModulus_value {v : Nat} (h : a.length = N.length) (hv : v < 256 ^ N.length)
    (hsum : beValue a = v + beValue N ∨ beValue a + 256 ^ N.length = v + beValue N) :
    beValue (bnSubModulus a N) = v := by
  obtain ⟨heq, hc⟩ := bnSubLoop_value h
  have hlen := bnSubModulus_length h
  have hlt := beValue_lt (bnSubModulus a N)
  have hN := beValue_lt N
  have ha := beValue_lt a
  rw [hlen] at hlt
  rw [h] at ha
  rw [← bnSubModulus] at heq
  rcases Nat.le_one_iff_eq_zero_or_eq_one.mp hc with h0 | h1
  · rw [h0] at heq
    omega
  · rw [h1] at heq
    omega

theorem bnReduce_value_of_lt (h : a.length = N.length) (hlt : beValue a < beValue N) : bnReduce a N = a := by
  rw [bnReduce, if_neg]
  rw [bnCompare_ne_lt_iff h]
  exact Nat.not_le.mpr hlt

theorem bnReduce_value_of_le (h : a.length = N.length) (hle : beValue N ≤ beValue a) :
    beValue (bnReduce a N) = beValue a - beValue N := by
  have ha := beValue_lt a
  rw [h] at ha
  rw [bnReduce, if_pos ((bnCompare_ne_lt_iff h).mpr hle)]
  apply bnSubModulus_value h
  · omega
  · omega

theorem bnReduce_value (h : a.length = N.length) (hlt : beValue a < 2 * beValue N) :
    beValue (bnReduce a N) = beValue a % beValue N := by
  rcases Nat.lt_or_ge (beValue a) (beValue N) with hsmall | hlarge
  · rw [bnReduce_value_of_lt h hsmall, Nat.mod_eq_of_lt hsmall]
  · rw [bnReduce_value_of_le h hlarge, Nat.mod_eq_sub_mod hlarge, Nat.mod_eq_of_lt (by omega)]

theorem bnAdd_value (ha : a.length = N.length) (hb : b.length = N.length) (halt : beValue a < beValue N)
    (hble : beValue b ≤ beValue N) : beValue (bnAdd a b N) = (beValue a + beValue b) % beValue N := by
  obtain ⟨hsum, hc⟩ := bnAddLoop_value (ha.trans hb.symm)
  have hlen : (bnAddLoop a b).1.length = N.length := by rw [bnAddLoop_length (ha.trans hb.symm), ha]
  have hN := beValue_lt N
  rw [ha] at hsum
  rcases Nat.le_one_iff_eq_zero_or_eq_one.mp hc with h0 | h1
  · rw [h0, Nat.zero_mul, Nat.add_zero] at hsum
    rw [bnAdd, h0, if_neg (by decide), bnReduce_value hlen (by omega), hsum]
  · rw [h1, Nat.one_mul] at hsum
    have hdiff : beValue (bnSubModulus (bnAddLoop a b).1 N) = beValue a + beValue b - beValue N := by
      apply bnSubModulus_value hlen
      · omega
      · omega
    have hmod : (beValue a + beValue b) % beValue N = beValue a + beValue b - beValue N := by
      rw [Nat.mod_eq_sub_mod (by omega), Nat.mod_eq_of_lt (by omega)]
    rw [bnAdd, h1, if_pos (by decide), bnReduce_value_of_lt (bnSubModulus_length hlen) (by omega), hdiff, hmod]

theorem beValue_bnZero (n : Nat) : beValue (bnZero n) = 0 := beValue_replicate_zero n

theorem beValue_bnByte (n : Nat) (v : UInt8) : beValue (bnByte n v) = v.toNat := by
  rw [bnByte, beValue_append, beValue_replicate_zero, Nat.zero_mul, Nat.zero_add]
  simp [beValue]

theorem bnMul_value (hb : b.length = N.length) (hpos : 0 < beValue N) (hble : beValue b ≤ beValue N) :
    beValue (bnMul a b N) = beValue a * beValue b % beValue N := by
  have hrun : (bnMul a b N).length = N.length ∧ beValue (bnMul a b N) = beValue a * beValue b % beValue N := by
    apply @binaryMethod_holds _ (fun d => bnAdd d d N) (fun d => bnAdd d b N)
      (fun n d => d.length = N.length ∧ beValue d = n * beValue b % beValue N)
    · rintro n d ⟨hd, hvalue⟩
      have hlt : beValue d < beValue N := hvalue ▸ Nat.mod_lt _ hpos
      refine ⟨bnAdd_length hd hd, ?_⟩
      rw [bnAdd_value hd hd hlt hlt.le, hvalue, ← Nat.add_mod, ← Nat.mul_two]
      congr 1
      ring
    · rintro n d ⟨hd, hvalue⟩
      have hlt : beValue d < beValue N := hvalue ▸ Nat.mod_lt _ hpos
      refine ⟨bnAdd_length hd hb, ?_⟩
      rw [bnAdd_value hd hb hlt hble, hvalue, Nat.mod_add_mod, Nat.succ_mul]
    · rw [Nat.zero_mul, Nat.zero_mod]
      exact ⟨bnZero_length _, beValue_bnZero _⟩
  exact hrun.2

theorem bnExp_value {e : List UInt8} (ha : a.length = N.length) (hN : 1 < beValue N) (hale : beValue a ≤ beValue N) :
    beValue (bnExp a N e) = beValue a ^ beValue e % beValue N := by
  have hpos : 0 < beValue N := Nat.zero_lt_of_lt hN
  have hlen : 0 < N.length := by
    apply List.length_pos_iff.mpr
    rintro rfl
    exact absurd hN (by decide)
  have hrun : (bnExp a N e).length = N.length ∧ beValue (bnExp a N e) = beValue a ^ beValue e % beValue N := by
    apply @binaryMethod_holds _ (fun d => bnMul d d N) (fun t => bnMul t a N)
      (fun n d => d.length = N.length ∧ beValue d = beValue a ^ n % beValue N)
    · rintro n d ⟨hd, hvalue⟩
      have hlt : beValue d < beValue N := hvalue ▸ Nat.mod_lt _ hpos
      refine ⟨bnMul_length _ hd, ?_⟩
      rw [bnMul_value hd hpos hlt.le, hvalue, ← Nat.mul_mod, ← pow_add, ← Nat.mul_two]
    · rintro n d ⟨_, hvalue⟩
      refine ⟨bnMul_length _ ha, ?_⟩
      rw [bnMul_value ha hpos hale, hvalue, Nat.mod_mul_mod, ← pow_succ]
    · refine ⟨bnByte_length hlen 1, ?_⟩
      rw [beValue_bnByte, pow_zero, Nat.mod_eq_of_lt hN]
      rfl
  exact hrun.2

theorem bnInv_value (ha : a.length = N.length) (hN : 2 ≤ beValue N) (hale : beValue a ≤ beValue N) :
    beValue (bnInv a N) = beValue a ^ (beValue N - 2) % beValue N := by
  have hlen : 0 < N.length := by
    apply List.length_pos_iff.mpr
    rintro rfl
    exact absurd hN (by decide)
  have htwo : beValue (bnByte N.length 2) = 2 := beValue_bnByte _ 2
  have hlt := beValue_lt N
  have hexp : beValue (bnSubModulus N (bnByte N.length 2)) = beValue N - 2 := by
    apply bnSubModulus_value (bnByte_length hlen 2).symm
    · rw [bnByte_length hlen]
      omega
    · rw [htwo]
      omega
  rw [bnInv, bnExp_value ha hN hale, hexp]

end Karphin.Common

/-!
# Signatures

A signature that `Sign` makes is accepted with its key. What is accepted is a signature when its halves are in range, which
`VerifySignature` does not check.
-/

namespace Karphin.Common.Ec

open Lib

/-! ## Numbers modulo the order -/

section

variable {a b : Elt}

theorem Elt.subOrder_data (a : Elt) : a.subOrder.data = bnReduce a.data ecN.data := rfl

theorem Elt.bnInv_data (a : Elt) : a.bnInv.data = Common.bnInv a.data ecN.data := by
  rw [Elt.bnInv]

theorem Elt.bnMul_value (a : Elt) (hb : b.value ≤ ecN.value) : (a.bnMul b).value = a.value * b.value % ecN.value :=
  Common.bnMul_value b.size ecN_prime.pos hb

theorem Elt.bnAdd_value (ha : a.value < ecN.value) (hb : b.value ≤ ecN.value) :
    (a.bnAdd b).value = (a.value + b.value) % ecN.value := Common.bnAdd_value a.size b.size ha hb

theorem Elt.bnInv_value (ha : a.value ≤ ecN.value) : a.bnInv.value = a.value ^ (ecN.value - 2) % ecN.value := by
  rw [Elt.value, Elt.bnInv_data]
  exact Common.bnInv_value a.size ecN_prime.two_le ha

theorem Elt.bnMul_lt (a : Elt) (hb : b.value ≤ ecN.value) : (a.bnMul b).value < ecN.value := by
  rw [Elt.bnMul_value a hb]
  exact Nat.mod_lt _ ecN_prime.pos

theorem Elt.bnInv_lt (ha : a.value ≤ ecN.value) : a.bnInv.value < ecN.value := by
  rw [Elt.bnInv_value ha]
  exact Nat.mod_lt _ ecN_prime.pos

theorem Elt.subOrder_of_lt (ha : a.value < ecN.value) : a.subOrder = a := by
  apply Elt.value_injective
  rw [Elt.value, Elt.subOrder_data, bnReduce_value_of_lt a.size ha]
  rfl

theorem two_pow_lt : 2 ^ 233 < 2 * ecN.value := by
  rw [ecN_eq]
  decide

theorem Elt.subOrder_value (ha : a.Reduced) : a.subOrder.value = a.value % ecN.value :=
  bnReduce_value a.size (Nat.lt_trans ha two_pow_lt)

theorem Elt.subOrder_mod (a : Elt) : a.subOrder.value % ecN.value = a.value % ecN.value := by
  rcases Nat.lt_or_ge a.value ecN.value with hlt | hge
  · rw [Elt.subOrder_of_lt hlt]
  · have hvalue : a.subOrder.value = a.value - ecN.value := bnReduce_value_of_le a.size hge
    rw [hvalue, ← Nat.mod_eq_sub_mod hge]

theorem Hash.e_lt (hash : Hash) : hash.e.value < ecN.value := by
  have hlt := beValue_lt hash.data
  have hvalue : hash.e.value = beValue hash.data := by
    rw [Elt.value, Hash.e, beValue_append, beValue_bnZero, Nat.zero_mul, Nat.zero_add]
  rw [hash.size] at hlt
  rw [hvalue, ecN_eq]
  exact Nat.lt_trans hlt (by decide)

abbrev Scalar := ZMod ecN.value

theorem scalar_inv {n : Nat} (h : (n : Scalar) ≠ 0) : (n : Scalar) ^ (ecN.value - 2) = (n : Scalar)⁻¹ := by
  apply eq_inv_of_mul_eq_one_left
  have hsucc : ecN.value - 2 + 1 = ecN.value - 1 := by
    have htwo := ecN_prime.two_le
    omega
  rw [← pow_succ, hsucc]
  exact ZMod.pow_card_sub_one_eq_one h

theorem scalar_ne_zero {n : Nat} (hpos : 0 < n) (hlt : n < ecN.value) : (n : Scalar) ≠ 0 := by
  rw [ne_eq, ZMod.natCast_eq_zero_iff]
  exact Nat.not_dvd_of_pos_of_lt hpos hlt

theorem cast_bnMul (a : Elt) (hb : b.value ≤ ecN.value) : ((a.bnMul b).value : Scalar) = a.value * b.value := by
  rw [Elt.bnMul_value a hb, ZMod.natCast_mod, Nat.cast_mul]

theorem cast_bnInv (hpos : 0 < a.value) (hlt : a.value < ecN.value) : (a.bnInv.value : Scalar) = (a.value : Scalar)⁻¹ := by
  rw [Elt.bnInv_value hlt.le, ZMod.natCast_mod, Nat.cast_pow, scalar_inv (scalar_ne_zero hpos hlt)]

end

/-! ## What is verified -/

def verifyPoint (publicKey : Point) (signature : Signature) (hash : Hash) : Point :=
  (Point.smul (hash.e.bnMul signature.s.bnInv) ecG).add (Point.smul (signature.r.bnMul signature.s.bnInv) publicKey)

theorem verifySignature_iff {publicKey : Point} {signature : Signature} {hash : Hash} :
    verifySignature publicKey signature hash = true ↔
      (verifyPoint publicKey signature hash).x.subOrder.value = signature.r.value := by
  have hcode : verifySignature publicKey signature hash =
      decide (bnCompare (verifyPoint publicKey signature hash).x.subOrder.data signature.r.data = .eq) := by
    rw [verifySignature, verifyPoint]
  rw [hcode, decide_eq_true_iff, bnCompare_eq_iff ((verifyPoint publicKey signature hash).x.subOrder.size.trans signature.r.size.symm)]
  constructor
  · exact congrArg beValue
  · exact beValue_inj ((verifyPoint publicKey signature hash).x.subOrder.size.trans signature.r.size.symm)

theorem nonce_eq {e r k m s w1 w2 : Scalar} (hm : m ≠ 0) (hs : s ≠ 0) (hsign : s = m⁻¹ * (r * k + e)) (h1 : w1 = e * s⁻¹)
    (h2 : w2 = r * s⁻¹) : w1 + w2 * k = m := by
  have hsum : r * k + e = m * s := by
    rw [hsign, mul_inv_cancel_left₀ hm]
  calc w1 + w2 * k = (r * k + e) * s⁻¹ := by rw [h1, h2]; ring
    _ = m := by rw [hsum, mul_inv_cancel_right₀ hs]

theorem signWith_s {key m : Elt} (hash : Hash) (hkey : key.value < ecN.value)
    (hm : 0 < m.value ∧ m.value < ecN.value) :
    (signWith key hash m).s.value < ecN.value ∧ ((signWith key hash m).s.value : Scalar) =
      (m.value : Scalar)⁻¹ * ((signWith key hash m).r.value * key.value + hash.e.value) := by
  have hdata : (signWith key hash m).s =
      m.bnInv.bnMul (((signWith key hash m).r.bnMul key.subOrder).bnAdd hash.e) := rfl
  generalize signWith key hash m = signature at hdata ⊢
  rw [Elt.subOrder_of_lt hkey] at hdata
  have hrk := Elt.bnMul_lt signature.r hkey.le
  have hsum : ((signature.r.bnMul key).bnAdd hash.e).value < ecN.value := by
    rw [Elt.bnAdd_value hrk hash.e_lt.le]
    exact Nat.mod_lt _ ecN_prime.pos
  rw [hdata]
  refine ⟨Elt.bnMul_lt _ hsum.le, ?_⟩
  rw [cast_bnMul _ hsum.le, cast_bnInv hm.1 hm.2, Elt.bnAdd_value hrk hash.e_lt.le, ZMod.natCast_mod, Nat.cast_add,
    cast_bnMul _ hkey.le]

theorem verifySignature_signWith {key m : Elt} {hash : Hash} (hkey : key.value < ecN.value)
    (hm : 0 < m.value ∧ m.value < ecN.value) (hs : (signWith key hash m).s.value ≠ 0) :
    verifySignature (privToPub key) (signWith key hash m) hash = true := by
  have hnonce : Represents (Point.smul m ecG) (m.value • basePoint) := ecG_represents.smul m
  have hr : (signWith key hash m).r = (Point.smul m ecG).x.subOrder := rfl
  obtain ⟨hslt, hscast⟩ := signWith_s hash hkey hm
  generalize signWith key hash m = signature at hs hr hslt hscast ⊢
  have hspos : 0 < signature.s.value := Nat.pos_of_ne_zero hs
  have hsinv := Elt.bnInv_lt hslt.le
  have hw1 : ((hash.e.bnMul signature.s.bnInv).value : Scalar) = hash.e.value * (signature.s.value : Scalar)⁻¹ := by
    rw [cast_bnMul _ hsinv.le, cast_bnInv hspos hslt]
  have hw2 : ((signature.r.bnMul signature.s.bnInv).value : Scalar) =
      signature.r.value * (signature.s.value : Scalar)⁻¹ := by
    rw [cast_bnMul _ hsinv.le, cast_bnInv hspos hslt]
  have hsame : ((hash.e.bnMul signature.s.bnInv).value + (signature.r.bnMul signature.s.bnInv).value * key.value) %
      ecN.value = m.value % ecN.value := by
    rw [← ZMod.natCast_eq_natCast_iff', Nat.cast_add, Nat.cast_mul]
    exact nonce_eq (scalar_ne_zero hm.1 hm.2) (scalar_ne_zero hspos hslt) hscast hw1 hw2
  have hpoint : Represents (verifyPoint (privToPub key) signature hash) (m.value • basePoint) := by
    have hadd := (ecG_represents.smul (hash.e.bnMul signature.s.bnInv)).add
      ((ecG_represents.smul key).smul (signature.r.bnMul signature.s.bnInv))
    rwa [← mul_nsmul', ← add_nsmul, ← smul_mod, hsame, smul_mod] at hadd
  rw [verifySignature_iff, hpoint.unique hnonce, hr]

theorem drawNonce_lt : ∀ {draws : List Elt} {m : Elt}, drawNonce draws = some m → m.value < ecN.value
  | [], _, h => by cases h
  | draw :: draws, m, h => by
      rw [drawNonce] at h
      split at h
      next => exact drawNonce_lt h
      next hlt =>
        cases h
        rw [bnCompare_ne_lt_iff (Elt.size _)] at hlt
        exact Nat.not_le.mp hlt

/-- What is signed is accepted with the key of the signer. That `r` is not zero is not needed. -/
theorem verifySignature_sign {key m : Elt} {hash : Hash} {draws : List Elt} {signature : Signature}
    (hkey : 0 < key.value ∧ key.value < ecN.value) (hdraw : drawNonce draws = some m) (hm : 0 < m.value)
    (hsign : sign key hash draws = some signature) (hs : signature.s.value ≠ 0) :
    verifySignature (privToPub key) signature hash = true := by
  rw [sign, hdraw, Option.map_some, Option.some.injEq] at hsign
  subst hsign
  exact verifySignature_signWith hkey.2 ⟨hm, drawNonce_lt hdraw⟩ hs

def eltOne : Elt := ⟨bnByte 30 1, rfl⟩

def zeroHash : Hash := ⟨bnZero 20, rfl⟩

theorem verifySignature_sign_one :
    verifySignature (privToPub eltOne) (signWith eltOne zeroHash eltOne) zeroHash = true := by
  have hone : eltOne.value = 1 := by decide
  have hzero : zeroHash.e.value = 0 := by decide
  have hlt : 1 < ecN.value := ecN_prime.one_lt
  have hrange : 0 < eltOne.value ∧ eltOne.value < ecN.value := by
    rw [hone]
    exact ⟨Nat.one_pos, hlt⟩
  have hr : (signWith eltOne zeroHash eltOne).r.value = ecG.x.value % ecN.value := by
    have hbase := ecG_represents.smul eltOne
    rw [hone, one_nsmul] at hbase
    have hpoint := hbase.unique ecG_represents
    have hdata : (signWith eltOne zeroHash eltOne).r = (Point.smul eltOne ecG).x.subOrder := rfl
    rw [hdata, hpoint, Elt.subOrder_value ecG_x_reduced]
  have hs : (signWith eltOne zeroHash eltOne).s.value ≠ 0 := by
    obtain ⟨_, hcast⟩ := signWith_s zeroHash hrange.2 hrange
    intro hs
    rw [hs, hr, hone, hzero, ZMod.natCast_mod, Nat.cast_one, Nat.cast_zero, inv_one, one_mul, mul_one, add_zero] at hcast
    have hne : (ecG.x.value : Scalar) ≠ 0 := scalar_ne_zero (by decide) (by decide)
    exact hne hcast.symm
  have hdraw : drawNonce [eltOne] = some eltOne := by decide
  exact verifySignature_sign hrange hdraw hrange.1 (by rw [sign, hdraw, Option.map_some]) hs

/-! ## What is accepted -/

/-- A signature of the hash with the key: the halves are in range, and the first is the abscissa of the point
`(e / s) * G + (r / s) * Q`, modulo the order. -/
def Genuine (publicKey : Point) (signature : Signature) (hash : Hash) : Prop :=
  (0 < signature.r.value ∧ signature.r.value < ecN.value) ∧ (0 < signature.s.value ∧ signature.s.value < ecN.value) ∧
    ∃ w1 w2 : Elt, w1.value < ecN.value ∧ w2.value < ecN.value ∧
      (w1.value : Scalar) = (hash.e.value : Scalar) / signature.s.value ∧
      (w2.value : Scalar) = (signature.r.value : Scalar) / signature.s.value ∧
      (signature.r.value : Scalar) = ((Point.smul w1 ecG).add (Point.smul w2 publicKey)).x.value

/-- The number and the coordinates are no larger than they can be, and what is signed is not nothing. -/
def Checkable (publicKey : Point) (signature : Signature) (hash : Hash) : Prop :=
  signature.s.value ≤ ecN.value ∧ (signature.r.value < ecN.value ∨ publicKey.Reduced) ∧
    ¬ (signature.r.value = 0 ∧
      (signature.s.value = 0 ∨ signature.s.value = ecN.value ∨ hash.e.value = 0))

set_option maxRecDepth 4000 in
theorem Point.smul_of_zero {a : Elt} (ha : a.value = 0) (p : Point) : Point.smul a p = Point.zero := by
  have hzero : a = Elt.zero := Elt.value_injective (ha.trans Elt.value_zero.symm)
  have hbits : bytesBits Elt.zero.data = List.replicate 240 false := by decide
  have hdouble : Point.zero.double = Point.zero := by decide
  have hrun : ∀ n, binaryMethod Point.double (·.add p) Point.zero (List.replicate n false) = Point.zero := by
    intro n
    induction n with
    | zero => rfl
    | succ n ih =>
        have hstep : binaryMethod Point.double (·.add p) Point.zero (List.replicate (n + 1) false) =
            binaryMethod Point.double (·.add p) Point.zero.double (List.replicate n false) := rfl
        rw [hstep, hdouble, ih]
  rw [Point.smul, hzero, hbits, hrun]

theorem Point.add_zero (p : Point) : p.add Point.zero = p := by
  have hzero : Point.zero.isZero = true := by decide
  by_cases h : p.isZero = true
  · have hp : p = Point.zero := by
      rw [Point.isZero, Bool.and_eq_true] at h
      have hx := Elt.eq_zero_of_isZero h.1
      have hy := Elt.eq_zero_of_isZero h.2
      cases p
      rw [Point.zero, Point.mk.injEq]
      exact ⟨hx, hy⟩
    rw [Point.add, if_pos h, hp]
  · rw [Point.add, if_neg h, if_pos hzero]

theorem verifyPoint_of_dvd {publicKey : Point} {signature : Signature} {hash : Hash}
    (h : signature.s.value = 0 ∨ signature.s.value = ecN.value) :
    verifyPoint publicKey signature hash = Point.zero := by
  have hle : signature.s.value ≤ ecN.value := by omega
  have htwo : ecN.value - 2 ≠ 0 := by
    rw [ecN_eq]
    decide
  have hpower : ∀ n, n ≠ 0 → signature.s.value ^ n % ecN.value = 0 := by
    intro n hn
    rcases h with hzero | horder
    · rw [hzero, Nat.zero_pow (Nat.pos_of_ne_zero hn), Nat.zero_mod]
    · rw [horder]
      exact Nat.mod_eq_zero_of_dvd (dvd_pow_self _ hn)
  have hinv : signature.s.bnInv.value = 0 := by rw [Elt.bnInv_value hle, hpower _ htwo]
  have hmul : ∀ a : Elt, (a.bnMul signature.s.bnInv).value = 0 := by
    intro a
    rw [Elt.bnMul_value a (by rw [hinv]; exact Nat.zero_le _), hinv, Nat.mul_zero, Nat.zero_mod]
  rw [verifyPoint, Point.smul_of_zero (hmul _), Point.smul_of_zero (hmul _), Point.add_zero]

theorem zero_subOrder : Point.zero.x.subOrder.value = 0 := by decide

theorem verifyPoint_of_zero {publicKey : Point} {signature : Signature} {hash : Hash}
    (hs : signature.s.value < ecN.value) (hr : signature.r.value = 0) (he : hash.e.value = 0) :
    verifyPoint publicKey signature hash = Point.zero := by
  have hinv := (Elt.bnInv_lt hs.le).le
  have hmul : ∀ a : Elt, a.value = 0 → (a.bnMul signature.s.bnInv).value = 0 := by
    intro a ha
    rw [Elt.bnMul_value a hinv, ha, Nat.zero_mul, Nat.zero_mod]
  rw [verifyPoint, Point.smul_of_zero (hmul _ he), Point.smul_of_zero (hmul _ hr), Point.add_zero]

theorem verifyPoint_reduced {publicKey : Point} (h : publicKey.Reduced) (signature : Signature) (hash : Hash) :
    (verifyPoint publicKey signature hash).Reduced :=
  Point.add_reduced (Point.smul_reduced ecG_represents.reduced _) (Point.smul_reduced h _)

theorem genuine_of_range {publicKey : Point} {signature : Signature} {hash : Hash}
    (hr : 0 < signature.r.value ∧ signature.r.value < ecN.value)
    (hs : 0 < signature.s.value ∧ signature.s.value < ecN.value)
    (h : verifySignature publicKey signature hash = true) : Genuine publicKey signature hash := by
  have hsinv := (Elt.bnInv_lt hs.2.le).le
  refine ⟨hr, hs, hash.e.bnMul signature.s.bnInv, signature.r.bnMul signature.s.bnInv, Elt.bnMul_lt _ hsinv,
    Elt.bnMul_lt _ hsinv, ?_, ?_, ?_⟩
  · rw [cast_bnMul _ hsinv, cast_bnInv hs.1 hs.2, div_eq_mul_inv]
  · rw [cast_bnMul _ hsinv, cast_bnInv hs.1 hs.2, div_eq_mul_inv]
  · rw [verifySignature_iff] at h
    have hmod := Elt.subOrder_mod (verifyPoint publicKey signature hash).x
    rw [h, ← ZMod.natCast_eq_natCast_iff'] at hmod
    exact hmod

theorem verifySignature_of_r_zero {publicKey : Point} {signature : Signature} {hash : Hash}
    (hr : signature.r.value = 0) (hs : 0 < signature.s.value ∧ signature.s.value < ecN.value) (he : hash.e.value ≠ 0) :
    verifySignature publicKey signature hash ≠ true := by
  have hsinv := (Elt.bnInv_lt hs.2.le).le
  have hw2 : (signature.r.bnMul signature.s.bnInv).value = 0 := by
    rw [Elt.bnMul_value _ hsinv, hr, Nat.zero_mul, Nat.zero_mod]
  have hw1 : ¬ ecN.value ∣ (hash.e.bnMul signature.s.bnInv).value := by
    rw [← ZMod.natCast_eq_zero_iff, cast_bnMul _ hsinv, cast_bnInv hs.1 hs.2]
    exact mul_ne_zero (scalar_ne_zero (Nat.pos_of_ne_zero he) hash.e_lt)
      (inv_ne_zero (scalar_ne_zero hs.1 hs.2))
  have hpoint : Represents (verifyPoint publicKey signature hash)
      ((hash.e.bnMul signature.s.bnInv).value • basePoint) := by
    rw [verifyPoint, Point.smul_of_zero hw2, Point.add_zero]
    exact ecG_represents.smul _
  rw [ne_eq, verifySignature_iff, hr, Elt.subOrder_value hpoint.reduced.1]
  exact abscissa_mod_ne_zero hpoint hw1

/-- For an `s` that is not above the order, what is accepted is a signature except when there is nothing in it. -/
theorem verifySignature_genuine (publicKey : Point) (signature : Signature) (hash : Hash) :
    (Checkable publicKey signature hash → verifySignature publicKey signature hash = true →
      Genuine publicKey signature hash) ∧
    (signature.s.value ≤ ecN.value → signature.r.value < ecN.value ∨ publicKey.Reduced →
      (verifySignature publicKey signature hash = true → Genuine publicKey signature hash) →
      Checkable publicKey signature hash) := by
  constructor
  · rintro ⟨hs, hr, hsomething⟩ h
    have hequal := verifySignature_iff.mp h
    by_cases hsrange : 0 < signature.s.value ∧ signature.s.value < ecN.value
    · by_cases hr0 : signature.r.value = 0
      · have he : hash.e.value ≠ 0 := fun he => hsomething ⟨hr0, Or.inr (Or.inr he)⟩
        exact absurd h (verifySignature_of_r_zero hr0 hsrange he)
      · have hrlt : signature.r.value < ecN.value := by
          rcases hr with hlt | hreduced
          · exact hlt
          · rw [← hequal, Elt.subOrder_value (verifyPoint_reduced hreduced signature hash).1]
            exact Nat.mod_lt _ ecN_prime.pos
        exact genuine_of_range ⟨Nat.pos_of_ne_zero hr0, hrlt⟩ hsrange h
    · have hsbound : signature.s.value = 0 ∨ signature.s.value = ecN.value := by omega
      rw [verifyPoint_of_dvd hsbound, zero_subOrder] at hequal
      exact absurd ⟨hequal.symm, by omega⟩ hsomething
  · intro hs hr hsound
    refine ⟨hs, hr, fun hnothing => ?_⟩
    have hpoint : verifyPoint publicKey signature hash = Point.zero := by
      rcases Nat.lt_or_eq_of_le hs with hlt | horder
      · rcases hnothing.2 with hzero | horder | he
        · exact verifyPoint_of_dvd (Or.inl hzero)
        · exact verifyPoint_of_dvd (Or.inr horder)
        · exact verifyPoint_of_zero hlt hnothing.1 he
      · exact verifyPoint_of_dvd (Or.inr horder)
    have haccepted : verifySignature publicKey signature hash = true := by
      rw [verifySignature_iff, hpoint, zero_subOrder, hnothing.1]
    have hpos := (hsound haccepted).1.1
    rw [hnothing.1] at hpos
    exact absurd hpos (Nat.lt_irrefl 0)

theorem verifySignature_zero (publicKey : Point) (hash : Hash) :
    verifySignature publicKey ⟨Elt.zero, Elt.zero⟩ hash = true ∧ ¬ Genuine publicKey ⟨Elt.zero, Elt.zero⟩ hash := by
  have hpoint := @verifyPoint_of_dvd publicKey ⟨Elt.zero, Elt.zero⟩ hash (Or.inl Elt.value_zero)
  constructor
  · rw [verifySignature_iff, hpoint, zero_subOrder, Elt.value_zero]
  · intro h
    have hpos := h.1.1
    rw [Elt.value_zero] at hpos
    exact absurd hpos (Nat.lt_irrefl 0)

theorem verifySignature_zero_base : ¬ (verifySignature ecG ⟨Elt.zero, Elt.zero⟩ zeroHash = true →
    Genuine ecG ⟨Elt.zero, Elt.zero⟩ zeroHash) := by
  intro h
  obtain ⟨haccepted, hnot⟩ := verifySignature_zero ecG zeroHash
  exact hnot (h haccepted)

end Karphin.Common.Ec
