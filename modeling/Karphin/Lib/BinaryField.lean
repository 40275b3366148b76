import Karphin.Lib.BinaryMethod

/-!
# Fields of characteristic 2

The field of bits modulo `X ^ m + X ^ k + 1`, when `m` is a prime and the root is fixed by the `m`-th power of Frobenius.
-/

namespace Karphin.Lib

open Polynomial

noncomputable def trinomial (m k : Nat) : (ZMod 2)[X] := X ^ m + X ^ k + 1

variable {m k : Nat}

theorem trinomial_tail_degree (hk : k < m) : (X ^ k + 1 : (ZMod 2)[X]).degree < m := by
  apply lt_of_le_of_lt (degree_add_le _ _)
  rw [degree_X_pow, degree_one, max_lt_iff]
  exact ⟨Nat.cast_lt.mpr hk, Nat.cast_pos.mpr (Nat.zero_lt_of_lt hk)⟩

theorem trinomial_monic (hk : k < m) : (trinomial m k).Monic := by
  rw [trinomial, add_assoc]
  exact monic_X_pow_add (trinomial_tail_degree hk)

theorem trinomial_natDegree (hk : k < m) : (trinomial m k).natDegree = m := by
  rw [trinomial, add_assoc, natDegree_add_eq_left_of_degree_lt, natDegree_X_pow]
  rw [degree_X_pow]
  exact trinomial_tail_degree hk

theorem trinomial_degree_ne_zero (hk : k < m) : (trinomial m k).degree ≠ 0 := by
  rw [degree_eq_natDegree (trinomial_monic hk).ne_zero, trinomial_natDegree hk, ne_eq, Nat.cast_eq_zero]
  exact Nat.ne_zero_of_lt hk

theorem eval₂_trinomial {R : Type} [CommRing R] (i : ZMod 2 →+* R) (x : R) :
    (trinomial m k).eval₂ i x = x ^ m + x ^ k + 1 := by
  simp [trinomial, eval₂_add, eval₂_X_pow]

theorem charP_adjoinRoot {f : (ZMod 2)[X]} (hf : f.degree ≠ 0) : CharP (AdjoinRoot f) 2 := by
  have : Nontrivial (AdjoinRoot f) := AdjoinRoot.nontrivial f hf
  exact charP_of_injective_ringHom (AdjoinRoot.of f).injective 2

theorem trinomial_root (hk : k < m) :
    AdjoinRoot.root (trinomial m k) ^ m = AdjoinRoot.root (trinomial m k) ^ k + 1 := by
  have : CharP (AdjoinRoot (trinomial m k)) 2 := charP_adjoinRoot (trinomial_degree_ne_zero hk)
  have h := AdjoinRoot.eval₂_root (trinomial m k)
  rw [eval₂_trinomial, add_assoc] at h
  exact CharTwo.add_eq_zero.mp h

/-! ## Irreducibility -/

section

variable {g : (ZMod 2)[X]}

theorem finite_adjoinRoot (hg : g ≠ 0) : Finite (AdjoinRoot g) :=
  have : Module.Finite (ZMod 2) (AdjoinRoot g) := (AdjoinRoot.powerBasis hg).finite
  Module.finite_of_finite (ZMod 2)

theorem card_adjoinRoot (hg : g ≠ 0) : Nat.card (AdjoinRoot g) = 2 ^ g.natDegree := by
  have : Module.Finite (ZMod 2) (AdjoinRoot g) := (AdjoinRoot.powerBasis hg).finite
  rw [Module.natCard_eq_pow_finrank (K := ZMod 2), Nat.card_zmod, (AdjoinRoot.powerBasis hg).finrank,
    AdjoinRoot.powerBasis_dim]

theorem iterate_square {R : Type} [Monoid R] (n : Nat) (x : R) : (fun y : R => y ^ 2)^[n] x = x ^ 2 ^ n := by
  induction n with
  | zero => rw [Function.iterate_zero_apply, Nat.pow_zero, pow_one]
  | succ n ih => rw [Function.iterate_succ_apply', ih, ← pow_mul, ← Nat.pow_succ]

theorem isPeriodicPt_square {R : Type} [Monoid R] {n : Nat} {x : R} :
    Function.IsPeriodicPt (fun y : R => y ^ 2) n x ↔ x ^ 2 ^ n = x := by
  rw [Function.IsPeriodicPt, Function.IsFixedPt, iterate_square]

theorem pow_two_pow_natDegree [Fact (Irreducible g)] (x : AdjoinRoot g) : x ^ 2 ^ g.natDegree = x := by
  have hg : g ≠ 0 := (Fact.out : Irreducible g).ne_zero
  have := finite_adjoinRoot hg
  have := Fintype.ofFinite (AdjoinRoot g)
  rw [← card_adjoinRoot hg, Nat.card_eq_fintype_card]
  exact FiniteField.pow_card x

theorem irreducible_trinomial (hm : m.Prime) (hk0 : 0 < k) (hk : k < m)
    (hroot : AdjoinRoot.root (trinomial m k) ^ 2 ^ m = AdjoinRoot.root (trinomial m k)) :
    Irreducible (trinomial m k) := by
  have hdegree := trinomial_natDegree hk
  have hne := (trinomial_monic hk).ne_zero
  obtain ⟨g, hg, hdvd⟩ := exists_irreducible_of_natDegree_pos (by rw [hdegree]; exact hm.pos)
  have : Fact (Irreducible g) := ⟨hg⟩
  have hzero : (trinomial m k).eval₂ (AdjoinRoot.of g) (AdjoinRoot.root g) = 0 := by
    obtain ⟨q, hq⟩ := hdvd
    rw [hq, eval₂_mul, AdjoinRoot.eval₂_root, zero_mul]
  have hm' : AdjoinRoot.root g ^ 2 ^ m = AdjoinRoot.root g := by
    have h := congrArg (AdjoinRoot.lift (AdjoinRoot.of g) (AdjoinRoot.root g) hzero) hroot
    rwa [map_pow, AdjoinRoot.lift_root] at h
  have hle : g.natDegree ≤ m := hdegree ▸ natDegree_le_of_dvd hdvd hne
  rcases Nat.eq_or_lt_of_le hle with heq | hlt
  · have hassoc := associated_of_dvd_of_natDegree_le hdvd hne (by rw [hdegree, heq])
    exact hassoc.irreducible hg
  · have hcoprime : m.gcd g.natDegree = 1 := by
      rw [← Nat.coprime_iff_gcd_eq_one, Nat.Prime.coprime_iff_not_dvd hm]
      intro hdiv
      exact absurd (Nat.le_of_dvd hg.natDegree_pos hdiv) (Nat.not_le.mpr hlt)
    have hfixed := (isPeriodicPt_square.mpr hm').gcd (isPeriodicPt_square.mpr (pow_two_pow_natDegree _))
    rw [hcoprime, isPeriodicPt_square] at hfixed
    have htwo : CharP (AdjoinRoot g) 2 := charP_adjoinRoot hg.degree_pos.ne'
    have hcases : AdjoinRoot.root g = 0 ∨ AdjoinRoot.root g = 1 := by
      rw [Nat.pow_one, pow_two] at hfixed
      exact IsIdempotentElem.iff_eq_zero_or_one.mp hfixed
    rw [eval₂_trinomial] at hzero
    rcases hcases with h | h
    · rw [h, zero_pow hm.ne_zero, zero_pow hk0.ne'] at hzero
      simp at hzero
    · rw [h, one_pow, one_pow, CharTwo.add_self_eq_zero, zero_add] at hzero
      exact absurd hzero one_ne_zero

end

/-! ## Elements by their bits -/

section

variable {R : Type} [CommRing R] [CharP R 2] {x : R}

theorem horner_xor : ∀ {as bs : List Bool}, as.length = bs.length →
    horner x (as.zipWith (· ^^ ·) bs) = horner x as + horner x bs
  | [], [], _ => (add_zero 0).symm
  | a :: as, b :: bs, h => by
      have hlen : as.length = bs.length := Nat.succ.inj h
      have hbit : (if a ^^ b then 1 else 0 : R) = (if a then 1 else 0) + if b then 1 else 0 := by
        cases a <;> cases b <;> simp [CharTwo.add_self_eq_zero]
      rw [List.zipWith_cons_cons, horner_cons, horner_cons, horner_cons, horner_xor hlen, List.length_zipWith, hlen,
        Nat.min_self, hbit]
      ring

def spread (bits : List Bool) : List Bool := bits.flatMap fun bit => [false, bit]

theorem spread_length (bits : List Bool) : (spread bits).length = 2 * bits.length := by
  induction bits with
  | nil => rfl
  | cons bit bits ih =>
      rw [spread, List.flatMap_cons, List.length_append, ← spread, ih, List.length_cons, List.length_cons,
        List.length_cons, List.length_nil]
      ring

theorem horner_spread (bits : List Bool) : horner x (spread bits) = horner x bits ^ 2 := by
  induction bits with
  | nil => exact (zero_pow two_ne_zero).symm
  | cons bit bits ih =>
      have hbit : (if bit then 1 else 0 : R) ^ 2 = if bit then 1 else 0 := by
        cases bit <;> simp
      have hfront : horner x [false, bit] = if bit then 1 else 0 := by
        simp [horner]
      rw [horner_cons, CharTwo.add_sq, mul_pow, hbit, spread, List.flatMap_cons, ← spread, horner_append, ih, hfront,
        spread_length, ← pow_mul, Nat.mul_comm 2]

end

theorem horner_X_degree (bits : List Bool) : (horner (X : (ZMod 2)[X]) bits).degree < bits.length := by
  induction bits with
  | nil => simp [horner]
  | cons bit bits ih =>
      have htail : (horner (X : (ZMod 2)[X]) bits).degree < (bits.length + 1 : Nat) :=
        lt_of_lt_of_le ih (by exact_mod_cast Nat.le_succ _)
      have hhead : ((if bit then 1 else 0) * X ^ bits.length : (ZMod 2)[X]).degree < (bits.length + 1 : Nat) := by
        cases bit with
        | true =>
            rw [if_pos rfl, one_mul, degree_X_pow]
            exact_mod_cast Nat.lt_succ_self _
        | false => simp
      rw [horner_cons, List.length_cons]
      exact lt_of_le_of_lt (degree_add_le _ _) (max_lt hhead htail)

theorem horner_X_inj : ∀ {as bs : List Bool}, as.length = bs.length →
    horner (X : (ZMod 2)[X]) as = horner X bs → as = bs
  | [], [], _, _ => rfl
  | a :: as, b :: bs, hlen, h => by
      have hlen' : as.length = bs.length := Nat.succ.inj hlen
      have hcoeff : ∀ (c : Bool) (cs : List Bool),
          (horner (X : (ZMod 2)[X]) (c :: cs)).coeff cs.length = if c then 1 else 0 := by
        intro c cs
        rw [horner_cons, coeff_add, coeff_eq_zero_of_degree_lt (horner_X_degree cs), add_zero]
        cases c <;> simp
      have hhead : a = b := by
        have hbits := hcoeff a as
        rw [h, hlen', hcoeff b bs] at hbits
        revert hbits
        cases a <;> cases b <;> simp
      rw [hhead, horner_cons, horner_cons, hlen'] at h
      rw [hhead, horner_X_inj hlen' (add_left_cancel h)]

theorem horner_root {f : (ZMod 2)[X]} (bits : List Bool) :
    horner (AdjoinRoot.root f) bits = AdjoinRoot.mk f (horner X bits) := by
  induction bits with
  | nil => exact (map_zero _).symm
  | cons bit bits ih =>
      rw [horner_cons, horner_cons, ih, map_add, map_mul, map_pow, AdjoinRoot.mk_X]
      cases bit <;> simp

theorem horner_root_inj (hk : k < m) {as bs : List Bool} (hlen : as.length = bs.length) (hm : as.length ≤ m)
    (h : horner (AdjoinRoot.root (trinomial m k)) as = horner (AdjoinRoot.root (trinomial m k)) bs) : as = bs := by
  rw [horner_root, horner_root, AdjoinRoot.mk_eq_mk] at h
  have hle : ((as.length : Nat) : WithBot Nat) ≤ m := by exact_mod_cast hm
  have has := lt_of_lt_of_le (horner_X_degree as) hle
  have hbs := lt_of_lt_of_le (horner_X_degree bs) (hlen ▸ hle)
  have hmod : (trinomial m k).degree = m := by
    rw [degree_eq_natDegree (trinomial_monic hk).ne_zero, trinomial_natDegree hk]
  have hsub : (horner X as - horner X bs : (ZMod 2)[X]) = 0 := by
    apply eq_zero_of_dvd_of_degree_lt h
    rw [hmod]
    exact lt_of_le_of_lt (degree_sub_le _ _) (max_lt has hbs)
  exact horner_X_inj hlen (sub_eq_zero.mp hsub)

end Karphin.Lib

/-!
## Curves in characteristic 2

The curve `y ^ 2 + x * y = x ^ 3 + a * x ^ 2 + b`. Its points have coordinates, and the point at infinity, which has none, is
given the pair of zeros, which is no point of the curve. The group law in these coordinates.
-/

namespace Karphin.Lib

open WeierstrassCurve.Affine

variable {F : Type} [Field F] {a b : F}

def binaryCurve (a b : F) : WeierstrassCurve.Affine F := ⟨1, a, 0, 0, b⟩

def coords : (binaryCurve a b).Point → F × F
  | .zero => (0, 0)
  | .some x y _ => (x, y)

theorem coords_zero : coords (0 : (binaryCurve a b).Point) = (0, 0) := rfl

theorem binaryCurve_equation {x y : F} :
    (binaryCurve a b).Equation x y ↔ y ^ 2 + x * y = x ^ 3 + a * x ^ 2 + b := by
  rw [equation_iff]
  simp [binaryCurve]

section

variable [CharP F 2]

theorem negY_eq (x y : F) : (binaryCurve a b).negY x y = y + x := by
  simp [negY, binaryCurve, CharTwo.neg_eq, CharTwo.sub_eq_add]

theorem binaryCurve_nonsingular (hb : b ≠ 0) {x y : F} (h : (binaryCurve a b).Equation x y) :
    (binaryCurve a b).Nonsingular x y := by
  have htwo : (2 : F) = 0 := CharTwo.two_eq_zero
  have hΔ : (binaryCurve a b).Δ = b := by
    simp only [binaryCurve, WeierstrassCurve.Δ, WeierstrassCurve.b₂, WeierstrassCurve.b₄, WeierstrassCurve.b₆,
      WeierstrassCurve.b₈]
    linear_combination (-b - 6 * a * b - 24 * a ^ 2 * b - 32 * a ^ 3 * b - 216 * b ^ 2) * htwo
  exact (equation_iff_nonsingular_of_Δ_ne_zero (by rwa [hΔ])).mp h

variable [DecidableEq F]

def doubleCoords (a : F) (p : F × F) : F × F :=
  if p.1 = 0 then (0, 0)
  else
    let s := p.2 / p.1 + p.1
    let x := s ^ 2 + s + a
    (x, s * x + x + p.1 ^ 2)

def addCoords (a : F) (p q : F × F) : F × F :=
  if p = (0, 0) then q
  else if q = (0, 0) then p
  else if p.1 + q.1 = 0 then if p.2 + q.2 = 0 then doubleCoords a p else (0, 0)
  else
    let s := (p.2 + q.2) / (p.1 + q.1)
    let t := s ^ 2 + s + q.1 + a
    (t + p.1, s * t + p.2 + (t + p.1))

omit [CharP F 2] in
theorem doubleCoords_of_ne {x y : F} (hx : x ≠ 0) : doubleCoords a (x, y) =
    ((y / x + x) ^ 2 + (y / x + x) + a,
      (y / x + x) * ((y / x + x) ^ 2 + (y / x + x) + a) + ((y / x + x) ^ 2 + (y / x + x) + a) + x ^ 2) := if_neg hx

omit [CharP F 2] in
theorem addCoords_of_ne {x y x' y' s : F} (hp : (x, y) ≠ ((0, 0) : F × F)) (hq : (x', y') ≠ ((0, 0) : F × F))
    (hx : x + x' ≠ 0) (hs : (y + y') / (x + x') = s) : addCoords a (x, y) (x', y') =
      (s ^ 2 + s + x' + a + x, s * (s ^ 2 + s + x' + a) + y + (s ^ 2 + s + x' + a + x)) := by
  subst hs
  rw [addCoords, if_neg hp, if_neg hq, if_neg hx]

omit [CharP F 2] in
/-- A point as `(x / z, y / z ^ 2)`, which is doubled and added without a division. -/
theorem doubleCoords_div {x y z : F} (hx : x ≠ 0) (hz : z ≠ 0) : doubleCoords a (x / z, y / z ^ 2) =
    (((x ^ 2 + y) ^ 2 + x * z * (x ^ 2 + y) + a * (x * z) ^ 2) / (x * z) ^ 2,
      (((x ^ 2 + y) ^ 2 + x * z * (x ^ 2 + y) + a * (x * z) ^ 2) * (x * z * (x ^ 2 + y) + (x * z) ^ 2) +
        (x ^ 2) ^ 2 * (x * z) ^ 2) / ((x * z) ^ 2) ^ 2) := by
  rw [doubleCoords_of_ne (div_ne_zero hx hz)]
  ext
  · dsimp only
    field_simp
    ring
  · dsimp only
    field_simp
    ring

omit [CharP F 2] in
theorem addCoords_div {x y z x' y' u v w t : F} (hu : x + x' * z = u) (hv : y + y' * z ^ 2 = v) (hw : z * u = w)
    (ht : v ^ 2 + v * w + x' * w ^ 2 + a * w ^ 2 = t) (hp : (x / z, y / z ^ 2) ≠ ((0, 0) : F × F))
    (hq : (x', y') ≠ ((0, 0) : F × F)) (hwne : w ≠ 0) : addCoords a (x / z, y / z ^ 2) (x', y') =
      ((t + x * u * w) / w ^ 2, (v * w * t + y * u ^ 2 * w ^ 2 + (t + x * u * w) * w ^ 2) / (w ^ 2) ^ 2) := by
  subst hw
  obtain ⟨hz, hune⟩ := mul_ne_zero_iff.mp hwne
  have hx : x / z + x' = u / z := by
    rw [← hu]
    field_simp
  have hs : (y / z ^ 2 + y') / (x / z + x') = v / (z * u) := by
    rw [hx, ← hv]
    field_simp
  rw [addCoords_of_ne hp hq (by rw [hx]; exact div_ne_zero hune hz) hs, ← ht]
  ext
  · dsimp only
    field_simp
  · dsimp only
    field_simp

omit [DecidableEq F] [CharP F 2] in
theorem coords_some_ne (hb : b ≠ 0) {x y : F} (h : (binaryCurve a b).Nonsingular x y) : (x, y) ≠ ((0, 0) : F × F) := by
  intro heq
  obtain ⟨rfl, rfl⟩ := Prod.mk.inj heq
  have hzero := binaryCurve_equation.mp h.1
  apply hb
  linear_combination -hzero

omit [DecidableEq F] [CharP F 2] in
theorem coords_injective (hb : b ≠ 0) : Function.Injective (coords : (binaryCurve a b).Point → F × F) := by
  intro p q h
  cases p with
  | zero =>
      cases q with
      | zero => rfl
      | some x y hq => exact absurd h.symm (coords_some_ne hb hq)
  | some x y hp =>
      cases q with
      | zero => exact absurd h (coords_some_ne hb hp)
      | some x' y' hq =>
          obtain ⟨rfl, rfl⟩ := Prod.mk.inj h
          rfl

theorem coords_add_self (p : (binaryCurve a b).Point) : coords (p + p) = doubleCoords a (coords p) := by
  have htwo : (2 : F) = 0 := CharTwo.two_eq_zero
  cases p with
  | zero => simp [← Point.zero_def, coords_zero, doubleCoords]
  | some x y h =>
      by_cases hx : x = 0
      · subst hx
        rw [Point.add_self_of_Y_eq (by rw [negY_eq, add_zero]), coords_zero]
        simp [coords, doubleCoords]
      · have hy : y ≠ (binaryCurve a b).negY x y := by
          rw [negY_eq]
          intro heq
          exact hx (left_eq_add.mp heq)
        have hslope : (binaryCurve a b).slope x x y y = y / x + x := by
          rw [slope_of_Y_ne rfl hy, negY_eq]
          have hden : y - (y + x) = x := by linear_combination -x * htwo
          rw [hden]
          simp only [binaryCurve]
          field_simp
          linear_combination (x ^ 2 + a * x - y) * htwo
        have hmul : (y / x + x) * x = y + x ^ 2 := by
          field_simp
        rw [Point.add_self_of_Y_ne hy]
        simp only [coords, doubleCoords_of_ne hx, addY, addX, negAddY, negY_eq, hslope]
        generalize y / x + x = s at hmul ⊢
        simp only [binaryCurve]
        rw [Prod.mk.injEq]
        constructor
        · linear_combination (-a - x) * htwo
        · linear_combination -hmul + (-(s + 1) * (a + x) - x ^ 2) * htwo

theorem coords_add (hb : b ≠ 0) (p q : (binaryCurve a b).Point) :
    coords (p + q) = addCoords a (coords p) (coords q) := by
  have htwo : (2 : F) = 0 := CharTwo.two_eq_zero
  cases p with
  | zero => simp [← Point.zero_def, coords_zero, addCoords]
  | some x y hp =>
      cases q with
      | zero =>
          have hne := coords_some_ne hb hp
          simp only [← Point.zero_def, addCoords, add_zero, coords, if_neg hne, if_pos]
      | some x' y' hq =>
          have hne := coords_some_ne hb hp
          have hne' := coords_some_ne hb hq
          by_cases hx : x = x'
          · subst hx
            by_cases hy : y = y'
            · subst hy
              rw [coords_add_self]
              simp [addCoords, coords, hne, CharTwo.add_self_eq_zero]
            · have hneg : y = (binaryCurve a b).negY x y' := (Y_eq_of_X_eq hp.1 hq.1 rfl).resolve_left hy
              have hsum : y + y' ≠ 0 := fun h => hy (CharTwo.add_eq_zero.mp h)
              rw [Point.add_of_Y_eq rfl hneg, coords_zero]
              simp [addCoords, coords, hne, hne', hsum, CharTwo.add_self_eq_zero]
          · have hsum : x + x' ≠ 0 := fun h => hx (CharTwo.add_eq_zero.mp h)
            have hslope : (binaryCurve a b).slope x x' y y' = (y + y') / (x + x') := by
              rw [slope_of_X_ne hx, CharTwo.sub_eq_add, CharTwo.sub_eq_add]
            rw [Point.add_of_X_ne hx]
            simp only [coords, addCoords_of_ne hne hne' hsum rfl, addY, addX, negAddY, negY_eq, hslope]
            generalize (y + y') / (x + x') = s
            simp only [binaryCurve]
            rw [Prod.mk.injEq]
            constructor
            · linear_combination (-a - x - x') * htwo
            · linear_combination (-(s + 1) * (a + x + x')) * htwo

end

end Karphin.Lib
