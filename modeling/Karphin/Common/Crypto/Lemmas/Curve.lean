import Karphin.Lib.PackedPoly
import Karphin.Common.Crypto.Lemmas.Field

/-!
# The field and the curve

The trinomial of the code is irreducible, so its elements are those of a field, and its points are those of a curve over it
when their bytes are reduced.
-/

namespace Karphin.Common.Ec

open Lib

abbrev Field233 := AdjoinRoot (trinomial 233 74)

noncomputable def α : Field233 := AdjoinRoot.root (trinomial 233 74)

instance : CharP Field233 2 := charP_adjoinRoot (trinomial_degree_ne_zero (by decide))

theorem α_pow : α ^ 233 = α ^ 74 + 1 := trinomial_root (by decide)

set_option maxRecDepth 16000 in
theorem α_frobenius : α ^ 2 ^ 233 = α := by
  have hbase : Packed 233 α 256 α := Packs.base.mono (by decide) (Nat.le_refl _)
  have hsquares := hbase.squares α_pow (by decide) (by decide) 233
  have hvalue : (fun n => packedMul 233 74 n n)^[233] 256 = 256 := by decide
  rw [hvalue] at hsquares
  exact hsquares.unique hbase

instance : Fact (Irreducible (trinomial 233 74)) :=
  ⟨irreducible_trinomial (prime_of_trialDivision (by decide)) (by decide) (by decide) α_frobenius⟩

theorem pow_card (z : Field233) : z ^ 2 ^ 233 = z := by
  have h := pow_two_pow_natDegree z
  rwa [trinomial_natDegree (by decide)] at h

noncomputable instance : DecidableEq Field233 := Classical.decEq _

/-! ## Elements -/

theorem Elt.Reduced.exists_bits {a : Elt} (ha : a.Reduced) :
    ∃ bits, bits.length = 233 ∧ bytesBits a.data = List.replicate 7 false ++ bits := by
  obtain ⟨b, bytes, hdata, hlen⟩ := a.exists_cons
  have hb := (Elt.reduced_iff hdata).mp ha
  have hbits : byteBits b = List.replicate 7 false ++ [b &&& 1 != 0] := by
    rw [← byteBits_and_one, ← hb]
  refine ⟨[b &&& 1 != 0] ++ bytesBits bytes, ?_, ?_⟩
  · rw [List.length_append, bytesBits_length, hlen]
    rfl
  · rw [hdata, bytesBits_cons, hbits, List.append_assoc]

theorem Elt.ext_bits {a b : Elt} (h : bytesBits a.data = bytesBits b.data) : a = b := by
  have hdata : a.data = b.data := by
    apply beValue_inj (a.size.trans b.size.symm)
    rw [← horner_bytesBits, h, horner_bytesBits]
  cases a
  cases b
  cases hdata
  rfl

theorem Elt.eval_injective {a b : Elt} (ha : a.Reduced) (hb : b.Reduced) (h : a.eval α = b.eval α) : a = b := by
  obtain ⟨as, hlen, has⟩ := ha.exists_bits
  obtain ⟨bs, hlen', hbs⟩ := hb.exists_bits
  rw [Elt.eval, Elt.eval, has, hbs, horner_append, horner_append, horner_replicate_false, zero_mul, zero_add, zero_mul,
    zero_add] at h
  apply Elt.ext_bits
  rw [has, hbs, horner_root_inj (by decide) (hlen.trans hlen'.symm) hlen.le h]

theorem Elt.eq_zero_of_isZero {a : Elt} (h : a.isZero = true) : a = Elt.zero := by
  have hdata : a.data = List.replicate 30 0 := by
    rw [List.eq_replicate_iff]
    refine ⟨a.size, fun b hb => ?_⟩
    simpa using List.all_eq_true.mp h b hb
  cases a
  cases hdata
  rfl

theorem Elt.isZero_iff {a : Elt} (ha : a.Reduced) : a.isZero = true ↔ a.eval α = 0 := by
  constructor
  · intro h
    rw [Elt.eq_zero_of_isZero h, Elt.eval_zero]
  · intro h
    have hzero : a = Elt.zero := Elt.eval_injective ha Elt.zero_reduced (h.trans Elt.eval_zero.symm)
    rw [hzero]
    decide

theorem Elt.mul_reduced {a b : Elt} (ha : a.Reduced) (hb : b.Reduced) : (a.mul b).Reduced :=
  (Elt.mul_spec α_pow ha hb).1

theorem Elt.eval_mul {a b : Elt} (ha : a.Reduced) (hb : b.Reduced) : (a.mul b).eval α = a.eval α * b.eval α :=
  (Elt.mul_spec α_pow ha hb).2

/-- An element is the power of `z` whose exponent is `n` ones in binary. -/
def Ones (z : Field233) (n : Nat) (t : Elt) : Prop := t.Reduced ∧ t.eval α = z ^ (2 ^ n - 1)

theorem squares_spec (a : Elt) (ha : a.Reduced) : ∀ j, (Elt.square^[j] a).Reduced ∧
    (Elt.square^[j] a).eval α = a.eval α ^ 2 ^ j
  | 0 => ⟨ha, (pow_one _).symm⟩
  | j + 1 => by
      obtain ⟨_, heval⟩ := squares_spec a ha j
      rw [Function.iterate_succ_apply']
      refine ⟨Elt.square_reduced _, ?_⟩
      rw [Elt.eval_square α_pow, heval, ← pow_mul, Nat.pow_succ]

theorem Ones.itohTsujii {z : Field233} {n j : Nat} {t s : Elt} (ht : Ones z n t) (hs : Ones z j s) :
    Ones z (n + j) (t.itohTsujii s j) := by
  obtain ⟨hreduced, heval⟩ := squares_spec t ht.1 j
  refine ⟨Elt.mul_reduced hreduced hs.1, ?_⟩
  have hn := Nat.one_le_two_pow (n := n)
  have hj := Nat.one_le_two_pow (n := j)
  have hexp : (2 ^ n - 1) * 2 ^ j + (2 ^ j - 1) = 2 ^ (n + j) - 1 := by
    rw [Nat.sub_mul, Nat.one_mul, Nat.pow_add]
    have hle : 2 ^ j ≤ 2 ^ n * 2 ^ j := Nat.le_mul_of_pos_left _ hn
    omega
  rw [Elt.itohTsujii, Elt.eval_mul hreduced hs.1, heval, ht.2, hs.2, ← pow_mul, ← pow_add, hexp]

theorem inv_of_ones (z : Field233) : (z ^ (2 ^ 232 - 1)) ^ 2 = z⁻¹ := by
  rcases eq_or_ne z 0 with rfl | hz
  · rw [inv_zero, zero_pow (by norm_num), zero_pow two_ne_zero]
  · have hexp : (2 ^ 232 - 1) * 2 + 1 + 1 = 2 ^ 233 := by norm_num
    have hmul : (z ^ (2 ^ 232 - 1)) ^ 2 * z * z = 1 * z := by
      rw [← pow_mul, ← pow_succ, ← pow_succ, hexp, pow_card, one_mul]
    exact eq_inv_of_mul_eq_one_left (mul_right_cancel₀ hz hmul)

theorem Elt.inv_spec {a : Elt} (ha : a.Reduced) : a.inv.Reduced ∧ a.inv.eval α = (a.eval α)⁻¹ := by
  have h1 : Ones (a.eval α) 1 a := ⟨ha, (pow_one _).symm⟩
  have h2 := h1.itohTsujii h1
  have h3 := h2.itohTsujii h1
  have h6 := h3.itohTsujii h3
  have h7 := h6.itohTsujii h1
  have h14 := h7.itohTsujii h7
  have h28 := h14.itohTsujii h14
  have h29 := h28.itohTsujii h1
  have h58 := h29.itohTsujii h29
  have h116 := h58.itohTsujii h58
  have h232 := h116.itohTsujii h116
  refine ⟨Elt.square_reduced _, ?_⟩
  rw [Elt.inv, Elt.eval_square α_pow, h232.2, inv_of_ones]

theorem Elt.div_reduced {a b : Elt} (ha : a.Reduced) (hb : b.Reduced) : (a.div b).Reduced :=
  Elt.mul_reduced ha (Elt.inv_spec hb).1

theorem Elt.eval_div {a b : Elt} (ha : a.Reduced) (hb : b.Reduced) : (a.div b).eval α = a.eval α / b.eval α := by
  rw [Elt.div, Elt.eval_mul ha (Elt.inv_spec hb).1, (Elt.inv_spec hb).2, div_eq_mul_inv]

/-! ## Points -/

noncomputable abbrev curve : WeierstrassCurve.Affine Field233 := binaryCurve 1 (ecB.eval α)

def Point.Reduced (p : Point) : Prop := p.x.Reduced ∧ p.y.Reduced

theorem Point.zero_reduced : Point.zero.Reduced := ⟨Elt.zero_reduced, Elt.zero_reduced⟩

theorem Point.double_reduced {p : Point} (hp : p.Reduced) : p.double.Reduced := by
  obtain ⟨hx, hy⟩ := hp
  rw [Point.double]
  split
  next => exact Point.zero_reduced
  next =>
    have hs := Elt.add_reduced (Elt.div_reduced hy hx) hx
    have hrx := Elt.flipLast_reduced (Elt.add_reduced (Elt.square_reduced ((p.y.div p.x).add p.x)) hs)
    exact ⟨hrx, Elt.add_reduced (Elt.add_reduced (Elt.mul_reduced hs hrx) hrx) (Elt.square_reduced _)⟩

theorem Point.add_reduced {p q : Point} (hp : p.Reduced) (hq : q.Reduced) : (p.add q).Reduced := by
  have hs := Elt.div_reduced (Elt.add_reduced hp.2 hq.2) (Elt.add_reduced hp.1 hq.1)
  have ht := Elt.flipLast_reduced
    (Elt.add_reduced (Elt.add_reduced (Elt.square_reduced ((p.y.add q.y).div (p.x.add q.x))) hs) hq.1)
  have hrx := Elt.add_reduced ht hp.1
  by_cases hpz : p.isZero = true
  · rwa [Point.add, if_pos hpz]
  by_cases hqz : q.isZero = true
  · rwa [Point.add, if_neg hpz, if_pos hqz]
  by_cases hx : (p.x.add q.x).isZero = true
  · rw [Point.add, if_neg hpz, if_neg hqz, if_pos hx]
    split
    next => exact Point.double_reduced hp
    next => exact Point.zero_reduced
  · rw [Point.add, if_neg hpz, if_neg hqz, if_neg hx]
    exact ⟨hrx, Elt.add_reduced (Elt.add_reduced (Elt.mul_reduced hs ht) hp.2) hrx⟩

theorem Point.smul_reduced {p : Point} (hp : p.Reduced) (a : Elt) : (Point.smul a p).Reduced :=
  binaryMethod_keeps Point.Reduced (fun _ hd => Point.double_reduced hd) (fun _ hd => Point.add_reduced hd hp)
    Point.zero_reduced _

/-- The two coordinates in bytes are reduced, and are those of the point. -/
structure Represents (p : Point) (P : curve.Point) : Prop where
  reduced : p.Reduced
  coords : (p.x.eval α, p.y.eval α) = coords P

theorem ecB_ne_zero : ecB.eval α ≠ 0 := by
  have hreduced : ecB.Reduced := by
    rw [Elt.Reduced]
    decide
  intro h
  have hzero := (Elt.isZero_iff hreduced).mpr h
  exact absurd hzero (by decide)

theorem Represents.zero : Represents Point.zero 0 := by
  refine ⟨Point.zero_reduced, ?_⟩
  rw [coords_zero]
  exact congrArg₂ Prod.mk Elt.eval_zero Elt.eval_zero

theorem Represents.unique {p q : Point} {P : curve.Point} (hp : Represents p P) (hq : Represents q P) : p = q := by
  obtain ⟨hx, hy⟩ := Prod.mk.inj (hp.coords.trans hq.coords.symm)
  have hpx := Elt.eval_injective hp.reduced.1 hq.reduced.1 hx
  have hpy := Elt.eval_injective hp.reduced.2 hq.reduced.2 hy
  cases p
  cases q
  rw [Point.mk.injEq]
  exact ⟨hpx, hpy⟩

theorem Represents.isZero_iff {p : Point} {P : curve.Point} (hp : Represents p P) :
    p.isZero = true ↔ (p.x.eval α, p.y.eval α) = (0, 0) := by
  rw [Point.isZero, Bool.and_eq_true, Elt.isZero_iff hp.reduced.1, Elt.isZero_iff hp.reduced.2, Prod.mk.injEq]

theorem Represents.double {p : Point} {P : curve.Point} (hp : Represents p P) : Represents p.double (P + P) := by
  refine ⟨Point.double_reduced hp.reduced, ?_⟩
  obtain ⟨⟨hx, hy⟩, hpcoords⟩ := hp
  have hcoords := coords_add_self P
  rw [← hpcoords] at hcoords
  rw [hcoords, Point.double]
  split
  next hzero =>
    have heval := (Elt.isZero_iff hx).mp hzero
    rw [doubleCoords, if_pos heval]
    exact congrArg₂ Prod.mk Elt.eval_zero Elt.eval_zero
  next hzero =>
    have hne : p.x.eval α ≠ 0 := fun h => hzero ((Elt.isZero_iff hx).mpr h)
    have hs : ((p.y.div p.x).add p.x).Reduced := Elt.add_reduced (Elt.div_reduced hy hx) hx
    have hrx := Elt.flipLast_reduced (Elt.add_reduced (Elt.square_reduced ((p.y.div p.x).add p.x)) hs)
    rw [doubleCoords_of_ne hne]
    simp only [Elt.eval_add, Elt.eval_mul hs hrx, Elt.eval_flipLast, Elt.eval_square α_pow, Elt.eval_div hy hx]

theorem Represents.add {p q : Point} {P Q : curve.Point} (hp : Represents p P) (hq : Represents q Q) :
    Represents (p.add q) (P + Q) := by
  refine ⟨Point.add_reduced hp.reduced hq.reduced, ?_⟩
  have hcoords := coords_add ecB_ne_zero P Q
  rw [← hp.coords, ← hq.coords] at hcoords
  have hu := Elt.add_reduced hp.reduced.1 hq.reduced.1
  have hv := Elt.add_reduced hp.reduced.2 hq.reduced.2
  by_cases hpz : p.isZero = true
  · rw [hcoords, addCoords, if_pos (hp.isZero_iff.mp hpz), Point.add, if_pos hpz]
  have hpne : (p.x.eval α, p.y.eval α) ≠ (0, 0) := fun h => hpz (hp.isZero_iff.mpr h)
  by_cases hqz : q.isZero = true
  · rw [hcoords, addCoords, if_neg hpne, if_pos (hq.isZero_iff.mp hqz), Point.add, if_neg hpz, if_pos hqz]
  have hqne : (q.x.eval α, q.y.eval α) ≠ (0, 0) := fun h => hqz (hq.isZero_iff.mpr h)
  by_cases hx : (p.x.add q.x).isZero = true
  · have hxeval := (Elt.isZero_iff hu).mp hx
    rw [Elt.eval_add] at hxeval
    rw [hcoords, addCoords, if_neg hpne, if_neg hqne, if_pos hxeval, Point.add, if_neg hpz, if_neg hqz, if_pos hx]
    by_cases hy : (p.y.add q.y).isZero = true
    · have hyeval := (Elt.isZero_iff hv).mp hy
      rw [Elt.eval_add] at hyeval
      rw [if_pos hyeval, if_pos hy, hp.double.coords, coords_add_self, hp.coords]
    · have hyne : p.y.eval α + q.y.eval α ≠ 0 := by
        intro h
        rw [← Elt.eval_add] at h
        exact hy ((Elt.isZero_iff hv).mpr h)
      rw [if_neg hyne, if_neg hy]
      exact congrArg₂ Prod.mk Elt.eval_zero Elt.eval_zero
  · have hxne : p.x.eval α + q.x.eval α ≠ 0 := by
      intro h
      rw [← Elt.eval_add] at h
      exact hx ((Elt.isZero_iff hu).mpr h)
    have hs := Elt.div_reduced hv hu
    have hseval : ((p.y.add q.y).div (p.x.add q.x)).eval α =
        (p.y.eval α + q.y.eval α) / (p.x.eval α + q.x.eval α) := by
      rw [Elt.eval_div hv hu, Elt.eval_add, Elt.eval_add]
    have ht := Elt.flipLast_reduced
      (Elt.add_reduced (Elt.add_reduced (Elt.square_reduced ((p.y.add q.y).div (p.x.add q.x))) hs) hq.reduced.1)
    rw [hcoords, addCoords_of_ne hpne hqne hxne hseval.symm, Point.add, if_neg hpz, if_neg hqz, if_neg hx]
    simp only [Elt.eval_add, Elt.eval_mul hs ht, Elt.eval_flipLast, Elt.eval_square α_pow]

theorem Represents.smul {p : Point} {P : curve.Point} (hp : Represents p P) (a : Elt) :
    Represents (Point.smul a p) (a.value • P) := by
  apply @binaryMethod_holds _ Point.double (·.add p) (fun n q => Represents q (n • P))
  · intro n q hq
    have hn : (n * 2) • P = n • P + n • P := by rw [Nat.mul_two, add_smul]
    rw [hn]
    exact hq.double
  · intro n q hq
    rw [succ_nsmul]
    exact hq.add hp
  · rw [zero_nsmul]
    exact Represents.zero

end Karphin.Common.Ec
