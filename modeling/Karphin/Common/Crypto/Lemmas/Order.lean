import Karphin.Common.Crypto.Lemmas.Curve

/-!
# The order of the base point

The order in the code is a prime, and that many times the base point is nothing. The multiple is computed with packed
polynomials, and without a division: a point is `(x / z, y / z ^ 2)`.
-/

namespace Karphin.Common.Ec

open Lib

def Elt.packed (a : Elt) : Nat := horner 256 (bytesBits a.data)

def packedSquare (n : Nat) : Nat := packedMul 233 74 n n

def packedItohTsujii (n n' j : Nat) : Nat := packedMul 233 74 (packedSquare^[j] n) n'

def packedInv (n : Nat) : Nat :=
  let t := packedItohTsujii n n 1
  let s := packedItohTsujii t n 1
  let t := packedItohTsujii s s 3
  let s := packedItohTsujii t n 1
  let t := packedItohTsujii s s 7
  let s := packedItohTsujii t t 14
  let t := packedItohTsujii s n 1
  let s := packedItohTsujii t t 29
  let t := packedItohTsujii s s 58
  let s := packedItohTsujii t t 116
  packedSquare s

def packedDouble (p : Nat × Nat × Nat) : Option (Nat × Nat × Nat) :=
  let t := packedMul 233 74 p.1 p.2.2
  let u := packedAdd 233 (packedSquare p.1) p.2.1
  let tu := packedMul 233 74 t u
  let z := packedSquare t
  let x := packedAdd 233 (packedAdd 233 (packedSquare u) tu) z
  let y := packedAdd 233 (packedMul 233 74 x (packedAdd 233 tu z)) (packedMul 233 74 (packedSquare (packedSquare p.1)) z)
  if z = 0 then none else some (x, y, z)

def packedAddPoint (q : Nat × Nat) (p : Nat × Nat × Nat) : Option (Nat × Nat × Nat) :=
  let u := packedAdd 233 p.1 (packedMul 233 74 q.1 p.2.2)
  let v := packedAdd 233 p.2.1 (packedMul 233 74 q.2 (packedSquare p.2.2))
  let w := packedMul 233 74 p.2.2 u
  let vw := packedMul 233 74 v w
  let z := packedSquare w
  let t := packedAdd 233 (packedAdd 233 (packedAdd 233 (packedSquare v) vw) (packedMul 233 74 q.1 z)) z
  let x := packedAdd 233 t (packedMul 233 74 (packedMul 233 74 p.1 u) w)
  let y := packedAdd 233 (packedAdd 233 (packedMul 233 74 vw t)
    (packedMul 233 74 (packedMul 233 74 p.2.1 (packedSquare u)) z)) (packedMul 233 74 x z)
  if z = 0 then none else some (x, y, z)

def packedIs (q : Nat × Nat) (p : Nat × Nat × Nat) : Bool :=
  packedMul 233 74 p.2.2 (packedInv p.2.2) = 1 && p.1 = packedMul 233 74 q.1 p.2.2 &&
    p.2.1 = packedMul 233 74 q.2 (packedSquare p.2.2)

/-! ## What is computed -/

theorem Elt.packed_spec {a : Elt} (ha : a.Reduced) : Packed 233 α a.packed (a.eval α) := by
  obtain ⟨bits, hlen, hbits⟩ := ha.exists_bits
  have hzero : ∀ n, horner 256 (List.replicate n false) = 0 := by
    intro n
    induction n with
    | zero => rfl
    | succ n ih => rw [List.replicate_succ, horner_cons, ih, if_neg Bool.false_ne_true, Nat.zero_mul, Nat.zero_add]
  have h := packed_horner (x := α) hlen.le
  rw [Elt.packed, Elt.eval, hbits, horner_append, horner_append, hzero, horner_replicate_false, Nat.zero_mul,
    Nat.zero_add, zero_mul, zero_add]
  exact h

section

variable {n n' : Nat} {v v' : Field233}

theorem packed_mul (h : Packed 233 α n v) (h' : Packed 233 α n' v') : Packed 233 α (packedMul 233 74 n n') (v * v') :=
  h.mul α_pow (by decide) (by decide) h'

theorem packed_square (h : Packed 233 α n v) : Packed 233 α (packedSquare n) (v ^ 2) := by
  rw [pow_two]
  exact packed_mul h h

theorem packed_one : Packed 233 α 1 1 := Packs.one.mono (by decide) (Nat.le_refl _)

theorem packed_itohTsujii {j : Nat} (h : Packed 233 α n v) (h' : Packed 233 α n' v') :
    Packed 233 α (packedItohTsujii n n' j) (v ^ 2 ^ j * v') :=
  packed_mul (h.squares α_pow (by decide) (by decide) j) h'

theorem exists_packedInv (h : Packed 233 α n v) : ∃ w, Packed 233 α (packedInv n) w := by
  have h2 := packed_itohTsujii (j := 1) h h
  have h3 := packed_itohTsujii (j := 1) h2 h
  have h6 := packed_itohTsujii (j := 3) h3 h3
  have h7 := packed_itohTsujii (j := 1) h6 h
  have h14 := packed_itohTsujii (j := 7) h7 h7
  have h28 := packed_itohTsujii (j := 14) h14 h14
  have h29 := packed_itohTsujii (j := 1) h28 h
  have h58 := packed_itohTsujii (j := 29) h29 h29
  have h116 := packed_itohTsujii (j := 58) h58 h58
  have h232 := packed_itohTsujii (j := 116) h116 h116
  exact ⟨_, packed_square h232⟩

theorem packedInv_spec (h : Packed 233 α n v) (hone : packedMul 233 74 n (packedInv n) = 1) :
    v ≠ 0 ∧ Packed 233 α (packedInv n) v⁻¹ := by
  obtain ⟨w, hw⟩ := exists_packedInv h
  have hproduct := packed_mul h hw
  rw [hone] at hproduct
  have hmul : v * w = 1 := hproduct.unique packed_one
  have hv : v ≠ 0 := left_ne_zero_of_mul_eq_one hmul
  refine ⟨hv, ?_⟩
  rwa [inv_eq_of_mul_eq_one_right hmul]

end

def PackedCoords (p : Nat × Nat) (P : curve.Point) : Prop :=
  P ≠ 0 ∧ Packed 233 α p.1 (coords P).1 ∧ Packed 233 α p.2 (coords P).2

def PackedPoint (p : Nat × Nat × Nat) (P : curve.Point) : Prop :=
  ∃ x y z, Packed 233 α p.1 x ∧ Packed 233 α p.2.1 y ∧ Packed 233 α p.2.2 z ∧
    (z ≠ 0 → P ≠ 0 ∧ coords P = (x / z, y / z ^ 2))

theorem coords_neg (P : curve.Point) : coords (-P) = ((coords P).1, (coords P).2 + (coords P).1) := by
  cases P with
  | zero => exact (congrArg (Prod.mk 0) (add_zero 0)).symm
  | some x y h =>
      rw [WeierstrassCurve.Affine.Point.neg_some]
      simp only [coords, negY_eq]

theorem coords_ne_zero {P : curve.Point} (h : P ≠ 0) : coords P ≠ (0, 0) := by
  intro hzero
  exact h (coords_injective ecB_ne_zero (hzero.trans coords_zero.symm))

theorem PackedPoint.double {p q : Nat × Nat × Nat} {P : curve.Point} (hp : PackedPoint p P)
    (h : packedDouble p = some q) : PackedPoint q (P + P) := by
  obtain ⟨x, y, z, hx, hy, hz, hP⟩ := hp
  rw [packedDouble] at h
  split at h
  next => cases h
  cases h
  have ht := packed_mul hx hz
  have hu := (packed_square hx).add hy
  have htu := packed_mul ht hu
  have hrz := packed_square ht
  have hrx := ((packed_square hu).add htu).add hrz
  refine ⟨_, _, _, hrx, (packed_mul hrx (htu.add hrz)).add (packed_mul (packed_square (packed_square hx)) hrz), hrz,
    fun hne => ?_⟩
  obtain ⟨hxne, hzne⟩ := mul_ne_zero_iff.mp ((pow_ne_zero_iff two_ne_zero).mp hne)
  obtain ⟨-, hcoords⟩ := hP hzne
  have hdouble := coords_add_self P
  rw [hcoords, doubleCoords_div hxne hzne, one_mul] at hdouble
  refine ⟨fun hzero => ?_, hdouble⟩
  -- A point that is its own opposite has the abscissa 0.
  have hneg := congrArg Prod.snd (coords_neg P)
  rw [← eq_neg_of_add_eq_zero_left hzero, hcoords] at hneg
  exact div_ne_zero hxne hzne (left_eq_add.mp hneg)

theorem PackedPoint.add {q : Nat × Nat} {p r : Nat × Nat × Nat} {P Q : curve.Point} (hp : PackedPoint p P)
    (hq : PackedCoords q Q) (h : packedAddPoint q p = some r) : PackedPoint r (P + Q) := by
  obtain ⟨x, y, z, hx, hy, hz, hP⟩ := hp
  obtain ⟨hQ, hqx, hqy⟩ := hq
  rw [packedAddPoint] at h
  split at h
  next => cases h
  cases h
  have hu := hx.add (packed_mul hqx hz)
  have hv := hy.add (packed_mul hqy (packed_square hz))
  have hw := packed_mul hz hu
  have hvw := packed_mul hv hw
  have hrz := packed_square hw
  have ht := (((packed_square hv).add hvw).add (packed_mul hqx hrz)).add hrz
  have hrx := ht.add (packed_mul (packed_mul hx hu) hw)
  refine ⟨_, _, _, hrx, ((packed_mul hvw ht).add (packed_mul (packed_mul hy (packed_square hu)) hrz)).add
    (packed_mul hrx hrz), hrz, fun hne => ?_⟩
  have hwne := (pow_ne_zero_iff two_ne_zero).mp hne
  obtain ⟨hzne, hune⟩ := mul_ne_zero_iff.mp hwne
  obtain ⟨hPne, hcoords⟩ := hP hzne
  have hQne : ((coords Q).1, (coords Q).2) ≠ (0, 0) := coords_ne_zero hQ
  have hsum := coords_add ecB_ne_zero P Q
  rw [hcoords, ← @Prod.mk.eta _ _ (coords Q), addCoords_div rfl rfl rfl rfl (hcoords ▸ coords_ne_zero hPne) hQne hwne,
    one_mul] at hsum
  refine ⟨fun hzero => ?_, hsum⟩
  have hneg := congrArg Prod.fst (coords_neg Q)
  rw [← eq_neg_of_add_eq_zero_left hzero, hcoords] at hneg
  apply hune
  rw [← hneg, div_mul_cancel₀ x hzne, CharTwo.add_self_eq_zero]

theorem packed_run {x y : Nat} {r : Nat × Nat × Nat} {G : curve.Point} (hg : PackedCoords (x, y) G) {bits : List Bool}
    (h : binaryMethod (·.bind packedDouble) (·.bind (packedAddPoint (x, y))) (some (x, y, 1)) bits = some r) :
    PackedPoint r ((2 ^ bits.length + horner 2 bits) • G) := by
  have hrun := @binaryMethod_from _ (·.bind packedDouble) (·.bind (packedAddPoint (x, y)))
    (fun n d => ∀ p, d = some p → PackedPoint p (n • G))
    (by
      intro n d hd p hp
      obtain ⟨q, hq, hdouble⟩ := Option.bind_eq_some_iff.mp hp
      rw [Nat.mul_two, add_nsmul]
      exact (hd q hq).double hdouble)
    (by
      intro n d hd p hp
      obtain ⟨q, hq, hadd⟩ := Option.bind_eq_some_iff.mp hp
      rw [succ_nsmul]
      exact (hd q hq).add hg hadd)
    bits 1 (some (x, y, 1))
    (by
      intro p hp
      cases hp
      rw [one_nsmul]
      obtain ⟨hG, hx, hy⟩ := hg
      exact ⟨_, _, _, hx, hy, packed_one, fun _ => ⟨hG, by rw [div_one, one_pow, div_one]⟩⟩)
    r h
  rwa [Nat.one_mul] at hrun

theorem PackedCoords.of_elts {x y : Elt} {P : curve.Point} (hne : P ≠ 0) (hx : x.Reduced) (hy : y.Reduced)
    (h : coords P = (x.eval α, y.eval α)) : PackedCoords (x.packed, y.packed) P := by
  refine ⟨hne, ?_, ?_⟩
  · rw [h]
    exact Elt.packed_spec hx
  · rw [h]
    exact Elt.packed_spec hy

theorem PackedPoint.unique {p : Nat × Nat × Nat} {q : Nat × Nat} {P Q : curve.Point} (hP : PackedPoint p P)
    (hQ : PackedCoords q Q) (h : packedIs q p = true) : P = Q := by
  obtain ⟨x, y, z, hx, hy, hz, hP⟩ := hP
  obtain ⟨-, hqx, hqy⟩ := hQ
  simp only [packedIs, Bool.and_eq_true, decide_eq_true_eq] at h
  obtain ⟨⟨hinv, hxeq⟩, hyeq⟩ := h
  have hzne := (packedInv_spec hz hinv).1
  rw [hxeq] at hx
  rw [hyeq] at hy
  apply coords_injective ecB_ne_zero
  rw [(hP hzne).2, hx.unique (packed_mul hqx hz), hy.unique (packed_mul hqy (packed_square hz)),
    mul_div_cancel_right₀ _ hzne, mul_div_cancel_right₀ _ (pow_ne_zero 2 hzne)]

theorem PackedCoords.neg {x y : Nat} {P : curve.Point} (hP : PackedCoords (x, y) P) :
    PackedCoords (x, packedAdd 233 y x) (-P) := by
  refine ⟨neg_ne_zero.mpr hP.1, ?_, ?_⟩
  · rw [coords_neg]
    exact hP.2.1
  · rw [coords_neg]
    exact hP.2.2.add hP.2.1

/-! ## The base point -/

theorem ecG_x_reduced : ecG.x.Reduced := by
  rw [Elt.Reduced]
  decide

theorem ecG_y_reduced : ecG.y.Reduced := by
  rw [Elt.Reduced]
  decide

theorem ecB_reduced : ecB.Reduced := by
  rw [Elt.Reduced]
  decide

def orderTail : List UInt8 := ecN.data.tail.modify 28 (· - 1)

def orderEntries : List LucasEntry := [
  ⟨6901746346790563787434755862277025555839812737345013555379383634485463, 5,
    [2, 7, 37, 18979, 38113, 30043507786353646304476366422610331237097041, 3033517343, 202109]⟩,
  ⟨30043507786353646304476366422610331237097041, 3,
    [2, 2, 2, 2, 5, 270344970533555861777, 474510208597, 2927499277]⟩,
  ⟨270344970533555861777, 3, [2, 2, 2, 2, 7, 2413794379763891623]⟩,
  ⟨2413794379763891623, 6, [2, 3, 402299063293981937]⟩,
  ⟨402299063293981937, 3, [2, 2, 2, 2, 25143691455873871]⟩,
  ⟨25143691455873871, 11, [2, 3, 5, 11, 76193004411739]⟩,
  ⟨76193004411739, 2, [2, 3, 3, 137, 52201, 591893]⟩,
  ⟨474510208597, 2, [2, 2, 3, 18341, 2155963]⟩,
  ⟨3033517343, 5, [2, 1516758671]⟩,
  ⟨2927499277, 2, [2, 2, 3, 13, 18766021]⟩,
  ⟨1516758671, 14, [2, 5, 7, 3769, 5749]⟩,
  ⟨18766021, 6, [2, 2, 3, 5, 7, 7, 13, 491]⟩,
  ⟨2155963, 3, [2, 3, 359327]⟩,
  ⟨591893, 2, [2, 2, 7, 21139]⟩,
  ⟨359327, 10, [2, 11, 16333]⟩,
  ⟨202109, 2, [2, 2, 50527]⟩,
  ⟨52201, 17, [2, 2, 2, 3, 3, 5, 5, 29]⟩,
  ⟨50527, 3, [2, 3, 3, 7, 401]⟩,
  ⟨38113, 7, [2, 2, 2, 2, 2, 3, 397]⟩,
  ⟨21139, 2, [2, 3, 13, 271]⟩,
  ⟨18979, 2, [2, 3, 3163]⟩,
  ⟨18341, 3, [2, 2, 5, 7, 131]⟩,
  ⟨16333, 2, [2, 2, 3, 1361]⟩,
  ⟨5749, 2, [2, 2, 3, 479]⟩,
  ⟨3769, 7, [2, 2, 2, 3, 157]⟩,
  ⟨3163, 3, [2, 3, 17, 31]⟩,
  ⟨1361, 3, [2, 2, 2, 2, 5, 17]⟩]

def packedTraceStep (t : Nat × Nat) : Nat × Nat := (packedSquare t.1, packedAdd 233 t.2 (packedSquare t.1))

def orderTrace : Nat :=
  packedAdd 233 (packedAdd 233 ecN.packed 1) (packedMul 233 74 ecB.packed (packedSquare (packedInv ecN.packed)))

theorem order_computations :
    (packedAdd 233 (packedSquare ecG.y.packed) (packedMul 233 74 ecG.x.packed ecG.y.packed) =
      packedAdd 233 (packedAdd 233 (packedMul 233 74 ecG.x.packed (packedSquare ecG.x.packed)) (packedSquare ecG.x.packed))
        ecB.packed) ∧
    (binaryMethod (·.bind packedDouble) (·.bind (packedAddPoint (ecG.x.packed, ecG.y.packed)))
      (some (ecG.x.packed, ecG.y.packed, 1)) (bytesBits orderTail)).any
        (packedIs (ecG.x.packed, packedAdd 233 ecG.y.packed ecG.x.packed)) = true ∧
    certifies 240 orderEntries = true ∧ packedMul 233 74 ecN.packed (packedInv ecN.packed) = 1 ∧
    (packedTraceStep^[232] (orderTrace, orderTrace)).2 = 1 := by
  decide +kernel

theorem ecG_equation : curve.Equation (ecG.x.eval α) (ecG.y.eval α) := by
  have hx := Elt.packed_spec ecG_x_reduced
  have hy := Elt.packed_spec ecG_y_reduced
  have hleft := (packed_square hy).add (packed_mul hx hy)
  have hright := ((packed_mul hx (packed_square hx)).add (packed_square hx)).add (Elt.packed_spec ecB_reduced)
  rw [order_computations.1] at hleft
  rw [binaryCurve_equation, one_mul, pow_succ' _ 2]
  exact hleft.unique hright

noncomputable def basePoint : curve.Point := .some _ _ (binaryCurve_nonsingular ecB_ne_zero ecG_equation)

theorem coords_basePoint : coords basePoint = (ecG.x.eval α, ecG.y.eval α) := rfl

theorem ecG_represents : Represents ecG basePoint := ⟨⟨ecG_x_reduced, ecG_y_reduced⟩, coords_basePoint.symm⟩

theorem basePoint_ne_zero : basePoint ≠ 0 := WeierstrassCurve.Affine.Point.some_ne_zero _

theorem ecN_value : ecN.value = 2 ^ 232 + beValue orderTail + 1 := by decide

theorem order_smul : ecN.value • basePoint = 0 := by
  have hbase := PackedCoords.of_elts basePoint_ne_zero ecG_x_reduced ecG_y_reduced coords_basePoint
  obtain ⟨r, hr, his⟩ := (Option.any_eq_true ..).mp order_computations.2.1
  have hneg := (packed_run hbase hr).unique hbase.neg his
  have hvalue : ecN.value = 2 ^ (bytesBits orderTail).length + horner 2 (bytesBits orderTail) + 1 := by
    have hlen : orderTail.length = 29 := by decide
    rw [horner_bytesBits, bytesBits_length, hlen, ecN_value]
  rw [hvalue, succ_nsmul, hneg, neg_add_cancel]

theorem ecN_eq : ecN.value = 6901746346790563787434755862277025555839812737345013555379383634485463 := by decide

theorem ecN_prime : ecN.value.Prime := by
  rw [ecN_eq]
  exact prime_of_certifies order_computations.2.2.1 _ List.mem_cons_self

instance : Fact ecN.value.Prime := ⟨ecN_prime⟩

end Karphin.Common.Ec

/-!
## The abscissa of a multiple of the base point

It is not zero modulo the order: a point with the abscissa 0 is its own opposite, and the order itself, taken as an element,
is the abscissa of no point, since the trace of `x + 1 + b / x ^ 2` is 1 there.
-/

namespace Karphin.Common.Ec

open Lib

theorem packedTrace_spec {n : Nat} {z c : Field233} (hc : c = z ^ 2 + z) (h : Packed 233 α n c) : ∀ j,
    Packed 233 α (packedTraceStep^[j] (n, n)).1 (c ^ 2 ^ j) ∧
      Packed 233 α (packedTraceStep^[j] (n, n)).2 (z ^ 2 ^ (j + 1) + z)
  | 0 => by
      rw [Function.iterate_zero_apply, Nat.pow_zero, pow_one, Nat.zero_add, Nat.pow_one, ← hc]
      exact ⟨h, h⟩
  | j + 1 => by
      obtain ⟨hpower, hsum⟩ := packedTrace_spec hc h j
      have hsquare := packed_square hpower
      rw [← pow_mul, ← Nat.pow_succ] at hsquare
      have hnext : z ^ 2 ^ (j + 1) + z + c ^ 2 ^ (j + 1) = z ^ 2 ^ (j + 1 + 1) + z := by
        rw [hc, add_pow_char_pow, ← pow_mul, ← Nat.pow_succ', add_comm (z ^ 2 ^ (j + 1 + 1)), ← add_assoc,
          add_comm (z ^ 2 ^ (j + 1)) z, add_assoc z, CharTwo.add_self_eq_zero, add_zero, add_comm]
      rw [Function.iterate_succ_apply', ← hnext]
      exact ⟨hsquare, hsum.add hsquare⟩

theorem ecN_reduced : ecN.Reduced := by
  rw [Elt.Reduced]
  decide

theorem coords_ne_order (P : curve.Point) : (coords P).1 ≠ ecN.eval α := by
  have hN := Elt.packed_spec ecN_reduced
  obtain ⟨hne, hinv⟩ := packedInv_spec hN order_computations.2.2.2.1
  have hc := (hN.add packed_one).add (packed_mul (Elt.packed_spec ecB_reduced) (packed_square hinv))
  intro h
  cases P with
  | zero => exact hne h.symm
  | some x y hP =>
      have hx : x = ecN.eval α := h
      have hequation := binaryCurve_equation.mp hP.1
      rw [hx] at hequation
      have hz : ecN.eval α + 1 + ecB.eval α * (ecN.eval α)⁻¹ ^ 2 = (y / ecN.eval α) ^ 2 + y / ecN.eval α := by
        field_simp
        linear_combination -hequation
      have htrace := (packedTrace_spec hz hc 232).2
      rw [pow_card, CharTwo.add_self_eq_zero] at htrace
      have hzero : (1 : Field233) = 0 := packed_one.unique (order_computations.2.2.2.2 ▸ htrace)
      exact one_ne_zero hzero

theorem smul_eq_zero_iff {n : Nat} : n • basePoint = 0 ↔ ecN.value ∣ n := by
  have horder : addOrderOf basePoint = ecN.value := addOrderOf_eq_prime order_smul basePoint_ne_zero
  rw [← horder, addOrderOf_dvd_iff_nsmul_eq_zero]

theorem smul_mod (n : Nat) : (n % ecN.value) • basePoint = n • basePoint := by
  conv_rhs => rw [← Nat.mod_add_div n ecN.value, add_nsmul, mul_nsmul, order_smul, nsmul_zero, add_zero]

theorem coords_smul_ne_zero {n : Nat} (h : ¬ ecN.value ∣ n) : (coords (n • basePoint)).1 ≠ 0 := by
  intro hzero
  have hdouble : n • basePoint + n • basePoint = 0 := by
    apply coords_injective ecB_ne_zero
    rw [coords_add_self, doubleCoords, if_pos hzero, coords_zero]
  rw [← add_nsmul, smul_eq_zero_iff, ← Nat.two_mul] at hdouble
  rcases ecN_prime.dvd_mul.mp hdouble with htwo | hn
  · have hle := Nat.le_of_dvd (by decide) htwo
    rw [ecN_eq] at hle
    exact absurd hle (by decide)
  · exact h hn

theorem Elt.value_injective {a b : Elt} (h : a.value = b.value) : a = b := by
  have hdata := beValue_inj (a.size.trans b.size.symm) h
  cases a
  cases b
  cases hdata
  rfl

theorem Elt.value_zero : Elt.zero.value = 0 := beValue_replicate_zero 30

theorem abscissa_mod_ne_zero {n : Nat} {p : Point} (hp : Represents p (n • basePoint)) (h : ¬ ecN.value ∣ n) :
    p.x.value % ecN.value ≠ 0 := by
  intro hmod
  have hlt : p.x.value < 2 ^ 233 := hp.reduced.1
  have hxy := congrArg Prod.fst hp.coords
  have hN := ecN_eq
  have hcases : p.x.value = 0 ∨ p.x.value = ecN.value := by
    rw [hN] at hmod ⊢
    omega
  rcases hcases with hzero | horder
  · have hx : p.x = Elt.zero := Elt.value_injective (hzero.trans Elt.value_zero.symm)
    apply coords_smul_ne_zero h
    rw [← hxy]
    dsimp only
    rw [hx, Elt.eval_zero]
  · have hx : p.x = ecN := Elt.value_injective horder
    apply coords_ne_order (n • basePoint)
    rw [← hxy]
    dsimp only
    rw [hx]

end Karphin.Common.Ec
