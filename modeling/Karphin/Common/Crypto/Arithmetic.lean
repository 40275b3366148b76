import Karphin.Common.Crypto.Theorems

/-!
# The arithmetic

What the functions on big numbers and the field operations compute, for all operands in range. Here the buffers of `bn_add`
are in a memory, where `d` may be one of the operands.
-/

namespace Karphin.Common

open Lib

/-! ## The buffers of `bn_add` -/

abbrev Memory := Nat → UInt8

def buffer (m : Memory) (p n : Nat) : List UInt8 := (List.range n).map fun i => m (p + i)

def addDigit (x y : UInt8) (c : Nat) : UInt8 × Nat :=
  let dig := x.toNat + y.toNat + c
  (UInt8.ofNat dig, if dig ≥ 0x100 then 1 else 0)

def subDigit (x y : UInt8) (c : Nat) : UInt8 × Nat :=
  let dig := y.toNat + c
  (x - UInt8.ofNat dig, if x.toNat < dig then 1 else 0)

def digitsAt (digit : UInt8 → UInt8 → Nat → UInt8 × Nat) (d a b : Nat) : Nat → Memory → Nat → Memory × Nat
  | 0, m, c => (m, c)
  | i + 1, m, c =>
      let r := digit (m (a + i)) (m (b + i)) c
      digitsAt digit d a b i (Function.update m (d + i) r.1) r.2

def bnSubModulusAt (a N n : Nat) (m : Memory) : Memory := (digitsAt subDigit a a N n m 0).1

def bnAddAt (d a b N n : Nat) (m : Memory) : Memory :=
  let sum := digitsAt addDigit d a b n m 0
  let m := if sum.2 ≠ 0 then bnSubModulusAt d N n sum.1 else sum.1
  if bnCompare (buffer m d n) (buffer m N n) ≠ .lt then bnSubModulusAt d N n m else m

def digits (digit : UInt8 → UInt8 → Nat → UInt8 × Nat) : (a b : List UInt8) → List UInt8 × Nat
  | x :: a, y :: b =>
      let rest := digits digit a b
      let r := digit x y rest.2
      (r.1 :: rest.1, r.2)
  | _, _ => ([], 0)

theorem digits_add : ∀ a b, digits addDigit a b = bnAddLoop a b
  | x :: a, y :: b => by rw [digits, digits_add a b]; rfl
  | [], _ => rfl
  | _ :: _, [] => rfl

theorem digits_sub : ∀ a N, digits subDigit a N = bnSubLoop a N
  | x :: a, y :: N => by rw [digits, digits_sub a N]; rfl
  | [], _ => rfl
  | _ :: _, [] => rfl

theorem buffer_succ (m : Memory) (p n : Nat) : buffer m p (n + 1) = m p :: buffer m (p + 1) n := by
  simp [buffer, List.range_succ_eq_map, Function.comp_def, Nat.add_right_comm, Nat.add_assoc]

theorem buffer_congr {m m' : Memory} {p n : Nat} (h : ∀ q, p ≤ q → q < p + n → m' q = m q) :
    buffer m' p n = buffer m p n :=
  List.map_congr_left fun i hi => h _ (Nat.le_add_right _ _) (Nat.add_lt_add_left (List.mem_range.mp hi) _)

/-- A buffer that is written, and one that is read, which is the same one or has no byte in common with it. -/
def Apart (n d a : Nat) : Prop := d = a ∨ d + n ≤ a ∨ a + n ≤ d

def Outside (n d : Nat) (m m' : Memory) : Prop := ∀ q, ¬ (d ≤ q ∧ q < d + n) → m' q = m q

theorem digitsAt_run (digit : UInt8 → UInt8 → Nat → UInt8 × Nat) {n d a b : Nat} (ha : Apart n d a) (hb : Apart n d b)
    (m : Memory) : ∀ (i k : Nat) (m' : Memory) (c : Nat), i + k = n → Outside k (d + i) m m' →
      (buffer m' (d + i) k, c) = digits digit (buffer m (a + i) k) (buffer m (b + i) k) →
      (buffer (digitsAt digit d a b i m' c).1 d n, (digitsAt digit d a b i m' c).2) =
        digits digit (buffer m a n) (buffer m b n) ∧ Outside n d m (digitsAt digit d a b i m' c).1
  | 0, k, m', c, hn, hout, heq => by
      obtain rfl : k = n := by omega
      exact ⟨heq, hout⟩
  | i + 1, k, m', c, hn, hout, heq => by
      have hread : ∀ p, Apart n d p → m' (p + i) = m (p + i) := by
        intro p hp
        apply hout
        rcases hp with rfl | hp | hp <;> omega
      rw [digitsAt, hread a ha, hread b hb]
      apply digitsAt_run digit ha hb m i (k + 1) _ _ (by omega)
      · intro q hq
        rw [Function.update_of_ne (by omega)]
        exact hout q (by omega)
      · have hrest : buffer (Function.update m' (d + i) (digit (m (a + i)) (m (b + i)) c).1) (d + i + 1) k =
            buffer m' (d + (i + 1)) k := by
          apply buffer_congr
          intro q hq _
          exact Function.update_of_ne (by omega) _ _
        rw [buffer_succ, buffer_succ, buffer_succ, digits, Nat.add_assoc a, Nat.add_assoc b, ← heq, hrest,
          Function.update_self]

theorem digitsAt_eq (digit : UInt8 → UInt8 → Nat → UInt8 × Nat) {n d a b : Nat} (ha : Apart n d a) (hb : Apart n d b)
    (m : Memory) : (buffer (digitsAt digit d a b n m 0).1 d n, (digitsAt digit d a b n m 0).2) =
      digits digit (buffer m a n) (buffer m b n) ∧ Outside n d m (digitsAt digit d a b n m 0).1 :=
  digitsAt_run digit ha hb m n 0 m 0 rfl (fun _ _ => rfl) rfl

theorem Outside.buffer_eq {n d p : Nat} {m m' : Memory} (h : Outside n d m m') (hp : d + n ≤ p ∨ p + n ≤ d) :
    buffer m' p n = buffer m p n := by
  apply buffer_congr
  intro q hq hq'
  apply h
  omega

theorem bnAddAt_eq {n d a b N : Nat} (ha : Apart n d a) (hb : Apart n d b) (hN : d + n ≤ N ∨ N + n ≤ d) (m : Memory) :
    buffer (bnAddAt d a b N n m) d n = bnAdd (buffer m a n) (buffer m b n) (buffer m N n) ∧
      Outside n d m (bnAddAt d a b N n m) := by
  have hsub : ∀ m', Outside n d m m' → buffer (bnSubModulusAt d N n m') d n =
      bnSubModulus (buffer m' d n) (buffer m N n) ∧ Outside n d m (bnSubModulusAt d N n m') := by
    intro m' hout
    obtain ⟨heq, hout'⟩ := digitsAt_eq subDigit (.inl rfl : Apart n d d) (.inr hN) m'
    rw [digits_sub, hout.buffer_eq hN] at heq
    exact ⟨congrArg Prod.fst heq, fun q hq => (hout' q hq).trans (hout q hq)⟩
  obtain ⟨heq, hout⟩ := digitsAt_eq addDigit ha hb m
  rw [digits_add] at heq
  have hcarried : ∀ m', Outside n d m m' →
      let m'' := if bnCompare (buffer m' d n) (buffer m' N n) ≠ .lt then bnSubModulusAt d N n m' else m'
      buffer m'' d n = bnReduce (buffer m' d n) (buffer m N n) ∧ Outside n d m m'' := by
    intro m' hout
    rw [hout.buffer_eq hN, bnReduce]
    split
    next => exact hsub m' hout
    next => exact ⟨rfl, hout⟩
  rw [bnAddAt, bnAdd, ← heq]
  dsimp only
  split
  next =>
    obtain ⟨hvalue, hout'⟩ := hsub _ hout
    rw [← hvalue]
    exact hcarried _ hout'
  next => exact hcarried _ hout

/-! ## Big numbers -/

def Below (N d : List UInt8) : Prop := d.length = N.length ∧ beValue d < beValue N

variable {a b N : List UInt8}

theorem Below.add (ha : Below N a) (hb : Below N b) : Below N (bnAdd a b N) := by
  refine ⟨bnAdd_length ha.1 hb.1, ?_⟩
  rw [bnAdd_value ha.1 hb.1 ha.2 hb.2.le]
  exact Nat.mod_lt _ (Nat.zero_lt_of_lt ha.2)

theorem Below.mul (hb : Below N b) (a : List UInt8) : Below N (bnMul a b N) := by
  have hpos := Nat.zero_lt_of_lt hb.2
  refine ⟨bnMul_length a hb.1, ?_⟩
  rw [bnMul_value hb.1 hpos hb.2.le]
  exact Nat.mod_lt _ hpos

theorem Below.byte (hN : 1 < beValue N) : Below N (bnByte N.length 1) := by
  have hlen : 0 < N.length := by
    apply List.length_pos_iff.mpr
    rintro rfl
    exact absurd hN (by decide)
  refine ⟨bnByte_length hlen 1, ?_⟩
  rwa [beValue_bnByte]

theorem mul_bnInv (ha : Below N a) (hprime : (beValue N).Prime) (hpos : 0 < beValue a) :
    beValue a * beValue (bnInv a N) % beValue N = 1 := by
  have hN := hprime.two_le
  have hcoprime : (beValue a).Coprime (beValue N) := (Nat.coprime_of_lt_prime hpos.ne' ha.2 hprime).symm
  have hfermat := Nat.ModEq.pow_totient hcoprime
  rw [Nat.totient_prime hprime, Nat.ModEq, Nat.mod_eq_of_lt hN] at hfermat
  have hexp : beValue N - 1 = beValue N - 2 + 1 := by omega
  rw [bnInv_value ha.1 hN ha.2.le, Nat.mul_mod_mod, ← pow_succ', ← hexp, hfermat]

/-- Also of the values that the buffers have on the way, and in place. -/
theorem bn_arithmetic (hN : 1 < beValue N) (ha : Below N a) (hb : Below N b) :
    (Below N (bnAdd a b N) ∧ beValue (bnAdd a b N) = (beValue a + beValue b) % beValue N) ∧
    (∀ (m : Memory) (d p q r : Nat), buffer m p N.length = a → buffer m q N.length = b → buffer m r N.length = N →
      Apart N.length d p → Apart N.length d q → (d + N.length ≤ r ∨ r + N.length ≤ d) →
      buffer (bnAddAt d p q r N.length m) d N.length = bnAdd a b N ∧
        Outside N.length d m (bnAddAt d p q r N.length m)) ∧
    (∀ c, beValue (bnMul c b N) = beValue c * beValue b % beValue N ∧
      ∀ d ∈ binaryStates (fun d => bnAdd d d N) (fun d => bnAdd d b N) (bnZero N.length) (bytesBits c), Below N d) ∧
    (∀ e, beValue (bnExp a N e) = beValue a ^ beValue e % beValue N ∧
      ∀ d ∈ binaryStates (fun d => bnMul d d N) (fun t => bnMul t a N) (bnByte N.length 1) (bytesBits e), Below N d) ∧
    ((beValue N).Prime → 0 < beValue a → Below N (bnInv a N) ∧ beValue a * beValue (bnInv a N) % beValue N = 1) := by
  have hpos := Nat.zero_lt_of_lt hN
  have hzero : Below N (bnZero N.length) := ⟨bnZero_length _, by rwa [beValue_bnZero]⟩
  refine ⟨⟨ha.add hb, bnAdd_value ha.1 hb.1 ha.2 hb.2.le⟩, ?_, ?_, ?_, ?_⟩
  · intro m d p q r hp hq hr hdp hdq hdr
    have h := bnAddAt_eq hdp hdq hdr m
    rwa [hp, hq, hr] at h
  · intro c
    refine ⟨bnMul_value hb.1 hpos hb.2.le, ?_⟩
    exact binaryStates_keep _ (fun d hd => hd.add hd) (fun d hd => hd.add hb) hzero _
  · intro e
    refine ⟨bnExp_value ha.1 hN ha.2.le, ?_⟩
    exact binaryStates_keep _ (fun d hd => hd.mul d) (fun t _ => ha.mul t) (Below.byte hN) _
  · intro hprime hpos
    refine ⟨?_, mul_bnInv ha hprime hpos⟩
    exact binaryMethod_keeps _ (fun d hd => hd.mul d) (fun t _ => ha.mul t) (Below.byte hN) _

theorem bn_arithmetic_eleven : beValue (bnAdd [0, 7] [0, 5] [0, 11]) = 1 ∧ beValue (bnMul [255, 255] [0, 5] [0, 11]) = 7 ∧
    beValue [0, 7] * beValue (bnInv [0, 7] [0, 11]) % beValue [0, 11] = 1 := by
  obtain ⟨⟨-, hadd⟩, -, hmul, -, hinv⟩ :=
    @bn_arithmetic [0, 7] [0, 5] [0, 11] (by decide) ⟨rfl, by decide⟩ ⟨rfl, by decide⟩
  have hprime : Nat.Prime 11 := prime_of_trialDivision (by decide)
  exact ⟨hadd, (hmul [255, 255]).1, (hinv hprime (by decide)).2⟩

end Karphin.Common

/-! ## Field elements -/

namespace Karphin.Common.Ec

open Lib Polynomial

theorem Elt.eval_modByMonic {a : Elt} (ha : a.Reduced) {p : (ZMod 2)[X]}
    (h : a.eval α = AdjoinRoot.mk (trinomial 233 74) p) : a.eval X = p %ₘ trinomial 233 74 := by
  obtain ⟨bits, hlen, hbits⟩ := ha.exists_bits
  have heval : a.eval (X : (ZMod 2)[X]) = horner X bits := by
    rw [Elt.eval, hbits, horner_append, horner_replicate_false, zero_mul, zero_add]
  have hdegree : (a.eval (X : (ZMod 2)[X])).degree < (trinomial 233 74).degree := by
    rw [heval, degree_eq_natDegree (Lib.trinomial_monic (by decide)).ne_zero, Lib.trinomial_natDegree (by decide)]
    exact lt_of_lt_of_eq (horner_X_degree bits) (by rw [hlen])
  rw [Elt.eval, α, horner_root, AdjoinRoot.mk_eq_mk] at h
  rw [← modByMonic_eq_of_dvd_sub (Lib.trinomial_monic (by decide)) h]
  exact ((modByMonic_eq_self_iff (Lib.trinomial_monic (by decide))).mpr hdegree).symm

theorem Elt.mk_eval (a : Elt) : AdjoinRoot.mk (trinomial 233 74) (a.eval X) = a.eval α := (horner_root _).symm

theorem eltOne_eq : eltOne = Elt.zero.flipLast := rfl

theorem Elt.field_arithmetic {a b : Elt} (ha : a.Reduced) (hb : b.Reduced) :
    ((a.mul b).Reduced ∧ (a.mul b).eval X = a.eval X * b.eval X %ₘ trinomial 233 74) ∧
    (a.square.Reduced ∧ a.square = a.mul a) ∧
    (a.inv.Reduced ∧ a.inv.eval X = a.eval X ^ (2 ^ 233 - 2) %ₘ trinomial 233 74) ∧
    (a ≠ Elt.zero → a.mul a.inv = eltOne) := by
  have hinv := Elt.inv_spec ha
  refine ⟨⟨Elt.mul_reduced ha hb, ?_⟩, ⟨Elt.square_reduced a, ?_⟩, ⟨hinv.1, ?_⟩, ?_⟩
  · apply Elt.eval_modByMonic (Elt.mul_reduced ha hb)
    rw [Elt.eval_mul ha hb, map_mul, Elt.mk_eval, Elt.mk_eval]
  · apply Elt.eval_injective (Elt.square_reduced a) (Elt.mul_reduced ha ha)
    rw [Elt.eval_square α_pow, Elt.eval_mul ha ha, sq]
  · have hexp : (2 ^ 232 - 1) * 2 = 2 ^ 233 - 2 := by norm_num
    apply Elt.eval_modByMonic hinv.1
    rw [hinv.2, ← inv_of_ones, map_pow, Elt.mk_eval, ← pow_mul, hexp]
  · intro hne
    have hvalue : a.eval α ≠ 0 := fun h => hne (Elt.eq_zero_of_isZero ((Elt.isZero_iff ha).mpr h))
    rw [eltOne_eq]
    apply Elt.eval_injective (Elt.mul_reduced ha hinv.1) (Elt.flipLast_reduced Elt.zero_reduced)
    rw [Elt.eval_mul ha hinv.1, hinv.2, mul_inv_cancel₀ hvalue, Elt.eval_flipLast, Elt.eval_zero, zero_add]

theorem field_arithmetic_base : ecG.x.square = ecG.x.mul ecG.x ∧ ecG.x.mul ecG.x.inv = eltOne := by
  obtain ⟨-, hsquare, -, hone⟩ := Elt.field_arithmetic ecG_x_reduced ecG_y_reduced
  exact ⟨hsquare.2, hone (by decide)⟩

end Karphin.Common.Ec
