import Mathlib

/-!
# Bits from the top

A number in bytes, its highest byte first, and what is computed by looking at its bits one after another from the top: a
value by Horner's rule, and a multiple or a power by doubling at each bit and adding at those that are set.
-/

namespace Karphin.Lib

def byteMasks : List UInt8 := [0x80, 0x40, 0x20, 0x10, 0x08, 0x04, 0x02, 0x01]

def byteBits (b : UInt8) : List Bool := byteMasks.map fun mask => b &&& mask != 0

def bytesBits (bytes : List UInt8) : List Bool := bytes.flatMap byteBits

def beValue : List UInt8 → Nat
  | [] => 0
  | b :: bytes => b.toNat * 256 ^ bytes.length + beValue bytes

/-- The polynomial with these coefficients, the leading one first, at `x`. -/
def horner {R : Type} [Semiring R] (x : R) (bits : List Bool) : R :=
  bits.foldl (fun d bit => d * x + if bit then 1 else 0) 0

def binaryMethod {α : Type} (double add : α → α) (start : α) (bits : List Bool) : α :=
  bits.foldl (fun d bit => if bit then add (double d) else double d) start

/-! ## Horner's rule -/

section

variable {R : Type} [CommSemiring R] {x : R}

theorem foldl_horner : ∀ (bits : List Bool) (start : R),
    bits.foldl (fun d bit => d * x + if bit then 1 else 0) start = start * x ^ bits.length + horner x bits
  | [], start => by simp [horner]
  | bit :: bits, start => by
      have hcons : horner x (bit :: bits) = (0 * x + if bit then 1 else 0) * x ^ bits.length + horner x bits :=
        foldl_horner bits _
      rw [List.foldl_cons, foldl_horner bits, hcons, List.length_cons]
      ring

@[simp]
theorem horner_nil : horner x [] = 0 := rfl

theorem horner_cons (bit : Bool) (bits : List Bool) :
    horner x (bit :: bits) = (if bit then 1 else 0) * x ^ bits.length + horner x bits := by
  rw [horner, List.foldl_cons, foldl_horner]
  ring

theorem horner_append (front bits : List Bool) :
    horner x (front ++ bits) = horner x front * x ^ bits.length + horner x bits := by
  rw [horner, List.foldl_append, foldl_horner]
  rfl

end

/-! ## Bytes -/

@[simp]
theorem byteBits_length (b : UInt8) : (byteBits b).length = 8 := rfl

@[simp]
theorem bytesBits_nil : bytesBits [] = [] := rfl

theorem bytesBits_cons (b : UInt8) (bytes : List UInt8) : bytesBits (b :: bytes) = byteBits b ++ bytesBits bytes := rfl

theorem bytesBits_append (front bytes : List UInt8) :
    bytesBits (front ++ bytes) = bytesBits front ++ bytesBits bytes := List.flatMap_append

@[simp]
theorem bytesBits_length (bytes : List UInt8) : (bytesBits bytes).length = 8 * bytes.length := by
  induction bytes with
  | nil => rfl
  | cons b bytes ih =>
      rw [bytesBits_cons, List.length_append, ih, byteBits_length, List.length_cons]
      ring

theorem byteBits_eq (b : UInt8) : byteBits b = [7, 6, 5, 4, 3, 2, 1, 0].map b.toBitVec.getLsbD := by
  have hmask : ∀ i < 8, (b &&& UInt8.ofBitVec (BitVec.twoPow 8 i) != 0) = b.toBitVec.getLsbD i := by
    intro i hi
    have hpow : BitVec.twoPow 8 i ≠ 0 := by
      intro h
      have hbit := congrArg (·.getLsbD i) h
      simp [hi] at hbit
    rw [Bool.eq_iff_iff, bne_iff_ne, ne_eq, ← UInt8.toBitVec_inj, UInt8.toBitVec_and, UInt8.toBitVec_ofBitVec,
      BitVec.and_twoPow]
    cases b.toBitVec.getLsbD i
    · simp
    · simpa using hpow
  simp only [byteBits, byteMasks, List.map_cons, List.map_nil]
  rw [← hmask 7 (by decide), ← hmask 6 (by decide), ← hmask 5 (by decide), ← hmask 4 (by decide),
    ← hmask 3 (by decide), ← hmask 2 (by decide), ← hmask 1 (by decide), ← hmask 0 (by decide)]
  rfl

theorem byteBits_inj {a b : UInt8} (h : byteBits a = byteBits b) : a = b := by
  apply UInt8.eq_of_toBitVec_eq
  apply BitVec.eq_of_getLsbD_eq
  rw [byteBits_eq, byteBits_eq] at h
  intro i hi
  simp only [List.map_cons, List.cons.injEq] at h
  interval_cases i <;> simp only [h]

theorem horner_byteBits (b : UInt8) : horner 2 (byteBits b) = b.toNat := by
  have hbit : ∀ i, (if b.toBitVec.getLsbD i then 1 else 0) = b.toNat / 2 ^ i % 2 := by
    intro i
    rw [← Nat.toNat_testBit]
    change (if b.toNat.testBit i then 1 else 0) = _
    cases b.toNat.testBit i <;> rfl
  have hsum : ∀ d r : Nat → Nat, (∀ i, d i = 2 * d (i + 1) + r i) → d 8 = 0 →
      r 7 * 2 ^ 7 + (r 6 * 2 ^ 6 + (r 5 * 2 ^ 5 + (r 4 * 2 ^ 4 + (r 3 * 2 ^ 3 + (r 2 * 2 ^ 2 + (r 1 * 2 ^ 1 +
        (r 0 * 2 ^ 0 + 0))))))) = d 0 := by
    intro d r h hlast
    have h0 : d 0 = 2 * d 1 + r 0 := h 0
    have h1 : d 1 = 2 * d 2 + r 1 := h 1
    have h2 : d 2 = 2 * d 3 + r 2 := h 2
    have h3 : d 3 = 2 * d 4 + r 3 := h 3
    have h4 : d 4 = 2 * d 5 + r 4 := h 4
    have h5 : d 5 = 2 * d 6 + r 5 := h 5
    have h6 : d 6 = 2 * d 7 + r 6 := h 6
    have h7 : d 7 = 2 * d 8 + r 7 := h 7
    omega
  rw [byteBits_eq]
  simp only [List.map_cons, List.map_nil, horner_cons, horner_nil, hbit, List.length_cons, List.length_nil]
  refine (hsum (b.toNat / 2 ^ ·) (b.toNat / 2 ^ · % 2) (fun i => ?_) (Nat.div_eq_of_lt b.toNat_lt)).trans (Nat.div_one _)
  rw [Nat.pow_succ, ← Nat.div_div_eq_div_mul, Nat.div_add_mod]

theorem horner_bytesBits (bytes : List UInt8) : horner 2 (bytesBits bytes) = beValue bytes := by
  induction bytes with
  | nil => rfl
  | cons b bytes ih =>
      have hpow : 2 ^ (8 * bytes.length) = 256 ^ bytes.length := Nat.pow_mul 2 8 bytes.length
      rw [bytesBits_cons, horner_append, horner_byteBits, ih, bytesBits_length, hpow, beValue]

theorem beValue_lt (bytes : List UInt8) : beValue bytes < 256 ^ bytes.length := by
  induction bytes with
  | nil => decide
  | cons b bytes ih =>
      have hb : b.toNat < 256 := UInt8.toNat_lt b
      calc b.toNat * 256 ^ bytes.length + beValue bytes
          < b.toNat * 256 ^ bytes.length + 256 ^ bytes.length := Nat.add_lt_add_left ih _
        _ = (b.toNat + 1) * 256 ^ bytes.length := (Nat.succ_mul _ _).symm
        _ ≤ 256 * 256 ^ bytes.length := Nat.mul_le_mul_right _ hb
        _ = 256 ^ (bytes.length + 1) := (Nat.pow_succ').symm

theorem beValue_replicate_zero : ∀ n, beValue (List.replicate n 0) = 0
  | 0 => rfl
  | n + 1 => by
      rw [List.replicate_succ, beValue, beValue_replicate_zero n]
      simp

theorem beValue_append (front bytes : List UInt8) :
    beValue (front ++ bytes) = beValue front * 256 ^ bytes.length + beValue bytes := by
  induction front with
  | nil => simp [beValue]
  | cons b front ih =>
      rw [List.cons_append, beValue, beValue, ih, List.length_append]
      ring

theorem beValue_inj : ∀ {bytes bytes' : List UInt8}, bytes.length = bytes'.length →
    beValue bytes = beValue bytes' → bytes = bytes'
  | [], [], _, _ => rfl
  | b :: bytes, b' :: bytes', hlen, h => by
      have hlen' : bytes.length = bytes'.length := Nat.succ.inj hlen
      have hlt := beValue_lt bytes
      have hlt' := beValue_lt bytes'
      simp only [beValue, ← hlen'] at h hlt'
      have hhead : b.toNat = b'.toNat := by
        have hpos : 0 < 256 ^ bytes.length := Nat.pow_pos (by decide)
        have hdiv : ∀ c v, v < 256 ^ bytes.length → (c * 256 ^ bytes.length + v) / 256 ^ bytes.length = c := by
          intro c v hv
          rw [Nat.add_comm, Nat.add_mul_div_right _ _ hpos, Nat.div_eq_of_lt hv, Nat.zero_add]
        rw [← hdiv b.toNat _ hlt, h, hdiv _ _ hlt']
      rw [hhead] at h
      rw [UInt8.toNat_inj.mp hhead, beValue_inj hlen' (Nat.add_left_cancel h)]

/-! ## Doubling and adding -/

section

variable {α : Type} {double add : α → α} {holds : Nat → α → Prop}

theorem binaryMethod_append (start : α) (front bits : List Bool) : binaryMethod double add start (front ++ bits) =
    binaryMethod double add (binaryMethod double add start front) bits := List.foldl_append

def binaryStates {α : Type} (double add : α → α) : (start : α) → (bits : List Bool) → List α
  | start, [] => [start]
  | start, bit :: bits =>
      start :: double start :: binaryStates double add (if bit then add (double start) else double start) bits

theorem binaryStates_keep (keeps : α → Prop) (hdouble : ∀ d, keeps d → keeps (double d))
    (hadd : ∀ d, keeps d → keeps (add d)) : ∀ {start : α}, keeps start → ∀ (bits : List Bool),
    ∀ d ∈ binaryStates double add start bits, keeps d
  | _, h, [], d, hd => by rwa [List.mem_singleton.mp hd]
  | start, h, bit :: bits, d, hd => by
      have hnext : keeps (if bit then add (double start) else double start) := by
        cases bit with
        | true => exact hadd _ (hdouble _ h)
        | false => exact hdouble _ h
      rcases List.mem_cons.mp hd with rfl | hd
      · exact h
      · rcases List.mem_cons.mp hd with rfl | hd
        · exact hdouble _ h
        · exact binaryStates_keep keeps hdouble hadd hnext bits d hd

theorem binaryMethod_mem_states : ∀ (start : α) (bits : List Bool),
    binaryMethod double add start bits ∈ binaryStates double add start bits
  | _, [] => List.mem_singleton_self _
  | _, _ :: bits => List.mem_cons_of_mem _ (List.mem_cons_of_mem _ (binaryMethod_mem_states _ bits))

theorem binaryMethod_keeps (keeps : α → Prop) (hdouble : ∀ d, keeps d → keeps (double d))
    (hadd : ∀ d, keeps d → keeps (add d)) {start : α} (h : keeps start) (bits : List Bool) :
    keeps (binaryMethod double add start bits) :=
  binaryStates_keep keeps hdouble hadd h bits _ (binaryMethod_mem_states start bits)

theorem binaryMethod_from (hdouble : ∀ n d, holds n d → holds (n * 2) (double d))
    (hadd : ∀ n d, holds n d → holds (n + 1) (add d)) : ∀ (bits : List Bool) (n : Nat) (start : α), holds n start →
    holds (n * 2 ^ bits.length + horner 2 bits) (binaryMethod double add start bits)
  | [], n, start, h => by simpa [binaryMethod] using h
  | bit :: bits, n, start, h => by
      have hnext : holds (n * 2 + if bit then 1 else 0) (if bit then add (double start) else double start) := by
        cases bit with
        | true => exact hadd _ _ (hdouble _ _ h)
        | false => exact hdouble _ _ h
      have hrest := binaryMethod_from hdouble hadd bits _ _ hnext
      have hvalue : n * 2 ^ (bit :: bits).length + horner 2 (bit :: bits) =
          (n * 2 + if bit then 1 else 0) * 2 ^ bits.length + horner 2 bits := by
        rw [horner_cons, List.length_cons]
        ring
      rw [hvalue]
      exact hrest

theorem binaryMethod_holds (hdouble : ∀ n d, holds n d → holds (n * 2) (double d))
    (hadd : ∀ n d, holds n d → holds (n + 1) (add d)) {start : α} (h : holds 0 start) (bytes : List UInt8) :
    holds (beValue bytes) (binaryMethod double add start (bytesBits bytes)) := by
  have hrun := binaryMethod_from hdouble hadd (bytesBits bytes) 0 start h
  rwa [Nat.zero_mul, Nat.zero_add, horner_bytesBits] at hrun

theorem binaryMethod_horner {R : Type} [CommSemiring R] {x y : R} {eval : α → R} {good : α → Prop}
    (hdouble : ∀ d, good d → good (double d) ∧ eval (double d) = x * eval d)
    (hadd : ∀ d, good d → good (add d) ∧ eval (add d) = eval d + y) : ∀ (bits : List Bool) {start : α}, good start →
    good (binaryMethod double add start bits) ∧
      eval (binaryMethod double add start bits) = eval start * x ^ bits.length + horner x bits * y
  | [], start, h => by
      refine ⟨h, ?_⟩
      simp [binaryMethod]
  | bit :: bits, start, h => by
      have hnext : good (if bit then add (double start) else double start) ∧
          eval (if bit then add (double start) else double start) = x * eval start + (if bit then 1 else 0) * y := by
        obtain ⟨hgood, heval⟩ := hdouble start h
        cases bit with
        | true =>
            rw [if_pos rfl, if_pos rfl, one_mul, ← heval]
            exact hadd _ hgood
        | false =>
            rw [if_neg Bool.false_ne_true, if_neg Bool.false_ne_true, zero_mul, add_zero]
            exact ⟨hgood, heval⟩
      obtain ⟨hgood, heval⟩ := binaryMethod_horner hdouble hadd bits hnext.1
      refine ⟨hgood, heval.trans ?_⟩
      rw [hnext.2, horner_cons, List.length_cons]
      ring

end

end Karphin.Lib

/-!
## Large primes

A number is prime when a power of some `a` is 1 at `p - 1` and at no `(p - 1) / q`. The primes `q` are smaller, and shown
to be prime in the same way, or by trial division when they are small.
-/

namespace Karphin.Lib

/-- `a ^ n % p`, where `n` has at most `fuel` bits. -/
def powMod (p : Nat) : (fuel : Nat) → (a n : Nat) → Nat
  | 0, _, _ => 1 % p
  | fuel + 1, a, n =>
      if n % 2 = 1 then powMod p fuel (a * a % p) (n / 2) * a % p else powMod p fuel (a * a % p) (n / 2)

theorem powMod_eq (p : Nat) : ∀ {fuel : Nat} (a : Nat) {n : Nat}, n < 2 ^ fuel → powMod p fuel a n = a ^ n % p
  | 0, _, n, h => by
      have hn : n = 0 := Nat.lt_one_iff.mp h
      rw [hn]
      rfl
  | fuel + 1, a, n, h => by
      have hhalf : n / 2 < 2 ^ fuel := Nat.div_lt_of_lt_mul (by rwa [Nat.pow_succ'] at h)
      have hsquare : powMod p fuel (a * a % p) (n / 2) = a ^ (2 * (n / 2)) % p := by
        rw [powMod_eq p _ hhalf, ← Nat.pow_mod, Nat.pow_mul, Nat.pow_two]
      have hn := Nat.div_add_mod n 2
      rw [powMod, hsquare]
      split
      next hodd =>
        rw [hodd] at hn
        rw [Nat.mod_mul_mod, ← pow_succ, hn]
      next heven =>
        have hzero : n % 2 = 0 := Nat.mod_two_ne_one.mp heven
        rw [hzero, Nat.add_zero] at hn
        rw [hn]

def lucasTest (fuel p a : Nat) (factors : List Nat) : Bool :=
  2 ≤ p && p ≤ 2 ^ fuel && factors.prod = p - 1 && powMod p fuel a (p - 1) = 1 &&
    factors.all fun q => powMod p fuel a ((p - 1) / q) ≠ 1

theorem cast_pow_eq_one_iff {p : Nat} (h : 2 ≤ p) (a n : Nat) : (a : ZMod p) ^ n = 1 ↔ a ^ n % p = 1 := by
  have hone : 1 % p = 1 := Nat.mod_eq_of_lt h
  rw [← Nat.cast_pow, ← Nat.cast_one, ZMod.natCast_eq_natCast_iff', hone]

theorem prime_of_lucasTest {fuel p a : Nat} {factors : List Nat} (hfactors : ∀ q ∈ factors, q.Prime)
    (h : lucasTest fuel p a factors = true) : p.Prime := by
  simp only [lucasTest, Bool.and_eq_true, decide_eq_true_eq, List.all_eq_true] at h
  obtain ⟨⟨⟨⟨h2, hfuel⟩, hprod⟩, hfull⟩, hparts⟩ := h
  have hlt : ∀ n ≤ p - 1, n < 2 ^ fuel := by
    intro n hn
    omega
  apply lucas_primality p a
  · rw [cast_pow_eq_one_iff h2, ← powMod_eq p a (hlt _ (Nat.le_refl _))]
    exact hfull
  · intro q hq hdvd
    rw [← hprod, hq.prime.dvd_prod_iff] at hdvd
    obtain ⟨r, hr, hqr⟩ := hdvd
    have hsame : q = r := (Nat.prime_dvd_prime_iff_eq hq (hfactors r hr)).mp hqr
    rw [hsame, ne_eq, cast_pow_eq_one_iff h2, ← powMod_eq p a (hlt _ (Nat.div_le_self _ _))]
    exact hparts r hr

def trialDivision (p : Nat) : Bool := 2 ≤ p && (List.range p).all fun d => d < 2 || p % d ≠ 0

theorem prime_of_trialDivision {p : Nat} (h : trialDivision p = true) : p.Prime := by
  simp only [trialDivision, Bool.and_eq_true, Bool.or_eq_true, decide_eq_true_eq, List.all_eq_true,
    List.mem_range] at h
  rw [Nat.prime_def]
  refine ⟨h.1, fun d hd => ?_⟩
  have hle : d ≤ p := Nat.le_of_dvd (by omega) hd
  rcases Nat.lt_or_eq_of_le hle with hlt | heq
  · rcases h.2 d hlt with hsmall | hrest
    · have hpos : 0 < d := Nat.pos_of_dvd_of_pos hd (by omega)
      exact Or.inl (by omega)
    · exact absurd (Nat.mod_eq_zero_of_dvd hd) hrest
  · exact Or.inr heq

/-- A number, the base for its test, and the prime factors of the number before it. -/
structure LucasEntry where
  p : Nat
  a : Nat
  factors : List Nat

def certifies (fuel : Nat) : List LucasEntry → Bool
  | [] => true
  | entry :: entries =>
      lucasTest fuel entry.p entry.a entry.factors &&
        (entry.factors.all fun q => entries.any (fun other => other.p = q) || trialDivision q) && certifies fuel entries

theorem prime_of_certifies {fuel : Nat} : ∀ {entries : List LucasEntry}, certifies fuel entries = true →
    ∀ entry ∈ entries, entry.p.Prime
  | [], _, _, hmem => absurd hmem List.not_mem_nil
  | head :: entries, h, entry, hmem => by
      simp only [certifies, Bool.and_eq_true, Bool.or_eq_true, List.all_eq_true, List.any_eq_true,
        decide_eq_true_eq] at h
      obtain ⟨⟨htest, hfactors⟩, hrest⟩ := h
      have ih := prime_of_certifies hrest
      rcases List.mem_cons.mp hmem with heq | hmem
      · rw [heq]
        refine prime_of_lucasTest (fun q hq => ?_) htest
        rcases hfactors q hq with ⟨other, hother, hsame⟩ | htrial
        · exact hsame ▸ ih other hother
        · exact prime_of_trialDivision htrial
      · exact ih entry hmem

end Karphin.Lib
