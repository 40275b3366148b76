import Karphin.Lib.BinaryMethod

/-!
# Packed polynomials

A polynomial over the two-element field as one number, a coefficient in each byte. Numbers multiply as polynomials do as long
as no coefficient grows out of its byte, so the product in a field is one product of numbers, a mask, and two folds.
-/

namespace Karphin.Lib

variable {R : Type} [CommRing R] {x v v' : R} {n n' len len' bound bound' m k : Nat}

/-- `n` has the coefficients of a polynomial in its bytes, at most `bound` each, and the polynomial is `v` at `x`. -/
def Packs (x : R) (len bound n : Nat) (v : R) : Prop :=
  ∃ ds : List Nat, ds.length ≤ len ∧ (∀ d ∈ ds, d ≤ bound) ∧ Nat.ofDigits 256 ds = n ∧ Nat.ofDigits x ds = v

def packedMask (k : Nat) : Nat := (256 ^ k - 1) / 255

/-- What is above the degree `m` is `X ^ k + 1` as often, lower down. -/
def packedFold (m k n : Nat) : Nat := n % 256 ^ m + n / 256 ^ m * (256 ^ k + 1)

def packedAdd (m n n' : Nat) : Nat := (n + n') &&& packedMask m

def packedMul (m k n n' : Nat) : Nat :=
  packedFold m k (packedFold m k (n * n' &&& packedMask (2 * m))) &&& packedMask m

/-! ## Lists of coefficients -/

def addDigits : List Nat → List Nat → List Nat
  | [], bs => bs
  | as, [] => as
  | a :: as, b :: bs => (a + b) :: addDigits as bs

theorem addDigits_length : ∀ (as bs : List Nat), (addDigits as bs).length = max as.length bs.length
  | [], bs => (Nat.zero_max _).symm
  | a :: as, [] => (Nat.max_zero _).symm
  | a :: as, b :: bs => by
      rw [addDigits, List.length_cons, addDigits_length as bs, List.length_cons, List.length_cons,
        Nat.succ_max_succ]

theorem addDigits_le : ∀ {as bs : List Nat}, (∀ a ∈ as, a ≤ bound) → (∀ b ∈ bs, b ≤ bound') →
    ∀ d ∈ addDigits as bs, d ≤ bound + bound'
  | [], _, _, hbs, d, hd => Nat.le_trans (hbs d hd) (Nat.le_add_left _ _)
  | _ :: _, [], has, _, d, hd => Nat.le_trans (has d hd) (Nat.le_add_right _ _)
  | a :: as, b :: bs, has, hbs, d, hd => by
      rcases List.mem_cons.mp hd with heq | hd
      · rw [heq]
        exact Nat.add_le_add (has a List.mem_cons_self) (hbs b List.mem_cons_self)
      · exact addDigits_le (fun a ha => has a (List.mem_cons_of_mem _ ha))
          (fun b hb => hbs b (List.mem_cons_of_mem _ hb)) d hd

theorem ofDigits_addDigits {S : Type} [CommSemiring S] (b : S) : ∀ (as bs : List Nat),
    Nat.ofDigits b (addDigits as bs) = Nat.ofDigits b as + Nat.ofDigits b bs
  | [], bs => (zero_add _).symm
  | a :: as, [] => (add_zero _).symm
  | a :: as, c :: bs => by
      simp only [addDigits, Nat.ofDigits, ofDigits_addDigits b as bs, Nat.cast_add]
      ring

theorem ofDigits_map_mod_two [CharP R 2] (ds : List Nat) : Nat.ofDigits x (ds.map (· % 2)) = Nat.ofDigits x ds := by
  induction ds with
  | nil => rfl
  | cons d ds ih =>
      have hd : ((d % 2 : Nat) : R) = d := by
        have htwo : ((2 : Nat) : R) = 0 := CharP.cast_eq_zero R 2
        conv_rhs => rw [← Nat.mod_add_div d 2, Nat.cast_add, Nat.cast_mul, htwo, zero_mul, add_zero]
      rw [List.map_cons, Nat.ofDigits, Nat.ofDigits, ih, hd]

/-! ## Packed numbers -/

theorem Packs.mono (h : Packs x len bound n v) (hlen : len ≤ len') (hbound : bound ≤ bound') :
    Packs x len' bound' n v := by
  obtain ⟨ds, hds, hle, hn, hv⟩ := h
  exact ⟨ds, Nat.le_trans hds hlen, fun d hd => Nat.le_trans (hle d hd) hbound, hn, hv⟩

theorem Packs.zero : Packs x 0 0 0 0 := ⟨[], Nat.le_refl _, fun _ hd => absurd hd List.not_mem_nil, rfl, rfl⟩

theorem Packs.one : Packs x 1 1 1 1 := by
  refine ⟨[1], Nat.le_refl _, fun d hd => ?_, rfl, ?_⟩
  · rw [List.mem_singleton.mp hd]
  · simp [Nat.ofDigits]

theorem Packs.base : Packs x 2 1 256 x := by
  refine ⟨[0, 1], Nat.le_refl _, fun d hd => ?_, rfl, ?_⟩
  · simp only [List.mem_cons, List.not_mem_nil, or_false] at hd
    omega
  · simp [Nat.ofDigits]

theorem Packs.add (h : Packs x len bound n v) (h' : Packs x len' bound' n' v') :
    Packs x (max len len') (bound + bound') (n + n') (v + v') := by
  obtain ⟨as, has, hale, hn, hv⟩ := h
  obtain ⟨bs, hbs, hble, hn', hv'⟩ := h'
  refine ⟨addDigits as bs, ?_, addDigits_le hale hble, ?_, ?_⟩
  · rw [addDigits_length]
    exact max_le_max has hbs
  · rw [ofDigits_addDigits, hn, hn']
  · rw [ofDigits_addDigits, hv, hv']

theorem Packs.shift (h : Packs x len bound n v) (k : Nat) : Packs x (len + k) bound (n * 256 ^ k) (v * x ^ k) := by
  have hshift : ∀ {S : Type} [CommSemiring S] (b : S) (ds : List Nat),
      Nat.ofDigits b (List.replicate k 0 ++ ds) = Nat.ofDigits b ds * b ^ k := by
    intro S _ b ds
    induction k with
    | zero => simp
    | succ k ih =>
        rw [List.replicate_succ, List.cons_append, Nat.ofDigits, ih, Nat.cast_zero]
        ring
  obtain ⟨ds, hds, hle, hn, hv⟩ := h
  refine ⟨List.replicate k 0 ++ ds, ?_, fun d hd => ?_, by rw [hshift, hn], by rw [hshift, hv]⟩
  · rw [List.length_append, List.length_replicate]
    omega
  · rcases List.mem_append.mp hd with hzero | hd
    · rw [List.eq_of_mem_replicate hzero]
      exact Nat.zero_le _
    · exact hle d hd

theorem Packs.mul (h : Packs x len 1 n v) (h' : Packs x len' 1 n' v') :
    Packs x (len + len') len (n * n') (v * v') := by
  obtain ⟨ds, hds, hle, rfl, rfl⟩ := h
  suffices h : Packs x (ds.length + len') ds.length (Nat.ofDigits 256 ds * n') (Nat.ofDigits x ds * v') from
    h.mono (Nat.add_le_add_right hds _) hds
  clear hds
  induction ds with
  | nil =>
      rw [Nat.ofDigits_nil, Nat.ofDigits, zero_mul, zero_mul]
      exact Packs.zero.mono (Nat.zero_le _) (Nat.zero_le _)
  | cons d ds ih =>
      have hrest := (ih fun e he => hle e (List.mem_cons_of_mem _ he)).shift 1
      have hhead : Packs x len' 1 (d * n') (d * v') := by
        rcases Nat.le_one_iff_eq_zero_or_eq_one.mp (hle d List.mem_cons_self) with rfl | rfl
        · rw [Nat.zero_mul, Nat.cast_zero, zero_mul]
          exact Packs.zero.mono (Nat.zero_le _) (Nat.zero_le _)
        · rwa [Nat.one_mul, Nat.cast_one, one_mul]
      have hsum := hhead.add hrest
      have hn : Nat.ofDigits 256 (d :: ds) * n' = d * n' + Nat.ofDigits 256 ds * n' * 256 ^ 1 := by
        rw [Nat.ofDigits_cons]
        ring
      have hv : Nat.ofDigits x (d :: ds) * v' = d * v' + Nat.ofDigits x ds * v' * x ^ 1 := by
        rw [Nat.ofDigits]
        ring
      rw [hn, hv]
      apply hsum.mono
      · rw [List.length_cons]
        omega
      · rw [List.length_cons, Nat.add_comm]

theorem packedMask_succ (k : Nat) : packedMask (k + 1) = 1 + 256 * packedMask k := by
  have hdvd : ∀ k, 256 ^ k - 1 = 255 * packedMask k := by
    intro k
    have h : 255 ∣ 256 ^ k - 1 := by simpa using Nat.sub_dvd_pow_sub_pow 256 1 k
    exact (Nat.mul_div_cancel' h).symm
  have hpos : 0 < 256 ^ k := Nat.pow_pos (by decide)
  have h := hdvd k
  have h' := hdvd (k + 1)
  rw [Nat.pow_succ] at h'
  omega

theorem and_byte {a b : Nat} (ha : a < 256) (hb : b < 256) :
    (a + 256 * n) &&& (b + 256 * n') = (a &&& b) + 256 * (n &&& n') := by
  have hand : a &&& b < 2 ^ 8 := Nat.lt_of_le_of_lt Nat.and_le_left ha
  have hsplit : ∀ c e i, c < 2 ^ 8 → (c + 256 * e).testBit i = if i < 8 then c.testBit i else e.testBit (i - 8) := by
    intro c e i hc
    rw [Nat.add_comm]
    exact Nat.testBit_two_pow_mul_add e hc i
  apply Nat.eq_of_testBit_eq
  intro i
  rw [Nat.testBit_and, hsplit a n i ha, hsplit b n' i hb, hsplit _ _ i hand]
  split
  next => rw [Nat.testBit_and]
  next => rw [Nat.testBit_and]

theorem and_packedMask : ∀ {ds : List Nat} {k : Nat}, (∀ d ∈ ds, d < 256) → ds.length ≤ k →
    Nat.ofDigits 256 ds &&& packedMask k = Nat.ofDigits 256 (ds.map (· % 2))
  | [], _, _, _ => Nat.zero_and _
  | d :: ds, k + 1, h, hlen => by
      have hd := h d List.mem_cons_self
      have ih := @and_packedMask ds k (fun e he => h e (List.mem_cons_of_mem _ he)) (Nat.le_of_succ_le_succ hlen)
      rw [List.map_cons, Nat.ofDigits_cons, Nat.ofDigits_cons, packedMask_succ, and_byte hd (by decide), ih,
        Nat.and_one_is_mod]

theorem Packs.mask [CharP R 2] (h : Packs x len bound n v) (hbound : bound < 256) (hlen : len ≤ k) :
    Packs x len 1 (n &&& packedMask k) v := by
  obtain ⟨ds, hds, hle, rfl, rfl⟩ := h
  refine ⟨ds.map (· % 2), by rwa [List.length_map], fun d hd => ?_, ?_, ofDigits_map_mod_two ds⟩
  · obtain ⟨e, _, rfl⟩ := List.mem_map.mp hd
    exact Nat.le_of_lt_succ (Nat.mod_lt e (by decide))
  · rw [and_packedMask (fun d hd => Nat.lt_of_le_of_lt (hle d hd) hbound) (Nat.le_trans hds hlen)]

theorem ofDigits_split {S : Type} [CommSemiring S] (b : S) (m : Nat) : ∀ (ds : List Nat),
    Nat.ofDigits b ds = Nat.ofDigits b (ds.take m) + b ^ m * Nat.ofDigits b (ds.drop m) := by
  induction m with
  | zero =>
      intro ds
      simp [Nat.ofDigits]
  | succ m ih =>
      intro ds
      cases ds with
      | nil => simp [Nat.ofDigits]
      | cons d ds =>
          rw [List.take_succ_cons, List.drop_succ_cons, Nat.ofDigits, Nat.ofDigits, ih ds]
          ring

theorem Packs.fold (hx : x ^ m = x ^ k + 1) (h : Packs x (m + len) bound n v) (hbound : bound < 256) :
    Packs x (max m (len + k)) (3 * bound) (packedFold m k n) v := by
  obtain ⟨ds, hds, hle, rfl, rfl⟩ := h
  have hlt : ∀ d ∈ ds, d < 256 := fun d hd => Nat.lt_of_le_of_lt (hle d hd) hbound
  have hlow : Packs x m bound (Nat.ofDigits 256 (ds.take m)) (Nat.ofDigits x (ds.take m)) :=
    ⟨ds.take m, List.length_take_le _ _, fun d hd => hle d (List.mem_of_mem_take hd), rfl, rfl⟩
  have hhigh : Packs x len bound (Nat.ofDigits 256 (ds.drop m)) (Nat.ofDigits x (ds.drop m)) := by
    refine ⟨ds.drop m, ?_, fun d hd => hle d (List.mem_of_mem_drop hd), rfl, rfl⟩
    rw [List.length_drop]
    omega
  have hsum := hlow.add ((hhigh.shift k).add hhigh)
  have hn : packedFold m k (Nat.ofDigits 256 ds) = Nat.ofDigits 256 (ds.take m) +
      (Nat.ofDigits 256 (ds.drop m) * 256 ^ k + Nat.ofDigits 256 (ds.drop m)) := by
    rw [packedFold, Nat.ofDigits_mod_pow_eq_ofDigits_take m (by decide) ds hlt,
      Nat.ofDigits_div_pow_eq_ofDigits_drop m (by decide) ds hlt]
    ring
  have hv : Nat.ofDigits x ds = Nat.ofDigits x (ds.take m) +
      (Nat.ofDigits x (ds.drop m) * x ^ k + Nat.ofDigits x (ds.drop m)) := by
    rw [ofDigits_split x m ds, hx]
    ring
  rw [hn, hv]
  apply hsum.mono
  · omega
  · omega

/-! ## Elements of the field -/

/-- `n` is the packed form of `v`, an element of the field of degree `m`. -/
def Packed (m : Nat) (x : R) (n : Nat) (v : R) : Prop := Packs x m 1 n v

theorem horner_eq_ofDigits {S : Type} [CommSemiring S] (b : S) (bits : List Bool) :
    Nat.ofDigits b (bits.reverse.map Bool.toNat) = horner b bits := by
  have happend : ∀ (ds : List Nat) (d : Nat), Nat.ofDigits b (ds ++ [d]) = Nat.ofDigits b ds + d * b ^ ds.length := by
    intro ds d
    induction ds with
    | nil => simp [Nat.ofDigits]
    | cons e ds ih =>
        rw [List.cons_append, Nat.ofDigits, Nat.ofDigits, ih, List.length_cons]
        ring
  induction bits with
  | nil => rfl
  | cons bit bits ih =>
      rw [List.reverse_cons, List.map_append, List.map_singleton, happend, ih, List.length_map, List.length_reverse,
        horner_cons]
      cases bit <;> simp [add_comm]

theorem packed_horner {bits : List Bool} (h : bits.length ≤ m) : Packed m x (horner 256 bits) (horner x bits) := by
  refine ⟨bits.reverse.map Bool.toNat, ?_, fun d hd => ?_, horner_eq_ofDigits 256 bits, horner_eq_ofDigits x bits⟩
  · rwa [List.length_map, List.length_reverse]
  · obtain ⟨bit, _, rfl⟩ := List.mem_map.mp hd
    exact Bool.toNat_le bit

theorem ofDigits_cons_eq (d : Nat) (ds : List Nat) : Nat.ofDigits x (d :: ds) = d + x * Nat.ofDigits x ds := rfl

theorem ofDigits_unique (x : R) : ∀ {ds es : List Nat}, (∀ d ∈ ds, d < 256) → (∀ e ∈ es, e < 256) →
    Nat.ofDigits 256 ds = Nat.ofDigits 256 es → Nat.ofDigits x ds = Nat.ofDigits x es
  | [], [], _, _, _ => rfl
  | [], e :: es, _, hes, h => by
      have htail := @ofDigits_unique x [] es (fun _ hd => absurd hd List.not_mem_nil)
        (fun e he => hes e (List.mem_cons_of_mem _ he))
      rw [Nat.ofDigits_nil, Nat.ofDigits_cons] at h
      have hzero : e = 0 := by omega
      rw [ofDigits_cons_eq, ← htail (by rw [Nat.ofDigits_nil]; omega), hzero]
      simp [Nat.ofDigits]
  | d :: ds, [], hds, _, h => by
      have htail := @ofDigits_unique x ds [] (fun d hd => hds d (List.mem_cons_of_mem _ hd))
        (fun _ he => absurd he List.not_mem_nil)
      rw [Nat.ofDigits_nil, Nat.ofDigits_cons] at h
      have hzero : d = 0 := by omega
      rw [ofDigits_cons_eq, htail (by rw [Nat.ofDigits_nil]; omega), hzero]
      simp [Nat.ofDigits]
  | d :: ds, e :: es, hds, hes, h => by
      have hd := hds d List.mem_cons_self
      have he := hes e List.mem_cons_self
      rw [Nat.ofDigits_cons, Nat.ofDigits_cons] at h
      have hhead : d = e := by omega
      have htail := ofDigits_unique x (fun d hd => hds d (List.mem_cons_of_mem _ hd))
        (fun e he => hes e (List.mem_cons_of_mem _ he)) (by omega)
      rw [ofDigits_cons_eq, ofDigits_cons_eq, hhead, htail]

theorem Packed.unique (h : Packed m x n v) (h' : Packed m x n v') : v = v' := by
  obtain ⟨ds, _, hds, hn, rfl⟩ := h
  obtain ⟨es, _, hes, hn', rfl⟩ := h'
  exact ofDigits_unique x (fun d hd => Nat.lt_of_le_of_lt (hds d hd) (by decide))
    (fun e he => Nat.lt_of_le_of_lt (hes e he) (by decide)) (hn.trans hn'.symm)

section

variable [CharP R 2]

theorem Packed.add (h : Packed m x n v) (h' : Packed m x n' v') : Packed m x (packedAdd m n n') (v + v') := by
  have hsum := Packs.add h h'
  rw [max_self] at hsum
  exact hsum.mask (by decide) (Nat.le_refl _)

theorem Packed.mul (hx : x ^ m = x ^ k + 1) (hm : m < 256) (hk : 2 * k ≤ m) (h : Packed m x n v)
    (h' : Packed m x n' v') : Packed m x (packedMul m k n n') (v * v') := by
  have hproduct := (Packs.mul h h').mask hm (Nat.two_mul m).symm.le
  have honce := hproduct.fold hx (by decide)
  have hle : max m (m + k) ≤ m + k := max_le (Nat.le_add_right _ _) (Nat.le_refl _)
  have htwice := (honce.mono hle (Nat.le_refl _)).fold hx (by decide)
  have hle' : max m (k + k) ≤ m := max_le (Nat.le_refl _) (by omega)
  exact (htwice.mono hle' (Nat.le_refl _)).mask (by decide) (Nat.le_refl _)

theorem Packed.squares (hx : x ^ m = x ^ k + 1) (hm : m < 256) (hk : 2 * k ≤ m) (h : Packed m x n v) : ∀ j,
    Packed m x ((fun n => packedMul m k n n)^[j] n) (v ^ 2 ^ j)
  | 0 => by
      rw [Function.iterate_zero_apply, Nat.pow_zero, pow_one]
      exact h
  | j + 1 => by
      have ih := Packed.squares hx hm hk h j
      rw [Function.iterate_succ_apply', Nat.pow_succ, pow_mul, pow_two]
      exact ih.mul hx hm hk ih

end

end Karphin.Lib
