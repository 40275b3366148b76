import Mathlib

/-!
# Runs of ones

A bit vector as a circle of bits, and the run of ones that begins next in it. A circle that consists of copies of one run is
found again from the distance between its runs.
-/

namespace Karphin.Lib

variable {w : Nat}

/-! ## Circles of bits -/

def cyclic (v : BitVec w) (i : Nat) : Bool := v.getLsbD (i % w)

theorem cyclic_of_lt {v : BitVec w} {i : Nat} (h : i < w) : cyclic v i = v.getLsbD i := by
  rw [cyclic, Nat.mod_eq_of_lt h]

theorem eq_of_cyclic {u v : BitVec w} (h : ∀ i < w, cyclic u i = cyclic v i) : u = v :=
  BitVec.eq_of_getLsbD_eq fun i hi => by
    have hi' := h i hi
    rwa [cyclic_of_lt hi, cyclic_of_lt hi] at hi'

theorem cyclic_add_mul (v : BitVec w) (i k : Nat) : cyclic v (i + w * k) = cyclic v i := by
  rw [cyclic, cyclic, Nat.add_mul_mod_self_left]

theorem cyclic_rotateRight (hw : 0 < w) (v : BitVec w) (r i : Nat) :
    cyclic (v.rotateRight r) i = cyclic v (i + r) := by
  have hi := Nat.mod_lt i hw
  have hr := Nat.mod_lt r hw
  rw [cyclic, cyclic, BitVec.getLsbD_rotateRight, Nat.add_mod]
  by_cases hlow : i % w < w - r % w
  · have hsum : (i % w + r % w) % w = r % w + i % w := by
      rw [Nat.mod_eq_of_lt (by omega), Nat.add_comm]
    rw [hsum, decide_eq_true hlow, cond_true]
  · have hsum : (i % w + r % w) % w = i % w - (w - r % w) := by
      rw [Nat.mod_eq_sub_mod (by omega), Nat.mod_eq_of_lt (by omega)]
      omega
    rw [hsum, decide_eq_false hlow, cond_false, decide_eq_true hi, Bool.true_and]

theorem rotateRight_eq_self_iff (hw : 0 < w) (v : BitVec w) (r : Nat) :
    v.rotateRight r = v ↔ ∀ i, cyclic v (i + r) = cyclic v i := by
  refine ⟨fun h i => ?_, fun h => eq_of_cyclic fun i _ => ?_⟩
  · rw [← cyclic_rotateRight hw, h]
  · rw [cyclic_rotateRight hw, h]

theorem cyclic_add_period_mul {v : BitVec w} {e : Nat} (h : ∀ i, cyclic v (i + e) = cyclic v i) (i k : Nat) :
    cyclic v (i + e * k) = cyclic v i := by
  induction k with
  | zero => rfl
  | succ k ih => rw [Nat.mul_succ, ← Nat.add_assoc, h, ih]

theorem cyclic_mod_period {v : BitVec w} {e : Nat} (h : ∀ i, cyclic v (i + e) = cyclic v i) (i : Nat) :
    cyclic v (i % e) = cyclic v i := by
  rw [← cyclic_add_period_mul h (i % e) (i / e), Nat.mod_add_div]

theorem cyclic_add_gcd {v : BitVec w} {e : Nat} (hw : 0 < w) (h : ∀ i, cyclic v (i + e) = cyclic v i)
    (i : Nat) : cyclic v (i + Nat.gcd e w) = cyclic v i := by
  rcases Nat.eq_or_lt_of_le (Nat.gcd_le_right e hw) with hsame | hlt
  · rw [hsame]
    exact cyclic_add_mul v i 1 ▸ by rw [Nat.mul_one]
  · obtain ⟨m, -, hm⟩ := Nat.exists_mul_mod_eq_gcd hlt
    have hsplit : i + e * m = i + Nat.gcd e w + w * (e * m / w) := by
      rw [Nat.add_assoc, ← hm, Nat.mod_add_div]
    rw [← cyclic_add_mul v (i + Nat.gcd e w) (e * m / w), ← hsplit, cyclic_add_period_mul h]

/-! ## The next run -/

/-- Where the next run of ones begins, if the one at the lowest bit does not count; the width if there is none. -/
def nextRun (v : BitVec w) : Nat := (v &&& (v + 1)).ctz.toNat

def trailingOnes (v : BitVec w) : Nat := (~~~v).ctz.toNat

theorem getLsbD_and_add_one_iff (v : BitVec w) (i : Nat) :
    (v &&& (v + 1)).getLsbD i = true ↔ v.getLsbD i = true ∧ ∃ j < i, v.getLsbD j = false := by
  have hneg : v + 1 = -(~~~v) := by
    rw [BitVec.neg_eq_not_add, BitVec.not_not]
    rfl
  by_cases hi : i < w
  · have hzero : (∃ j < i, (~~~v).getLsbD j = true) ↔ ∃ j < i, v.getLsbD j = false := by
      refine exists_congr fun j => and_congr_right fun hj => ?_
      simp [Nat.lt_trans hj hi]
    rw [BitVec.getLsbD_and, hneg, BitVec.getLsbD_neg, BitVec.getLsbD_not, Bool.and_eq_true]
    refine and_congr_right fun hone => ?_
    rw [hone]
    simpa [hi] using hzero
  · simp [BitVec.getLsbD_of_ge _ _ (Nat.le_of_not_lt hi)]

theorem ctz_eq_iff {v : BitVec w} {k : Nat} :
    v.ctz.toNat = k ↔ k ≤ w ∧ (∀ i < k, v.getLsbD i = false) ∧ (k < w → v.getLsbD k = true) := by
  have hle : v.ctz.toNat ≤ w := by
    have hclz := BitVec.le_def.mp (@BitVec.clz_le w v.reverse)
    simpa [BitVec.ctz_eq_reverse_clz] using hclz
  have hbelow : ∀ i < v.ctz.toNat, v.getLsbD i = false := fun i hi => BitVec.getLsbD_false_of_lt_ctz hi
  have hat : v.ctz.toNat < w → v.getLsbD v.ctz.toNat = true := fun hlt => by
    apply BitVec.getLsbD_true_ctz_of_ne_zero
    rw [← BitVec.ctz_lt_iff_ne_zero, BitVec.lt_def]
    simpa using hlt
  refine ⟨fun h => h ▸ ⟨hle, hbelow, hat⟩, fun ⟨hk, hzeros, hone⟩ => ?_⟩
  rcases Nat.lt_trichotomy v.ctz.toNat k with hlt | heq | hlt
  · have hbit := hzeros _ hlt
    rw [hat (by omega)] at hbit
    cases hbit
  · exact heq
  · have hbit := hbelow k hlt
    rw [hone (by omega)] at hbit
    cases hbit

theorem nextRun_eq_iff {v : BitVec w} {k : Nat} : nextRun v = k ↔ k ≤ w ∧
    (∀ i < k, v.getLsbD i = true → ∀ j < i, v.getLsbD j = true) ∧
      (k < w → v.getLsbD k = true ∧ ∃ j < k, v.getLsbD j = false) := by
  rw [nextRun, ctz_eq_iff]
  refine and_congr_right fun _ => and_congr ?_ ?_
  · refine forall₂_congr fun i _ => ?_
    rw [Bool.eq_false_iff, ne_eq, getLsbD_and_add_one_iff]
    simp only [not_and, not_exists, Bool.not_eq_false]
  · exact imp_congr_right fun _ => getLsbD_and_add_one_iff v k

theorem trailingOnes_eq_iff {v : BitVec w} {k : Nat} : trailingOnes v = k ↔
    k ≤ w ∧ (∀ i < k, v.getLsbD i = true) ∧ (k < w → v.getLsbD k = false) := by
  rw [trailingOnes, ctz_eq_iff]
  refine and_congr_right fun hk => and_congr ?_ ?_
  · refine forall₂_congr fun i hi => ?_
    simp [Nat.lt_of_lt_of_le hi hk]
  · refine imp_congr_right fun hlt => ?_
    simp [hlt]

/-! ## Normal form -/

def normalize (v : BitVec w) : BitVec w := v.rotateRight (nextRun v)

theorem cyclic_normalize (hw : 0 < w) (v : BitVec w) (i : Nat) : cyclic (normalize v) i = cyclic v (i + nextRun v) :=
  cyclic_rotateRight hw v _ i

structure Normal (v : BitVec w) : Prop where
  first : cyclic v 0 = true
  last : cyclic v (w - 1) = false

theorem exists_one {v : BitVec w} (h : v ≠ 0) : ∃ i < w, v.getLsbD i = true := by
  by_contra hnone
  refine h (BitVec.eq_of_getLsbD_eq fun i hi => ?_)
  have hbit : v.getLsbD i ≠ true := fun hone => hnone ⟨i, hi, hone⟩
  simpa using hbit

theorem exists_zero {v : BitVec w} (h : ~~~v ≠ 0) : ∃ i < w, v.getLsbD i = false := by
  obtain ⟨i, hi, hone⟩ := exists_one h
  refine ⟨i, hi, ?_⟩
  simpa [hi] using hone

theorem normalize_normal {v : BitVec w} (hw : 0 < w) (hzero : v ≠ 0) (hones : ~~~v ≠ 0) : Normal (normalize v) := by
  obtain ⟨one, hone, hvone⟩ := exists_one hzero
  obtain ⟨gap, hgap, hvgap⟩ := exists_zero hones
  obtain ⟨hle, hbelow, hat⟩ := (@nextRun_eq_iff _ v _).mp rfl
  have hpos : 0 < nextRun v := by
    refine Nat.pos_of_ne_zero fun hstart => ?_
    obtain ⟨-, j, hj, -⟩ := hat (by omega)
    omega
  refine ⟨?_, ?_⟩
  · rw [cyclic_normalize hw, Nat.zero_add]
    rcases Nat.lt_or_eq_of_le hle with hlt | heq
    · rw [cyclic_of_lt hlt]
      exact (hat hlt).1
    · rw [heq, cyclic, Nat.mod_self]
      rcases Nat.eq_zero_or_pos one with hfirst | hlater
      · rw [← hfirst]
        exact hvone
      · exact hbelow one (by omega) hvone 0 hlater
  · have hround : w - 1 + nextRun v = nextRun v - 1 + w * 1 := by omega
    rw [cyclic_normalize hw, hround, cyclic_add_mul, cyclic_of_lt (by omega), Bool.eq_false_iff]
    intro hlast
    have hall : ∀ j < nextRun v, v.getLsbD j = true := by
      intro j hj
      rcases Nat.lt_or_eq_of_le (Nat.le_sub_one_of_lt hj) with hlt | heq
      · exact hbelow _ (by omega) hlast j hlt
      · rw [heq]
        exact hlast
    have hbefore : ∃ j < nextRun v, v.getLsbD j = false := by
      rcases Nat.lt_or_eq_of_le hle with hlt | heq
      · exact (hat hlt).2
      · exact ⟨gap, by omega, hvgap⟩
    obtain ⟨j, hj, hbit⟩ := hbefore
    rw [hall j hj] at hbit
    cases hbit

theorem Normal.run {g : BitVec w} (hw : 0 < w) (h : Normal g) : 0 < trailingOnes g ∧ trailingOnes g < nextRun g ∧
    ∀ i < nextRun g, g.getLsbD i = decide (i < trailingOnes g) := by
  obtain ⟨hmle, hones, hend⟩ := (@trailingOnes_eq_iff _ g _).mp rfl
  obtain ⟨hle, hbelow, hat⟩ := (@nextRun_eq_iff _ g _).mp rfl
  have hfirst : g.getLsbD 0 = true := by
    rw [← cyclic_of_lt hw]
    exact h.first
  have hlast : g.getLsbD (w - 1) = false := by
    rw [← cyclic_of_lt (Nat.sub_lt hw Nat.one_pos)]
    exact h.last
  have hpos : 0 < trailingOnes g := by
    refine Nat.pos_of_ne_zero fun hnone => ?_
    have hzero := hend (by omega)
    rw [hnone, hfirst] at hzero
    cases hzero
  have hlt : trailingOnes g < w := by
    refine Nat.lt_of_le_of_ne hmle fun hall => ?_
    rw [hones (w - 1) (by omega)] at hlast
    cases hlast
  have hzero := hend hlt
  have hrun : trailingOnes g < nextRun g := by
    by_contra hshort
    obtain ⟨-, j, hj, hbit⟩ := hat (by omega)
    rw [hones j (by omega)] at hbit
    cases hbit
  refine ⟨hpos, hrun, fun i hi => ?_⟩
  by_cases him : i < trailingOnes g
  · rw [hones i him, decide_eq_true him]
  · rw [decide_eq_false him, Bool.eq_false_iff]
    intro hbit
    rcases Nat.lt_or_eq_of_le (Nat.le_of_not_lt him) with hgap | heq
    · rw [hbelow i hi hbit _ hgap] at hzero
      cases hzero
    · rw [heq, hbit] at hzero
      cases hzero

/-! ## Copies of a run -/

/-- A circle of elements of `e` bits, each of them `m` ones that are rotated right by `r`. -/
structure Runs (v : BitVec w) (e m r : Nat) : Prop where
  dvd : e ∣ w
  pos : 0 < m
  lt : m < e
  bits : ∀ i, cyclic v i = decide ((i + r) % e < m)

theorem Normal.runs {g : BitVec w} (hw : 0 < w) (h : Normal g) (hperiod : ∀ i, cyclic g (i + nextRun g) = cyclic g i) :
    Runs g (nextRun g) (trailingOnes g) 0 := by
  obtain ⟨hpos, hlt, hbits⟩ := h.run hw
  have hle := ((@nextRun_eq_iff _ g _).mp rfl).1
  have hcyclic : ∀ i < nextRun g, cyclic g i = decide (i < trailingOnes g) := fun i hi => by
    rw [cyclic_of_lt (by omega), hbits i hi]
  refine ⟨?_, hpos, hlt, fun i => ?_⟩
  · have hgcd := cyclic_add_gcd hw hperiod
    have hgpos := Nat.gcd_pos_of_pos_right (nextRun g) hw
    rcases Nat.lt_or_eq_of_le (Nat.gcd_le_left w (show 0 < nextRun g by omega)) with hshort | heq
    · -- A shorter period brings the first one into the ones, and then the zero after them.
      have hshift := hgcd 0
      rw [Nat.zero_add, h.first, hcyclic _ hshort, decide_eq_true_iff] at hshift
      have hzero := hgcd (trailingOnes g - Nat.gcd (nextRun g) w)
      rw [Nat.sub_add_cancel (by omega), hcyclic _ hlt, hcyclic _ (by omega), decide_eq_decide] at hzero
      omega
    · exact heq ▸ Nat.gcd_dvd_right _ _
  · rw [← cyclic_mod_period hperiod, hcyclic _ (Nat.mod_lt _ (by omega)), Nat.add_zero]

theorem Runs.aligned {g : BitVec w} {e m r : Nat} (hw : 0 < w) (h : Normal g) (hruns : Runs g e m r) : Runs g e m 0 := by
  have hpos := hruns.pos
  have hlt := hruns.lt
  have hr := Nat.mod_lt r (show 0 < e by omega)
  have hfirst := h.first
  have hlast := h.last
  rw [hruns.bits, Nat.zero_add, decide_eq_true_iff] at hfirst
  have hzero : r % e = 0 := by
    by_contra hne
    have hround : (w - 1 + r) % e = r % e - 1 := by
      obtain ⟨k, rfl⟩ := hruns.dvd
      have hk : 0 < k := Nat.pos_of_mul_pos_left hw
      have hsplit : e * k - 1 + r = r % e - 1 + e * (k + r / e) := by
        have hdiv := Nat.mod_add_div r e
        have hone : 1 ≤ e * k := hw
        rw [Nat.mul_add]
        omega
      rw [hsplit, Nat.add_mul_mod_self_left, Nat.mod_eq_of_lt (by omega)]
    rw [hruns.bits, hround, decide_eq_false_iff_not] at hlast
    omega
  refine ⟨hruns.dvd, hpos, hlt, fun i => ?_⟩
  rw [hruns.bits, Nat.add_mod, hzero]
  simp

theorem Runs.period {v : BitVec w} {e m r : Nat} (h : Runs v e m r) (i : Nat) : cyclic v (i + e) = cyclic v i := by
  rw [h.bits, h.bits, Nat.add_right_comm, Nat.add_mod_right]

theorem Runs.nextRun_eq {g : BitVec w} {e m : Nat} (hw : 0 < w) (h : Runs g e m 0) : nextRun g = e ∧ trailingOnes g = m := by
  have hpos := h.pos
  have hlt := h.lt
  have hle := Nat.le_of_dvd hw h.dvd
  have hbits : ∀ i < w, g.getLsbD i = decide (i % e < m) := fun i hi => by rw [← cyclic_of_lt hi, h.bits, Nat.add_zero]
  refine ⟨nextRun_eq_iff.mpr ⟨hle, fun i hi hbit j hj => ?_, fun hew => ⟨?_, m, hlt, ?_⟩⟩,
    trailingOnes_eq_iff.mpr ⟨by omega, fun i hi => ?_, fun hmw => ?_⟩⟩
  · rw [hbits i (by omega), Nat.mod_eq_of_lt hi, decide_eq_true_iff] at hbit
    rw [hbits j (by omega), Nat.mod_eq_of_lt (by omega), decide_eq_true_iff]
    omega
  · rw [hbits e hew, Nat.mod_self, decide_eq_true_iff]
    exact hpos
  · rw [hbits m (by omega), Nat.mod_eq_of_lt hlt, decide_eq_false_iff_not]
    omega
  · rw [hbits i (by omega), Nat.mod_eq_of_lt (by omega), decide_eq_true_iff]
    exact hi
  · rw [hbits m hmw, Nat.mod_eq_of_lt hlt, decide_eq_false_iff_not]
    omega

theorem Runs.rotateRight {v : BitVec w} {e m r : Nat} (hw : 0 < w) (h : Runs v e m r) (k : Nat) :
    Runs (v.rotateRight k) e m (k + r) :=
  ⟨h.dvd, h.pos, h.lt, fun i => by rw [cyclic_rotateRight hw, h.bits, Nat.add_assoc]⟩

theorem Runs.ne_zero {v : BitVec w} {e m r : Nat} (hw : 0 < w) (h : Runs v e m r) : v ≠ 0 ∧ ~~~v ≠ 0 := by
  have hpos := h.pos
  have hlt := h.lt
  have hr := Nat.mod_lt r (show 0 < e by omega)
  have hat : ∀ k < e, cyclic v (k + (e - r % e)) = decide (k < m) := by
    intro k hk
    have hround : k + (e - r % e) + r = k + e * (1 + r / e) := by
      have hdiv := Nat.mod_add_div r e
      rw [Nat.mul_add]
      omega
    rw [h.bits, hround, Nat.add_mul_mod_self_left, Nat.mod_eq_of_lt hk]
  have hone := hat 0 (by omega)
  have hgap := hat m hlt
  rw [decide_eq_true hpos] at hone
  rw [decide_eq_false (Nat.lt_irrefl m)] at hgap
  refine ⟨fun hzero => ?_, fun hones => ?_⟩
  · rw [hzero] at hone
    simp [cyclic] at hone
  · have hbit := congrArg (fun u => BitVec.getLsbD u ((m + (e - r % e)) % w)) hones
    rw [cyclic, BitVec.getLsbD_eq_getElem (Nat.mod_lt _ hw)] at hgap
    simp [Nat.mod_lt _ hw, hgap] at hbit

theorem rotateRight_nextRun_iff {v : BitVec w} (hw : 0 < w) (hzero : v ≠ 0) (hones : ~~~v ≠ 0) :
    (v.rotateRight (nextRun (normalize v)) = v ↔ ∃ e m r, Runs v e m r) ∧
      (v.rotateRight (nextRun (normalize v)) = v →
        Runs v (nextRun (normalize v)) (trailingOnes (normalize v)) (w - nextRun v)) := by
  have hnormal := normalize_normal hw hzero hones
  have hle := ((@nextRun_eq_iff _ v _).mp rfl).1
  have hruns : v.rotateRight (nextRun (normalize v)) = v →
      Runs v (nextRun (normalize v)) (trailingOnes (normalize v)) (w - nextRun v) := by
    intro hsame
    rw [rotateRight_eq_self_iff hw] at hsame
    have hperiod : ∀ i, cyclic (normalize v) (i + nextRun (normalize v)) = cyclic (normalize v) i := fun i => by
      rw [cyclic_normalize hw, cyclic_normalize hw, Nat.add_right_comm, hsame]
    have hcopies := hnormal.runs hw hperiod
    refine ⟨hcopies.dvd, hcopies.pos, hcopies.lt, fun i => ?_⟩
    have hbits := hcopies.bits (i + (w - nextRun v))
    rw [Nat.add_zero] at hbits
    have hround := cyclic_add_mul v i 1
    rw [Nat.mul_one] at hround
    rw [← hbits, cyclic_normalize hw, Nat.add_assoc, Nat.sub_add_cancel hle, hround]
  refine ⟨⟨fun hsame => ⟨_, _, _, hruns hsame⟩, fun ⟨e, m, r, h⟩ => ?_⟩, hruns⟩
  have haligned : Runs (normalize v) e m 0 := (h.rotateRight hw (nextRun v)).aligned hw hnormal
  rw [(haligned.nextRun_eq hw).1, rotateRight_eq_self_iff hw]
  exact h.period

end Karphin.Lib
