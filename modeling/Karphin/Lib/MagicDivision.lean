import Mathlib

/-!
# Division by a constant

The quotient of a division by `d` is a product with a multiplier `m` that is divided by `N`. The multiplier is a little more
or a little less than `N / d`, and the quotient is right while the error of the product stays within what the remainder
leaves.
-/

namespace Karphin.Lib.MagicDivision

variable {N d m e n a r : Nat}

/-! ## A multiplier that is too large -/

theorem mul_mul_eq (hm : m * d = N + e) : n * m * d = n / d * N * d + (n % d * N + n * e) := by
  calc n * m * d = n * (m * d) := Nat.mul_assoc _ _ _
    _ = n * N + n * e := by rw [hm, Nat.mul_add]
    _ = (d * (n / d) + n % d) * N + n * e := by rw [Nat.div_add_mod]
    _ = n / d * N * d + (n % d * N + n * e) := by ring

theorem le_mul_of_above (hd : 0 < d) (hm : m * d = N + e) : n / d * N ≤ n * m := by
  apply Nat.le_of_mul_le_mul_right _ hd
  rw [mul_mul_eq hm]
  exact Nat.le_add_right _ _

theorem mul_lt_iff (hd : 0 < d) (hm : m * d = N + e) : n * m < (n / d + 1) * N ↔ n % d * N + n * e < d * N := by
  rw [← Nat.mul_lt_mul_right hd, mul_mul_eq hm, Nat.add_mul, Nat.add_mul, Nat.one_mul, Nat.mul_comm d N,
    Nat.add_lt_add_iff_left]

theorem mul_le_iff (hd : 0 < d) (hm : m * d = N + e) : n * m ≤ (n / d + 1) * N ↔ n % d * N + n * e ≤ d * N := by
  rw [← Nat.mul_le_mul_right_iff hd, mul_mul_eq hm, Nat.add_mul, Nat.add_mul, Nat.one_mul, Nat.mul_comm d N,
    Nat.add_le_add_iff_left]

theorem mul_div_eq_iff (hd : 0 < d) (hN : 0 < N) (hm : m * d = N + e) :
    n * m / N = n / d ↔ n % d * N + n * e < d * N := by
  rw [← mul_lt_iff hd hm, Nat.div_eq_iff hN, Nat.add_mul, Nat.one_mul]
  have hlow : n / d * N ≤ n * m := le_mul_of_above hd hm
  omega

theorem neg_mul_ediv_eq_iff (hd : 0 < d) (hN : 0 < N) (he : 0 < e) (hn : 0 < n) (hm : m * d = N + e) :
    -(n * m : Nat) / (N : Int) + 1 = -(n / d : Nat) ↔ n % d * N + n * e ≤ d * N := by
  have hlow : n / d * N < n * m := by
    apply Nat.lt_of_mul_lt_mul_right (a := d)
    rw [mul_mul_eq hm]
    exact Nat.lt_add_of_pos_right (Nat.add_pos_right _ (Nat.mul_pos hn he))
  have hpos : (0 : Int) < N := Int.natCast_pos.mpr hN
  rw [← mul_le_iff hd hm]
  zify at hlow ⊢
  constructor
  · intro hquotient
    have hfloor := Int.ediv_mul_le (-(n * m : Int)) (Int.ne_of_gt hpos)
    have hvalue : -(n * m : Int) / N = -(n / d : Int) - 1 := by
      linarith
    rw [hvalue] at hfloor
    linarith
  · intro hhigh
    have hvalue : -(n * m : Int) / N = -(n / d : Int) - 1 := by
      apply Int.le_antisymm
      · apply Int.le_of_lt_add_one
        apply Int.ediv_lt_of_lt_mul hpos
        linarith
      · apply Int.le_ediv_of_mul_le hpos
        linarith
    linarith

/-! ## Bounds on the error -/

theorem error_lt_of_le (hd : 0 < d) (hbound : a * e < N) (hn : n ≤ a) : n % d * N + n * e < d * N := by
  have hmod : (n % d + 1) * N ≤ d * N := Nat.mul_le_mul_right N (Nat.mod_lt n hd)
  have herror := Nat.mul_le_mul_right e hn
  rw [Nat.add_mul, Nat.one_mul] at hmod
  omega

theorem error_lt_of_gt (hdvd : d ∣ a + 1) (hbound : a * e < N) (hr : r + 2 ≤ d) :
    (a + 1 + r) % d * N + (a + 1 + r) * e < d * N := by
  have hmod : (a + 1 + r) % d = r := by
    rw [Nat.add_mod, Nat.mod_eq_zero_of_dvd hdvd, Nat.zero_add, Nat.mod_mod, Nat.mod_eq_of_lt (by omega)]
  have hlarge : d ≤ a + 1 := Nat.le_of_dvd (Nat.succ_pos a) hdvd
  have hstep : (r + 1) * e ≤ a * e := Nat.mul_le_mul_right e (by omega)
  have hlast : (r + 2) * N ≤ d * N := Nat.mul_le_mul_right N hr
  have hsplit : (a + 1 + r) * e = a * e + (r + 1) * e := by ring
  rw [hmod, hsplit]
  rw [Nat.add_mul] at hlast
  omega

/-! ## A multiplier that is too small -/

theorem succ_mul_div_eq (hd : 0 < d) (he : 0 < e) (hm : m * d + e = N) (hbound : (n + 1) * e ≤ N) :
    (n * m + m) / N = n / d := by
  have hN : 0 < N := hm ▸ Nat.add_pos_right _ he
  have hprod : (n * m + m) * d + (n + 1) * e = n / d * N * d + (n % d + 1) * N := by
    calc (n * m + m) * d + (n + 1) * e = (n + 1) * (m * d + e) := by ring
      _ = (d * (n / d) + n % d + 1) * N := by rw [hm, Nat.div_add_mod]
      _ = n / d * N * d + (n % d + 1) * N := by ring
  have hmod : (n % d + 1) * N ≤ d * N := Nat.mul_le_mul_right N (Nat.mod_lt n hd)
  have herror : 0 < (n + 1) * e := Nat.mul_pos (Nat.succ_pos n) he
  have hlow : n / d * N ≤ n * m + m := by
    apply Nat.le_of_mul_le_mul_right _ hd
    have hone : N ≤ (n % d + 1) * N := Nat.le_mul_of_pos_left N (Nat.succ_pos _)
    omega
  have hhigh : n * m + m < (n / d + 1) * N := by
    have hnext : (n / d + 1) * N * d = n / d * N * d + d * N := by ring
    apply Nat.lt_of_mul_lt_mul_right (a := d)
    rw [hnext]
    omega
  rw [Nat.div_eq_iff hN]
  rw [Nat.add_mul, Nat.one_mul] at hhigh
  omega

end Karphin.Lib.MagicDivision
