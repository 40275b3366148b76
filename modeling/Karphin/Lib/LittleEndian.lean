import Mathlib

/-!
# Bits of 32-bit words
-/

namespace Karphin.Lib

def bit (x : UInt32) (i : Nat) : Bool := x.toBitVec.getLsbD i

variable {x y : UInt32} {i : Nat}

theorem bit_ext (h : ∀ i < 32, bit x i = bit y i) : x = y := by
  apply UInt32.toBitVec_inj.mp
  exact BitVec.eq_of_getLsbD_eq h

theorem bit_of_ge (h : 32 ≤ i) : bit x i = false := BitVec.getLsbD_of_ge _ _ h

@[simp]
theorem bit_or : bit (x ||| y) i = (bit x i || bit y i) := by simp [bit]

@[simp]
theorem bit_and : bit (x &&& y) i = (bit x i && bit y i) := by simp [bit]

@[simp]
theorem bit_xor : bit (x ^^^ y) i = (bit x i ^^ bit y i) := by simp [bit]

theorem toNat_shift {k : UInt32} (h : k.toNat < 32) : (k.toBitVec % 32).toNat = k.toNat := by
  rw [BitVec.toNat_umod]
  exact Nat.mod_eq_of_lt h

theorem bit_shiftLeft {k : UInt32} (h : k.toNat < 32) (hi : i < 32) :
    bit (x <<< k) i = (decide (k.toNat ≤ i) && bit x (i - k.toNat)) := by
  rw [bit, bit, UInt32.toBitVec_shiftLeft, BitVec.shiftLeft_eq', toNat_shift h, BitVec.getLsbD_shiftLeft]
  grind

theorem bit_shiftRight {k : UInt32} (h : k.toNat < 32) : bit (x >>> k) i = bit x (k.toNat + i) := by
  rw [bit, bit, UInt32.toBitVec_shiftRight, BitVec.ushiftRight_eq', toNat_shift h, BitVec.getLsbD_ushiftRight]

/-! ## Carries

Whether a sum carries into a bit. -/

theorem testBit_add {n x d : ℕ} (hd : d ≤ 2 ^ n) :
    (x + d).testBit n = (x.testBit n ^^ decide (2 ^ n ≤ x % 2 ^ n + d)) := by
  have hx := Nat.div_add_mod x (2 ^ n)
  have hmod := Nat.mod_lt x (Nat.two_pow_pos n)
  have hhere : x.testBit n = decide (x / 2 ^ n % 2 = 1) := Nat.testBit_eq_decide_div_mod_eq
  rcases Nat.lt_or_ge (x % 2 ^ n + d) (2 ^ n) with hlt | hge
  · have hsum : x + d = 2 ^ n * (x / 2 ^ n) + (x % 2 ^ n + d) := by omega
    rw [hsum, Nat.testBit_two_pow_mul_add _ hlt, if_neg (lt_irrefl n), Nat.sub_self, hhere, decide_eq_false (Nat.not_le.mpr hlt)]
    simp
  · have hsum : x + d = 2 ^ n * (x / 2 ^ n + 1) + (x % 2 ^ n + d - 2 ^ n) := by
      rw [Nat.mul_add]
      omega
    have hrest : x % 2 ^ n + d - 2 ^ n < 2 ^ n := by omega
    rw [hsum, Nat.testBit_two_pow_mul_add _ hrest, if_neg (lt_irrefl n), Nat.sub_self, hhere, decide_eq_true hge,
      Nat.testBit_zero]
    simp only [Bool.xor_true, ← decide_not, decide_eq_decide]
    omega

theorem getLsbD_add {n : ℕ} {x d : BitVec 32} (hn : n < 32) (hd : d.toNat ≤ 2 ^ n) :
    (x + d).getLsbD n = (x.getLsbD n ^^ decide (2 ^ n ≤ x.toNat % 2 ^ n + d.toNat)) := by
  rw [BitVec.getLsbD, BitVec.getLsbD, BitVec.toNat_add, Nat.testBit_mod_two_pow, decide_eq_true hn, Bool.true_and,
    testBit_add hd]

theorem or_one (w : ℕ) : w ||| 1 = 2 * (w / 2) + 1 := by
  apply Nat.eq_of_testBit_eq
  intro i
  cases i with
  | zero =>
      rw [Nat.testBit_or, Nat.testBit_zero, Nat.testBit_zero, Nat.testBit_zero]
      simp
  | succ i =>
      rw [Nat.testBit_or, Nat.testBit_succ, Nat.testBit_succ, Nat.testBit_succ]
      simp
      congr 1
      omega

theorem mask_bounds {w : ℕ} (hw : 0 < w) : 2 ^ w.size ≤ 2 * (w ||| 1) ∧ 2 * (w ||| 1) - 2 ^ w.size ≤ w := by
  have hupper := Nat.lt_size_self w
  obtain ⟨k, hk⟩ := Nat.exists_eq_succ_of_ne_zero (Nat.size_pos.mpr hw).ne'
  have hle : 2 ^ k ≤ w := Nat.lt_size.mp (hk ▸ Nat.lt_succ_self k)
  have hpow : 2 ^ w.size = 2 * 2 ^ k := by rw [hk, Nat.pow_succ']
  rw [or_one]
  omega

theorem masked_gt_iff {w x : ℕ} (hw : 0 < w) : w < x &&& 2 * (w ||| 1) ↔ x.testBit w.size = true := by
  have hupper := Nat.lt_size_self w
  obtain ⟨hlower, hrest⟩ := mask_bounds hw
  have hmask : 2 * (w ||| 1) = 2 ^ w.size * 1 + (2 * (w ||| 1) - 2 ^ w.size) := by omega
  have hbit : (2 * (w ||| 1)).testBit w.size = true := by
    rw [hmask, Nat.testBit_two_pow_mul_add _ (hrest.trans_lt hupper), if_neg (lt_irrefl _), Nat.sub_self]
    rfl
  have hsame : (x &&& 2 * (w ||| 1)).testBit w.size = x.testBit w.size := by rw [Nat.testBit_and, hbit, Bool.and_true]
  rw [← hsame]
  refine ⟨fun hgt => ?_, fun hset => hupper.trans_le (Nat.ge_two_pow_of_testBit hset)⟩
  by_contra hclear
  have hlt : x &&& 2 * (w ||| 1) < 2 ^ w.size := by
    apply Nat.lt_pow_two_of_testBit
    intro i hi
    rcases hi.eq_or_lt with rfl | hlt
    · exact Bool.eq_false_iff.mpr hclear
    · apply Nat.testBit_lt_two_pow
      calc x &&& 2 * (w ||| 1) ≤ 2 * (w ||| 1) := Nat.and_le_right
        _ < 2 ^ (w.size + 1) := by rw [Nat.pow_succ]; omega
        _ ≤ 2 ^ i := Nat.pow_le_pow_right (by decide) hlt
  have hmod := Nat.and_mod_two_pow (a := x) (b := 2 * (w ||| 1)) (n := w.size)
  rw [Nat.mod_eq_of_lt hlt, hmask, Nat.mul_add_mod, Nat.mod_eq_of_lt (hrest.trans_lt hupper), ← hmask] at hmod
  rw [hmod] at hgt
  exact absurd (Nat.and_le_right.trans hrest) (Nat.not_le.mpr hgt)

theorem xor_succ_ge {n x : ℕ} (hx : x % 2 ^ n + 1 = 2 ^ n) : 2 ^ (n + 1) - 1 ≤ (x + 1) ^^^ x := by
  have hdiv := Nat.div_add_mod x (2 ^ n)
  have hbits : (2 ^ (n + 1) - 1) &&& ((x + 1) ^^^ x) = 2 ^ (n + 1) - 1 := by
    apply Nat.eq_of_testBit_eq
    intro i
    rw [Nat.testBit_and, Nat.testBit_two_pow_sub_one]
    rcases Nat.lt_trichotomy i n with hlt | rfl | hgt
    · have hlow : x % 2 ^ n = 2 ^ n - 1 := by omega
      have hbelow : x.testBit i = true := by
        rw [← hdiv, Nat.testBit_two_pow_mul_add _ (Nat.mod_lt _ (Nat.two_pow_pos n)), if_pos hlt, hlow,
          Nat.testBit_two_pow_sub_one, decide_eq_true hlt]
      have hsucc : x + 1 = 2 ^ n * (x / 2 ^ n + 1) + 0 := by
        rw [Nat.mul_add]
        omega
      have hzero : (x + 1).testBit i = false := by
        rw [hsucc, Nat.testBit_two_pow_mul_add _ (Nat.two_pow_pos n), if_pos hlt, Nat.zero_testBit]
      rw [Nat.testBit_xor, hbelow, hzero]
      simp
    · rw [Nat.testBit_xor, testBit_add Nat.one_le_two_pow, hx, decide_eq_true le_rfl]
      simp
    · rw [decide_eq_false (by omega), Bool.false_and]
  exact hbits ▸ Nat.and_le_right

theorem xor_succ_lt {n x : ℕ} (hx : x % 2 ^ n + 1 < 2 ^ n) : (x + 1) ^^^ x < 2 ^ n := by
  have hdiv := Nat.div_add_mod x (2 ^ n)
  have hsucc : x + 1 = 2 ^ n * (x / 2 ^ n) + (x % 2 ^ n + 1) := by omega
  apply Nat.lt_pow_two_of_testBit
  intro i hi
  have hsame : (x + 1).testBit i = x.testBit i := by
    rw [hsucc, Nat.testBit_two_pow_mul_add _ hx, if_neg (Nat.not_lt.mpr hi)]
    conv_rhs => rw [← hdiv, Nat.testBit_two_pow_mul_add _ (Nat.mod_lt _ (Nat.two_pow_pos n)), if_neg (Nat.not_lt.mpr hi)]
  rw [Nat.testBit_xor, hsame, Bool.xor_self]

theorem getLsbD_of_lt {n : ℕ} {x : BitVec 32} (h : x.toNat < 2 ^ n) : x.getLsbD n = false := Nat.testBit_lt_two_pow h

theorem getLsbD_not {n : ℕ} {x : BitVec 32} (hn : n < 32) (h : (~~~x).toNat < 2 ^ n) : x.getLsbD n = true := by
  have hbit := getLsbD_of_lt h
  rw [BitVec.getLsbD_not, decide_eq_true hn, Bool.true_and, Bool.not_eq_false'] at hbit
  exact hbit

end Karphin.Lib

/-!
# Little-endian files

Numbers and tables of numbers, and where in a file they are found again.
-/

namespace Karphin.Lib

def leBytes : (w : Nat) → Nat → List UInt8
  | 0, _ => []
  | w + 1, v => UInt8.ofNat v :: leBytes w (v / 256)

def ofLeBytes : List UInt8 → Nat
  | [] => 0
  | b :: bytes => b.toNat + 256 * ofLeBytes bytes

def readLe (w : Nat) (file : List UInt8) (offset : Nat) : Nat := ofLeBytes ((file.drop offset).take w)

theorem mapM_some {α β : Type} {f : α → Option β} {h : α → β} : ∀ {l : List α}, (∀ x ∈ l, f x = some (h x)) →
    l.mapM f = some (l.map h)
  | [], _ => rfl
  | x :: l, hall => by
      rw [List.mapM_cons, hall x (List.mem_cons_self ..), mapM_some fun y hy => hall y (List.mem_cons_of_mem _ hy)]
      rfl

def leTable (w : Nat) (entries : List Nat) : List UInt8 := entries.flatMap (leBytes w)

def readLeTable (w count : Nat) (file : List UInt8) (offset : Nat) : List Nat :=
  (List.range count).map fun k => readLe w file (offset + w * k)

@[simp]
theorem leBytes_length : ∀ (w v : Nat), (leBytes w v).length = w
  | 0, _ => rfl
  | w + 1, v => congrArg (· + 1) (leBytes_length w (v / 256))

theorem ofLeBytes_leBytes : ∀ (w v : Nat), ofLeBytes (leBytes w v) = v % 256 ^ w
  | 0, v => by simp [leBytes, ofLeBytes, Nat.mod_one]
  | w + 1, v => by
      have hbyte : (UInt8.ofNat v).toNat = v % 256 := by simp
      rw [leBytes, ofLeBytes, ofLeBytes_leBytes w, hbyte, Nat.pow_succ, Nat.mul_comm (256 ^ w), Nat.mod_mul]

@[simp]
theorem leTable_length (w : Nat) : ∀ (entries : List Nat), (leTable w entries).length = w * entries.length
  | [] => rfl
  | v :: entries => by
      have htail := leTable_length w entries
      rw [leTable] at htail
      rw [leTable, List.flatMap_cons, List.length_append, leBytes_length, htail, List.length_cons]
      ring

theorem readLe_append {w v offset : Nat} {before : List UInt8} (h : before.length = offset) (after : List UInt8) :
    readLe w (before ++ (leBytes w v ++ after)) offset = v % 256 ^ w := by
  have htake : (leBytes w v ++ after).take w = leBytes w v := by
    rw [List.take_append_of_le_length (le_of_eq (leBytes_length w v).symm), List.take_of_length_le (by simp)]
  rw [readLe, ← h, List.drop_left, htake, ofLeBytes_leBytes]

theorem readLe_head (w v : Nat) (after : List UInt8) : readLe w (leBytes w v ++ after) 0 = v % 256 ^ w :=
  @readLe_append w v 0 [] rfl after

theorem readLe_skip {w u v offset : Nat} (h : u ≤ offset) (after : List UInt8) :
    readLe w (leBytes u v ++ after) offset = readLe w after (offset - u) := by
  rw [readLe, readLe, List.drop_append, leBytes_length, List.drop_eq_nil_of_le (by rwa [leBytes_length]),
    List.nil_append]

theorem readLeTable_append {w : Nat} : ∀ {entries : List Nat} {offset : Nat} {before : List UInt8},
    before.length = offset → ∀ (after : List UInt8),
    readLeTable w entries.length (before ++ (leTable w entries ++ after)) offset = entries.map (· % 256 ^ w)
  | [], _, _, _, _ => rfl
  | v :: entries, offset, before, h, after => by
      have hfile : before ++ (leTable w (v :: entries) ++ after) =
          before ++ leBytes w v ++ (leTable w entries ++ after) := by
        simp only [leTable, List.flatMap_cons, List.append_assoc]
      have hrest := @readLeTable_append w entries (offset + w) (before ++ leBytes w v)
        (by rw [List.length_append, h, leBytes_length]) after
      have hnext : ∀ k, offset + w + w * k = offset + w * (k + 1) := by
        intro k
        ring
      simp only [readLeTable, hnext] at hrest
      rw [hfile, readLeTable, List.length_cons, List.range_succ_eq_map, List.map_cons, List.map_map, List.map_cons]
      congr 1
      rw [Nat.mul_zero, Nat.add_zero, List.append_assoc, readLe_append h]

end Karphin.Lib
