import Karphin.Lib.BinaryField
import Karphin.Common.Crypto.Ec

/-!
# The operations on field elements

What they compute, in any ring of characteristic 2 with a root of the trinomial.
-/

namespace Karphin.Common.Ec

open Lib

/-! ## Bytes -/

theorem byteBits_xor (a b : UInt8) : byteBits (a ^^^ b) = (byteBits a).zipWith (· ^^ ·) (byteBits b) := by
  rw [byteBits_eq, byteBits_eq a, byteBits_eq b]
  simp

theorem byteBits_shift_one (b : UInt8) :
    byteBits (b >>> 7) ++ byteBits (b <<< 1) = List.replicate 7 false ++ (byteBits b ++ [false]) := by
  simp [byteBits_eq, List.replicate]

theorem byteBits_shift_seven (b : UInt8) :
    byteBits (b >>> 1) ++ byteBits (b <<< 7) = [false] ++ (byteBits b ++ List.replicate 7 false) := by
  simp [byteBits_eq, List.replicate]

theorem byteBits_nibbles (b : UInt8) : byteBits b =
    [3, 2, 1, 0].map (b.toNat / 16).testBit ++ [3, 2, 1, 0].map (b.toNat % 16).testBit := by
  have hhigh : ∀ i, (b.toNat / 16).testBit i = b.toBitVec.getLsbD (i + 4) :=
    fun i => @Nat.testBit_div_two_pow 4 b.toNat i
  have hlow : ∀ i < 4, (b.toNat % 16).testBit i = b.toBitVec.getLsbD i := by
    intro i hi
    rw [show (16 : Nat) = 2 ^ 4 from rfl, Nat.testBit_mod_two_pow, decide_eq_true hi]
    rfl
  rw [byteBits_eq]
  simp only [List.map_cons, List.map_nil, hhigh]
  rw [hlow 3 (by decide), hlow 2 (by decide), hlow 1 (by decide), hlow 0 (by decide)]
  rfl

theorem byteBits_squareTable (b : UInt8) :
    byteBits (squareTable (b >>> 4)) ++ byteBits (squareTable (b &&& 15)) = spread (byteBits b) := by
  have hnibble : ∀ i < 16, byteBits (squareTable (UInt8.ofNat i)) = spread ([3, 2, 1, 0].map i.testBit) := by decide
  have hlt := b.toNat_lt
  have hhigh : b >>> 4 = UInt8.ofNat (b.toNat / 16) := by
    rw [← UInt8.toNat_inj]
    simp [Nat.shiftRight_eq_div_pow]
    omega
  have hlow : b &&& 15 = UInt8.ofNat (b.toNat % 16) := by
    rw [← UInt8.toNat_inj]
    simp [Nat.and_two_pow_sub_one_eq_mod _ 4]
    omega
  rw [hhigh, hlow, hnibble _ (by omega), hnibble _ (by omega), byteBits_nibbles]
  rfl

theorem byteBits_even (b : UInt8) : byteBits (b &&& 0xfe) = (byteBits ((b &&& 0xfe) >>> 1)).tail ++ [false] ∧
    (byteBits ((b &&& 0xfe) >>> 1)).headD false = false := by
  simp [byteBits_eq]

theorem and_one_eq_xor (b : UInt8) : b &&& 1 = b ^^^ (b &&& 0xfe) := by
  apply byteBits_inj
  simp [byteBits_eq]

theorem and_one_bne_zero (b : UInt8) : (b &&& 1 != 0) = b.toBitVec.getLsbD 0 := by
  have hlast := congrArg (·.getLast?) (byteBits_eq b)
  simpa [byteBits, byteMasks] using hlast

theorem byteBits_and_one (b : UInt8) : byteBits (b &&& 1) = List.replicate 7 false ++ [b &&& 1 != 0] := by
  rw [and_one_bne_zero]
  simp [byteBits_eq, List.replicate]

theorem byteBits_and_one_shift (b : UInt8) :
    byteBits ((b &&& 1) <<< 2) = List.replicate 5 false ++ [b &&& 1 != 0, false, false] := by
  rw [and_one_bne_zero]
  simp [byteBits_eq, List.replicate]

theorem eq_and_one_iff (b : UInt8) : b = b &&& 1 ↔ b.toNat < 2 := by
  rw [← UInt8.toNat_inj]
  simp
  omega

theorem modify_and_one {wide : List UInt8} {i : Nat} :
    wide.modify i (· &&& 1) = wide.modify i (· ^^^ (wide.getD i 0 &&& 0xfe)) := by
  apply List.ext_getElem
  · simp
  · intro j hj hj'
    rw [List.length_modify] at hj
    rw [List.getElem_modify, List.getElem_modify]
    split
    next h =>
      subst h
      rw [and_one_eq_xor]
      simp [List.getD, hj]
    next => rfl

section

variable {R : Type} [CommRing R] {x : R}

theorem horner_replicate_false (n : Nat) : horner x (List.replicate n false) = 0 := by
  induction n with
  | zero => rfl
  | succ n ih => rw [List.replicate_succ, horner_cons, ih, if_neg Bool.false_ne_true, zero_mul, zero_add]

theorem horner_byte_zero : horner x (byteBits 0) = 0 := horner_replicate_false 8

theorem horner_shift_one (b : UInt8) :
    horner x (byteBits (b >>> 7)) * x ^ 8 + horner x (byteBits (b <<< 1)) = x * horner x (byteBits b) := by
  have h := congrArg (horner x) (byteBits_shift_one b)
  have hlast : horner x [false] = 0 := horner_replicate_false 1
  rw [horner_append, horner_append, horner_append, horner_replicate_false, hlast, byteBits_length, zero_mul, zero_add,
    add_zero, List.length_singleton, pow_one] at h
  rw [h, mul_comm]

theorem horner_shift_seven (b : UInt8) :
    horner x (byteBits (b >>> 1)) * x ^ 8 + horner x (byteBits (b <<< 7)) = x ^ 7 * horner x (byteBits b) := by
  have h := congrArg (horner x) (byteBits_shift_seven b)
  have hfirst : horner x [false] = 0 := horner_replicate_false 1
  rw [horner_append, horner_append, horner_append, horner_replicate_false, hfirst, byteBits_length, zero_mul, zero_add,
    add_zero, List.length_replicate] at h
  rw [h, mul_comm]

theorem horner_even (b : UInt8) :
    horner x (byteBits (b &&& 0xfe)) = x * horner x (byteBits ((b &&& 0xfe) >>> 1)) := by
  obtain ⟨htail, hhead⟩ := byteBits_even b
  have hlast : horner x [false] = 0 := horner_replicate_false 1
  have hcons : byteBits ((b &&& 0xfe) >>> 1) = false :: (byteBits ((b &&& 0xfe) >>> 1)).tail := by
    conv_lhs => rw [byteBits, byteMasks, List.map_cons]
    rw [byteBits, byteMasks, List.map_cons, List.headD_cons] at hhead
    rw [hhead]
    rfl
  rw [htail, horner_append, hlast, add_zero, hcons, horner_cons, if_neg Bool.false_ne_true, zero_mul, zero_add,
    List.tail_cons, List.length_singleton, pow_one, mul_comm]

/-! ## Lists of bytes -/

theorem horner_bytes_cons (b : UInt8) (bytes : List UInt8) :
    horner x (bytesBits (b :: bytes)) = horner x (byteBits b) * x ^ (8 * bytes.length) + horner x (bytesBits bytes) := by
  rw [bytesBits_cons, horner_append, bytesBits_length]

variable [CharP R 2]

theorem horner_byte_xor (a b : UInt8) : horner x (byteBits (a ^^^ b)) = horner x (byteBits a) + horner x (byteBits b) := by
  rw [byteBits_xor]
  exact horner_xor rfl

theorem horner_modify (v : UInt8) : ∀ {bytes : List UInt8} {j : Nat}, j < bytes.length →
    horner x (bytesBits (bytes.modify j (· ^^^ v))) =
      horner x (bytesBits bytes) + horner x (byteBits v) * x ^ (8 * (bytes.length - 1 - j))
  | b :: bytes, 0, _ => by
      rw [List.modify_zero_cons, horner_bytes_cons, horner_bytes_cons, horner_byte_xor, List.length_cons,
        Nat.add_sub_cancel, Nat.sub_zero]
      ring
  | b :: bytes, j + 1, h => by
      have hj : j < bytes.length := Nat.lt_of_succ_lt_succ h
      have hplace : (b :: bytes).length - 1 - (j + 1) = bytes.length - 1 - j := by
        rw [List.length_cons]
        omega
      rw [List.modify_succ_cons, horner_bytes_cons, horner_bytes_cons, List.length_modify, horner_modify v hj, hplace,
        add_assoc]

theorem horner_drop_modify (v : UInt8) : ∀ {bytes : List UInt8} {i j : Nat}, i ≤ j → j < bytes.length →
    horner x (bytesBits ((bytes.modify j (· ^^^ v)).drop i)) =
      horner x (bytesBits (bytes.drop i)) + horner x (byteBits v) * x ^ (8 * (bytes.length - 1 - j))
  | _, 0, _, _, h => horner_modify v h
  | b :: bytes, i + 1, j + 1, hij, h => by
      have hplace : (b :: bytes).length - 1 - (j + 1) = bytes.length - 1 - j := by
        rw [List.length_cons]
        omega
      rw [List.modify_succ_cons, List.drop_succ_cons, List.drop_succ_cons, hplace]
      exact horner_drop_modify v (Nat.le_of_succ_le_succ hij) (Nat.lt_of_succ_lt_succ h)

end

/-! ## Elements of 233 bits -/

def Elt.Reduced (a : Elt) : Prop := a.value < 2 ^ 233

theorem Elt.reduced_iff {a : Elt} {b : UInt8} {bytes : List UInt8} (h : a.data = b :: bytes) :
    a.Reduced ↔ b = b &&& 1 := by
  have hlen : bytes.length = 29 := by
    have hsize := a.size
    rw [h, List.length_cons] at hsize
    exact Nat.succ.inj hsize
  have hlt := beValue_lt bytes
  rw [eq_and_one_iff, Elt.Reduced, Elt.value, h, beValue, hlen]
  rw [hlen] at hlt
  omega

theorem Elt.exists_cons (a : Elt) : ∃ b bytes, a.data = b :: bytes ∧ bytes.length = 29 := by
  have hsize := a.size
  cases h : a.data with
  | nil =>
      rw [h] at hsize
      cases hsize
  | cons b bytes =>
      rw [h, List.length_cons] at hsize
      exact ⟨b, bytes, rfl, Nat.succ.inj hsize⟩

def Elt.eval {R : Type} [CommRing R] (x : R) (a : Elt) : R := horner x (bytesBits a.data)

theorem Elt.mulX_data (a : Elt) : a.mulX.data =
    (mulXLoop (a.data.headD 0 &&& 1) 0 a.data.tail).modify 20 (· ^^^ ((a.data.headD 0 &&& 1) <<< 2)) := rfl

theorem Elt.add_data (a b : Elt) : (a.add b).data = a.data.zipWith (· ^^^ ·) b.data := rfl

theorem Elt.flipLast_data (a : Elt) : a.flipLast.data = a.data.modify 29 (· ^^^ 1) := rfl

theorem Elt.square_data (a : Elt) : a.square.data =
    (squareFinish ((List.range 30).foldl squareReduce (squareWide a.data))).drop 30 := by
  rw [Elt.square]

theorem Elt.zero_reduced : Elt.zero.Reduced := by
  have hzero : Elt.zero.value = 0 := beValue_replicate_zero 30
  rw [Elt.Reduced, hzero]
  exact Nat.two_pow_pos _

theorem Elt.mulX_reduced (a : Elt) : a.mulX.Reduced := by
  obtain ⟨b, bytes, h, hlen⟩ := a.exists_cons
  cases bytes with
  | nil => cases hlen
  | cons y ys =>
      have hdata : a.mulX.data = ((0 : UInt8) ^^^ (y >>> 7)) :: (mulXLoop (b &&& 1) (y <<< 1) ys).modify 19
          (· ^^^ ((b &&& 1) <<< 2)) := by
        rw [Elt.mulX_data, h]
        rfl
      rw [Elt.reduced_iff hdata]
      apply byteBits_inj
      simp [byteBits_eq]

theorem Elt.add_reduced {a b : Elt} (ha : a.Reduced) (hb : b.Reduced) : (a.add b).Reduced := by
  obtain ⟨x, xs, hxs, _⟩ := a.exists_cons
  obtain ⟨y, ys, hys, _⟩ := b.exists_cons
  have hdata : (a.add b).data = (x ^^^ y) :: xs.zipWith (· ^^^ ·) ys := by
    rw [Elt.add_data, hxs, hys, List.zipWith_cons_cons]
  rw [Elt.reduced_iff hxs] at ha
  rw [Elt.reduced_iff hys] at hb
  have hbit : ∀ c : UInt8, c = c &&& 1 → c = 0 ∨ c = 1 := by
    intro c hc
    have hlt := (eq_and_one_iff c).mp hc
    rw [← UInt8.toNat_inj, ← UInt8.toNat_inj]
    simp
    omega
  rw [Elt.reduced_iff hdata]
  rcases hbit x ha with rfl | rfl <;> rcases hbit y hb with rfl | rfl <;> rfl

theorem Elt.flipLast_reduced {a : Elt} (ha : a.Reduced) : a.flipLast.Reduced := by
  obtain ⟨b, bytes, h, _⟩ := a.exists_cons
  have hdata : a.flipLast.data = b :: bytes.modify 28 (· ^^^ 1) := by
    rw [Elt.flipLast_data, h, List.modify_succ_cons]
  exact (Elt.reduced_iff hdata).mpr ((Elt.reduced_iff h).mp ha)

theorem Elt.square_reduced (a : Elt) : a.square.Reduced := by
  have hlen : (squareFinish ((List.range 30).foldl squareReduce (squareWide a.data))).length = 60 := by
    rw [squareFinish_length, foldl_squareReduce_length, squareWide_length, a.size]
  have hcons : ∀ wide : List UInt8, wide.length = 60 →
      (squareFinish wide).drop 30 = (wide.getD 30 0 &&& 1) :: (squareFinish wide).drop 31 := by
    intro wide hwide
    have h30 : 30 < (squareFinish wide).length := by
      rw [squareFinish_length, hwide]
      decide
    rw [List.drop_eq_getElem_cons h30]
    simp [squareFinish, hwide]
  rw [squareFinish_length] at hlen
  have hdata : a.square.data = _ := a.square_data.trans (hcons _ hlen)
  rw [Elt.reduced_iff hdata]
  generalize ((List.range 30).foldl squareReduce (squareWide a.data)).getD 30 0 = b
  simp [UInt8.and_assoc]

section

variable {R : Type} [CommRing R] {x : R}

theorem Elt.eval_zero : Elt.zero.eval x = 0 := by
  have hbytes : ∀ n, horner x (bytesBits (List.replicate n 0)) = 0 := by
    intro n
    induction n with
    | zero => rfl
    | succ n ih => rw [List.replicate_succ, horner_bytes_cons, ih, horner_byte_zero, zero_mul, zero_add]
  exact hbytes 30

variable [CharP R 2]

theorem Elt.eval_add (a b : Elt) : (a.add b).eval x = a.eval x + b.eval x := by
  have hbytes : ∀ as bs : List UInt8, as.length = bs.length →
      bytesBits (as.zipWith (· ^^^ ·) bs) = (bytesBits as).zipWith (· ^^ ·) (bytesBits bs) := by
    intro as
    induction as with
    | nil => simp
    | cons c cs ih =>
        intro bs hlen
        cases bs with
        | nil => cases hlen
        | cons d ds =>
            rw [List.zipWith_cons_cons, bytesBits_cons, bytesBits_cons, bytesBits_cons, ih ds (Nat.succ.inj hlen),
              byteBits_xor, List.zipWith_append (by rw [byteBits_length, byteBits_length])]
  rw [Elt.eval, Elt.add_data, hbytes _ _ (a.size.trans b.size.symm), horner_xor]
  · rfl
  · rw [bytesBits_length, bytesBits_length, a.size, b.size]

theorem Elt.eval_flipLast (a : Elt) : a.flipLast.eval x = a.eval x + 1 := by
  have hone : horner x (byteBits 1) = 1 := by
    have hbits : byteBits 1 = List.replicate 7 false ++ [true] := by decide
    rw [hbits, horner_append, horner_replicate_false, zero_mul, zero_add, horner_cons, horner_nil, add_zero]
    simp
  rw [Elt.eval, Elt.flipLast_data, horner_modify 1 (by rw [a.size]; decide), a.size, hone]
  simp [Elt.eval]

theorem horner_squareWide (data : List UInt8) :
    horner x (bytesBits (squareWide data)) = horner x (bytesBits data) ^ 2 := by
  have hhead : ∀ b : UInt8, bytesBits [squareTable (b >>> 4), squareTable (b &&& 15)] = spread (byteBits b) := by
    intro b
    rw [← byteBits_squareTable]
    simp [bytesBits]
  have hbits : bytesBits (squareWide data) = spread (bytesBits data) := by
    induction data with
    | nil => rfl
    | cons b data ih =>
        rw [squareWide, List.flatMap_cons, ← squareWide, bytesBits_append, ih, hhead, bytesBits_cons]
        exact List.flatMap_append.symm
  rw [hbits, horner_spread]

theorem horner_mulXLoop (carry : UInt8) : ∀ (acc : UInt8) (ys : List UInt8),
    horner x (bytesBits (mulXLoop carry acc ys)) =
      horner x (byteBits acc) * x ^ (8 * ys.length) + x * horner x (bytesBits ys) + horner x (byteBits carry)
  | acc, [] => by
      rw [mulXLoop, horner_bytes_cons, horner_byte_xor]
      simp
  | acc, y :: ys => by
      have hshift := horner_shift_one (x := x) y
      rw [mulXLoop, horner_bytes_cons, horner_byte_xor, horner_mulXLoop carry (y <<< 1) ys, mulXLoop_length,
        horner_bytes_cons, List.length_cons]
      calc _ = horner x (byteBits acc) * x ^ (8 * (ys.length + 1)) +
            (horner x (byteBits (y >>> 7)) * x ^ 8 + horner x (byteBits (y <<< 1))) * x ^ (8 * ys.length) +
            x * horner x (bytesBits ys) + horner x (byteBits carry) := by ring
        _ = _ := by rw [hshift]; ring

end

section

variable {R : Type} [CommRing R] [CharP R 2] {x : R} (hx : x ^ 233 = x ^ 74 + 1)

include hx

theorem Elt.eval_mulX {a : Elt} (ha : a.Reduced) : a.mulX.eval x = x * a.eval x := by
  obtain ⟨b, bytes, h, hlen⟩ := a.exists_cons
  have hb := (Elt.reduced_iff h).mp ha
  have hshift : horner x (byteBits ((b &&& 1) <<< 2)) = x ^ 2 * horner x (byteBits (b &&& 1)) := by
    rw [byteBits_and_one, byteBits_and_one_shift, horner_append, horner_append, horner_replicate_false, horner_replicate_false]
    simp [horner_cons, mul_comm]
  have hloop : (mulXLoop (b &&& 1) 0 bytes).length = 30 := by rw [mulXLoop_length, hlen]
  have hmul : a.mulX.eval x = horner x (bytesBits ((mulXLoop (b &&& 1) 0 bytes).modify 20 (· ^^^ ((b &&& 1) <<< 2)))) := by
    rw [Elt.eval, Elt.mulX_data, h, List.headD_cons, List.tail_cons]
  have heval : a.eval x = horner x (byteBits b) * x ^ 232 + horner x (bytesBits bytes) := by
    rw [Elt.eval, h, horner_bytes_cons, hlen]
  rw [hmul, horner_modify _ (by rw [hloop]; decide), hloop, horner_mulXLoop, horner_byte_zero, hshift, ← hb, heval]
  calc _ = x * horner x (bytesBits bytes) + horner x (byteBits b) * (x ^ 74 + 1) := by ring
    _ = _ := by rw [← hx]; ring

theorem horner_squareReduce {wide : List UInt8} {i : Nat} (hlen : wide.length = 60) (hi : i < 30) :
    horner x (bytesBits ((squareReduce wide i).drop (i + 1))) = horner x (bytesBits (wide.drop i)) := by
  have hb : i < wide.length := by omega
  have hone := horner_shift_one (x := x) wide[i]
  have hseven := horner_shift_seven (x := x) wide[i]
  have hget : wide.getD i 0 = wide[i] := by simp [List.getD, hb]
  have hweights : 59 - (i + 19) = (29 - i) + 11 ∧ 59 - (i + 20) = (29 - i) + 10 ∧ 59 - (i + 29) = (29 - i) + 1 ∧
      59 - (i + 30) = 29 - i ∧ 60 - (i + 1) = (29 - i) + 30 := by omega
  rw [List.drop_eq_getElem_cons hb, horner_bytes_cons, List.length_drop, hlen, squareReduce, hget]
  rw [horner_drop_modify _ (by omega) (by simp only [List.length_modify]; omega),
    horner_drop_modify _ (by omega) (by simp only [List.length_modify]; omega),
    horner_drop_modify _ (by omega) (by simp only [List.length_modify]; omega),
    horner_drop_modify _ (by omega) (by omega)]
  simp only [List.length_modify, hlen, Nat.reduceSub, hweights]
  generalize 29 - i = e at hone hseven ⊢
  calc _ = horner x (bytesBits (wide.drop (i + 1))) +
        (horner x (byteBits (wide[i] >>> 7)) * x ^ 8 + horner x (byteBits (wide[i] <<< 1))) * x ^ (8 * (e + 10)) +
        (horner x (byteBits (wide[i] >>> 1)) * x ^ 8 + horner x (byteBits (wide[i] <<< 7))) * x ^ (8 * e) := by ring
    _ = horner x (bytesBits (wide.drop (i + 1))) + horner x (byteBits wide[i]) * (x ^ 74 + 1) * x ^ (8 * e + 7) := by
        rw [hone, hseven]
        ring
    _ = _ := by
        rw [← hx]
        ring

theorem horner_squareRounds {wide : List UInt8} (hlen : wide.length = 60) : ∀ n ≤ 30,
    horner x (bytesBits (((List.range n).foldl squareReduce wide).drop n)) = horner x (bytesBits wide)
  | 0, _ => rfl
  | n + 1, hn => by
      have hlen' : ((List.range n).foldl squareReduce wide).length = 60 := by rw [foldl_squareReduce_length, hlen]
      rw [List.range_succ, List.foldl_append, List.foldl_cons, List.foldl_nil,
        horner_squareReduce hx hlen' (Nat.lt_of_succ_le hn), horner_squareRounds hlen n (Nat.le_of_succ_le hn)]

theorem horner_squareFinish {wide : List UInt8} (hlen : wide.length = 60) :
    horner x (bytesBits ((squareFinish wide).drop 30)) = horner x (bytesBits (wide.drop 30)) := by
  have hone := horner_shift_one (x := x) (wide.getD 30 0 &&& 0xfe)
  have heven := horner_even (x := x) (wide.getD 30 0)
  have hsame : ∀ v v' v'', (((wide.modify 49 (· ^^^ v)).modify 50 (· ^^^ v')).modify 59 (· ^^^ v'')).getD 30 0 =
      wide.getD 30 0 := by
    intro v v' v''
    simp [List.getD]
  rw [squareFinish, modify_and_one, hsame]
  generalize wide.getD 30 0 &&& 0xfe = y at hone heven ⊢
  rw [horner_drop_modify _ (by omega) (by simp only [List.length_modify]; omega),
    horner_drop_modify _ (by omega) (by simp only [List.length_modify]; omega),
    horner_drop_modify _ (by omega) (by simp only [List.length_modify]; omega),
    horner_drop_modify _ (by omega) (by omega)]
  simp only [List.length_modify, hlen, Nat.reduceSub]
  calc _ = horner x (bytesBits (wide.drop 30)) +
        (horner x (byteBits (y >>> 7)) * x ^ 8 + horner x (byteBits (y <<< 1))) * x ^ 72 + horner x (byteBits (y >>> 1)) +
        horner x (byteBits y) * x ^ 232 := by ring
    _ = horner x (bytesBits (wide.drop 30)) + horner x (byteBits (y >>> 1)) * ((x ^ 74 + 1) + x ^ 233) := by
        rw [hone, heven]
        ring
    _ = _ := by rw [← hx, CharTwo.add_self_eq_zero, mul_zero, add_zero]

theorem Elt.eval_square (a : Elt) : a.square.eval x = a.eval x ^ 2 := by
  have hwide : (squareWide a.data).length = 60 := by rw [squareWide_length, a.size]
  have hlen : ((List.range 30).foldl squareReduce (squareWide a.data)).length = 60 := by
    rw [foldl_squareReduce_length, hwide]
  rw [Elt.eval, Elt.square_data, horner_squareFinish hx hlen, horner_squareRounds hx hwide 30 (Nat.le_refl _),
    horner_squareWide]
  rfl

/-! ## The product -/

omit hx

theorem mulLoop_round {a b : Elt} {n i : Nat} {mask : UInt8} {d : Elt} : mulLoop a b (n + 1) i mask d =
    mulLoop a b n (if mask >>> 1 = 0 then i + 1 else i) (if mask >>> 1 = 0 then 0x80 else mask >>> 1)
      (binaryMethod Elt.mulX (·.add b) d [a.data.getD i 0 &&& mask != 0]) := by
  have hstep : binaryMethod Elt.mulX (·.add b) d [a.data.getD i 0 &&& mask != 0] =
      if a.data.getD i 0 &&& mask ≠ 0 then d.mulX.add b else d.mulX := by
    simp [binaryMethod]
  rw [hstep, mulLoop]
  by_cases h : mask >>> 1 = 0
  · rw [if_pos h, if_pos h, if_pos h]
  · rw [if_neg h, if_neg h, if_neg h]

theorem mulLoop_byte (a b : Elt) (n i : Nat) (d : Elt) : mulLoop a b (n + 8) i 0x80 d =
    mulLoop a b n (i + 1) 0x80 (binaryMethod Elt.mulX (·.add b) d (byteBits (a.data.getD i 0))) := by
  have hbits : byteBits (a.data.getD i 0) = [a.data.getD i 0 &&& 0x80 != 0] ++ ([a.data.getD i 0 &&& 0x40 != 0] ++
      ([a.data.getD i 0 &&& 0x20 != 0] ++ ([a.data.getD i 0 &&& 0x10 != 0] ++ ([a.data.getD i 0 &&& 0x08 != 0] ++
      ([a.data.getD i 0 &&& 0x04 != 0] ++ ([a.data.getD i 0 &&& 0x02 != 0] ++ [a.data.getD i 0 &&& 0x01 != 0])))))) := rfl
  rw [hbits, binaryMethod_append, binaryMethod_append, binaryMethod_append, binaryMethod_append, binaryMethod_append,
    binaryMethod_append, binaryMethod_append, mulLoop_round, mulLoop_round, mulLoop_round, mulLoop_round, mulLoop_round,
    mulLoop_round, mulLoop_round, mulLoop_round]
  rfl

theorem mulLoop_bytes (a b : Elt) : ∀ (c i : Nat) (d : Elt), i + c = 30 →
    mulLoop a b (8 * c) i 0x80 d = binaryMethod Elt.mulX (·.add b) d (bytesBits (a.data.drop i))
  | 0, i, d, h => by
      have hdrop : a.data.drop i = [] := List.drop_eq_nil_of_le (by rw [a.size]; omega)
      rw [hdrop]
      rfl
  | c + 1, i, d, h => by
      have hi : i < a.data.length := by rw [a.size]; omega
      have hget : a.data.getD i 0 = a.data[i] := by simp [List.getD, hi]
      rw [Nat.mul_succ, mulLoop_byte, mulLoop_bytes a b c (i + 1) _ (by omega), List.drop_eq_getElem_cons hi,
        bytesBits_cons, binaryMethod_append, hget]

theorem Elt.mul_eq {a b : Elt} {h : UInt8} {bytes : List UInt8} (hdata : a.data = h :: bytes) :
    a.mul b = binaryMethod Elt.mulX (·.add b) Elt.zero ((h &&& 1 != 0) :: bytesBits bytes) := by
  have hget : a.data.getD 0 0 = h := by rw [hdata]; rfl
  have hdrop : a.data.drop 1 = bytes := by rw [hdata]; rfl
  have hbits : (h &&& 1 != 0) :: bytesBits bytes = [h &&& 1 != 0] ++ bytesBits bytes := rfl
  have hrest := mulLoop_bytes a b 29 1 (binaryMethod Elt.mulX (·.add b) Elt.zero [h &&& 1 != 0]) rfl
  rw [hdrop] at hrest
  rw [hbits, binaryMethod_append, ← hrest, Elt.mul, mulLoop_round, hget]
  rfl

include hx

theorem Elt.mul_spec {a b : Elt} (ha : a.Reduced) (hb : b.Reduced) :
    (a.mul b).Reduced ∧ (a.mul b).eval x = a.eval x * b.eval x := by
  obtain ⟨h, bytes, hdata, hlen⟩ := a.exists_cons
  have hbit := (Elt.reduced_iff hdata).mp ha
  have hdouble : ∀ d : Elt, d.Reduced → d.mulX.Reduced ∧ d.mulX.eval x = x * d.eval x :=
    fun d hd => ⟨d.mulX_reduced, Elt.eval_mulX hx hd⟩
  have hadd : ∀ d : Elt, d.Reduced → (d.add b).Reduced ∧ (d.add b).eval x = d.eval x + b.eval x :=
    fun d hd => ⟨Elt.add_reduced hd hb, Elt.eval_add d b⟩
  have hhead : horner x (byteBits h) = if h &&& 1 != 0 then 1 else 0 := by
    have hbits : byteBits h = List.replicate 7 false ++ [h &&& 1 != 0] := by
      rw [← byteBits_and_one, ← hbit]
    rw [hbits, horner_append, horner_replicate_false, zero_mul, zero_add, horner_cons, horner_nil, add_zero,
      List.length_nil, pow_zero, mul_one]
  obtain ⟨hreduced, heval⟩ := binaryMethod_horner hdouble hadd ((h &&& 1 != 0) :: bytesBits bytes) Elt.zero_reduced
  rw [Elt.mul_eq hdata]
  refine ⟨hreduced, heval.trans ?_⟩
  rw [Elt.eval_zero, zero_mul, zero_add, horner_cons, bytesBits_length, ← hhead, ← horner_bytes_cons, ← hdata]
  rfl

end

end Karphin.Common.Ec
