import Karphin.DSP.Interpreter.Defs
import Karphin.Lib.LittleEndian

/-!
# Address registers

An address register stays in a ring whose size need not be a power of two. Every step is one in the ring, for each of the
four ways in which steps are computed.
-/

namespace Karphin.DSP

open Lib

/-! ## Rings of addresses -/

/-- The addresses from `top - wr` to `top`, where the address register is one of them. -/
structure Ring (wr ar top : ℕ) : Prop where
  pos : 0 < wr
  aligned : 2 ^ wr.size ∣ top + 1
  lower : top ≤ ar + wr
  upper : ar ≤ top
  word : top < 2 ^ 16

def ringElement (wr ar top : ℕ) (distance : ℤ) : ℤ := top - wr + (ar - (top - wr) + distance) % (wr + 1)

section Ring

variable {wr ar top : ℕ} {d : ℤ}

theorem ringElement_within (hlower : (top : ℤ) - wr ≤ ar + d) (hupper : (ar : ℤ) + d ≤ top) :
    ringElement wr ar top d = ar + d := by
  rw [ringElement, Int.emod_eq_of_lt (by omega) (by omega)]
  omega

theorem ringElement_congr (k : ℤ) : ringElement wr ar top (d + (wr + 1) * k) = ringElement wr ar top d := by
  rw [ringElement, ringElement, ← Int.add_assoc, Int.add_mul_emod_self_left]

theorem ringElement_above (hlower : (top : ℤ) < ar + d) (hupper : (ar : ℤ) + d ≤ top + wr + 1) :
    ringElement wr ar top d = ar + d - (wr + 1) := by
  rw [← ringElement_congr (-1), ringElement_within (by omega) (by omega)]
  omega

theorem ringElement_below (hlower : (top : ℤ) - wr ≤ ar + d + (wr + 1)) (hupper : (ar : ℤ) + d < top - wr) :
    ringElement wr ar top d = ar + d + (wr + 1) := by
  rw [← ringElement_congr 1, ringElement_within (by omega) (by omega)]
  omega

theorem ringElement_mem (d : ℤ) : (top : ℤ) - wr ≤ ringElement wr ar top d ∧ ringElement wr ar top d ≤ top := by
  have hlower := Int.emod_nonneg ((ar : ℤ) - (top - wr) + d) (by omega : (wr : ℤ) + 1 ≠ 0)
  have hupper := Int.emod_lt_of_pos ((ar : ℤ) - (top - wr) + d) (by omega : (0 : ℤ) < wr + 1)
  rw [ringElement]
  omega

theorem ringElement_add {ar' : ℕ} (h : (ar' : ℤ) = ringElement wr ar top d) (e : ℤ) :
    ringElement wr ar' top e = ringElement wr ar top (d + e) := by
  have hstart : (ar' : ℤ) - (top - wr) = (ar - (top - wr) + d) % (wr + 1) := by
    rw [h, ringElement]
    omega
  rw [ringElement, ringElement, hstart, Int.emod_add_emod, Int.add_assoc]

theorem Ring.offset (h : Ring wr ar top) : ar % 2 ^ wr.size + top + 1 = ar + 2 ^ wr.size := by
  obtain ⟨k, hk⟩ := h.aligned
  have hsize := Nat.lt_size_self wr
  have hlower := h.lower
  have hupper := h.upper
  obtain ⟨q, rfl⟩ : ∃ q, k = q + 1 := ⟨k - 1, by
    have hne : k ≠ 0 := by
      rintro rfl
      omega
    omega⟩
  rw [Nat.mul_add] at hk
  have har : ar = 2 ^ wr.size * q + (ar - 2 ^ wr.size * q) := by omega
  rw [har, Nat.mul_add_mod, Nat.mod_eq_of_lt (by omega)]
  omega

theorem Ring.wr_le (h : Ring wr ar top) : wr ≤ top := by
  have hsize := Nat.lt_size_self wr
  exact Nat.le_of_lt_succ (hsize.trans_le (Nat.le_of_dvd (Nat.succ_pos top) h.aligned))

theorem Ring.size_le (h : Ring wr ar top) : wr.size ≤ 16 := Nat.size_le.mpr (h.wr_le.trans_lt h.word)

end Ring

section Words

variable {wr ar : BitVec 32} {top : ℕ}

theorem Ring.toNat_mask (h : Ring wr.toNat ar.toNat top) : ((wr ||| 1) <<< 1).toNat = 2 * (wr.toNat ||| 1) := by
  have hlt := h.wr_le.trans_lt h.word
  have hone : (wr ||| 1).toNat = wr.toNat ||| 1 := BitVec.toNat_or _ _
  rw [BitVec.toNat_shiftLeft, Nat.shiftLeft_eq, hone, or_one, Nat.mod_eq_of_lt (by omega)]
  omega

theorem Ring.masked_gt_iff (h : Ring wr.toNat ar.toNat top) (x : BitVec 32) :
    x &&& ((wr ||| 1) <<< 1) > wr ↔ x.getLsbD wr.toNat.size = true := by
  rw [gt_iff_lt, BitVec.lt_def, BitVec.toNat_and, h.toNat_mask, Lib.masked_gt_iff h.pos]
  rfl

theorem Ring.toNat_succ (h : Ring wr.toNat ar.toNat top) : (wr + 1).toNat = wr.toNat + 1 := by
  have hlt := h.wr_le.trans_lt h.word
  have hone : (1 : BitVec 32).toNat = 1 := rfl
  rw [BitVec.toNat_add, hone]
  omega

theorem Ring.up (h : Ring wr.toNat ar.toNat top) {d e : BitVec 32} (hd : d.toNat ≤ wr.toNat)
    (he : e.getLsbD wr.toNat.size = false) :
    (((if ((ar + d) ^^^ ar ^^^ e) &&& ((wr ||| 1) <<< 1) > wr then ar + d - (wr + 1) else ar + d).setWidth 16).toNat : ℤ) =
      ringElement wr.toNat ar.toNat top d.toNat := by
  have hsize := Nat.lt_size_self wr.toNat
  have hoffset := h.offset
  have hlower := h.lower
  have hupper := h.upper
  have hword := h.word
  have hwr := h.wr_le
  have hn : wr.toNat.size < 32 := h.size_le.trans_lt (by decide)
  have hcarry : ((ar + d) ^^^ ar ^^^ e).getLsbD wr.toNat.size = decide (top < ar.toNat + d.toNat) := by
    rw [BitVec.getLsbD_xor, BitVec.getLsbD_xor, he, Bool.xor_false, getLsbD_add hn (by omega), Bool.xor_comm,
      ← Bool.xor_assoc, Bool.xor_self, Bool.false_xor, decide_eq_decide]
    omega
  have hcond := h.masked_gt_iff ((ar + d) ^^^ ar ^^^ e)
  rw [hcarry, decide_eq_true_iff] at hcond
  by_cases hgt : top < ar.toNat + d.toNat
  · rw [if_pos (hcond.mpr hgt), ringElement_above (by omega) (by omega), BitVec.toNat_setWidth, BitVec.toNat_sub,
      h.toNat_succ, BitVec.toNat_add]
    omega
  · rw [if_neg (mt hcond.mp hgt), ringElement_within (by omega) (by omega), BitVec.toNat_setWidth, BitVec.toNat_add]
    omega

theorem Ring.down (h : Ring wr.toNat ar.toNat top) {nar d e : BitVec 32} (hnar : nar + d = ar) (hd : d.toNat ≤ wr.toNat)
    (he : e.getLsbD wr.toNat.size = true) :
    (((if ((nar + wr + (1 : BitVec 32)) ^^^ nar) &&& ((nar ^^^ ar ^^^ e) &&& ((wr ||| 1) <<< 1)) ≤ wr then nar + (wr + 1)
      else nar).setWidth 16).toNat : ℤ) = ringElement wr.toNat ar.toNat top (-d.toNat) := by
  have hsize := Nat.lt_size_self wr.toNat
  have hoffset := h.offset
  have hlower := h.lower
  have hupper := h.upper
  have hword := h.word
  have hwr := h.wr_le
  have hn : wr.toNat.size < 32 := h.size_le.trans_lt (by decide)
  have hsucc := h.toNat_succ
  have hsum : (nar.toNat + d.toNat) % 2 ^ 32 = ar.toNat := by rw [← BitVec.toNat_add, hnar]
  have hrest := Nat.mod_lt nar.toNat (Nat.two_pow_pos wr.toNat.size)
  have hmod : (nar.toNat % 2 ^ wr.toNat.size + d.toNat) % 2 ^ wr.toNat.size = ar.toNat % 2 ^ wr.toNat.size := by
    rw [Nat.mod_add_mod, ← hsum, Nat.mod_mod_of_dvd _ (Nat.pow_dvd_pow 2 hn.le)]
  -- the first carry says that the address stays among those that agree above, the second that it is too low there
  have hborrow : (nar ^^^ ar ^^^ e).getLsbD wr.toNat.size =
      !decide (2 ^ wr.toNat.size ≤ nar.toNat % 2 ^ wr.toNat.size + d.toNat) := by
    rw [BitVec.getLsbD_xor, BitVec.getLsbD_xor, he, ← hnar, getLsbD_add hn (by omega), ← Bool.xor_assoc, Bool.xor_self,
      Bool.false_xor, Bool.xor_true]
  have hcarry : ((nar + wr + (1 : BitVec 32)) ^^^ nar).getLsbD wr.toNat.size =
      decide (2 ^ wr.toNat.size ≤ nar.toNat % 2 ^ wr.toNat.size + (wr.toNat + 1)) := by
    rw [BitVec.add_assoc, BitVec.getLsbD_xor, getLsbD_add hn (by omega), hsucc, Bool.xor_comm, ← Bool.xor_assoc,
      Bool.xor_self, Bool.false_xor]
  have hcond := h.masked_gt_iff (((nar + wr + (1 : BitVec 32)) ^^^ nar) &&& (nar ^^^ ar ^^^ e))
  rw [BitVec.getLsbD_and, hcarry, hborrow, Bool.and_eq_true, Bool.not_eq_true', decide_eq_true_iff, decide_eq_false_iff_not,
    BitVec.and_assoc] at hcond
  have hcross : (nar.toNat % 2 ^ wr.toNat.size + d.toNat < 2 ^ wr.toNat.size ∧
      nar.toNat % 2 ^ wr.toNat.size + d.toNat = ar.toNat % 2 ^ wr.toNat.size) ∨
      (2 ^ wr.toNat.size ≤ nar.toNat % 2 ^ wr.toNat.size + d.toNat ∧
        nar.toNat % 2 ^ wr.toNat.size + d.toNat - 2 ^ wr.toNat.size = ar.toNat % 2 ^ wr.toNat.size) := by
    rcases Nat.lt_or_ge (nar.toNat % 2 ^ wr.toNat.size + d.toNat) (2 ^ wr.toNat.size) with hlt | hge
    · rw [Nat.mod_eq_of_lt hlt] at hmod
      exact .inl ⟨hlt, hmod⟩
    · rw [Nat.mod_eq_sub_mod hge, Nat.mod_eq_of_lt (by omega)] at hmod
      exact .inr ⟨hge, hmod⟩
  by_cases hlt : ar.toNat + wr.toNat < top + d.toNat
  · rw [if_pos (BitVec.not_lt.mp (hcond.not.mpr (by omega))), ringElement_below (by omega) (by omega),
      BitVec.toNat_setWidth, BitVec.toNat_add, hsucc]
    omega
  · rw [if_neg (BitVec.not_le.mpr (hcond.mpr (by omega))), ringElement_within (by omega) (by omega), BitVec.toNat_setWidth]
    omega

theorem Ring.increment (h : Ring wr.toNat ar.toNat top) :
    (((if (ar + (1 : BitVec 32)) ^^^ ar > (wr ||| 1) <<< 1 then ar + 1 - (wr + 1) else ar + 1).setWidth 16).toNat : ℤ) =
      ringElement wr.toNat ar.toNat top 1 := by
  have hoffset := h.offset
  have hlower := h.lower
  have hupper := h.upper
  have hword := h.word
  have hwr := h.wr_le
  have hsize := Nat.lt_size_self wr.toNat
  have hone : (1 : BitVec 32).toNat = 1 := rfl
  have hsucc : (ar + 1).toNat = ar.toNat + 1 := by
    rw [BitVec.toNat_add, hone]
    omega
  have hmask := h.toNat_mask
  have hbounds := mask_bounds h.pos
  by_cases hgt : top < ar.toNat + 1
  · have hchanged := @xor_succ_ge wr.toNat.size ar.toNat (by omega)
    have hcond : (ar + (1 : BitVec 32)) ^^^ ar > (wr ||| 1) <<< 1 := by
      rw [gt_iff_lt, BitVec.lt_def, BitVec.toNat_xor, hsucc, hmask]
      rw [Nat.pow_succ] at hchanged
      omega
    rw [if_pos hcond, ringElement_above (by omega) (by omega), BitVec.toNat_setWidth, BitVec.toNat_sub, h.toNat_succ, hsucc]
    omega
  · have hchanged := @xor_succ_lt wr.toNat.size ar.toNat (by omega)
    have hcond : ¬(ar + (1 : BitVec 32)) ^^^ ar > (wr ||| 1) <<< 1 := by
      rw [gt_iff_lt, BitVec.lt_def, BitVec.toNat_xor, hsucc, hmask]
      omega
    rw [if_neg hcond, ringElement_within (by omega) (by omega), BitVec.toNat_setWidth, hsucc]
    omega

end Words

end Karphin.DSP

namespace Karphin.DSP.Dsp

open Lib

/-! ## Steps of the machine -/

variable {H : Type} {s : Dsp H} {reg : Fin 4} {top : ℕ}

abbrev InRing (s : Dsp H) (reg : Fin 4) (top : ℕ) : Prop := Ring (s.r.wr reg).toNat (s.r.ar reg).toNat top

abbrev atDistance (s : Dsp H) (reg : Fin 4) (top : ℕ) (distance : ℤ) : ℤ :=
  ringElement (s.r.wr reg).toNat (s.r.ar reg).toNat top distance

theorem toNat_setWidth_word (x : Word) : (x.setWidth 32).toNat = x.toNat := by
  rw [BitVec.toNat_setWidth, Nat.mod_eq_of_lt (x.isLt.trans (by decide))]

theorem InRing.words (h : s.InRing reg top) :
    Ring ((s.r.wr reg).setWidth 32).toNat ((s.r.ar reg).setWidth 32).toNat top := by
  rw [toNat_setWidth_word, toNat_setWidth_word]
  exact h

theorem toInt_signExtend_word (x : Word) : (x.signExtend 32).toInt = x.toInt := BitVec.toInt_signExtend_of_le (by decide)

theorem toNat_signExtend_of_nonneg {x : Word} (h : 0 ≤ x.toInt) : ((x.signExtend 32).toNat : ℤ) = x.toInt := by
  have hint := toInt_signExtend_word x
  rw [BitVec.toInt_eq_toNat_cond] at hint
  split at hint <;> omega

theorem toNat_signExtend_of_neg {x : Word} (h : x.toInt < 0) : ((x.signExtend 32).toNat : ℤ) = x.toInt + 2 ^ 32 := by
  have hint := toInt_signExtend_word x
  have hlt := (x.signExtend 32).isLt
  rw [BitVec.toInt_eq_toNat_cond] at hint
  split at hint <;> omega

theorem increaseAddressRegister_eq (h : s.InRing reg top) {ix : Word} (hix : ix.toInt.natAbs ≤ (s.r.wr reg).toNat) :
    ((s.increaseAddressRegister reg ix).toNat : ℤ) = s.atDistance reg top ix.toInt := by
  have hwords := h.words
  have hwr := toNat_setWidth_word (s.r.wr reg)
  have har := toNat_setWidth_word (s.r.ar reg)
  have hsize := Nat.lt_size_self ((s.r.wr reg).setWidth 32).toNat
  have hn : ((s.r.wr reg).setWidth 32).toNat.size < 32 := hwords.size_le.trans_lt (by decide)
  rw [Dsp.increaseAddressRegister, atDistance, ← hwr, ← har]
  by_cases hsign : 0 ≤ ix.toInt
  · have hnat := toNat_signExtend_of_nonneg hsign
    rw [if_pos (by rw [toInt_signExtend_word]; exact hsign), ← hnat]
    exact hwords.up (by omega) (getLsbD_of_lt (by omega))
  · have hnat := toNat_signExtend_of_neg (Int.not_le.mp hsign)
    have hneg : ((-ix.signExtend 32).toNat : ℤ) = -ix.toInt := by
      rw [BitVec.toNat_neg]
      omega
    have hnot : (~~~ix.signExtend 32).toNat < 2 ^ ((s.r.wr reg).setWidth 32).toNat.size := by
      rw [BitVec.toNat_not]
      omega
    have hback : (s.r.ar reg).setWidth 32 + ix.signExtend 32 + -ix.signExtend 32 = (s.r.ar reg).setWidth 32 := by
      rw [← BitVec.sub_eq_add_neg, BitVec.add_sub_cancel]
    have hdown := hwords.down hback (by omega) (getLsbD_not hn hnot)
    rw [if_neg (by rw [toInt_signExtend_word]; exact hsign)]
    rw [hneg, neg_neg] at hdown
    exact hdown

theorem decreaseAddressRegister_eq (h : s.InRing reg top) {ix : Word} (hix : ix.toInt.natAbs ≤ (s.r.wr reg).toNat)
    (hmin : ix.toInt ≠ -0x8000) :
    ((s.decreaseAddressRegister reg ix).toNat : ℤ) = s.atDistance reg top (-ix.toInt) := by
  have hwords := h.words
  have hwr := toNat_setWidth_word (s.r.wr reg)
  have har := toNat_setWidth_word (s.r.ar reg)
  have hsize := Nat.lt_size_self ((s.r.wr reg).setWidth 32).toNat
  have hn : ((s.r.wr reg).setWidth 32).toNat.size < 32 := hwords.size_le.trans_lt (by decide)
  have hlimit : (0xFFFF8000 : BitVec 32).toNat = 0xFFFF8000 := rfl
  have hlower := BitVec.le_toInt ix
  have hupper := BitVec.toInt_lt (x := ix)
  rw [Dsp.decreaseAddressRegister, atDistance, ← hwr, ← har]
  by_cases hsign : 0 ≤ ix.toInt
  · have hnat := toNat_signExtend_of_nonneg hsign
    have hnot : (~~~~~~ix.signExtend 32).toNat < 2 ^ ((s.r.wr reg).setWidth 32).toNat.size := by
      rw [BitVec.not_not]
      omega
    rw [if_neg (by rw [gt_iff_lt, BitVec.lt_def, hlimit]; omega), ← hnat]
    exact hwords.down (BitVec.sub_add_cancel _ _) (by omega) (getLsbD_not hn hnot)
  · have hnat := toNat_signExtend_of_neg (Int.not_le.mp hsign)
    have hneg : ((-ix.signExtend 32).toNat : ℤ) = -ix.toInt := by
      rw [BitVec.toNat_neg]
      omega
    have hnot : (~~~ix.signExtend 32).toNat < 2 ^ ((s.r.wr reg).setWidth 32).toNat.size := by
      rw [BitVec.toNat_not]
      omega
    have hup := hwords.up (d := -ix.signExtend 32) (by omega) (getLsbD_of_lt hnot)
    rw [if_pos (by rw [gt_iff_lt, BitVec.lt_def, hlimit]; omega), ← hneg, BitVec.sub_eq_add_neg]
    exact hup

theorem decrementAddressRegister_eq (h : s.InRing reg top) :
    ((s.decrementAddressRegister reg).toNat : ℤ) = s.atDistance reg top (-1) := by
  have hup := h.words.up le_rfl (getLsbD_of_lt (Nat.two_pow_pos _) : (0#32).getLsbD _ = false)
  rw [BitVec.xor_zero, toNat_setWidth_word, toNat_setWidth_word] at hup
  rw [atDistance, ← ringElement_congr 1]
  have hone : (-1 : ℤ) + ((s.r.wr reg).toNat + 1) * 1 = (s.r.wr reg).toNat := by omega
  rw [hone]
  exact hup

theorem incrementAddressRegister_eq (h : s.InRing reg top) :
    ((s.incrementAddressRegister reg).toNat : ℤ) = s.atDistance reg top 1 := by
  have hincrement := h.words.increment
  rw [toNat_setWidth_word, toNat_setWidth_word] at hincrement
  exact hincrement

def withAr (s : Dsp H) (reg : Fin 4) (val : Word) : Dsp H := s.setRegs { s.r with ar := Function.update s.r.ar reg val }

theorem InRing.withAr (h : s.InRing reg top) {val : Word} (hlower : top ≤ val.toNat + (s.r.wr reg).toNat)
    (hupper : val.toNat ≤ top) : (s.withAr reg val).InRing reg top where
  pos := h.pos
  aligned := h.aligned
  lower := by
    change top ≤ (Function.update s.r.ar reg val reg).toNat + (s.r.wr reg).toNat
    rwa [Function.update_self]
  upper := by
    change (Function.update s.r.ar reg val reg).toNat ≤ top
    rwa [Function.update_self]
  word := h.word

theorem increase_decrease (h : s.InRing reg top) {ix : Word} (hix : ix.toInt.natAbs ≤ (s.r.wr reg).toNat)
    (hmin : ix.toInt ≠ -0x8000) :
    (s.withAr reg (s.decreaseAddressRegister reg ix)).increaseAddressRegister reg ix = s.r.ar reg := by
  have hdecrease := decreaseAddressRegister_eq h hix hmin
  rw [atDistance] at hdecrease
  obtain ⟨hlower, hupper⟩ := @ringElement_mem (s.r.wr reg).toNat (s.r.ar reg).toNat top (-ix.toInt)
  have hincrease := increaseAddressRegister_eq (@InRing.withAr H s reg top h (s.decreaseAddressRegister reg ix) (by omega) (by omega)) hix
  have har : ((s.withAr reg (s.decreaseAddressRegister reg ix)).r.ar reg).toNat =
      (s.decreaseAddressRegister reg ix).toNat := congrArg BitVec.toNat (Function.update_self ..)
  have hstay : ringElement (s.r.wr reg).toNat (s.r.ar reg).toNat top 0 = (s.r.ar reg).toNat := by
    have hlow := h.lower
    have hhigh := h.upper
    rw [ringElement_within (by omega) (by omega), Int.add_zero]
  have hback := ringElement_add hdecrease ix.toInt
  rw [Int.add_left_neg, hstay] at hback
  rw [atDistance, har] at hincrease
  exact BitVec.eq_of_toNat_eq (Int.ofNat_inj.mp (hincrease.trans hback))

structure StepsInRing (s : Dsp H) (reg : Fin 4) (top : ℕ) : Prop where
  increment : ((s.incrementAddressRegister reg).toNat : ℤ) = s.atDistance reg top 1
  decrement : ((s.decrementAddressRegister reg).toNat : ℤ) = s.atDistance reg top (-1)
  increase : ∀ ix : Word, ix.toInt.natAbs ≤ (s.r.wr reg).toNat → ix.toInt ≠ -0x8000 →
    ((s.increaseAddressRegister reg ix).toNat : ℤ) = s.atDistance reg top ix.toInt
  decrease : ∀ ix : Word, ix.toInt.natAbs ≤ (s.r.wr reg).toNat → ix.toInt ≠ -0x8000 →
    ((s.decreaseAddressRegister reg ix).toNat : ℤ) = s.atDistance reg top (-ix.toInt)
  stays : ∀ d, (top : ℤ) - (s.r.wr reg).toNat ≤ s.atDistance reg top d ∧ s.atDistance reg top d ≤ top
  increment_eq : s.incrementAddressRegister reg = s.increaseAddressRegister reg 1
  decrement_eq : s.decrementAddressRegister reg = s.decreaseAddressRegister reg 1
  undo : ∀ ix : Word, ix.toInt.natAbs ≤ (s.r.wr reg).toNat → ix.toInt ≠ -0x8000 →
    (s.withAr reg (s.decreaseAddressRegister reg ix)).increaseAddressRegister reg ix = s.r.ar reg

theorem addressRegister_ring (h : s.InRing reg top) : s.StepsInRing reg top := by
  have hone : (1 : Word).toInt = 1 := by decide
  have hpos := h.pos
  have hfits : (1 : Word).toInt.natAbs ≤ (s.r.wr reg).toNat := by
    rw [hone]
    exact hpos
  have hincrement := incrementAddressRegister_eq h
  have hdecrement := decrementAddressRegister_eq h
  have hincrease := increaseAddressRegister_eq h hfits
  have hdecrease := decreaseAddressRegister_eq h hfits (by decide)
  rw [hone] at hincrease hdecrease
  exact {
    increment := hincrement
    decrement := hdecrement
    increase := fun ix hix _ => increaseAddressRegister_eq h hix
    decrease := fun ix => decreaseAddressRegister_eq h
    stays := ringElement_mem
    increment_eq := BitVec.eq_of_toNat_eq (Int.ofNat_inj.mp (hincrement.trans hincrease.symm))
    decrement_eq := BitVec.eq_of_toNat_eq (Int.ofNat_inj.mp (hdecrement.trans hdecrease.symm))
    undo := fun ix => increase_decrease h }

def threeAddresses : Dsp Unit where
  r := { ar := fun _ => 1, wr := fun _ => 2 }
  mem := ⟨fun _ => 0, fun _ => 0, fun _ => 0, fun _ => 0, ()⟩

theorem addressRegister_ring_threeAddresses : threeAddresses.StepsInRing 0 3 :=
  addressRegister_ring ⟨by decide, by decide, by decide, by decide, by decide⟩

end Karphin.DSP.Dsp
