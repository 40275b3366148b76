import Karphin.PowerPC.Interpreter

/-!
# The condition register

The fields of 64 bits against the register of 32 bits, with the bits of the register counted from the left.
-/

namespace Karphin.PowerPC

variable {ρ : Type}

/-! ## The register -/

/-- Bit `bit` of a register, the first being the one on the left. -/
def crBitOf (cr : BitVec 32) (bit : BitVec 5) : Bool := cr.getLsbD (31 - bit.toNat)

def withCrBit (cr : BitVec 32) (bit : BitVec 5) (value : Bool) : BitVec 32 :=
  if value then cr ||| BitVec.twoPow 32 (31 - bit.toNat) else cr &&& ~~~BitVec.twoPow 32 (31 - bit.toNat)

def crNibble (cr : BitVec 32) (field : Fin 8) : BitVec 4 := cr.extractLsb' (28 - field.val * 4) 4

def withCrNibble (cr : BitVec 32) (field : Fin 8) (value : BitVec 4) : BitVec 32 :=
  (cr &&& ~~~(0xF#32 <<< (28 - field.val * 4))) ||| value.setWidth 32 <<< (28 - field.val * 4)

def comparison (less greater so : Bool) : BitVec 4 :=
  (if less then 8#4 else if greater then 4#4 else 2#4) ||| (BitVec.ofBool so).setWidth 4

/-! ## What is written to it -/

inductive CrOp
  | set (cr : BitVec 32)
  | setField (field : Fin 8) (value : BitVec 4)
  | setBit (bit : BitVec 5) (value : BitVec 32)
  | updateCR0 (value : BitVec 32)
  | compareSigned (inst : UGeckoInstruction) (a b : BitVec 32)
  | compareUnsigned (inst : UGeckoInstruction) (a b : BitVec 32)

namespace CrOp

def run (s : PowerPCState ρ) : CrOp → PowerPCState ρ
  | set cr => s.SetCR cr
  | setField field value => s.SetField field value
  | setBit bit value => s.SetBit bit (value.getLsbD 0)
  | updateCR0 value => Interpreter.Helper_UpdateCR0 s value
  | compareSigned inst a b => Interpreter.Helper_IntCompare s inst (a.slt b) (b.slt a)
  | compareUnsigned inst a b => Interpreter.Helper_IntCompare s inst (a.ult b) (b.ult a)

def spec (so : Bool) (cr : BitVec 32) : CrOp → BitVec 32
  | set cr' => cr'
  | setField field value => withCrNibble cr field value
  | setBit bit value => withCrBit cr bit (value.getLsbD 0)
  | updateCR0 value => withCrNibble cr 0 (comparison (decide (value.toInt < 0)) (decide (0 < value.toInt)) so)
  | compareSigned inst a b =>
      withCrNibble cr inst.CRFD (comparison (decide (a.toInt < b.toInt)) (decide (b.toInt < a.toInt)) so)
  | compareUnsigned inst a b =>
      withCrNibble cr inst.CRFD (comparison (decide (a.toNat < b.toNat)) (decide (b.toNat < a.toNat)) so)

end CrOp

/-! ## Fields -/

def fieldBits (crVal : BitVec 64) : BitVec 4 :=
  ((crVal >>> 59).setWidth 4 &&& 0b1001#4) |||
    (BitVec.ofBool (crVal.setWidth 32 == 0#32)).setWidth 4 <<< 1 |||
    (BitVec.ofBool ((0#64).slt crVal)).setWidth 4 <<< 2

theorem GetField_eq (s : PowerPCState ρ) (field : Fin 8) : s.GetField field = fieldBits (s.cr field) := rfl

theorem fieldBits_PPCToInternal (value : BitVec 4) : fieldBits (PPCToInternal value) = value := by
  revert value
  decide

theorem GetField_SetField (s : PowerPCState ρ) (field other : Fin 8) (value : BitVec 4) :
    (s.SetField field value).GetField other = if other = field then value else s.GetField other := by
  rw [GetField_eq, PowerPCState.SetField, PowerPCState.setCr]
  dsimp only
  by_cases h : other = field
  · rw [h, Function.update_self, fieldBits_PPCToInternal, if_pos rfl]
  · rw [Function.update_of_ne h, if_neg h]
    rfl

theorem GetField_SetCR (s : PowerPCState ρ) (cr : BitVec 32) (field : Fin 8) :
    (s.SetCR cr).GetField field = crNibble cr field := fieldBits_PPCToInternal _

/-! ## The register that the fields stand for -/

theorem getLsbD_nibble (value : BitVec 4) (field : Fin 8) {i : Nat} (hi : i < 32) :
    (value.setWidth 32 <<< (28 - field.val * 4)).getLsbD i = (decide (field.val = 7 - i / 4) && value.getLsbD (i % 4)) := by
  have hfield := field.isLt
  rw [BitVec.getLsbD_shiftLeft, decide_eq_true hi, Bool.true_and, BitVec.getLsbD_setWidth]
  rcases Nat.lt_trichotomy field.val (7 - i / 4) with hlt | heq | hgt
  · rw [decide_eq_true (by omega : i < 28 - field.val * 4), decide_eq_false (by omega : ¬ field.val = 7 - i / 4)]
    rfl
  · have hoffset : i - (28 - field.val * 4) = i % 4 := by omega
    rw [decide_eq_false (by omega : ¬ i < 28 - field.val * 4), decide_eq_true heq, hoffset,
      decide_eq_true (by omega : i % 4 < 32)]
    rfl
  · rw [decide_eq_false (by omega : ¬ field.val = 7 - i / 4),
      BitVec.getLsbD_of_ge _ _ (by omega : 4 ≤ i - (28 - field.val * 4))]
    simp

theorem getLsbD_GetCR (s : PowerPCState ρ) {i : Nat} (hi : i < 32) :
    s.GetCR.getLsbD i = (s.GetField ⟨7 - i / 4, by omega⟩).getLsbD (i % 4) := by
  have hfold : ∀ (fields : List (Fin 8)) (cr : BitVec 32),
      (fields.foldl (fun cr j => cr ||| (s.GetField j).setWidth 32 <<< (28 - j.val * 4)) cr).getLsbD i =
        (cr.getLsbD i || fields.any fun j => (decide (j.val = 7 - i / 4) && (s.GetField j).getLsbD (i % 4))) := by
    intro fields
    induction fields with
    | nil => simp
    | cons field fields ih =>
        intro cr
        rw [List.foldl_cons, ih, BitVec.getLsbD_or, getLsbD_nibble _ _ hi, List.any_cons, Bool.or_assoc]
  have hzero : (0 : BitVec 32).getLsbD i = false := BitVec.getLsbD_zero
  rw [PowerPCState.GetCR, hfold, hzero, Bool.false_or, Bool.eq_iff_iff, List.any_eq_true]
  constructor
  · rintro ⟨j, -, hj⟩
    rw [Bool.and_eq_true, decide_eq_true_iff] at hj
    have hfield : (⟨7 - i / 4, by omega⟩ : Fin 8) = j := Fin.ext hj.1.symm
    rw [hfield]
    exact hj.2
  · intro hbit
    exact ⟨⟨7 - i / 4, by omega⟩, List.mem_finRange _, by rw [Bool.and_eq_true]; exact ⟨decide_eq_true rfl, hbit⟩⟩

theorem getLsbD_crNibble (cr : BitVec 32) (field : Fin 8) {k : Nat} (hk : k < 4) :
    (crNibble cr field).getLsbD k = cr.getLsbD (28 - field.val * 4 + k) := by
  rw [crNibble, BitVec.getLsbD_extractLsb', decide_eq_true hk, Bool.true_and]

theorem getLsbD_eq_crNibble (cr : BitVec 32) {i : Nat} (hi : i < 32) :
    cr.getLsbD i = (crNibble cr ⟨7 - i / 4, by omega⟩).getLsbD (i % 4) := by
  have hsum : 28 - (7 - i / 4) * 4 + i % 4 = i := by omega
  rw [getLsbD_crNibble cr _ (by omega), hsum]

theorem eq_of_crNibble {a b : BitVec 32} (h : ∀ field, crNibble a field = crNibble b field) : a = b := by
  apply BitVec.eq_of_getLsbD_eq
  intro i hi
  rw [getLsbD_eq_crNibble a hi, getLsbD_eq_crNibble b hi, h]

theorem crNibble_GetCR (s : PowerPCState ρ) (field : Fin 8) : crNibble s.GetCR field = s.GetField field := by
  have hfield := field.isLt
  apply BitVec.eq_of_getLsbD_eq
  intro k hk
  have hthis : (⟨7 - (28 - field.val * 4 + k) / 4, by omega⟩ : Fin 8) = field := Fin.ext (by dsimp only; omega)
  have hoffset : (28 - field.val * 4 + k) % 4 = k := by omega
  rw [getLsbD_crNibble _ _ hk, getLsbD_GetCR s (by omega), hthis, hoffset]

theorem crNibble_withCrNibble (cr : BitVec 32) (field other : Fin 8) (value : BitVec 4) :
    crNibble (withCrNibble cr field value) other = if other = field then value else crNibble cr other := by
  have hother := other.isLt
  apply BitVec.eq_of_getLsbD_eq
  intro k hk
  have hi : 28 - other.val * 4 + k < 32 := by omega
  have hplace : 7 - (28 - other.val * 4 + k) / 4 = other.val := by omega
  have hoffset : (28 - other.val * 4 + k) % 4 = k := by omega
  have hmask : 0xF#32 = (0xF#4).setWidth 32 := rfl
  have hones : (0xF#4).getLsbD k = true := by
    have hall : 0xF#4 = BitVec.allOnes 4 := rfl
    rw [hall, BitVec.getLsbD_allOnes, decide_eq_true hk]
  rw [getLsbD_crNibble _ _ hk, withCrNibble, BitVec.getLsbD_or, BitVec.getLsbD_and, BitVec.getLsbD_not, hmask,
    getLsbD_nibble _ _ hi, getLsbD_nibble _ _ hi, hplace, hoffset, hones, decide_eq_true hi]
  by_cases h : other = field
  · rw [h, if_pos rfl]
    simp
  · have hne : ¬ field.val = other.val := fun heq => h (Fin.ext heq.symm)
    rw [if_neg h, getLsbD_crNibble _ _ hk]
    simp [hne]

theorem GetCR_of_field {s s' : PowerPCState ρ} {field : Fin 8} {value : BitVec 4}
    (h : ∀ other, s'.GetField other = if other = field then value else s.GetField other) :
    s'.GetCR = withCrNibble s.GetCR field value := by
  apply eq_of_crNibble
  intro other
  rw [crNibble_GetCR, h, crNibble_withCrNibble, crNibble_GetCR]

/-! ## Bits -/

theorem getLsbD_withCrBit (cr : BitVec 32) (bit : BitVec 5) (value : Bool) {i : Nat} (hi : i < 32) :
    (withCrBit cr bit value).getLsbD i = if i = 31 - bit.toNat then value else cr.getLsbD i := by
  have hcomm : decide (31 - bit.toNat = i) = decide (i = 31 - bit.toNat) := by
    rw [decide_eq_decide]
    exact eq_comm
  cases value with
  | true =>
      rw [withCrBit, if_pos rfl, BitVec.getLsbD_or, BitVec.getLsbD_twoPow, decide_eq_true (by omega : 31 - bit.toNat < 32), hcomm]
      by_cases h : i = 31 - bit.toNat <;> simp [h]
  | false =>
      rw [withCrBit, if_neg Bool.false_ne_true, BitVec.getLsbD_and, BitVec.getLsbD_not, BitVec.getLsbD_twoPow,
        decide_eq_true (by omega : 31 - bit.toNat < 32), hcomm, decide_eq_true hi]
      by_cases h : i = 31 - bit.toNat <;> simp [h]

theorem crBitOf_withCrBit (cr : BitVec 32) (bit other : BitVec 5) (value : Bool) :
    crBitOf (withCrBit cr bit value) other = if other = bit then value else crBitOf cr other := by
  have hbit := bit.isLt
  have hother := other.isLt
  rw [crBitOf, crBitOf, getLsbD_withCrBit cr bit value (by omega)]
  by_cases h : other = bit
  · rw [h, if_pos rfl, if_pos rfl]
  · have hne : other.toNat ≠ bit.toNat := fun heq => h (BitVec.eq_of_toNat_eq heq)
    rw [if_neg h, if_neg (by omega)]

theorem crFieldOf_val (bit : BitVec 5) : (crFieldOf bit).val = bit.toNat / 4 := by
  revert bit
  decide

theorem getLsbD_bitMask (bit : BitVec 5) (k : Nat) :
    (0x8#4 >>> (bit &&& 3#5).toNat).getLsbD k = decide (k = 3 - bit.toNat % 4) := by
  have hlow : (bit &&& 3#5).toNat = bit.toNat % 4 := Nat.and_two_pow_sub_one_eq_mod bit.toNat 2
  have height : 0x8#4 = BitVec.twoPow 4 3 := rfl
  have hmod : bit.toNat % 4 < 4 := Nat.mod_lt _ (by omega)
  rw [BitVec.getLsbD_ushiftRight, hlow, height, BitVec.getLsbD_twoPow, decide_eq_true (by omega : 3 < 4), Bool.true_and,
    decide_eq_decide]
  omega

theorem SetBit_eq (s : PowerPCState ρ) (bit : BitVec 5) (value : Bool) :
    s.SetBit bit value = s.SetField (crFieldOf bit)
      (if value then s.GetField (crFieldOf bit) ||| 0x8#4 >>> (bit &&& 3#5).toNat
      else s.GetField (crFieldOf bit) &&& ~~~(0x8#4 >>> (bit &&& 3#5).toNat)) := by
  rw [PowerPCState.SetBit]
  cases value <;> rfl

theorem GetCR_SetBit (s : PowerPCState ρ) (bit : BitVec 5) (value : Bool) :
    (s.SetBit bit value).GetCR = withCrBit s.GetCR bit value := by
  have hbit := bit.isLt
  rw [SetBit_eq, GetCR_of_field (GetField_SetField s _ · _)]
  apply eq_of_crNibble
  intro other
  have hother := other.isLt
  rw [crNibble_withCrNibble]
  apply BitVec.eq_of_getLsbD_eq
  intro k hk
  rw [getLsbD_crNibble _ _ hk, getLsbD_withCrBit _ _ _ (by omega)]
  by_cases hfield : other = crFieldOf bit
  · subst hfield
    have hval := crFieldOf_val bit
    have hplace : (28 - (crFieldOf bit).val * 4 + k = 31 - bit.toNat) ↔ k = 3 - bit.toNat % 4 := by omega
    rw [if_pos rfl, ← getLsbD_crNibble _ _ hk, crNibble_GetCR]
    cases value with
    | true =>
        rw [if_pos rfl, BitVec.getLsbD_or, getLsbD_bitMask bit k]
        by_cases h : k = 3 - bit.toNat % 4
        · rw [if_pos (hplace.mpr h), decide_eq_true h]
          simp
        · rw [if_neg (mt hplace.mp h), decide_eq_false h]
          simp
    | false =>
        rw [if_neg Bool.false_ne_true, BitVec.getLsbD_and, BitVec.getLsbD_not, getLsbD_bitMask bit k, decide_eq_true hk]
        by_cases h : k = 3 - bit.toNat % 4
        · rw [if_pos (hplace.mpr h), decide_eq_true h]
          simp
        · rw [if_neg (mt hplace.mp h), decide_eq_false h]
          simp
  · have hval : other.val ≠ bit.toNat / 4 := fun heq => hfield (Fin.ext (heq.trans (crFieldOf_val bit).symm))
    rw [if_neg hfield, if_neg (by omega), getLsbD_crNibble _ _ hk]

/-! ## Results and comparisons -/

theorem fieldBits_eq (crVal : BitVec 64) :
    fieldBits crVal = (BitVec.ofBool (crVal.getLsbD 59)).setWidth 4 |||
      (BitVec.ofBool (crVal.setWidth 32 == 0#32)).setWidth 4 <<< 1 |||
      (BitVec.ofBool ((0#64).slt crVal)).setWidth 4 <<< 2 ||| (BitVec.ofBool (crVal.getLsbD 62)).setWidth 4 <<< 3 := by
  apply BitVec.eq_of_getLsbD_eq
  intro k hk
  have hcases : k = 0 ∨ k = 1 ∨ k = 2 ∨ k = 3 := by omega
  rw [fieldBits]
  rcases hcases with rfl | rfl | rfl | rfl <;> simp

theorem toInt_pos_iff {w : Nat} (x : BitVec w) : 0 < x.toInt ↔ x.msb = false ∧ x ≠ 0#w := by
  have hzero : x = 0#w ↔ x.toInt = 0 := by
    rw [← BitVec.toInt_inj, BitVec.toInt_zero]
  rw [BitVec.msb_eq_toInt, decide_eq_false_iff_not, ne_eq, hzero]
  omega

theorem fieldBits_updateCR0 (value : BitVec 32) (so : Bool) :
    fieldBits (((if value = 0 then value.signExtend 64 ||| 1#64 <<< 63 else value.signExtend 64) &&& ~~~(1#64 <<< 59)) |||
      (BitVec.ofBool so).setWidth 64 <<< 59) =
        comparison (decide (value.toInt < 0)) (decide (0 < value.toInt)) so := by
  generalize hcr : (((if value = 0 then value.signExtend 64 ||| 1#64 <<< 63 else value.signExtend 64) &&& ~~~(1#64 <<< 59)) |||
      (BitVec.ofBool so).setWidth 64 <<< 59) = crVal
  have hbit (i : Nat) (hi : i < 64) : crVal.getLsbD i = if i = 59 then so
      else if i < 32 then value.getLsbD i else value.msb || (decide (value = 0) && decide (i = 63)) := by
    have hsign : (if value = 0 then value.signExtend 64 ||| 1#64 <<< 63 else value.signExtend 64).getLsbD i =
        if i < 32 then value.getLsbD i else value.msb || (decide (value = 0) && decide (i = 63)) := by
      by_cases hzero : value = 0
      · have htop : (1#64 <<< 63).getLsbD i = decide (i = 63) := by
          have hpow : 1#64 <<< 63 = BitVec.twoPow 64 63 := rfl
          rw [hpow, BitVec.getLsbD_twoPow, decide_eq_true (by omega : 63 < 64), Bool.true_and, decide_eq_decide]
          exact eq_comm
        rw [if_pos hzero, BitVec.getLsbD_or, htop, decide_eq_true hzero, hzero]
        by_cases hlow : i < 32
        · simp [hlow]
          omega
        · simp [hlow]
      · rw [if_neg hzero, decide_eq_false hzero, BitVec.getLsbD_signExtend, decide_eq_true hi]
        simp
    have hmask : (1#64 <<< 59).getLsbD i = decide (i = 59) := by
      have hpow : 1#64 <<< 59 = BitVec.twoPow 64 59 := rfl
      rw [hpow, BitVec.getLsbD_twoPow, decide_eq_true (by omega : 59 < 64), Bool.true_and, decide_eq_decide]
      exact eq_comm
    have hsoBit : ((BitVec.ofBool so).setWidth 64 <<< 59).getLsbD i = (decide (i = 59) && so) := by
      cases so with
      | false => simp
      | true => rw [Bool.and_true]; exact hmask
    rw [← hcr, BitVec.getLsbD_or, BitVec.getLsbD_and, BitVec.getLsbD_not, hsign, hmask, hsoBit, decide_eq_true hi]
    by_cases h : i = 59
    · rw [if_pos h]
      simp [h]
    · rw [if_neg h]
      simp [h]
  have hso : crVal.getLsbD 59 = so := hbit 59 (by omega)
  have hlt : crVal.getLsbD 62 = value.msb := by simpa using hbit 62 (by omega)
  have hlow : crVal.setWidth 32 = value := by
    apply BitVec.eq_of_getLsbD_eq
    intro i hi
    rw [BitVec.getLsbD_setWidth, hbit i (by omega), if_neg (by omega), if_pos hi, decide_eq_true hi, Bool.true_and]
  have hmsb : crVal.msb = (value.msb || decide (value = 0)) := by
    rw [BitVec.msb_eq_getLsbD_last]
    simpa using hbit 63 (by omega)
  have hzero : (crVal.setWidth 32 == 0#32) = decide (value = 0) := by
    rw [hlow]
    rfl
  have hpos : (0#64).slt crVal = decide (0 < value.toInt) := by
    have hlt : (0#64).slt crVal = decide (0 < crVal.toInt) := rfl
    rw [hlt, decide_eq_decide, toInt_pos_iff, toInt_pos_iff, hmsb, Bool.or_eq_false_iff, decide_eq_false_iff_not]
    constructor
    · exact fun h => h.1
    · intro h
      refine ⟨h, fun heq => h.2 ?_⟩
      rw [← hlow, heq]
      rfl
  have hneg : value.msb = decide (value.toInt < 0) := BitVec.msb_eq_toInt
  have hnull : decide (value = 0) = decide (value.toInt = 0) := by
    rw [decide_eq_decide]
    exact (BitVec.toInt_inj (x := value) (y := 0)).symm
  rw [fieldBits_eq, hso, hlt, hzero, hpos, hneg, hnull]
  rcases lt_trichotomy value.toInt 0 with h | h | h
  · rw [decide_eq_true h, decide_eq_false h.ne, decide_eq_false h.le.not_gt]
    cases so <;> rfl
  · rw [decide_eq_true h, decide_eq_false h.not_lt, decide_eq_false h.not_gt]
    cases so <;> rfl
  · rw [decide_eq_true h, decide_eq_false h.ne', decide_eq_false h.le.not_gt]
    cases so <;> rfl

/-! ## Sequences of writes -/

namespace PowerPCState

def SetXER (s : PowerPCState ρ) (xer : BitVec 32) : PowerPCState ρ :=
  { s with
    xerStringctrl := (xer.extractLsb' 0 7).setWidth 16 + (xer.extractLsb' 8 8).setWidth 16 <<< 8
    xerCa := (xer.extractLsb' 29 1).setWidth 8
    xerSoOv := (xer.extractLsb' 31 1).setWidth 8 <<< 1 + (xer.extractLsb' 30 1).setWidth 8 }

def HasSO (s : PowerPCState ρ) (so : Bool) : Prop := s.GetXER_SO = (BitVec.ofBool so).setWidth 32

theorem HasSO_SetXER (s : PowerPCState ρ) (xer : BitVec 32) : (s.SetXER xer).HasSO (xer.getLsbD 31) := by
  have hbits : ∀ so ov : BitVec 1,
      ((so.setWidth 8 <<< 1 + ov.setWidth 8) >>> 1).setWidth 32 = (BitVec.ofBool (so.getLsbD 0)).setWidth 32 := by
    decide
  have hso : (xer.extractLsb' 31 1).getLsbD 0 = xer.getLsbD 31 := by simp
  rw [← hso]
  exact hbits (xer.extractLsb' 31 1) (xer.extractLsb' 30 1)

end PowerPCState

namespace CrOp

theorem GetXER_SO_run (op : CrOp) (s : PowerPCState ρ) : (op.run s).GetXER_SO = s.GetXER_SO := by
  cases op with
  | setBit bit value => rw [run, SetBit_eq]; rfl
  | _ => rfl

theorem run_HasSO {s : PowerPCState ρ} {so : Bool} (op : CrOp) (hso : s.HasSO so) : (op.run s).HasSO so :=
  (op.GetXER_SO_run s).trans hso

theorem GetField_updateCR0 {s : PowerPCState ρ} {so : Bool} (hso : s.HasSO so) (value : BitVec 32) (other : Fin 8) :
    (Interpreter.Helper_UpdateCR0 s value).GetField other =
      if other = 0 then comparison (decide (value.toInt < 0)) (decide (0 < value.toInt)) so else s.GetField other := by
  have hwide : ((BitVec.ofBool so).setWidth 32).setWidth 64 = (BitVec.ofBool so).setWidth 64 := by
    cases so <;> rfl
  rw [GetField_eq, Interpreter.Helper_UpdateCR0, PowerPCState.setCr]
  dsimp only
  by_cases h : other = 0
  · rw [h, Function.update_self, if_pos rfl, hso, hwide, fieldBits_updateCR0]
  · rw [Function.update_of_ne h, if_neg h]
    rfl

theorem GetField_intCompare {s : PowerPCState ρ} {so : Bool} (hso : s.HasSO so) (inst : UGeckoInstruction)
    (less greater : Bool) (other : Fin 8) :
    (Interpreter.Helper_IntCompare s inst less greater).GetField other =
      if other = inst.CRFD then comparison less greater so else s.GetField other := by
  rw [Interpreter.Helper_IntCompare, hso, GetField_SetField]
  congr 1
  cases so <;> cases less <;> cases greater <;> rfl

theorem GetCR_run {s : PowerPCState ρ} {so : Bool} (op : CrOp) (hso : s.HasSO so) :
    (op.run s).GetCR = op.spec so s.GetCR := by
  cases op with
  | set cr =>
      apply eq_of_crNibble
      intro field
      rw [run, crNibble_GetCR, GetField_SetCR]
      rfl
  | setField field value => exact GetCR_of_field (GetField_SetField s field · value)
  | setBit bit value => exact GetCR_SetBit s bit (value.getLsbD 0)
  | updateCR0 value => exact GetCR_of_field (GetField_updateCR0 hso value)
  | compareSigned inst a b => exact GetCR_of_field (GetField_intCompare hso inst (a.slt b) (b.slt a))
  | compareUnsigned inst a b => exact GetCR_of_field (GetField_intCompare hso inst (a.ult b) (b.ult a))

theorem GetCR_foldl {so : Bool} (ops : List CrOp) :
    ∀ {s : PowerPCState ρ}, s.HasSO so → (ops.foldl run s).GetCR = ops.foldl (spec so) s.GetCR := by
  induction ops with
  | nil => exact fun _ => rfl
  | cons op ops ih =>
      intro s hso
      rw [List.foldl_cons, List.foldl_cons, ih (op.run_HasSO hso), op.GetCR_run hso]

theorem foldl_HasSO {so : Bool} (ops : List CrOp) : ∀ {s : PowerPCState ρ}, s.HasSO so → (ops.foldl run s).HasSO so := by
  induction ops with
  | nil => exact fun hso => hso
  | cons op ops ih => exact fun hso => ih (op.run_HasSO hso)

end CrOp

/-! ## The refinement -/

theorem comparison_bits (value : Int) (so : Bool) :
    (comparison (decide (value < 0)) (decide (0 < value)) so).getLsbD 3 = decide (value < 0) ∧
    (comparison (decide (value < 0)) (decide (0 < value)) so).getLsbD 2 = decide (0 < value) ∧
    (comparison (decide (value < 0)) (decide (0 < value)) so).getLsbD 1 = decide (value = 0) ∧
    (comparison (decide (value < 0)) (decide (0 < value)) so).getLsbD 0 = so := by
  rcases lt_trichotomy value 0 with h | h | h
  · rw [decide_eq_true h, decide_eq_false h.ne, decide_eq_false h.le.not_gt]
    cases so <;> decide
  · rw [decide_eq_true h, decide_eq_false h.not_lt, decide_eq_false h.not_gt]
    cases so <;> decide
  · rw [decide_eq_true h, decide_eq_false h.ne', decide_eq_false h.le.not_gt]
    cases so <;> decide

/-- From any contents of the fields and any XER, a sequence of writes leaves what the same writes leave in a
register of 32 bits, and each write does there what its name says. -/
theorem fields_refine_register (ops : List CrOp) (s₀ : PowerPCState ρ) (xer : BitVec 32) :
    let s := ops.foldl CrOp.run (s₀.SetXER xer)
    s.GetCR = ops.foldl (CrOp.spec (xer.getLsbD 31)) s₀.GetCR ∧
    (∀ cr, (s.SetCR cr).GetCR = cr) ∧
    (∀ (bit : BitVec 5) (value : BitVec 32) (other : BitVec 5),
      crBitOf (CrOp.run s (.setBit bit value)).GetCR other =
        if other = bit then value.getLsbD 0 else crBitOf s.GetCR other) ∧
    (∀ (field other : Fin 8) (value : BitVec 4),
      crNibble (s.SetField field value).GetCR other = if other = field then value else crNibble s.GetCR other) ∧
    (∀ value : BitVec 32,
      let cr0 := (Interpreter.Helper_UpdateCR0 s value).GetField 0
      cr0.getLsbD 3 = decide (value.toInt < 0) ∧ cr0.getLsbD 2 = decide (0 < value.toInt) ∧
        cr0.getLsbD 1 = decide (value.toInt = 0) ∧ cr0.getLsbD 0 = xer.getLsbD 31) ∧
    (∀ (value : BitVec 32) (other : Fin 8), other ≠ 0 →
      (Interpreter.Helper_UpdateCR0 s value).GetField other = s.GetField other) ∧
    ∀ field, s.GetField field = crNibble s.GetCR field := by
  intro s
  have hstart : (s₀.SetXER xer).HasSO (xer.getLsbD 31) := s₀.HasSO_SetXER xer
  have hso : s.HasSO (xer.getLsbD 31) := CrOp.foldl_HasSO ops hstart
  have hfields : ∀ field, s.GetField field = crNibble s.GetCR field := fun field => (crNibble_GetCR s field).symm
  refine ⟨CrOp.GetCR_foldl ops hstart, fun cr => (CrOp.set cr).GetCR_run hso, ?_, ?_, ?_, ?_, hfields⟩
  · intro bit value other
    rw [(CrOp.setBit bit value).GetCR_run hso, CrOp.spec, crBitOf_withCrBit]
  · intro field other value
    rw [crNibble_GetCR, GetField_SetField, crNibble_GetCR]
  · intro value
    dsimp only
    rw [CrOp.GetField_updateCR0 hso value 0, if_pos rfl]
    exact comparison_bits value.toInt (xer.getLsbD 31)
  · intro value other h
    rw [CrOp.GetField_updateCR0 hso value other, if_neg h]

end Karphin.PowerPC
