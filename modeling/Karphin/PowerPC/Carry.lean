import Karphin.PowerPC.Interpreter

/-!
# Carry and overflow

The instructions that add with a carry, against the exact sum of their three operands: RA or its complement, RB or a
constant, and the carry.
-/

namespace Karphin.PowerPC

variable {ρ : Type}

/-! ## Sums of three operands -/

def exactSum (a b : BitVec 32) (c : Bool) : Nat := a.toNat + b.toNat + c.toNat

def signedSum (a b : BitVec 32) (c : Bool) : Int := a.toInt + b.toInt + c.toNat

theorem exactSum_lt (a b : BitVec 32) (c : Bool) : exactSum a b c < 2 ^ 33 := by
  have ha := a.isLt
  have hb := b.isLt
  have hc := Bool.toNat_le c
  rw [exactSum]
  omega

theorem testBit_exactSum (a b : BitVec 32) (c : Bool) : (exactSum a b c).testBit 32 = decide (2 ^ 32 ≤ exactSum a b c) := by
  have hlt := exactSum_lt a b c
  rw [Nat.testBit_eq_decide_div_mod_eq, decide_eq_decide]
  omega

theorem add_eq_exactSum (a b : BitVec 32) (c : Bool) :
    a + b + (BitVec.ofBool c).setWidth 32 = BitVec.ofNat 32 (exactSum a b c) := by
  apply BitVec.eq_of_toNat_eq
  cases c <;> simp [exactSum]

namespace Interpreter

theorem Helper_Carry_eq (a b : BitVec 32) : Helper_Carry a b = decide (2 ^ 32 ≤ a.toNat + b.toNat) := by
  have ha := a.isLt
  rw [Helper_Carry, BitVec.ult, BitVec.toNat_not, decide_eq_decide]
  omega

@[simp]
theorem Helper_Carry_zero (a : BitVec 32) : Helper_Carry a 0#32 = false := by
  have ha := a.isLt
  rw [Helper_Carry_eq, decide_eq_false_iff_not, BitVec.toNat_ofNat]
  omega

theorem toNat_ofBool (c : Bool) : ((BitVec.ofBool c).setWidth 32).toNat = c.toNat := by
  cases c <;> rfl

theorem Helper_Carry_carry (a : BitVec 32) (c : Bool) :
    Helper_Carry a ((BitVec.ofBool c).setWidth 32) = (exactSum a 0 c).testBit 32 := by
  rw [testBit_exactSum, Helper_Carry_eq, toNat_ofBool, exactSum]
  rfl

theorem Helper_Carry_or (a b : BitVec 32) (c : Bool) :
    (Helper_Carry a b || Helper_Carry (a + b) ((BitVec.ofBool c).setWidth 32)) = (exactSum a b c).testBit 32 := by
  have ha := a.isLt
  have hb := b.isLt
  have hc := Bool.toNat_le c
  rw [testBit_exactSum, Helper_Carry_eq, Helper_Carry_eq, BitVec.toNat_add, toNat_ofBool, exactSum, ← Bool.decide_or, decide_eq_decide]
  omega

theorem Helper_Carry_addOne (a b : BitVec 32) :
    (a == 0xFFFFFFFF || Helper_Carry b (a + 1)) = (exactSum a b true).testBit 32 := by
  have ha := a.isLt
  have hb := b.isLt
  have hones : (0xFFFFFFFF : BitVec 32).toNat = 0xFFFFFFFF := rfl
  have hone : (1 : BitVec 32).toNat = 1 := rfl
  rw [testBit_exactSum, Helper_Carry_eq, BitVec.toNat_add, exactSum, Bool.eq_iff_iff, Bool.or_eq_true, beq_iff_eq,
    ← BitVec.toNat_inj, decide_eq_true_iff, decide_eq_true_iff, hones, hone, Bool.toNat_true]
  omega

theorem HasAddOverflowed_eq_msb (x y result : BitVec 32) :
    HasAddOverflowed x y result = ((x.msb != result.msb) && (y.msb != result.msb)) := by
  have hsign : ∀ z : BitVec 32, (z >>> 31 != 0) = z.msb := by
    intro z
    have hz := z.isLt
    rw [BitVec.msb_eq_decide, Bool.eq_iff_iff, bne_iff_ne, decide_eq_true_iff, ne_eq, ← BitVec.toNat_inj,
      BitVec.toNat_ushiftRight, Nat.shiftRight_eq_div_pow]
    simp
  rw [HasAddOverflowed, hsign, BitVec.msb_and, BitVec.msb_xor, BitVec.msb_xor]

theorem HasAddOverflowed_eq (a b : BitVec 32) (c : Bool) :
    HasAddOverflowed a b (BitVec.ofNat 32 (exactSum a b c)) =
      decide (¬ (-2 ^ 31 ≤ signedSum a b c ∧ signedSum a b c < 2 ^ 31)) := by
  have ha := a.isLt
  have hb := b.isLt
  have hc := Bool.toNat_le c
  rw [HasAddOverflowed_eq_msb, Bool.eq_iff_iff, Bool.and_eq_true, bne_iff_ne, bne_iff_ne, decide_eq_true_iff, signedSum,
    BitVec.toInt_eq_toNat_cond, BitVec.toInt_eq_toNat_cond, BitVec.msb_eq_decide, BitVec.msb_eq_decide,
    BitVec.msb_eq_decide, BitVec.toNat_ofNat, exactSum, ne_eq, ne_eq, decide_eq_decide, decide_eq_decide]
  split <;> split <;> omega

end Interpreter

/-! ## The end of an instruction -/

namespace PowerPCState

def OV (s : PowerPCState ρ) : Bool := s.xerSoOv.getLsbD 0

def SO (s : PowerPCState ρ) : Bool := s.xerSoOv.getLsbD 1

@[simp]
theorem OV_SetXER_OV (s : PowerPCState ρ) (value : Bool) : (s.SetXER_OV value).OV = value := by
  cases value <;> simp [OV, SetXER_OV]

@[simp]
theorem SO_SetXER_OV (s : PowerPCState ρ) (value : Bool) : (s.SetXER_OV value).SO = (s.SO || value) := by
  cases value <;> simp [SO, SetXER_OV]

end PowerPCState

namespace Interpreter

@[simp]
theorem record_xerSoOv (inst : UGeckoInstruction) (result : BitVec 32) (s : PowerPCState ρ) :
    (record inst result s).xerSoOv = s.xerSoOv := by
  rw [record]
  split <;> rfl

end Interpreter

/-- RD has the low word of the sum and CA its carry; OV, where it is asked for, has whether the signed sum does not fit, and
SO stays set. -/
structure Sums (inst : UGeckoInstruction) (a b : BitVec 32) (c : Bool) (s s' : PowerPCState ρ) : Prop where
  rd : s'.gpr inst.RD = BitVec.ofNat 32 (exactSum a b c)
  ca : s'.xerCa = (BitVec.ofBool ((exactSum a b c).testBit 32)).setWidth 8
  ov : inst.OE = true →
    s'.OV = decide (¬ (-2 ^ 31 ≤ signedSum a b c ∧ signedSum a b c < 2 ^ 31)) ∧ s'.SO = (s.SO || s'.OV)

namespace Interpreter

theorem arithmeticCarry_sums {a b result : BitVec 32} {c : Bool} (inst : UGeckoInstruction) (s : PowerPCState ρ)
    (carry : Bool) (hresult : result = BitVec.ofNat 32 (exactSum a b c)) :
    Sums inst a b c s (arithmeticCarry inst s result carry (HasAddOverflowed a b result)) ↔
      carry = (exactSum a b c).testBit 32 := by
  have hca : (arithmeticCarry inst s result carry (HasAddOverflowed a b result)).xerCa =
      (BitVec.ofBool carry).setWidth 8 := by
    rw [arithmeticCarry, record, overflow]
    cases inst.Rc <;> cases inst.OE <;> rfl
  constructor
  · intro h
    have hsame := hca.symm.trans h.ca
    generalize (exactSum a b c).testBit 32 = bit at hsame
    revert hsame
    cases carry <;> cases bit <;> decide
  · intro hcarry
    refine ⟨?_, hcarry ▸ hca, fun hOE => ?_⟩
    · rw [← hresult, arithmeticCarry, record, overflow]
      cases inst.Rc <;> cases inst.OE <;>
        simp [PowerPCState.setGpr, PowerPCState.SetCarry, PowerPCState.SetXER_OV, Helper_UpdateCR0, PowerPCState.setCr]
    · have hxer : (arithmeticCarry inst s result carry (HasAddOverflowed a b result)).xerSoOv =
          (s.SetXER_OV (HasAddOverflowed a b result)).xerSoOv := by
        rw [arithmeticCarry, record_xerSoOv, overflow, if_pos hOE]
        rfl
      rw [PowerPCState.OV, PowerPCState.SO, hxer, ← HasAddOverflowed_eq, hresult]
      exact ⟨PowerPCState.OV_SetXER_OV s _, (PowerPCState.SO_SetXER_OV s _).trans
        (congrArg (s.SO || ·) (PowerPCState.OV_SetXER_OV s _).symm)⟩

end Interpreter

/-! ## The instructions -/

inductive CarryOp
  | addcx | addex | addmex | addzex | subfcx | subfex | subfmex | subfzex
  deriving DecidableEq

namespace CarryOp

def run : CarryOp → UGeckoInstruction → PowerPCState ρ → PowerPCState ρ
  | addcx => Interpreter.addcx
  | addex => Interpreter.addex
  | addmex => Interpreter.addmex
  | addzex => Interpreter.addzex
  | subfcx => Interpreter.subfcx
  | subfex => Interpreter.subfex
  | subfmex => Interpreter.subfmex
  | subfzex => Interpreter.subfzex

def first (op : CarryOp) (inst : UGeckoInstruction) (s : PowerPCState ρ) : BitVec 32 :=
  match op with
  | addcx | addex | addmex | addzex => s.gpr inst.RA
  | subfcx | subfex | subfmex | subfzex => ~~~(s.gpr inst.RA)

def second (op : CarryOp) (inst : UGeckoInstruction) (s : PowerPCState ρ) : BitVec 32 :=
  match op with
  | addcx | addex | subfcx | subfex => s.gpr inst.RB
  | addmex | subfmex => 0xFFFFFFFF
  | addzex | subfzex => 0

def third (op : CarryOp) (s : PowerPCState ρ) : Bool :=
  match op with
  | addcx => false
  | subfcx => true
  | addex | addmex | addzex | subfex | subfmex | subfzex => s.xerCa = 1

end CarryOp

theorem Interpreter.Helper_Carry_minusOne (a : BitVec 32) (c : Bool) :
    Helper_Carry a ((BitVec.ofBool c).setWidth 32 - 1) = (exactSum a 0xFFFFFFFF c).testBit 32 ↔ c = false := by
  have ha := a.isLt
  rw [testBit_exactSum, Helper_Carry_eq, exactSum]
  cases c <;> simp [ha]

/-- Only where minus one is added with a carry the carry is wrong. -/
theorem CarryOp.run_sums_iff (op : CarryOp) (inst : UGeckoInstruction) (s : PowerPCState ρ)
    (hca : s.xerCa = 0 ∨ s.xerCa = 1) :
    Sums inst (op.first inst s) (op.second inst s) (op.third s) s (op.run inst s) ↔
      op ≠ .addmex ∧ op ≠ .subfmex ∨ s.xerCa = 0 := by
  obtain ⟨c, hc⟩ : ∃ c : Bool, s.xerCa = (BitVec.ofBool c).setWidth 8 := by
    rcases hca with h | h
    · exact ⟨false, h⟩
    · exact ⟨true, h⟩
  have hcarry : s.GetCarry = (BitVec.ofBool c).setWidth 32 := by
    rw [PowerPCState.GetCarry, hc]
    cases c <;> rfl
  have hthird : decide (s.xerCa = 1) = c := by
    rw [hc]
    cases c <;> rfl
  have hclear : s.xerCa = 0 ↔ c = false := by
    rw [hc]
    cases c <;> decide
  have halways : ∀ {carry bit : Bool}, carry = bit → op ≠ .addmex → op ≠ .subfmex →
      (carry = bit ↔ op ≠ .addmex ∧ op ≠ .subfmex ∨ s.xerCa = 0) := fun heq hadd hsub =>
    ⟨fun _ => Or.inl ⟨hadd, hsub⟩, fun _ => heq⟩
  cases op with
  | addcx =>
      refine (Interpreter.arithmeticCarry_sums inst s _ ?_).trans (halways ?_ nofun nofun)
      · exact (BitVec.add_zero _).symm.trans (add_eq_exactSum (s.gpr inst.RA) (s.gpr inst.RB) false)
      · refine Eq.trans ?_ (Interpreter.Helper_Carry_or (s.gpr inst.RA) (s.gpr inst.RB) false)
        simp
  | addex =>
      refine (Interpreter.arithmeticCarry_sums inst s _ ?_).trans (halways ?_ nofun nofun)
      · rw [hcarry, third, hthird, add_eq_exactSum]
        rfl
      · rw [hcarry, third, hthird]
        refine Eq.trans ?_ (Interpreter.Helper_Carry_or (s.gpr inst.RA) (s.gpr inst.RB) c)
        cases c <;> simp
  | addmex =>
      refine (Interpreter.arithmeticCarry_sums inst s _ ?_).trans ?_
      · rw [hcarry, third, hthird, add_eq_exactSum]
        rfl
      · rw [hcarry, third, hthird, hclear]
        exact (Interpreter.Helper_Carry_minusOne (s.gpr inst.RA) c).trans (by simp)
  | addzex =>
      refine (Interpreter.arithmeticCarry_sums inst s _ ?_).trans (halways ?_ nofun nofun)
      · rw [hcarry, third, hthird]
        exact (congrArg (· + (BitVec.ofBool c).setWidth 32) (BitVec.add_zero _).symm).trans
          (add_eq_exactSum (s.gpr inst.RA) 0 c)
      · rw [hcarry, third, hthird]
        exact Interpreter.Helper_Carry_carry (s.gpr inst.RA) c
  | subfcx =>
      refine (Interpreter.arithmeticCarry_sums inst s _ ?_).trans (halways ?_ nofun nofun)
      · exact add_eq_exactSum (~~~(s.gpr inst.RA)) (s.gpr inst.RB) true
      · exact Interpreter.Helper_Carry_addOne (~~~(s.gpr inst.RA)) (s.gpr inst.RB)
  | subfex =>
      refine (Interpreter.arithmeticCarry_sums inst s _ ?_).trans (halways ?_ nofun nofun)
      · rw [hcarry, third, hthird, add_eq_exactSum]
        rfl
      · rw [hcarry, third, hthird]
        exact Interpreter.Helper_Carry_or (~~~(s.gpr inst.RA)) (s.gpr inst.RB) c
  | subfmex =>
      refine (Interpreter.arithmeticCarry_sums inst s _ ?_).trans ?_
      · rw [hcarry, third, hthird, add_eq_exactSum]
        rfl
      · rw [hcarry, third, hthird, hclear]
        exact (Interpreter.Helper_Carry_minusOne (~~~(s.gpr inst.RA)) c).trans (by simp)
  | subfzex =>
      refine (Interpreter.arithmeticCarry_sums inst s _ ?_).trans (halways ?_ nofun nofun)
      · rw [hcarry, third, hthird]
        exact (congrArg (· + (BitVec.ofBool c).setWidth 32) (BitVec.add_zero _).symm).trans
          (add_eq_exactSum (~~~(s.gpr inst.RA)) 0 c)
      · rw [hcarry, third, hthird]
        exact Interpreter.Helper_Carry_carry (~~~(s.gpr inst.RA)) c

def carrySet : PowerPCState Unit := ⟨fun _ => 0, fun _ => 0, 1, 0, 0, 0, 0, ()⟩

/-- `addeo r3, r4, r5` -/
theorem CarryOp.run_sums_addeo :
    Sums ⟨0x7C642D14⟩ 0 0 true carrySet (CarryOp.run .addex ⟨0x7C642D14⟩ carrySet) :=
  (CarryOp.run_sums_iff .addex ⟨0x7C642D14⟩ carrySet (Or.inr rfl)).mpr (Or.inl ⟨nofun, nofun⟩)

/-- `addme r3, r4` -/
theorem CarryOp.run_addme : ¬ Sums ⟨0x7C6401D4⟩ (CarryOp.first .addmex ⟨0x7C6401D4⟩ carrySet)
    (CarryOp.second .addmex ⟨0x7C6401D4⟩ carrySet) (CarryOp.third .addmex carrySet) carrySet
    (CarryOp.run .addmex ⟨0x7C6401D4⟩ carrySet) := by
  intro h
  have hca := h.ca
  revert hca
  decide

/-! ## Immediates and shifts

The carries of the instructions whose destination may be one of their operands. -/

def PowerPCState.writes (s : PowerPCState ρ) (destination : Fin 32) (value : BitVec 32) (ca rc : Bool) : PowerPCState ρ :=
  { s with
    gpr := Function.update s.gpr destination value
    xerCa := (BitVec.ofBool ca).setWidth 8
    cr := if rc then (Interpreter.Helper_UpdateCR0 s value).cr else s.cr }

def shiftsOutOne (source : BitVec 32) (amount : Nat) : Bool :=
  decide (source.toInt < 0) && decide (∃ i < amount, source.getLsbD i = true)

namespace Interpreter

theorem record_writes (inst : UGeckoInstruction) (s : PowerPCState ρ) (destination : Fin 32) (value : BitVec 32) (ca : Bool) :
    record inst value ((s.setGpr destination value).SetCarry ca) = s.writes destination value ca inst.Rc := by
  rw [record]
  cases hrc : inst.Rc <;> rfl

theorem subfic_carry (a result imm : BitVec 32) (h : result = a ∨ result = imm - a) :
    (result == 0 || Helper_Carry (0 - result) imm) = decide (a.toNat ≤ imm.toNat) := by
  have ha := a.isLt
  have himm := imm.isLt
  have hresult := result.isLt
  have hzero : (0 : BitVec 32).toNat = 0 := rfl
  have hcarry : (result == 0 || Helper_Carry (0 - result) imm) = decide (result.toNat ≤ imm.toNat) := by
    rw [Helper_Carry_eq, Bool.eq_iff_iff, Bool.or_eq_true, beq_iff_eq, ← BitVec.toNat_inj, decide_eq_true_iff,
      decide_eq_true_iff, BitVec.toNat_sub, hzero]
    omega
  rw [hcarry, decide_eq_decide]
  rcases h with rfl | rfl
  · rfl
  · rw [BitVec.toNat_sub]
    omega

theorem shiftCarry_eq (source : BitVec 32) {amount : Nat} (h : amount < 32) :
    shiftCarry source amount = shiftsOutOne source amount := by
  have hout : (source <<< (32 - amount) != 0) = decide (∃ i < amount, source.getLsbD i = true) := by
    rw [Bool.eq_iff_iff, bne_iff_ne, decide_eq_true_iff]
    constructor
    · intro hne
      by_contra hnone
      push Not at hnone
      apply hne
      apply BitVec.eq_of_getLsbD_eq
      intro j hj
      rw [BitVec.getLsbD_shiftLeft]
      by_cases hlow : j < 32 - amount
      · simp [hlow]
      · have hbit := Bool.eq_false_of_not_eq_true (hnone (j - (32 - amount)) (by omega))
        rw [hbit, Bool.and_false]
        exact BitVec.getLsbD_zero.symm
    · rintro ⟨i, hi, hbit⟩ heq
      have hbit' := congrArg (fun x : BitVec 32 => x.getLsbD (32 - amount + i)) heq
      have hlt : 32 - amount + i < 32 := by omega
      have hhigh : ¬ 32 - amount + i < 32 - amount := by omega
      rw [BitVec.getLsbD_shiftLeft, Nat.add_sub_cancel_left, hbit, decide_eq_true hlt, decide_eq_false hhigh] at hbit'
      exact Bool.noConfusion (hbit'.trans BitVec.getLsbD_zero)
  have hsign : source.slt 0 = decide (source.toInt < 0) := rfl
  rw [shiftCarry, hout, hsign, shiftsOutOne]
  rcases Nat.eq_zero_or_pos amount with rfl | hpos
  · simp
  · simp [hpos]

theorem and_signBit (source : BitVec 32) : (source &&& 0x80000000 != 0) = source.msb := by
  have hmask : (0x80000000 : BitVec 32) = BitVec.twoPow 32 31 := rfl
  rw [BitVec.msb_eq_getLsbD_last, hmask, BitVec.and_twoPow]
  cases source.getLsbD 31 <;> rfl

theorem shiftsOutOne_large (source : BitVec 32) {amount : Nat} (h : 32 ≤ amount) :
    shiftsOutOne source amount = (source &&& 0x80000000 != 0) := by
  have hsign : decide (source.toInt < 0) = source.msb := by
    rw [BitVec.msb_eq_toInt]
  rw [shiftsOutOne, and_signBit, hsign]
  cases hneg : source.msb with
  | false => rfl
  | true =>
      rw [BitVec.msb_eq_getLsbD_last] at hneg
      exact decide_eq_true ⟨31, by omega, hneg⟩

theorem amount_bit (rb : BitVec 32) : (rb &&& 0x20 != 0) = decide (32 ≤ (rb &&& 0x3F).toNat) ∧
    ((rb &&& 0x3F).toNat < 32 → (rb &&& 0x1F).toNat = (rb &&& 0x3F).toNat) := by
  have hlow : (rb &&& 0x1F).toNat = rb.toNat % 32 := Nat.and_two_pow_sub_one_eq_mod rb.toNat 5
  have hall : (rb &&& 0x3F).toNat = rb.toNat % 64 := Nat.and_two_pow_sub_one_eq_mod rb.toNat 6
  have hbit : (rb &&& 0x20 != 0) = rb.getLsbD 5 := by
    have hmask : (0x20 : BitVec 32) = BitVec.twoPow 32 5 := rfl
    rw [hmask, BitVec.and_twoPow]
    cases rb.getLsbD 5 <;> rfl
  rw [hbit, hall, hlow, BitVec.getLsbD, Nat.testBit_eq_decide_div_mod_eq, decide_eq_decide]
  omega

theorem sshiftRight_large (source : BitVec 32) {amount : Nat} (h : 32 ≤ amount) :
    source.sshiftRight amount = if source &&& 0x80000000 != 0 then 0xFFFFFFFF#32 else 0 := by
  rw [and_signBit]
  apply BitVec.eq_of_getLsbD_eq
  intro i hi
  have hlarge : ¬ amount + i < 32 := by omega
  have hnot : ¬ 32 ≤ i := by omega
  have hones : (0xFFFFFFFF#32).getLsbD i = true := by
    have hall : 0xFFFFFFFF#32 = BitVec.allOnes 32 := rfl
    rw [hall, BitVec.getLsbD_allOnes, decide_eq_true hi]
  rw [BitVec.getLsbD_sshiftRight, decide_eq_false hnot, if_neg hlarge]
  cases source.msb with
  | false => exact BitVec.getLsbD_zero.symm
  | true => exact hones.symm

theorem srawx_result (source rb : BitVec 32) :
    (if rb &&& 0x20 != 0 then (if source &&& 0x80000000 != 0 then 0xFFFFFFFF#32 else 0)
      else source.sshiftRight (rb &&& 0x1F).toNat) = source.sshiftRight (rb &&& 0x3F).toNat := by
  obtain ⟨hbit, hlow⟩ := amount_bit rb
  rw [hbit]
  by_cases hlarge : 32 ≤ (rb &&& 0x3F).toNat
  · rw [decide_eq_true hlarge, if_pos rfl, sshiftRight_large source hlarge]
  · rw [decide_eq_false hlarge, if_neg Bool.false_ne_true, hlow (Nat.lt_of_not_le hlarge)]

theorem srawx_carry (source rb : BitVec 32) :
    (if rb &&& 0x20 != 0 then source &&& 0x80000000 != 0 else shiftCarry source (rb &&& 0x1F).toNat) =
      shiftsOutOne source (rb &&& 0x3F).toNat := by
  obtain ⟨hbit, hlow⟩ := amount_bit rb
  rw [hbit]
  by_cases hlarge : 32 ≤ (rb &&& 0x3F).toNat
  · rw [decide_eq_true hlarge, if_pos rfl, shiftsOutOne_large source hlarge]
  · rw [decide_eq_false hlarge, if_neg Bool.false_ne_true, hlow (Nat.lt_of_not_le hlarge),
      shiftCarry_eq source (Nat.lt_of_not_le hlarge)]

end Interpreter

/-- What the destination, CA and CR0 get depends on the operands before the instruction only. -/
theorem Interpreter.carries_of_operands (inst : UGeckoInstruction) (s : PowerPCState ρ) :
    addic inst s = s.writes inst.RD (s.gpr inst.RA + inst.SIMM_16)
        (((s.gpr inst.RA).toNat + inst.SIMM_16.toNat).testBit 32) false ∧
      addic_rc inst s = s.writes inst.RD (s.gpr inst.RA + inst.SIMM_16)
        (((s.gpr inst.RA).toNat + inst.SIMM_16.toNat).testBit 32) true ∧
      subfic inst s = s.writes inst.RD (inst.SIMM_16 - s.gpr inst.RA)
        (decide ((s.gpr inst.RA).toNat ≤ inst.SIMM_16.toNat)) false ∧
      srawx inst s = s.writes inst.RA ((s.gpr inst.RS).sshiftRight (s.gpr inst.RB &&& 0x3F).toNat)
        (shiftsOutOne (s.gpr inst.RS) (s.gpr inst.RB &&& 0x3F).toNat) inst.Rc ∧
      srawix inst s = s.writes inst.RA ((s.gpr inst.RS).sshiftRight inst.SH)
        (shiftsOutOne (s.gpr inst.RS) inst.SH) inst.Rc := by
  have hadd : Helper_Carry (s.gpr inst.RA) inst.SIMM_16 =
      ((s.gpr inst.RA).toNat + inst.SIMM_16.toNat).testBit 32 := by
    rw [Helper_Carry_eq]
    exact (testBit_exactSum (s.gpr inst.RA) inst.SIMM_16 false).symm
  have haddic : addic inst s = s.writes inst.RD (s.gpr inst.RA + inst.SIMM_16)
      (((s.gpr inst.RA).toNat + inst.SIMM_16.toNat).testBit 32) false := by
    rw [addic, hadd]
    rfl
  refine ⟨haddic, ?_, ?_, ?_, ?_⟩
  · have hrd : (addic inst s).gpr inst.RD = s.gpr inst.RA + inst.SIMM_16 := Function.update_self _ _ _
    rw [addic_rc, hrd, haddic]
    rfl
  · have hread : (s.setGpr inst.RD (inst.SIMM_16 - s.gpr inst.RA)).gpr inst.RA = s.gpr inst.RA ∨
        (s.setGpr inst.RD (inst.SIMM_16 - s.gpr inst.RA)).gpr inst.RA = inst.SIMM_16 - s.gpr inst.RA := by
      by_cases halias : inst.RA = inst.RD
      · right
        rw [halias]
        exact Function.update_self _ _ _
      · left
        exact Function.update_of_ne halias _ _
    rw [subfic, subfic_carry _ _ _ hread]
    rfl
  · rw [srawx, record_writes, srawx_result, srawx_carry]
  · have hlt : inst.SH < 32 := (inst.hex.extractLsb' 11 5).isLt
    rw [srawix, record_writes, shiftCarry_eq _ hlt]

end Karphin.PowerPC
