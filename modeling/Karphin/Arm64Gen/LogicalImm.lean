import Karphin.Lib.FinNumerals
import Karphin.Lib.BitRuns

/-!
# Logical immediates

The recognition of the immediates that the logical instructions can encode, and the table that they are decoded by.
-/

namespace Karphin.Arm64Gen

open Karphin.Lib

inductive GPRSize
  | b32 | b64
  deriving DecidableEq

def GPRSize.bits : GPRSize → Nat
  | .b32 => 32
  | .b64 => 64

structure LogicalImm where
  r : BitVec 8 := 0
  s : BitVec 8 := 0
  n : Bool := false
  valid : Bool := false
  deriving DecidableEq

namespace LogicalImm

/-! ## Encoding -/

def encodeR (elementSize rotation : Nat) : BitVec 8 :=
  ((BitVec.ofNat 32 elementSize - BitVec.ofNat 32 rotation) &&& (BitVec.ofNat 32 elementSize - 1)).setWidth 8

def encodeS (elementSize ones : Nat) : BitVec 8 :=
  (((~~~(BitVec.ofNat 32 elementSize) + 1) <<< 1 ||| (BitVec.ofNat 32 ones - 1)) &&& 0x3f).setWidth 8

def encodeN (elementSize : Nat) : Bool := (BitVec.ofNat 32 elementSize).getLsbD 6

def widen (value : BitVec 64) : GPRSize → BitVec 64
  | .b32 => value <<< 32 ||| value &&& 0xffffffff
  | .b64 => value

/-- `LogicalImm(u64 value, GPRSize size)`; `std::countr_zero` is `BitVec.ctz`, and `std::rotr` is `rotateRight`. -/
def ofValue (value : BitVec 64) (size : GPRSize) : LogicalImm :=
  let value := widen value size
  if value = 0 ∨ ~~~value = 0 then {}
  else
    let rotation := (value &&& (value + 1)).ctz.toNat
    let normalized := value.rotateRight rotation
    let elementSize := (normalized &&& (normalized + 1)).ctz.toNat
    let ones := (~~~normalized).ctz.toNat
    if value.rotateRight elementSize ≠ value then {}
    else
      { r := encodeR elementSize rotation
        s := encodeS elementSize ones
        n := encodeN elementSize
        valid := true }

/-! ## Decoding -/

/-- The size of the elements by the table of the architecture: the bits before `s` in `imms`. -/
def elementSize (n : Bool) (imms : BitVec 8) : Option Nat :=
  if n then some 64
  else if imms < 0b100000 then some 32
  else if imms < 0b110000 then some 16
  else if imms < 0b111000 then some 8
  else if imms < 0b111100 then some 4
  else if imms < 0b111110 then some 2
  else none

/-- The low `ones` bits of an element, rotated right and repeated. -/
def pattern (w e ones rot : Nat) : BitVec w :=
  ((((BitVec.allOnes ones).setWidth e).rotateRight rot).replicate (w / e)).setWidth w

/-- The value of an encoding. The bits of `s` must not be all set, and an element has to fit. -/
def decode (imm : LogicalImm) (size : GPRSize) : Option (BitVec size.bits) :=
  match elementSize imm.n imm.s with
  | none => none
  | some e =>
      if e ≤ size.bits ∧ imm.s.toNat % e + 1 < e then
        some (pattern size.bits e (imm.s.toNat % e + 1) (imm.r.toNat % e))
      else none

end LogicalImm

def IsBitmaskImm {w : Nat} (v : BitVec w) : Prop :=
  ∃ e ∈ [2, 4, 8, 16, 32, 64], e ≤ w ∧ ∃ ones rot, 0 < ones ∧ ones < e ∧ rot < e ∧ v = LogicalImm.pattern w e ones rot

namespace LogicalImm

/-! ## Patterns -/

theorem getLsbD_pattern {w e m r i : Nat} (hdvd : e ∣ w) (hm : m < e) (hr : r < e) (hi : i < w) :
    (pattern w e m r).getLsbD i = decide ((i + r) % e < m) := by
  have he : 0 < e := by omega
  have hie := Nat.mod_lt i he
  have hsplit : (i + r) % e = (i % e + r) % e := by rw [Nat.mod_add_mod]
  rw [pattern, BitVec.getLsbD_setWidth, BitVec.getLsbD_replicate, Nat.mul_div_cancel' hdvd, decide_eq_true hi,
    Bool.true_and, Bool.true_and, BitVec.getLsbD_rotateRight, Nat.mod_eq_of_lt hr]
  by_cases hlow : i % e < e - r
  · rw [hsplit, Nat.mod_eq_of_lt (show i % e + r < e by omega), decide_eq_true hlow, cond_true, BitVec.getLsbD_setWidth,
      BitVec.getLsbD_allOnes, decide_eq_true (show r + i % e < e by omega), Bool.true_and, Nat.add_comm]
  · have hround : (i % e + r) % e = i % e - (e - r) := by
      rw [Nat.mod_eq_sub_mod (by omega), Nat.mod_eq_of_lt (by omega)]
      omega
    rw [hsplit, hround, decide_eq_false hlow, cond_false, decide_eq_true hie, Bool.true_and, BitVec.getLsbD_setWidth,
      BitVec.getLsbD_allOnes, decide_eq_true (show i % e - (e - r) < e by omega), Bool.true_and]

theorem runs_iff_pattern {w e m r : Nat} {v : BitVec w} (hw : 0 < w) (hdvd : e ∣ w) (hm : 0 < m) (hme : m < e) (hr : r < e) :
    Runs v e m r ↔ v = pattern w e m r := by
  refine ⟨fun h => BitVec.eq_of_getLsbD_eq fun i hi => ?_, fun h => ⟨hdvd, hm, hme, fun i => ?_⟩⟩
  · rw [getLsbD_pattern hdvd hme hr hi, ← cyclic_of_lt hi, h.bits]
  · obtain ⟨k, rfl⟩ := hdvd
    rw [h, cyclic, getLsbD_pattern (Nat.dvd_mul_right e k) hme hr (Nat.mod_lt i hw), Nat.add_mod,
      Nat.mod_mul_right_mod, ← Nat.add_mod]

theorem runs_mod {w e m r : Nat} {v : BitVec w} (h : Runs v e m r) : Runs v e m (r % e) :=
  ⟨h.dvd, h.pos, h.lt, fun i => by rw [h.bits, Nat.add_mod_mod]⟩

theorem mem_sizes {e : Nat} (hdvd : e ∣ 64) (htwo : 1 < e) : e ∈ [2, 4, 8, 16, 32, 64] := by
  have hpow : e ∣ 2 ^ 6 := hdvd
  obtain ⟨k, hk, rfl⟩ := (Nat.dvd_prime_pow Nat.prime_two).mp hpow
  interval_cases k <;> simp at htwo ⊢

theorem sizes_dvd {w e : Nat} (hw : w = 32 ∨ w = 64) (he : e ∈ [2, 4, 8, 16, 32, 64]) (hle : e ≤ w) : e ∣ w := by
  rcases hw with rfl | rfl
  · revert e
    decide
  · revert e
    decide

theorem isBitmaskImm_iff {w : Nat} {v : BitVec w} (hw : w = 32 ∨ w = 64) : IsBitmaskImm v ↔ ∃ e m r, Runs v e m r := by
  have hpos : 0 < w := by omega
  refine ⟨fun ⟨e, he, hle, m, r, hm, hme, hr, hv⟩ => ?_, fun ⟨e, m, r, h⟩ => ?_⟩
  · exact ⟨e, m, r, (runs_iff_pattern hpos (sizes_dvd hw he hle) hm hme hr).mpr hv⟩
  · have hm := h.pos
    have hme := h.lt
    have hdvd : e ∣ 64 := by
      rcases hw with rfl | rfl
      · exact h.dvd.trans (by decide)
      · exact h.dvd
    have hr := Nat.mod_lt r (show 0 < e by omega)
    exact ⟨e, mem_sizes hdvd (by omega), Nat.le_of_dvd hpos h.dvd, m, r % e, hm, hme, hr,
      (runs_iff_pattern hpos h.dvd hm hme hr).mp (runs_mod h)⟩

/-! ## Values of 32 bits -/

theorem cyclic_widen (value : BitVec 64) (i : Nat) : cyclic (widen value .b32) i = cyclic (value.setWidth 32) i := by
  have hi := Nat.mod_lt i (show 0 < 64 by decide)
  have hmask : ∀ j < 64, (0xffffffff : BitVec 64).getLsbD j = decide (j < 32) := by decide
  have hmod : i % 32 = i % 64 % 32 := by omega
  rw [cyclic, cyclic, widen, hmod, BitVec.getLsbD_or, BitVec.getLsbD_shiftLeft, BitVec.getLsbD_and, hmask _ hi,
    BitVec.getLsbD_setWidth, decide_eq_true hi, decide_eq_true (Nat.mod_lt (i % 64) (show 0 < 32 by decide))]
  by_cases hlow : i % 64 < 32
  · rw [Nat.mod_eq_of_lt hlow, decide_eq_true hlow]
    simp
  · rw [show i % 64 % 32 = i % 64 - 32 by omega, decide_eq_false hlow]
    simp

theorem runs_widen_iff {value : BitVec 64} {e m r : Nat} :
    Runs (widen value .b32) e m r ↔ Runs (value.setWidth 32) e m r := by
  refine ⟨fun h => ⟨?_, h.pos, h.lt, fun i => ?_⟩, fun h => ⟨h.dvd.trans (by decide), h.pos, h.lt, fun i => ?_⟩⟩
  · have hm := h.pos
    have hme := h.lt
    have hmem := mem_sizes h.dvd (by omega)
    have hlong : e ≠ 64 := by
      rintro rfl
      have hperiod : ∀ i, cyclic (widen value .b32) (i + 32) = cyclic (widen value .b32) i := fun i => by
        rw [cyclic_widen, cyclic_widen, cyclic, cyclic, Nat.add_mod_right]
      have hone := hperiod (64 - r % 64)
      have hgap := hperiod (m + (64 - r % 64))
      rw [h.bits, h.bits, decide_eq_decide] at hone hgap
      omega
    simp only [List.mem_cons, List.not_mem_nil, or_false] at hmem
    rcases hmem with rfl | rfl | rfl | rfl | rfl | rfl
    all_goals first | exact absurd rfl hlong | decide
  · rw [← cyclic_widen, h.bits]
  · rw [cyclic_widen, h.bits]

theorem runs_widen_size {value : BitVec 64} {size : GPRSize} {e m r : Nat} :
    Runs (widen value size) e m r ↔ Runs (value.setWidth size.bits) e m r := by
  cases size with
  | b32 => exact runs_widen_iff
  | b64 => rw [widen, GPRSize.bits, BitVec.setWidth_eq]

/-! ## The fields of an encoding -/

theorem encode_fields : ∀ e ∈ [2, 4, 8, 16, 32, 64],
    (∀ ones < e, 0 < ones → elementSize (encodeN e) (encodeS e ones) = some e ∧ (encodeS e ones).toNat % e + 1 = ones) ∧
      ∀ rotation < 65, (encodeR e rotation).toNat % e = (64 - rotation) % e := by
  decide

/-! ## The constructor -/

theorem ofValue_eq (value : BitVec 64) (size : GPRSize) : ofValue value size =
    if widen value size = 0 ∨ ~~~(widen value size) = 0 then {}
    else if (widen value size).rotateRight (nextRun (normalize (widen value size))) ≠ widen value size then {}
    else
      { r := encodeR (nextRun (normalize (widen value size))) (nextRun (widen value size))
        s := encodeS (nextRun (normalize (widen value size))) (trailingOnes (normalize (widen value size)))
        n := encodeN (nextRun (normalize (widen value size)))
        valid := true } := rfl

theorem decode_of_runs {value : BitVec 64} {size : GPRSize} {e m rotation : Nat} (hrot : rotation < 65)
    (h : Runs (widen value size) e m (64 - rotation)) :
    decode ⟨encodeR e rotation, encodeS e m, encodeN e, true⟩ size = some (value.setWidth size.bits) := by
  have hm := h.pos
  have hme := h.lt
  have hvalue := runs_widen_size.mp h
  have hbits : 0 < size.bits := by cases size <;> decide
  have hle := Nat.le_of_dvd hbits hvalue.dvd
  obtain ⟨hfields, hrotation⟩ := encode_fields e (mem_sizes h.dvd (by omega))
  obtain ⟨hsize, hones⟩ := hfields m hme hm
  have hr := hrotation rotation hrot
  have hpattern := (runs_iff_pattern hbits hvalue.dvd hm hme (Nat.mod_lt _ (by omega))).mp (runs_mod hvalue)
  simp only [decode, hsize, hones, hr]
  rw [if_pos ⟨hle, hme⟩, ← hpattern]

theorem decode_ofValue {value : BitVec 64} {size : GPRSize} (h : (ofValue value size).valid = true) :
    (ofValue value size).decode size = some (value.setWidth size.bits) := by
  rw [ofValue_eq] at h ⊢
  by_cases htrivial : widen value size = 0 ∨ ~~~(widen value size) = 0
  · rw [if_pos htrivial] at h
    cases h
  · obtain ⟨hzero, hones⟩ := not_or.mp htrivial
    rw [if_neg htrivial] at h ⊢
    by_cases hsame : (widen value size).rotateRight (nextRun (normalize (widen value size))) = widen value size
    · have hle := ((@nextRun_eq_iff _ (widen value size) _).mp rfl).1
      rw [if_neg (not_not.mpr hsame)]
      exact decode_of_runs (Nat.lt_succ_of_le hle) ((rotateRight_nextRun_iff (by decide) hzero hones).2 hsame)
    · rw [if_pos hsame] at h
      cases h

/-- An encoding is found exactly for the bitmask immediates, and it is decoded to the value. -/
theorem ofValue_valid_iff (value : BitVec 64) (size : GPRSize) :
    ((ofValue value size).valid = true ↔ IsBitmaskImm (value.setWidth size.bits)) ∧
      ((ofValue value size).valid = true → (ofValue value size).decode size = some (value.setWidth size.bits)) := by
  have hiff : IsBitmaskImm (value.setWidth size.bits) ↔ ∃ e m r, Runs (widen value size) e m r := by
    rw [isBitmaskImm_iff (by cases size with | b32 => exact .inl rfl | b64 => exact .inr rfl)]
    simp only [runs_widen_size]
  refine ⟨?_, decode_ofValue⟩
  have hw : 0 < 64 := by decide
  rw [hiff, ofValue_eq]
  by_cases htrivial : widen value size = 0 ∨ ~~~(widen value size) = 0
  · rw [if_pos htrivial]
    refine ⟨fun h => (by cases h), fun ⟨e, m, r, h⟩ => ?_⟩
    obtain ⟨hzero, hones⟩ := h.ne_zero hw
    exact absurd htrivial (not_or.mpr ⟨hzero, hones⟩)
  · obtain ⟨hzero, hones⟩ := not_or.mp htrivial
    have hrepeats := (rotateRight_nextRun_iff hw hzero hones).1
    rw [if_neg htrivial]
    by_cases hsame : (widen value size).rotateRight (nextRun (normalize (widen value size))) = widen value size
    · rw [if_neg (not_not.mpr hsame)]
      exact ⟨fun _ => hrepeats.mp hsame, fun _ => rfl⟩
    · rw [if_pos hsame]
      exact ⟨fun h => (by cases h), fun h => absurd (hrepeats.mpr h) hsame⟩

end LogicalImm

end Karphin.Arm64Gen
