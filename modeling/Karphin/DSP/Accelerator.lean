import Karphin.Lib.FinNumerals
import Karphin.Lib.Transition

/-!
# The accelerator of the DSP

It reads samples from memory between a start and an end address, and decodes them. At the end it goes back to the start
and stops, until the program has set up its history again. Samples of 4 bits come in blocks of 16 nibbles, and the first
two nibbles of a block are its header, which is skipped.
-/

namespace Karphin.DSP

open Lib

structure Accelerator where
  startAddress : UInt32 := 0
  endAddress : UInt32 := 0
  currentAddress : UInt32 := 0
  sampleFormat : UInt16 := 0
  yn1 : Int16 := 0
  yn2 : Int16 := 0
  predScale : UInt16 := 0
  /-- Set when the end is reached. It is not exposed by any register. -/
  readsStopped : Bool := false
  deriving DecidableEq

/-- What a read returns, whether it calls `OnEndException`, and the registers after it. -/
structure AcceleratorRead where
  value : UInt16
  endException : Bool
  after : Accelerator

namespace Accelerator

variable {a a' a₀ : Accelerator} {coefs : Nat → Int16} {readMemory : UInt32 → UInt8}

/-! ## Setters -/

def startEndAddressMask : UInt32 := 0x3fffffff
def currentAddressMask : UInt32 := 0xbfffffff

def setStartAddress (a : Accelerator) (address : UInt32) : Accelerator :=
  { a with startAddress := address &&& startEndAddressMask }

def setEndAddress (a : Accelerator) (address : UInt32) : Accelerator :=
  { a with endAddress := address &&& startEndAddressMask }

def setCurrentAddress (a : Accelerator) (address : UInt32) : Accelerator :=
  { a with currentAddress := address &&& currentAddressMask }

def setSampleFormat (a : Accelerator) (format : UInt16) : Accelerator := { a with sampleFormat := format }

def setYn1 (a : Accelerator) (yn1 : Int16) : Accelerator := { a with yn1 }

def setYn2 (a : Accelerator) (yn2 : Int16) : Accelerator := { a with yn2, readsStopped := false }

def setPredScale (a : Accelerator) (predScale : UInt16) : Accelerator := { a with predScale := predScale &&& 0x7f }

/-! ## Reads -/

def decodeADPCM (a : Accelerator) (coefs : Nat → Int16) (readMemory : UInt32 → UInt8) : Int16 :=
  let scale : Int32 := 1 <<< (a.predScale &&& 0xF).toUInt32.toInt32
  let coefIdx := ((a.predScale >>> 4) &&& 0x7).toNat
  let coef1 := (coefs (coefIdx * 2 + 0)).toInt32
  let coef2 := (coefs (coefIdx * 2 + 1)).toInt32
  let byte := readMemory (a.currentAddress >>> 1)
  let nibble := if a.currentAddress &&& 1 ≠ 0 then byte &&& 0xF else byte >>> 4
  let temp := if nibble ≥ 8 then nibble.toUInt32.toInt32 - 16 else nibble.toUInt32.toInt32
  let val32 := scale * temp + ((0x400 + coef1 * a.yn1.toInt32 + coef2 * a.yn2.toInt32) >>> 11)
  (max (-0x7FFF) (min 0x7FFF val32)).toInt16

def pushSample (a : Accelerator) (val : Int16) : Accelerator :=
  { a with yn2 := a.yn1, yn1 := val, currentAddress := a.currentAddress + 1 }

/-- What the switch over the format leaves: the sample, the registers, and `step_size_bytes`. -/
def readSample (a : Accelerator) (coefs : Nat → Int16) (readMemory : UInt32 → UInt8) :
    UInt16 × Accelerator × UInt32 :=
  if a.sampleFormat = 0x00 then
    let val := a.decodeADPCM coefs readMemory
    let a := a.pushSample val
    if a.endAddress &&& 0xf = 0x0 ∧ a.currentAddress = a.endAddress then
      (val.toUInt16, { a with currentAddress := a.startAddress + 1 }, 2)
    else if a.endAddress &&& 0xf = 0x1 ∧ a.currentAddress = a.endAddress - 1 then
      (val.toUInt16, { a with currentAddress := a.startAddress }, 2)
    -- the predscale register is not updated in these two cases
    else if a.currentAddress &&& 15 = 0 then
      let predScale := (readMemory ((a.currentAddress &&& ~~~15) >>> 1)).toUInt16
      (val.toUInt16, { a with predScale, currentAddress := a.currentAddress + 2 }, 4)
    else (val.toUInt16, a, 2)
  else if a.sampleFormat = 0x0A then
    let high := (readMemory (a.currentAddress * 2)).toUInt16
    let low := (readMemory (a.currentAddress * 2 + 1)).toUInt16
    let val := (high <<< 8) ||| low
    (val, a.pushSample val.toInt16, 2)
  else if a.sampleFormat = 0x19 then
    let val := (readMemory a.currentAddress).toUInt16 <<< 8
    (val, a.pushSample val.toInt16, 2)
  else (0, { a with currentAddress := a.currentAddress + 1 }, 2)

def read (a : Accelerator) (coefs : Nat → Int16) (readMemory : UInt32 → UInt8) : AcceleratorRead :=
  if a.readsStopped then ⟨0, false, a⟩
  else
    match a.readSample coefs readMemory with
    | (val, a, stepSizeBytes) =>
        let ended : Bool := a.currentAddress = a.endAddress + stepSizeBytes - 1
        let a := if ended then { a with currentAddress := a.startAddress, readsStopped := true } else a
        ⟨val, ended, a.setCurrentAddress a.currentAddress⟩

/-! ## Where the next sample is -/

/-- The start is below the end, which is below `2 ^ 30`, and the current address is between them. -/
structure InRange (a : Accelerator) : Prop where
  startEnd : a.startAddress.toNat < a.endAddress.toNat
  endLt : a.endAddress.toNat < 2 ^ 30
  start : a.startAddress.toNat ≤ a.currentAddress.toNat
  current : a.currentAddress.toNat ≤ a.endAddress.toNat

def nextSample (a : Accelerator) : Nat :=
  if a.sampleFormat = 0x00 ∧ (a.currentAddress.toNat + 1) % 16 = 0 then a.currentAddress.toNat + 3
  else a.currentAddress.toNat + 1

/-- The sample is the last one before a block whose header is at the end, or begins one nibble before it. -/
def WrapsSilently (a : Accelerator) : Prop :=
  a.sampleFormat = 0x00 ∧
    (a.endAddress.toNat % 16 = 0 ∧ a.currentAddress.toNat + 1 = a.endAddress.toNat ∨
      a.endAddress.toNat % 16 = 1 ∧ a.currentAddress.toNat + 1 = a.endAddress.toNat - 1)

instance : Decidable a.WrapsSilently := inferInstanceAs (Decidable (_ ∧ _))

/-- Where a read that is not stopped leaves the current address. -/
structure Advances (a : Accelerator) (r : AcceleratorRead) : Prop where
  /-- The exception is raised by the sample at the end address, and stops the reads. -/
  exception : r.endException = true ↔ a.currentAddress = a.endAddress
  stopped : r.after.readsStopped = r.endException
  /-- A read that would go past the end wraps, with the exception or in the two silent cases. -/
  wraps : a.endAddress.toNat < a.nextSample ↔ a.currentAddress = a.endAddress ∨ a.WrapsSilently
  onward : ¬ a.endAddress.toNat < a.nextSample → r.after.currentAddress.toNat = a.nextSample
  back : a.endAddress.toNat < a.nextSample → r.after.currentAddress =
    if a.WrapsSilently ∧ a.endAddress.toNat % 16 = 0 then a.startAddress + 1 else a.startAddress
  startAddress : r.after.startAddress = a.startAddress
  endAddress : r.after.endAddress = a.endAddress
  sampleFormat : r.after.sampleFormat = a.sampleFormat

/-! ## What a sample does to the address -/

theorem and_fifteen (x : UInt32) : (x &&& 15).toNat = x.toNat % 16 := by
  rw [UInt32.toNat_and]
  exact Nat.and_two_pow_sub_one_eq_mod _ 4

theorem InRange.succ (h : a.InRange) : (a.currentAddress + 1).toNat = a.currentAddress.toNat + 1 := by
  have := h.current
  have := h.endLt
  rw [UInt32.toNat_add, UInt32.toNat_one, Nat.mod_eq_of_lt (by omega)]

structure Sampled (a a' : Accelerator) (stepSizeBytes : UInt32) : Prop where
  startAddress : a'.startAddress = a.startAddress
  endAddress : a'.endAddress = a.endAddress
  sampleFormat : a'.sampleFormat = a.sampleFormat
  readsStopped : a'.readsStopped = a.readsStopped
  silent : a.WrapsSilently → stepSizeBytes = 2 ∧
    a'.currentAddress = if a.endAddress.toNat % 16 = 0 then a.startAddress + 1 else a.startAddress
  onward : ¬ a.WrapsSilently → a'.currentAddress.toNat = a.nextSample ∧
    stepSizeBytes.toNat + a.currentAddress.toNat = a.nextSample + 1

theorem sampled_succ (h : a.InRange) (hformat : a.sampleFormat ≠ 0x00) (val : Int16) :
    Sampled a (a.pushSample val) 2 ∧ Sampled a { a with currentAddress := a.currentAddress + 1 } 2 := by
  have hnext : a.nextSample = a.currentAddress.toNat + 1 := if_neg fun hadpcm => hformat hadpcm.1
  have hsilent : ¬ a.WrapsSilently := fun hsilent => hformat hsilent.1
  constructor
  · refine ⟨rfl, rfl, rfl, rfl, fun h => absurd h hsilent, fun _ => ⟨?_, ?_⟩⟩
    · rw [hnext]
      exact h.succ
    · rw [hnext, Nat.add_comm]
      rfl
  · refine ⟨rfl, rfl, rfl, rfl, fun h => absurd h hsilent, fun _ => ⟨?_, ?_⟩⟩
    · rw [hnext]
      exact h.succ
    · rw [hnext, Nat.add_comm]
      rfl

theorem readSample_sampled (h : a.InRange) (coefs : Nat → Int16) (readMemory : UInt32 → UInt8) :
    Sampled a (a.readSample coefs readMemory).2.1 (a.readSample coefs readMemory).2.2 := by
  have hstart := h.startEnd
  have hend := h.endLt
  have hcurrent := h.current
  have hsucc := h.succ
  rw [readSample]
  split
  next hformat =>
    have hpred : (a.endAddress - 1).toNat = a.endAddress.toNat - 1 := by
      have hpos : (1 : UInt32) ≤ a.endAddress := by
        rw [UInt32.le_iff_toNat_le]
        exact Nat.succ_le_of_lt (Nat.zero_lt_of_lt hstart)
      rw [UInt32.toNat_sub_of_le _ _ hpos, UInt32.toNat_one]
    have haligned : a.endAddress &&& 0xf = 0x0 ↔ a.endAddress.toNat % 16 = 0 := by
      rw [← UInt32.toNat_inj, and_fifteen]
      rfl
    have hbehind : a.endAddress &&& 0xf = 0x1 ↔ a.endAddress.toNat % 16 = 1 := by
      rw [← UInt32.toNat_inj, and_fifteen]
      rfl
    have hheader : (a.currentAddress + 1) &&& 15 = 0 ↔ (a.currentAddress.toNat + 1) % 16 = 0 := by
      rw [← UInt32.toNat_inj, and_fifteen, hsucc]
      rfl
    have hnext : a.nextSample =
        if (a.currentAddress.toNat + 1) % 16 = 0 then a.currentAddress.toNat + 3 else a.currentAddress.toNat + 1 := by
      simp only [nextSample, hformat, true_and]
    have hsilent : a.WrapsSilently ↔
        a.endAddress.toNat % 16 = 0 ∧ a.currentAddress.toNat + 1 = a.endAddress.toNat ∨
          a.endAddress.toNat % 16 = 1 ∧ a.currentAddress.toNat + 1 = a.endAddress.toNat - 1 := by
      simp only [WrapsSilently, hformat, true_and]
    simp only [pushSample, haligned, hbehind, hheader, ← UInt32.toNat_inj, hsucc, hpred]
    split
    next hat =>
      exact ⟨rfl, rfl, rfl, rfl, fun _ => ⟨rfl, (if_pos hat.1).symm⟩, fun h => absurd (hsilent.mpr (.inl hat)) h⟩
    next hat =>
      split
      next hone =>
        have hzero : ¬ a.endAddress.toNat % 16 = 0 := by omega
        exact ⟨rfl, rfl, rfl, rfl, fun _ => ⟨rfl, (if_neg hzero).symm⟩, fun h => absurd (hsilent.mpr (.inr hone)) h⟩
      next hone =>
        have hloud : ¬ a.WrapsSilently := fun h => (hsilent.mp h).elim hat hone
        split
        next hjump =>
          refine ⟨rfl, rfl, rfl, rfl, fun h => absurd h hloud, fun _ => ?_⟩
          rw [hnext, if_pos hjump]
          constructor
          · rw [UInt32.toNat_add, hsucc]
            exact Nat.mod_eq_of_lt (by omega : a.currentAddress.toNat + 1 + 2 < 2 ^ 32)
          · change 4 + a.currentAddress.toNat = _
            omega
        next hjump =>
          refine ⟨rfl, rfl, rfl, rfl, fun h => absurd h hloud, fun _ => ?_⟩
          rw [hnext, if_neg hjump]
          exact ⟨hsucc, Nat.add_comm _ _⟩
  next hformat =>
    split
    · exact (sampled_succ h hformat _).1
    split
    · exact (sampled_succ h hformat _).1
    · exact (sampled_succ h hformat 0).2

theorem and_currentAddressMask {x : UInt32} (h : x.toNat < 2 ^ 30) : x &&& currentAddressMask = x := by
  have hmask : (2 ^ 30 - 1) &&& 0xbfffffff = 2 ^ 30 - 1 := by decide
  have hlow : x.toNat &&& (2 ^ 30 - 1) = x.toNat := by
    rw [Nat.and_two_pow_sub_one_eq_mod, Nat.mod_eq_of_lt h]
  rw [← UInt32.toNat_inj, UInt32.toNat_and]
  change x.toNat &&& 0xbfffffff = x.toNat
  rw [← hlow, Nat.and_assoc, hmask]

theorem InRange.endLt_nextSample (h : a.InRange) :
    a.endAddress.toNat < a.nextSample ↔ a.currentAddress = a.endAddress ∨ a.WrapsSilently := by
  have hcurrent := h.current
  rw [← UInt32.toNat_inj, WrapsSilently, nextSample]
  by_cases hformat : a.sampleFormat = 0x00
  · simp only [hformat, true_and]
    split <;> omega
  · simp only [hformat, false_and, if_false, or_false]
    omega

theorem not_silent (hend : a.currentAddress = a.endAddress) : ¬ a.WrapsSilently := by
  rw [WrapsSilently, hend]
  omega

theorem InRange.restart_le (h : a.InRange) :
    (if a.endAddress.toNat % 16 = 0 then a.startAddress + 1 else a.startAddress).toNat ≤ a.endAddress.toNat := by
  have hstart := h.startEnd
  have hend := h.endLt
  split
  · rw [UInt32.toNat_add, UInt32.toNat_one, Nat.mod_eq_of_lt (by omega)]
    exact hstart
  · exact Nat.le_of_lt hstart

theorem Sampled.ended_iff {step : UInt32} (hsampled : Sampled a a' step) (h : a.InRange) :
    a'.currentAddress = a'.endAddress + step - 1 ↔ a.currentAddress = a.endAddress := by
  have hstart := h.startEnd
  have hend := h.endLt
  have hcurrent := h.current
  rw [hsampled.endAddress]
  have hplace : ∀ n, step.toNat = n + 1 → n ≤ 3 → (a.endAddress + step - 1).toNat = a.endAddress.toNat + n := by
    intro n hn hle
    have hsum : (a.endAddress + step).toNat = a.endAddress.toNat + (n + 1) := by
      rw [UInt32.toNat_add, hn, Nat.mod_eq_of_lt (by omega)]
    rw [UInt32.toNat_sub_of_le, hsum]
    · rfl
    · rw [UInt32.le_iff_toNat_le, hsum]
      exact Nat.le_add_left 1 _
  rw [← UInt32.toNat_inj, ← UInt32.toNat_inj]
  by_cases hsilent : a.WrapsSilently
  · obtain ⟨hstep, haddress⟩ := hsampled.silent hsilent
    have hloud : a.currentAddress.toNat ≠ a.endAddress.toNat :=
      fun hat => not_silent (UInt32.toNat_inj.mp hat) hsilent
    have hbefore := h.restart_le
    rw [← haddress] at hbefore
    rw [hplace 1 (congrArg UInt32.toNat hstep) (by decide)]
    omega
  · obtain ⟨haddress, hstep⟩ := hsampled.onward hsilent
    have hnext : a.nextSample ≤ a.currentAddress.toNat + 3 ∧ a.currentAddress.toNat < a.nextSample := by
      rw [nextSample]
      split <;> omega
    rw [hplace (a.nextSample - a.currentAddress.toNat) (by omega) (by omega), haddress]
    omega

theorem read_advances (h : a.InRange) (hgoing : a.readsStopped = false) (coefs : Nat → Int16)
    (readMemory : UInt32 → UInt8) : a.Advances (a.read coefs readMemory) := by
  have hsampled := readSample_sampled h coefs readMemory
  rw [read, hgoing]
  generalize a.readSample coefs readMemory = sample at hsampled ⊢
  obtain ⟨val, a', step⟩ := sample
  have hended := hsampled.ended_iff h
  have hwraps := h.endLt_nextSample
  have hstart := h.startEnd
  have hend := h.endLt
  dsimp only at hsampled hended ⊢
  by_cases hat : a.currentAddress = a.endAddress
  · have hloud := not_silent hat
    have hmask : a'.startAddress &&& currentAddressMask = a'.startAddress :=
      and_currentAddressMask (by rw [hsampled.startAddress]; omega)
    simp only [Bool.false_eq_true, if_false, hended.mpr hat, decide_true, if_true, setCurrentAddress, hmask]
    refine ⟨iff_of_true rfl hat, rfl, hwraps, fun h => absurd (hwraps.mpr (.inl hat)) h, fun _ => ?_,
      hsampled.startAddress, hsampled.endAddress, hsampled.sampleFormat⟩
    rw [if_neg fun h => hloud h.1]
    exact hsampled.startAddress
  · have hgoes : ¬ a'.currentAddress = a'.endAddress + step - 1 := fun h => hat (hended.mp h)
    have hle : a'.currentAddress.toNat ≤ a.endAddress.toNat := by
      by_cases hsilent : a.WrapsSilently
      · rw [(hsampled.silent hsilent).2]
        exact h.restart_le
      · rw [(hsampled.onward hsilent).1]
        exact Nat.le_of_not_lt fun hbehind => (hwraps.mp hbehind).elim hat hsilent
    simp only [Bool.false_eq_true, if_false, decide_eq_false hgoes, setCurrentAddress,
      and_currentAddressMask (Nat.lt_of_le_of_lt hle hend)]
    refine ⟨iff_of_false Bool.false_ne_true hat, hsampled.readsStopped.trans hgoing, hwraps, fun hbefore => ?_,
      fun hbehind => ?_, hsampled.startAddress, hsampled.endAddress, hsampled.sampleFormat⟩
    · exact (hsampled.onward fun hsilent => hbefore (hwraps.mpr (.inr hsilent))).1
    · have hsilent := (hwraps.mp hbehind).resolve_left hat
      rw [(hsampled.silent hsilent).2]
      simp only [hsilent, true_and]

/-! ## Runs -/

/-- A call that the DSP makes on its accelerator, with the memory as it is then. -/
inductive Call
  | read (coefs : Nat → Int16) (readMemory : UInt32 → UInt8)
  | setYn2 (yn2 : Int16)

def call (a : Accelerator) : Call → Option Accelerator
  | .read coefs readMemory => some (a.read coefs readMemory).after
  | .setYn2 yn2 => some (a.setYn2 yn2)

theorem read_stopped (hstopped : a.readsStopped = true) (coefs : Nat → Int16) (readMemory : UInt32 → UInt8) :
    a.read coefs readMemory = ⟨0, false, a⟩ := by
  rw [read, hstopped, if_pos rfl]

theorem Advances.inRange {r : AcceleratorRead} (hadvances : a.Advances r) (h : a.InRange) : r.after.InRange := by
  have hstart := h.startEnd
  have hcurrent := h.current
  have hfrom := h.start
  have hnext : a.currentAddress.toNat < a.nextSample := by
    rw [nextSample]
    split <;> omega
  suffices hplace : a.startAddress.toNat ≤ r.after.currentAddress.toNat ∧
      r.after.currentAddress.toNat ≤ a.endAddress.toNat by
    constructor
    · rw [hadvances.startAddress, hadvances.endAddress]
      exact hstart
    · rw [hadvances.endAddress]
      exact h.endLt
    · rw [hadvances.startAddress]
      exact hplace.1
    · rw [hadvances.endAddress]
      exact hplace.2
  by_cases hbehind : a.endAddress.toNat < a.nextSample
  · have hplus : (a.startAddress + 1).toNat = a.startAddress.toNat + 1 := by
      have := h.endLt
      rw [UInt32.toNat_add, UInt32.toNat_one, Nat.mod_eq_of_lt (by omega)]
    rw [hadvances.back hbehind]
    split <;> omega
  · rw [hadvances.onward hbehind]
    omega

theorem inRange_call {c : Call} (h : a.InRange) (hcall : a.call c = some a') :
    a'.InRange ∧ a'.startAddress = a.startAddress ∧ a'.endAddress = a.endAddress ∧ a'.sampleFormat = a.sampleFormat := by
  cases c with
  | read coefs readMemory =>
      cases hcall
      cases hstopped : a.readsStopped with
      | true =>
          rw [read_stopped hstopped]
          exact ⟨h, rfl, rfl, rfl⟩
      | false =>
          have hadvances := read_advances h hstopped coefs readMemory
          exact ⟨hadvances.inRange h, hadvances.startAddress, hadvances.endAddress, hadvances.sampleFormat⟩
  | setYn2 yn2 =>
      cases hcall
      exact ⟨⟨h.startEnd, h.endLt, h.start, h.current⟩, rfl, rfl, rfl⟩

theorem inRange_run (h : a₀.InRange) (hrun : Reach call anyStep a₀ a) :
    a.InRange ∧ a.startAddress = a₀.startAddress ∧ a.endAddress = a₀.endAddress ∧ a.sampleFormat = a₀.sampleFormat := by
  induction hrun with
  | refl => exact ⟨h, rfl, rfl, rfl⟩
  | tail _ _ hcall ih =>
      obtain ⟨hrange, hstart, hend, hformat⟩ := inRange_call ih.1 hcall
      exact ⟨hrange, hstart.trans ih.2.1, hend.trans ih.2.2.1, hformat.trans ih.2.2.2⟩

/-- In every run the address stays in the range. A read either does nothing, until the program writes to YN2, or takes the
sample there and goes on, and the one at the end raises the exception and stops the reads. -/
theorem accelerator_run (h : a₀.InRange) (hrun : Reach call anyStep a₀ a) :
    (a₀.startAddress.toNat ≤ a.currentAddress.toNat ∧ a.currentAddress.toNat ≤ a₀.endAddress.toNat) ∧
      (a.readsStopped = true → ∀ coefs readMemory, a.read coefs readMemory = ⟨0, false, a⟩) ∧
      (a.readsStopped = false → ∀ coefs readMemory, a.Advances (a.read coefs readMemory)) ∧
      ∀ yn2, (a.setYn2 yn2).readsStopped = false ∧ (a.setYn2 yn2).currentAddress = a.currentAddress := by
  obtain ⟨hrange, hstart, hend, -⟩ := inRange_run h hrun
  refine ⟨?_, read_stopped, read_advances hrange, fun yn2 => ⟨rfl, rfl⟩⟩
  rw [← hstart, ← hend]
  exact ⟨hrange.start, hrange.current⟩

def lastBlock : Accelerator := { endAddress := 0xf, currentAddress := 0xe }

def silence : Call := .read (fun _ => 0) fun _ => 0

theorem accelerator_run_lastBlock : ∃ a, Reach call anyStep lastBlock a ∧ a.currentAddress = 0xf ∧
    a.readsStopped = false ∧ (∀ coefs readMemory, a.Advances (a.read coefs readMemory)) ∧
    ∃ a', a.call silence = some a' ∧ a'.currentAddress = 0 ∧ a'.readsStopped = true := by
  have hrange : lastBlock.InRange := by
    constructor <;> decide
  have hread : lastBlock.call silence = some { lastBlock with currentAddress := 0xf } := by decide
  have hrun : Reach call anyStep lastBlock { lastBlock with currentAddress := 0xf } := .tail .refl trivial hread
  exact ⟨_, hrun, rfl, rfl, (accelerator_run hrange hrun).2.2.1 rfl,
    ⟨{ lastBlock with currentAddress := 0, readsStopped := true }, by decide, rfl, rfl⟩⟩

end Accelerator

end Karphin.DSP
