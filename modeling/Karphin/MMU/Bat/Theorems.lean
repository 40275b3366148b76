import Karphin.MMU.Lemmas.Walk
import Karphin.PPCCache.Defs
import Karphin.Lib.LastWrite

/-!
# Block address translation

`UpdateBATs`, `UpdateFakeMMUBat`, `DBATUpdated`, `IBATUpdated` and `TranslateBatAddress`, with the fields of the BAT
registers. The memory checks are a parameter of the model.
-/

namespace Karphin.MMU

open Karphin.PPCCache (MemorySizes)

namespace UReg_BAT_Up

def vp (batu : U32) : Bool := batu.getLsbD 0
def vs (batu : U32) : Bool := batu.getLsbD 1
def bl (batu : U32) : U32 := (batu >>> 2) &&& 0x7ff
def bepi (batu : U32) : U32 := batu >>> 17

end UReg_BAT_Up

namespace UReg_BAT_Lo

def wimg (batl : U32) : U32 := (batl >>> 3) &&& 0xf
def brpn (batl : U32) : U32 := batl >>> 17

def wi (batl : U32) : Bool := wimg batl &&& 0b1100 ≠ 0

end UReg_BAT_Lo

/-! ## The table -/

def BAT_PAGE_SIZE : U32 := 0x20000
def BAT_MAPPED_BIT : U32 := 0x1
def BAT_PHYSICAL_BIT : U32 := 0x2
def BAT_WI_BIT : U32 := 0x4
def BAT_RESULT_MASK : U32 := ~~~0x7#32

abbrev BatTable := BitVec 15 → U32

def batIndex (address : U32) : BitVec 15 := address.extractLsb' 17 15

structure BatEnvironment where
  sizes : MemorySizes
  /-- `GetFakeVMEM()` is not null. -/
  fakeVMem : Bool
  isWii : Bool
  /-- HID4[SBE] -/
  sbe : Bool
  overlapsMemcheck : (address length : U32) → Bool

def L1_CACHE_SIZE : Nat := 0x00040000

variable (env : BatEnvironment)

def batPhysical (physicalAddress : U32) : Bool :=
  if env.fakeVMem ∧ physicalAddress &&& 0xFE000000 = 0x7E000000 then true
  else if physicalAddress.toNat < env.sizes.ramSizeReal then true
  else if env.sizes.exRam ∧ physicalAddress >>> 28 = 0x1 ∧
      (physicalAddress &&& 0x0FFFFFFF).toNat < env.sizes.exRamSizeReal then true
  else decide (physicalAddress >>> 28 = 0xE ∧ physicalAddress.toNat < 0xE0000000 + L1_CACHE_SIZE)

def batFlags (wi : Bool) (physicalAddress virtualAddress : U32) : U32 :=
  let validBit := BAT_MAPPED_BIT
  let validBit := if wi then validBit ||| BAT_WI_BIT else validBit
  let validBit := if !wi && batPhysical env physicalAddress then validBit ||| BAT_PHYSICAL_BIT else validBit
  if env.overlapsMemcheck virtualAddress BAT_PAGE_SIZE then validBit &&& ~~~BAT_PHYSICAL_BIT else validBit

/-- One pass of the inner loop of `UpdateBATs`, for the bit pattern `j`. -/
def mapPattern (batu batl : U32) (table : BatTable) (j : U32) : BatTable :=
  if j &&& UReg_BAT_Up.bl batu = j then
    let physicalAddress := (UReg_BAT_Lo.brpn batl ||| j) <<< 17
    let virtualAddress := (UReg_BAT_Up.bepi batu ||| j) <<< 17
    Function.update table (batIndex virtualAddress)
      (physicalAddress ||| batFlags env (UReg_BAT_Lo.wi batl) physicalAddress virtualAddress)
  else table

def patterns (batu : U32) : List U32 := (List.range ((UReg_BAT_Up.bl batu).toNat + 1)).map (BitVec.ofNat 32)

def updateBAT (table : BatTable) (pair : U32 × U32) : BatTable :=
  if UReg_BAT_Up.vs pair.1 = false ∧ UReg_BAT_Up.vp pair.1 = false then table
  else (patterns pair.1).foldl (mapPattern env pair.1 pair.2) table

def bank (spr : Nat → U32) (baseSpr : Nat) : List (U32 × U32) :=
  (List.range 4).map fun i => (spr (baseSpr + i * 2), spr (baseSpr + i * 2 + 1))

def updateBATs (spr : Nat → U32) (table : BatTable) (baseSpr : Nat) : BatTable :=
  (bank spr baseSpr).foldl (updateBAT env) table

/-- `i << BAT_INDEX_SHIFT & m_memory.GetFakeVMemMask()` is the offset in the fake VMEM. -/
def updateFakeMMUBat (table : BatTable) (startAddr : U32) : BatTable :=
  ((List.range (0x10000000 >>> 17)).map (BitVec.ofNat 32)).foldl (fun table i =>
    let eAddress := i + startAddr >>> 17
    let pAddress := 0x7E000000 ||| ((i <<< 17) &&& BitVec.ofNat 32 env.sizes.fakeVMemMask)
    let flags := BAT_MAPPED_BIT ||| BAT_PHYSICAL_BIT
    let flags := if env.overlapsMemcheck (eAddress <<< 17) BAT_PAGE_SIZE then flags &&& ~~~BAT_PHYSICAL_BIT else flags
    Function.update table (eAddress.extractLsb' 0 15) (pAddress ||| flags)) table

/-- `DBATUpdated` and `IBATUpdated`, with the first registers of the two banks. -/
def batUpdated (spr : Nat → U32) (bat0U bat4U : Nat) : BatTable :=
  let table := updateBATs env spr (fun _ => 0) bat0U
  let table := if env.isWii && env.sbe then updateBATs env spr table bat4U else table
  if env.fakeVMem then updateFakeMMUBat env (updateFakeMMUBat env table 0x40000000) 0x70000000 else table

def SPR_IBAT0U : Nat := 528
def SPR_DBAT0U : Nat := 536
def SPR_IBAT4U : Nat := 560
def SPR_DBAT4U : Nat := 568

def dbatUpdated (spr : Nat → U32) : BatTable := batUpdated env spr SPR_DBAT0U SPR_DBAT4U

def ibatUpdated (spr : Nat → U32) : BatTable := batUpdated env spr SPR_IBAT0U SPR_IBAT4U

def translateBatAddress (table : BatTable) (address : U32) : Option (U32 × Bool) :=
  let batResult := table (batIndex address)
  if batResult &&& BAT_MAPPED_BIT = 0 then none
  else some ((batResult &&& BAT_RESULT_MASK) ||| (address &&& (BAT_PAGE_SIZE - 1)), batResult &&& BAT_WI_BIT ≠ 0)

/-! ## The match rule -/

def batPairs (spr : Nat → U32) (bat0U bat4U : Nat) : List (U32 × U32) :=
  bank spr bat0U ++ if env.isWii && env.sbe then bank spr bat4U else []

def batEnabled (pair : U32 × U32) : Bool := UReg_BAT_Up.vs pair.1 || UReg_BAT_Up.vp pair.1

def batMatches (address : U32) (pair : U32 × U32) : Bool :=
  batEnabled pair && decide ((address >>> 17) &&& ~~~UReg_BAT_Up.bl pair.1 = UReg_BAT_Up.bepi pair.1)

def batWellFormed (pair : U32 × U32) : Prop :=
  UReg_BAT_Up.bepi pair.1 &&& UReg_BAT_Up.bl pair.1 = 0 ∧ UReg_BAT_Lo.brpn pair.2 &&& UReg_BAT_Up.bl pair.1 = 0

def batTarget (address : U32) (pair : U32 × U32) : U32 × Bool :=
  (((UReg_BAT_Lo.brpn pair.2 ||| ((address >>> 17) &&& UReg_BAT_Up.bl pair.1)) <<< 17) ||| (address &&& 0x1FFFF),
    UReg_BAT_Lo.wi pair.2)

end Karphin.MMU

/-!
# The match rule of the BATs

The loop over the patterns under the mask BL writes one entry for each block that the pair maps, and the entry of an
address is the one of the pattern that the address has under the mask.
-/

namespace Karphin.MMU

variable {env : BatEnvironment}

/-! ## Bits under a mask -/

theorem or_eq_iff {w : Nat} {base pattern mask x : BitVec w} (hbase : base &&& mask = 0) (hpattern : pattern &&& mask = pattern) :
    base ||| pattern = x ↔ x &&& ~~~mask = base ∧ x &&& mask = pattern := by
  have hb (i : Nat) : (base.getLsbD i && mask.getLsbD i) = false := by
    rw [← BitVec.getLsbD_and, hbase]
    exact BitVec.getLsbD_zero
  have hp (i : Nat) : (pattern.getLsbD i && mask.getLsbD i) = pattern.getLsbD i := by
    rw [← BitVec.getLsbD_and, hpattern]
  constructor
  · rintro rfl
    constructor
    · apply BitVec.eq_of_getLsbD_eq
      intro i hi
      have hbi := hb i
      have hpi := hp i
      rw [BitVec.getLsbD_and, BitVec.getLsbD_or, BitVec.getLsbD_not, decide_eq_true hi]
      cases h : mask.getLsbD i <;> simp_all
    · apply BitVec.eq_of_getLsbD_eq
      intro i _
      have hbi := hb i
      have hpi := hp i
      rw [BitVec.getLsbD_and, BitVec.getLsbD_or]
      cases h : mask.getLsbD i <;> simp_all
  · rintro ⟨rfl, rfl⟩
    apply BitVec.eq_of_getLsbD_eq
    intro i hi
    rw [BitVec.getLsbD_or, BitVec.getLsbD_and, BitVec.getLsbD_and, BitVec.getLsbD_not, decide_eq_true hi]
    cases mask.getLsbD i <;> simp

theorem batIndex_shiftLeft (x : U32) : batIndex (x <<< 17) = x.setWidth 15 := by
  apply BitVec.eq_of_getLsbD_eq
  intro i hi
  simp [batIndex, hi]
  omega

theorem batIndex_eq (address : U32) : batIndex address = (address >>> 17).setWidth 15 := by
  apply BitVec.eq_of_getLsbD_eq
  intro i hi
  simp [batIndex, hi]

theorem shiftRight_lt (x : U32) : (x >>> 17).toNat < 2 ^ 15 := by
  have hx := x.isLt
  rw [BitVec.toNat_ushiftRight, Nat.shiftRight_eq_div_pow]
  omega

theorem setWidth_inj {x y : U32} (hx : x.toNat < 2 ^ 15) (hy : y.toNat < 2 ^ 15) : x.setWidth 15 = y.setWidth 15 ↔ x = y := by
  rw [← BitVec.toNat_inj, ← BitVec.toNat_inj, BitVec.toNat_setWidth, BitVec.toNat_setWidth, Nat.mod_eq_of_lt hx, Nat.mod_eq_of_lt hy]

theorem bl_lt (batu : U32) : (UReg_BAT_Up.bl batu).toNat < 2 ^ 11 := by
  rw [UReg_BAT_Up.bl, BitVec.toNat_and]
  exact Nat.lt_of_le_of_lt Nat.and_le_right (by decide)

theorem pattern_le {pattern mask : U32} (h : pattern &&& mask = pattern) : pattern.toNat ≤ mask.toNat := by
  rw [← h, BitVec.toNat_and]
  exact Nat.and_le_right

theorem pattern_and (x mask : U32) : (x &&& mask) &&& mask = x &&& mask := by
  rw [BitVec.and_assoc, BitVec.and_self]

/-! ## One pair -/

def batEntry (env : BatEnvironment) (address : U32) (pair : U32 × U32) : U32 :=
  let pattern := (address >>> 17) &&& UReg_BAT_Up.bl pair.1
  let physicalAddress := (UReg_BAT_Lo.brpn pair.2 ||| pattern) <<< 17
  physicalAddress ||| batFlags env (UReg_BAT_Lo.wi pair.2) physicalAddress ((UReg_BAT_Up.bepi pair.1 ||| pattern) <<< 17)

theorem batIndex_eq_iff {pair : U32 × U32} (hwf : UReg_BAT_Up.bepi pair.1 &&& UReg_BAT_Up.bl pair.1 = 0) {pattern : U32}
    (hpattern : pattern &&& UReg_BAT_Up.bl pair.1 = pattern) (address : U32) :
    batIndex address = batIndex ((UReg_BAT_Up.bepi pair.1 ||| pattern) <<< 17) ↔
      (address >>> 17) &&& ~~~UReg_BAT_Up.bl pair.1 = UReg_BAT_Up.bepi pair.1 ∧
        (address >>> 17) &&& UReg_BAT_Up.bl pair.1 = pattern := by
  have hlt : (UReg_BAT_Up.bepi pair.1 ||| pattern).toNat < 2 ^ 15 := by
    rw [BitVec.toNat_or]
    apply Nat.or_lt_two_pow (shiftRight_lt pair.1)
    have hle := pattern_le hpattern
    have hbl := bl_lt pair.1
    omega
  rw [batIndex_shiftLeft, batIndex_eq, setWidth_inj (shiftRight_lt address) hlt, eq_comm, or_eq_iff hwf hpattern]

theorem foldl_mapPattern {pair : U32 × U32} (hwf : UReg_BAT_Up.bepi pair.1 &&& UReg_BAT_Up.bl pair.1 = 0) (table : BatTable)
    (address : U32) :
    (patterns pair.1).foldl (mapPattern env pair.1 pair.2) table (batIndex address) =
      if (address >>> 17) &&& ~~~UReg_BAT_Up.bl pair.1 = UReg_BAT_Up.bepi pair.1 then batEntry env address pair
      else table (batIndex address) := by
  have hpass (table : BatTable) (pattern : U32) : mapPattern env pair.1 pair.2 table pattern (batIndex address) =
      (if pattern &&& UReg_BAT_Up.bl pair.1 = pattern ∧
          (address >>> 17) &&& ~~~UReg_BAT_Up.bl pair.1 = UReg_BAT_Up.bepi pair.1 ∧
          (address >>> 17) &&& UReg_BAT_Up.bl pair.1 = pattern
        then some (batEntry env address pair) else none).getD (table (batIndex address)) := by
    rw [mapPattern]
    by_cases hpattern : pattern &&& UReg_BAT_Up.bl pair.1 = pattern
    · rw [if_pos hpattern]
      by_cases hindex : batIndex address = batIndex ((UReg_BAT_Up.bepi pair.1 ||| pattern) <<< 17)
      · have hmatch := (batIndex_eq_iff hwf hpattern address).mp hindex
        rw [if_pos ⟨hpattern, hmatch⟩, hindex, Function.update_self, Option.getD_some, batEntry, hmatch.2]
      · have hmatch := mt (batIndex_eq_iff hwf hpattern address).mpr hindex
        rw [if_neg (fun h => hmatch h.2), Function.update_of_ne hindex, Option.getD_none]
    · rw [if_neg hpattern, if_neg (fun h => hpattern h.1), Option.getD_none]
  rw [Lib.foldl_lastWrite _ fun table pattern _ => hpass table pattern]
  by_cases hmatch : (address >>> 17) &&& ~~~UReg_BAT_Up.bl pair.1 = UReg_BAT_Up.bepi pair.1
  · have hle := pattern_le (pattern_and (address >>> 17) (UReg_BAT_Up.bl pair.1))
    have hmem : (address >>> 17) &&& UReg_BAT_Up.bl pair.1 ∈ (patterns pair.1).reverse := by
      rw [List.mem_reverse, patterns, List.mem_map]
      exact ⟨_, List.mem_range.mpr (Nat.lt_succ_of_le hle), BitVec.ofNat_toNat _ _ |>.trans (BitVec.setWidth_eq _)⟩
    rw [if_pos hmatch, Lib.findSome?_of_agree hmem (if_pos ⟨pattern_and _ _, hmatch, rfl⟩), Option.getD_some]
    intro pattern b h
    split at h
    · exact (Option.some.inj h).symm
    · cases h
  · rw [if_neg hmatch, List.findSome?_eq_none_iff.mpr, Option.getD_none]
    intro pattern _
    exact if_neg fun h => hmatch h.2.1

theorem updateBAT_apply {pair : U32 × U32} (hwf : batEnabled pair = true → batWellFormed pair) (table : BatTable) (address : U32) :
    updateBAT env table pair (batIndex address) =
      (if batMatches address pair = true then some (batEntry env address pair) else none).getD (table (batIndex address)) := by
  by_cases henabled : batEnabled pair = true
  · have hnot : ¬ (UReg_BAT_Up.vs pair.1 = false ∧ UReg_BAT_Up.vp pair.1 = false) := by
      rintro ⟨hvs, hvp⟩
      rw [batEnabled, hvs, hvp] at henabled
      cases henabled
    rw [updateBAT, if_neg hnot, foldl_mapPattern (hwf henabled).1, batMatches, henabled, Bool.true_and]
    by_cases hmatch : (address >>> 17) &&& ~~~UReg_BAT_Up.bl pair.1 = UReg_BAT_Up.bepi pair.1
    · rw [if_pos hmatch, if_pos (decide_eq_true hmatch), Option.getD_some]
    · rw [if_neg hmatch, if_neg (by rw [decide_eq_false hmatch]; exact Bool.false_ne_true), Option.getD_none]
  · have hoff : UReg_BAT_Up.vs pair.1 = false ∧ UReg_BAT_Up.vp pair.1 = false := by
      rw [batEnabled, Bool.or_eq_true, not_or, Bool.not_eq_true, Bool.not_eq_true] at henabled
      exact henabled
    rw [updateBAT, if_pos hoff, batMatches, Bool.eq_false_iff.mpr henabled, Bool.false_and, if_neg Bool.false_ne_true]
    rfl

/-! ## The entry -/

theorem batFlags_low (env : BatEnvironment) (wi : Bool) (physicalAddress virtualAddress : U32) :
    batFlags env wi physicalAddress virtualAddress &&& BAT_RESULT_MASK = 0 ∧
    batFlags env wi physicalAddress virtualAddress &&& BAT_MAPPED_BIT = BAT_MAPPED_BIT ∧
    batFlags env wi physicalAddress virtualAddress &&& BAT_WI_BIT = if wi then BAT_WI_BIT else 0 := by
  rw [batFlags]
  cases wi <;> cases batPhysical env physicalAddress <;> cases env.overlapsMemcheck virtualAddress BAT_PAGE_SIZE <;> decide

theorem shiftLeft_and_low {x mask : U32} (hmask : mask.toNat < 2 ^ 17) : (x <<< 17) &&& mask = 0 := by
  apply BitVec.eq_of_getLsbD_eq
  intro i _
  have hzero : (0 : U32).getLsbD i = false := BitVec.getLsbD_zero
  rw [hzero, BitVec.getLsbD_and, BitVec.getLsbD_shiftLeft]
  by_cases hi : i < 17
  · simp [hi]
  · have hhigh : mask.getLsbD i = false := by
      apply Nat.testBit_lt_two_pow
      exact Nat.lt_of_lt_of_le hmask (Nat.pow_le_pow_right (by decide) (not_lt.mp hi))
    rw [hhigh, Bool.and_false]

theorem shiftLeft_and_result (x : U32) : (x <<< 17) &&& BAT_RESULT_MASK = x <<< 17 := by
  have hlow : (x <<< 17) &&& 0x7#32 = 0 := shiftLeft_and_low (by decide)
  have hzero : (0 : U32) &&& 0x7#32 = 0 := BitVec.zero_and
  exact ((or_eq_iff hlow hzero).mp BitVec.or_zero).1

theorem translate_batEntry (table : BatTable) (address : U32) {pair : U32 × U32}
    (h : table (batIndex address) = batEntry env address pair) :
    translateBatAddress table address = some (batTarget address pair) := by
  obtain ⟨hresult, hmapped, hwi⟩ := batFlags_low env (UReg_BAT_Lo.wi pair.2)
    ((UReg_BAT_Lo.brpn pair.2 ||| ((address >>> 17) &&& UReg_BAT_Up.bl pair.1)) <<< 17)
    ((UReg_BAT_Up.bepi pair.1 ||| ((address >>> 17) &&& UReg_BAT_Up.bl pair.1)) <<< 17)
  have hmappedLow : BAT_MAPPED_BIT.toNat < 2 ^ 17 := by decide
  have hwiLow : BAT_WI_BIT.toNat < 2 ^ 17 := by decide
  have hone : ¬ BAT_MAPPED_BIT = 0 := by decide
  have hpage : BAT_PAGE_SIZE - 1 = 0x1FFFF := rfl
  have hleft (x : U32) : 0 ||| x = x := BitVec.zero_or
  have hright (x : U32) : x ||| 0 = x := BitVec.or_zero
  rw [translateBatAddress, h, batEntry, BitVec.and_or_distrib_right, BitVec.and_or_distrib_right,
    BitVec.and_or_distrib_right, shiftLeft_and_low hmappedLow, shiftLeft_and_low hwiLow, shiftLeft_and_result, hresult, hmapped, hwi, hleft, hleft, hright,
    if_neg hone, hpage, batTarget]
  cases UReg_BAT_Lo.wi pair.2 <;> rfl

/-! ## All pairs -/

theorem batUpdated_eq (hfake : env.fakeVMem = false) (spr : Nat → U32) (bat0U bat4U : Nat) :
    batUpdated env spr bat0U bat4U = (batPairs env spr bat0U bat4U).foldl (updateBAT env) fun _ => 0 := by
  rw [batUpdated, hfake, batPairs, List.foldl_append]
  cases env.isWii && env.sbe <;> rfl

/-- An address is translated exactly when a pair matches, and as the last matching pair says. -/
theorem bats_translate_last_match (hfake : env.fakeVMem = false) (spr : Nat → U32) (bat0U bat4U : Nat)
    (hwf : ∀ pair ∈ batPairs env spr bat0U bat4U, batEnabled pair = true → batWellFormed pair) (address : U32) :
    ((translateBatAddress (batUpdated env spr bat0U bat4U) address).isSome = true ↔
      ∃ pair ∈ batPairs env spr bat0U bat4U, batMatches address pair = true) ∧
    translateBatAddress (batUpdated env spr bat0U bat4U) address =
      ((batPairs env spr bat0U bat4U).reverse.find? (batMatches address)).map (batTarget address) := by
  have happly : batUpdated env spr bat0U bat4U (batIndex address) =
      (((batPairs env spr bat0U bat4U).reverse.find? (batMatches address)).map (batEntry env address)).getD 0 := by
    rw [batUpdated_eq hfake, Lib.foldl_lastWrite _ fun table pair hpair => updateBAT_apply (hwf pair hpair) table address,
      Lib.findSome?_ite]
  have htranslate : translateBatAddress (batUpdated env spr bat0U bat4U) address =
      ((batPairs env spr bat0U bat4U).reverse.find? (batMatches address)).map (batTarget address) := by
    cases hfind : (batPairs env spr bat0U bat4U).reverse.find? (batMatches address) with
    | none =>
        rw [hfind, Option.map_none, Option.getD_none] at happly
        have hzero : (0 : U32) &&& BAT_MAPPED_BIT = 0 := BitVec.zero_and
        rw [translateBatAddress, happly, if_pos hzero]
        rfl
    | some pair =>
        rw [hfind, Option.map_some, Option.getD_some] at happly
        exact translate_batEntry _ address happly
  refine ⟨?_, htranslate⟩
  rw [htranslate, Option.isSome_map, List.find?_isSome]
  simp only [List.mem_reverse]

/-- A console whose first data pair maps the 256 MiB from `0x80000000` on to the physical address 0. -/
def oneBlockSpr (spr : Nat) : U32 := if spr = SPR_DBAT0U then 0x80001FFF else if spr = SPR_DBAT0U + 1 then 0x2 else 0

def oneBlockEnvironment : BatEnvironment where
  sizes := PPCCache.gameCube
  fakeVMem := false
  isWii := false
  sbe := false
  overlapsMemcheck _ _ := false

theorem bats_translate_one_block :
    translateBatAddress (dbatUpdated oneBlockEnvironment oneBlockSpr) 0x80001234 = some (0x1234, false) := by
  have hwf : ∀ pair ∈ batPairs oneBlockEnvironment oneBlockSpr SPR_DBAT0U SPR_DBAT4U,
      batEnabled pair = true → batWellFormed pair := by
    have hpairs : batPairs oneBlockEnvironment oneBlockSpr SPR_DBAT0U SPR_DBAT4U =
        (0x80001FFF, 0x2) :: List.replicate 3 (0, 0) := by decide
    intro pair hpair henabled
    rw [hpairs] at hpair
    rcases List.mem_cons.mp hpair with rfl | hrest
    · exact ⟨by decide, by decide⟩
    · rw [(List.mem_replicate.mp hrest).2] at henabled
      exact absurd henabled (by decide)
  exact (bats_translate_last_match rfl oneBlockSpr SPR_DBAT0U SPR_DBAT4U hwf 0x80001234).2.trans (by decide)

/-! ## Frames -/

def Framed (table : BatTable) : Prop := ∀ i, (table i &&& BAT_RESULT_MASK).toNat % 2 ^ 17 = 0

end Karphin.MMU
