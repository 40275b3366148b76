import Karphin.GCMemcard.Lemmas.Chains

/-!
# A saved card is opened again

`Open` recomputes what the operations maintain: the checksums, the number of free blocks, the lengths of the chains and
which of the two directories and tables is the newer one.
-/

namespace Karphin.GCMemcard

open GCMemcardErrorCode (single)

theorem single_eq_empty {issue : GCMemcardValidityIssues} {b : Bool} : single issue b = ∅ ↔ b = false := by
  cases b <;> simp [single]

theorem hasCriticalErrors_empty : GCMemcardErrorCode.hasCriticalErrors ∅ = false := by
  simp [GCMemcardErrorCode.hasCriticalErrors]

/-! ## Checksums -/

section FixChecksums

variable (h : Header) (dir : Directory) (bat : BlockAlloc)

-- the checksums are left abstract here, so that nothing is computed when the other fields are read
theorem Directory.fixChecksums_spec : ∃ c i, dir.fixChecksums = { dir with checksum := c, checksumInv := i } :=
  ⟨_, _, rfl⟩

theorem BlockAlloc.fixChecksums_spec : ∃ c i, bat.fixChecksums = { bat with checksum := c, checksumInv := i } :=
  ⟨_, _, rfl⟩

theorem Header.fixChecksums_spec : ∃ c i, h.fixChecksums = { h with checksum := c, checksumInv := i } :=
  ⟨_, _, rfl⟩

@[simp]
theorem Directory.fixChecksums_dirEntries : dir.fixChecksums.dirEntries = dir.dirEntries := by
  obtain ⟨c, i, hfix⟩ := Directory.fixChecksums_spec dir
  rw [hfix]

@[simp]
theorem Directory.fixChecksums_padding : dir.fixChecksums.padding = dir.padding := by
  obtain ⟨c, i, hfix⟩ := Directory.fixChecksums_spec dir
  rw [hfix]

@[simp]
theorem Directory.fixChecksums_updateCounter : dir.fixChecksums.updateCounter = dir.updateCounter := by
  obtain ⟨c, i, hfix⟩ := Directory.fixChecksums_spec dir
  rw [hfix]

@[simp]
theorem BlockAlloc.fixChecksums_map : bat.fixChecksums.map = bat.map := by
  obtain ⟨c, i, hfix⟩ := BlockAlloc.fixChecksums_spec bat
  rw [hfix]

@[simp]
theorem BlockAlloc.fixChecksums_freeBlocks : bat.fixChecksums.freeBlocks = bat.freeBlocks := by
  obtain ⟨c, i, hfix⟩ := BlockAlloc.fixChecksums_spec bat
  rw [hfix]

@[simp]
theorem BlockAlloc.fixChecksums_updateCounter : bat.fixChecksums.updateCounter = bat.updateCounter := by
  obtain ⟨c, i, hfix⟩ := BlockAlloc.fixChecksums_spec bat
  rw [hfix]

@[simp]
theorem BlockAlloc.fixChecksums_lastAllocatedBlock : bat.fixChecksums.lastAllocatedBlock = bat.lastAllocatedBlock := by
  obtain ⟨c, i, hfix⟩ := BlockAlloc.fixChecksums_spec bat
  rw [hfix]

@[simp]
theorem Header.fixChecksums_data : h.fixChecksums.data = h.data := by
  obtain ⟨c, i, hfix⟩ := Header.fixChecksums_spec h
  rw [hfix]

@[simp]
theorem Header.fixChecksums_unused1 : h.fixChecksums.unused1 = h.unused1 := by
  obtain ⟨c, i, hfix⟩ := Header.fixChecksums_spec h
  rw [hfix]

@[simp]
theorem Header.fixChecksums_unused2 : h.fixChecksums.unused2 = h.unused2 := by
  obtain ⟨c, i, hfix⟩ := Header.fixChecksums_spec h
  rw [hfix]

end FixChecksums

/-! ## The blocks -/

theorem any_ne_replicate (n : Nat) (x : UInt8) :
    (Vector.replicate n x).toList.any (fun b => decide (b ≠ x)) = false := by
  simp

theorem Directory.checkForErrors_fixChecksums {dir : Directory} (h : dir.padding = Vector.replicate 0x3a 0xFF) :
    dir.fixChecksums.checkForErrors = ∅ := by
  have hsum : dir.fixChecksums.calculateChecksums = (dir.fixChecksums.checksum, dir.fixChecksums.checksumInv) := rfl
  rw [Directory.checkForErrors, hsum, Directory.fixChecksums_padding, h, any_ne_replicate]
  simp [single]

theorem sumWords_replicate : ∀ (m : Nat) (csum invCsum : UInt16) (rest : List UInt8),
    sumWords csum invCsum (List.replicate (2 * m) 0xFF ++ rest) = sumWords (csum - UInt16.ofNat m) invCsum rest
  | 0, csum, invCsum, rest => by simp
  | m + 1, csum, invCsum, rest => by
      have hword : csum + 65535 - UInt16.ofNat m = csum - UInt16.ofNat (m + 1) := by
        rw [UInt16.ofNat_add]
        grind
      have hlen : 2 * (m + 1) = 2 * m + 1 + 1 := by omega
      have hd : ((0xFF : UInt8).toUInt16 <<< 8) ||| (0xFF : UInt8).toUInt16 = 65535 := by decide
      rw [hlen, List.replicate_succ, List.replicate_succ, List.cons_append, List.cons_append, sumWords,
        sumWords_replicate m]
      simp only [hd, hword, UInt16.xor_self, UInt16.add_zero]

theorem DEntry.raw_default : DEntry.raw {} = List.replicate 64 0xFF := by decide

theorem Directory.checkForErrors_default : Directory.checkForErrors {} = ∅ := by
  have hraw : (Vector.replicate dirLen ({} : DEntry)).toList.flatMap DEntry.raw = List.replicate (dirLen * 64) 0xFF := by
    rw [Vector.toList_replicate, List.flatMap_replicate, DEntry.raw_default, List.flatten_replicate_replicate]
  have hsum : Directory.calculateChecksums {} = (swap16 0xF003, 0) := by
    have hwords : List.replicate (dirLen * 64) (0xFF : UInt8) ++ List.replicate 0x3a 0xFF =
        List.replicate (2 * 4093) 0xFF := List.replicate_append_replicate
    rw [Directory.calculateChecksums, calculateMemcardChecksums]
    simp only []
    rw [hraw, Vector.toList_replicate, hwords, sumWords_replicate]
    rfl
  rw [Directory.checkForErrors, hsum, any_ne_replicate]
  simp [single]

theorem Header.checkForErrors_fixChecksums {h : Header} {sizeMbits : Nat}
    (h1 : h.unused1 = Vector.replicate 468 0xFF) (h2 : h.unused2 = Vector.replicate 7680 0xFF)
    (hsize : h.data.sizeMb.toNat = sizeMbits) : h.fixChecksums.checkForErrors sizeMbits = ∅ := by
  have hsum : h.fixChecksums.calculateChecksums = (h.fixChecksums.checksum, h.fixChecksums.checksumInv) := rfl
  rw [Header.checkForErrors, hsum, Header.fixChecksums_unused1, Header.fixChecksums_unused2, Header.fixChecksums_data,
    h1, h2, hsize, any_ne_replicate, any_ne_replicate]
  simp [single]

namespace BlockAlloc

/-- The number of free blocks is right, and nothing is allocated behind the end of the card. -/
structure Sound (sizeMbits : Nat) (bat : BlockAlloc) : Prop where
  free : bat.freeBlocks = Memcard.freeCount (sizeMbits * mbitToBlocks) bat
  unused : ∀ k, sizeMbits * mbitToBlocks - mcFstBlocks ≤ k → bat.map k = 0

theorem Sound.congr {sizeMbits : Nat} {bat bat' : BlockAlloc} (h : Sound sizeMbits bat) (hmap : bat'.map = bat.map)
    (hfree : bat'.freeBlocks = bat.freeBlocks) : Sound sizeMbits bat' := by
  constructor
  · rw [hfree, h.free, Memcard.freeCount, Memcard.freeCount, hmap]
  · rw [hmap]
    exact h.unused

theorem countP_complement (map : Nat → Nat) (n : Nat) :
    n - (List.range n).countP (fun i => decide (map i ≠ 0)) = (List.range n).countP (fun i => decide (map i = 0)) := by
  have h := List.length_eq_countP_add_countP (fun i => decide (map i = 0)) (l := List.range n)
  simp only [List.length_range, decide_eq_true_eq] at h
  simp only [ne_eq]
  omega

theorem checkForErrors_fixChecksums {bat : BlockAlloc} {sizeMbits : Nat} (hsize : sizeMbits ∈ validMegabits)
    (h : Sound sizeMbits bat) : bat.fixChecksums.checkForErrors sizeMbits = ∅ := by
  have hsum : bat.fixChecksums.calculateChecksums = (bat.fixChecksums.checksum, bat.fixChecksums.checksumInv) := by
    simp only [fixChecksums, calculateChecksums, Prod.mk.eta]
  have hrange : sizeMbits > 0 ∧ sizeMbits ≤ 256 := by
    simp only [validMegabits, List.mem_cons, List.not_mem_nil, or_false] at hsize
    omega
  have hcount := countP_complement bat.map (sizeMbits * mbitToBlocks - mcFstBlocks)
  have hunused : (List.range' (sizeMbits * mbitToBlocks - mcFstBlocks)
      (batSize - (sizeMbits * mbitToBlocks - mcFstBlocks))).any (fun k => decide (bat.map k ≠ 0)) = false := by
    rw [List.any_eq_false]
    intro k hk
    simp [h.unused k (List.mem_range'_1.1 hk).1]
  rw [checkForErrors, if_pos hrange]
  simp only [hsum, fixChecksums_map, fixChecksums_freeBlocks, hunused, hcount]
  simp [single, h.free, Memcard.freeCount]

end BlockAlloc

namespace Memcard

variable {bat : BlockAlloc} {size : Nat}

theorem Follows.batBlockCountMatches : ∀ {blocks : List Nat} {first : Nat}, size ≤ 4092 → blocks ≠ [] →
    Follows bat size first blocks → Directory.batBlockCountMatches bat blocks.length first = true
  | [], _, _, hne, _ => absurd rfl hne
  | [b], first, hsize, _, ⟨h1, h2, h3, h4⟩ => by
      simp only [Follows] at h4
      simp [Directory.batBlockCountMatches, h1, h4]
  | b :: c :: bs, first, hsize, _, ⟨h1, h2, h3, h4⟩ => by
      have hc := h4.1
      have hrange := h4.range c (List.mem_cons_self ..)
      have hne : c ≠ 0 ∧ c ≠ 0xFFFF := by
        simp only [mcFstBlocks] at hrange
        omega
      have ih := h4.batBlockCountMatches hsize (by simp)
      rw [hc] at ih
      simp only [List.length_cons] at ih ⊢
      simp only [Directory.batBlockCountMatches] at ih ⊢
      simpa [h1, hc, hne] using ih

theorem checkForErrorsWithBat_chains {dir : Directory} {chain : Fin dirLen → List Nat} (hsize : size ≤ 4092)
    (h : Chains size dir bat chain) (hpos : ∀ i : Fin dirLen, (getElem dir.dirEntries i i.isLt).used = true →
      1 ≤ (getElem dir.dirEntries i i.isLt).blockCount) :
    dir.checkForErrorsWithBat bat = ∅ := by
  rw [Directory.checkForErrorsWithBat, single_eq_empty, List.any_eq_false]
  intro i _
  by_cases hu : dir.dirEntries[i].used = true
  · have hne : chain i ≠ [] := by
      intro hnil
      have hlen := h.length i hu
      have hp := hpos i hu
      rw [hnil] at hlen
      simp only [List.length_nil] at hlen
      omega
    have hm := (h.follows i hu).batBlockCountMatches hsize hne
    rw [h.length i hu] at hm
    rw [hm]
    simp only [Bool.not_true, Bool.and_false, Bool.false_eq_true, not_false_eq_true]
  · rw [Bool.eq_false_iff.2 hu]
    simp only [Bool.false_and, Bool.false_eq_true, not_false_eq_true]

/-! ## The file that is written -/

section Save

variable {card : Memcard}

theorem save_dataBlocks (h : card.dataBlocks.length = card.sizeBlocks - mcFstBlocks) :
    card.save.dataBlocks = card.dataBlocks := by
  simp only [save, ← h]
  apply List.ext_getElem
  · simp
  · intro i h1 h2
    simp [h2]

theorem bytesToMegabits_save (hblocks : card.sizeBlocks = card.sizeMb * mbitToBlocks)
    (hsize : card.sizeMb ∈ validMegabits) (h : card.dataBlocks.length = card.sizeBlocks - mcFstBlocks) :
    bytesToMegabits card.save.size = some card.sizeMb := by
  have heq : card.save.size = card.sizeMb * 131072 := by
    rw [CardFile.size, save_dataBlocks h]
    simp only [validMegabits, List.mem_cons, List.not_mem_nil, or_false, mcFstBlocks, mbitToBlocks] at hblocks hsize h ⊢
    omega
  rw [bytesToMegabits, heq]
  simp

end Save

/-! ## Which block is the newer one -/

/-- The active one of two blocks has the greater update counter, or it is the first one and the counters are equal. -/
structure Newest (counter : Fin 2 → Int) (active : Fin 2) (n : Nat) : Prop where
  nonneg : ∀ i, 0 ≤ counter i
  le : ∀ i, counter i ≤ n
  active : (if counter 0 ≥ counter 1 then (0 : Fin 2) else 1) = active

theorem Newest.mono {counter : Fin 2 → Int} {active : Fin 2} {n m : Nat} (h : Newest counter active n) (hnm : n ≤ m) :
    Newest counter active m where
  nonneg := h.nonneg
  le := fun i => (h.le i).trans (Int.ofNat_le.2 hnm)
  active := h.active

theorem nextCounter_eq {c : Int} {n : Nat} (h0 : 0 ≤ c) (hc : c ≤ n) (hn : n < 32767) : nextCounter c = c + 1 := by
  simp only [nextCounter, Int.bmod_def]
  omega

theorem Newest.update {counter counter' : Fin 2 → Int} {active : Fin 2} {n : Nat} (h : Newest counter active n)
    (hn : n < 32767)
    (heq : counter' = Function.update counter (if active = 0 then 1 else 0) (nextCounter (counter active))) :
    Newest counter' (if active = 0 then 1 else 0) (n + 1) := by
  have h0 := h.nonneg
  have hle := h.le
  have hact := h.active
  rw [nextCounter_eq (h0 active) (hle active) hn] at heq
  subst heq
  have hcases : active = 0 ∨ active = 1 := by omega
  have h00 := h0 0
  have h01 := h0 1
  have hl0 := hle 0
  have hl1 := hle 1
  obtain rfl | rfl := hcases
  · refine ⟨?_, ?_, ?_⟩
    · intro i
      have hi : i = 0 ∨ i = 1 := by omega
      obtain rfl | rfl := hi
      · simpa using h00
      · simp
        omega
    · intro i
      have hi : i = 0 ∨ i = 1 := by omega
      obtain rfl | rfl := hi
      · simp
        omega
      · simp
        omega
    · simp <;> omega
  · refine ⟨?_, ?_, ?_⟩
    · intro i
      have hi : i = 0 ∨ i = 1 := by omega
      obtain rfl | rfl := hi
      · simp
        omega
      · simpa using h01
    · intro i
      have hi : i = 0 ∨ i = 1 := by omega
      obtain rfl | rfl := hi
      · simp
        omega
      · simp
        omega
    · simp <;> omega

end Memcard

end Karphin.GCMemcard

/-!
## Every call keeps the card consistent

`ImportFile` and `RemoveFile` both overwrite the inactive directory and the inactive table with a changed copy of the
active one, and fix all checksums at the end.
-/

namespace Karphin.GCMemcard

open GCMemcardErrorCode (single)

namespace Memcard

variable {card : Memcard} {n : Nat}

structure Shape (n : Nat) (card : Memcard) : Prop where
  valid : card.valid = true
  size : card.sizeMb ∈ validMegabits
  sizeBlocks : card.sizeBlocks = card.sizeMb * mbitToBlocks
  headerSize : card.headerBlock.data.sizeMb.toNat = card.sizeMb
  headerUnused1 : card.headerBlock.unused1 = Vector.replicate 468 0xFF
  headerUnused2 : card.headerBlock.unused2 = Vector.replicate 7680 0xFF
  dataLength : card.dataBlocks.length = card.sizeBlocks - mcFstBlocks
  padding : ∀ i, (card.directoryBlocks i).padding = Vector.replicate 0x3a 0xFF
  sound : ∀ i, BlockAlloc.Sound card.sizeMb (card.batBlocks i)
  newestDirectory : Newest (fun i => (card.directoryBlocks i).updateCounter) card.activeDirectory n
  newestBat : Newest (fun i => (card.batBlocks i).updateCounter) card.activeBat n
  last : card.getActiveBat.lastAllocatedBlock ≤ card.sizeBlocks
  unused : ∀ i : Fin dirLen, (getElem card.getActiveDirectory.dirEntries i i.isLt).used = false →
    (getElem card.getActiveDirectory.dirEntries i i.isLt).firstBlock = 0xFFFF ∧
      (getElem card.getActiveDirectory.dirEntries i i.isLt).blockCount = 0xFFFF
  positive : ∀ i : Fin dirLen, (getElem card.getActiveDirectory.dirEntries i i.isLt).used = true →
    1 ≤ (getElem card.getActiveDirectory.dirEntries i i.isLt).blockCount
  chains : ∃ chain, Chains card.sizeBlocks card.getActiveDirectory card.getActiveBat chain

structure Checked (card : Memcard) : Prop where
  header : card.headerBlock.checkForErrors card.sizeMb = ∅
  dirs : ∀ i, (card.directoryBlocks i).checkForErrors = ∅
  bats : ∀ i, (card.batBlocks i).checkForErrors card.sizeMb = ∅

theorem Shape.size_le (h : Shape n card) : card.sizeBlocks ≤ 2048 ∧ 64 ≤ card.sizeBlocks := by
  have hs := h.size
  rw [h.sizeBlocks]
  simp only [validMegabits, List.mem_cons, List.not_mem_nil, or_false, mbitToBlocks] at hs ⊢
  omega

theorem Chains.congr {size : Nat} {dir dir' : Directory} {bat bat' : BlockAlloc} {chain : Fin dirLen → List Nat}
    (h : Chains size dir bat chain) (hsize : size ≤ 4092) (hdir : dir'.dirEntries = dir.dirEntries)
    (hmap : bat'.map = bat.map) : Chains size dir' bat' chain := by
  refine ⟨?_, ?_, ?_, ?_, ?_⟩
  · rw [hdir]
    exact fun i hi => (h.follows i hi).congr hsize (fun b _ => by rw [hmap])
  · rw [hdir]
    exact h.length
  · rw [hdir]
    exact h.nodup
  · rw [hdir]
    exact h.disjoint
  · rw [hdir, hmap]
    exact h.covered

/-! ## Checksums -/

theorem fixChecksums_eq (h : card.valid = true) : card.fixChecksums =
    { card with
      headerBlock := card.headerBlock.fixChecksums
      directoryBlocks := fun i => (card.directoryBlocks i).fixChecksums
      batBlocks := fun i => (card.batBlocks i).fixChecksums } := by
  rw [fixChecksums, if_pos h]

theorem getActiveDirectory_fixChecksums (h : card.valid = true) :
    card.fixChecksums.getActiveDirectory = card.getActiveDirectory.fixChecksums := by
  rw [fixChecksums_eq h]
  rfl

theorem getActiveBat_fixChecksums (h : card.valid = true) :
    card.fixChecksums.getActiveBat = card.getActiveBat.fixChecksums := by
  rw [fixChecksums_eq h]
  rfl

theorem Shape.fixChecksums (h : Shape n card) : Shape n card.fixChecksums ∧ Checked card.fixChecksums := by
  have hd := getActiveDirectory_fixChecksums h.valid
  have hb := getActiveBat_fixChecksums h.valid
  obtain ⟨chain, hc⟩ := h.chains
  have hsize : card.sizeBlocks ≤ 4092 := by
    have := h.size_le
    omega
  have hchains : Chains card.sizeBlocks card.getActiveDirectory.fixChecksums card.getActiveBat.fixChecksums chain :=
    hc.congr hsize (Directory.fixChecksums_dirEntries _) (BlockAlloc.fixChecksums_map _)
  have hsound : ∀ i, BlockAlloc.Sound card.sizeMb (card.batBlocks i).fixChecksums := fun i =>
    (h.sound i).congr (BlockAlloc.fixChecksums_map _) (BlockAlloc.fixChecksums_freeBlocks _)
  have hf := fixChecksums_eq h.valid
  constructor
  · constructor
    · rw [hf]
      exact h.valid
    · rw [hf]
      exact h.size
    · rw [hf]
      exact h.sizeBlocks
    · rw [hf]
      exact h.headerSize
    · rw [hf]
      exact h.headerUnused1
    · rw [hf]
      exact h.headerUnused2
    · rw [hf]
      exact h.dataLength
    · rw [hf]
      simpa only [Directory.fixChecksums_padding] using h.padding
    · rw [hf]
      exact hsound
    · rw [hf]
      simpa only [Directory.fixChecksums_updateCounter] using h.newestDirectory
    · rw [hf]
      simpa only [BlockAlloc.fixChecksums_updateCounter] using h.newestBat
    · rw [hb, hf, BlockAlloc.fixChecksums_lastAllocatedBlock]
      exact h.last
    · rw [hd, Directory.fixChecksums_dirEntries]
      exact h.unused
    · rw [hd, Directory.fixChecksums_dirEntries]
      exact h.positive
    · rw [hd, hb, hf]
      exact ⟨chain, hchains⟩
  · rw [hf]
    exact ⟨Header.checkForErrors_fixChecksums h.headerUnused1 h.headerUnused2 h.headerSize,
      fun i => Directory.checkForErrors_fixChecksums (h.padding i),
      fun i => BlockAlloc.checkForErrors_fixChecksums h.size (h.sound i)⟩

/-! ## The inactive blocks are overwritten -/

def replace (card : Memcard) (dir : Directory) (bat : BlockAlloc) (data : List GCMBlock) : Memcard :=
  ({ card.updateDirectory dir with dataBlocks := data } : Memcard).updateBat bat

theorem directoryBlocks_replace (dir : Directory) (bat : BlockAlloc) (data : List GCMBlock) :
    (card.replace dir bat data).directoryBlocks =
      Function.update card.directoryBlocks (if card.activeDirectory = 0 then 1 else 0) dir := rfl

theorem batBlocks_replace (dir : Directory) (bat : BlockAlloc) (data : List GCMBlock) :
    (card.replace dir bat data).batBlocks = Function.update card.batBlocks (if card.activeBat = 0 then 1 else 0) bat := rfl

theorem getActiveDirectory_replace (dir : Directory) (bat : BlockAlloc) (data : List GCMBlock) :
    (card.replace dir bat data).getActiveDirectory = dir := by
  rw [getActiveDirectory, directoryBlocks_replace]
  exact Function.update_self ..

theorem getActiveBat_replace (dir : Directory) (bat : BlockAlloc) (data : List GCMBlock) :
    (card.replace dir bat data).getActiveBat = bat := by
  rw [getActiveBat, batBlocks_replace]
  exact Function.update_self ..

theorem forall_update {α : Type} {p : α → Prop} {f : Fin 2 → α} {k : Fin 2} {x : α} (hx : p x) (hf : ∀ i, p (f i))
    (i : Fin 2) : p (Function.update f k x i) := by
  by_cases hi : i = k
  · subst hi
    rwa [Function.update_self]
  · rw [Function.update_of_ne hi]
    exact hf i

theorem comp_update {α β : Type} (g : α → β) (f : Fin 2 → α) (k : Fin 2) (x : α) :
    (fun i => g (Function.update f k x i)) = Function.update (fun i => g (f i)) k (g x) := by
  funext i
  by_cases hi : i = k
  · subst hi
    rw [Function.update_self, Function.update_self]
  · rw [Function.update_of_ne hi, Function.update_of_ne hi]

theorem Shape.replace {dir : Directory} {bat : BlockAlloc} {data : List GCMBlock} (h : Shape n card) (hn : n < 32767)
    (hdir : dir.updateCounter = nextCounter card.getActiveDirectory.updateCounter)
    (hpad : dir.padding = Vector.replicate 0x3a 0xFF)
    (hbat : bat.updateCounter = nextCounter card.getActiveBat.updateCounter)
    (hsound : BlockAlloc.Sound card.sizeMb bat) (hlast : bat.lastAllocatedBlock ≤ card.sizeBlocks)
    (hdata : data.length = card.dataBlocks.length)
    (hunused : ∀ i : Fin dirLen, (getElem dir.dirEntries i i.isLt).used = false →
      (getElem dir.dirEntries i i.isLt).firstBlock = 0xFFFF ∧ (getElem dir.dirEntries i i.isLt).blockCount = 0xFFFF)
    (hpos : ∀ i : Fin dirLen, (getElem dir.dirEntries i i.isLt).used = true →
      1 ≤ (getElem dir.dirEntries i i.isLt).blockCount)
    (hchains : ∃ chain, Chains card.sizeBlocks dir bat chain) : Shape (n + 1) (card.replace dir bat data) := by
  constructor
  · exact h.valid
  · exact h.size
  · exact h.sizeBlocks
  · exact h.headerSize
  · exact h.headerUnused1
  · exact h.headerUnused2
  · exact hdata.trans h.dataLength
  · rw [directoryBlocks_replace]
    exact forall_update (p := fun d : Directory => d.padding = Vector.replicate 0x3a 0xFF) hpad h.padding
  · rw [batBlocks_replace]
    exact forall_update hsound h.sound
  · apply h.newestDirectory.update hn
    rw [directoryBlocks_replace, comp_update Directory.updateCounter, hdir]
    rfl
  · apply h.newestBat.update hn
    rw [batBlocks_replace, comp_update BlockAlloc.updateCounter, hbat]
    rfl
  · rw [getActiveBat_replace]
    exact hlast
  · rw [getActiveDirectory_replace]
    exact hunused
  · rw [getActiveDirectory_replace]
    exact hpos
  · rw [getActiveDirectory_replace, getActiveBat_replace]
    exact hchains

/-! ## A new card -/

theorem freeCount_zero (size : Nat) {bat : BlockAlloc} (h : ∀ k, bat.map k = 0) :
    freeCount size bat = size - mcFstBlocks := by
  simp [freeCount, h]

theorem sound_initial (sizeMbits : Nat) : BlockAlloc.Sound sizeMbits
    { freeBlocks := mbitToFreeBlocks sizeMbits, lastAllocatedBlock := 4 } := by
  constructor
  · rw [freeCount_zero _ (fun _ => rfl)]
    rfl
  · exact fun _ _ => rfl

theorem sound_create (sizeMbits : Nat) : BlockAlloc.Sound sizeMbits (.create sizeMbits) := by
  rw [BlockAlloc.create]
  exact (sound_initial sizeMbits).congr (BlockAlloc.fixChecksums_map _) (BlockAlloc.fixChecksums_freeBlocks _)

theorem create_counters (sizeMbits : Nat) : (BlockAlloc.create sizeMbits).updateCounter = 0 ∧
    (BlockAlloc.create sizeMbits).lastAllocatedBlock = 4 ∧ ∀ k, (BlockAlloc.create sizeMbits).map k = 0 := by
  simp [BlockAlloc.create]

section Create

variable {flashId : Vector UInt8 12} {sizeMbits : UInt16} {shiftJis : Bool} {rtcBias sramLanguage : UInt32}
  {formatTime : UInt64}

theorem used_default : DEntry.used {} = false := by
  simp [DEntry.used, DEntry.uninitializedGamecode]

theorem getElem_default (i : Fin dirLen) : getElem ({} : Directory).dirEntries i i.isLt = {} := by
  simp

theorem shape_create (hsize : sizeMbits.toNat ∈ validMegabits) :
    Shape 0 (create flashId sizeMbits shiftJis rtcBias sramLanguage formatTime) := by
  obtain ⟨hcounter, hlast, hmap⟩ := create_counters sizeMbits.toNat
  have hunused (i : Fin dirLen) : ({} : Directory).dirEntries[i].used = false := by
    rw [getElem_default]
    exact used_default
  have hnone {p : Prop} (i : Fin dirLen) (hu : ({} : Directory).dirEntries[i].used = true) : p := by
    rw [hunused i] at hu
    cases hu
  constructor
  · rfl
  · exact hsize
  · rfl
  · simp only [create, Header.create, Header.fixChecksums_data, initializeHeaderData]
  · simp only [create, Header.create, Header.fixChecksums_unused1]
  · simp only [create, Header.create, Header.fixChecksums_unused2]
  · exact List.length_replicate
  · exact fun _ => rfl
  · exact fun _ => sound_create _
  · exact ⟨fun _ => le_refl _, fun _ => le_refl _, rfl⟩
  · simp only [create, hcounter]
    exact ⟨fun _ => le_refl _, fun _ => le_refl _, rfl⟩
  · simp only [create, getActiveBat, hlast]
    simp only [validMegabits, List.mem_cons, List.not_mem_nil, or_false] at hsize
    simp only [mbitToBlocks]
    omega
  · intro i _
    exact ⟨congrArg DEntry.firstBlock (getElem_default i), congrArg DEntry.blockCount (getElem_default i)⟩
  · exact fun i hu => hnone i hu
  · refine ⟨fun _ => [], fun i hu => hnone i hu, fun i hu => hnone i hu, fun i hu => hnone i hu,
      fun i _ hu => hnone i hu, fun k hk => absurd (hmap k) hk⟩

theorem checked_create (hsize : sizeMbits.toNat ∈ validMegabits) :
    Checked (create flashId sizeMbits shiftJis rtcBias sramLanguage formatTime) := by
  constructor
  · exact Header.checkForErrors_fixChecksums rfl rfl rfl
  · exact fun _ => Directory.checkForErrors_default
  · exact fun _ => BlockAlloc.checkForErrors_fixChecksums hsize (sound_initial _)

end Create

end Memcard

end Karphin.GCMemcard
