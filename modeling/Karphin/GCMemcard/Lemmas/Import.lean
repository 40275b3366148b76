import Karphin.GCMemcard.Lemmas.Opened

/-!
# Imports of unchecked save files

An import overwrites the inactive directory and the inactive table. Whether the card is opened without an error depends
on which of the old and the new ones have the greater update counters, and on whether the chain of the new entry is in
the table that is read.
-/

namespace Karphin.GCMemcard

open GCMemcardErrorCode (single)

/-! ## The blocks of a save file -/

theorem readBlocksFromIOFile_length : ∀ {count : Nat} {file : List UInt8} {blocks : List GCMBlock},
    readBlocksFromIOFile count file = some blocks → blocks.length = count
  | 0, file, blocks, h => by
      simp only [readBlocksFromIOFile, Option.some.injEq] at h
      rw [← h]
      rfl
  | count + 1, file, blocks, h => by
      simp only [readBlocksFromIOFile] at h
      split at h
      · cases h
      · obtain ⟨rest, hrest, rfl⟩ := Option.map_eq_some_iff.mp h
        rw [List.length_cons, readBlocksFromIOFile_length hrest]

theorem readBlocks_ok {file : List UInt8} {headerSize blockCount : Nat} {dirEntry : DEntry} {savefile : Savefile}
    (h : readBlocks file headerSize blockCount dirEntry = .ok savefile) :
    savefile.blocks.length = blockCount ∧ savefile.dirEntry = dirEntry := by
  rw [readBlocks] at h
  split at h
  · cases h
  · next blocks hblocks =>
      cases h
      exact ⟨readBlocksFromIOFile_length hblocks, rfl⟩

theorem readSavefile_blocks {file : List UInt8} {savefile : Savefile} (h : readSavefile file = .ok savefile) :
    savefile.dirEntry.blockCount ≤ savefile.blocks.length := by
  rw [readSavefile] at h
  split at h
  · simp only [readSavefileInternalGCI] at h
    split at h
    · cases h
    split at h
    · cases h
    obtain ⟨hlen, hentry⟩ := readBlocks_ok h
    rw [hlen, hentry]
  split at h
  · simp only [readSavefileInternalGCS] at h
    split at h
    · cases h
    split at h
    · cases h
    split at h
    · cases h
    obtain ⟨hlen, hentry⟩ := readBlocks_ok h
    rw [hlen, hentry]
    exact Nat.mod_le _ _
  split at h
  · simp only [readSavefileInternalSAV] at h
    split at h
    · cases h
    split at h
    · cases h
    split at h
    · cases h
    obtain ⟨hlen, hentry⟩ := readBlocks_ok h
    rw [hlen, hentry]
  · cases h

theorem usedIndexes_lt {savefile : Savefile} (h : savefile.dirEntry.blockCount ≤ savefile.blocks.length) :
    (∀ i ∈ savefile.usedIndexes, i < savefile.blocks.length) ↔
      (savefile.dirEntry.isPsoSystem = true → 2 ≤ savefile.blocks.length) := by
  simp only [Savefile.usedIndexes, List.mem_append, or_imp, forall_and]
  constructor
  · rintro ⟨⟨-, hpso⟩, -⟩ hname
    rw [if_pos hname] at hpso
    exact hpso 1 (List.mem_singleton_self 1)
  · intro hpso
    refine ⟨⟨?_, ?_⟩, ?_⟩
    · intro i hi
      split at hi
      · next hfzero =>
          simp only [Bool.and_eq_true, decide_eq_true_eq] at hfzero
          simp only [List.mem_cons, List.not_mem_nil, or_false] at hi
          omega
      · cases hi
    · intro i hi
      split at hi
      · next hname =>
          rw [List.mem_singleton.mp hi]
          exact hpso hname
      · cases hi
    · intro i hi
      exact (List.mem_range.mp hi).trans_le h

/-! ## The newer one of two blocks -/

def newer (counter : Fin 2 → Int) : Fin 2 := if counter 0 ≥ counter 1 then 0 else 1

def other (active : Fin 2) : Fin 2 := if active = 0 then 1 else 0

theorem nextCounter_ne (c : Int) : nextCounter c ≠ c := by
  simp only [nextCounter, Int.bmod_def]
  omega

theorem newer_update {counter : Fin 2 → Int} {active : Fin 2} (h : newer counter = active) :
    newer (Function.update counter (other active) (nextCounter (counter active))) =
      if counter active < nextCounter (counter active) then other active else active := by
  have hne := nextCounter_ne (counter active)
  subst h
  by_cases hge : counter 0 ≥ counter 1
  · have h0 : newer counter = 0 := if_pos hge
    rw [h0] at hne ⊢
    by_cases hlt : counter 0 < nextCounter (counter 0)
    · simp [newer, other, hlt, not_le.mpr hlt]
    · simp [newer, other, hlt, not_lt.mp hlt]
  · have h1 : newer counter = 1 := if_neg hge
    rw [h1] at hne ⊢
    by_cases hlt : counter 1 < nextCounter (counter 1)
    · simp [newer, other, hlt, hlt.le]
    · have hlt' : nextCounter (counter 1) < counter 1 := lt_of_le_of_ne (not_lt.mp hlt) hne
      simp [newer, other, hlt, not_le.mpr hlt']

/-! ## Cards without an error -/

namespace Memcard

variable {card : Memcard}

structure Sized (card : Memcard) : Prop where
  valid : card.valid = true
  size : card.sizeMb ∈ validMegabits
  sizeBlocks : card.sizeBlocks = card.sizeMb * mbitToBlocks
  dataLength : card.dataBlocks.length = card.sizeBlocks - mcFstBlocks

/-- What `Open` has checked of a card that it gives without an error. -/
structure Errorless (card : Memcard) : Prop extends Sized card, Checked card where
  newerDirectory : newer (fun i => (card.directoryBlocks i).updateCounter) = card.activeDirectory
  newerBat : newer (fun i => (card.batBlocks i).updateCounter) = card.activeBat
  consistent : card.getActiveDirectory.checkForErrorsWithBat card.getActiveBat = ∅

theorem Valid.errorless (h : card.Valid) : card.Errorless := by
  have ho := openFile_some h
  have herrors := ho.errors_eq.symm
  simp only [Finset.union_eq_empty] at herrors
  obtain ⟨⟨⟨⟨⟨hheader, hdir0⟩, hdir1⟩, hbat0⟩, hbat1⟩, hwith⟩ := herrors
  have hdata : card.dataBlocks.length = card.sizeBlocks - mcFstBlocks := by
    rw [ho.dataBlocks]
    simp [save]
  refine { valid := ho.valid, size := ho.size, sizeBlocks := ho.sizeBlocks, dataLength := hdata, header := hheader,
           dirs := ?_, bats := ?_, newerDirectory := ?_, newerBat := ?_, consistent := hwith }
  · exact Fin.forall_fin_two.mpr ⟨hdir0, hdir1⟩
  · exact Fin.forall_fin_two.mpr ⟨hbat0, hbat1⟩
  · exact ho.activeDirectory.symm
  · exact ho.activeBat.symm

/-- The card with the directory and the table that `Open` makes the active ones. -/
def reopened (card : Memcard) : Memcard :=
  { card with
    activeDirectory := newer (fun i => (card.directoryBlocks i).updateCounter)
    activeBat := newer (fun i => (card.batBlocks i).updateCounter) }

theorem loaded_save (h : Sized card) : loaded card.save card.sizeMb = card.reopened := by
  have hdata : card.dataBlocks.take (card.sizeBlocks - mcFstBlocks) = card.dataBlocks := by
    rw [← h.dataLength]
    exact List.take_length
  simp only [loaded, save_dataBlocks h.dataLength, ← h.sizeBlocks, hdata, ← h.valid]
  rfl

theorem openFile_checked (h : Sized card) (hc : Checked card) :
    (∃ card', openFile card.save = (∅, some card')) ↔
      card.reopened.getActiveDirectory.checkForErrorsWithBat card.reopened.getActiveBat = ∅ := by
  have hintact : Intact card.save card.sizeMb := by
    refine ⟨bytesToMegabits_save h.sizeBlocks h.size h.dataLength, h.size, ?_, ?_, ?_⟩
    · exact (congrArg _ hc.header).trans hasCriticalErrors_empty
    · exact fun i => (congrArg _ (hc.dirs i)).trans hasCriticalErrors_empty
    · exact fun i => (congrArg _ (hc.bats i)).trans hasCriticalErrors_empty
  have herrors : loadErrors card.save card.sizeMb =
      card.reopened.getActiveDirectory.checkForErrorsWithBat card.reopened.getActiveBat := by
    simp only [loadErrors, loaded_save h]
    simp only [save, hc.header, hc.dirs, hc.bats, Finset.empty_union]
  rw [openFile_intact hintact, herrors, loaded_save h]
  constructor
  · rintro ⟨card', heq⟩
    split at heq
    · exact absurd (congrArg Prod.snd heq) (by simp)
    · exact congrArg Prod.fst heq
  · intro heq
    rw [heq, hasCriticalErrors_empty]
    exact ⟨_, rfl⟩

theorem checkForErrorsWithBat_eq_empty {dir : Directory} {bat : BlockAlloc} :
    dir.checkForErrorsWithBat bat = ∅ ↔ ∀ i : Fin dirLen, (getElem dir.dirEntries i i.isLt).used = true →
      Directory.batBlockCountMatches bat (getElem dir.dirEntries i i.isLt).blockCount
        (getElem dir.dirEntries i i.isLt).firstBlock = true := by
  rw [Directory.checkForErrorsWithBat, single_eq_empty, List.any_eq_false]
  apply forall_congr'
  intro i
  cases dir.dirEntries[i].used <;> simp

/-! ## Chains in a table with more entries -/

theorem batBlockCountMatches_mono {bat bat' : BlockAlloc} (hmap : ∀ k, bat.map k ≠ 0 → bat'.map k = bat.map k) :
    ∀ {count first : Nat}, Directory.batBlockCountMatches bat count first = true →
      Directory.batBlockCountMatches bat' count first = true
  | 0, first, h => h
  | count + 1, first, h => by
      simp only [Directory.batBlockCountMatches] at h ⊢
      have hnext : bat.getNextBlock first ≠ 0 → bat'.getNextBlock first = bat.getNextBlock first := by
        intro hne
        simp only [BlockAlloc.getNextBlock] at hne ⊢
        split at hne
        · exact absurd rfl hne
        · next hrange =>
            rw [if_neg hrange, if_neg hrange]
            exact hmap _ hne
      split at h
      · cases h
      next hne =>
      rw [hnext hne, if_neg hne]
      split at h
      · next hend =>
          rw [if_pos hend]
          exact h
      · next hmore =>
          rw [if_neg hmore]
          exact batBlockCountMatches_mono hmap h

theorem batBlockCountMatches_congr {bat bat' : BlockAlloc} (hmap : bat'.map = bat.map) (count first : Nat) :
    Directory.batBlockCountMatches bat' count first = Directory.batBlockCountMatches bat count first := by
  apply Bool.eq_iff_iff.mpr
  constructor
  · exact batBlockCountMatches_mono (fun k _ => (congrFun hmap k).symm)
  · exact batBlockCountMatches_mono (fun k _ => congrFun hmap k)

theorem batBlockCountMatches_free {bat : BlockAlloc} {count first : Nat} (h : bat.isFree first = true) :
    Directory.batBlockCountMatches bat count first = false := by
  cases count with
  | zero => rfl
  | succ count =>
      have hnext : bat.getNextBlock first = 0 := by
        rw [BlockAlloc.getNextBlock]
        split
        · rfl
        · exact BlockAlloc.isFree_iff.mp h
      simp [Directory.batBlockCountMatches, hnext]

theorem nextFreeBlock_free {bat : BlockAlloc} {size start b : Nat} (hfree : 0 < bat.freeBlocks)
    (hsize : size ≤ batSize + mcFstBlocks) (hb : mcFstBlocks ≤ b) (hbs : b < size) (hbfree : bat.isFree b = true) :
    mcFstBlocks ≤ bat.nextFreeBlock size start ∧ bat.nextFreeBlock size start < size ∧
      bat.isFree (bat.nextFreeBlock size start) = true := by
  have hstart : mcFstBlocks ≤ BlockAlloc.clampBlock start := le_max_left _ _
  have hmax : BlockAlloc.clampBlock size = size := by
    simp only [BlockAlloc.clampBlock]
    omega
  simp only [BlockAlloc.nextFreeBlock, if_pos hfree, hmax]
  generalize BlockAlloc.clampBlock start = from' at hstart
  split
  · next i hi =>
      obtain ⟨h1, h2, h3⟩ := BlockAlloc.find_range_some hi
      exact ⟨by omega, by omega, h3⟩
  · next hnone =>
      have hbefore : b < from' := by
        by_contra hlt
        have := BlockAlloc.find_range_none hnone (not_lt.mp hlt) (by omega)
        rw [hbfree] at this
        cases this
      -- the search goes past the end of the card only if all of its blocks are taken
      have hsplit : List.range' mcFstBlocks (from' - mcFstBlocks) =
          List.range' mcFstBlocks (b + 1 - mcFstBlocks) ++ List.range' (b + 1) (from' - (b + 1)) := by
        rw [List.range'_eq_append_iff]
        exact ⟨b + 1 - mcFstBlocks, by omega, rfl, by congr 1 <;> omega⟩
      have hsome : ((List.range' mcFstBlocks (b + 1 - mcFstBlocks)).find? bat.isFree).isSome = true :=
        List.find?_isSome.2 ⟨b, List.mem_range'_1.2 ⟨hb, by omega⟩, hbfree⟩
      obtain ⟨r, hr⟩ := Option.isSome_iff_exists.1 hsome
      obtain ⟨h1, h2, h3⟩ := BlockAlloc.find_range_some hr
      rw [hsplit, List.find?_append, hr]
      simp only [Option.some_or]
      exact ⟨h1, by omega, h3⟩

/-! ## What an import does to the table -/

/-- The table and the data after the loop of an import of any number of blocks. -/
structure Extended (size count first : Nat) (bat : BlockAlloc) (data : List GCMBlock) (bat' : BlockAlloc)
    (data' : List GCMBlock) : Prop where
  freeBlocks : bat'.freeBlocks = bat.freeBlocks
  updateCounter : bat'.updateCounter = bat.updateCounter
  free : freeCount size bat' + count = freeCount size bat
  taken : ∀ k, bat.map k ≠ 0 → bat'.map k = bat.map k
  behind : ∀ k, size - mcFstBlocks ≤ k → bat'.map k = bat.map k
  dataLength : data'.length = data.length
  chain : 1 ≤ count → Directory.batBlockCountMatches bat' count first = true

theorem copyBlocks_extended {size count first : Nat} {bat : BlockAlloc} {blocks data : List GCMBlock}
    (hsize : size ≤ 4092) (hdata : data.length = size - mcFstBlocks) (hfree : 0 < bat.freeBlocks)
    (h1 : mcFstBlocks ≤ first) (h2 : first < size) (h3 : bat.isFree first = true) (hcount : count ≤ freeCount size bat) :
    Extended size count first bat data (copyBlocks size blocks count 0 first bat data).1
      (copyBlocks size blocks count 0 first bat data).2 := by
  cases count with
  | zero => exact ⟨rfl, rfl, rfl, fun _ _ => rfl, fun _ _ => rfl, rfl, fun h => absurd h (by omega)⟩
  | succ remaining =>
      obtain ⟨new, ha⟩ := @copyBlocks_allocated size blocks hsize remaining 0 first bat data hdata hfree h1 h2
        (BlockAlloc.isFree_iff.mp h3) hcount
      refine ⟨ha.freeBlocks, ha.updateCounter, ha.count, ?_, ?_, ha.dataLength, ?_⟩
      · intro k hk
        apply ha.frame
        intro hmem
        exact hk (ha.free _ hmem)
      · intro k hk
        apply ha.frame
        intro hmem
        have := (ha.range _ hmem).2
        omega
      · intro _
        have hne : new ≠ [] := by
          rintro rfl
          exact absurd ha.length (by simp)
        have hm := ha.follows.batBlockCountMatches hsize hne
        rwa [ha.length] at hm

/-! ## The card after an import -/

section Replace

variable {dir : Directory} {bat : BlockAlloc} {data : List GCMBlock}

theorem checkForErrors_fixChecksums_header {h : Header} {sizeMbits : Nat} (hc : h.checkForErrors sizeMbits = ∅) :
    h.fixChecksums.checkForErrors sizeMbits = ∅ := by
  have hsum : h.fixChecksums.calculateChecksums = (h.fixChecksums.checksum, h.fixChecksums.checksumInv) := rfl
  simp only [Header.checkForErrors, Finset.union_eq_empty] at hc
  rw [Header.checkForErrors, hsum, Header.fixChecksums_unused1, Header.fixChecksums_unused2, Header.fixChecksums_data,
    hc.1.1, hc.1.2]
  simp [single]

theorem checkForErrors_fixChecksums_padding {dir dir' : Directory} (hpad : dir'.padding = dir.padding)
    (hc : dir.checkForErrors = ∅) : dir'.fixChecksums.checkForErrors = ∅ := by
  have hsum : dir'.fixChecksums.calculateChecksums = (dir'.fixChecksums.checksum, dir'.fixChecksums.checksumInv) := rfl
  simp only [Directory.checkForErrors, Finset.union_eq_empty] at hc
  rw [Directory.checkForErrors, hsum, Directory.fixChecksums_padding, hpad, hc.2]
  simp [single]

theorem Sized.replace (h : Sized card) (hdata : data.length = card.dataBlocks.length) :
    Sized (card.replace dir bat data).fixChecksums := by
  rw [fixChecksums_eq (replace_valid h.valid)]
  exact ⟨h.valid, h.size, h.sizeBlocks, hdata.trans h.dataLength⟩

theorem Errorless.replace (h : Errorless card) (hpad : dir.padding = card.getActiveDirectory.padding)
    (hbat : bat.fixChecksums.checkForErrors card.sizeMb = ∅) : Checked (card.replace dir bat data).fixChecksums := by
  rw [fixChecksums_eq (replace_valid h.valid)]
  have hold : ∀ i, (card.batBlocks i).fixChecksums.checkForErrors card.sizeMb = ∅ := by
    intro i
    obtain ⟨hfree, hunused⟩ := BlockAlloc.checkForErrors_eq_empty h.size (h.bats i)
    rw [BlockAlloc.checkForErrors_fixChecksums_eq h.size hfree, hunused]
    rfl
  constructor
  · exact checkForErrors_fixChecksums_header h.header
  · exact forall_update (p := fun d : Directory => d.fixChecksums.checkForErrors = ∅)
      (checkForErrors_fixChecksums_padding hpad (h.dirs _))
      (fun i => checkForErrors_fixChecksums_padding rfl (h.dirs i))
  · exact forall_update (p := fun b : BlockAlloc => b.fixChecksums.checkForErrors card.sizeMb = ∅) hbat hold

theorem update_newer {α : Type} (g : α → Int) {f : Fin 2 → α} {active : Fin 2} (h : newer (fun i => g (f i)) = active)
    {x : α} (hx : g x = nextCounter (g (f active))) :
    Function.update f (other active) x (newer (fun i => g (Function.update f (other active) x i))) =
      if g (f active) < nextCounter (g (f active)) then x else f active := by
  rw [comp_update, hx, newer_update h]
  split
  · exact Function.update_self ..
  · apply Function.update_of_ne
    rw [other]
    split <;> omega

theorem reopened_directory (h : Errorless card)
    (hdir : dir.updateCounter = nextCounter card.getActiveDirectory.updateCounter) :
    (card.replace dir bat data).fixChecksums.reopened.getActiveDirectory.dirEntries =
      if card.getActiveDirectory.updateCounter < nextCounter card.getActiveDirectory.updateCounter then dir.dirEntries
      else card.getActiveDirectory.dirEntries := by
  have hnew := update_newer Directory.updateCounter h.newerDirectory hdir
  rw [fixChecksums_eq (replace_valid h.valid)]
  simp only [getActiveDirectory, reopened, Directory.fixChecksums_updateCounter, Directory.fixChecksums_dirEntries,
    directoryBlocks_replace]
  exact (congrArg Directory.dirEntries hnew).trans (apply_ite Directory.dirEntries _ _ _)

theorem reopened_bat (h : Errorless card) (hbat : bat.updateCounter = nextCounter card.getActiveBat.updateCounter) :
    (card.replace dir bat data).fixChecksums.reopened.getActiveBat.map =
      if card.getActiveBat.updateCounter < nextCounter card.getActiveBat.updateCounter then bat.map
      else card.getActiveBat.map := by
  have hnew := update_newer BlockAlloc.updateCounter h.newerBat hbat
  rw [fixChecksums_eq (replace_valid h.valid)]
  simp only [getActiveBat, reopened, BlockAlloc.fixChecksums_updateCounter, BlockAlloc.fixChecksums_map,
    batBlocks_replace]
  exact (congrArg BlockAlloc.map hnew).trans (apply_ite BlockAlloc.map _ _ _)

end Replace

/-! ## Which imports succeed -/

variable {savefile : Savefile}

theorem importFile_refused (h : card.refuses savefile = true) :
    (card.importFile savefile).1 ≠ .success ∧ (card.importFile savefile).2 = card := by
  obtain hfail | ⟨first, hs, hfiles, hfree, hfirst, hne, -⟩ := importFile_cases card savefile
  · exact hfail
  have hnone : card.getActiveBat.freeBlocks ≠ 0 := by
    intro hzero
    rw [BlockAlloc.nextFreeBlock, if_neg (by omega)] at hfirst
    exact hne hfirst
  have htitle : card.titlePresent savefile.dirEntry = true := by
    simp only [refuses, Bool.or_eq_true, decide_eq_true_eq] at h
    obtain ((h | h) | h) | h := h
    · omega
    · omega
    · exact h
    · exact absurd h hnone
  constructor
  · simp only [importFile, htitle]
    grind
  · simp only [importFile, htitle]
    grind

/-- The entry, the block and the table of an import that is not refused. -/
structure Accepted (card : Memcard) (savefile : Savefile) (k : Fin dirLen) (firstBlock : Nat) (bat : BlockAlloc)
    (data : List GCMBlock) : Prop where
  success : (card.importFile savefile).1 = .success
  unused : (getElem card.getActiveDirectory.dirEntries k k.isLt).used = false
  free : card.getActiveBat.isFree firstBlock = true
  enough : savefile.dirEntry.blockCount ≤ card.getActiveBat.freeBlocks
  extended : Extended card.sizeBlocks savefile.dirEntry.blockCount firstBlock card.getActiveBat card.dataBlocks bat data
  eq : (card.importFile savefile).2 =
    (card.replace (importedDirectory card savefile k firstBlock) (importedBat savefile bat) data).fixChecksums

theorem importFile_success (hvalid : card.valid = true) (hfiles : ¬ card.getNumFiles ≥ dirLen)
    (henough : ¬ card.getActiveBat.freeBlocks < savefile.dirEntry.blockCount)
    (htitle : card.titlePresent savefile.dirEntry = false)
    (hfirst : card.getActiveBat.nextFreeBlock card.sizeBlocks card.getActiveBat.lastAllocatedBlock ≠ 0xFFFF) :
    (card.importFile savefile).1 = .success := by
  simp only [importFile, hvalid, htitle, Bool.not_true, Bool.false_eq_true, if_false]
  rw [if_neg hfiles, if_neg henough, if_neg hfirst]

theorem Errorless.accepted (h : Errorless card) (hr : card.refuses savefile = false) :
    ∃ k firstBlock bat data, Accepted card savefile k firstBlock bat data := by
  simp only [refuses, Bool.or_eq_false_iff, decide_eq_false_iff_not] at hr
  obtain ⟨⟨⟨hfiles, henough⟩, htitle⟩, hzero⟩ := hr
  obtain ⟨hcount, -⟩ := BlockAlloc.checkForErrors_eq_empty h.size (h.bats card.activeBat)
  have hfree : card.getActiveBat.freeBlocks = freeCount card.sizeBlocks card.getActiveBat := by
    rw [h.sizeBlocks]
    exact hcount
  have hsize : card.sizeBlocks ≤ 2048 := by
    have hs := h.size
    rw [h.sizeBlocks]
    simp only [validMegabits, List.mem_cons, List.not_mem_nil, or_false, mbitToBlocks] at hs ⊢
    omega
  obtain ⟨j, hj, hj0⟩ := exists_of_countP_pos card.getActiveBat.map (n := card.sizeBlocks - mcFstBlocks) (by
    rw [freeCount] at hfree
    omega)
  obtain ⟨h1, h2, h3⟩ := @nextFreeBlock_free card.getActiveBat card.sizeBlocks card.getActiveBat.lastAllocatedBlock
    (j + mcFstBlocks) (by omega) (by simp only [batSize]; omega) (by omega) (by omega)
    (by rw [BlockAlloc.isFree_iff, Nat.add_sub_cancel]; exact hj0)
  obtain ⟨hfail, -⟩ | ⟨first, hs, hless, -, hfirst, -, heq⟩ := importFile_cases card savefile
  · exact absurd (importFile_success h.valid hfiles henough htitle (by omega)) hfail
  rw [← hfirst] at h1 h2 h3
  obtain ⟨k, hk, hunused⟩ := find_unused h.valid hless
  have hext := @copyBlocks_extended card.sizeBlocks savefile.dirEntry.blockCount first card.getActiveBat
    (card.validBlocks savefile) card.dataBlocks (by omega) h.dataLength (by omega) h1 h2 h3 (by omega)
  exact ⟨k, first, _, _, hs, hunused, h3, by omega, hext, heq k hk⟩

theorem Accepted.checked {k : Fin dirLen} {firstBlock : Nat} {bat : BlockAlloc} {data : List GCMBlock}
    (h : Errorless card) (ha : Accepted card savefile k firstBlock bat data) :
    Sized (card.importFile savefile).2 ∧ Checked (card.importFile savefile).2 := by
  obtain ⟨hfree, hunused⟩ := BlockAlloc.checkForErrors_eq_empty h.size (h.bats card.activeBat)
  have hcount : (importedBat savefile bat).freeBlocks =
      freeCount (card.sizeMb * mbitToBlocks) (importedBat savefile bat) := by
    have hext := ha.extended.free
    have hold : card.getActiveBat.freeBlocks = freeCount card.sizeBlocks card.getActiveBat := by
      rw [h.sizeBlocks]
      exact hfree
    have hnew : freeCount card.sizeBlocks (importedBat savefile bat) = freeCount card.sizeBlocks bat := rfl
    rw [← h.sizeBlocks, hnew]
    simp only [importedBat, ha.extended.freeBlocks]
    omega
  have hbehind : (importedBat savefile bat).hasUnusedData card.sizeMb = false := by
    rw [← hunused]
    apply Bool.eq_iff_iff.mpr
    simp only [BlockAlloc.hasUnusedData, List.any_eq_true, List.mem_range'_1]
    apply exists_congr
    intro j
    apply and_congr_right
    intro hj
    have hmap : (importedBat savefile bat).map j = card.getActiveBat.map j := by
      apply ha.extended.behind
      rw [h.sizeBlocks]
      exact hj.1
    rw [hmap]
    rfl
  rw [ha.eq]
  constructor
  · exact h.toSized.replace ha.extended.dataLength
  · have hpad : (importedDirectory card savefile k firstBlock).padding = card.getActiveDirectory.padding := rfl
    apply h.replace hpad
    rw [BlockAlloc.checkForErrors_fixChecksums_eq h.size hcount, hbehind]
    rfl

theorem Accepted.matches_new {k : Fin dirLen} {firstBlock : Nat} {bat : BlockAlloc} {data : List GCMBlock}
    (ha : Accepted card savefile k firstBlock bat data) {map : Nat → Nat} {p : Prop} [Decidable p]
    (hmap : map = if p then bat.map else card.getActiveBat.map) {bat' : BlockAlloc} (hbat : bat'.map = map) :
    Directory.batBlockCountMatches bat' savefile.dirEntry.blockCount firstBlock = true ↔
      1 ≤ savefile.dirEntry.blockCount ∧ p := by
  subst hmap
  by_cases hp : p
  · rw [if_pos hp] at hbat
    rw [batBlockCountMatches_congr hbat]
    simp only [hp, and_true]
    constructor
    · intro hm
      by_contra hzero
      have h0 : savefile.dirEntry.blockCount = 0 := by omega
      rw [h0] at hm
      cases hm
    · exact ha.extended.chain
  · rw [if_neg hp] at hbat
    rw [batBlockCountMatches_congr hbat, batBlockCountMatches_free ha.free]
    simp [hp]

theorem Accepted.reopens {k : Fin dirLen} {firstBlock : Nat} {bat : BlockAlloc} {data : List GCMBlock}
    (h : Errorless card) (ha : Accepted card savefile k firstBlock bat data) :
    (∃ card', openFile (card.importFile savefile).2.save = (∅, some card')) ↔
      (¬ card.getActiveDirectory.updateCounter < nextCounter card.getActiveDirectory.updateCounter ∨
        savefile.dirEntry.used = false ∨ 1 ≤ savefile.dirEntry.blockCount ∧
          card.getActiveBat.updateCounter < nextCounter card.getActiveBat.updateCounter) := by
  obtain ⟨hsized, hchecked⟩ := ha.checked h
  rw [openFile_checked hsized hchecked, checkForErrorsWithBat_eq_empty]
  have hdir := @reopened_directory card (importedDirectory card savefile k firstBlock) (importedBat savefile bat) data h rfl
  have hbat := @reopened_bat card (importedDirectory card savefile k firstBlock) (importedBat savefile bat) data h
    (congrArg nextCounter ha.extended.updateCounter)
  rw [← ha.eq] at hdir hbat
  generalize (card.importFile savefile).2.reopened.getActiveDirectory = dir' at hdir
  generalize (card.importFile savefile).2.reopened.getActiveBat = bat' at hbat
  -- the files that were there before match both tables
  have hold : ∀ i : Fin dirLen, card.getActiveDirectory.dirEntries[i].used = true →
      Directory.batBlockCountMatches bat' card.getActiveDirectory.dirEntries[i].blockCount
        card.getActiveDirectory.dirEntries[i].firstBlock = true := by
    intro i hi
    refine batBlockCountMatches_mono ?_ (checkForErrorsWithBat_eq_empty.mp h.consistent i hi)
    intro j hj
    rw [hbat]
    split
    · exact ha.extended.taken j hj
    · rfl
  by_cases hwrap : card.getActiveDirectory.updateCounter < nextCounter card.getActiveDirectory.updateCounter
  · rw [if_pos hwrap] at hdir
    have hself : dir'.dirEntries[k] = newEntry savefile.dirEntry firstBlock := by
      rw [hdir]
      exact setEntry_self ..
    have hnew := ha.matches_new rfl hbat
    simp only [hwrap, not_true_eq_false, false_or]
    constructor
    · intro hall
      cases hu : savefile.dirEntry.used with
      | false => exact .inl rfl
      | true =>
          have hk := hall k
          rw [hself] at hk
          exact .inr (hnew.mp (hk hu))
    · intro hor i hi
      by_cases hik : i = k
      · subst hik
        rw [hself] at hi ⊢
        obtain hu | hpos := hor
        · exact absurd (hi.symm.trans hu) (by decide)
        · exact hnew.mpr hpos
      · have hother : dir'.dirEntries[i] = card.getActiveDirectory.dirEntries[i] := by
          rw [hdir]
          exact setEntry_ne _ hik _
        rw [hother] at hi ⊢
        exact hold i hi
  · rw [if_neg hwrap] at hdir
    simp only [hwrap, not_false_eq_true, true_or, iff_true]
    rw [hdir]
    exact hold

end Memcard

end Karphin.GCMemcard
