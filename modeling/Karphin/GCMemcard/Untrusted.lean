import Karphin.GCMemcard.Lemmas.Import

/-!
# Save files and card images that nobody has checked

`ImportFile` takes the block count, the game code and the blocks of a save file as they are. `Open` follows the chain of
every file, but through the whole table, which has entries for more blocks than a small card has.
-/

namespace Karphin.GCMemcard

/-! ## Chains of any entry -/

namespace BlockAlloc

variable {bat : BlockAlloc} {size : Nat}

def Stays (bat : BlockAlloc) (size count first : Nat) : Prop :=
  ∀ n < count, bat.getNextBlock^[n] first ≠ 0 → bat.getNextBlock^[n] first ≠ 0xFFFF →
    mcFstBlocks ≤ bat.getNextBlock^[n] first ∧ bat.getNextBlock^[n] first < size

theorem iterate_end {b : Nat} (h : b = 0 ∨ b = 0xFFFF) : ∀ n, bat.getNextBlock^[n] b = 0 ∨ bat.getNextBlock^[n] b = 0xFFFF
  | 0 => h
  | n + 1 => by
      rw [Function.iterate_succ_apply']
      obtain hn | hn := iterate_end h n
      · rw [hn]
        exact .inl (if_pos (.inl (by decide)))
      · rw [hn]
        exact .inl (if_pos (.inr (by decide)))

theorem stays_iff_followed : ∀ {count first : Nat},
    bat.Stays size count first ↔ ∀ b ∈ bat.followed count first, mcFstBlocks ≤ b ∧ b < size
  | 0, first => by simp [Stays, followed]
  | count + 1, first => by
      have ih := @stays_iff_followed count (bat.getNextBlock first)
      rw [followed]
      split
      · next hend =>
          simp only [List.not_mem_nil, false_implies, implies_true, iff_true]
          intro n _ h0 h1
          obtain hn | hn := @iterate_end bat first hend n
          · exact absurd hn h0
          · exact absurd hn h1
      · next hmore =>
          rw [not_or] at hmore
          rw [List.forall_mem_cons, ← ih]
          constructor
          · intro h
            refine ⟨h 0 (Nat.succ_pos _) hmore.1 hmore.2, fun n hn => ?_⟩
            exact h (n + 1) (Nat.succ_lt_succ hn)
          · rintro ⟨hfirst, hrest⟩ n hn
            cases n with
            | zero => exact fun _ _ => hfirst
            | succ n => exact hrest n (Nat.lt_of_succ_lt_succ hn)

end BlockAlloc

namespace Memcard

variable {f : CardFile} {errors : GCMemcardErrorCode} {card : Memcard} {index : Fin dirLen}

theorem followedBlocks_of_rejected (h : card.valid = true) (hr : card.rejectsEntry index = true) :
    card.followedBlocks index = [] := by
  simp only [rejectsEntry, Bool.or_eq_true, decide_eq_true_eq] at hr
  simp only [followedBlocks, dEntryFirstBlock, dEntryBlockCount, h, Bool.not_true, Bool.false_or]
  obtain hr | hr := hr
  · simp only [hr, decide_true, if_true, Bool.true_or]
  · simp only [hr, decide_true, if_true, Bool.or_true]

theorem followedBlocks_of_accepted (h : Opened f errors card) (hr : card.rejectsEntry index = false) :
    card.followedBlocks index = card.getActiveBat.followed
      (getElem card.getActiveDirectory.dirEntries index index.isLt).blockCount
      (getElem card.getActiveDirectory.dirEntries index index.isLt).firstBlock := by
  have hsize := h.size_le
  simp only [rejectsEntry, Bool.or_eq_false_iff, decide_eq_false_iff_not] at hr
  simp only [followedBlocks, dEntryFirstBlock, dEntryBlockCount, h.valid, Bool.not_true, Bool.false_or,
    decide_eq_true_eq, if_neg hr.1, if_neg hr.2, Bool.or_eq_true]
  rw [if_neg]
  omega

theorem followedBlocks_onCard (h : Opened f errors card) :
    (∀ b ∈ card.followedBlocks index, mcFstBlocks ≤ b ∧ b < card.sizeBlocks) ↔
      (card.rejectsEntry index = true ∨ card.getActiveBat.Stays card.sizeBlocks
        (getElem card.getActiveDirectory.dirEntries index index.isLt).blockCount
        (getElem card.getActiveDirectory.dirEntries index index.isLt).firstBlock) := by
  cases hr : card.rejectsEntry index with
  | true => simp [followedBlocks_of_rejected h.valid hr]
  | false =>
      rw [followedBlocks_of_accepted h hr, BlockAlloc.stays_iff_followed]
      simp

theorem exportedBlocks_eq (h : card.valid = true) : card.exportedBlocks index =
    if (getElem card.getActiveDirectory.dirEntries index index.isLt).used then card.followedBlocks index else [] := by
  rw [exportedBlocks, h]
  cases card.getActiveDirectory.dirEntries[index].used with
  | true => rfl
  | false => rfl

/-- The check that `Open` makes, for a table without what lies behind the end of the card. -/
def checkedOnCard (card : Memcard) (index : Fin dirLen) : Bool :=
  Directory.batBlockCountMatches (card.getActiveBat.onCard card.sizeBlocks)
    (getElem card.getActiveDirectory.dirEntries index index.isLt).blockCount
    (getElem card.getActiveDirectory.dirEntries index index.isLt).firstBlock

theorem stays_iff_checkedOnCard (h : Opened f errors card)
    (hu : (getElem card.getActiveDirectory.dirEntries index index.isLt).used = true) :
    card.getActiveBat.Stays card.sizeBlocks (getElem card.getActiveDirectory.dirEntries index index.isLt).blockCount
      (getElem card.getActiveDirectory.dirEntries index index.isLt).firstBlock ↔ card.checkedOnCard index = true := by
  rw [BlockAlloc.stays_iff_followed, checkedOnCard]
  exact BlockAlloc.followed_onCard (h.matches index hu)

/-- On a card that was opened, every block that `ExportFile` reads is a block of the card just when no chain of a file
leaves it; `GetSaveData` alone follows the unused entries too, which `Open` does not look at. -/
theorem blocks_onCard (hopen : openFile f = (errors, some card)) :
    ((∀ index, ∀ b ∈ card.exportedBlocks index, mcFstBlocks ≤ b ∧ b < card.sizeBlocks) ↔
      ∀ index, (getElem card.getActiveDirectory.dirEntries index index.isLt).used = true →
        card.rejectsEntry index = true ∨ card.checkedOnCard index = true) ∧
    ((∀ index, ∀ b ∈ card.followedBlocks index, mcFstBlocks ≤ b ∧ b < card.sizeBlocks) ↔
      ∀ index, card.rejectsEntry index = true ∨
        if (getElem card.getActiveDirectory.dirEntries index index.isLt).used then card.checkedOnCard index = true
        else card.getActiveBat.Stays card.sizeBlocks (getElem card.getActiveDirectory.dirEntries index index.isLt).blockCount
          (getElem card.getActiveDirectory.dirEntries index index.isLt).firstBlock) := by
  have h := openFile_some hopen
  constructor
  · apply forall_congr'
    intro index
    rw [exportedBlocks_eq h.valid]
    by_cases hu : card.getActiveDirectory.dirEntries[index].used = true
    · rw [if_pos hu, followedBlocks_onCard h, stays_iff_checkedOnCard h hu]
      simp only [hu, true_implies]
    · rw [if_neg hu]
      simp only [List.not_mem_nil, false_implies, implies_true, true_iff]
      exact fun hused => absurd hused hu
  · apply forall_congr'
    intro index
    rw [followedBlocks_onCard h]
    by_cases hu : card.getActiveDirectory.dirEntries[index].used = true
    · rw [if_pos hu, stays_iff_checkedOnCard h hu]
    · rw [if_neg hu]

/-! ## A file behind the end of the card -/

def firstIndex : Fin dirLen := ⟨0, by decide⟩

def leakyDirectory : Directory :=
  setEntry {} firstIndex { gamecode := galeCode, firstBlock := 5, blockCount := 2 }

def leakyBat : BlockAlloc where
  freeBlocks := 58
  lastAllocatedBlock := 5
  map := fun k => if k = 0 then 100 else if k = 95 then 0xFFFF else 0

def leakyFile : CardFile where
  headerBlock := smallCard.headerBlock
  directoryBlocks := fun _ => leakyDirectory.fixChecksums
  batBlocks := fun _ => leakyBat.fixChecksums
  dataBlocks := smallCard.dataBlocks

theorem leakyBat_checked :
    leakyBat.fixChecksums.checkForErrors 4 = {.dataInUnusedArea} := by
  have hunused : leakyBat.hasUnusedData 4 = true := by decide
  rw [BlockAlloc.checkForErrors_fixChecksums_eq (by decide) (by decide), hunused]
  rfl

theorem leakyDirectory_checked : leakyDirectory.fixChecksums.checkForErrors = ∅ :=
  Directory.checkForErrors_fixChecksums rfl

theorem intact_leakyFile : Intact leakyFile 4 where
  fileSize := by decide
  size := by decide
  header := by
    have hheader : leakyFile.headerBlock.checkForErrors 4 = ∅ := Header.checkForErrors_fixChecksums rfl rfl rfl
    rw [hheader]
    exact hasCriticalErrors_empty
  dirs := by
    intro i
    have hdir : (leakyFile.directoryBlocks i).checkForErrors = ∅ := leakyDirectory_checked
    rw [hdir]
    exact hasCriticalErrors_empty
  bats := by
    intro i
    have hbat : (leakyFile.batBlocks i).checkForErrors 4 = {.dataInUnusedArea} := leakyBat_checked
    rw [hbat]
    rfl

theorem leakyFile_opened : openFile leakyFile = (loadErrors leakyFile 4, some (loaded leakyFile 4)) := by
  apply openFile_intact_some intact_leakyFile
  decide

/-- `ExportFile` reads the block 100 of a card of 64 blocks. -/
theorem leakyFile_exported : ∃ errors card, openFile leakyFile = (errors, some card) ∧ card.sizeBlocks = 64 ∧
    100 ∈ card.exportedBlocks firstIndex ∧ (card.exportFile firstIndex).isSome = true := by
  refine ⟨_, _, leakyFile_opened, by decide, ?_, ?_⟩
  · decide
  · decide

/-- A card with a file whose blocks lie on it. -/
theorem blocks_onCard_twoBlockFile : ∃ card, openFile (smallCard.importFile twoBlockFile).2.save = (∅, some card) ∧
    ((∀ index, ∀ b ∈ card.exportedBlocks index, mcFstBlocks ≤ b ∧ b < card.sizeBlocks) ↔
      ∀ index, (getElem card.getActiveDirectory.dirEntries index index.isLt).used = true →
        card.rejectsEntry index = true ∨ card.checkedOnCard index = true) ∧
    card.exportedBlocks firstIndex = [5, 6] := by
  have hshape : Shape 0 smallCard := shape_create (by decide)
  have hchecked : Checked smallCard := checked_create (by decide)
  obtain ⟨hshape, hchecked⟩ := hshape.call hchecked (by decide) (.importFile twoBlockFile) allowed_twoBlockFile
  have hopen := openFile_save hshape hchecked
  refine ⟨_, hopen, (blocks_onCard hopen).1, ?_⟩
  decide

/-! ## Imports -/

variable {file : List UInt8} {savefile : Savefile}

/-- An import to a valid card is safe when it is refused; else the blocks that the fix-up for PSO needs must be there,
and the entry that is read again must have a chain in the table that is read again. -/
theorem importFile_safe (hvalid : card.Valid) (hread : readSavefile file = .ok savefile) :
    card.ImportSafe savefile ↔ (card.refuses savefile = true ∨
      (savefile.dirEntry.isPsoSystem = true → 2 ≤ savefile.blocks.length) ∧
        (¬ card.getActiveDirectory.updateCounter < nextCounter card.getActiveDirectory.updateCounter ∨
          savefile.dirEntry.used = false ∨ 1 ≤ savefile.dirEntry.blockCount ∧
            card.getActiveBat.updateCounter < nextCounter card.getActiveBat.updateCounter)) := by
  have h := hvalid.errorless
  cases hr : card.refuses savefile with
  | true =>
      obtain ⟨hfail, hsame⟩ := importFile_refused hr
      simp only [true_or, iff_true]
      left
      rw [hsame]
      exact ⟨hfail, rfl, rfl, rfl, rfl⟩
  | false =>
      obtain ⟨k, firstBlock, bat, data, ha⟩ := h.accepted hr
      rw [ImportSafe, ha.reopens h, usedIndexes_lt (readSavefile_blocks hread)]
      simp [ha.success]

def emptyFile : List UInt8 := [0x47, 0x41, 0x4C, 0x45] ++ List.replicate 60 0

theorem valid_smallCard : smallCard.Valid :=
  openFile_save (shape_create (by decide)) (checked_create (by decide))

theorem emptyFile_read : readSavefile emptyFile = .ok ⟨DEntry.ofBytes emptyFile, []⟩ := by
  have hrange : emptyFile.length % blockSize = dentrySize := by decide
  have hcount : (DEntry.ofBytes emptyFile).blockCount = 0 := by decide
  rw [readSavefile, if_pos hrange, readSavefileInternalGCI]
  simp only [hcount]
  rfl

/-- The empty file is imported, and then the card is not opened any more. -/
theorem emptyFile_imported : smallCard.Valid ∧
    ∃ savefile, readSavefile emptyFile = .ok savefile ∧ ¬ smallCard.ImportSafe savefile := by
  refine ⟨valid_smallCard, _, emptyFile_read, ?_⟩
  have h := valid_smallCard.errorless
  have haccepts : smallCard.refuses ⟨DEntry.ofBytes emptyFile, []⟩ = false := by decide
  have hused : (DEntry.ofBytes emptyFile).used = true := by decide
  have hcount : ¬ 1 ≤ (DEntry.ofBytes emptyFile).blockCount := by decide
  have hcounter : smallCard.getActiveDirectory.updateCounter <
      nextCounter smallCard.getActiveDirectory.updateCounter := by decide
  obtain ⟨k, firstBlock, bat, data, ha⟩ := h.accepted haccepts
  rw [ImportSafe, ha.reopens h]
  rintro (⟨hfail, -⟩ | ⟨-, -, hstale | hunused | ⟨hpos, -⟩⟩)
  · exact hfail ha.success
  · exact hstale hcounter
  · rw [hused] at hunused
    cases hunused
  · exact hcount hpos

def oneBlockFile : List UInt8 :=
  [0x47, 0x41, 0x4C, 0x45] ++ List.replicate 52 0 ++ [0x00, 0x01] ++ List.replicate 6 0 ++ List.replicate 0x2000 7

set_option maxRecDepth 64000 in
theorem oneBlockFile_read : readSavefile oneBlockFile =
    .ok ⟨DEntry.ofBytes oneBlockFile, [GCMBlock.ofBytes ((oneBlockFile.drop dentrySize).take blockSize)]⟩ := by
  have hrange : oneBlockFile.length % blockSize = dentrySize := by decide
  have hcount : (DEntry.ofBytes oneBlockFile).blockCount = 1 := by decide
  have hlength : oneBlockFile.length = 0x2040 := by decide
  have hblock : ¬ (oneBlockFile.drop dentrySize).length < blockSize := by
    rw [List.length_drop, hlength]
    decide
  rw [readSavefile, if_pos hrange, readSavefileInternalGCI, hlength]
  simp only [hcount]
  rw [if_neg (by decide), if_neg (by decide), GCMemcard.readBlocks, readBlocksFromIOFile, if_neg hblock]
  rfl

theorem oneBlockFile_imported : ∃ savefile, readSavefile oneBlockFile = .ok savefile ∧
    smallCard.refuses savefile = false ∧ smallCard.ImportSafe savefile := by
  refine ⟨_, oneBlockFile_read, by decide, ?_⟩
  refine (importFile_safe valid_smallCard oneBlockFile_read).mpr (.inr ⟨?_, .inr (.inr ⟨?_, ?_⟩)⟩)
  · have hname : (DEntry.ofBytes oneBlockFile).isPsoSystem = false := by decide
    rw [hname]
    exact fun h => absurd h (by decide)
  · decide
  · decide

end Memcard

end Karphin.GCMemcard
