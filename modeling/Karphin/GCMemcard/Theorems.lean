import Karphin.GCMemcard.Lemmas.Calls

/-!
# Files are read back

`GetSaveData` walks the chain that `ImportFile` wrote. A file is decided by its entry, by the map at its blocks and by
their data, none of which a call on another file changes.
-/

namespace Karphin.GCMemcard

/-! ## The fix-ups -/

theorem GCMBlock.store_of_not {b : GCMBlock} {offset length : Nat} {bytes : List UInt8} (hlen : bytes.length = length)
    {i : Fin 0x2000} (h : (decide (offset ≤ i.1) && decide (i.1 < offset + length)) = false) :
    b.store offset bytes i = b i := by
  rw [Bool.and_eq_false_iff, decide_eq_false_iff_not, decide_eq_false_iff_not] at h
  rw [GCMBlock.store, if_neg]
  omega

theorem fzerogxMakeSaveGameValid_length (cardheader : Header) (direntry : DEntry) (blocks : List GCMBlock) :
    (fzerogxMakeSaveGameValid cardheader direntry blocks).length = blocks.length := by
  unfold fzerogxMakeSaveGameValid
  split
  · split
    · rfl
    · rfl
  · rfl

theorem psoMakeSaveGameValid_length (cardheader : Header) (direntry : DEntry) (blocks : List GCMBlock) :
    (psoMakeSaveGameValid cardheader direntry blocks).length = blocks.length := by
  unfold psoMakeSaveGameValid
  simp only []
  split
  · exact List.length_modify ..
  · rfl

theorem fzerogxMakeSaveGameValid_byte (cardheader : Header) {direntry : DEntry} (blocks : List GCMBlock) {i : Nat}
    {byte : Fin 0x2000} (h : Memcard.rewritten direntry i byte.1 = false) :
    (fzerogxMakeSaveGameValid cardheader direntry blocks).getD i GCMBlock.erased byte =
      blocks.getD i GCMBlock.erased byte := by
  unfold fzerogxMakeSaveGameValid
  split
  · next hname =>
      split
      · next b0 b1 b2 b3 =>
          simp only [Memcard.rewritten, hname, Bool.true_and, Bool.or_eq_false_iff] at h
          obtain ⟨⟨⟨h0, h1⟩, h3⟩, -⟩ := h
          match i with
          | 0 =>
              simp only [decide_true, Bool.true_and] at h0
              exact GCMBlock.store_of_not rfl h0
          | 1 =>
              simp only [decide_true, Bool.true_and, Bool.or_eq_false_iff] at h1
              obtain ⟨⟨h66, h60⟩, h200⟩ := h1
              simp only [List.getD_cons_succ, List.getD_cons_zero]
              rw [GCMBlock.store_of_not rfl h200, GCMBlock.store_of_not rfl h60, GCMBlock.store_of_not rfl h66]
          | 2 => rfl
          | 3 =>
              simp only [decide_true, Bool.true_and] at h3
              exact GCMBlock.store_of_not rfl h3
          | i + 4 => rfl
      · rfl
  · rfl

theorem psoMakeSaveGameValid_byte (cardheader : Header) {direntry : DEntry} (blocks : List GCMBlock) {i : Nat}
    {byte : Fin 0x2000} (h : Memcard.rewritten direntry i byte.1 = false) :
    (psoMakeSaveGameValid cardheader direntry blocks).getD i GCMBlock.erased byte =
      blocks.getD i GCMBlock.erased byte := by
  unfold psoMakeSaveGameValid
  simp only []
  split
  · next hname =>
      simp only [Memcard.rewritten, hname, Bool.true_and, Bool.or_eq_false_iff] at h
      obtain ⟨-, h1⟩ := h
      simp only [List.getD_eq_getElem?_getD, List.getElem?_modify]
      by_cases hi : i = 1
      · subst hi
        simp only [decide_true, Bool.true_and, Bool.or_eq_false_iff] at h1
        obtain ⟨⟨h158, h15c⟩, h48⟩ := h1
        cases blocks[1]? with
        | none => rfl
        | some b =>
            simp only [Option.map_eq_map, Option.map_some, Option.getD_some, if_true]
            rw [GCMBlock.store_of_not rfl h48, GCMBlock.store_of_not rfl h15c, GCMBlock.store_of_not rfl h158]
      · have hi' : ¬ 1 = i := fun heq => hi heq.symm
        simp [hi']
  · rfl

namespace Memcard

/-! ## Files on a card -/

variable {card : Memcard} {n : Nat} {savefile : Savefile}

def dataAt (card : Memcard) (blocks : List Nat) : List GCMBlock :=
  blocks.map fun b => card.dataBlocks.getD (b - mcFstBlocks) GCMBlock.erased

theorem readBlocks_follows {size : Nat} (hsize : size ≤ 4092) : ∀ {blocks : List Nat} {first : Nat},
    Follows card.getActiveBat size first blocks → card.readBlocks blocks.length first = some (card.dataAt blocks)
  | [], _, _ => rfl
  | b :: bs, first, ⟨h1, h2, h3, h4⟩ => by
      have hne : ¬ (b = 0 ∨ b = 0xFFFF) := by
        simp only [mcFstBlocks] at h2
        omega
      rw [h1, List.length_cons, readBlocks, if_neg hne, readBlocks_follows hsize h4]
      rfl

theorem exportFile_chain (h : Shape n card) {chain : Fin dirLen → List Nat}
    (hc : Chains card.sizeBlocks card.getActiveDirectory card.getActiveBat chain) {k : Fin dirLen}
    (hk : (getElem card.getActiveDirectory.dirEntries k k.isLt).used = true) :
    card.exportFile k = some ⟨getElem card.getActiveDirectory.dirEntries k k.isLt, card.dataAt (chain k)⟩ := by
  have hsize := h.size_le
  have hfollows := hc.follows k hk
  have hlen := hc.length k hk
  have hpos := h.positive k hk
  have hle := length_le_of_range (hc.nodup k hk) hfollows.range
  -- the first block and the length are in range, so that the accessors give them as they are
  have hfirst : card.dEntryFirstBlock k = card.getActiveDirectory.dirEntries[k].firstBlock ∧
      card.dEntryFirstBlock k ≠ 0xFFFF := by
    have hb : card.getActiveDirectory.dirEntries[k].firstBlock < card.sizeBlocks := by
      cases hchain : chain k with
      | nil =>
          rw [hchain] at hlen
          simp only [List.length_nil] at hlen
          omega
      | cons b bs =>
          rw [hchain] at hfollows
          obtain ⟨hb, -, hbs, -⟩ := hfollows
          omega
    have heq : card.dEntryFirstBlock k = card.getActiveDirectory.dirEntries[k].firstBlock := by
      rw [dEntryFirstBlock, h.valid]
      simp only [Bool.not_true, Bool.false_or, decide_eq_true_eq]
      exact if_neg (by omega)
    omega
  have hcount : card.dEntryBlockCount k = (chain k).length ∧ card.dEntryBlockCount k ≠ 0xFFFF := by
    have heq : card.dEntryBlockCount k = card.getActiveDirectory.dirEntries[k].blockCount := by
      rw [dEntryBlockCount, h.valid]
      simp only [Bool.not_true, Bool.false_or, decide_eq_true_eq]
      exact if_neg (by omega)
    omega
  have hread := readBlocks_follows (by omega) hfollows
  have hsave : card.getSaveData k = some (card.dataAt (chain k)) := by
    rw [getSaveData, h.valid]
    simp only [Bool.not_true, Bool.false_or, hfirst.2, hcount.2, decide_false, Bool.false_eq_true, if_false]
    rw [hfirst.1, hcount.1]
    exact hread
  rw [exportFile, h.valid, hk, hsave]
  rfl

theorem exportFile_congr {card' : Memcard} {m : Nat} (h : Shape n card) (h' : Shape m card')
    {chain chain' : Fin dirLen → List Nat}
    (hc : Chains card.sizeBlocks card.getActiveDirectory card.getActiveBat chain)
    (hc' : Chains card'.sizeBlocks card'.getActiveDirectory card'.getActiveBat chain') {k : Fin dirLen}
    (hk : (getElem card.getActiveDirectory.dirEntries k k.isLt).used = true)
    (hentry : getElem card'.getActiveDirectory.dirEntries k k.isLt = getElem card.getActiveDirectory.dirEntries k k.isLt)
    (hchain : chain' k = chain k) (hdata : card'.dataAt (chain k) = card.dataAt (chain k)) :
    card'.exportFile k = card.exportFile k := by
  have hk' : card'.getActiveDirectory.dirEntries[k].used = true := by rwa [hentry]
  rw [exportFile_chain h hc hk, exportFile_chain h' hc' hk', hentry, hchain, hdata]

/-! ## After a call -/

section Replace

variable {dir : Directory} {bat : BlockAlloc} {data : List GCMBlock}

theorem replace_valid (h : card.valid = true) : (card.replace dir bat data).valid = true := h

theorem dirEntries_replace (h : card.valid = true) :
    (card.replace dir bat data).fixChecksums.getActiveDirectory.dirEntries = dir.dirEntries := by
  rw [getActiveDirectory_fixChecksums (replace_valid h), getActiveDirectory_replace, Directory.fixChecksums_dirEntries]

theorem map_replace (h : card.valid = true) :
    (card.replace dir bat data).fixChecksums.getActiveBat.map = bat.map := by
  rw [getActiveBat_fixChecksums (replace_valid h), getActiveBat_replace, BlockAlloc.fixChecksums_map]

theorem sizeBlocks_replace (h : card.valid = true) :
    (card.replace dir bat data).fixChecksums.sizeBlocks = card.sizeBlocks := by
  rw [fixChecksums_eq (replace_valid h)]
  rfl

theorem dataBlocks_replace (h : card.valid = true) : (card.replace dir bat data).fixChecksums.dataBlocks = data := by
  rw [fixChecksums_eq (replace_valid h)]
  rfl

theorem Chains.replace (h : Shape n card) {chain : Fin dirLen → List Nat} (hc : Chains card.sizeBlocks dir bat chain) :
    Chains (card.replace dir bat data).fixChecksums.sizeBlocks
      (card.replace dir bat data).fixChecksums.getActiveDirectory
      (card.replace dir bat data).fixChecksums.getActiveBat chain := by
  rw [sizeBlocks_replace h.valid]
  have hsize : card.sizeBlocks ≤ 4092 := by
    have := h.size_le
    omega
  exact hc.congr hsize (dirEntries_replace h.valid) (map_replace h.valid)

end Replace

section Import

variable {card' : Memcard} {k : Fin dirLen} {firstBlock : Nat} {bat : BlockAlloc} {data : List GCMBlock}
  {new : List Nat} {chain : Fin dirLen → List Nat}

theorem Imported.entry (h : Shape n card) (hi : Imported card savefile card' k firstBlock bat data new) :
    getElem card'.getActiveDirectory.dirEntries k k.isLt = newEntry savefile.dirEntry firstBlock := by
  rw [hi.eq, dirEntries_replace h.valid]
  exact setEntry_self ..

theorem Imported.entry_ne (h : Shape n card) (hi : Imported card savefile card' k firstBlock bat data new)
    {j : Fin dirLen} (hj : j ≠ k) :
    getElem card'.getActiveDirectory.dirEntries j j.isLt = getElem card.getActiveDirectory.dirEntries j j.isLt := by
  rw [hi.eq, dirEntries_replace h.valid]
  exact setEntry_ne _ hj _

theorem Imported.dataBlocks (h : Shape n card) (hi : Imported card savefile card' k firstBlock bat data new) :
    card'.dataBlocks = data := by
  rw [hi.eq, dataBlocks_replace h.valid]

theorem Imported.chains (h : Shape n card)
    (hc : Chains card.sizeBlocks card.getActiveDirectory card.getActiveBat chain)
    (hused : savefile.dirEntry.used = true) (hi : Imported card savefile card' k firstBlock bat data new) :
    Chains card'.sizeBlocks card'.getActiveDirectory card'.getActiveBat (Function.update chain k new) := by
  have hsize : card.sizeBlocks ≤ 4092 := by
    have := h.size_le
    omega
  have hadd := hc.add hsize hi.allocated hi.unused (e := newEntry savefile.dirEntry firstBlock) rfl rfl hused
  rw [hi.eq]
  exact Chains.replace h (hadd.congr hsize rfl rfl)

theorem validBlocks_length (card : Memcard) (savefile : Savefile) :
    (card.validBlocks savefile).length = savefile.blocks.length := by
  rw [validBlocks, psoMakeSaveGameValid_length, fzerogxMakeSaveGameValid_length]

theorem validBlocks_byte (card : Memcard) {savefile : Savefile} {i : Nat} {byte : Fin 0x2000}
    (h : rewritten savefile.dirEntry i byte.1 = false) :
    (card.validBlocks savefile).getD i GCMBlock.erased byte = savefile.blocks.getD i GCMBlock.erased byte := by
  rw [validBlocks, psoMakeSaveGameValid_byte _ _ h, fzerogxMakeSaveGameValid_byte _ _ h]

theorem Imported.exportFile (h : Shape n card) (hn : n < 32767)
    (hlen : savefile.blocks.length = savefile.dirEntry.blockCount) (hpos : 1 ≤ savefile.dirEntry.blockCount)
    (hused : savefile.dirEntry.used = true) (hi : Imported card savefile card' k firstBlock bat data new) :
    card'.exportFile k = some ⟨newEntry savefile.dirEntry firstBlock, card.validBlocks savefile⟩ := by
  obtain ⟨chain, hc⟩ := h.chains
  have hshape := (hi.shape h hn hpos hused).1
  have hentry := hi.entry h
  have huse : card'.getActiveDirectory.dirEntries[k].used = true := by
    rw [hentry]
    exact hused
  have hdata : card'.dataAt new = card.validBlocks savefile := by
    rw [dataAt, hi.dataBlocks h, hi.allocated.dataNew, ← hlen, ← validBlocks_length card savefile]
    apply List.ext_getElem
    · simp
    · intro i h1 h2
      simp [h2]
  rw [exportFile_chain hshape (hi.chains h hc hused) huse, hentry, Function.update_self, hdata]

theorem Imported.exportFile_ne (h : Shape n card) (hn : n < 32767) (hpos : 1 ≤ savefile.dirEntry.blockCount)
    (hused : savefile.dirEntry.used = true) (hi : Imported card savefile card' k firstBlock bat data new)
    {j : Fin dirLen} (hj : (getElem card.getActiveDirectory.dirEntries j j.isLt).used = true) :
    card'.exportFile j = card.exportFile j := by
  obtain ⟨chain, hc⟩ := h.chains
  have hshape := (hi.shape h hn hpos hused).1
  have hsize : card.sizeBlocks ≤ 4092 := by
    have := h.size_le
    omega
  have hjk : j ≠ k := by
    rintro rfl
    rw [hi.unused] at hj
    cases hj
  apply exportFile_congr h hshape hc (hi.chains h hc hused) hj (hi.entry_ne h hjk) (Function.update_of_ne hjk _ _)
  rw [dataAt, dataAt, hi.dataBlocks h]
  apply List.map_congr_left
  intro b hb
  apply hi.allocated.dataFrame
  intro hmem
  rw [Nat.sub_add_cancel ((hc.follows j hj).range b hb).1] at hmem
  -- a block of the new file was free, one of this file was not
  exact (hc.follows j hj).marked hsize b hb (hi.allocated.free b hmem)

end Import

theorem removeFile_exportFile (h : Shape n card) (hn : n < 32767) {index : Nat} {j : Fin dirLen} (hindex : j.1 ≠ index)
    (hj : (getElem card.getActiveDirectory.dirEntries j j.isLt).used = true) :
    (card.removeFile index).2.exportFile j = card.exportFile j := by
  by_cases hlt : index < dirLen
  · by_cases hu : card.getActiveDirectory.dirEntries[(⟨index, hlt⟩ : Fin dirLen)].used = true
    · obtain ⟨chain, hc⟩ := h.chains
      have hsize : card.sizeBlocks ≤ 4092 := by
        have := h.size_le
        omega
      have hjk : j ≠ ⟨index, hlt⟩ := fun heq => hindex (congrArg Fin.val heq)
      have hshape := (h.removed hn hc hu).1
      have hremove := hc.remove hsize hu used_default
      have heq := removeFile_used h hc ⟨index, hlt⟩ hu
      simp only at heq hshape
      rw [heq] at hshape ⊢
      apply exportFile_congr h hshape hc (Chains.replace h (hremove.congr hsize rfl rfl)) hj
      · rw [dirEntries_replace h.valid]
        exact setEntry_ne _ hjk _
      · rfl
      · rw [dataAt, dataAt, dataBlocks_replace h.valid]
    · have heq := removeFile_unused h ⟨index, hlt⟩ (Bool.eq_false_iff.2 hu)
      simp only at heq
      rw [heq]
  · rw [removeFile_outside card hlt]

end Memcard

end Karphin.GCMemcard

/-!
# Memory cards stay consistent

Whatever files are imported and removed, in any order, the chains of the files partition the allocated blocks, a saved
card is opened without an error, and every file is exported as it was imported.
-/

namespace Karphin.GCMemcard.Memcard

variable {card : Memcard} {n : Nat}

/-! ## A saved card is opened again -/

theorem repairDirectory_eq {dirs : Fin 2 → Directory} (h : ∀ i, (dirs i).checkForErrors = ∅) :
    repairDirectory dirs = dirs := by
  simp [repairDirectory, h, hasCriticalErrors_empty]

theorem repairBat_eq {sizeMbits : Nat} {bats : Fin 2 → BlockAlloc} (h : ∀ i, (bats i).checkForErrors sizeMbits = ∅) :
    repairBat sizeMbits bats = bats := by
  simp [repairBat, h, hasCriticalErrors_empty]

theorem openFile_save (h : Shape n card) (hc : Checked card) : openFile card.save = (∅, some card) := by
  have hmbits := bytesToMegabits_save h.sizeBlocks h.size h.dataLength
  obtain ⟨chain, hchains⟩ := h.chains
  have hwith : card.getActiveDirectory.checkForErrorsWithBat card.getActiveBat = ∅ :=
    checkForErrorsWithBat_chains (by have := h.size_le; omega) hchains h.positive
  have hdata : card.dataBlocks.take (card.sizeBlocks - mcFstBlocks) = card.dataBlocks := by
    rw [← h.dataLength]
    exact List.take_length
  have hdir := h.newestDirectory.active
  have hbat := h.newestBat.active
  have hheader : card.save.headerBlock = card.headerBlock := rfl
  have hdirs : card.save.directoryBlocks = card.directoryBlocks := rfl
  have hbats : card.save.batBlocks = card.batBlocks := rfl
  have hcard : ({ card with valid := true } : Memcard) = card := by
    rw [← h.valid]
  unfold openFile
  simp only [hmbits, Option.getD_some, hheader, hdirs, hbats, hc.header, hc.dirs, hc.bats, hasCriticalErrors_empty,
    repairDirectory_eq hc.dirs, repairBat_eq hc.bats, save_dataBlocks h.dataLength, ← h.sizeBlocks, hdata, hdir, hbat]
  rw [hcard, hwith, if_neg (not_not.2 h.size)]
  simp [hasCriticalErrors_empty]

theorem consistent_of_shape (h : Shape n card) (hc : Checked card) : Consistent card where
  chains := h.chains
  free := h.free
  reopened := ⟨card, openFile_save h hc, rfl, rfl, rfl⟩

/-! ## Files are kept -/

theorem keepsFiles_of_shape (h : Shape n card) (hn : n < 32767) : KeepsFiles card := by
  constructor
  · intro savefile hallowed hs
    obtain ⟨hlen, hpos, hused, -⟩ := hallowed
    rw [hlen] at hpos
    obtain ⟨k, first, bat, data, new, hi⟩ := h.imported hpos hs
    exact ⟨k, first, card.validBlocks savefile, hi.unused, fun j hj => hi.entry_ne h hj,
      hi.exportFile h hn hlen hpos hused, validBlocks_length card savefile, fun i byte => validBlocks_byte card⟩
  · intro savefile hallowed hs j hj
    obtain ⟨hlen, hpos, hused, -⟩ := hallowed
    rw [hlen] at hpos
    obtain ⟨k, first, bat, data, new, hi⟩ := h.imported hpos hs
    exact hi.exportFile_ne h hn hpos hused hj
  · exact fun index j hindex hj => removeFile_exportFile h hn hindex hj

/-! ## Runs -/

section Runs

variable (flashId : Vector UInt8 12) (sizeMbits : UInt16) (shiftJis : Bool) (rtcBias sramLanguage : UInt32)
  (formatTime : UInt64)

/-- After any calls on a new card. -/
theorem consistent_after_calls (hsize : sizeMbits.toNat ∈ validMegabits) (calls : List Call)
    (hlength : calls.length < 32767) (hallowed : ∀ c ∈ calls, c.Allowed) :
    Consistent (calls.foldl call (create flashId sizeMbits shiftJis rtcBias sramLanguage formatTime)) := by
  obtain ⟨hshape, hchecked⟩ := shape_calls (shape_create hsize) (checked_create hsize) (by omega) hallowed
  exact consistent_of_shape hshape hchecked

theorem keepsFiles_after_calls (hsize : sizeMbits.toNat ∈ validMegabits) (calls : List Call)
    (hlength : calls.length < 32767) (hallowed : ∀ c ∈ calls, c.Allowed) :
    KeepsFiles (calls.foldl call (create flashId sizeMbits shiftJis rtcBias sramLanguage formatTime)) := by
  obtain ⟨hshape, -⟩ := shape_calls (shape_create hsize) (checked_create hsize) (by omega) hallowed
  exact keepsFiles_of_shape hshape (by omega)

end Runs

def twoBlockFile : Savefile where
  dirEntry := { gamecode := galeCode, blockCount := 2 }
  blocks := [fun _ => 1, fun _ => 2]

theorem allowed_twoBlockFile : (Call.importFile twoBlockFile).Allowed := by
  refine ⟨rfl, by decide, by decide, ?_⟩
  intro _
  decide

def smallCard : Memcard := create (Vector.replicate 12 0) 4 false 0 0 0

theorem consistent_after_reimport :
    Consistent ([.importFile twoBlockFile, .removeFile 0, .importFile twoBlockFile].foldl call smallCard) := by
  apply consistent_after_calls
  · decide
  · decide
  · simp only [List.mem_cons, List.not_mem_nil, or_false, forall_eq_or_imp, forall_eq]
    exact ⟨allowed_twoBlockFile, trivial, allowed_twoBlockFile⟩

theorem keepsFiles_smallCard : (smallCard.importFile twoBlockFile).1 = .success ∧
    KeepsFiles ([.importFile twoBlockFile].foldl call smallCard) := by
  constructor
  · decide
  · apply keepsFiles_after_calls
    · decide
    · decide
    · simp only [List.mem_cons, List.not_mem_nil, or_false, forall_eq]
      exact allowed_twoBlockFile

end Karphin.GCMemcard.Memcard
