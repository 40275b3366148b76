import Karphin.GCMemcard.Savefiles
import Karphin.GCMemcard.Theorems

/-!
# What `Open` guarantees

Which errors a card that is opened may have, and what the check of its directory against its table says about the
chains of its files.
-/

namespace Karphin.GCMemcard

open GCMemcardErrorCode (single)

/-! ## Errors -/

section Errors

variable {e e' : GCMemcardErrorCode}

theorem hasCriticalErrors_union : (e ∪ e').hasCriticalErrors = (e.hasCriticalErrors || e'.hasCriticalErrors) := by
  simp only [GCMemcardErrorCode.hasCriticalErrors, Finset.mem_union, Bool.decide_or]
  ac_rfl

theorem hasCriticalErrors_inconsistent {b : Bool} :
    (single .dirBatInconsistent b).hasCriticalErrors = b := by
  cases b with
  | false => simp [single, GCMemcardErrorCode.hasCriticalErrors]
  | true => simp [single, GCMemcardErrorCode.hasCriticalErrors]

theorem hasCriticalErrors_unusedArea {b : Bool} : (single .dataInUnusedArea b).hasCriticalErrors = false := by
  cases b with
  | false => simp [single, GCMemcardErrorCode.hasCriticalErrors]
  | true => simp [single, GCMemcardErrorCode.hasCriticalErrors]

end Errors

namespace Memcard

/-! ## A card that is opened -/

structure Opened (f : CardFile) (errors : GCMemcardErrorCode) (card : Memcard) : Prop where
  valid : card.valid = true
  size : card.sizeMb ∈ validMegabits
  fileSize : (bytesToMegabits f.size).getD 0 = card.sizeMb
  sizeBlocks : card.sizeBlocks = card.sizeMb * mbitToBlocks
  headerBlock : card.headerBlock = f.headerBlock
  directoryBlocks : card.directoryBlocks = repairDirectory f.directoryBlocks
  batBlocks : card.batBlocks = repairBat card.sizeMb f.batBlocks
  dataBlocks : card.dataBlocks = f.dataBlocks.take (card.sizeBlocks - mcFstBlocks)
  activeDirectory : card.activeDirectory =
    if (card.directoryBlocks 0).updateCounter ≥ (card.directoryBlocks 1).updateCounter then 0 else 1
  activeBat : card.activeBat = if (card.batBlocks 0).updateCounter ≥ (card.batBlocks 1).updateCounter then 0 else 1
  errors_eq : errors = card.headerBlock.checkForErrors card.sizeMb ∪ (card.directoryBlocks 0).checkForErrors ∪
    (card.directoryBlocks 1).checkForErrors ∪ (card.batBlocks 0).checkForErrors card.sizeMb ∪
    (card.batBlocks 1).checkForErrors card.sizeMb ∪
    card.getActiveDirectory.checkForErrorsWithBat card.getActiveBat
  accepted : errors.hasCriticalErrors = false

variable {f : CardFile} {errors : GCMemcardErrorCode} {card : Memcard}

theorem of_ite_some {α : Type} {e : GCMemcardErrorCode} {x y : α} {p : Prop} [Decidable p]
    (h : (if p then (e, none) else (e, some x)) = (errors, some y)) : ¬ p ∧ e = errors ∧ x = y := by
  split at h
  · simp at h
  · next hp =>
      simp only [Prod.mk.injEq, Option.some.injEq] at h
      exact ⟨hp, h⟩

theorem openFile_some (h : openFile f = (errors, some card)) : Opened f errors card := by
  have hmbits : (bytesToMegabits f.size).getD 0 ∈ validMegabits := by
    by_contra hno
    rw [openFile, if_pos hno] at h
    cases h
  rw [openFile, if_neg (not_not.mpr hmbits)] at h
  dsimp only at h
  by_cases hheader : (f.headerBlock.checkForErrors ((bytesToMegabits f.size).getD 0)).hasCriticalErrors = true
  · rw [if_pos hheader] at h
    cases h
  rw [if_neg hheader] at h
  by_cases hcorrupted : 1 < [(f.directoryBlocks 0).checkForErrors, (f.directoryBlocks 1).checkForErrors,
      (f.batBlocks 0).checkForErrors ((bytesToMegabits f.size).getD 0),
      (f.batBlocks 1).checkForErrors ((bytesToMegabits f.size).getD 0)].countP GCMemcardErrorCode.hasCriticalErrors
  · rw [if_pos hcorrupted] at h
    cases h
  rw [if_neg hcorrupted] at h
  obtain ⟨haccepted, rfl, rfl⟩ := of_ite_some h
  exact ⟨rfl, hmbits, rfl, rfl, rfl, rfl, rfl, rfl, rfl, rfl, rfl, Bool.eq_false_iff.mpr haccepted⟩

theorem Opened.size_le (h : Opened f errors card) : card.sizeBlocks ≤ 2048 ∧ 64 ≤ card.sizeBlocks := by
  have hs := h.size
  rw [h.sizeBlocks]
  simp only [validMegabits, List.mem_cons, List.not_mem_nil, or_false, mbitToBlocks] at hs ⊢
  omega

theorem Opened.matches (h : Opened f errors card) (i : Fin dirLen)
    (hu : (getElem card.getActiveDirectory.dirEntries i i.isLt).used = true) :
    Directory.batBlockCountMatches card.getActiveBat (getElem card.getActiveDirectory.dirEntries i i.isLt).blockCount
      (getElem card.getActiveDirectory.dirEntries i i.isLt).firstBlock = true := by
  have haccepted := h.accepted
  rw [h.errors_eq, hasCriticalErrors_union, Bool.or_eq_false_iff] at haccepted
  have hwith := haccepted.2
  rw [Directory.checkForErrorsWithBat, hasCriticalErrors_inconsistent, List.any_eq_false] at hwith
  have hi := hwith i (List.mem_finRange i)
  rw [hu] at hi
  simpa using hi

end Memcard

/-! ## Tables -/

namespace BlockAlloc

variable {bat : BlockAlloc} {sizeMbits : Nat}

def hasUnusedData (bat : BlockAlloc) (sizeMbits : Nat) : Bool :=
  (List.range' (sizeMbits * mbitToBlocks - mcFstBlocks) (batSize - (sizeMbits * mbitToBlocks - mcFstBlocks))).any
    (bat.map · ≠ 0)

theorem checkForErrors_eq (hsize : sizeMbits ∈ validMegabits) : bat.checkForErrors sizeMbits =
    single .invalidChecksum (bat.calculateChecksums ≠ (bat.checksum, bat.checksumInv)) ∪
      single .freeBlockMismatch (Memcard.freeCount (sizeMbits * mbitToBlocks) bat ≠ bat.freeBlocks) ∪
      single .dataInUnusedArea (bat.hasUnusedData sizeMbits) := by
  have hrange : sizeMbits > 0 ∧ sizeMbits ≤ 256 := by
    simp only [validMegabits, List.mem_cons, List.not_mem_nil, or_false] at hsize
    omega
  have hcount := countP_complement bat.map (sizeMbits * mbitToBlocks - mcFstBlocks)
  rw [checkForErrors, if_pos hrange]
  simp only [hcount]
  rfl

theorem checkForErrors_fixChecksums_eq (hsize : sizeMbits ∈ validMegabits)
    (hfree : bat.freeBlocks = Memcard.freeCount (sizeMbits * mbitToBlocks) bat) :
    bat.fixChecksums.checkForErrors sizeMbits = single .dataInUnusedArea (bat.hasUnusedData sizeMbits) := by
  have hsum : bat.fixChecksums.calculateChecksums = (bat.fixChecksums.checksum, bat.fixChecksums.checksumInv) := by
    simp only [fixChecksums, calculateChecksums, Prod.mk.eta]
  have hcount : Memcard.freeCount (sizeMbits * mbitToBlocks) bat.fixChecksums =
      Memcard.freeCount (sizeMbits * mbitToBlocks) bat := by
    simp only [Memcard.freeCount, fixChecksums_map]
  have hunused : bat.fixChecksums.hasUnusedData sizeMbits = bat.hasUnusedData sizeMbits := by
    simp only [hasUnusedData, fixChecksums_map]
  rw [checkForErrors_eq hsize, hsum, hcount, hunused, fixChecksums_freeBlocks, hfree]
  simp [single]

theorem checkForErrors_eq_empty (hsize : sizeMbits ∈ validMegabits) (h : bat.checkForErrors sizeMbits = ∅) :
    bat.freeBlocks = Memcard.freeCount (sizeMbits * mbitToBlocks) bat ∧ bat.hasUnusedData sizeMbits = false := by
  rw [checkForErrors_eq hsize, Finset.union_eq_empty, Finset.union_eq_empty, single_eq_empty, single_eq_empty,
    single_eq_empty] at h
  exact ⟨(by simpa using h.1.2 : _ = _).symm, h.2⟩

end BlockAlloc

/-! ## A file that needs no repair -/

namespace Memcard

def loaded (f : CardFile) (sizeMbits : Nat) : Memcard where
  valid := true
  sizeBlocks := sizeMbits * mbitToBlocks
  sizeMb := sizeMbits
  headerBlock := f.headerBlock
  directoryBlocks := f.directoryBlocks
  batBlocks := f.batBlocks
  dataBlocks := f.dataBlocks.take (sizeMbits * mbitToBlocks - mcFstBlocks)
  activeDirectory := if (f.directoryBlocks 0).updateCounter ≥ (f.directoryBlocks 1).updateCounter then 0 else 1
  activeBat := if (f.batBlocks 0).updateCounter ≥ (f.batBlocks 1).updateCounter then 0 else 1

def loadErrors (f : CardFile) (sizeMbits : Nat) : GCMemcardErrorCode :=
  f.headerBlock.checkForErrors sizeMbits ∪ (f.directoryBlocks 0).checkForErrors ∪
    (f.directoryBlocks 1).checkForErrors ∪ (f.batBlocks 0).checkForErrors sizeMbits ∪
    (f.batBlocks 1).checkForErrors sizeMbits ∪
    (loaded f sizeMbits).getActiveDirectory.checkForErrorsWithBat (loaded f sizeMbits).getActiveBat

/-- The four blocks and the header have no critical error. -/
structure Intact (f : CardFile) (sizeMbits : Nat) : Prop where
  fileSize : bytesToMegabits f.size = some sizeMbits
  size : sizeMbits ∈ validMegabits
  header : (f.headerBlock.checkForErrors sizeMbits).hasCriticalErrors = false
  dirs : ∀ i, (f.directoryBlocks i).checkForErrors.hasCriticalErrors = false
  bats : ∀ i, ((f.batBlocks i).checkForErrors sizeMbits).hasCriticalErrors = false

theorem openFile_intact {f : CardFile} {sizeMbits : Nat} (h : Intact f sizeMbits) :
    openFile f = if (loadErrors f sizeMbits).hasCriticalErrors then (loadErrors f sizeMbits, none)
      else (loadErrors f sizeMbits, some (loaded f sizeMbits)) := by
  have hdirs : repairDirectory f.directoryBlocks = f.directoryBlocks := by
    simp [repairDirectory, h.dirs]
  have hbats : repairBat sizeMbits f.batBlocks = f.batBlocks := by
    simp [repairBat, h.bats]
  have hnone : ¬ 1 < [(f.directoryBlocks 0).checkForErrors, (f.directoryBlocks 1).checkForErrors,
      (f.batBlocks 0).checkForErrors sizeMbits, (f.batBlocks 1).checkForErrors sizeMbits].countP
        GCMemcardErrorCode.hasCriticalErrors := by
    simp [h.dirs, h.bats]
  rw [openFile]
  simp only [h.fileSize, Option.getD_some]
  rw [if_neg (not_not.mpr h.size), if_neg (Bool.eq_false_iff.mp h.header), if_neg hnone]
  simp only [hdirs, hbats]
  rfl

theorem openFile_intact_some {f : CardFile} {sizeMbits : Nat} (h : Intact f sizeMbits)
    (hwith : ((loaded f sizeMbits).getActiveDirectory.checkForErrorsWithBat
      (loaded f sizeMbits).getActiveBat).hasCriticalErrors = false) :
    openFile f = (loadErrors f sizeMbits, some (loaded f sizeMbits)) := by
  rw [openFile_intact h, if_neg]
  simp only [loadErrors, hasCriticalErrors_union, h.header, h.dirs, h.bats, hwith]
  decide

end Memcard

/-! ## Chains that leave the card -/

namespace BlockAlloc

variable {bat : BlockAlloc} {size : Nat}

theorem getNextBlock_ne_zero {b : Nat} (h : bat.getNextBlock b ≠ 0) : mcFstBlocks ≤ b ∧ b ≤ 4091 := by
  rw [getNextBlock] at h
  split at h
  · exact absurd rfl h
  · omega

theorem getNextBlock_onCard {b : Nat} (hb : mcFstBlocks ≤ b) :
    (bat.onCard size).getNextBlock b = if b < size then bat.getNextBlock b else 0 := by
  simp only [getNextBlock, onCard]
  split
  · simp
  · by_cases hlt : b < size
    · rw [if_pos hlt, if_pos (by omega)]
    · rw [if_neg hlt, if_neg (by omega)]

theorem followed_onCard : ∀ {count first : Nat}, Directory.batBlockCountMatches bat count first = true →
    ((∀ b ∈ bat.followed count first, mcFstBlocks ≤ b ∧ b < size) ↔
      Directory.batBlockCountMatches (bat.onCard size) count first = true)
  | 0, first, h => by cases h
  | count + 1, first, h => by
      simp only [Directory.batBlockCountMatches] at h ⊢
      split at h
      · cases h
      next hnext =>
      obtain ⟨hfst, hmax⟩ := getNextBlock_ne_zero hnext
      have hfollowed : bat.followed (count + 1) first = first :: bat.followed count (bat.getNextBlock first) := by
        rw [followed, if_neg]
        simp only [mcFstBlocks] at hfst
        omega
      rw [hfollowed, getNextBlock_onCard hfst]
      simp only [List.forall_mem_cons]
      by_cases hlt : first < size
      · rw [if_pos hlt, if_neg hnext]
        simp only [hfst, hlt, and_self, true_and]
        split at h
        · next hlast =>
            -- the last block
            have hzero : count = 0 := of_decide_eq_true h
            subst hzero
            simp [followed, hlast]
        · next hmore =>
            rw [if_neg hmore]
            exact followed_onCard h
      · rw [if_neg hlt]
        simp [hlt]

end BlockAlloc

namespace Memcard

variable {card : Memcard}

end Memcard

end Karphin.GCMemcard
