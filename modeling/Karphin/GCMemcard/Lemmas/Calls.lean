import Karphin.GCMemcard.Lemmas.Card

/-!
# What a call does

A call that fails leaves the card as it is. One that succeeds replaces the directory, the table and the data.
-/

namespace Karphin.GCMemcard.Memcard

variable {card : Memcard} {n : Nat} {savefile : Savefile}

/-! ## `ImportFile` -/

def importedDirectory (card : Memcard) (savefile : Savefile) (k : Fin dirLen) (firstBlock : Nat) : Directory :=
  { setEntry card.getActiveDirectory k (newEntry savefile.dirEntry firstBlock) with
    updateCounter := nextCounter card.getActiveDirectory.updateCounter }

def importedBat (savefile : Savefile) (bat : BlockAlloc) : BlockAlloc :=
  { bat with
    freeBlocks := bat.freeBlocks - savefile.dirEntry.blockCount
    updateCounter := nextCounter bat.updateCounter }

theorem importFile_cases (card : Memcard) (savefile : Savefile) :
    ((card.importFile savefile).1 ≠ .success ∧ (card.importFile savefile).2 = card) ∨
    ∃ firstBlock, (card.importFile savefile).1 = .success ∧ card.getNumFiles < dirLen ∧
      savefile.dirEntry.blockCount ≤ card.getActiveBat.freeBlocks ∧
      firstBlock = card.getActiveBat.nextFreeBlock card.sizeBlocks card.getActiveBat.lastAllocatedBlock ∧
      firstBlock ≠ 0xFFFF ∧
      ∀ k, (List.finRange dirLen).find? (fun i => !(getElem card.getActiveDirectory.dirEntries i i.isLt).used) = some k →
        (card.importFile savefile).2 = (card.replace (importedDirectory card savefile k firstBlock)
          (importedBat savefile (copyBlocks card.sizeBlocks (card.validBlocks savefile) savefile.dirEntry.blockCount 0
            firstBlock card.getActiveBat card.dataBlocks).1)
          (copyBlocks card.sizeBlocks (card.validBlocks savefile) savefile.dirEntry.blockCount 0 firstBlock
            card.getActiveBat card.dataBlocks).2).fixChecksums := by
  unfold importFile
  simp only []
  split
  · exact .inl ⟨by simp, rfl⟩
  split
  · exact .inl ⟨by simp, rfl⟩
  next hfiles =>
  split
  · exact .inl ⟨by simp, rfl⟩
  next hfree =>
  split
  · exact .inl ⟨by simp, rfl⟩
  split
  · exact .inl ⟨by simp, rfl⟩
  next hfirst =>
  refine .inr ⟨_, rfl, by omega, by omega, rfl, hfirst, ?_⟩
  intro k hk
  rw [hk]
  rfl

theorem find_unused (hvalid : card.valid = true) (h : card.getNumFiles < dirLen) :
    ∃ k, (List.finRange dirLen).find? (fun i => !(getElem card.getActiveDirectory.dirEntries i i.isLt).used) = some k ∧
      (getElem card.getActiveDirectory.dirEntries k k.isLt).used = false := by
  rw [getNumFiles, if_pos hvalid] at h
  have hlen : (List.finRange dirLen).length = dirLen := List.length_finRange
  have hnot : ¬ ∀ i ∈ List.finRange dirLen, card.getActiveDirectory.dirEntries[i].used = true := by
    intro hall
    rw [List.countP_eq_length.2 hall, hlen] at h
    exact absurd h (Nat.lt_irrefl _)
  simp only [not_forall] at hnot
  obtain ⟨i, hi, hu⟩ := hnot
  have hsome : ((List.finRange dirLen).find? (fun i => !card.getActiveDirectory.dirEntries[i].used)).isSome = true := by
    apply List.find?_isSome.2
    exact ⟨i, hi, by simpa only [Bool.not_eq_true'] using Bool.eq_false_iff.2 hu⟩
  obtain ⟨k, hk⟩ := Option.isSome_iff_exists.1 hsome
  have hku := List.find?_some hk
  exact ⟨k, hk, by simpa only [Bool.not_eq_true'] using hku⟩

/-- The new entry, its blocks, and the card after a successful import. -/
structure Imported (card : Memcard) (savefile : Savefile) (card' : Memcard) (k : Fin dirLen) (firstBlock : Nat)
    (bat : BlockAlloc) (data : List GCMBlock) (new : List Nat) : Prop where
  unused : (getElem card.getActiveDirectory.dirEntries k k.isLt).used = false
  allocated : Allocated card.sizeBlocks savefile.dirEntry.blockCount 0 firstBlock (card.validBlocks savefile)
    card.getActiveBat card.dataBlocks bat data new
  enough : savefile.dirEntry.blockCount ≤ card.getActiveBat.freeBlocks
  eq : card' = (card.replace (importedDirectory card savefile k firstBlock) (importedBat savefile bat) data).fixChecksums

theorem Shape.free (h : Shape n card) : card.getActiveBat.freeBlocks = freeCount card.sizeBlocks card.getActiveBat := by
  rw [h.sizeBlocks]
  exact (h.sound card.activeBat).free

theorem Shape.imported (h : Shape n card) (hcount : 1 ≤ savefile.dirEntry.blockCount)
    (hs : (card.importFile savefile).1 = .success) :
    ∃ k firstBlock bat data new, Imported card savefile (card.importFile savefile).2 k firstBlock bat data new := by
  obtain ⟨hfail, -⟩ | ⟨first, -, hfiles, henough, hfirst, hne, heq⟩ := importFile_cases card savefile
  · exact absurd hs hfail
  obtain ⟨k, hk, hunused⟩ := find_unused h.valid hfiles
  have hsize := h.size_le
  have hbat : card.sizeBlocks ≤ batSize + mcFstBlocks := by
    simp only [batSize, mcFstBlocks]
    omega
  have hfst : mcFstBlocks ≤ card.sizeBlocks := by
    simp only [mcFstBlocks]
    omega
  rw [hfirst] at hne
  obtain ⟨h1, h2, h3⟩ := BlockAlloc.nextFreeBlock_spec hbat hfst h.last hne
  rw [← hfirst] at h1 h2 h3
  obtain ⟨remaining, hrem⟩ : ∃ remaining, savefile.dirEntry.blockCount = remaining + 1 := Nat.exists_eq_add_of_le' hcount
  have hfree := h.free
  obtain ⟨new, hnew⟩ := @copyBlocks_allocated card.sizeBlocks (card.validBlocks savefile) (by omega) remaining 0 first
    card.getActiveBat card.dataBlocks h.dataLength (by omega) h1 h2 (BlockAlloc.isFree_iff.1 h3) (by omega)
  rw [← hrem] at hnew
  exact ⟨k, first, _, _, new, hunused, hnew, henough, heq k hk⟩

theorem Imported.sound {card' : Memcard} {k : Fin dirLen} {firstBlock : Nat} {bat : BlockAlloc} {data : List GCMBlock}
    {new : List Nat} (h : Shape n card) (hi : Imported card savefile card' k firstBlock bat data new) :
    BlockAlloc.Sound card.sizeMb (importedBat savefile bat) := by
  have hold := h.sound card.activeBat
  have hfree := h.free
  have hcount := hi.allocated.count
  constructor
  · have hnew : freeCount (card.sizeMb * mbitToBlocks) (importedBat savefile bat) = freeCount card.sizeBlocks bat := by
      rw [h.sizeBlocks]
      rfl
    rw [hnew]
    simp only [importedBat, hi.allocated.freeBlocks]
    omega
  · intro j hj
    have hmap : (importedBat savefile bat).map j = card.getActiveBat.map j := by
      apply hi.allocated.frame
      intro hmem
      have := (hi.allocated.range _ hmem).2
      rw [h.sizeBlocks] at this
      omega
    rw [hmap]
    exact hold.unused j hj

theorem Imported.shape {card' : Memcard} {k : Fin dirLen} {firstBlock : Nat} {bat : BlockAlloc} {data : List GCMBlock}
    {new : List Nat} (h : Shape n card) (hn : n < 32767) (hcount : 1 ≤ savefile.dirEntry.blockCount)
    (hused : savefile.dirEntry.used = true) (hi : Imported card savefile card' k firstBlock bat data new) :
    Shape (n + 1) card' ∧ Checked card' := by
  obtain ⟨chain, hc⟩ := h.chains
  have hsize : card.sizeBlocks ≤ 4092 := by
    have := h.size_le
    omega
  have hadd := hc.add hsize hi.allocated hi.unused (e := newEntry savefile.dirEntry firstBlock) rfl rfl hused
  have hchains : Chains card.sizeBlocks (importedDirectory card savefile k firstBlock) (importedBat savefile bat)
      (Function.update chain k new) := hadd.congr hsize rfl rfl
  have hself : (importedDirectory card savefile k firstBlock).dirEntries[k] = newEntry savefile.dirEntry firstBlock :=
    setEntry_self ..
  have hother : ∀ j, j ≠ k →
      (importedDirectory card savefile k firstBlock).dirEntries[j] = card.getActiveDirectory.dirEntries[j] :=
    fun j hj => setEntry_ne _ hj _
  have hshape : Shape (n + 1)
      (card.replace (importedDirectory card savefile k firstBlock) (importedBat savefile bat) data) := by
    apply h.replace hn
    · rfl
    · exact h.padding card.activeDirectory
    · exact congrArg nextCounter hi.allocated.updateCounter
    · exact hi.sound h
    · exact hi.allocated.last.le
    · exact hi.allocated.dataLength
    · intro j hj
      by_cases hjk : j = k
      · rw [hjk, hself] at hj
        rw [show (newEntry savefile.dirEntry firstBlock).used = savefile.dirEntry.used from rfl, hused] at hj
        cases hj
      · rw [hother j hjk] at hj ⊢
        exact h.unused j hj
    · intro j hj
      by_cases hjk : j = k
      · rw [hjk, hself]
        exact hcount
      · rw [hother j hjk] at hj ⊢
        exact h.positive j hj
    · exact ⟨_, hchains⟩
  rw [hi.eq]
  exact hshape.fixChecksums

/-! ## `RemoveFile` -/

def removedDirectory (card : Memcard) (k : Fin dirLen) : Directory :=
  { setEntry card.getActiveDirectory k {} with
    updateCounter := nextCounter card.getActiveDirectory.updateCounter }

def removedBat (card : Memcard) (blocks : List Nat) : BlockAlloc :=
  { cleared card.getActiveBat blocks with updateCounter := nextCounter card.getActiveBat.updateCounter }

theorem removeFile_unused (h : Shape n card) (k : Fin dirLen)
    (hk : (getElem card.getActiveDirectory.dirEntries k k.isLt).used = false) :
    card.removeFile k = (.deleteFail, card) := by
  obtain ⟨hfirst, hcount⟩ := h.unused k hk
  rw [Fin.getElem_fin] at hfirst hcount
  have hclear : card.getActiveBat.clearBlocks 0xFFFF 0xFFFF = none := by
    simp [BlockAlloc.clearBlocks, BlockAlloc.collect]
  rw [removeFile, h.valid, dif_pos k.2]
  simp only [Bool.not_true, Bool.false_eq_true, if_false, hfirst, hcount, hclear]

theorem removeFile_used (h : Shape n card) {chain : Fin dirLen → List Nat}
    (hc : Chains card.sizeBlocks card.getActiveDirectory card.getActiveBat chain) (k : Fin dirLen)
    (hk : (getElem card.getActiveDirectory.dirEntries k k.isLt).used = true) :
    card.removeFile k = (.success,
      (card.replace (removedDirectory card k) (removedBat card (chain k)) card.dataBlocks).fixChecksums) := by
  have hsize : card.sizeBlocks ≤ 4092 := by
    have := h.size_le
    omega
  have hclear := clearBlocks_chain hsize (hc.follows k hk) (hc.nodup k hk)
  rw [hc.length k hk, Fin.getElem_fin] at hclear
  rw [removeFile, h.valid, dif_pos k.2]
  simp only [Bool.not_true, Bool.false_eq_true, if_false, hclear]
  rfl

theorem removeFile_outside (card : Memcard) {index : Nat} (h : ¬ index < dirLen) : (card.removeFile index).2 = card := by
  rw [removeFile, dif_neg h]
  split
  · rfl
  · rfl

theorem Shape.removed (h : Shape n card) (hn : n < 32767) {chain : Fin dirLen → List Nat}
    (hc : Chains card.sizeBlocks card.getActiveDirectory card.getActiveBat chain) {k : Fin dirLen}
    (hk : (getElem card.getActiveDirectory.dirEntries k k.isLt).used = true) :
    Shape (n + 1) (card.removeFile k).2 ∧ Checked (card.removeFile k).2 := by
  have hsize : card.sizeBlocks ≤ 4092 := by
    have := h.size_le
    omega
  have hremove : Chains card.sizeBlocks (removedDirectory card k) (removedBat card (chain k)) chain :=
    (hc.remove hsize hk used_default).congr hsize rfl rfl
  have hself : (removedDirectory card k).dirEntries[k] = {} := setEntry_self ..
  have hother : ∀ j, j ≠ k → (removedDirectory card k).dirEntries[j] = card.getActiveDirectory.dirEntries[j] :=
    fun j hj => setEntry_ne _ hj _
  have hfree := h.free
  have hcount := freeCount_cleared hsize (hc.follows k hk) (hc.nodup k hk)
  have hsound : BlockAlloc.Sound card.sizeMb (removedBat card (chain k)) := by
    constructor
    · rw [← h.sizeBlocks]
      exact (congrArg (· + (chain k).length) hfree).trans hcount.symm
    · intro j hj
      have hzero := (h.sound card.activeBat).unused j hj
      have hmap := foldl_clear (chain k) card.getActiveBat.map (fun b hb => ((hc.follows k hk).range b hb).1) j
      refine hmap.trans ?_
      split
      · rfl
      · exact hzero
  have hshape : Shape (n + 1)
      (card.replace (removedDirectory card k) (removedBat card (chain k)) card.dataBlocks) := by
    apply h.replace hn
    · rfl
    · exact h.padding card.activeDirectory
    · rfl
    · exact hsound
    · exact h.last
    · rfl
    · intro j hj
      by_cases hjk : j = k
      · rw [hjk, hself]
        exact ⟨rfl, rfl⟩
      · rw [hother j hjk] at hj ⊢
        exact h.unused j hj
    · intro j hj
      by_cases hjk : j = k
      · rw [hjk, hself, used_default] at hj
        cases hj
      · rw [hother j hjk] at hj ⊢
        exact h.positive j hj
    · exact ⟨_, hremove⟩
  rw [removeFile_used h hc k hk]
  exact hshape.fixChecksums

/-! ## Any number of calls -/

theorem Shape.mono {m : Nat} (h : Shape n card) (hnm : n ≤ m) : Shape m card :=
  { h with
    newestDirectory := h.newestDirectory.mono hnm
    newestBat := h.newestBat.mono hnm }

theorem Shape.call (h : Shape n card) (hchecked : Checked card) (hn : n < 32767) (c : Call) (hc : c.Allowed) :
    Shape (n + 1) (card.call c) ∧ Checked (card.call c) := by
  have hsame : Shape (n + 1) card ∧ Checked card := ⟨h.mono (Nat.le_succ n), hchecked⟩
  cases c with
  | importFile savefile =>
      obtain ⟨hlen, hpos, hused, -⟩ := hc
      rw [hlen] at hpos
      obtain ⟨-, heq⟩ | ⟨-, hs, -⟩ := importFile_cases card savefile
      · simp only [Memcard.call, heq]
        exact hsame
      · obtain ⟨k, first, bat, data, new, hi⟩ := h.imported hpos hs
        exact hi.shape h hn hpos hused
  | removeFile index =>
      by_cases hindex : index < dirLen
      · by_cases hu : card.getActiveDirectory.dirEntries[(⟨index, hindex⟩ : Fin dirLen)].used = true
        · obtain ⟨chain, hchain⟩ := h.chains
          exact h.removed hn hchain hu
        · have heq := removeFile_unused h ⟨index, hindex⟩ (Bool.eq_false_iff.2 hu)
          simp only at heq
          simp only [Memcard.call, heq]
          exact hsame
      · simp only [Memcard.call, removeFile_outside card hindex]
        exact hsame

theorem shape_calls : ∀ {calls : List Call} {n : Nat} {card : Memcard}, Shape n card → Checked card →
    n + calls.length < 32768 → (∀ c ∈ calls, c.Allowed) →
    Shape (n + calls.length) (calls.foldl Memcard.call card) ∧ Checked (calls.foldl Memcard.call card)
  | [], _, _, h, hchecked, _, _ => ⟨h, hchecked⟩
  | c :: calls, n, card, h, hchecked, hlen, hall => by
      simp only [List.length_cons] at hlen
      obtain ⟨h', hchecked'⟩ := h.call hchecked (by omega) c (hall c (List.mem_cons_self ..))
      have ih := shape_calls h' hchecked' (by omega) (fun c' hc' => hall c' (List.mem_cons_of_mem _ hc'))
      rw [List.length_cons, List.foldl_cons, ← Nat.add_assoc, Nat.add_right_comm]
      exact ih

end Karphin.GCMemcard.Memcard
