import Karphin.GCMemcard.Untrusted

/-!
# The walk of `ClearBlocks`

`ClearBlocks` follows a chain to its end, however long it is, and `Open` has followed the chain of each file only for itself.
The walks of all files end on every card that was opened; which blocks they have in common is left to the image.
-/

namespace Karphin.GCMemcard

/-! ## Walks -/

namespace BlockAlloc

def Walks (bat : BlockAlloc) : Nat → List Nat → Nat → Prop
  | first, [], last => first = last ∧ (last = 0 ∨ last = 0xFFFF)
  | first, b :: bs, last => first = b ∧ b ≠ 0xFFFF ∧ b ≠ 0 ∧ Walks bat (bat.getNextBlock b) bs last

def Ends (bat : BlockAlloc) (first : Nat) : Prop := ∃ blocks last, bat.Walks first blocks last

def Visits (bat : BlockAlloc) (first : Nat) (blocks : List Nat) : Prop :=
  ∃ last, ∀ fuel > blocks.length, bat.collect fuel first = some (blocks, last)

variable {bat bat' : BlockAlloc} {first last last' : Nat} {blocks blocks' : List Nat}

theorem Walks.collect (h : bat.Walks first blocks last) : ∀ fuel > blocks.length,
    bat.collect fuel first = some (blocks, last) := by
  induction blocks generalizing first with
  | nil =>
      obtain ⟨rfl, hlast⟩ := h
      intro fuel hfuel
      obtain ⟨fuel, rfl⟩ := Nat.exists_eq_add_of_lt hfuel
      rw [BlockAlloc.collect, if_neg (by omega)]
  | cons b bs ih =>
      obtain ⟨rfl, hlast, hzero, hrest⟩ := h
      intro fuel hfuel
      obtain ⟨fuel, rfl⟩ : ∃ n, fuel = n + 1 := Nat.exists_eq_add_of_le' (Nat.zero_lt_of_lt hfuel)
      rw [BlockAlloc.collect, if_pos ⟨hlast, hzero⟩, ih hrest fuel (Nat.lt_of_succ_lt_succ hfuel)]
      rfl

theorem Walks.visits (h : bat.Walks first blocks last) : bat.Visits first blocks := ⟨last, h.collect⟩

theorem Walks.unique (h : bat.Walks first blocks last) (h' : bat.Walks first blocks' last') :
    blocks = blocks' ∧ last = last' := by
  have hone := h.collect (blocks.length + blocks'.length + 1) (by omega)
  rw [h'.collect _ (by omega), Option.some.injEq, Prod.mk.injEq] at hone
  exact ⟨hone.1.symm, hone.2.symm⟩

theorem Walks.eq_of_visits (h : bat.Walks first blocks last) (h' : bat.Visits first blocks') : blocks' = blocks := by
  obtain ⟨last', hall⟩ := h'
  have hone := h.collect (blocks.length + blocks'.length + 1) (by omega)
  rw [hall _ (by omega), Option.some.injEq, Prod.mk.injEq] at hone
  exact hone.1

theorem Walks.of_mem (h : bat.Walks first blocks last) {b : Nat} (hb : b ∈ blocks) :
    ∃ tail, bat.Walks b (b :: tail) last ∧ tail.length < blocks.length := by
  induction blocks generalizing first with
  | nil => cases hb
  | cons c bs ih =>
      obtain ⟨rfl, hlast, hzero, hrest⟩ := h
      rcases List.mem_cons.mp hb with rfl | hb
      · exact ⟨bs, ⟨rfl, hlast, hzero, hrest⟩, Nat.lt_succ_self _⟩
      · obtain ⟨tail, htail, hlt⟩ := ih hrest hb
        exact ⟨tail, htail, hlt.trans (Nat.lt_succ_self _)⟩

theorem Walks.nodup (h : bat.Walks first blocks last) : blocks.Nodup := by
  induction blocks generalizing first with
  | nil => exact List.nodup_nil
  | cons b bs ih =>
      have hwhole := h
      obtain ⟨rfl, hlast, hzero, hrest⟩ := h
      refine List.nodup_cons.mpr ⟨fun hmem => ?_, ih hrest⟩
      obtain ⟨tail, htail, hlt⟩ := hrest.of_mem hmem
      obtain ⟨heq, -⟩ := htail.unique hwhole
      rw [(List.cons.inj heq).2] at hlt
      exact Nat.lt_irrefl _ hlt

theorem Walks.allocated (h : bat.Walks first blocks 0xFFFF) {b : Nat} (hb : b ∈ blocks) :
    mcFstBlocks ≤ b ∧ b ≤ 4091 ∧ bat.map (b - mcFstBlocks) ≠ 0 := by
  obtain ⟨tail, ⟨-, -, -, hrest⟩, -⟩ := h.of_mem hb
  have hnext : bat.getNextBlock b ≠ 0 := by
    cases tail with
    | nil => exact hrest.1 ▸ (by decide)
    | cons c tail => exact hrest.1 ▸ hrest.2.2.1
  obtain ⟨hfst, hmax⟩ := getNextBlock_ne_zero hnext
  rw [Memcard.getNextBlock_of_range (Nat.le_refl _) hfst (Nat.lt_succ_of_le hmax)] at hnext
  exact ⟨hfst, hmax, hnext⟩

theorem Walks.dropLast_range (h : bat.Walks first blocks last) : ∀ b ∈ blocks.dropLast, mcFstBlocks ≤ b ∧ b < 4092 := by
  induction blocks generalizing first with
  | nil => exact fun b hb => absurd hb List.not_mem_nil
  | cons b bs ih =>
      obtain ⟨rfl, -, -, hrest⟩ := h
      cases bs with
      | nil => exact fun b hb => absurd hb List.not_mem_nil
      | cons c bs =>
          have hnext : bat.getNextBlock first ≠ 0 := hrest.1 ▸ hrest.2.2.1
          obtain ⟨hfst, hmax⟩ := getNextBlock_ne_zero hnext
          intro b hb
          rw [List.dropLast_cons_cons] at hb
          rcases List.mem_cons.mp hb with rfl | hb
          · exact ⟨hfst, Nat.lt_succ_of_le hmax⟩
          · exact ih hrest b hb

theorem Walks.length_lt (h : bat.Walks first blocks last) : blocks.length < batSize + 2 := by
  have hle := Memcard.length_le_of_range (h.nodup.sublist (List.dropLast_sublist blocks)) h.dropLast_range
  rw [List.length_dropLast] at hle
  simp only [mcFstBlocks, batSize] at hle ⊢
  omega

theorem Walks.clearBlocks (h : bat.Walks first blocks last) (count : Nat) :
    bat.clearBlocks first count =
      if last = 0xFFFF ∧ blocks.length = count then some (Memcard.cleared bat blocks) else none := by
  have hlast : last = 0 ∨ last = 0xFFFF := by
    clear * - h
    induction blocks generalizing first with
    | nil => exact h.2
    | cons b bs ih => exact ih h.2.2.2
  rw [BlockAlloc.clearBlocks, h.collect _ h.length_lt]
  rcases hlast with rfl | rfl
  · simp
  · by_cases hcount : blocks.length = count
    · rw [if_pos ⟨rfl, hcount⟩]
      dsimp only
      rw [if_pos ⟨by decide, hcount⟩, Memcard.cleared, hcount]
    · rw [if_neg fun hboth => hcount hboth.2]
      dsimp only
      rw [if_neg fun hboth => hcount hboth.2]

/-! ## Walks in tables that change -/

theorem ends_zero : bat.Ends 0 := ⟨[], 0, rfl, .inl rfl⟩

theorem ends_last : bat.Ends 0xFFFF := ⟨[], 0xFFFF, rfl, .inr rfl⟩

theorem Ends.of_next (h : bat.Ends (bat.getNextBlock first)) : bat.Ends first := by
  obtain ⟨blocks, last, hwalks⟩ := h
  by_cases hlast : first = 0xFFFF
  · exact hlast ▸ ends_last
  · by_cases hzero : first = 0
    · exact hzero ▸ ends_zero
    · exact ⟨first :: blocks, last, rfl, hlast, hzero, hwalks⟩

theorem Ends.change (h : bat.Ends first)
    (hnext : ∀ b, bat'.getNextBlock b = bat.getNextBlock b ∨ bat'.Ends (bat'.getNextBlock b)) : bat'.Ends first := by
  obtain ⟨blocks, last, hwalks⟩ := h
  induction blocks generalizing first with
  | nil => exact ⟨[], last, hwalks⟩
  | cons b bs ih =>
      obtain ⟨rfl, -, -, hrest⟩ := hwalks
      rcases hnext first with heq | hends
      · refine Ends.of_next ?_
        rw [heq]
        exact ih hrest
      · exact hends.of_next

theorem getNextBlock_congr (hmap : bat'.map = bat.map) (b : Nat) : bat'.getNextBlock b = bat.getNextBlock b := by
  rw [getNextBlock, getNextBlock, hmap]

theorem Ends.congr (h : bat.Ends first) (hmap : bat'.map = bat.map) : bat'.Ends first :=
  h.change fun b => .inl (getNextBlock_congr hmap b)

theorem Ends.clear (h : bat.Ends first) (hzero : ∀ k, bat'.map k = 0 ∨ bat'.map k = bat.map k) : bat'.Ends first := by
  refine h.change fun b => ?_
  simp only [getNextBlock]
  split
  · exact .inl rfl
  · rcases hzero (b - mcFstBlocks) with hk | hk
    · exact .inr (hk ▸ ends_zero)
    · exact .inl hk

theorem clearBlocks_map {count : Nat} (h : bat.clearBlocks first count = some bat') (k : Nat) :
    bat'.map k = 0 ∨ bat'.map k = bat.map k := by
  have hfold : ∀ (blocks : List Nat) (map : Nat → Nat),
      blocks.foldl (fun map b => Function.update map (b - mcFstBlocks) 0) map k = 0 ∨
        blocks.foldl (fun map b => Function.update map (b - mcFstBlocks) 0) map k = map k := by
    intro blocks
    induction blocks with
    | nil => exact fun map => .inr rfl
    | cons b blocks ih =>
        intro map
        rw [List.foldl_cons]
        rcases ih (Function.update map (b - mcFstBlocks) 0) with hzero | hsame
        · exact .inl hzero
        · rw [hsame]
          by_cases hk : k = b - mcFstBlocks
          · exact .inl (by rw [hk, Function.update_self])
          · exact .inr (Function.update_of_ne hk _ _)
  rw [clearBlocks] at h
  split at h
  · cases h
  · split at h
    · cases h
      exact hfold _ _
    · cases h

/-- The table with a block cleared, as the loop of `ImportFile` finds it for the block that it is at. -/
def withFree (bat : BlockAlloc) (b : Nat) : BlockAlloc :=
  { bat with map := Function.update bat.map (b - mcFstBlocks) 0 }

theorem getNextBlock_withFree_last (bat : BlockAlloc) (b : Nat) :
    (bat.withFree 0xFFFF).getNextBlock b = bat.getNextBlock b := by
  simp only [getNextBlock, withFree]
  split
  · rfl
  · exact Function.update_of_ne (by simp only [mcFstBlocks] at *; omega) _ _

theorem nextFreeBlock_isFree (bat : BlockAlloc) (size start : Nat) :
    bat.nextFreeBlock size start = 0xFFFF ∨ bat.isFree (bat.nextFreeBlock size start) = true := by
  rw [nextFreeBlock]
  split
  · dsimp only
    split
    next hi => exact .inr (List.find?_some hi)
    next =>
      split
      next hi => exact .inr (List.find?_some hi)
      next => exact .inl rfl
  · exact .inl rfl

theorem Ends.mark {b next : Nat} (h : (bat.withFree b).Ends first) (hnext : next = 0xFFFF ∨ bat.isFree next = true) :
    ((Memcard.mark bat b next).withFree next).Ends first := by
  refine h.change fun c => ?_
  simp only [getNextBlock, withFree, Memcard.mark]
  split
  · exact .inl rfl
  next hrange =>
    by_cases hc : c - mcFstBlocks = next - mcFstBlocks
    · rw [hc, Function.update_self]
      exact .inr ends_zero
    · rw [Function.update_of_ne hc]
      by_cases hb : c - mcFstBlocks = b - mcFstBlocks
      · rw [hb, Function.update_self]
        refine .inr ?_
        rcases hnext with rfl | -
        · exact ends_last
        · refine Ends.of_next ?_
          simp only [getNextBlock]
          split
          · exact ends_zero
          · rw [Function.update_self]
            exact ends_zero
      · rw [Function.update_of_ne hb, Function.update_of_ne hb]
        exact .inl rfl

end BlockAlloc

namespace Memcard

open BlockAlloc
open GCMemcardErrorCode (single)

variable {card : Memcard} {bat : BlockAlloc} {size : Nat}

theorem ends_copyBlocks {blocks : List GCMBlock} {start : Nat} (remaining i first : Nat) (bat : BlockAlloc)
    (data : List GCMBlock) (h : (bat.withFree first).Ends start) :
    (copyBlocks size blocks (remaining + 1) i first bat data).1.Ends start := by
  induction remaining generalizing i first bat data with
  | zero =>
      have hmark : ((mark bat first 0xFFFF).withFree 0xFFFF).Ends start := h.mark (.inl rfl)
      exact hmark.change fun b => .inl (getNextBlock_withFree_last _ b).symm
  | succ remaining ih =>
      rw [copyBlocks]
      simp only [Nat.add_eq_zero_iff, Nat.one_ne_zero, and_false, if_false]
      exact ih _ _ _ _ (h.mark (nextFreeBlock_isFree bat size (first + 1)))

/-! ## Every sequence of calls -/

theorem removeFile_cases (card : Memcard) (index : Nat) : (card.removeFile index).2 = card ∨
    ∃ (k : Fin dirLen) (bat : BlockAlloc), index = k ∧
      card.getActiveBat.clearBlocks (getElem card.getActiveDirectory.dirEntries k k.isLt).firstBlock
        (getElem card.getActiveDirectory.dirEntries k k.isLt).blockCount = some bat ∧
      (card.removeFile index).2 = (card.replace (removedDirectory card k)
        { bat with updateCounter := nextCounter bat.updateCounter } card.dataBlocks).fixChecksums := by
  rw [removeFile]
  split
  · exact .inl rfl
  · split
    next hindex =>
      dsimp only
      split
      · exact .inl rfl
      next bat hbat => exact .inr ⟨⟨index, hindex⟩, bat, rfl, hbat, rfl⟩
    · exact .inl rfl

theorem valid_replaced {dir : Directory} {data : List GCMBlock} (h : card.valid = true) :
    (card.replace dir bat data).fixChecksums.valid = true := by
  have hvalid : (card.replace dir bat data).valid = true := replace_valid h
  rw [fixChecksums_eq hvalid]
  exact hvalid

theorem getActiveDirectory_replaced {dir : Directory} {data : List GCMBlock} (h : card.valid = true) :
    (card.replace dir bat data).fixChecksums.getActiveDirectory.dirEntries = dir.dirEntries := by
  have hvalid : (card.replace dir bat data).valid = true := replace_valid h
  rw [getActiveDirectory_fixChecksums hvalid, Directory.fixChecksums_dirEntries, getActiveDirectory_replace]

theorem getActiveBat_replaced (dir : Directory) (data : List GCMBlock) (h : card.valid = true) :
    (card.replace dir bat data).fixChecksums.getActiveBat.map = bat.map ∧
      (card.replace dir bat data).fixChecksums.getActiveBat.freeBlocks = bat.freeBlocks := by
  have hvalid : (card.replace dir bat data).valid = true := replace_valid h
  rw [getActiveBat_fixChecksums hvalid, BlockAlloc.fixChecksums_map, BlockAlloc.fixChecksums_freeBlocks,
    getActiveBat_replace]
  exact ⟨rfl, rfl⟩

structure WalksEnd (card : Memcard) : Prop where
  valid : card.valid = true
  ends : ∀ i : Fin dirLen, (getElem card.getActiveDirectory.dirEntries i i.isLt).used = true →
    card.getActiveBat.Ends (getElem card.getActiveDirectory.dirEntries i i.isLt).firstBlock

theorem WalksEnd.replace {dir : Directory} {data : List GCMBlock} (h : card.WalksEnd) {k : Fin dirLen}
    (hother : ∀ i, i ≠ k → getElem dir.dirEntries i i.isLt = getElem card.getActiveDirectory.dirEntries i i.isLt)
    (hkept : ∀ first, card.getActiveBat.Ends first → bat.Ends first)
    (hk : (getElem dir.dirEntries k k.isLt).used = true → bat.Ends (getElem dir.dirEntries k k.isLt).firstBlock) :
    (card.replace dir bat data).fixChecksums.WalksEnd := by
  refine ⟨valid_replaced h.valid, fun i hi => ?_⟩
  rw [getActiveDirectory_replaced h.valid] at hi ⊢
  refine Ends.congr ?_ (getActiveBat_replaced dir data h.valid).1
  by_cases hik : i = k
  · exact hik ▸ hk (hik ▸ hi)
  · rw [hother i hik] at hi ⊢
    exact hkept _ (h.ends i hi)

theorem WalksEnd.removed (h : card.WalksEnd) (index : Nat) : (card.removeFile index).2.WalksEnd := by
  obtain heq | ⟨k, bat, rfl, hclear, heq⟩ := removeFile_cases card index
  · rwa [heq]
  · rw [heq]
    refine h.replace (fun i hi => setEntry_ne _ hi _) (fun first hfirst => ?_) fun hused => ?_
    · exact (hfirst.clear (clearBlocks_map hclear)).congr rfl
    · have hdefault : (removedDirectory card k).dirEntries[k] = {} := setEntry_self ..
      rw [hdefault, used_default] at hused
      cases hused

theorem WalksEnd.imported (h : card.WalksEnd) (savefile : Savefile) : (card.importFile savefile).2.WalksEnd := by
  obtain ⟨-, heq⟩ | ⟨first, -, hfiles, -, hfirst, hne, heq⟩ := importFile_cases card savefile
  · rwa [heq]
  · obtain ⟨k, hk, -⟩ := find_unused h.valid hfiles
    rw [heq k hk]
    have hfree : card.getActiveBat.isFree first = true := by
      rcases nextFreeBlock_isFree card.getActiveBat card.sizeBlocks card.getActiveBat.lastAllocatedBlock with hlast | hfree
      · exact absurd (hfirst.trans hlast) hne
      · rwa [hfirst]
    -- the first block is free, so that clearing it changes nothing
    have hsame : (card.getActiveBat.withFree first).map = card.getActiveBat.map := by
      funext c
      by_cases hc : c = first - mcFstBlocks
      · rw [hc, isFree_iff.mp hfree]
        exact Function.update_self ..
      · exact Function.update_of_ne hc _ _
    have hcopy : ∀ start, card.getActiveBat.Ends start → (copyBlocks card.sizeBlocks (card.validBlocks savefile)
        savefile.dirEntry.blockCount 0 first card.getActiveBat card.dataBlocks).1.Ends start := by
      intro start hstart
      cases savefile.dirEntry.blockCount with
      | zero => exact hstart
      | succ remaining => exact ends_copyBlocks remaining 0 first _ _ (hstart.congr hsame)
    refine h.replace (fun i hi => setEntry_ne _ hi _) (fun start hstart => (hcopy start hstart).congr rfl) fun _ => ?_
    have hentry : (importedDirectory card savefile k first).dirEntries[k].firstBlock = first := by
      have hself : (importedDirectory card savefile k first).dirEntries[k] = newEntry savefile.dirEntry first :=
        setEntry_self ..
      rw [hself]
      rfl
    rw [hentry]
    refine (hcopy first (Ends.of_next ?_)).congr rfl
    rw [getNextBlock]
    split
    · exact ends_zero
    · rw [isFree_iff.mp hfree]
      exact ends_zero

theorem WalksEnd.calls (h : card.WalksEnd) (calls : List Call) : (calls.foldl Memcard.call card).WalksEnd := by
  induction calls generalizing card with
  | nil => exact h
  | cons c calls ih =>
      cases c with
      | importFile savefile => exact ih (h.imported savefile)
      | removeFile index => exact ih (h.removed index)

/-! ## The card that is opened -/

theorem walks_of_matches {count first : Nat} (h : Directory.batBlockCountMatches bat count first = true) :
    ∃ blocks, bat.Walks first blocks 0xFFFF ∧ blocks.length = count := by
  induction count generalizing first with
  | zero => cases h
  | succ count ih =>
      rw [Directory.batBlockCountMatches] at h
      split at h
      · cases h
      next hnext =>
        obtain ⟨hfst, hmax⟩ := getNextBlock_ne_zero hnext
        have hne : first ≠ 0xFFFF ∧ first ≠ 0 := by
          simp only [mcFstBlocks] at hfst
          omega
        split at h
        next hlast =>
          obtain rfl : count = 0 := of_decide_eq_true h
          exact ⟨[first], ⟨rfl, hne.1, hne.2, hlast, .inr rfl⟩, rfl⟩
        next =>
          obtain ⟨blocks, hblocks, hlength⟩ := ih h
          exact ⟨first :: blocks, ⟨rfl, hne.1, hne.2, hblocks⟩, congrArg (· + 1) hlength⟩

variable {f : CardFile} {errors : GCMemcardErrorCode}

theorem Opened.walks (h : Opened f errors card) (i : Fin dirLen)
    (hu : (getElem card.getActiveDirectory.dirEntries i i.isLt).used = true) :
    ∃ blocks, card.getActiveBat.Walks (getElem card.getActiveDirectory.dirEntries i i.isLt).firstBlock blocks 0xFFFF ∧
      blocks.length = (getElem card.getActiveDirectory.dirEntries i i.isLt).blockCount :=
  walks_of_matches (h.matches i hu)

theorem Opened.walksEnd (h : Opened f errors card) : card.WalksEnd := by
  refine ⟨h.valid, fun i hi => ?_⟩
  obtain ⟨blocks, hwalks, -⟩ := h.walks i hi
  exact ⟨blocks, _, hwalks⟩

/-! ## Files that are kept apart -/

theorem Follows.walks {first : Nat} {blocks : List Nat} (hsize : size ≤ 4092) (h : Follows bat size first blocks) :
    bat.Walks first blocks 0xFFFF := by
  induction blocks generalizing first with
  | nil => exact ⟨h, .inr rfl⟩
  | cons b bs ih =>
      obtain ⟨rfl, hfst, hlt, hrest⟩ := h
      refine ⟨rfl, ?_, ?_, ih hrest⟩
      · omega
      · simp only [mcFstBlocks] at hfst
        omega

theorem follows_of_walks {first : Nat} {blocks : List Nat} (h : bat.Walks first blocks 0xFFFF)
    (hcard : ∀ b ∈ blocks, b < size) : Follows bat size first blocks := by
  induction blocks generalizing first with
  | nil => exact h.1
  | cons b bs ih =>
      have hfst := (h.allocated List.mem_cons_self).1
      obtain ⟨rfl, -, -, hrest⟩ := h
      exact ⟨rfl, hfst, hcard first List.mem_cons_self, ih hrest fun c hc => hcard c (List.mem_cons_of_mem _ hc)⟩

def HasBlocks (dir : Directory) (i : Fin dirLen) : Prop :=
  (getElem dir.dirEntries i i.isLt).used = true ∧ 1 ≤ (getElem dir.dirEntries i i.isLt).blockCount

instance (dir : Directory) (i : Fin dirLen) : Decidable (HasBlocks dir i) := inferInstanceAs (Decidable (_ ∧ _))

structure Separate (size : Nat) (dir : Directory) (bat : BlockAlloc) (chain : Fin dirLen → List Nat) : Prop where
  follows : ∀ i, HasBlocks dir i → Follows bat size (getElem dir.dirEntries i i.isLt).firstBlock (chain i)
  length : ∀ i, HasBlocks dir i → (chain i).length = (getElem dir.dirEntries i i.isLt).blockCount
  disjoint : ∀ i j, HasBlocks dir i → HasBlocks dir j → i ≠ j → (chain i).Disjoint (chain j)

variable {dir dir' : Directory} {bat' : BlockAlloc} {chain : Fin dirLen → List Nat} {k : Fin dirLen} {e : DEntry}
  {blocks new : List Nat}

theorem Separate.congr (h : Separate size dir bat chain) (hsize : size ≤ 4092) (hdir : dir'.dirEntries = dir.dirEntries)
    (hmap : bat'.map = bat.map) : Separate size dir' bat' chain := by
  have hhas : ∀ {i}, HasBlocks dir' i → HasBlocks dir i := by
    intro i hi
    rwa [HasBlocks, hdir] at hi
  refine ⟨fun i hi => ?_, fun i hi => ?_, fun i j hi hj => h.disjoint i j (hhas hi) (hhas hj)⟩
  · rw [hdir]
    exact (h.follows i (hhas hi)).congr hsize fun b _ => by rw [hmap]
  · rw [hdir]
    exact h.length i (hhas hi)

theorem HasBlocks.of_setEntry {i : Fin dirLen} (h : HasBlocks (setEntry dir k e) i) (hik : i ≠ k) : HasBlocks dir i := by
  rwa [HasBlocks, setEntry_ne dir hik] at h

theorem Separate.add (h : Separate size dir bat chain) (hsize : size ≤ 4092)
    (hfree : ∀ b ∈ new, bat.map (b - mcFstBlocks) = 0) (hframe : ∀ c, c + mcFstBlocks ∉ new → bat'.map c = bat.map c)
    (hnew : 1 ≤ e.blockCount → Follows bat' size e.firstBlock new ∧ new.length = e.blockCount) :
    Separate size (setEntry dir k e) bat' (Function.update chain k new) := by
  have hold : ∀ j, HasBlocks dir j → ∀ b ∈ chain j, b ∉ new :=
    fun j hj b hb hmem => (h.follows j hj).marked hsize b hb (hfree b hmem)
  have hself : HasBlocks (setEntry dir k e) k → 1 ≤ e.blockCount := by
    intro hk
    rw [HasBlocks, setEntry_self] at hk
    exact hk.2
  refine ⟨fun i hi => ?_, fun i hi => ?_, fun i j hi hj hij => ?_⟩
  · by_cases hik : i = k
    · subst hik
      rw [setEntry_self, Function.update_self]
      exact (hnew (hself hi)).1
    · have hi' := hi.of_setEntry hik
      rw [setEntry_ne dir hik, Function.update_of_ne hik]
      refine (h.follows i hi').congr hsize fun b hb => hframe _ ?_
      rw [Nat.sub_add_cancel ((h.follows i hi').range b hb).1]
      exact hold i hi' b hb
  · by_cases hik : i = k
    · subst hik
      rw [setEntry_self, Function.update_self]
      exact (hnew (hself hi)).2
    · rw [setEntry_ne dir hik, Function.update_of_ne hik]
      exact h.length i (hi.of_setEntry hik)
  · by_cases hik : i = k
    · subst hik
      rw [Function.update_self, Function.update_of_ne (Ne.symm hij)]
      exact fun b hb hb' => hold j (hj.of_setEntry (Ne.symm hij)) b hb' hb
    · rw [Function.update_of_ne hik]
      by_cases hjk : j = k
      · subst hjk
        rw [Function.update_self]
        exact fun b hb hb' => hold i (hi.of_setEntry hik) b hb hb'
      · rw [Function.update_of_ne hjk]
        exact h.disjoint i j (hi.of_setEntry hik) (hj.of_setEntry hjk) hij

theorem Separate.remove (h : Separate size dir bat chain) (hsize : size ≤ 4092) (he : e.used = false)
    (hrange : ∀ b ∈ blocks, mcFstBlocks ≤ b)
    (hother : ∀ i, i ≠ k → HasBlocks dir i → (chain i).Disjoint blocks) :
    Separate size (setEntry dir k e) (cleared bat blocks) chain := by
  have hne : ∀ {i}, HasBlocks (setEntry dir k e) i → i ≠ k := by
    rintro i hi rfl
    rw [HasBlocks, setEntry_self, he] at hi
    cases hi.1
  refine ⟨fun i hi => ?_, fun i hi => ?_, fun i j hi hj =>
    h.disjoint i j (hi.of_setEntry (hne hi)) (hj.of_setEntry (hne hj))⟩
  · have hi' := hi.of_setEntry (hne hi)
    rw [setEntry_ne dir (hne hi)]
    refine (h.follows i hi').congr hsize fun b hb => (foldl_clear blocks bat.map hrange _).trans (if_neg ?_)
    rw [Nat.sub_add_cancel ((h.follows i hi').range b hb).1]
    exact hother i (hne hi) hi' hb
  · rw [setEntry_ne dir (hne hi)]
    exact h.length i (hi.of_setEntry (hne hi))

/-- The files are kept apart, and the blocks of the card that no file has are counted. -/
structure KeptApart (card : Memcard) : Prop where
  walksEnd : card.WalksEnd
  size : card.sizeBlocks ≤ 2048 ∧ 64 ≤ card.sizeBlocks
  dataLength : card.dataBlocks.length = card.sizeBlocks - mcFstBlocks
  free : card.getActiveBat.freeBlocks = freeCount card.sizeBlocks card.getActiveBat
  chains : ∃ chain, Separate card.sizeBlocks card.getActiveDirectory card.getActiveBat chain

theorem KeptApart.replace {data : List GCMBlock} (h : card.KeptApart)
    (hwalks : (card.replace dir bat data).fixChecksums.WalksEnd) (hdata : data.length = card.dataBlocks.length)
    (hfree : bat.freeBlocks = freeCount card.sizeBlocks bat) (hchains : ∃ chain, Separate card.sizeBlocks dir bat chain) :
    (card.replace dir bat data).fixChecksums.KeptApart := by
  have hvalid : (card.replace dir bat data).valid = true := replace_valid h.walksEnd.valid
  have hshape : (card.replace dir bat data).fixChecksums.sizeBlocks = card.sizeBlocks ∧
      (card.replace dir bat data).fixChecksums.dataBlocks = data := by
    rw [fixChecksums_eq hvalid]
    exact ⟨rfl, rfl⟩
  obtain ⟨hmap, hblocks⟩ := @getActiveBat_replaced card bat dir data h.walksEnd.valid
  refine ⟨hwalks, by rw [hshape.1]; exact h.size, ?_, ?_, ?_⟩
  · rw [hshape.1, hshape.2, hdata]
    exact h.dataLength
  · rw [hshape.1, hblocks, hfree, freeCount, freeCount, hmap]
  · obtain ⟨chain, hchain⟩ := hchains
    rw [hshape.1]
    have hsize := h.size
    exact ⟨chain, hchain.congr (by omega) (getActiveDirectory_replaced h.walksEnd.valid) hmap⟩

theorem KeptApart.removed (h : card.KeptApart) {index : Nat}
    (hused : ∀ hindex : index < dirLen, card.getActiveDirectory.dirEntries[index].used = true) :
    (card.removeFile index).2.KeptApart := by
  have hwalks := h.walksEnd.removed index
  obtain heq | ⟨k, bat, rfl, hclear, heq⟩ := removeFile_cases card index
  · rwa [heq]
  · rw [heq] at hwalks ⊢
    have hk : card.getActiveDirectory.dirEntries[k].used = true := hused k.2
    obtain ⟨chain, hchain⟩ := h.chains
    obtain ⟨blocks, last, hw⟩ := h.walksEnd.ends k hk
    have hsize : card.sizeBlocks ≤ 4092 := h.size.1.trans (by decide)
    rw [hw.clearBlocks] at hclear
    split at hclear
    next hend =>
      obtain ⟨rfl, hlength⟩ := hend
      cases hclear
      -- an entry without blocks has nothing to clear
      have hown : ∀ b ∈ blocks, HasBlocks card.getActiveDirectory k ∧ blocks = chain k := by
        intro b hb
        have hpos : 1 ≤ blocks.length := List.length_pos_of_mem hb
        have hhas : HasBlocks card.getActiveDirectory k := ⟨hk, hlength ▸ hpos⟩
        exact ⟨hhas, (hw.unique ((hchain.follows k hhas).walks hsize)).1⟩
      have hrange : ∀ b ∈ blocks, mcFstBlocks ≤ b ∧ b < card.sizeBlocks := by
        intro b hb
        obtain ⟨hhas, heq⟩ := hown b hb
        exact (hchain.follows k hhas).range b (heq ▸ hb)
      have hother : ∀ i, i ≠ k → HasBlocks card.getActiveDirectory i → (chain i).Disjoint blocks := by
        intro i hik hi b hb hmem
        obtain ⟨hhas, heq⟩ := hown b hmem
        exact hchain.disjoint i k hi hhas hik hb (heq ▸ hmem)
      refine h.replace hwalks rfl ?_ ⟨chain, ?_⟩
      · have hcount := countP_foldl_clear (n := card.sizeBlocks - mcFstBlocks) blocks card.getActiveBat.map hw.nodup
          fun b hb => ⟨(hrange b hb).1, by have := hrange b hb; omega, (hw.allocated hb).2.2⟩
        exact (congrArg (· + blocks.length) h.free).trans hcount.symm
      · exact (hchain.remove hsize used_default (fun b hb => (hrange b hb).1) hother).congr hsize rfl rfl
    next => cases hclear

theorem copyBlocks_apart {fileBlocks : List GCMBlock} {data : List GCMBlock} {first count : Nat} (hsize : size ≤ 4092)
    (hdata : data.length = size - mcFstBlocks) (hfree : 0 < bat.freeBlocks) (hfst : mcFstBlocks ≤ first)
    (hlt : first < size) (hisFree : bat.isFree first = true) (hcount : count ≤ freeCount size bat) :
    ∃ new, (∀ b ∈ new, bat.map (b - mcFstBlocks) = 0) ∧
      (∀ c, c + mcFstBlocks ∉ new → (copyBlocks size fileBlocks count 0 first bat data).1.map c = bat.map c) ∧
      (1 ≤ count → Follows (copyBlocks size fileBlocks count 0 first bat data).1 size first new ∧ new.length = count) := by
  cases count with
  | zero => exact ⟨[], fun b hb => absurd hb List.not_mem_nil, fun _ _ => rfl, fun h => absurd h (by decide)⟩
  | succ remaining =>
      obtain ⟨new, ha⟩ := @copyBlocks_allocated size fileBlocks hsize remaining 0 first bat data hdata hfree hfst hlt
        (isFree_iff.mp hisFree) hcount
      exact ⟨new, ha.free, ha.frame, fun _ => ⟨ha.follows, ha.length⟩⟩

theorem KeptApart.imported (h : card.KeptApart) (savefile : Savefile) : (card.importFile savefile).2.KeptApart := by
  have hwalks := h.walksEnd.imported savefile
  obtain ⟨-, heq⟩ | ⟨first, -, hfiles, henough, hfirst, hne, heq⟩ := importFile_cases card savefile
  · rwa [heq]
  · obtain ⟨k, hk, -⟩ := find_unused h.walksEnd.valid hfiles
    rw [heq k hk] at hwalks ⊢
    have hsize := h.size
    have hpos : 0 < card.getActiveBat.freeBlocks := by
      by_contra hzero
      rw [nextFreeBlock, if_neg hzero] at hfirst
      exact hne hfirst
    obtain ⟨j, hj, hj0⟩ := exists_of_countP_pos card.getActiveBat.map (n := card.sizeBlocks - mcFstBlocks) (by
      have := h.free
      rw [freeCount] at this
      omega)
    obtain ⟨h1, h2, h3⟩ := @nextFreeBlock_free card.getActiveBat card.sizeBlocks card.getActiveBat.lastAllocatedBlock
      (j + mcFstBlocks) hpos (by simp only [batSize]; omega) (by omega) (by omega)
      (by rw [isFree_iff, Nat.add_sub_cancel]; exact hj0)
    rw [← hfirst] at h1 h2 h3
    have hcount : savefile.dirEntry.blockCount ≤ freeCount card.sizeBlocks card.getActiveBat := h.free ▸ henough
    have hext := @copyBlocks_extended card.sizeBlocks savefile.dirEntry.blockCount first card.getActiveBat
      (card.validBlocks savefile) card.dataBlocks (by omega) h.dataLength hpos h1 h2 h3 hcount
    obtain ⟨new, hnewFree, hframe, hnew⟩ := @copyBlocks_apart card.getActiveBat card.sizeBlocks
      (card.validBlocks savefile) card.dataBlocks first savefile.dirEntry.blockCount (by omega) h.dataLength hpos h1 h2
      h3 hcount
    obtain ⟨chain, hchain⟩ := h.chains
    refine h.replace hwalks hext.dataLength ?_ ⟨Function.update chain k new, ?_⟩
    · have hfree := hext.free
      have hblocks := hext.freeBlocks
      have hold := h.free
      change _ - _ = freeCount card.sizeBlocks _
      rw [hblocks, hold]
      exact Nat.sub_eq_of_eq_add hfree.symm
    · exact (hchain.add (by omega) hnewFree hframe hnew (k := k) (e := newEntry savefile.dirEntry first)).congr (by omega)
        rfl rfl

/-! ## What is freed -/

/-- The blocks are allocated, and they are cleared and counted as free, and no others. -/
structure Frees (bat bat' : BlockAlloc) (blocks : List Nat) : Prop where
  nodup : blocks.Nodup
  allocated : ∀ b ∈ blocks, mcFstBlocks ≤ b ∧ b ≤ 4091 ∧ bat.map (b - mcFstBlocks) ≠ 0
  map : ∀ c, bat'.map c = if c + mcFstBlocks ∈ blocks then 0 else bat.map c
  freeBlocks : bat'.freeBlocks = bat.freeBlocks + blocks.length

theorem frees_cleared {first : Nat} (h : bat.Walks first blocks 0xFFFF) : Frees bat (cleared bat blocks) blocks where
  nodup := h.nodup
  allocated _ hb := h.allocated hb
  map := foldl_clear blocks bat.map fun _ hb => (h.allocated hb).1
  freeBlocks := rfl

def clearEntry (card : Memcard) (i : Fin dirLen) : Option BlockAlloc :=
  card.getActiveBat.clearBlocks (getElem card.getActiveDirectory.dirEntries i i.isLt).firstBlock
    (getElem card.getActiveDirectory.dirEntries i i.isLt).blockCount

def Chain (card : Memcard) (i : Fin dirLen) (blocks : List Nat) : Prop :=
  card.getActiveBat.Visits (getElem card.getActiveDirectory.dirEntries i i.isLt).firstBlock blocks

/-- The chains of the files lie on the card and have no block in common. -/
structure FilesApart (card : Memcard) : Prop where
  onCard : ∀ i blocks, (getElem card.getActiveDirectory.dirEntries i i.isLt).used = true → card.Chain i blocks →
    ∀ b ∈ blocks, b < card.sizeBlocks
  disjoint : ∀ i j blocks blocks', (getElem card.getActiveDirectory.dirEntries i i.isLt).used = true →
    (getElem card.getActiveDirectory.dirEntries j j.isLt).used = true → i ≠ j → card.Chain i blocks → card.Chain j blocks' →
      blocks.Disjoint blocks'

def RemovesUsed (card : Memcard) : List Call → Prop
  | [] => True
  | c :: calls =>
      (∀ index, c = .removeFile index → ∀ hindex : index < dirLen,
        card.getActiveDirectory.dirEntries[index].used = true) ∧ RemovesUsed (card.call c) calls

theorem Opened.dataLength (h : Opened f errors card) : card.dataBlocks.length = card.sizeBlocks - mcFstBlocks := by
  have hfile := h.fileSize
  have hsize := h.size_le
  rw [bytesToMegabits] at hfile
  have hblocks := h.sizeBlocks
  rw [h.dataBlocks, List.length_take]
  split at hfile
  · rw [Option.getD_none] at hfile
    simp only [mbitToBlocks] at hblocks
    omega
  next hrest =>
    rw [Option.getD_some] at hfile
    simp only [CardFile.size, mbitToBlocks, mcFstBlocks] at hfile hrest hblocks ⊢
    omega

theorem hasCriticalErrors_freeBlocks {b : Bool} : (single .freeBlockMismatch b).hasCriticalErrors = b := by
  cases b with
  | true => rfl
  | false => rfl

theorem Opened.free (h : Opened f errors card) :
    card.getActiveBat.freeBlocks = freeCount card.sizeBlocks card.getActiveBat := by
  have haccepted := h.accepted
  simp only [h.errors_eq, hasCriticalErrors_union, Bool.or_eq_false_iff] at haccepted
  have hbat : (card.getActiveBat.checkForErrors card.sizeMb).hasCriticalErrors = false := by
    have hcases : card.activeBat = 0 ∨ card.activeBat = 1 := by omega
    rw [getActiveBat]
    rcases hcases with hzero | hone
    · rw [hzero]
      exact haccepted.1.1.2
    · rw [hone]
      exact haccepted.1.2
  simp only [checkForErrors_eq h.size, hasCriticalErrors_union, hasCriticalErrors_freeBlocks, Bool.or_eq_false_iff,
    decide_eq_false_iff_not, not_not] at hbat
  rw [h.sizeBlocks]
  exact hbat.1.2.symm

theorem Opened.keptApart (h : Opened f errors card) (hapart : card.FilesApart) : card.KeptApart := by
  have hall : ∀ i : Fin dirLen, ∃ blocks, card.getActiveDirectory.dirEntries[i].used = true →
      card.getActiveBat.Walks card.getActiveDirectory.dirEntries[i].firstBlock blocks 0xFFFF ∧
        blocks.length = card.getActiveDirectory.dirEntries[i].blockCount := by
    intro i
    by_cases hi : card.getActiveDirectory.dirEntries[i].used = true
    · obtain ⟨blocks, hblocks⟩ := h.walks i hi
      exact ⟨blocks, fun _ => hblocks⟩
    · exact ⟨[], fun hu => absurd hu hi⟩
  choose chain hchain using hall
  refine ⟨h.walksEnd, h.size_le, h.dataLength, h.free, chain, fun i hi => ?_, fun i hi => (hchain i hi.1).2,
    fun i j hi hj hij => ?_⟩
  · exact follows_of_walks (hchain i hi.1).1 (hapart.onCard i _ hi.1 (hchain i hi.1).1.visits)
  · exact hapart.disjoint i j _ _ hi.1 hj.1 hij (hchain i hi.1).1.visits (hchain j hj.1).1.visits

theorem KeptApart.calls (h : card.KeptApart) (calls : List Call) (hcalls : card.RemovesUsed calls) :
    (calls.foldl Memcard.call card).KeptApart := by
  induction calls generalizing card with
  | nil => exact h
  | cons c calls ih =>
      obtain ⟨hc, hrest⟩ := hcalls
      cases c with
      | importFile savefile => exact ih (h.imported savefile) hrest
      | removeFile index => exact ih (h.removed (hc index rfl)) hrest

structure ClearsChains (card : Memcard) : Prop where
  /-- The walk of every file ends, and what is freed is the chain of the entry. -/
  chain : ∀ (calls : List Call) (card' : Memcard), card' = calls.foldl Memcard.call card →
    ∀ i : Fin dirLen, (getElem card'.getActiveDirectory.dirEntries i i.isLt).used = true → ∃ blocks, card'.Chain i blocks ∧
      ∀ bat, card'.clearEntry i = some bat →
        blocks.length = (getElem card'.getActiveDirectory.dirEntries i i.isLt).blockCount ∧ Frees card'.getActiveBat bat blocks
  /-- No file of the card itself is refused. -/
  accepted : ∀ i : Fin dirLen, (getElem card.getActiveDirectory.dirEntries i i.isLt).used = true →
    (card.clearEntry i).isSome = true
  /-- Where the files are apart and only files are removed, no file with blocks is refused, and no other is touched. -/
  apart : card.FilesApart → ∀ (calls : List Call) (card' : Memcard), card' = calls.foldl Memcard.call card →
    card.RemovesUsed calls → ∀ i, HasBlocks card'.getActiveDirectory i → (card'.clearEntry i).isSome = true ∧
      ∀ j blocks blocks', HasBlocks card'.getActiveDirectory j → i ≠ j → card'.Chain i blocks → card'.Chain j blocks' →
        blocks.Disjoint blocks'

theorem clearBlocks_after_calls (hopen : openFile f = (errors, some card)) : card.ClearsChains := by
  have h := openFile_some hopen
  refine ⟨?_, ?_, ?_⟩
  · rintro calls card' rfl i hi
    obtain ⟨blocks, last, hw⟩ := (h.walksEnd.calls calls).ends i hi
    refine ⟨blocks, hw.visits, fun bat hclear => ?_⟩
    rw [clearEntry, hw.clearBlocks] at hclear
    split at hclear
    next hend =>
      obtain ⟨rfl, hlength⟩ := hend
      cases hclear
      exact ⟨hlength, frees_cleared hw⟩
    next => cases hclear
  · intro i hi
    obtain ⟨blocks, hw, hlength⟩ := h.walks i hi
    rw [clearEntry, hw.clearBlocks, if_pos ⟨rfl, hlength⟩]
    rfl
  · rintro hapart calls card' rfl hcalls i hi
    have hkept := (h.keptApart hapart).calls calls hcalls
    obtain ⟨chain, hchain⟩ := hkept.chains
    have hsize := hkept.size.1.trans (by decide : 2048 ≤ 4092)
    have hw := (hchain.follows i hi).walks hsize
    refine ⟨?_, fun j blocks blocks' hj hij hblocks hblocks' => ?_⟩
    · rw [clearEntry, hw.clearBlocks, if_pos ⟨rfl, hchain.length i hi⟩]
      rfl
    · rw [hw.eq_of_visits hblocks, ((hchain.follows j hj).walks hsize).eq_of_visits hblocks']
      exact hchain.disjoint i j hi hj hij

theorem Chains.filesApart (h : Chains card.sizeBlocks card.getActiveDirectory card.getActiveBat chain)
    (hsize : card.sizeBlocks ≤ 4092) : card.FilesApart where
  onCard i blocks hi hblocks b hb := by
    have hfollows := h.follows i hi
    rw [(hfollows.walks hsize).eq_of_visits hblocks] at hb
    exact (hfollows.range b hb).2
  disjoint i j blocks blocks' hi hj hij hblocks hblocks' := by
    rw [((h.follows i hi).walks hsize).eq_of_visits hblocks, ((h.follows j hj).walks hsize).eq_of_visits hblocks']
    exact h.disjoint i j hi hj hij

/-- A card with a file that is removed and imported again. -/
theorem clearBlocks_after_calls_twoBlockFile :
    ∃ card, openFile (smallCard.importFile twoBlockFile).2.save = (∅, some card) ∧ card.ClearsChains ∧
      card.FilesApart ∧ card.RemovesUsed [.removeFile 0, .importFile twoBlockFile] ∧
      HasBlocks ([.removeFile 0, .importFile twoBlockFile].foldl Memcard.call card).getActiveDirectory firstIndex := by
  have hshape : Shape 0 smallCard := shape_create (by decide)
  have hchecked : Checked smallCard := checked_create (by decide)
  have hused : (smallCard.importFile twoBlockFile).2.getActiveDirectory.dirEntries[firstIndex].used = true := by
    decide
  obtain ⟨hshape, hchecked⟩ := hshape.call hchecked (by decide) (.importFile twoBlockFile) allowed_twoBlockFile
  have hopen := openFile_save hshape hchecked
  obtain ⟨chain, hchains⟩ := hshape.chains
  refine ⟨_, hopen, clearBlocks_after_calls hopen, hchains.filesApart (hshape.size_le.1.trans (by decide)), ?_, ?_⟩
  · refine ⟨fun index heq hindex => ?_, fun index heq => ?_, trivial⟩
    · cases heq
      exact hused
    · cases heq
  · refine ⟨by decide, by decide⟩

/-! ## Images that do not keep their files apart -/

def image (dir : Directory) (bat : BlockAlloc) : CardFile where
  headerBlock := smallCard.headerBlock
  directoryBlocks := fun _ => dir.fixChecksums
  batBlocks := fun _ => bat.fixChecksums
  dataBlocks := smallCard.dataBlocks

theorem image_opened (hpad : dir.padding = Vector.replicate 0x3a 0xFF) (hfree : bat.freeBlocks = freeCount 64 bat)
    (hwith : ((loaded (image dir bat) 4).getActiveDirectory.checkForErrorsWithBat
      (loaded (image dir bat) 4).getActiveBat).hasCriticalErrors = false) :
    openFile (image dir bat) = (loadErrors (image dir bat) 4, some (loaded (image dir bat) 4)) := by
  have hsize : bytesToMegabits ((mcFstBlocks + smallCard.dataBlocks.length) * 0x2000) = some 4 := by decide
  refine openFile_intact_some ⟨hsize, by decide, ?_, fun i => ?_, fun i => ?_⟩ hwith
  · have hheader : smallCard.headerBlock.checkForErrors 4 = ∅ := Header.checkForErrors_fixChecksums rfl rfl rfl
    exact (congrArg _ hheader).trans hasCriticalErrors_empty
  · exact (congrArg _ (Directory.checkForErrors_fixChecksums hpad)).trans hasCriticalErrors_empty
  · have hbat : bat.fixChecksums.checkForErrors 4 = single .dataInUnusedArea (bat.hasUnusedData 4) :=
      BlockAlloc.checkForErrors_fixChecksums_eq (by decide) hfree
    exact (congrArg _ hbat).trans hasCriticalErrors_unusedArea

def secondIndex : Fin dirLen := ⟨1, by decide⟩

def gameEntry (firstBlock blockCount : Nat) : DEntry :=
  { gamecode := galeCode, firstBlock := firstBlock, blockCount := blockCount }

def sharedBat : BlockAlloc where
  freeBlocks := 58
  lastAllocatedBlock := 5
  map := fun k => if k = 0 then 0xFFFF else 0

def mergedDirectory : Directory := setEntry (setEntry {} firstIndex (gameEntry 5 1)) secondIndex (gameEntry 5 1)

def ghostDirectory : Directory :=
  setEntry (setEntry {} firstIndex (gameEntry 5 1)) secondIndex { firstBlock := 5, blockCount := 1 }

def fullDirectory : Directory :=
  setEntry (setEntry {} firstIndex (gameEntry 5 2)) secondIndex { gameEntry 6 58 with makercode := #v[0x30, 0x31] }

def fullBat : BlockAlloc where
  freeBlocks := 0
  lastAllocatedBlock := 63
  map := fun k => if k = 0 then 100 else if k < 58 then k + 6 else if k = 58 ∨ k = 95 then 0xFFFF else 0

/-- Where two files share a block, the one that is cleared takes it from the other. Where an unused entry is removed, or a
file that goes on behind the end of the card, a file is left or made that `ClearBlocks` refuses. -/
theorem mergedFile_cleared :
    (∃ errors card, openFile (image mergedDirectory sharedBat) = (errors, some card) ∧
      HasBlocks card.getActiveDirectory firstIndex ∧ HasBlocks card.getActiveDirectory secondIndex ∧
      card.Chain secondIndex [5] ∧ card.getActiveBat.map 0 = 0xFFFF ∧
      (card.clearEntry firstIndex).map (fun bat => bat.map 0) = some 0) ∧
    (∃ errors card, openFile (image ghostDirectory sharedBat) = (errors, some card) ∧
      HasBlocks (card.call (.removeFile 1)).getActiveDirectory firstIndex ∧
      ((card.call (.removeFile 1)).clearEntry firstIndex).isSome = false) ∧
    ∃ errors card, openFile (image fullDirectory fullBat) = (errors, some card) ∧
      HasBlocks ([.removeFile 0, .importFile twoBlockFile].foldl Memcard.call card).getActiveDirectory firstIndex ∧
      (([.removeFile 0, .importFile twoBlockFile].foldl Memcard.call card).clearEntry firstIndex).isSome = false := by
  refine ⟨⟨_, _, image_opened rfl (by decide) (by decide), by decide, by decide, ?_, by decide, by decide⟩,
    ⟨_, _, image_opened rfl (by decide) (by decide), by decide, by decide⟩,
    ⟨_, _, image_opened rfl (by decide) (by decide), by decide, by decide⟩⟩
  have hwalks : (loaded (image mergedDirectory sharedBat) 4).getActiveBat.Walks 5 [5] 0xFFFF :=
    ⟨rfl, by decide, by decide, by decide, .inr rfl⟩
  exact hwalks.visits

end Memcard

end Karphin.GCMemcard
