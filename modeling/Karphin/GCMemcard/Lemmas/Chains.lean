import Karphin.GCMemcard.Defs

/-!
# Allocation of blocks

`NextFreeBlock` starts behind the block that was taken last and goes round. The loop of `ImportFile` asks it for the
next block before it marks the current one, so what it must not return is the current one.
-/

namespace Karphin.GCMemcard

/-! ## Counting free blocks -/

section Count

variable (map : Nat → Nat) (k v : Nat)

theorem countP_update_of_le : ∀ (n : Nat), n ≤ k →
    (List.range n).countP (fun i => decide (Function.update map k v i = 0)) =
      (List.range n).countP (fun i => decide (map i = 0)) := by
  intro n hn
  apply List.countP_congr
  intro i hi
  have hik : i ≠ k := by
    have := List.mem_range.1 hi
    omega
  simp [hik]

theorem countP_mark (hk : map k = 0) (hv : v ≠ 0) : ∀ (n : Nat), k < n →
    (List.range n).countP (fun i => decide (Function.update map k v i = 0)) + 1 =
      (List.range n).countP (fun i => decide (map i = 0))
  | 0, h => absurd h (Nat.not_lt_zero _)
  | n + 1, h => by
      simp only [List.range_succ, List.countP_append, List.countP_singleton]
      by_cases hkn : k = n
      · subst hkn
        rw [countP_update_of_le map k v k (Nat.le_refl _)]
        simp [hk, hv]
      · have ih := countP_mark hk hv n (by omega)
        simp only [Function.update_of_ne (Ne.symm hkn)]
        omega

theorem countP_clear (hk : map k ≠ 0) : ∀ (n : Nat), k < n →
    (List.range n).countP (fun i => decide (Function.update map k 0 i = 0)) =
      (List.range n).countP (fun i => decide (map i = 0)) + 1 := by
  intro n hn
  have h := countP_mark (Function.update map k 0) k (map k) (by simp) hk n hn
  rw [Function.update_idem, Function.update_eq_self] at h
  exact h.symm

theorem exists_of_countP_pos {n : Nat} (h : 0 < (List.range n).countP (fun i => decide (map i = 0))) :
    ∃ i, i < n ∧ map i = 0 := by
  obtain ⟨i, hi, h0⟩ := List.countP_pos_iff.1 h
  exact ⟨i, List.mem_range.1 hi, of_decide_eq_true h0⟩

end Count

namespace BlockAlloc

variable {bat : BlockAlloc}

theorem isFree_iff {b : Nat} : bat.isFree b = true ↔ bat.map (b - mcFstBlocks) = 0 := by simp [isFree]

theorem find_range_some {start n r : Nat} (h : (List.range' start n).find? bat.isFree = some r) :
    start ≤ r ∧ r < start + n ∧ bat.isFree r = true := by
  have hmem := List.mem_of_find?_eq_some h
  have hfree := List.find?_some h
  simp only [List.mem_range'_1] at hmem
  exact ⟨hmem.1, hmem.2, hfree⟩

theorem find_range_none {start n : Nat} (h : (List.range' start n).find? bat.isFree = none) {b : Nat} (hb : start ≤ b)
    (hb' : b < start + n) : bat.isFree b = false := by
  have := List.find?_eq_none.1 h b (List.mem_range'_1.2 ⟨hb, hb'⟩)
  simpa using this

theorem nextFreeBlock_other {size f b : Nat} (hfree : 0 < bat.freeBlocks) (hsize : size ≤ batSize + mcFstBlocks)
    (hf : mcFstBlocks ≤ f) (hfs : f < size) (hb : mcFstBlocks ≤ b) (hbs : b < size) (hbf : b ≠ f)
    (hbfree : bat.isFree b = true) :
    mcFstBlocks ≤ bat.nextFreeBlock size (f + 1) ∧ bat.nextFreeBlock size (f + 1) < size ∧
      bat.isFree (bat.nextFreeBlock size (f + 1)) = true ∧ bat.nextFreeBlock size (f + 1) ≠ f := by
  have hstart : clampBlock (f + 1) = f + 1 := by
    simp only [clampBlock]
    omega
  have hmax : clampBlock size = size := by
    simp only [clampBlock]
    omega
  simp only [nextFreeBlock, if_pos hfree, hstart, hmax]
  split
  · next i hi =>
      obtain ⟨h1, h2, h3⟩ := find_range_some hi
      exact ⟨by omega, by omega, h3, by omega⟩
  · next hnone =>
      have hbf' : b < f := by
        by_contra hlt
        have := find_range_none hnone (b := b) (by omega) (by omega)
        rw [hbfree] at this
        cases this
      -- the blocks before `f` come first, and `b` is one of them
      have hsplit : List.range' mcFstBlocks (f + 1 - mcFstBlocks) =
          List.range' mcFstBlocks (f - mcFstBlocks) ++ [f] := by
        have h1 : f + 1 - mcFstBlocks = (f - mcFstBlocks) + 1 := by omega
        rw [h1, List.range'_concat]
        simp
        omega
      have hsome : ((List.range' mcFstBlocks (f - mcFstBlocks)).find? bat.isFree).isSome = true :=
        List.find?_isSome.2 ⟨b, List.mem_range'_1.2 ⟨hb, by omega⟩, hbfree⟩
      obtain ⟨r, hr⟩ := Option.isSome_iff_exists.1 hsome
      obtain ⟨h1, h2, h3⟩ := find_range_some hr
      rw [hsplit, List.find?_append, hr]
      exact ⟨h1, by simp; omega, h3, by simp; omega⟩

theorem nextFreeBlock_spec {size start : Nat} (hsize : size ≤ batSize + mcFstBlocks) (hsize' : mcFstBlocks ≤ size)
    (hstart : start ≤ size) (h : bat.nextFreeBlock size start ≠ 0xFFFF) :
    mcFstBlocks ≤ bat.nextFreeBlock size start ∧ bat.nextFreeBlock size start < size ∧
      bat.isFree (bat.nextFreeBlock size start) = true := by
  have hs : mcFstBlocks ≤ clampBlock start ∧ clampBlock start ≤ size := by
    simp only [clampBlock]
    omega
  have hmax : clampBlock size = size := by
    simp only [clampBlock]
    omega
  simp only [nextFreeBlock, hmax] at h ⊢
  split
  · next hfree =>
      simp only [if_pos hfree] at h
      split
      · next i hi =>
          obtain ⟨h1, h2, h3⟩ := find_range_some hi
          exact ⟨by omega, by omega, h3⟩
      · next hnone =>
          simp only [hnone] at h
          split
          · next i hi =>
              obtain ⟨h1, h2, h3⟩ := find_range_some hi
              exact ⟨by omega, by omega, h3⟩
          · next hnone' => simp [hnone'] at h
  · next hfree => simp [hfree] at h

end BlockAlloc

end Karphin.GCMemcard

/-!
## Chains

A chain is decided by the map at its own blocks. An import adds a chain of blocks that were free, a removal clears the
blocks of one chain; neither touches the map at the blocks of another one.
-/

namespace Karphin.GCMemcard.Memcard

open BlockAlloc

variable {bat bat' : BlockAlloc} {size : Nat}

theorem getNextBlock_of_range {b : Nat} (hsize : size ≤ 4092) (hb : mcFstBlocks ≤ b) (hbs : b < size) :
    bat.getNextBlock b = bat.map (b - mcFstBlocks) := by
  simp only [getNextBlock]
  rw [if_neg]
  omega

theorem Follows.congr : ∀ {blocks : List Nat} {first : Nat}, size ≤ 4092 → Follows bat size first blocks →
    (∀ b ∈ blocks, bat'.map (b - mcFstBlocks) = bat.map (b - mcFstBlocks)) → Follows bat' size first blocks
  | [], _, _, h, _ => h
  | b :: bs, first, hsize, ⟨h1, h2, h3, h4⟩, hmap => by
      refine ⟨h1, h2, h3, ?_⟩
      rw [getNextBlock_of_range hsize h2 h3, hmap b (List.mem_cons_self ..), ← getNextBlock_of_range hsize h2 h3]
      exact h4.congr hsize (fun b' hb' => hmap b' (List.mem_cons_of_mem _ hb'))

theorem Follows.range : ∀ {blocks : List Nat} {first : Nat}, Follows bat size first blocks →
    ∀ b ∈ blocks, mcFstBlocks ≤ b ∧ b < size
  | [], _, _, _, hb => by cases hb
  | b :: bs, first, ⟨_, h2, h3, h4⟩, b', hb' => by
      obtain rfl | hb' := List.mem_cons.1 hb'
      · exact ⟨h2, h3⟩
      · exact h4.range b' hb'

theorem Follows.marked : ∀ {blocks : List Nat} {first : Nat}, size ≤ 4092 → Follows bat size first blocks →
    ∀ b ∈ blocks, bat.map (b - mcFstBlocks) ≠ 0
  | [], _, _, _, _, hb => by cases hb
  | b :: bs, first, hsize, ⟨_, h2, h3, h4⟩, b', hb' => by
      obtain rfl | hb' := List.mem_cons.1 hb'
      · rw [getNextBlock_of_range hsize h2 h3] at h4
        cases bs with
        | nil =>
            simp only [Follows] at h4
            omega
        | cons c cs =>
            obtain ⟨hc, hc', -, -⟩ := h4
            rw [hc]
            simp only [mcFstBlocks] at hc'
            omega
      · exact h4.marked hsize b' hb'

/-! ## The loop of `ImportFile` -/

/-- What the loop has done: the blocks `new` were free, form a chain from `first` on and hold the blocks of the file
from the block `i` on; the rest of the map and of the data is as before. -/
structure Allocated (size remaining i first : Nat) (blocks : List GCMBlock) (bat : BlockAlloc) (data : List GCMBlock)
    (bat' : BlockAlloc) (data' : List GCMBlock) (new : List Nat) : Prop where
  length : new.length = remaining
  nodup : new.Nodup
  range : ∀ b ∈ new, mcFstBlocks ≤ b ∧ b < size
  free : ∀ b ∈ new, bat.map (b - mcFstBlocks) = 0
  follows : Follows bat' size first new
  frame : ∀ k, k + mcFstBlocks ∉ new → bat'.map k = bat.map k
  freeBlocks : bat'.freeBlocks = bat.freeBlocks
  updateCounter : bat'.updateCounter = bat.updateCounter
  last : bat'.lastAllocatedBlock < size
  count : freeCount size bat' + remaining = freeCount size bat
  dataLength : data'.length = data.length
  dataNew : new.map (fun b => data'.getD (b - mcFstBlocks) GCMBlock.erased) =
    (List.range' i remaining).map (blocks.getD · GCMBlock.erased)
  dataFrame : ∀ k, k + mcFstBlocks ∉ new → data'.getD k GCMBlock.erased = data.getD k GCMBlock.erased

def mark (bat : BlockAlloc) (b next : Nat) : BlockAlloc :=
  { bat with map := Function.update bat.map (b - mcFstBlocks) next, lastAllocatedBlock := b }

theorem freeCount_mark {b next : Nat} (hb : mcFstBlocks ≤ b) (hbs : b < size) (hfree : bat.map (b - mcFstBlocks) = 0)
    (hnext : next ≠ 0) : freeCount size (mark bat b next) + 1 = freeCount size bat := by
  simp only [freeCount, mark]
  exact countP_mark bat.map (b - mcFstBlocks) next hfree hnext _ (by omega)

theorem exists_other_free {b : Nat} (hb : mcFstBlocks ≤ b) (hbs : b < size) (hfree : bat.map (b - mcFstBlocks) = 0)
    (hcount : 2 ≤ freeCount size bat) :
    ∃ b', mcFstBlocks ≤ b' ∧ b' < size ∧ b' ≠ b ∧ bat.isFree b' = true := by
  have h1 : freeCount size (mark bat b 1) + 1 = freeCount size bat := freeCount_mark hb hbs hfree Nat.one_ne_zero
  obtain ⟨k, hk, h0⟩ := exists_of_countP_pos (mark bat b 1).map (n := size - mcFstBlocks) (by
    simp only [freeCount] at h1 hcount
    omega)
  have hkb : k ≠ b - mcFstBlocks := by
    rintro rfl
    simp [mark] at h0
  simp only [mark, Function.update_of_ne hkb] at h0
  refine ⟨k + mcFstBlocks, by omega, by omega, by omega, ?_⟩
  simpa [isFree_iff] using h0

theorem getD_set {data : List GCMBlock} {k : Nat} (hk : k < data.length) (x : GCMBlock) (j : Nat) :
    (data.set k x).getD j GCMBlock.erased = if j = k then x else data.getD j GCMBlock.erased := by
  simp only [List.getD_eq_getElem?_getD, List.getElem?_set]
  by_cases hj : j = k
  · subst hj
    simp [hk]
  · simp [hj, Ne.symm hj]

theorem allocated_single {i f : Nat} {blocks : List GCMBlock} {data : List GCMBlock} (hsize : size ≤ 4092)
    (hdata : data.length = size - mcFstBlocks) (hf : mcFstBlocks ≤ f) (hfs : f < size)
    (hfree : bat.map (f - mcFstBlocks) = 0) :
    Allocated size 1 i f blocks bat data (mark bat f 0xFFFF)
      (data.set (f - mcFstBlocks) (blocks.getD i GCMBlock.erased)) [f] where
  length := rfl
  nodup := List.nodup_singleton f
  range := by
    intro b hb
    rw [List.mem_singleton.1 hb]
    exact ⟨hf, hfs⟩
  free := by
    intro b hb
    rw [List.mem_singleton.1 hb]
    exact hfree
  follows := by
    refine ⟨rfl, hf, hfs, ?_⟩
    rw [getNextBlock_of_range hsize hf hfs]
    simp [Follows, mark]
  frame := by
    intro k hk
    have hne : k ≠ f - mcFstBlocks := by
      rintro rfl
      apply hk
      simp only [List.mem_singleton]
      omega
    simp [mark, hne]
  freeBlocks := rfl
  updateCounter := rfl
  last := hfs
  count := freeCount_mark hf hfs hfree (by omega)
  dataLength := by simp
  dataNew := by
    simp only [List.map_cons, List.map_nil]
    rw [getD_set (by omega), if_pos rfl]
    rfl
  dataFrame := by
    intro k hk
    have hne : k ≠ f - mcFstBlocks := by
      rintro rfl
      apply hk
      simp only [List.mem_singleton]
      omega
    rw [getD_set (by omega), if_neg hne]

theorem Allocated.cons {remaining i f next : Nat} {blocks : List GCMBlock} {data data' : List GCMBlock} {new : List Nat}
    (hsize : size ≤ 4092) (hdata : data.length = size - mcFstBlocks) (hf : mcFstBlocks ≤ f) (hfs : f < size)
    (hfree : bat.map (f - mcFstBlocks) = 0) (hnext : next ≠ 0)
    (h : Allocated size remaining (i + 1) next blocks (mark bat f next)
      (data.set (f - mcFstBlocks) (blocks.getD i GCMBlock.erased)) bat' data' new) :
    Allocated size (remaining + 1) i f blocks bat data bat' data' (f :: new) := by
  have hfnew : f ∉ new := by
    intro hmem
    have := h.free f hmem
    simp [mark] at this
    exact hnext this
  have hne : ∀ k, k + mcFstBlocks ∉ f :: new → k ≠ f - mcFstBlocks := by
    rintro k hk rfl
    apply hk
    rw [Nat.sub_add_cancel hf]
    exact List.mem_cons_self ..
  have hold : ∀ b ∈ new, bat.map (b - mcFstBlocks) = 0 := by
    intro b hb
    have hbf : b - mcFstBlocks ≠ f - mcFstBlocks := by
      have := (h.range b hb).1
      have hne' : b ≠ f := fun heq => hfnew (heq ▸ hb)
      omega
    have := h.free b hb
    simpa [mark, hbf] using this
  have hback : (f - mcFstBlocks) + mcFstBlocks = f := Nat.sub_add_cancel hf
  constructor
  · simp [h.length]
  · exact List.nodup_cons.2 ⟨hfnew, h.nodup⟩
  · intro b hb
    obtain rfl | hb := List.mem_cons.1 hb
    · exact ⟨hf, hfs⟩
    · exact h.range b hb
  · intro b hb
    obtain rfl | hb := List.mem_cons.1 hb
    · exact hfree
    · exact hold b hb
  · refine ⟨rfl, hf, hfs, ?_⟩
    rw [getNextBlock_of_range hsize hf hfs, h.frame _ (by rw [hback]; exact hfnew)]
    simpa [mark] using h.follows
  · intro k hk
    rw [h.frame k (fun hmem => hk (List.mem_cons_of_mem _ hmem))]
    simp [mark, hne k hk]
  · exact h.freeBlocks
  · exact h.updateCounter
  · exact h.last
  · have h1 := h.count
    have h2 := freeCount_mark hf hfs hfree hnext
    omega
  · rw [h.dataLength]
    simp
  · rw [List.map_cons, h.dataNew, List.range'_succ, List.map_cons]
    rw [h.dataFrame _ (by rw [hback]; exact hfnew), getD_set (by omega), if_pos rfl]
  · intro k hk
    rw [h.dataFrame k (fun hmem => hk (List.mem_cons_of_mem _ hmem)), getD_set (by omega), if_neg (hne k hk)]

theorem copyBlocks_allocated {blocks : List GCMBlock} (hsize : size ≤ 4092) :
    ∀ (remaining i f : Nat) (bat : BlockAlloc) (data : List GCMBlock), data.length = size - mcFstBlocks →
    0 < bat.freeBlocks → mcFstBlocks ≤ f → f < size → bat.map (f - mcFstBlocks) = 0 →
    remaining + 1 ≤ freeCount size bat →
    ∃ new, Allocated size (remaining + 1) i f blocks bat data
      (copyBlocks size blocks (remaining + 1) i f bat data).1
      (copyBlocks size blocks (remaining + 1) i f bat data).2 new
  | 0, i, f, bat, data, hdata, _, hf, hfs, hfree, _ => ⟨[f], allocated_single hsize hdata hf hfs hfree⟩
  | remaining + 1, i, f, bat, data, hdata, hpos, hf, hfs, hfree, hcount => by
      obtain ⟨b, hb, hbs, hbf, hbfree⟩ := exists_other_free hf hfs hfree (by omega)
      have hbat : size ≤ batSize + mcFstBlocks := by
        simp only [batSize, mcFstBlocks]
        omega
      obtain ⟨h1, h2, h3, h4⟩ := nextFreeBlock_other hpos hbat hf hfs hb hbs hbf hbfree
      generalize hn : bat.nextFreeBlock size (f + 1) = next at h1 h2 h3 h4
      have hnext : next ≠ 0 := by
        simp only [mcFstBlocks] at h1
        omega
      have hnf : next - mcFstBlocks ≠ f - mcFstBlocks := by omega
      have hc := freeCount_mark hf hfs hfree hnext
      obtain ⟨new, hnew⟩ := copyBlocks_allocated hsize remaining (i + 1) next (mark bat f next)
        (data.set (f - mcFstBlocks) (blocks.getD i GCMBlock.erased)) (by simp [hdata]) hpos h1 h2
        (by simpa [mark, hnf] using isFree_iff.1 h3) (by omega)
      have heq : copyBlocks size blocks (remaining + 1 + 1) i f bat data =
          copyBlocks size blocks (remaining + 1) (i + 1) next (mark bat f next)
            (data.set (f - mcFstBlocks) (blocks.getD i GCMBlock.erased)) := by
        rw [copyBlocks]
        simp only [Nat.add_eq_zero_iff, Nat.one_ne_zero, and_false, if_false, hn, mark]
      rw [heq]
      exact ⟨f :: new, hnew.cons hsize hdata hf hfs hfree hnext⟩

/-! ## A file is added -/

theorem getElem_set_entry (entries : Vector DEntry dirLen) (i j : Fin dirLen) (e : DEntry) :
    getElem (entries.set i e i.isLt) j j.isLt = if j = i then e else getElem entries j j.isLt := by
  simp only [Fin.getElem_fin, Vector.getElem_set, Fin.ext_iff, eq_comm]

def setEntry (dir : Directory) (i : Fin dirLen) (e : DEntry) : Directory :=
  { dir with dirEntries := dir.dirEntries.set i e i.isLt }

theorem setEntry_self (dir : Directory) (i : Fin dirLen) (e : DEntry) : getElem (setEntry dir i e).dirEntries i i.isLt = e := by
  simp [setEntry]

theorem setEntry_ne (dir : Directory) {i j : Fin dirLen} (h : j ≠ i) (e : DEntry) :
    getElem (setEntry dir i e).dirEntries j j.isLt = getElem dir.dirEntries j j.isLt := by
  simp only [setEntry, getElem_set_entry, if_neg h]

theorem Chains.add {dir : Directory} {chain : Fin dirLen → List Nat} {remaining i first : Nat} {blocks data data' new}
    (h : Chains size dir bat chain) (hsize : size ≤ 4092)
    (ha : Allocated size remaining i first blocks bat data bat' data' new) {k : Fin dirLen}
    (hk : (getElem dir.dirEntries k k.isLt).used = false) {e : DEntry} (hfirst : e.firstBlock = first)
    (hcount : e.blockCount = remaining) (he : e.used = true) :
    Chains size (setEntry dir k e) bat' (Function.update chain k new) := by
  have hold : ∀ j, dir.dirEntries[j].used = true → ∀ b ∈ chain j, b ∉ new := by
    intro j hj b hb hnew
    exact (h.follows j hj).marked hsize b hb (ha.free b hnew)
  have hne : ∀ {j}, (setEntry dir k e).dirEntries[j].used = true → j ≠ k →
      dir.dirEntries[j].used = true := by
    intro j hj hjk
    rwa [setEntry_ne dir hjk] at hj
  constructor
  · intro j hj
    by_cases hjk : j = k
    · subst hjk
      rw [setEntry_self, Function.update_self, hfirst]
      exact ha.follows
    · have hj' := hne hj hjk
      rw [setEntry_ne dir hjk, Function.update_of_ne hjk]
      refine (h.follows j hj').congr hsize (fun b hb => ha.frame _ ?_)
      rw [Nat.sub_add_cancel ((h.follows j hj').range b hb).1]
      exact hold j hj' b hb
  · intro j hj
    by_cases hjk : j = k
    · subst hjk
      rw [setEntry_self, Function.update_self, hcount]
      exact ha.length
    · rw [setEntry_ne dir hjk, Function.update_of_ne hjk]
      exact h.length j (hne hj hjk)
  · intro j hj
    by_cases hjk : j = k
    · subst hjk
      rw [Function.update_self]
      exact ha.nodup
    · rw [Function.update_of_ne hjk]
      exact h.nodup j (hne hj hjk)
  · intro j j' hj hj' hjj
    by_cases hjk : j = k
    · subst hjk
      rw [Function.update_self, Function.update_of_ne (Ne.symm hjj)]
      exact fun b hb hb' => hold j' (hne hj' (Ne.symm hjj)) b hb' hb
    · by_cases hjk' : j' = k
      · subst hjk'
        rw [Function.update_self, Function.update_of_ne hjk]
        exact fun b hb hb' => hold j (hne hj hjk) b hb hb'
      · rw [Function.update_of_ne hjk, Function.update_of_ne hjk']
        exact h.disjoint j j' (hne hj hjk) (hne hj' hjk') hjj
  · intro n hn
    by_cases hmem : n + mcFstBlocks ∈ new
    · refine ⟨k, ?_, ?_⟩
      · rw [setEntry_self]
        exact he
      · rw [Function.update_self]
        exact hmem
    · rw [ha.frame n hmem] at hn
      obtain ⟨j, hj, hjn⟩ := h.covered n hn
      have hjk : j ≠ k := by
        rintro rfl
        rw [hk] at hj
        cases hj
      refine ⟨j, ?_, ?_⟩
      · rw [setEntry_ne dir hjk]
        exact hj
      · rw [Function.update_of_ne hjk]
        exact hjn

/-! ## A file is removed -/

theorem foldl_clear : ∀ (blocks : List Nat) (map : Nat → Nat), (∀ b ∈ blocks, mcFstBlocks ≤ b) → ∀ k,
    blocks.foldl (fun map b => Function.update map (b - mcFstBlocks) 0) map k =
      if k + mcFstBlocks ∈ blocks then 0 else map k
  | [], _, _, _ => by simp
  | b :: bs, map, h, k => by
      rw [List.foldl_cons, foldl_clear bs _ (fun b' hb' => h b' (List.mem_cons_of_mem _ hb'))]
      have hb := h b (List.mem_cons_self ..)
      by_cases hbs : k + mcFstBlocks ∈ bs
      · simp [hbs]
      · by_cases hk : k = b - mcFstBlocks
        · subst hk
          simp [Nat.sub_add_cancel hb]
        · have hne : k + mcFstBlocks ≠ b := by omega
          simp [hbs, hk, hne]

theorem countP_foldl_clear {n : Nat} : ∀ (blocks : List Nat) (map : Nat → Nat), blocks.Nodup →
    (∀ b ∈ blocks, mcFstBlocks ≤ b ∧ b - mcFstBlocks < n ∧ map (b - mcFstBlocks) ≠ 0) →
    (List.range n).countP (fun i =>
        decide (blocks.foldl (fun map b => Function.update map (b - mcFstBlocks) 0) map i = 0)) =
      (List.range n).countP (fun i => decide (map i = 0)) + blocks.length
  | [], _, _, _ => rfl
  | b :: bs, map, hnodup, h => by
      obtain ⟨hb, hbn, hmap⟩ := h b (List.mem_cons_self ..)
      obtain ⟨hnot, hnodup'⟩ := List.nodup_cons.1 hnodup
      rw [List.foldl_cons, countP_foldl_clear bs _ hnodup', countP_clear map _ hmap n hbn, List.length_cons]
      · omega
      · intro b' hb'
        obtain ⟨h1, h2, h3⟩ := h b' (List.mem_cons_of_mem _ hb')
        have hne : b' - mcFstBlocks ≠ b - mcFstBlocks := by
          have : b' ≠ b := fun heq => hnot (heq ▸ hb')
          omega
        exact ⟨h1, h2, by simpa [hne] using h3⟩

theorem Follows.collect : ∀ {blocks : List Nat} {first fuel : Nat}, size ≤ 4092 → Follows bat size first blocks →
    blocks.length < fuel → bat.collect fuel first = some (blocks, 0xFFFF)
  | _, _, 0, _, _, hlt => absurd hlt (Nat.not_lt_zero _)
  | [], first, fuel + 1, _, h, _ => by
      simp only [Follows] at h
      simp [BlockAlloc.collect, h]
  | b :: bs, first, fuel + 1, hsize, ⟨h1, h2, h3, h4⟩, hlt => by
      have hlen : bs.length < fuel := by simpa using hlt
      have hne : b ≠ 0xFFFF ∧ b ≠ 0 := by
        simp only [mcFstBlocks] at h2
        omega
      rw [h1, BlockAlloc.collect, if_pos hne, h4.collect hsize hlen]
      rfl

theorem length_le_of_range {blocks : List Nat} (hnodup : blocks.Nodup)
    (h : ∀ b ∈ blocks, mcFstBlocks ≤ b ∧ b < size) : blocks.length ≤ size - mcFstBlocks := by
  have hsub : blocks ⊆ List.range' mcFstBlocks (size - mcFstBlocks) := by
    intro b hb
    obtain ⟨h1, h2⟩ := h b hb
    exact List.mem_range'_1.2 ⟨h1, by omega⟩
  have := (List.subperm_of_subset hnodup hsub).length_le
  simpa using this

def cleared (bat : BlockAlloc) (blocks : List Nat) : BlockAlloc :=
  { bat with
    map := blocks.foldl (fun map b => Function.update map (b - mcFstBlocks) 0) bat.map
    freeBlocks := bat.freeBlocks + blocks.length }

theorem clearBlocks_chain {blocks : List Nat} {first : Nat} (hsize : size ≤ 4092) (h : Follows bat size first blocks)
    (hnodup : blocks.Nodup) : bat.clearBlocks first blocks.length = some (cleared bat blocks) := by
  have hlen := length_le_of_range hnodup h.range
  have hc : bat.collect (batSize + 2) first = some (blocks, 0xFFFF) :=
    h.collect hsize (by simp only [batSize]; omega)
  simp only [BlockAlloc.clearBlocks, hc]
  rfl

theorem freeCount_cleared {blocks : List Nat} {first : Nat} (hsize : size ≤ 4092) (h : Follows bat size first blocks)
    (hnodup : blocks.Nodup) : freeCount size (cleared bat blocks) = freeCount size bat + blocks.length := by
  apply countP_foldl_clear blocks bat.map hnodup
  intro b hb
  obtain ⟨h1, h2⟩ := h.range b hb
  exact ⟨h1, by omega, h.marked hsize b hb⟩

theorem Chains.remove {dir : Directory} {chain : Fin dirLen → List Nat} (h : Chains size dir bat chain)
    (hsize : size ≤ 4092) {k : Fin dirLen} (hk : (getElem dir.dirEntries k k.isLt).used = true) {e : DEntry}
    (he : e.used = false) :
    Chains size (setEntry dir k e) (cleared bat (chain k)) chain := by
  have hrange := (h.follows k hk).range
  have hmap : ∀ n, (cleared bat (chain k)).map n = if n + mcFstBlocks ∈ chain k then 0 else bat.map n :=
    foldl_clear (chain k) bat.map (fun b hb => (hrange b hb).1)
  have hne : ∀ {j}, (setEntry dir k e).dirEntries[j].used = true → j ≠ k ∧ dir.dirEntries[j].used = true := by
    intro j hj
    have hjk : j ≠ k := by
      rintro rfl
      rw [setEntry_self, he] at hj
      cases hj
    rw [setEntry_ne dir hjk] at hj
    exact ⟨hjk, hj⟩
  constructor
  · intro j hj
    obtain ⟨hjk, hj'⟩ := hne hj
    rw [setEntry_ne dir hjk]
    refine (h.follows j hj').congr hsize (fun b hb => ?_)
    rw [hmap, if_neg]
    rw [Nat.sub_add_cancel ((h.follows j hj').range b hb).1]
    exact fun hmem => h.disjoint j k hj' hk hjk hb hmem
  · intro j hj
    obtain ⟨hjk, hj'⟩ := hne hj
    rw [setEntry_ne dir hjk]
    exact h.length j hj'
  · intro j hj
    exact h.nodup j (hne hj).2
  · intro j j' hj hj' hjj
    exact h.disjoint j j' (hne hj).2 (hne hj').2 hjj
  · intro n hn
    rw [hmap] at hn
    split at hn
    · exact absurd rfl hn
    · next hnot =>
        obtain ⟨j, hj, hjn⟩ := h.covered n hn
        have hjk : j ≠ k := by
          rintro rfl
          exact hnot hjn
        refine ⟨j, ?_, hjn⟩
        rw [setEntry_ne dir hjk]
        exact hj

end Karphin.GCMemcard.Memcard
