import Karphin.PPCCache.Lemmas.Logical

/-!
# The caches are transparent, and their lookup tables are exact
-/

namespace Karphin.PPCCache

open Karphin.Lib

variable {z : MemorySizes} {m : Machine}

/-! ## Transparency -/

theorem Faithful.apply (h : Faithful z m) {op : DataOp} (hb : op.Backed z) : Faithful z (op.apply z m) := by
  cases op with
  | getCache addr locked => exact (h.getCache hb locked).1
  | touch addr st => exact (h.getCache hb false).1
  | read addr buffer len locked => exact (h.readLoop hb buffer 0 locked).1
  | write addr value len locked => exact (h.write hb value locked).1
  | store addr => exact (h.store hb).1
  | flush addr => exact (h.flush hb).1

theorem Faithful.spec (h : Faithful z m) {op : DataOp} (hb : op.Backed z) :
    op.Spec z (logical z m) (logical z (op.apply z m)) (op.output z m) := by
  cases op with
  | getCache addr locked => exact (h.getCache hb locked).2
  | touch addr st => exact (h.getCache hb false).2
  | read addr buffer len locked =>
      obtain ⟨-, hlog, hin, -⟩ := h.readLoop hb buffer 0 locked
      refine ⟨?_, hlog⟩
      intro i hi p hp
      obtain ⟨rfl, -⟩ := physical_eq_some.mp hp
      have := hin i hi
      rw [Nat.zero_add] at this
      exact this
  | write addr value len locked =>
      obtain ⟨-, hin, hout⟩ := h.write hb value locked
      refine ⟨?_, ?_⟩
      · intro i hi p hp
        obtain ⟨rfl, -⟩ := physical_eq_some.mp hp
        exact hin i hi
      · intro p hp hne
        refine hout p hp ?_
        intro i hi he
        exact hne i hi (physical_eq_some.mpr ⟨he.symm, backed_iff.mp (hb i hi)⟩)
  | store addr => exact (h.store hb).2
  | flush addr => exact (h.flush hb).2

/-- Over operations on memory that exists, cache and main memory behave as one flat memory. -/
theorem cache_transparent (z : MemorySizes) : Transparent z (DataOp.Backed z) := by
  intro mem m hreach
  have hf : Faithful z m := hreach.invariant _ (Faithful.init z mem) (by
    intro s op s' hs hok hstep
    cases hstep
    exact hs.apply hok)
  exact ⟨fun op hop => hf.spec hop, fun p hp => hf.flushAll hp⟩

/-- Touching `0x02000000`, which no memory backs but which shares its table entry with address 0, makes
the byte at address 0 read as the stale content of the way. -/
theorem touch_mirror_not_transparent : ¬ Transparent gameCube (fun _ => True) := by
  intro h
  obtain ⟨hspec, -⟩ := h (fun _ => 1) _ .refl
  have h0 := hspec (.touch 0x02000000 false) trivial 0 (Or.inl (by decide))
  revert h0
  decide

/-! ## Lookup tables -/

theorem Coherent.apply (h : Coherent z m.cache) (op : CacheOp) : Coherent z (op.apply z m).cache := by
  cases op with
  | data op =>
      cases op with
      | getCache addr locked => exact (h.getCache addr locked).1
      | touch addr st => exact (h.getCache addr false).1
      | read addr buffer len locked => exact h.readLoop addr buffer 0 len locked
      | write addr value len locked => exact h.write addr value len locked
      | store addr => exact h.store addr
      | flush addr => exact h.flush addr
  | invalidate addr => exact h.invalidate addr
  | icacheInvalidate addr => exact h.icacheInvalidate addr
  | flushAll => exact Coherent.reset z m.cache
  | reset => exact Coherent.reset z m.cache

theorem Reachable.coherent (h : Reachable z m) : Coherent z m.cache := by
  induction h with
  | init mem => exact Coherent.init z
  | op op _ ih => exact ih.apply op
  | load mem _ _ ih ihs => exact ih.doStateRead ihs

/-- In every reached state a table entry names a way exactly when that way is valid and its tag selects
the entry, so no line is held twice; and only valid ways are modified. -/
theorem lookup_tables_exact (h : Reachable z m) :
    (∀ t i w, m.cache.lookup (t, i) = some w ↔
      m.cache.isValid (lineSet i) w = true ∧ select z (m.cache.addrs (lineSet i) w) = (t, i)) ∧
    (∀ set w w', m.cache.isValid set w = true → m.cache.isValid set w' = true → w ≠ w' →
      m.cache.addrs set w ≠ m.cache.addrs set w' ∧
      select z (m.cache.addrs set w) ≠ select z (m.cache.addrs set w')) ∧
    ∀ set w, m.cache.isModified set w = true → m.cache.isValid set w = true := by
  have hc := h.coherent
  refine ⟨fun t i w => hc.lookup_iff (t, i) w, ?_, hc.isValid_of_isModified⟩
  intro set w w' hv hv' hne
  have hsel : select z (m.cache.addrs set w) ≠ select z (m.cache.addrs set w') :=
    fun he => hne (hc.way_unique hv hv' he)
  exact ⟨fun he => hsel (by rw [he]), hsel⟩

/-- After a fetch of the line at `0x100`, entry 8 of the RAM table is the way that holds it. -/
theorem lookup_tables_exact_touch :
    Reachable gameCube (Machine.touch gameCube (Machine.init fun _ => 0) 0x100 false) ∧
    Cache.isValid (Machine.touch gameCube (Machine.init fun _ => 0) 0x100 false).cache (lineSet 8) 0 = true := by
  have h : Reachable gameCube (Machine.touch gameCube (Machine.init fun _ => 0) 0x100 false) :=
    .op (.data (.touch 0x100 false)) (.init _)
  exact ⟨h, (((lookup_tables_exact h).1 .ram 8 0).mp (by decide)).1⟩

end Karphin.PPCCache

/-!
# Memory that changes behind the cache

A store past the cache leaves a clean line that differs from memory, and what memory holds shows when the line is lost.
`Keeps` follows a byte through such states: it says of both values in which set they lie.
-/

namespace Karphin.PPCCache

open Machine

variable {z : MemorySizes} {c : Cache} {m : Machine} {set : CacheSet} {way : Way} {p : Nat} {S : UInt8 → Prop}

/-! ## Lines of memory -/

/-- The line is one of memory, or no byte of memory has its table entry. -/
def Own (z : MemorySizes) (a : Nat) : Prop := Backed z a ∨ ∀ p, InMemory z p → select z a ≠ select z p

theorem Own.lineAddr {a : Nat} (h : Own z a) : Own z (lineAddr a) := by
  cases h with
  | inl hb => exact Or.inl hb.lineAddr
  | inr hn => exact Or.inr (by rwa [select_lineAddr])

theorem Own.backed {a : Nat} (h : Own z a) (hp : InMemory z p) (hs : select z a = select z p) : Backed z a := by
  cases h with
  | inl hb => exact hb
  | inr hn => exact absurd hs (hn p hp)

theorem copyToEmu_unbacked {a : Nat} (h : ¬ Backed z a) (mem : Memory) (data : Buffer) (size : Nat) :
    copyToEmu z mem a data size = mem := by
  have hspan : getSpanForAddress z a = none := by
    simpa [Backed, physical] using h
  simp only [copyToEmu, getPointerForRange, hspan]
  exact ite_self mem

theorem Own.copyToEmu_line {a : Nat} (h : Own z a) (hmod : a % 32 = 0) (hp : InMemory z p) (mem : Memory)
    (data : Buffer) : copyToEmu z mem a data 32 p = if select z a = select z p then data (p % 32) else mem p := by
  by_cases hb : Backed z a
  · exact PPCCache.copyToEmu_line hb hmod hp mem data
  · rw [copyToEmu_unbacked hb, if_neg]
    intro hs
    exact hb (h.backed hp hs)

theorem select_of_lt_ramSize {x : Nat} (hx : x < z.ramSize) : select z x = (.ram, x / 32) := by
  obtain ⟨k, -, hk, hsize, -⟩ := size_spec z.ram_ge z.ram_le
  have hpow : z.ramSize ≤ 2 ^ 28 := by
    rw [MemorySizes.ramSize, hsize]
    exact Nat.pow_le_pow_right (by decide) hk
  unfold select
  rw [if_neg (by rw [vmemBit]; omega), if_neg (by rw [exramBit]; omega), MemorySizes.ramMask]
  rw [MemorySizes.ramSize, hsize] at hx ⊢
  rw [Nat.and_two_pow_sub_one_eq_mod, Nat.mod_eq_of_lt hx, Nat.shiftRight_eq_div_pow]

theorem Own.of_lt_ramSize {x : Nat} (hx : x < z.ramSize) : Own z x := by
  obtain ⟨k, -, hk, hsize, hle⟩ := size_spec z.ram_ge z.ram_le
  have hdvd := z.ram_dvd
  have hreal : z.ramSizeReal ≤ z.ramSize := by rwa [MemorySizes.ramSize, hsize]
  have hpow : z.ramSize ≤ 2 ^ 28 := by
    rw [MemorySizes.ramSize, hsize]
    exact Nat.pow_le_pow_right (by decide) hk
  by_cases hlt : x < z.ramSizeReal
  · left
    rw [backed_iff, mirror, Nat.mod_eq_of_lt (by omega)]
    exact Or.inl hlt
  · right
    intro p hp hs
    rw [select_of_lt_ramSize hx] at hs
    rcases hp with hp | ⟨-, hlo, hhi⟩
    · rw [select_of_lt_ramSize (by omega)] at hs
      have := (Prod.mk.inj hs).2
      omega
    · have hex := z.exRam_le
      unfold select at hs
      rw [if_neg (by rw [vmemBit]; omega), if_pos (by rw [exramBit]; omega)] at hs
      cases (Prod.mk.inj hs).1

/-- The tables are right and the lines own their entries; a clean line may differ from memory. -/
structure Tidy (z : MemorySizes) (m : Machine) : Prop where
  coherent : Coherent z m.cache
  own : ∀ set w, m.cache.isValid set w = true → Own z (m.cache.addrs set w)

theorem Faithful.tidy (h : Faithful z m) : Tidy z m where
  coherent := h.coherent
  own set w hv := Or.inl (h.backed set w hv)

theorem Tidy.writeBack_apply (h : Tidy z m) (mem : Memory) (hp : InMemory z p) :
    writeBack z m.cache mem set way p =
      if m.cache.isValid set way = true ∧ m.cache.isModified set way = true ∧
        select z (m.cache.addrs set way) = select z p
      then m.cache.data set way (p % 32) else mem p := by
  unfold writeBack
  by_cases hv : m.cache.isValid set way = true
  · by_cases hm : m.cache.isModified set way = true
    · simp only [hv, hm, Bool.and_self, ↓reduceIte, true_and]
      exact (h.own _ _ hv).copyToEmu_line (h.coherent.addrs_mod _ _ hv) hp _ _
    · simp [hm]
  · simp [hv]

theorem Tidy.writeBack_other (h : Tidy z m) (mem : Memory) (hp : InMemory z p)
    (hs : m.cache.isValid set way = true → select z (m.cache.addrs set way) ≠ select z p) :
    writeBack z m.cache mem set way p = mem p := by
  rw [h.writeBack_apply _ hp, if_neg]
  rintro ⟨hv, -, he⟩
  exact hs hv he

/-! ## Where a byte shows -/

def dirty (z : MemorySizes) (m : Machine) (p : Nat) : Bool :=
  match m.cache.lookup (select z p) with
  | some w => m.cache.isModified (setOf p) w
  | none => false

theorem Coherent.dirty_cached (h : Coherent z m.cache) (hv : m.cache.isValid set way = true)
    (hs : select z (m.cache.addrs set way) = select z p) : dirty z m p = m.cache.isModified set way := by
  have hset : setOf p = set := by rw [← setOf_eq_of_select hs, h.setOf_addrs set way hv]
  unfold dirty
  rw [← hs, h.lookup_addrs hv, hset]

theorem dirty_uncached (hl : m.cache.lookup (select z p) = none) : dirty z m p = false := by
  unfold dirty
  rw [hl]

/-- The byte at `p` lies in `S`, and so does the one behind it where its line is clean. -/
structure Keeps (z : MemorySizes) (m : Machine) (p : Nat) (S : UInt8 → Prop) : Prop where
  seen : S (logical z m p)
  behind : dirty z m p = false → S (m.mem p)

theorem Coherent.keeps_uncached (h : Coherent z m.cache) (hl : m.cache.lookup (select z p) = none) (hS : S (m.mem p)) :
    Keeps z m p S where
  seen := by rwa [h.logical_uncached hl]
  behind _ := hS

def Preserves (z : MemorySizes) (m m' : Machine) : Prop :=
  ∀ p (S : UInt8 → Prop), InMemory z p → Keeps z m p S → Keeps z m' p S

theorem Preserves.refl (z : MemorySizes) (m : Machine) : Preserves z m m := fun _ _ _ hk => hk

theorem Preserves.trans {m m' m'' : Machine} (h : Preserves z m m') (h' : Preserves z m' m'') : Preserves z m m'' :=
  fun p S hp hk => h' p S hp (h p S hp hk)

/-! ## Fetching a line -/

section fill

variable {addr : Nat}

theorem Tidy.fill (h : Tidy z m) (ho : Own z addr) (hset : setOf addr = set) (hmod : addr % 32 = 0)
    (hmiss : m.cache.lookup (select z addr) = none) : Tidy z (fill z m addr set way) where
  coherent := h.coherent.fill hset hmod hmiss
  own := by
    intro s w hv
    rw [isValid_fill, Bool.or_eq_true, decide_eq_true_eq] at hv
    rw [addrs_fill]
    split
    · exact ho
    · rename_i hown
      exact h.own s w (hv.resolve_right hown)

theorem Tidy.preserves_fill (h : Tidy z m) (ho : Own z addr) (hset : setOf addr = set) (hmod : addr % 32 = 0)
    (hmiss : m.cache.lookup (select z addr) = none) : Preserves z m (PPCCache.fill z m addr set way) := by
  intro p S hp hk
  have hc : Coherent z (PPCCache.fill z m addr set way).cache := h.coherent.fill hset hmod hmiss
  have hmem : (m.cache.isValid set way = true → select z (m.cache.addrs set way) ≠ select z p) →
      (PPCCache.fill z m addr set way).mem p = m.mem p := by
    intro hother
    rw [mem_fill, h.writeBack_other _ hp hother]
  by_cases hnew : select z addr = select z p
  · -- the fetched line holds what memory held, and no way held the line
    have hb := ho.backed hp hnew
    rw [hnew] at hmiss
    have hkeep : (PPCCache.fill z m addr set way).mem p = m.mem p := by
      apply hmem
      intro hv he
      rw [← he, h.coherent.lookup_addrs hv] at hmiss
      cases hmiss
    have hold := hk.behind (dirty_uncached hmiss)
    have hv : (PPCCache.fill z m addr set way).cache.isValid set way = true := by simp
    constructor
    · rw [hc.logical_cached hv (by simpa using hnew), data_fill, if_pos ⟨rfl, rfl⟩,
        copyFromEmu_line hb.lineAddr (lineAddr_mod _) hp (by rw [select_lineAddr]; exact hnew), ← mem_fill, hkeep]
      exact hold
    · intro _
      rw [hkeep]
      exact hold
  · by_cases hevict : m.cache.isValid set way = true ∧ select z (m.cache.addrs set way) = select z p
    · -- the evicted line is written back, or memory shows again
      obtain ⟨hv, hs⟩ := hevict
      apply hc.keeps_uncached
      · rw [lookup_fill, if_neg (fun he => hnew he.symm), if_pos ⟨hv, hs.symm⟩]
      · rw [mem_fill, h.writeBack_apply _ hp]
        split
        · rw [← h.coherent.logical_cached hv hs]
          exact hk.seen
        · rename_i hclean
          apply hk.behind
          rw [h.coherent.dirty_cached hv hs]
          simpa [hv, hs] using hclean
    · have hkeep : (PPCCache.fill z m addr set way).mem p = m.mem p := hmem fun hv hs => hevict ⟨hv, hs⟩
      have hl : (PPCCache.fill z m addr set way).cache.lookup (select z p) = m.cache.lookup (select z p) := by
        rw [lookup_fill, if_neg (fun he => hnew he.symm), if_neg (fun he => hevict ⟨he.1, he.2.symm⟩)]
      cases hw : m.cache.lookup (select z p) with
      | none =>
          apply hc.keeps_uncached (hl.trans hw)
          rw [hkeep]
          exact hk.behind (dirty_uncached hw)
      | some w =>
          have hown : ¬ (setOf p = set ∧ w = way) := by
            rintro ⟨hs, rfl⟩
            rw [← hs] at hevict
            exact hevict (h.coherent.lookup_select.mp hw)
          constructor
          · have hseen := hk.seen
            rw [h.coherent.logical_eq, hw] at hseen
            rw [hc.logical_eq, hl, hw]
            simpa only [data_fill, if_neg hown] using hseen
          · intro hd
            rw [hkeep]
            apply hk.behind
            unfold dirty at hd ⊢
            rw [hl, hw] at hd
            rw [hw]
            simpa [hown] using hd

end fill

/-! ## `GetCache` -/

theorem Tidy.getCache (h : Tidy z m) {addr : Nat} (ho : Own z addr) (locked : Bool) :
    Tidy z (Machine.getCache z m addr locked).1 ∧ Preserves z m (Machine.getCache z m addr locked).1 := by
  rcases getCache_cases m addr locked with ⟨w, hl, he⟩ | ⟨hl, -, he⟩ | ⟨w, hl, -, he⟩ <;> rw [he]
  · exact ⟨⟨h.coherent.updatePlru, h.own⟩, fun _ _ _ hk => ⟨hk.seen, hk.behind⟩⟩
  · exact ⟨h, .refl z m⟩
  · rw [← select_lineAddr] at hl
    have ht : Tidy z (PPCCache.fill z m (lineAddr addr) (setOf addr) w) :=
      h.fill ho.lineAddr (setOf_lineAddr addr) (lineAddr_mod addr) hl
    refine ⟨⟨ht.coherent.updatePlru, ht.own⟩, ?_⟩
    intro p S hp hk
    have hk' : Keeps z (PPCCache.fill z m (lineAddr addr) (setOf addr) w) p S :=
      h.preserves_fill ho.lineAddr (setOf_lineAddr addr) (lineAddr_mod addr) hl p S hp hk
    exact ⟨hk'.seen, hk'.behind⟩

/-! ## `Write` -/

theorem Tidy.writeBlock (h : Tidy z m) {addr : Nat} (hb : Backed z addr) (value : Buffer) {n : Nat}
    (hn : addr % 32 + n ≤ 32) (locked : Bool) :
    Tidy z (writeBlock z m addr value n locked) ∧
    ∀ p S, InMemory z p →
      (if mirror addr ≤ p ∧ p < mirror addr + n then S (value (p - mirror addr)) else Keeps z m p S) →
      Keeps z (PPCCache.writeBlock z m addr value n locked) p S := by
  obtain ⟨ht, hpres⟩ := h.getCache (.inl hb) locked
  obtain ⟨hc, hlog⟩ := h.coherent.writeBlock hb value hn locked
  obtain ⟨-, -, hway⟩ := h.coherent.getCache addr locked
  refine ⟨⟨hc, ?_⟩, ?_⟩
  · intro s w
    unfold PPCCache.writeBlock
    split <;> rename_i hg <;> rw [hg] at ht <;> exact ht.own s w
  · intro p S hp hS
    constructor
    · rw [hlog p hp]
      split
      · next hin => rwa [if_pos hin] at hS
      · next hin =>
          rw [if_neg hin] at hS
          exact (hpres p S hp hS).seen
    · intro hd
      -- a byte that the block covers in a cached line is dirty
      unfold PPCCache.writeBlock at hd ⊢
      split at hd
      · rename_i m' set way hg
        obtain ⟨hc', hv, hs, -⟩ := h.coherent.getCache_isValid hg
        by_cases hsp : select z addr = select z p
        · have hcached : Coherent z (Machine.mk ((m'.cache.setData set way
              (patch (m'.cache.data set way) (addr - lineAddr addr) value n)).markModified set way) m'.mem).cache :=
            (hc'.setData _).markModified hv
          rw [hcached.dirty_cached hv (hs.trans hsp)] at hd
          simp at hd
        · rw [if_neg (fun hin => hsp ((block_iff hb hp hn).mp hin).1)] at hS
          have hk := hpres p S hp hS
          rw [hg] at hk
          apply hk.behind
          unfold dirty at hd ⊢
          simp only [Cache.lookup_markModified, Cache.lookup_setData] at hd
          cases hl : m'.cache.lookup (select z p) with
          | none => rfl
          | some w =>
              rw [hl] at hd
              simp only [Cache.isModified_markModified, Cache.isModified_setData, Bool.or_eq_false_iff] at hd
              exact hd.1
      · rename_i m' set hg
        simp only [copyToEmu_backed hb hn]
        split
        · next hin => rwa [if_pos hin] at hS
        · next hin =>
            rw [if_neg hin] at hS
            have hk := hpres p S hp hS
            rw [hg] at hk
            exact hk.behind hd

theorem Tidy.write {m : Machine} (h : Tidy z m) {addr len : Nat} (hb : ∀ i < len, Backed z (addr + i))
    (value : Buffer) (locked : Bool) :
    Tidy z (Machine.write z m addr value len locked) ∧
    (∀ i < len, Keeps z (Machine.write z m addr value len locked) (mirror (addr + i)) (· = value i)) ∧
    ∀ p S, InMemory z p → (∀ i < len, mirror (addr + i) ≠ p) → Keeps z m p S →
      Keeps z (Machine.write z m addr value len locked) p S := by
  induction len using Nat.strong_induction_on generalizing m addr value with
  | _ len ih =>
      rw [write_eq]
      by_cases hlen : len = 0
      · rw [if_pos hlen]
        exact ⟨h, fun i hi => by omega, fun _ _ _ _ hk => hk⟩
      · rw [if_neg hlen]
        have hpos := lenInBlock_pos addr hlen
        have hline := lenInBlock_le addr len
        have hle := lenInBlock_le_len addr len
        generalize lenInBlock addr len = n at *
        have hb₀ : Backed z addr := hb 0 (by omega)
        obtain ⟨ht, hblock⟩ := h.writeBlock hb₀ value hline locked
        have hb' : ∀ i < len - n, Backed z ((addr + n) % 2 ^ 32 + i) := by
          intro i hi
          rw [backed_add_u32, Nat.add_assoc]; exact hb _ (by omega)
        obtain ⟨ht', hin, hout⟩ := ih (len - n) (by omega) ht hb' (fun i => value (n + i))
        have hrest : ∀ p, (∀ j, n ≤ j → j < len → mirror (addr + j) ≠ p) →
            ∀ i < len - n, mirror ((addr + n) % 2 ^ 32 + i) ≠ p := by
          intro p hne i hi
          rw [mirror_add_u32, Nat.add_assoc]
          exact hne _ (by omega) (by omega)
        refine ⟨ht', ?_, ?_⟩
        · intro i hi
          have hp := backed_iff.mp (hb i hi)
          by_cases hin' : i < n
          · have hmir := mirror_add addr i (by omega)
            refine hout _ _ hp (hrest _ ?_) (hblock _ _ hp ?_)
            · -- the rest of the range does not touch the first block again
              intro j hj hj' he
              have := mirror_injective hb hj' hi he
              omega
            · rw [hmir, if_pos (by omega), show mirror addr + i - mirror addr = i by omega]
          · have := hin (i - n) (by omega)
            rwa [mirror_add_u32, show addr + n + (i - n) = addr + i by omega,
              show n + (i - n) = i by omega] at this
        · intro p S hp hne hk
          refine hout p S hp (hrest p fun j _ hj => hne j hj) (hblock p S hp ?_)
          rw [if_neg]
          · exact hk
          · intro hrange
            have hmir := mirror_add addr (p - mirror addr) (by omega)
            exact hne (p - mirror addr) (by omega) (by rw [hmir]; omega)

/-! ## `Read` -/

theorem Tidy.readLoop {m : Machine} (h : Tidy z m) {addr len : Nat} (ho : ∀ i < len, Own z (addr + i))
    (buffer : Buffer) (pos : Nat) (locked : Bool) :
    Tidy z (Machine.readLoop z m addr buffer pos len locked).1 ∧
    Preserves z m (Machine.readLoop z m addr buffer pos len locked).1 ∧
    (∀ i < len, ∀ S, InMemory z (mirror (addr + i)) → Keeps z m (mirror (addr + i)) S →
      S ((Machine.readLoop z m addr buffer pos len locked).2 (pos + i))) ∧
    ∀ i < pos, (Machine.readLoop z m addr buffer pos len locked).2 i = buffer i := by
  induction len using Nat.strong_induction_on generalizing m addr buffer pos with
  | _ len ih =>
      rw [readLoop_eq]
      by_cases hlen : len = 0
      · rw [if_pos hlen]
        subst hlen
        exact ⟨h, .refl z m, fun i hi => absurd hi (Nat.not_lt_zero i), fun _ _ => rfl⟩
      · rw [if_neg hlen]
        have hpos := lenInBlock_pos addr hlen
        have hline := lenInBlock_le addr len
        have hle := lenInBlock_le_len addr len
        simp only
        generalize lenInBlock addr len = n at *
        have ho₀ : Own z addr := ho 0 (by omega)
        obtain ⟨ht, hpres⟩ := h.getCache ho₀ locked
        have ho' : ∀ i < len - n, Own z ((addr + n) % 2 ^ 32 + i) := by
          intro i hi
          have := ho (n + i) (by omega)
          rw [Own, ← select_mirror, ← Nat.add_assoc, ← mirror_add_u32, select_mirror] at this
          rwa [Own, backed_add_u32]
        obtain ⟨ht', hpres', hin, hout⟩ := ih (len - n) (by omega) ht ho'
          (fun i => if pos ≤ i ∧ i < pos + n then
            PPCCache.readBlock z m addr (fun i => buffer (pos + i)) n locked (i - pos) else buffer i) (pos + n)
        refine ⟨ht', hpres.trans hpres', ?_, ?_⟩
        · intro i hi S hp hk
          by_cases hin' : i < n
          · have hb : Backed z addr := by
              have hmir := mirror_add addr i (by omega)
              have hmod := mirror_mod addr
              rw [hmir] at hp
              exact backed_iff.mpr (hp.line (by omega))
            rw [hout (pos + i) (by omega), if_pos (by omega), show pos + i - pos = i by omega,
              h.coherent.readBlock hb _ hline locked hin']
            exact (hpres _ S hp hk).seen
          · have hmir : mirror ((addr + n) % 2 ^ 32 + (i - n)) = mirror (addr + i) := by
              rw [mirror_add_u32, show addr + n + (i - n) = addr + i by omega]
            have := hin (i - n) (by omega) S (by rwa [hmir]) (by rw [hmir]; exact hpres _ S hp hk)
            rwa [show pos + n + (i - n) = pos + i by omega] at this
        · intro i hi
          rw [hout i (by omega), if_neg (by omega)]

/-! ## Stores past the cache -/

theorem Tidy.store_behind (h : Tidy z m) (mem' : Memory) : Tidy z ⟨m.cache, mem'⟩ := ⟨h.coherent, h.own⟩

theorem Coherent.keeps_behind (h : Coherent z m.cache) (hk : Keeps z m p S) {mem' : Memory}
    (hmem : mem' p = m.mem p ∨ S (mem' p)) : Keeps z ⟨m.cache, mem'⟩ p S := by
  have hc : Coherent z (Machine.mk m.cache mem').cache := h
  have hbehind : dirty z m p = false → S (mem' p) := by
    intro hd
    cases hmem with
    | inl heq => rw [heq]; exact hk.behind hd
    | inr hS => exact hS
  constructor
  · cases hl : m.cache.lookup (select z p) with
    | none =>
        rw [hc.logical_uncached hl]
        exact hbehind (dirty_uncached hl)
    | some w =>
        have hseen := hk.seen
        rw [h.logical_eq, hl] at hseen
        rwa [hc.logical_eq, hl]
  · exact hbehind

end Karphin.PPCCache
