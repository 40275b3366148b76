import Karphin.PPCCache.Lemmas.Operations

/-!
# The logical memory

`Faithful` adds to the table invariant that every line in the cache is backed by memory and that a clean
line equals memory. Under it, fetching, evicting and writing back lines leave the logical memory alone.
-/

namespace Karphin.PPCCache

open Machine

variable {z : MemorySizes} {c : Cache} {m : Machine} {set : CacheSet} {way : Way}

/-! ## Copies of whole lines -/

theorem select_eq_of_line {p q : Nat} (h : p / 32 = q / 32) : select z p = select z q := by
  rw [← select_lineAddr z p, ← select_lineAddr z q, lineAddr, lineAddr, h]

theorem mirror_mod (a : Nat) : mirror a % 32 = a % 32 := by unfold mirror; omega

theorem line_iff_select {a p : Nat} (ha : Backed z a) (hp : InMemory z p) :
    mirror a / 32 = p / 32 ↔ select z a = select z p := by
  rw [← select_mirror z a]
  exact ⟨select_eq_of_line, line_eq_of_select (backed_iff.mp ha) hp⟩

theorem copyToEmu_line {a p : Nat} (ha : Backed z a) (hmod : a % 32 = 0) (hp : InMemory z p)
    (mem : Memory) (data : Buffer) : copyToEmu z mem a data 32 p =
      if select z a = select z p then data (p % 32) else mem p := by
  rw [copyToEmu_backed ha (by omega)]
  have hm := mirror_mod a
  simp only [← line_iff_select ha hp]
  by_cases h : mirror a / 32 = p / 32
  · rw [if_pos h, if_pos (by omega), show p - mirror a = p % 32 by omega]
  · rw [if_neg h, if_neg (by omega)]

theorem copyFromEmu_line {a p : Nat} (ha : Backed z a) (hmod : a % 32 = 0) (hp : InMemory z p)
    (h : select z a = select z p) (mem : Memory) (data : Buffer) :
    copyFromEmu z mem data a 32 (p % 32) = mem p := by
  have hm := mirror_mod a
  have hline := (line_iff_select ha hp).mpr h
  rw [copyFromEmu_backed ha (by omega), if_pos (by omega)]
  congr 1
  omega

theorem Backed.lineAddr {a : Nat} (h : Backed z a) : Backed z (lineAddr a) := by
  rw [backed_iff] at h ⊢
  exact h.line (by unfold mirror PPCCache.lineAddr; omega)

/-! ## The invariant -/

structure Faithful (z : MemorySizes) (m : Machine) : Prop where
  coherent : Coherent z m.cache
  backed : ∀ set w, m.cache.isValid set w = true → Backed z (m.cache.addrs set w)
  clean : ∀ set w, m.cache.isValid set w = true → m.cache.isModified set w = false →
    ∀ p, InMemory z p → select z (m.cache.addrs set w) = select z p → m.cache.data set w (p % 32) = m.mem p

theorem Faithful.init (z : MemorySizes) (mem : Memory) : Faithful z (Machine.init mem) where
  coherent := Coherent.init z
  backed := by intro set w h; simp [Machine.init, Cache.init, Cache.reset, Cache.isValid] at h
  clean := by intro set w h; simp [Machine.init, Cache.init, Cache.reset, Cache.isValid] at h

theorem Coherent.lineWay_eq (h : Coherent z c) (p : Nat) : lineWay z c p = c.lookup (select z p) := by
  apply Option.ext
  intro w
  rw [h.lookup_select]
  constructor
  · intro hw
    have := List.find?_some hw
    simpa using this
  · rintro ⟨hv, hs⟩
    unfold lineWay
    cases hf : (List.finRange 8).find? fun w =>
        c.isValid (setOf p) w && decide (select z (c.addrs (setOf p) w) = select z p) with
    | none =>
        rw [List.find?_eq_none] at hf
        have := hf w (List.mem_finRange w)
        simp [hv, hs] at this
    | some w' =>
        have hw' := List.find?_some hf
        simp only [Bool.and_eq_true, decide_eq_true_eq] at hw'
        rw [h.way_unique hw'.1 hv (hw'.2.trans hs.symm)]

theorem Coherent.holder_unique (h : Coherent z c) {s : CacheSet} {w : Way} (hv : c.isValid s w = true)
    (hv' : c.isValid set way = true) (he : select z (c.addrs s w) = select z (c.addrs set way)) :
    s = set ∧ w = way := by
  have hs : s = set := by
    rw [← h.setOf_addrs s w hv, ← h.setOf_addrs set way hv', setOf_eq_of_select he]
  subst hs
  exact ⟨rfl, h.way_unique hv hv' he⟩

theorem Coherent.logical_eq (h : Coherent z m.cache) (p : Nat) : logical z m p =
    match m.cache.lookup (select z p) with
    | some w => m.cache.data (setOf p) w (p % 32)
    | none => m.mem p := by
  unfold logical
  cases hw : m.cache.lookup (select z p) <;> simp only [h.lineWay_eq, hw]

theorem Coherent.logical_cached (h : Coherent z m.cache) (hv : m.cache.isValid set way = true) {p : Nat}
    (hs : select z (m.cache.addrs set way) = select z p) :
    logical z m p = m.cache.data set way (p % 32) := by
  have hset : setOf p = set := by rw [← setOf_eq_of_select hs, h.setOf_addrs set way hv]
  rw [h.logical_eq, ← hs, h.lookup_addrs hv, hset]

theorem Coherent.logical_uncached (h : Coherent z m.cache) {p : Nat}
    (hl : m.cache.lookup (select z p) = none) : logical z m p = m.mem p := by
  rw [h.logical_eq, hl]

theorem Faithful.writeBack_apply (h : Faithful z m) (mem : Memory) {p : Nat} (hp : InMemory z p) :
    writeBack z m.cache mem set way p =
      if m.cache.isValid set way = true ∧ m.cache.isModified set way = true ∧
        select z (m.cache.addrs set way) = select z p
      then m.cache.data set way (p % 32) else mem p := by
  unfold writeBack
  by_cases hv : m.cache.isValid set way = true
  · by_cases hm : m.cache.isModified set way = true
    · simp only [hv, hm, Bool.and_self, ↓reduceIte, true_and]
      exact copyToEmu_line (h.backed _ _ hv) (h.coherent.addrs_mod _ _ hv) hp _ _
    · simp [hm]
  · simp [hv]

theorem Faithful.writeBack_own (h : Faithful z m) (hv : m.cache.isValid set way = true) {p : Nat}
    (hp : InMemory z p) (hs : select z (m.cache.addrs set way) = select z p) :
    writeBack z m.cache m.mem set way p = m.cache.data set way (p % 32) := by
  rw [h.writeBack_apply _ hp]
  by_cases hm : m.cache.isModified set way = true
  · rw [if_pos ⟨hv, hm, hs⟩]
  · rw [if_neg (by tauto), h.clean _ _ hv (by simpa using hm) p hp hs]

theorem Faithful.writeBack_other (h : Faithful z m) (mem : Memory) {p : Nat} (hp : InMemory z p)
    (hs : m.cache.isValid set way = true → select z (m.cache.addrs set way) ≠ select z p) :
    writeBack z m.cache mem set way p = mem p := by
  rw [h.writeBack_apply _ hp, if_neg]
  rintro ⟨hv, -, he⟩
  exact hs hv he

/-! ## Fetching a line -/

section fill

variable {addr : Nat}

theorem Faithful.fill (h : Faithful z m) (hb : Backed z addr) (hset : setOf addr = set)
    (hmod : addr % 32 = 0) (hmiss : m.cache.lookup (select z addr) = none) :
    Faithful z (fill z m addr set way) where
  coherent := h.coherent.fill hset hmod hmiss
  backed := by
    intro s w hv
    rw [isValid_fill, Bool.or_eq_true, decide_eq_true_eq] at hv
    rw [addrs_fill]
    split
    · exact hb
    · rename_i hown; exact h.backed s w (hv.resolve_right hown)
  clean := by
    intro s w hv hm p hp hs
    rw [isValid_fill, Bool.or_eq_true, decide_eq_true_eq] at hv
    rw [isModified_fill, Bool.and_eq_false_iff, decide_eq_false_iff_not, not_not] at hm
    rw [addrs_fill] at hs
    rw [data_fill, mem_fill]
    by_cases hown : s = set ∧ w = way
    · rw [if_pos hown] at hs ⊢
      rw [copyFromEmu_line hb.lineAddr (lineAddr_mod _) hp (by rw [select_lineAddr]; exact hs)]
    · rw [if_neg hown] at hs ⊢
      have hv' := hv.resolve_right hown
      rw [h.writeBack_other _ hp, h.clean s w hv' (hm.resolve_right hown) p hp hs]
      -- the evicted way holds another line
      intro hv'' he
      exact hown (h.coherent.holder_unique hv' hv'' (hs.trans he.symm))

theorem Faithful.logical_fill (h : Faithful z m) (hb : Backed z addr) (hset : setOf addr = set)
    (hmod : addr % 32 = 0) (hmiss : m.cache.lookup (select z addr) = none) {p : Nat} (hp : InMemory z p) :
    logical z (PPCCache.fill z m addr set way) p = logical z m p := by
  have hc := (h.coherent.fill hset hmod hmiss : Coherent z (PPCCache.fill z m addr set way).cache)
  have hold : m.cache.isValid set way = true → select z (m.cache.addrs set way) ≠ select z addr := by
    intro hv he
    rw [← he, h.coherent.lookup_addrs hv] at hmiss
    cases hmiss
  by_cases hnew : select z addr = select z p
  · -- the fetched line: its bytes come from memory, where the logical bytes were
    have hv : (PPCCache.fill z m addr set way).cache.isValid set way = true := by simp
    rw [hc.logical_cached hv (by simpa using hnew), data_fill, if_pos ⟨rfl, rfl⟩,
      copyFromEmu_line hb.lineAddr (lineAddr_mod _) hp (by rw [select_lineAddr]; exact hnew),
      h.writeBack_other _ hp (fun hv => by rw [← hnew]; exact hold hv),
      h.coherent.logical_uncached (by rw [← hnew]; exact hmiss)]
  · by_cases hevict : m.cache.isValid set way = true ∧ select z (m.cache.addrs set way) = select z p
    · -- the evicted line
      obtain ⟨hv, hs⟩ := hevict
      rw [hc.logical_uncached, mem_fill, h.writeBack_own hv hp hs, h.coherent.logical_cached hv hs]
      rw [lookup_fill, if_neg (fun he => hnew he.symm), if_pos ⟨hv, hs.symm⟩]
    · have hl : (PPCCache.fill z m addr set way).cache.lookup (select z p) =
          m.cache.lookup (select z p) := by
        rw [lookup_fill, if_neg (fun he => hnew he.symm), if_neg (fun he => hevict ⟨he.1, he.2.symm⟩)]
      rw [hc.logical_eq, h.coherent.logical_eq, hl]
      cases hw : m.cache.lookup (select z p) with
      | none =>
          simp only [mem_fill]
          exact h.writeBack_other _ hp (fun hv hs => hevict ⟨hv, hs⟩)
      | some w =>
          simp only [data_fill]
          rw [if_neg]
          rintro ⟨hs, rfl⟩
          obtain ⟨hv, hsel⟩ := h.coherent.lookup_select.mp hw
          rw [hs] at hv hsel
          exact hevict ⟨hv, hsel⟩

end fill

/-! ## `GetCache` -/

theorem Faithful.updatePlru (h : Faithful z m) : Faithful z ⟨m.cache.updatePlru set way, m.mem⟩ where
  coherent := h.coherent.updatePlru
  backed := h.backed
  clean := h.clean

theorem logical_updatePlru (z : MemorySizes) (m : Machine) (set way) :
    logical z ⟨m.cache.updatePlru set way, m.mem⟩ = logical z m := rfl

theorem Faithful.getCache (h : Faithful z m) {addr : Nat} (hb : Backed z addr) (locked : Bool) :
    Faithful z (Machine.getCache z m addr locked).1 ∧
    ∀ p, InMemory z p → logical z (Machine.getCache z m addr locked).1 p = logical z m p := by
  rcases getCache_cases m addr locked with ⟨w, hl, he⟩ | ⟨hl, -, he⟩ | ⟨w, hl, -, he⟩ <;> rw [he]
  · exact ⟨h.updatePlru, fun p _ => rfl⟩
  · exact ⟨h, fun p _ => rfl⟩
  · rw [← select_lineAddr] at hl
    refine ⟨(h.fill hb.lineAddr (setOf_lineAddr addr) (lineAddr_mod addr) hl).updatePlru, ?_⟩
    intro p hp
    rw [logical_updatePlru]
    exact h.logical_fill hb.lineAddr (setOf_lineAddr addr) (lineAddr_mod addr) hl hp

/-! ## Writing back a line -/

section writeBack

variable {mem' : Memory}

theorem Faithful.markClean (h : Faithful z m) (hv : m.cache.isValid set way = true)
    (hmem : ∀ p, InMemory z p → mem' p = writeBack z m.cache m.mem set way p) :
    Faithful z ⟨m.cache.markClean set way, mem'⟩ where
  coherent := h.coherent.markClean
  backed := h.backed
  clean := by
    intro s w hv' hm p hp hs
    simp only [Cache.isValid_markClean, Cache.isModified_markClean, Bool.and_eq_false_iff,
      decide_eq_false_iff_not, not_not, Cache.addrs_markClean] at hv' hm hs
    simp only [Cache.data_markClean, hmem p hp]
    by_cases hown : s = set ∧ w = way
    · obtain ⟨rfl, rfl⟩ := hown
      rw [h.writeBack_own hv hp hs]
    · rw [h.writeBack_other _ hp, h.clean s w hv' (hm.resolve_right hown) p hp hs]
      intro _ he
      exact hown (h.coherent.holder_unique hv' hv (hs.trans he.symm))

theorem Faithful.logical_markClean (h : Faithful z m)
    (hmem : ∀ p, InMemory z p → mem' p = writeBack z m.cache m.mem set way p) {p : Nat}
    (hp : InMemory z p) : logical z ⟨m.cache.markClean set way, mem'⟩ p = logical z m p := by
  have hc : Coherent z (Machine.mk (m.cache.markClean set way) mem').cache := h.coherent.markClean
  rw [hc.logical_eq, h.coherent.logical_eq]
  simp only [Cache.lookup_markClean, Cache.data_markClean]
  cases hl : m.cache.lookup (select z p) with
  | some w => rfl
  | none =>
      simp only [hmem p hp]
      refine h.writeBack_other _ hp ?_
      intro hv he
      rw [← he, h.coherent.lookup_addrs hv] at hl; cases hl

theorem Faithful.dropWay (h : Faithful z m) (hv : m.cache.isValid set way = true)
    (hmem : ∀ p, InMemory z p → mem' p = writeBack z m.cache m.mem set way p) :
    Faithful z ⟨dropWay z m.cache set way, mem'⟩ where
  coherent := h.coherent.drop hv
  backed := by
    intro s w hv'
    simp only [isValid_dropWay, Bool.and_eq_true] at hv'
    exact h.backed s w hv'.1
  clean := by
    intro s w hv' hm p hp hs
    simp only [isValid_dropWay, isModified_dropWay, Bool.and_eq_true, Bool.and_eq_false_iff,
      decide_eq_true_eq, decide_eq_false_iff_not, addrs_dropWay] at hv' hm hs
    simp only [data_dropWay, hmem p hp]
    rw [h.writeBack_other _ hp, h.clean s w hv'.1 (hm.resolve_right (fun hn => hn hv'.2)) p hp hs]
    intro _ he
    exact hv'.2 (h.coherent.holder_unique hv'.1 hv (hs.trans he.symm))

theorem Faithful.logical_dropWay (h : Faithful z m) (hv : m.cache.isValid set way = true)
    (hmem : ∀ p, InMemory z p → mem' p = writeBack z m.cache m.mem set way p) {p : Nat}
    (hp : InMemory z p) : logical z ⟨Machine.dropWay z m.cache set way, mem'⟩ p = logical z m p := by
  have hc : Coherent z (Machine.mk (Machine.dropWay z m.cache set way) mem').cache := h.coherent.drop hv
  by_cases hs : select z (m.cache.addrs set way) = select z p
  · rw [hc.logical_uncached (by simp [hs]), h.coherent.logical_cached hv hs]
    simp only [hmem p hp, h.writeBack_own hv hp hs]
  · rw [hc.logical_eq, h.coherent.logical_eq]
    simp only [lookup_dropWay, if_neg (fun he => hs (Eq.symm he)), data_dropWay]
    cases hl : m.cache.lookup (select z p) with
    | some w => rfl
    | none => simp only [hmem p hp]; exact h.writeBack_other _ hp (fun _ => hs)

end writeBack

theorem Faithful.writeBack_addr (h : Faithful z m) (hv : m.cache.isValid set way = true) {addr : Nat}
    (hb : Backed z addr) (hs : select z (m.cache.addrs set way) = select z addr) {p : Nat}
    (hp : InMemory z p) :
    (if m.cache.isModified set way then copyToEmu z m.mem (lineAddr addr) (m.cache.data set way) 32
      else m.mem) p = writeBack z m.cache m.mem set way p := by
  rw [h.writeBack_apply _ hp, hs]
  by_cases hm : m.cache.isModified set way = true
  · simp only [hm, hv, ↓reduceIte, true_and]
    rw [copyToEmu_line hb.lineAddr (lineAddr_mod _) hp, select_lineAddr]
  · simp [hm]

theorem Faithful.store (h : Faithful z m) {addr : Nat} (hb : Backed z addr) :
    Faithful z (Machine.store z m addr) ∧
    ∀ p, InMemory z p → logical z (Machine.store z m addr) p = logical z m p := by
  obtain ⟨hf, hlog⟩ := h.getCache hb true
  unfold Machine.store
  split
  · rename_i hg; rw [hg] at hf hlog; exact ⟨hf, hlog⟩
  · rename_i m' set way hg
    obtain ⟨-, hv, hs, -⟩ := h.coherent.getCache_isValid hg
    rw [hg] at hf hlog
    simp only [hv, Bool.true_and]
    have hmem := fun p (hp : InMemory z p) => hf.writeBack_addr hv hb hs hp
    exact ⟨hf.markClean hv hmem, fun p hp => (hf.logical_markClean hmem hp).trans (hlog p hp)⟩

theorem Faithful.flush (h : Faithful z m) {addr : Nat} (hb : Backed z addr) :
    Faithful z (Machine.flush z m addr) ∧
    ∀ p, InMemory z p → logical z (Machine.flush z m addr) p = logical z m p := by
  obtain ⟨hf, hlog⟩ := h.getCache hb true
  unfold Machine.flush
  split
  · rename_i hg; rw [hg] at hf hlog; exact ⟨hf, hlog⟩
  · rename_i m' set way hg
    obtain ⟨-, hv, hs, -⟩ := h.coherent.getCache_isValid hg
    rw [hg] at hf hlog
    simp only [hv, ↓reduceIte]
    have hmem := fun p (hp : InMemory z p) => hf.writeBack_addr hv hb hs hp
    exact ⟨hf.dropWay hv hmem, fun p hp => (hf.logical_dropWay hv hmem hp).trans (hlog p hp)⟩

theorem Faithful.foldl_writeBack (h : Faithful z m) {p : Nat} (hp : InMemory z p)
    (l : List (CacheSet × Way)) (mem : Memory) :
    l.foldl (fun mem q => writeBack z m.cache mem q.1 q.2) mem p = logical z m p ∨
    l.foldl (fun mem q => writeBack z m.cache mem q.1 q.2) mem p = mem p ∧
      ∀ q ∈ l, m.cache.isModified q.1 q.2 = true → select z (m.cache.addrs q.1 q.2) ≠ select z p := by
  induction l generalizing mem with
  | nil => right; simp
  | cons q l ih =>
      simp only [List.foldl_cons, List.mem_cons]
      rcases ih (writeBack z m.cache mem q.1 q.2) with hl | ⟨hl, hn⟩
      · exact Or.inl hl
      · rw [h.writeBack_apply _ hp] at hl
        by_cases hq : m.cache.isModified q.1 q.2 = true ∧ select z (m.cache.addrs q.1 q.2) = select z p
        · have hv := h.coherent.isValid_of_isModified _ _ hq.1
          rw [if_pos ⟨hv, hq⟩] at hl
          left; rw [hl, h.coherent.logical_cached hv hq.2]
        · rw [if_neg (fun hd => hq hd.2)] at hl
          right
          refine ⟨hl, ?_⟩
          rintro q' (rfl | hq')
          · intro hm hs; exact hq ⟨hm, hs⟩
          · exact hn q' hq'

theorem Faithful.flushAll (h : Faithful z m) {p : Nat} (hp : InMemory z p) :
    (Machine.flushAll z m).mem p = logical z m p := by
  rcases h.foldl_writeBack hp allWays m.mem with hl | ⟨hl, hn⟩
  · exact hl
  · refine hl.trans ?_
    rw [h.coherent.logical_eq]
    cases hw : m.cache.lookup (select z p) with
    | none => rfl
    | some w =>
        obtain ⟨hv, hs⟩ := h.coherent.lookup_select.mp hw
        have hm : m.cache.isModified (setOf p) w = false := by
          cases hm : m.cache.isModified (setOf p) w with
          | false => rfl
          | true => exact absurd hs (hn (setOf p, w) (mem_allWays _) hm)
        exact (h.clean _ _ hv hm p hp hs).symm

/-! ## One block of `Write` -/

theorem lenInBlock_le (addr len : Nat) : addr % 32 + lenInBlock addr len ≤ 32 := by
  unfold lenInBlock lineAddr; omega

theorem lenInBlock_le_len (addr len : Nat) : lenInBlock addr len ≤ len := by
  unfold lenInBlock; omega

theorem block_iff {addr p n : Nat} (hb : Backed z addr) (hp : InMemory z p) (hn : addr % 32 + n ≤ 32) :
    (mirror addr ≤ p ∧ p < mirror addr + n) ↔
      select z addr = select z p ∧ addr % 32 ≤ p % 32 ∧ p % 32 < addr % 32 + n := by
  have hm := mirror_mod addr
  rw [← line_iff_select hb hp]
  omega

def writeBlock (z : MemorySizes) (m : Machine) (addr : Nat) (value : Buffer) (n : Nat) (locked : Bool) :
    Machine :=
  match Machine.getCache z m addr locked with
  | (s, set, some way) =>
      ⟨(s.cache.setData set way
        (patch (s.cache.data set way) (addr - lineAddr addr) value n)).markModified set way, s.mem⟩
  | (s, _, none) => ⟨s.cache, copyToEmu z s.mem addr value n⟩

theorem write_eq (z : MemorySizes) (m : Machine) (addr : Nat) (value : Buffer) (len : Nat) (locked : Bool) :
    Machine.write z m addr value len locked =
      if len = 0 then m
      else Machine.write z (writeBlock z m addr value (lenInBlock addr len) locked)
        ((addr + lenInBlock addr len) % 2 ^ 32) (fun i => value (lenInBlock addr len + i))
        (len - lenInBlock addr len) locked := by
  rw [Machine.write]; rfl

theorem Coherent.writeBlock (h : Coherent z m.cache) {addr : Nat} (hb : Backed z addr) (value : Buffer) {n : Nat}
    (hn : addr % 32 + n ≤ 32) (locked : Bool) :
    Coherent z (writeBlock z m addr value n locked).cache ∧
    ∀ p, InMemory z p → logical z (PPCCache.writeBlock z m addr value n locked) p =
      if mirror addr ≤ p ∧ p < mirror addr + n then value (p - mirror addr)
      else logical z (Machine.getCache z m addr locked).1 p := by
  obtain ⟨hf, -, hway⟩ := h.getCache addr locked
  have hoff : addr - lineAddr addr = addr % 32 := by unfold lineAddr; omega
  have hmod := mirror_mod addr
  unfold PPCCache.writeBlock
  split
  · -- the line is in the cache
    rename_i m' set way hg
    obtain ⟨-, hv, hs, -⟩ := h.getCache_isValid hg
    rw [hg] at hf ⊢
    have hc : Coherent z (Machine.mk ((m'.cache.setData set way
        (patch (m'.cache.data set way) (addr - lineAddr addr) value n)).markModified set way) m'.mem).cache :=
      (hf.setData _).markModified hv
    simp only
    refine ⟨hc, ?_⟩
    intro p hp
    by_cases hsp : select z addr = select z p
    · rw [hc.logical_cached hv (hs.trans hsp), hf.logical_cached hv (hs.trans hsp)]
      have hline := (line_iff_select hb hp).mpr hsp
      simp only [Cache.data_markModified, Cache.data_setData, and_self, ↓reduceIte, patch, hoff,
        block_iff hb hp hn, hsp, true_and]
      split
      · congr 1; omega
      · rfl
    · rw [if_neg (fun hin => hsp ((block_iff hb hp hn).mp hin).1), hc.logical_eq, hf.logical_eq]
      simp only [Cache.lookup_markModified, Cache.lookup_setData, Cache.data_markModified,
        Cache.data_setData]
      cases hl : m'.cache.lookup (select z p) with
      | none => rfl
      | some w =>
          simp only
          rw [if_neg]
          rintro ⟨hset, rfl⟩
          obtain ⟨-, hsel⟩ := hf.lookup_select.mp hl
          rw [hset, hs] at hsel
          exact hsp hsel
  · -- the cache is locked and does not hold the line
    rename_i m' set hg
    rw [hg] at hf hway ⊢
    simp only at hf hway ⊢
    have hc : Coherent z (Machine.mk m'.cache (copyToEmu z m'.mem addr value n)).cache := hf
    refine ⟨hc, ?_⟩
    intro p hp
    rw [hc.logical_eq, hf.logical_eq]
    simp only [copyToEmu_backed hb hn]
    cases hl : m'.cache.lookup (select z p) with
    | none => rfl
    | some w =>
        simp only
        rw [if_neg]
        intro hin
        rw [← ((block_iff hb hp hn).mp hin).1, hway] at hl
        cases hl

theorem Faithful.writeBlock (h : Faithful z m) {addr : Nat} (hb : Backed z addr) (value : Buffer) {n : Nat}
    (hn : addr % 32 + n ≤ 32) (locked : Bool) :
    Faithful z (writeBlock z m addr value n locked) ∧
    ∀ p, InMemory z p → logical z (PPCCache.writeBlock z m addr value n locked) p =
      if mirror addr ≤ p ∧ p < mirror addr + n then value (p - mirror addr) else logical z m p := by
  obtain ⟨hf, hlog⟩ := h.getCache hb locked
  obtain ⟨hc, hblock⟩ := h.coherent.writeBlock hb value hn locked
  obtain ⟨-, -, hway⟩ := h.coherent.getCache addr locked
  refine ⟨⟨hc, ?_, ?_⟩, fun p hp => by rw [hblock p hp, hlog p hp]⟩
  · unfold PPCCache.writeBlock
    split
    · rename_i m' set way hg
      rw [hg] at hf
      exact hf.backed
    · rename_i m' set hg
      rw [hg] at hf
      exact hf.backed
  · intro s w
    unfold PPCCache.writeBlock
    split
    · rename_i m' set way hg
      rw [hg] at hf
      intro hv' hm p hp hsp
      simp only [Cache.isModified_markModified, Cache.isModified_setData, Bool.or_eq_false_iff,
        decide_eq_false_iff_not] at hm
      simp only [Cache.data_markModified, Cache.data_setData, if_neg hm.2]
      exact hf.clean s w hv' hm.1 p hp hsp
    · rename_i m' set hg
      rw [hg] at hf hway
      simp only at hf hway
      intro hv' hm p hp hsp
      simp only [copyToEmu_backed hb hn]
      rw [if_neg, hf.clean s w hv' hm p hp hsp]
      intro hin
      rw [((block_iff hb hp hn).mp hin).1, ← hsp, hf.coherent.lookup_addrs hv'] at hway
      cases hway

/-! ## Whole accesses -/

theorem mirror_add_u32 (a i : Nat) : mirror (a % 2 ^ 32 + i) = mirror (a + i) := by unfold mirror; omega

theorem backed_add_u32 {a i : Nat} : Backed z (a % 2 ^ 32 + i) ↔ Backed z (a + i) := by
  rw [backed_iff, backed_iff, mirror_add_u32]

theorem mirror_add (addr i : Nat) (h : addr % 32 + i < 32) : mirror (addr + i) = mirror addr + i := by
  unfold mirror; omega

theorem mirror_injective {addr len : Nat} (hb : ∀ i < len, Backed z (addr + i)) {i j : Nat} (hi : i < len)
    (hj : j < len) (h : mirror (addr + i) = mirror (addr + j)) : i = j := by
  have hram := z.ram_le
  have hex := z.exRam_le
  have gap : ∀ a, mirror a = 0x20000000 → ¬ Backed z a := by
    intro a ha hba
    rw [backed_iff, ha] at hba
    rcases hba with h | ⟨-, -, h⟩ <;> omega
  have wlog : ∀ i j, j < len → i < j → mirror (addr + i) = mirror (addr + j) → False := by
    intro i j hj hij h
    have hk : i + (0x20000000 + 2 ^ 30 - mirror (addr + i)) % 2 ^ 30 < len := by
      unfold mirror at h ⊢; omega
    refine gap _ ?_ (hb _ hk)
    unfold mirror; omega
  rcases Nat.lt_trichotomy i j with hlt | heq | hgt
  · exact (wlog i j hj hlt h).elim
  · exact heq
  · exact (wlog j i hi hgt h.symm).elim

theorem Faithful.write {m : Machine} (h : Faithful z m) {addr len : Nat}
    (hb : ∀ i < len, Backed z (addr + i)) (value : Buffer) (locked : Bool) :
    Faithful z (Machine.write z m addr value len locked) ∧
    (∀ i < len, logical z (Machine.write z m addr value len locked) (mirror (addr + i)) = value i) ∧
    ∀ p, InMemory z p → (∀ i < len, mirror (addr + i) ≠ p) →
      logical z (Machine.write z m addr value len locked) p = logical z m p := by
  induction len using Nat.strong_induction_on generalizing m addr value with
  | _ len ih =>
      rw [write_eq]
      by_cases hlen : len = 0
      · rw [if_pos hlen]
        exact ⟨h, fun i hi => by omega, fun _ _ _ => rfl⟩
      · rw [if_neg hlen]
        have hpos := lenInBlock_pos addr hlen
        have hline := lenInBlock_le addr len
        have hle := lenInBlock_le_len addr len
        generalize lenInBlock addr len = n at *
        have hb₀ : Backed z addr := hb 0 (by omega)
        obtain ⟨hf, hlog⟩ := h.writeBlock hb₀ value hline locked
        have hb' : ∀ i < len - n, Backed z ((addr + n) % 2 ^ 32 + i) := by
          intro i hi
          rw [backed_add_u32, Nat.add_assoc]; exact hb _ (by omega)
        obtain ⟨hf', hin, hout⟩ := ih (len - n) (by omega) hf hb' (fun i => value (n + i))
        refine ⟨hf', ?_, ?_⟩
        · intro i hi
          by_cases hin' : i < n
          · -- the first block; the rest of the range does not touch it again
            have hmir := mirror_add addr i (by omega)
            rw [hout _ (backed_iff.mp (hb i hi)), hlog _ (backed_iff.mp (hb i hi)), hmir, if_pos (by omega),
              show mirror addr + i - mirror addr = i by omega]
            intro j hj he
            rw [mirror_add_u32, Nat.add_assoc] at he
            have := mirror_injective hb (i := n + j) (j := i) (by omega) hi he
            omega
          · have := hin (i - n) (by omega)
            rw [mirror_add_u32, show addr + n + (i - n) = addr + i by omega,
              show n + (i - n) = i by omega] at this
            exact this
        · intro p hp hne
          rw [hout p hp, hlog p hp, if_neg]
          · intro hrange
            have hmir := mirror_add addr (p - mirror addr) (by omega)
            exact hne (p - mirror addr) (by omega) (by rw [hmir]; omega)
          · intro i hi
            rw [mirror_add_u32, Nat.add_assoc]; exact hne _ (by omega)

def readBlock (z : MemorySizes) (m : Machine) (addr : Nat) (rest : Buffer) (n : Nat) (locked : Bool) :
    Buffer :=
  match Machine.getCache z m addr locked with
  | (s, set, some way) => fun i => s.cache.data set way (addr - lineAddr addr + i)
  | (s, _, none) => copyFromEmu z s.mem rest addr n

theorem readLoop_eq (z : MemorySizes) (m : Machine) (addr : Nat) (buffer : Buffer) (pos len : Nat)
    (locked : Bool) : Machine.readLoop z m addr buffer pos len locked =
      if len = 0 then (m, buffer)
      else
        let n := lenInBlock addr len
        Machine.readLoop z (Machine.getCache z m addr locked).1 ((addr + n) % 2 ^ 32)
          (fun i => if pos ≤ i ∧ i < pos + n then
            readBlock z m addr (fun i => buffer (pos + i)) n locked (i - pos) else buffer i)
          (pos + n) (len - n) locked := by
  rw [Machine.readLoop]; rfl

theorem Coherent.readBlock (h : Coherent z m.cache) {addr : Nat} (hb : Backed z addr) (rest : Buffer) {n : Nat}
    (hn : addr % 32 + n ≤ 32) (locked : Bool) {i : Nat} (hi : i < n) :
    readBlock z m addr rest n locked i = logical z (Machine.getCache z m addr locked).1 (mirror (addr + i)) := by
  obtain ⟨hf, -, hway⟩ := h.getCache addr locked
  have hmir := mirror_add addr i (by omega)
  have hmod := mirror_mod addr
  have hp : InMemory z (mirror (addr + i)) := by
    rw [hmir]; exact (backed_iff.mp hb).line (by omega)
  have hsel : select z addr = select z (mirror (addr + i)) := by
    rw [← line_iff_select hb hp, hmir]; omega
  unfold PPCCache.readBlock
  rcases hg : Machine.getCache z m addr locked with ⟨m', set, _ | way⟩
  · rw [hg] at hf hway
    simp only at hf hway ⊢
    rw [hf.logical_uncached (by rw [← hsel]; exact hway), copyFromEmu_backed hb hn, if_pos hi, hmir]
  · obtain ⟨-, hv, hs, -⟩ := h.getCache_isValid hg
    rw [hg] at hf
    simp only at hf ⊢
    rw [hf.logical_cached hv (hs.trans hsel), hmir]
    congr 1
    unfold lineAddr; omega

theorem Faithful.readBlock (h : Faithful z m) {addr : Nat} (hb : Backed z addr) (rest : Buffer) {n : Nat}
    (hn : addr % 32 + n ≤ 32) (locked : Bool) {i : Nat} (hi : i < n) :
    readBlock z m addr rest n locked i = logical z m (mirror (addr + i)) := by
  have hmod := mirror_mod addr
  have hp : InMemory z (mirror (addr + i)) := by
    rw [mirror_add addr i (by omega)]; exact (backed_iff.mp hb).line (by omega)
  rw [h.coherent.readBlock hb rest hn locked hi, (h.getCache hb locked).2 _ hp]

theorem Faithful.readLoop {m : Machine} (h : Faithful z m) {addr len : Nat}
    (hb : ∀ i < len, Backed z (addr + i)) (buffer : Buffer) (pos : Nat) (locked : Bool) :
    Faithful z (Machine.readLoop z m addr buffer pos len locked).1 ∧
    (∀ p, InMemory z p →
      logical z (Machine.readLoop z m addr buffer pos len locked).1 p = logical z m p) ∧
    (∀ i < len, (Machine.readLoop z m addr buffer pos len locked).2 (pos + i) =
      logical z m (mirror (addr + i))) ∧
    ∀ i < pos, (Machine.readLoop z m addr buffer pos len locked).2 i = buffer i := by
  induction len using Nat.strong_induction_on generalizing m addr buffer pos with
  | _ len ih =>
      rw [readLoop_eq]
      by_cases hlen : len = 0
      · rw [if_pos hlen]
        exact ⟨h, fun _ _ => rfl, fun i hi => by omega, fun _ _ => rfl⟩
      · rw [if_neg hlen]
        have hpos := lenInBlock_pos addr hlen
        have hline := lenInBlock_le addr len
        have hle := lenInBlock_le_len addr len
        simp only
        generalize lenInBlock addr len = n at *
        have hb₀ : Backed z addr := hb 0 (by omega)
        obtain ⟨hf, hlog⟩ := h.getCache hb₀ locked
        have hb' : ∀ i < len - n, Backed z ((addr + n) % 2 ^ 32 + i) := by
          intro i hi
          rw [backed_add_u32, Nat.add_assoc]; exact hb _ (by omega)
        obtain ⟨hf', hlog', hin, hout⟩ := ih (len - n) (by omega) hf hb'
          (fun i => if pos ≤ i ∧ i < pos + n then
            PPCCache.readBlock z m addr (fun i => buffer (pos + i)) n locked (i - pos) else buffer i) (pos + n)
        refine ⟨hf', fun p hp => (hlog' p hp).trans (hlog p hp), ?_, ?_⟩
        · intro i hi
          by_cases hin' : i < n
          · rw [hout (pos + i) (by omega), if_pos (by omega), show pos + i - pos = i by omega]
            exact h.readBlock hb₀ _ hline locked hin'
          · have := hin (i - n) (by omega)
            rw [mirror_add_u32, show addr + n + (i - n) = addr + i by omega,
              show pos + n + (i - n) = pos + i by omega] at this
            rw [this, hlog _ (backed_iff.mp (hb i hi))]
        · intro i hi
          rw [hout i (by omega), if_neg (by omega)]

end Karphin.PPCCache
