import Karphin.JitCache.Defs

/-!
# What linking leaves unchanged

Linking and unlinking rewrite exit jumps and nothing else. The shape of a block is the block without the
state of its links; the indexes of the cache depend on the shapes only.
-/

namespace Karphin.JitCache

def JitBlock.shape (b : JitBlock) : JitBlock :=
  { b with linkData := b.linkData.map fun e => { exitAddress := e.exitAddress } }

namespace JitBlock

variable (b : JitBlock)

@[simp] theorem shape_id : b.shape.id = b.id := rfl
@[simp] theorem shape_effectiveAddress : b.shape.effectiveAddress = b.effectiveAddress := rfl
@[simp] theorem shape_featureFlags : b.shape.featureFlags = b.featureFlags := rfl
@[simp] theorem shape_normalEntry : b.shape.normalEntry = b.normalEntry := rfl
@[simp] theorem shape_fastBlockMapIndex : b.shape.fastBlockMapIndex = b.fastBlockMapIndex := rfl
@[simp] theorem shape_physicalAddresses : b.shape.physicalAddresses = b.physicalAddresses := rfl

@[simp] theorem shape_exits : b.shape.exits = b.exits := by
  simp [exits, shape]

@[simp] theorem shape_overlapsPhysicalRange (address length : Nat) :
    b.shape.overlapsPhysicalRange address length = b.overlapsPhysicalRange address length := rfl

theorem shape_of_linkData {f : LinkData → LinkData} (hf : ∀ e, (f e).exitAddress = e.exitAddress) :
    ({ b with linkData := b.linkData.map f } : JitBlock).shape = b.shape := by
  simp [shape, hf]

end JitBlock

/-! ## Sets of ids -/

section Tables

variable {t : Nat → List BlockId} {key k : Nat} {i j : BlockId}

@[simp] theorem mem_eraseAt : j ∈ eraseAt t key i k ↔ j ∈ t k ∧ (k = key → j ≠ i) := by
  by_cases hk : k = key
  · subst hk; simp [eraseAt]
  · simp [eraseAt, hk]

@[simp] theorem mem_insertAt : j ∈ insertAt t key i k ↔ j ∈ t k ∨ k = key ∧ j = i := by
  by_cases hk : k = key
  · subst hk; simp [insertAt, or_comm]
  · simp [insertAt, hk]

theorem mem_foldl_eraseAt {keys : List Nat} :
    j ∈ keys.foldl (fun t a => eraseAt t a i) t k ↔ j ∈ t k ∧ (k ∈ keys → j ≠ i) := by
  induction keys generalizing t with
  | nil => simp
  | cons a keys ih =>
      simp only [List.foldl_cons, ih, mem_eraseAt, List.mem_cons]
      constructor
      · rintro ⟨⟨hj, ha⟩, hk⟩
        exact ⟨hj, fun h => h.elim ha hk⟩
      · rintro ⟨hj, h⟩
        exact ⟨⟨hj, fun ha => h (Or.inl ha)⟩, fun hk => h (Or.inr hk)⟩

theorem mem_foldl_insertAt {keys : List Nat} :
    j ∈ keys.foldl (fun t a => insertAt t a i) t k ↔ j ∈ t k ∨ k ∈ keys ∧ j = i := by
  induction keys generalizing t with
  | nil => simp
  | cons a keys ih =>
      simp only [List.foldl_cons, ih, mem_insertAt, List.mem_cons]
      constructor
      · rintro ((hj | ⟨ha, hi⟩) | ⟨hk, hi⟩)
        · exact Or.inl hj
        · exact Or.inr ⟨Or.inl ha, hi⟩
        · exact Or.inr ⟨Or.inr hk, hi⟩
      · rintro (hj | ⟨ha | hk, hi⟩)
        · exact Or.inl (Or.inl hj)
        · exact Or.inl (Or.inr ⟨ha, hi⟩)
        · exact Or.inr ⟨hk, hi⟩

end Tables

namespace BlockCache

variable {c : BlockCache} {b t : JitBlock} {i : BlockId} {mmu : Mmu}

def shapes (c : BlockCache) : List JitBlock := c.blockMap.map JitBlock.shape

theorem shape_mem (h : b ∈ c.blockMap) : b.shape ∈ c.shapes := List.mem_map_of_mem h

theorem mem_shapes : t ∈ c.shapes ↔ ∃ b ∈ c.blockMap, b.shape = t := List.mem_map

theorem mem_modify {f : JitBlock → JitBlock} :
    t ∈ (c.modify i f).blockMap ↔ ∃ b ∈ c.blockMap, (if b.id = i then f b else b) = t := List.mem_map

theorem shapes_modify {f : JitBlock → JitBlock} (hf : ∀ b, (f b).shape = b.shape) :
    (c.modify i f).shapes = c.shapes := by
  simp only [shapes, modify, List.map_map]
  refine List.map_congr_left fun b _ => ?_
  simp only [Function.comp]
  split
  · exact hf b
  · rfl

/-! ## Only exits change -/

/-- Two caches that differ in the state of links only. -/
structure SameShape (c c' : BlockCache) : Prop where
  shapes : c'.shapes = c.shapes
  rest : c' = { c with blockMap := c'.blockMap }

theorem SameShape.refl (c : BlockCache) : SameShape c c := ⟨rfl, rfl⟩

theorem SameShape.trans {c c' c'' : BlockCache} (h : SameShape c c') (h' : SameShape c' c'') :
    SameShape c c'' := by
  refine ⟨h'.shapes.trans h.shapes, ?_⟩
  have h1 := h.rest
  have h2 := h'.rest
  rw [h1] at h2
  exact h2

theorem SameShape.modify {f : JitBlock → JitBlock} (hf : ∀ b, (f b).shape = b.shape) (i : BlockId) :
    SameShape c (c.modify i f) := ⟨shapes_modify hf, rfl⟩

theorem SameShape.foldl {α : Type*} {f : BlockCache → α → BlockCache} (hf : ∀ c a, SameShape c (f c a)) :
    ∀ (as : List α) (c : BlockCache), SameShape c (as.foldl f c)
  | [], c => .refl c
  | a :: as, c => (hf c a).trans (SameShape.foldl hf as (f c a))

@[simp] theorem linkExit_exitAddress (flags : Nat) (e : LinkData) :
    (c.linkExit mmu flags e).exitAddress = e.exitAddress := by
  unfold linkExit
  split
  · rfl
  · split <;> rfl

theorem shape_linkBlockExits : (c.linkBlockExits mmu b).shape = b.shape :=
  b.shape_of_linkData (linkExit_exitAddress b.featureFlags)

theorem shape_unlinkSource : (unlinkSource b t).shape = t.shape := by
  unfold unlinkSource
  split
  · rfl
  · refine t.shape_of_linkData fun e => ?_
    split <;> rfl

theorem SameShape.linkBlock (c : BlockCache) (mmu : Mmu) (b : JitBlock) : SameShape c (c.linkBlock mmu b) := by
  refine (SameShape.modify (fun _ => shape_linkBlockExits) b.id).trans (SameShape.foldl ?_ _ _)
  intro c i
  refine SameShape.modify (fun b2 => ?_) i
  split
  · exact shape_linkBlockExits
  · rfl

theorem SameShape.unlinkBlock (c : BlockCache) (b : JitBlock) : SameShape c (c.unlinkBlock b) := by
  have hown : SameShape c
      (c.modify b.id fun b => { b with linkData := b.linkData.map fun e => { e with dest := none } }) := by
    refine SameShape.modify (fun t => ?_) b.id
    exact t.shape_of_linkData fun _ => rfl
  refine hown.trans (SameShape.foldl ?_ _ _)
  intro c i
  exact SameShape.modify (fun _ => shape_unlinkSource) i

/-! ## Reading blocks -/

theorem mem_of_block? (h : c.block? i = some b) : b ∈ c.blockMap ∧ b.id = i :=
  ⟨List.mem_of_find?_eq_some h, by simpa using List.find?_some h⟩

theorem block?_isSome (h : b ∈ c.blockMap) : ∃ b', c.block? b.id = some b' := by
  cases hb : c.block? b.id with
  | some b' => exact ⟨b', rfl⟩
  | none =>
      have := List.find?_eq_none.mp hb b h
      simp at this

theorem getBlockFromStartAddress_some {addr flags : Nat}
    (h : c.getBlockFromStartAddress mmu addr flags = some b) :
    b ∈ c.blockMap ∧ b.effectiveAddress = addr ∧ b.featureFlags = flags := by
  unfold getBlockFromStartAddress at h
  have hfind : ∀ p, c.blockMap.find? (fun b =>
      decide (b.physicalAddress = p ∧ b.effectiveAddress = addr ∧ b.featureFlags = flags)) = some b →
      b ∈ c.blockMap ∧ b.effectiveAddress = addr ∧ b.featureFlags = flags := by
    intro p hp
    have := List.find?_some hp
    simp only [decide_eq_true_eq] at this
    exact ⟨List.mem_of_find?_eq_some hp, this.2⟩
  dsimp only at h
  split at h
  · split at h
    · exact hfind _ h
    · cases h
  · exact hfind _ h

theorem overlapsPhysicalRange_iff {address length : Nat} (hw : address + length < 2 ^ 32) :
    b.overlapsPhysicalRange address length = true ↔
      ∃ p ∈ b.physicalAddresses, address ≤ p ∧ p < address + length := by
  unfold JitBlock.overlapsPhysicalRange
  rw [addU32, Nat.mod_eq_of_lt hw]
  simp only [ne_eq, decide_not, Bool.not_eq_true', decide_eq_false_iff_not]
  constructor
  · intro hne
    by_contra hno
    refine hne (congrArg List.min? (List.filter_congr fun p hp => ?_))
    simp only [decide_eq_decide]
    constructor
    · intro h
      exact Nat.le_of_not_lt fun hlt => hno ⟨p, hp, h, hlt⟩
    · intro h; omega
  · rintro ⟨p, hp, hle, hlt⟩ heq
    unfold lowerBound at heq
    have hmem : p ∈ b.physicalAddresses.filter (address ≤ ·) := by simp [hp, hle]
    cases hmin : (b.physicalAddresses.filter (address ≤ ·)).min? with
    | none =>
        rw [List.min?_eq_none_iff.mp hmin] at hmem
        cases hmem
    | some m =>
        have hm := (List.min?_eq_some_iff.mp hmin).2 p hmem
        rw [hmin] at heq
        have := (List.min?_eq_some_iff.mp heq.symm).1
        simp only [List.mem_filter, decide_eq_true_eq] at this
        omega

end BlockCache

end Karphin.JitCache

/-!
# The indexes of the block cache

`Indexed` says that `block_range_map`, `links_to` and the fast block map agree with the live blocks, and
`Covered` that `valid_block` has the bits of their lines. Every operation keeps both.
-/

namespace Karphin.JitCache.BlockCache

/-- Ids are unique, and `links_to` and the fast block map name live blocks only. -/
structure Live (c : BlockCache) : Prop where
  ids_nodup : (c.shapes.map (·.id)).Nodup
  id_lt : ∀ b ∈ c.shapes, b.id < c.nextId
  block_of_links : ∀ a, ∀ i ∈ c.linksTo a, ∃ b ∈ c.shapes, b.id = i ∧ a ∈ b.exits
  block_of_fallback : ∀ k i, c.fastBlockMapFallback k = some i →
    ∃ b ∈ c.shapes, b.id = i ∧ b.fastBlockMapIndex = k
  block_of_entry : ∀ k e, c.entryPointTable k = some e →
    ∃ b ∈ c.shapes, b.normalEntry = e ∧ b.fastBlockMapIndex = k
  fallback_unused : c.entryPoints = true → ∀ k, c.fastBlockMapFallback k = none
  entry_unused : c.entryPoints = false → ∀ k, c.entryPointTable k = none

structure Indexed (c : BlockCache) : Prop extends Live c where
  range_of_block : ∀ b ∈ c.shapes, ∀ p ∈ b.physicalAddresses, b.id ∈ c.blockRangeMap (macroBlock p)
  block_of_range : ∀ k, ∀ i ∈ c.blockRangeMap k,
    ∃ b ∈ c.shapes, b.id = i ∧ ∃ p ∈ b.physicalAddresses, macroBlock p = k

def Covered (c : BlockCache) : Prop :=
  ∀ b ∈ c.shapes, ∀ p ∈ b.physicalAddresses, c.validBlock (p / 32) = true

variable {c c' : BlockCache} {b t : JitBlock} {i : BlockId} {mmu : Mmu}

theorem Indexed.init (entryPoints : Bool) : Indexed (init entryPoints) := by
  refine ⟨⟨?_, ?_, ?_, ?_, ?_, ?_, ?_⟩, ?_, ?_⟩ <;> simp [BlockCache.init, shapes]

theorem Live.sameShape (h : Live c) (hs : SameShape c c') : Live c' := by
  have hsh := hs.shapes
  rw [hs.rest] at hsh ⊢
  constructor
  · rw [hsh]; exact h.ids_nodup
  · rw [hsh]; exact h.id_lt
  · rw [hsh]; exact h.block_of_links
  · rw [hsh]; exact h.block_of_fallback
  · rw [hsh]; exact h.block_of_entry
  · exact h.fallback_unused
  · exact h.entry_unused

theorem Indexed.sameShape (h : Indexed c) (hs : SameShape c c') : Indexed c' := by
  have hlive := h.toLive.sameShape hs
  have hsh := hs.shapes
  rw [hs.rest] at hsh hlive ⊢
  refine ⟨hlive, ?_, ?_⟩
  · rw [hsh]; exact h.range_of_block
  · rw [hsh]; exact h.block_of_range

theorem Covered.sameShape (h : Covered c) (hs : SameShape c c') : Covered c' := by
  have hsh := hs.shapes
  rw [hs.rest] at hsh ⊢
  intro b hb
  exact h b (hsh ▸ hb)

theorem Live.shape_unique (h : Live c) (hb : b ∈ c.shapes) (ht : t ∈ c.shapes) (hid : b.id = t.id) :
    b = t :=
  List.inj_on_of_nodup_map h.ids_nodup hb ht hid

/-! ## The fast block map -/

structure FastAvoids (c : BlockCache) (i : BlockId) : Prop where
  fallback : ∀ k j, c.fastBlockMapFallback k = some j →
    ∃ t ∈ c.shapes, t.id ≠ i ∧ t.id = j ∧ t.fastBlockMapIndex = k
  entry : ∀ k e, c.entryPointTable k = some e →
    ∃ t ∈ c.shapes, t.id ≠ i ∧ t.normalEntry = e ∧ t.fastBlockMapIndex = k

theorem dropFast_spec (c : BlockCache) (b : JitBlock) :
    ∃ fallback entry,
      c.dropFast b = { c with fastBlockMapFallback := fallback, entryPointTable := entry } ∧
      (∀ k i, fallback k = some i → c.fastBlockMapFallback k = some i) ∧
      (∀ k e, entry k = some e → c.entryPointTable k = some e) ∧
      (c.entryPoints = false → fallback b.fastBlockMapIndex ≠ some b.id) ∧
      (c.entryPoints = true → entry b.fastBlockMapIndex ≠ some b.normalEntry) := by
  have hupd : ∀ {t : Nat → Option Nat} {j k v : Nat}, Function.update t j none k = some v → t k = some v := by
    intro t j k v h
    by_cases hk : k = j
    · simp [hk] at h
    · simpa [hk] using h
  unfold dropFast
  by_cases hm : c.entryPoints = true
  · rw [if_pos hm]
    split
    · exact ⟨c.fastBlockMapFallback, Function.update c.entryPointTable b.fastBlockMapIndex none, rfl,
        fun _ _ h => h, fun _ _ => hupd, by simp [hm], by simp⟩
    · next hne => exact ⟨_, _, rfl, fun _ _ h => h, fun _ _ h => h, by simp [hm], fun _ => hne⟩
  · rw [if_neg hm]
    split
    · exact ⟨Function.update c.fastBlockMapFallback b.fastBlockMapIndex none, c.entryPointTable, rfl,
        fun _ _ => hupd, fun _ _ h => h, by simp, by simp [hm]⟩
    · next hne => exact ⟨_, _, rfl, fun _ _ h => h, fun _ _ h => h, fun _ => hne, by simp [hm]⟩

theorem Live.dropFast (h : Live c) (hb : b.shape ∈ c.shapes) :
    Live (c.dropFast b) ∧ FastAvoids (c.dropFast b) b.id ∧ (c.dropFast b).shapes = c.shapes := by
  obtain ⟨fallback, entry, heq, hf, he, hnf, hne⟩ := dropFast_spec c b
  rw [heq]
  refine ⟨⟨h.ids_nodup, h.id_lt, h.block_of_links,
    fun k i hk => h.block_of_fallback k i (hf k i hk), fun k e hk => h.block_of_entry k e (he k e hk),
    ?_, ?_⟩, ⟨?_, ?_⟩, rfl⟩
  · intro hm k
    cases hk : fallback k with
    | none => exact hk
    | some i => exact absurd (hf k i hk) (by simp [h.fallback_unused hm])
  · intro hm k
    cases hk : entry k with
    | none => exact hk
    | some e => exact absurd (he k e hk) (by simp [h.entry_unused hm])
  · intro k j hk
    have hk' := hf k j hk
    obtain ⟨t, ht, htj, htk⟩ := h.block_of_fallback k j hk'
    refine ⟨t, ht, ?_, htj, htk⟩
    intro hid
    have hbt := h.shape_unique ht hb hid
    subst hbt htj htk
    cases hm : c.entryPoints with
    | true => simp [h.fallback_unused hm] at hk'
    | false => exact hnf hm hk
  · intro k e hk
    have hk' := he k e hk
    obtain ⟨t, ht, hte, htk⟩ := h.block_of_entry k e hk'
    refine ⟨t, ht, ?_, hte, htk⟩
    intro hid
    have hbt := h.shape_unique ht hb hid
    subst hbt hte htk
    cases hm : c.entryPoints with
    | true => exact hne hm hk
    | false => simp [h.entry_unused hm] at hk'

theorem Indexed.dropFast (h : Indexed c) (hb : b.shape ∈ c.shapes) : Indexed (c.dropFast b) := by
  obtain ⟨hlive, -, -⟩ := h.toLive.dropFast hb
  obtain ⟨fallback, entry, heq, -⟩ := dropFast_spec c b
  rw [heq] at hlive ⊢
  exact ⟨hlive, h.range_of_block, h.block_of_range⟩

theorem FastAvoids.sameShape (h : FastAvoids c i) (hs : SameShape c c') : FastAvoids c' i := by
  have hsh := hs.shapes
  rw [hs.rest] at hsh ⊢
  exact ⟨by rw [hsh]; exact h.fallback, by rw [hsh]; exact h.entry⟩

section EnterFast

variable (c : BlockCache) (b : JitBlock) (index : Nat)

@[simp] theorem enterFast_nextId : (c.enterFast b index).nextId = c.nextId := by
  unfold enterFast modify; split <;> rfl

@[simp] theorem enterFast_linksTo : (c.enterFast b index).linksTo = c.linksTo := by
  unfold enterFast modify; split <;> rfl

@[simp] theorem enterFast_blockRangeMap : (c.enterFast b index).blockRangeMap = c.blockRangeMap := by
  unfold enterFast modify; split <;> rfl

@[simp] theorem enterFast_validBlock : (c.enterFast b index).validBlock = c.validBlock := by
  unfold enterFast modify; split <;> rfl

@[simp] theorem enterFast_entryPoints : (c.enterFast b index).entryPoints = c.entryPoints := by
  unfold enterFast modify; split <;> rfl

theorem enterFast_blockMap : (c.enterFast b index).blockMap =
    c.blockMap.map fun t => if t.id = b.id then t.withIndex index else t := by
  unfold enterFast modify; split <;> rfl

theorem enterFast_shapes : (c.enterFast b index).shapes =
    c.shapes.map fun t => if t.id = b.id then t.withIndex index else t := by
  simp only [shapes, enterFast_blockMap, List.map_map]
  refine List.map_congr_left fun t _ => ?_
  by_cases h : t.id = b.id <;> simp [h, JitBlock.shape, JitBlock.withIndex]

end EnterFast

private theorem update_some {t : Nat → Option Nat} {index v k w : Nat}
    (h : Function.update t index (some v) k = some w) : k = index ∧ w = v ∨ k ≠ index ∧ t k = some w := by
  by_cases hk : k = index
  · subst hk
    simp only [Function.update_self, Option.some.injEq] at h
    exact Or.inl ⟨rfl, h.symm⟩
  · simp only [ne_eq, hk, not_false_eq_true, Function.update_of_ne] at h
    exact Or.inr ⟨hk, h⟩

theorem enterFast_fallback {index k : Nat} (h : (c.enterFast b index).fastBlockMapFallback k = some i) :
    c.entryPoints = false ∧ k = index ∧ i = b.id ∨ c.fastBlockMapFallback k = some i := by
  unfold enterFast modify at h
  cases hm : c.entryPoints with
  | true =>
      rw [if_pos hm] at h
      exact Or.inr h
  | false =>
      rw [if_neg (by simp [hm])] at h
      obtain hk | hk := update_some h
      · exact Or.inl ⟨rfl, hk⟩
      · exact Or.inr hk.2

theorem enterFast_entry {index k e : Nat} (h : (c.enterFast b index).entryPointTable k = some e) :
    c.entryPoints = true ∧ k = index ∧ e = b.normalEntry ∨ c.entryPointTable k = some e := by
  unfold enterFast modify at h
  cases hm : c.entryPoints with
  | true =>
      rw [if_pos hm] at h
      obtain hk | hk := update_some h
      · exact Or.inl ⟨rfl, hk⟩
      · exact Or.inr hk.2
  | false =>
      rw [if_neg (by simp [hm])] at h
      exact Or.inr h

theorem FastAvoids.enterFast (h : FastAvoids c b.id) (hb : b.shape ∈ c.shapes) (index : Nat) :
    (∀ k i, (c.enterFast b index).fastBlockMapFallback k = some i →
      ∃ t ∈ (c.enterFast b index).shapes, t.id = i ∧ t.fastBlockMapIndex = k) ∧
    ∀ k e, (c.enterFast b index).entryPointTable k = some e →
      ∃ t ∈ (c.enterFast b index).shapes, t.normalEntry = e ∧ t.fastBlockMapIndex = k := by
  have hnew : b.shape.withIndex index ∈ (c.enterFast b index).shapes := by
    rw [enterFast_shapes]
    exact List.mem_map.mpr ⟨b.shape, hb, by simp⟩
  have hold : ∀ t ∈ c.shapes, t.id ≠ b.id → t ∈ (c.enterFast b index).shapes := by
    intro t ht hne
    rw [enterFast_shapes]
    exact List.mem_map.mpr ⟨t, ht, by simp [hne]⟩
  constructor
  · intro k i hk
    obtain ⟨-, rfl, rfl⟩ | hk := enterFast_fallback hk
    · exact ⟨_, hnew, rfl, rfl⟩
    · obtain ⟨t, ht, hne, hti, htk⟩ := h.fallback k i hk
      exact ⟨t, hold t ht hne, hti, htk⟩
  · intro k e hk
    obtain ⟨-, rfl, rfl⟩ | hk := enterFast_entry hk
    · exact ⟨_, hnew, rfl, rfl⟩
    · obtain ⟨t, ht, hne, hte, htk⟩ := h.entry k e hk
      exact ⟨t, hold t ht hne, hte, htk⟩

theorem enterFast_unused (b : JitBlock) (index : Nat)
    (h : c.entryPoints = true → ∀ k, c.fastBlockMapFallback k = none)
    (h' : c.entryPoints = false → ∀ k, c.entryPointTable k = none) :
    (c.entryPoints = true → ∀ k, (c.enterFast b index).fastBlockMapFallback k = none) ∧
    (c.entryPoints = false → ∀ k, (c.enterFast b index).entryPointTable k = none) := by
  constructor
  · intro hm k
    cases hk : (c.enterFast b index).fastBlockMapFallback k with
    | none => rfl
    | some i =>
        obtain ⟨hm', -⟩ | hk := enterFast_fallback hk
        · simp [hm] at hm'
        · simp [h hm] at hk
  · intro hm k
    cases hk : (c.enterFast b index).entryPointTable k with
    | none => rfl
    | some e =>
        obtain ⟨hm', -⟩ | hk := enterFast_entry hk
        · simp [hm] at hm'
        · simp [h' hm] at hk

theorem of_mem_enterFast {index : Nat} (h : t ∈ (c.enterFast b index).shapes) :
    ∃ t' ∈ c.shapes, t.id = t'.id ∧ t.physicalAddresses = t'.physicalAddresses := by
  rw [enterFast_shapes] at h
  obtain ⟨t', ht', rfl⟩ := List.mem_map.mp h
  refine ⟨t', ht', ?_⟩
  split <;> exact ⟨rfl, rfl⟩

theorem Indexed.enterFast (h : Indexed c) (ha : FastAvoids c b.id) (hb : b.shape ∈ c.shapes) (index : Nat) :
    Indexed (c.enterFast b index) := by
  obtain ⟨hf, he⟩ := ha.enterFast hb index
  obtain ⟨huf, hue⟩ := enterFast_unused b index h.fallback_unused h.entry_unused
  have hof : ∀ t ∈ c.shapes, ∃ t' ∈ (c.enterFast b index).shapes,
      t'.id = t.id ∧ t'.physicalAddresses = t.physicalAddresses ∧ t'.exits = t.exits := by
    intro t ht
    rw [enterFast_shapes]
    refine ⟨_, List.mem_map_of_mem ht, ?_⟩
    split <;> exact ⟨rfl, rfl, rfl⟩
  refine ⟨⟨?_, ?_, ?_, hf, he, ?_, ?_⟩, ?_, ?_⟩
  · rw [enterFast_shapes, List.map_map]
    have hids : (fun t : JitBlock => t.id) ∘ (fun t => if t.id = b.id then t.withIndex index else t) =
        fun t => t.id := by
      funext t
      simp only [Function.comp]
      split <;> rfl
    rw [hids]
    exact h.ids_nodup
  · intro t' ht'
    obtain ⟨t, ht, hid, -⟩ := of_mem_enterFast ht'
    rw [hid, enterFast_nextId]
    exact h.id_lt t ht
  · intro a i hi
    rw [enterFast_linksTo] at hi
    obtain ⟨t, ht, hid, ha⟩ := h.block_of_links a i hi
    obtain ⟨t', ht', hid', -, hex⟩ := hof t ht
    exact ⟨t', ht', hid'.trans hid, hex ▸ ha⟩
  · rw [enterFast_entryPoints]; exact huf
  · rw [enterFast_entryPoints]; exact hue
  · intro t' ht' p hp
    obtain ⟨t, ht, hid, hph⟩ := of_mem_enterFast ht'
    rw [hid, enterFast_blockRangeMap]
    exact h.range_of_block t ht p (hph ▸ hp)
  · intro k i hi
    rw [enterFast_blockRangeMap] at hi
    obtain ⟨t, ht, hid, p, hp, hk⟩ := h.block_of_range k i hi
    obtain ⟨t', ht', hid', hph, -⟩ := hof t ht
    exact ⟨t', ht', hid'.trans hid, p, hph ▸ hp, hk⟩

theorem Covered.enterFast (h : Covered c) (b : JitBlock) (index : Nat) : Covered (c.enterFast b index) := by
  intro t ht p hp
  obtain ⟨t', ht', -, hph⟩ := of_mem_enterFast ht
  rw [enterFast_validBlock]
  exact h t' ht' p (hph ▸ hp)

theorem Indexed.moveBlockIntoFastCache (h : Indexed c) (mmu : Mmu) (addr flags : Nat) :
    Indexed (c.moveBlockIntoFastCache mmu addr flags).1 := by
  unfold BlockCache.moveBlockIntoFastCache
  cases hg : c.getBlockFromStartAddress mmu addr flags with
  | none => exact h
  | some b =>
      have hb := shape_mem (getBlockFromStartAddress_some hg).1
      obtain ⟨-, ha, hs⟩ := h.toLive.dropFast hb
      exact (h.dropFast hb).enterFast ha (hs ▸ hb) _

theorem Covered.moveBlockIntoFastCache (h : Covered c) (mmu : Mmu) (addr flags : Nat) :
    Covered (c.moveBlockIntoFastCache mmu addr flags).1 := by
  unfold BlockCache.moveBlockIntoFastCache
  cases c.getBlockFromStartAddress mmu addr flags with
  | none => exact h
  | some b =>
      obtain ⟨fallback, entry, heq, -⟩ := dropFast_spec c b
      refine Covered.enterFast ?_ b _
      rw [heq]
      exact h

theorem dispatch_eq (c : BlockCache) (mmu : Mmu) (pc flags : Nat) :
    (c.dispatch mmu pc flags).1 = c ∨
    (c.dispatch mmu pc flags).1 = (c.moveBlockIntoFastCache mmu pc flags).1 := by
  unfold BlockCache.dispatch
  dsimp only
  split
  · split
    · exact Or.inl rfl
    · exact Or.inr rfl
  · split
    · split
      · exact Or.inr rfl
      · exact Or.inl rfl
    · exact Or.inr rfl

/-! ## Creating a block -/

theorem addPhysical_foldl (i : BlockId) (ps : List Nat) (c : BlockCache) :
    ∃ valid range, ps.foldl (addPhysical i) c = { c with validBlock := valid, blockRangeMap := range } ∧
      (∀ l, valid l = true ↔ c.validBlock l = true ∨ ∃ p ∈ ps, p / 32 = l) ∧
      ∀ k j, j ∈ range k ↔ j ∈ c.blockRangeMap k ∨ j = i ∧ ∃ p ∈ ps, macroBlock p = k := by
  induction ps generalizing c with
  | nil => exact ⟨_, _, rfl, by simp, by simp⟩
  | cons p ps ih =>
      obtain ⟨valid, range, heq, hv, hr⟩ := ih (addPhysical i c p)
      refine ⟨valid, range, heq, ?_, ?_⟩
      · intro l
        rw [hv l]
        by_cases hl : p / 32 = l
        · subst hl; simp [addPhysical]
        · simp [addPhysical, hl, Function.update_of_ne (Ne.symm hl)]
      · intro k j
        rw [hr k j]
        simp only [addPhysical, mem_insertAt, List.mem_cons, exists_eq_or_imp]
        constructor
        · rintro ((h | ⟨rfl, rfl⟩) | ⟨rfl, h⟩)
          · exact Or.inl h
          · exact Or.inr ⟨rfl, Or.inl rfl⟩
          · exact Or.inr ⟨rfl, Or.inr h⟩
        · rintro (h | ⟨rfl, rfl | h⟩)
          · exact Or.inl (Or.inl h)
          · exact Or.inl (Or.inr ⟨rfl, rfl⟩)
          · exact Or.inr ⟨rfl, h⟩

/-- A cache `c'` that has one block more than `c`, entered in every index. -/
structure Added (c c' : BlockCache) (b : JitBlock) : Prop where
  id : b.id = c.nextId
  nextId : c'.nextId = c.nextId + 1
  shapes : ∃ index, c'.shapes = c.shapes ++ [b.shape.withIndex index]
  range : ∀ k j, j ∈ c'.blockRangeMap k ↔
    j ∈ c.blockRangeMap k ∨ j = b.id ∧ ∃ p ∈ b.physicalAddresses, macroBlock p = k
  valid : ∀ l, c'.validBlock l = true ↔ c.validBlock l = true ∨ ∃ p ∈ b.physicalAddresses, p / 32 = l
  links : ∀ a j, j ∈ c'.linksTo a → j ∈ c.linksTo a ∨ j = b.id ∧ a ∈ b.exits

theorem Indexed.added (h : Indexed c) (hadd : Added c c' b)
    (hf : ∀ k i, c'.fastBlockMapFallback k = some i → ∃ t ∈ c'.shapes, t.id = i ∧ t.fastBlockMapIndex = k)
    (he : ∀ k e, c'.entryPointTable k = some e →
      ∃ t ∈ c'.shapes, t.normalEntry = e ∧ t.fastBlockMapIndex = k)
    (huf : c'.entryPoints = true → ∀ k, c'.fastBlockMapFallback k = none)
    (hue : c'.entryPoints = false → ∀ k, c'.entryPointTable k = none) : Indexed c' := by
  obtain ⟨index, hs⟩ := hadd.shapes
  have hmem : ∀ t, t ∈ c'.shapes ↔ t ∈ c.shapes ∨ t = b.shape.withIndex index := by
    intro t; rw [hs]; simp
  have hnew : b.shape.withIndex index ∈ c'.shapes := (hmem _).mpr (Or.inr rfl)
  refine ⟨⟨?_, ?_, ?_, hf, he, huf, hue⟩, ?_, ?_⟩
  · rw [hs, List.map_append]
    refine List.nodup_append.mpr ⟨h.ids_nodup, by simp, ?_⟩
    intro i hi j hj hij
    obtain ⟨t, ht, rfl⟩ := List.mem_map.mp hi
    have hlt := h.id_lt t ht
    simp only [List.map_cons, List.map_nil, List.mem_singleton] at hj
    rw [hij, hj] at hlt
    exact absurd hlt (by rw [← hadd.id]; exact Nat.lt_irrefl b.id)
  · intro t ht
    rw [hadd.nextId]
    obtain ht | rfl := (hmem t).mp ht
    · exact Nat.lt_succ_of_lt (h.id_lt t ht)
    · exact Nat.lt_succ_of_le (Nat.le_of_eq hadd.id)
  · intro a i hi
    obtain hi | ⟨rfl, ha⟩ := hadd.links a i hi
    · obtain ⟨t, ht, hti⟩ := h.block_of_links a i hi
      exact ⟨t, (hmem t).mpr (Or.inl ht), hti⟩
    · refine ⟨_, hnew, rfl, ?_⟩
      have : (b.shape.withIndex index).exits = b.exits := b.shape_exits
      rw [this]; exact ha
  · intro t ht p hp
    rw [hadd.range]
    obtain ht | rfl := (hmem t).mp ht
    · exact Or.inl (h.range_of_block t ht p hp)
    · exact Or.inr ⟨rfl, p, hp, rfl⟩
  · intro k i hi
    obtain hi | ⟨rfl, hp⟩ := (hadd.range k i).mp hi
    · obtain ⟨t, ht, hti⟩ := h.block_of_range k i hi
      exact ⟨t, (hmem t).mpr (Or.inl ht), hti⟩
    · exact ⟨_, hnew, rfl, hp⟩

theorem Covered.added (h : Covered c) (hadd : Added c c' b) : Covered c' := by
  obtain ⟨index, hs⟩ := hadd.shapes
  intro t ht p hp
  rw [hadd.valid]
  rw [hs, List.mem_append, List.mem_singleton] at ht
  obtain ht | rfl := ht
  · exact Or.inl (h t ht p hp)
  · exact Or.inr ⟨p, hp, rfl⟩

theorem FastAvoids.allocateBlock (h : Indexed c) (mmu : Mmu) (ea flags : Nat) (code : Compiled) :
    FastAvoids (c.allocateBlock mmu ea flags code).1 c.nextId := by
  have hmem : ∀ t ∈ c.shapes, t ∈ (c.allocateBlock mmu ea flags code).1.shapes ∧ t.id ≠ c.nextId := by
    intro t ht
    refine ⟨?_, Nat.ne_of_lt (h.id_lt t ht)⟩
    simp only [BlockCache.allocateBlock, shapes, List.map_append]
    exact List.mem_append_left _ ht
  constructor
  · intro k j hk
    obtain ⟨t, ht, htj⟩ := h.block_of_fallback k j hk
    exact ⟨t, (hmem t ht).1, (hmem t ht).2, htj⟩
  · intro k e hk
    obtain ⟨t, ht, hte⟩ := h.block_of_entry k e hk
    exact ⟨t, (hmem t ht).1, (hmem t ht).2, hte⟩

theorem Indexed.indexBlock (h : Indexed c) {ea flags : Nat} {code : Compiled}
    (ha : c.allocateBlock mmu ea flags code = (c', b)) :
    Indexed (c'.indexBlock b) ∧ Added c (c'.indexBlock b) b ∧ (c'.indexBlock b).linksTo = c.linksTo := by
  have havoid := FastAvoids.allocateBlock h mmu ea flags code
  have hid : b.id = c.nextId := by cases ha; rfl
  have hnext : c'.nextId = c.nextId + 1 := by cases ha; rfl
  have hrange : c'.blockRangeMap = c.blockRangeMap := by cases ha; rfl
  have hvalid : c'.validBlock = c.validBlock := by cases ha; rfl
  have hlinks : c'.linksTo = c.linksTo := by cases ha; rfl
  have hs : c'.shapes = c.shapes ++ [b.shape] := by cases ha; simp [shapes]
  have huf : c'.entryPoints = true → ∀ k, c'.fastBlockMapFallback k = none := by
    cases ha; exact h.fallback_unused
  have hue : c'.entryPoints = false → ∀ k, c'.entryPointTable k = none := by
    cases ha; exact h.entry_unused
  rw [ha, ← hid] at havoid
  unfold BlockCache.indexBlock
  generalize c'.fastLookupIndexForAddress b.effectiveAddress b.featureFlags = index
  obtain ⟨valid, range, heq, hv, hr⟩ := addPhysical_foldl b.id b.physicalAddresses (c'.enterFast b index)
  obtain ⟨hf, he⟩ := havoid.enterFast (by rw [hs]; simp) index
  obtain ⟨huf', hue'⟩ := enterFast_unused b index huf hue
  have hadd : Added c { c'.enterFast b index with validBlock := valid, blockRangeMap := range } b := by
    refine ⟨hid, by simp [hnext], ⟨index, ?_⟩, ?_, ?_, ?_⟩
    · have : (c'.enterFast b index).shapes = c.shapes ++ [b.shape.withIndex index] := by
        rw [enterFast_shapes, hs, List.map_append]
        have hold : c.shapes.map (fun t => if t.id = b.id then t.withIndex index else t) = c.shapes := by
          refine (List.map_congr_left fun t ht => ?_).trans (List.map_id _)
          exact if_neg (hid ▸ Nat.ne_of_lt (h.id_lt t ht))
        rw [hold]
        simp
      exact this
    · intro k j; rw [hr]; simp [hrange]
    · intro l; rw [hv]; simp [hvalid]
    · intro a j hj; simp only [enterFast_linksTo, hlinks] at hj; exact Or.inl hj
  rw [heq]
  refine ⟨h.added hadd hf he ?_ ?_, hadd, by simp [hlinks]⟩
  · simpa using huf'
  · simpa using hue'

theorem Indexed.addLinks (h : Indexed c) (hb : t ∈ c.shapes) (hid : t.id = b.id) (hex : t.exits = b.exits) :
    Indexed (c.addLinks b) := by
  refine ⟨⟨h.ids_nodup, h.id_lt, ?_, h.block_of_fallback, h.block_of_entry, h.fallback_unused,
    h.entry_unused⟩, h.range_of_block, h.block_of_range⟩
  intro a i hi
  obtain hi | ⟨ha, rfl⟩ := mem_foldl_insertAt.mp hi
  · exact h.block_of_links a i hi
  · exact ⟨t, hb, hid, hex ▸ ha⟩

theorem Added.mem (h : Added c c' b) : ∃ t ∈ c'.shapes, t.id = b.id ∧ t.exits = b.exits := by
  obtain ⟨index, hs⟩ := h.shapes
  refine ⟨b.shape.withIndex index, by rw [hs]; simp, rfl, ?_⟩
  exact b.shape_exits

theorem Indexed.finalizeBlock (h : Indexed c) {ea flags : Nat} {code : Compiled}
    (ha : c.allocateBlock mmu ea flags code = (c', b)) (blockLink : Bool) :
    Indexed (c'.finalizeBlock mmu b blockLink) := by
  obtain ⟨hi, hadd, -⟩ := h.indexBlock ha
  cases blockLink with
  | false => exact hi
  | true =>
      obtain ⟨t, ht, hid, hex⟩ := hadd.mem
      exact (hi.addLinks ht hid hex).sameShape (SameShape.linkBlock _ mmu b)

theorem Covered.finalizeBlock (hi : Indexed c) (h : Covered c) {ea flags : Nat} {code : Compiled}
    (ha : c.allocateBlock mmu ea flags code = (c', b)) (blockLink : Bool) :
    Covered (c'.finalizeBlock mmu b blockLink) := by
  obtain ⟨-, hadd, -⟩ := hi.indexBlock ha
  have hc := h.added hadd
  cases blockLink with
  | false => exact hc
  | true =>
      have hl : Covered ((c'.indexBlock b).addLinks b) := hc
      exact hl.sameShape (SameShape.linkBlock _ mmu b)

/-! ## Destroying a block -/

theorem mem_removeLinks {a : Nat} :
    i ∈ (c.removeLinks b).linksTo a ↔ i ∈ c.linksTo a ∧ (a ∈ b.exits → i ≠ b.id) := mem_foldl_eraseAt

structure Destroyed (c c' : BlockCache) (b : JitBlock) : Prop where
  shapes : c'.shapes = c.shapes
  avoids : FastAvoids c' b.id
  rest : c' = { c with
    blockMap := c'.blockMap
    linksTo := c'.linksTo
    fastBlockMapFallback := c'.fastBlockMapFallback
    entryPointTable := c'.entryPointTable }
  links : ∀ a i, i ∈ c'.linksTo a ↔ i ∈ c.linksTo a ∧ (a ∈ b.exits → i ≠ b.id)
  fallback : ∀ k i, c'.fastBlockMapFallback k = some i → c.fastBlockMapFallback k = some i
  fallback_unused : c.entryPoints = true → ∀ k, c'.fastBlockMapFallback k = none
  entry_unused : c.entryPoints = false → ∀ k, c'.entryPointTable k = none

theorem Live.destroyBlock (h : Live c) (hb : b.shape ∈ c.shapes) :
    Destroyed c (c.destroyBlock b) b := by
  obtain ⟨hi, ha, hs⟩ := h.dropFast hb
  obtain ⟨fallback, entry, heq, hf, -⟩ := dropFast_spec c b
  have hun := SameShape.unlinkBlock (c.dropFast b) b
  have hrest := hun.rest
  have havoid := ha.sameShape hun
  unfold BlockCache.destroyBlock
  refine ⟨hun.shapes.trans hs, ⟨havoid.fallback, havoid.entry⟩, ?_, ?_, ?_, ?_, ?_⟩
  · rw [hrest, heq]; rfl
  · intro a i
    rw [mem_removeLinks, hrest, heq]
  · intro k i hk
    rw [BlockCache.removeLinks, hrest, heq] at hk
    exact hf k i hk
  · intro hm k
    have := hi.fallback_unused (by rw [heq]; exact hm) k
    rw [BlockCache.removeLinks, hrest]; exact this
  · intro hm k
    have := hi.entry_unused (by rw [heq]; exact hm) k
    rw [BlockCache.removeLinks, hrest]; exact this

end Karphin.JitCache.BlockCache
