import Karphin.JitCache.Lemmas.Invalidate

/-!
# Links name live blocks

An exit that was written to a block is found again through `links_to`: a block is recorded either under all of
its exit addresses or under none, and only recorded blocks are ever linked.
-/

namespace Karphin.JitCache.BlockCache

variable {c c' : BlockCache} {b s t : JitBlock} {e : LinkData} {i : BlockId} {mmu : Mmu}

/-- A written exit of `b` leads to a live block of its address and flags, and `b` is recorded for it. -/
def GoodExit (c : BlockCache) (b : JitBlock) (e : LinkData) : Prop :=
  ∀ d, e.dest = some d → b.id ∈ c.linksTo e.exitAddress ∧
    ∃ t ∈ c.shapes, t.id = d ∧ t.effectiveAddress = e.exitAddress ∧ t.featureFlags = b.featureFlags

structure Linked (c : BlockCache) : Prop where
  recorded : ∀ a, ∀ i ∈ c.linksTo a, ∀ b ∈ c.shapes, b.id = i → ∀ x ∈ b.exits, i ∈ c.linksTo x
  good : ∀ b ∈ c.blockMap, ∀ e ∈ b.linkData, GoodExit c b e

theorem Linked.init (entryPoints : Bool) : Linked (init entryPoints) :=
  ⟨by simp [BlockCache.init], by simp [BlockCache.init]⟩

/-! ## Rewriting the exits of one block -/

theorem GoodExit.sameShape (h : GoodExit c b e) (hs : SameShape c c') : GoodExit c' b e := by
  have hsh := hs.shapes
  rw [hs.rest] at hsh ⊢
  intro d hd
  obtain ⟨hmem, t, ht, htd⟩ := h d hd
  exact ⟨hmem, t, hsh ▸ ht, htd⟩

theorem GoodExit.of_shape (h : GoodExit c b e) (hs : t.shape = b.shape) : GoodExit c t e := by
  have hid : t.id = b.id := by simpa using congrArg JitBlock.id hs
  have hfl : t.featureFlags = b.featureFlags := by simpa using congrArg JitBlock.featureFlags hs
  intro d hd
  rw [hid, hfl]
  exact h d hd

theorem Linked.modify {f : JitBlock → JitBlock} (h : Linked c) (hf : ∀ b, (f b).shape = b.shape)
    (hnew : ∀ b ∈ c.blockMap, b.id = i → ∀ e ∈ (f b).linkData, GoodExit c b e) : Linked (c.modify i f) := by
  have hs : SameShape c (c.modify i f) := SameShape.modify hf i
  refine ⟨?_, ?_⟩
  · rw [hs.shapes]; exact h.recorded
  · intro t ht e he
    obtain ⟨b, hb, rfl⟩ := mem_modify.mp ht
    refine GoodExit.sameShape ?_ hs
    split at he
    · next hid =>
        rw [if_pos hid]
        exact (hnew b hb hid e he).of_shape (hf b)
    · next hid =>
        rw [if_neg hid]
        exact h.good b hb e he

/-! ## Linking -/

theorem goodExit_linkExit (h : GoodExit c b e) (hrec : b.id ∈ c.linksTo e.exitAddress) :
    GoodExit c b (c.linkExit mmu b.featureFlags e) := by
  unfold linkExit
  split
  · exact h
  · cases hg : c.getBlockFromStartAddress mmu e.exitAddress b.featureFlags with
    | none => exact h
    | some t =>
        obtain ⟨ht, hea, hfl⟩ := getBlockFromStartAddress_some hg
        intro d hd
        cases hd
        exact ⟨hrec, t.shape, shape_mem ht, rfl, hea, hfl⟩

theorem Linked.linkBlockExits (h : Linked c) (hb : b ∈ c.blockMap)
    (hrec : ∀ x ∈ b.exits, b.id ∈ c.linksTo x) :
    ∀ e ∈ (c.linkBlockExits mmu b).linkData, GoodExit c b e := by
  intro e he
  simp only [BlockCache.linkBlockExits, List.mem_map] at he
  obtain ⟨e, he, rfl⟩ := he
  exact goodExit_linkExit (h.good b hb e he) (hrec _ (List.mem_map_of_mem he))

theorem Linked.linkSources (flags : Nat) : ∀ (is : List BlockId) {c : BlockCache}, Linked c →
    (∀ i ∈ is, ∃ a, i ∈ c.linksTo a) →
    Linked (is.foldl (fun c i => c.modify i fun b2 =>
      if flags = b2.featureFlags then c.linkBlockExits mmu b2 else b2) c)
  | [], c, h, _ => h
  | i :: is, c, h, hrec => by
      have hshape : ∀ b2 : JitBlock, (if flags = b2.featureFlags then c.linkBlockExits mmu b2 else b2).shape =
          b2.shape := by
        intro b2
        split
        · exact shape_linkBlockExits
        · rfl
      refine Linked.linkSources flags is (h.modify hshape ?_) ?_
      · intro b hb hid e he
        split at he
        · obtain ⟨a, ha⟩ := hrec i List.mem_cons_self
          have hall := h.recorded a i ha b.shape (shape_mem hb) hid
          rw [JitBlock.shape_exits, ← hid] at hall
          exact h.linkBlockExits hb hall e he
        · exact h.good b hb e he
      · intro j hj
        exact hrec j (List.mem_cons_of_mem i hj)

theorem Linked.linkBlock (h : Linked c) (hrec : ∀ t ∈ c.shapes, t.id = b.id → ∀ x ∈ t.exits, b.id ∈ c.linksTo x) :
    Linked (c.linkBlock mmu b) := by
  have hown : Linked (c.modify b.id (c.linkBlockExits mmu)) := by
    refine h.modify (fun _ => shape_linkBlockExits) ?_
    intro t ht hid
    have hall := hrec t.shape (shape_mem ht) hid
    rw [JitBlock.shape_exits, ← hid] at hall
    exact h.linkBlockExits ht hall
  exact hown.linkSources b.featureFlags _ fun i hi => ⟨b.effectiveAddress, hi⟩

/-! ## Entering a block -/

theorem Linked.mapBlocks (h : Linked c) {g : JitBlock → JitBlock}
    (hg : ∀ b, (g b).id = b.id ∧ (g b).effectiveAddress = b.effectiveAddress ∧
      (g b).featureFlags = b.featureFlags ∧ (g b).linkData = b.linkData)
    (hmap : c'.blockMap = c.blockMap.map g) (hlinks : c'.linksTo = c.linksTo) : Linked c' := by
  have hex : ∀ b, (g b).exits = b.exits := by
    intro b; rw [JitBlock.exits, (hg b).2.2.2]; rfl
  refine ⟨?_, ?_⟩
  · intro a i hi t ht hid x hx
    rw [hlinks] at hi ⊢
    obtain ⟨t', ht', rfl⟩ := mem_shapes.mp ht
    rw [hmap] at ht'
    obtain ⟨b, hb, rfl⟩ := List.mem_map.mp ht'
    rw [JitBlock.shape_exits, hex] at hx
    refine h.recorded a i hi b.shape (shape_mem hb) ?_ x (by rw [JitBlock.shape_exits]; exact hx)
    exact (hg b).1.symm.trans hid
  · intro t ht e he d hd
    rw [hmap] at ht
    obtain ⟨b, hb, rfl⟩ := List.mem_map.mp ht
    obtain ⟨hid, -, hfl, hld⟩ := hg b
    obtain ⟨hmem, t', ht', htd, hea, htf⟩ := h.good b hb e (hld ▸ he) d hd
    obtain ⟨b', hb', rfl⟩ := mem_shapes.mp ht'
    refine ⟨by rw [hlinks, hid]; exact hmem, (g b').shape, ?_, ?_, ?_, ?_⟩
    · exact shape_mem (by rw [hmap]; exact List.mem_map_of_mem hb')
    · exact (hg b').1.trans htd
    · exact (hg b').2.1.trans hea
    · exact (hg b').2.2.1.trans (htf.trans hfl.symm)

theorem Linked.enterFast (h : Linked c) (b : JitBlock) (index : Nat) : Linked (c.enterFast b index) := by
  refine h.mapBlocks ?_ (enterFast_blockMap c b index) (enterFast_linksTo c b index)
  intro t
  split <;> exact ⟨rfl, rfl, rfl, rfl⟩

theorem Linked.dropFast (h : Linked c) (b : JitBlock) : Linked (c.dropFast b) := by
  obtain ⟨fallback, entry, heq, -⟩ := dropFast_spec c b
  refine h.mapBlocks (fun _ => ⟨rfl, rfl, rfl, rfl⟩) ?_ ?_
  · rw [heq, List.map_id']
  · rw [heq]

theorem Linked.moveBlockIntoFastCache (h : Linked c) (mmu : Mmu) (addr flags : Nat) :
    Linked (c.moveBlockIntoFastCache mmu addr flags).1 := by
  unfold BlockCache.moveBlockIntoFastCache
  cases c.getBlockFromStartAddress mmu addr flags with
  | none => exact h
  | some b => exact (h.dropFast b).enterFast b _

theorem Linked.withValid (h : Linked c) (valid : Nat → Bool) (range : Nat → List BlockId) (js : JitState) :
    Linked { c with validBlock := valid, blockRangeMap := range, js := js } := ⟨h.recorded, h.good⟩

theorem Linked.allocateBlock (hi : Indexed c) (h : Linked c) {ea flags : Nat} {code : Compiled}
    (ha : c.allocateBlock mmu ea flags code = (c', b)) : Linked c' := by
  have hmem : ∀ t, t ∈ c'.blockMap ↔ t ∈ c.blockMap ∨ t = b := by
    intro t; cases ha; simp
  have hlinks : c'.linksTo = c.linksTo := by cases ha; rfl
  have hid : b.id = c.nextId := by cases ha; rfl
  have hnone : ∀ e ∈ b.linkData, e.dest = none := by
    cases ha
    intro e he
    obtain ⟨a, -, rfl⟩ := List.mem_map.mp he
    rfl
  have hsub : ∀ t ∈ c.shapes, t ∈ c'.shapes := by
    intro t ht
    obtain ⟨b', hb', rfl⟩ := mem_shapes.mp ht
    exact shape_mem ((hmem b').mpr (Or.inl hb'))
  refine ⟨?_, ?_⟩
  · intro a i hi' t ht hti x hx
    rw [hlinks] at hi' ⊢
    obtain ⟨t', ht', rfl⟩ := mem_shapes.mp ht
    rcases (hmem t').mp ht' with hold | rfl
    · exact h.recorded a i hi' t'.shape (shape_mem hold) hti x hx
    · -- the id of the new block is fresh
      obtain ⟨u, hu, hui, -⟩ := hi.block_of_links a i hi'
      have := hi.id_lt u hu
      rw [hui, ← hti, JitBlock.shape_id, hid] at this
      exact absurd this (Nat.lt_irrefl _)
  · intro t ht e he
    rcases (hmem t).mp ht with hold | rfl
    · intro d hd
      obtain ⟨hrec, u, hu, hud⟩ := h.good t hold e he d hd
      exact ⟨hlinks ▸ hrec, u, hsub u hu, hud⟩
    · intro d hd
      rw [hnone e he] at hd
      cases hd

theorem Linked.addLinks (h : Linked c) (hex : ∀ t ∈ c.shapes, t.id = b.id → t.exits = b.exits) :
    Linked (c.addLinks b) := by
  refine ⟨?_, ?_⟩
  · intro a i hi t ht hid x hx
    rcases mem_foldl_insertAt.mp hi with hi | ⟨-, rfl⟩
    · exact mem_foldl_insertAt.mpr (Or.inl (h.recorded a i hi t ht hid x hx))
    · exact mem_foldl_insertAt.mpr (Or.inr ⟨hex t ht hid ▸ hx, rfl⟩)
  · intro t ht e he d hd
    obtain ⟨hrec, hu⟩ := h.good t ht e he d hd
    exact ⟨mem_foldl_insertAt.mpr (Or.inl hrec), hu⟩

theorem Linked.finalizeBlock (hi : Indexed c) (h : Linked c) {ea flags : Nat} {code : Compiled}
    (ha : c.allocateBlock mmu ea flags code = (c', b)) (blockLink : Bool) :
    Linked (c'.finalizeBlock mmu b blockLink) := by
  obtain ⟨hi', hadd, -⟩ := hi.indexBlock ha
  have hindex : Linked (c'.indexBlock b) := by
    obtain ⟨valid, range, heq, -⟩ := addPhysical_foldl b.id b.physicalAddresses
      (c'.enterFast b (c'.fastLookupIndexForAddress b.effectiveAddress b.featureFlags))
    unfold BlockCache.indexBlock
    rw [heq]
    exact ((h.allocateBlock hi ha).enterFast b _).withValid valid range _
  have hex : ∀ t ∈ (c'.indexBlock b).shapes, t.id = b.id → t.exits = b.exits := by
    intro t ht hid
    obtain ⟨u, hu, hub, huex⟩ := hadd.mem
    rw [hi'.shape_unique ht hu (hid.trans hub.symm), huex]
  cases blockLink with
  | false => exact hindex
  | true =>
      refine (hindex.addLinks hex).linkBlock ?_
      intro t ht hid x hx
      exact mem_foldl_insertAt.mpr (Or.inr ⟨hex t ht hid ▸ hx, rfl⟩)

/-! ## Unlinking and destroying -/

theorem of_mem_unlinkSource (he : e ∈ (unlinkSource b s).linkData) :
    ∃ e₀ ∈ s.linkData, e.exitAddress = e₀.exitAddress ∧ (e.dest = none ∨ e.dest = e₀.dest) ∧
      (s.featureFlags = b.featureFlags → e.exitAddress = b.effectiveAddress → e.dest = none) := by
  unfold unlinkSource at he
  split at he
  · next hne => exact ⟨e, he, rfl, Or.inr rfl, fun hf => absurd hf hne⟩
  · obtain ⟨e₀, he₀, rfl⟩ := List.mem_map.mp he
    refine ⟨e₀, he₀, ?_⟩
    split
    · exact ⟨rfl, Or.inl rfl, fun _ _ => rfl⟩
    · next hne => exact ⟨rfl, Or.inr rfl, fun _ hea => absurd hea hne⟩

/-- The state of the loop of `UnlinkBlock`: the exits of `b` and those of the blocks `done` that lead to the
address of `b` are unlinked. -/
structure Unlinking (c : BlockCache) (b : JitBlock) (done : List BlockId) : Prop where
  linked : Linked c
  own : ∀ s ∈ c.blockMap, s.id = b.id → ∀ e ∈ s.linkData, e.dest = none
  sources : ∀ s ∈ c.blockMap, s.id ∈ done → s.featureFlags = b.featureFlags →
    ∀ e ∈ s.linkData, e.exitAddress = b.effectiveAddress → e.dest = none

theorem Unlinking.step {done : List BlockId} (h : Unlinking c b done) (i : BlockId) :
    Unlinking (c.modify i (unlinkSource b)) b (i :: done) := by
  refine ⟨?_, ?_, ?_⟩
  · refine h.linked.modify (fun _ => shape_unlinkSource) ?_
    intro s hs _ e he d hd
    obtain ⟨e₀, he₀, hea, hdest, -⟩ := of_mem_unlinkSource he
    rcases hdest with hdest | hdest
    · rw [hdest] at hd; cases hd
    · rw [hea]
      exact h.linked.good s hs e₀ he₀ d (hdest ▸ hd)
  · intro t ht hid e he
    obtain ⟨s, hs, rfl⟩ := mem_modify.mp ht
    split at he
    · next hsi =>
        obtain ⟨e₀, he₀, -, hdest, -⟩ := of_mem_unlinkSource he
        rw [if_pos hsi] at hid
        have hsb : s.id = b.id := by
          rw [← hid]
          simpa using congrArg JitBlock.id (shape_unlinkSource (b := b) (t := s)).symm
        rcases hdest with hdest | hdest
        · exact hdest
        · rw [hdest]; exact h.own s hs hsb e₀ he₀
    · next hsi =>
        rw [if_neg hsi] at hid
        exact h.own s hs hid e he
  · intro t ht hmem hfl e he hea
    obtain ⟨s, hs, rfl⟩ := mem_modify.mp ht
    split at he
    · next hsi =>
        rw [if_pos hsi] at hfl
        have hsf : s.featureFlags = b.featureFlags := by
          rw [← hfl]
          simpa using congrArg JitBlock.featureFlags (shape_unlinkSource (b := b) (t := s)).symm
        obtain ⟨e₀, -, -, -, hnone⟩ := of_mem_unlinkSource he
        exact hnone hsf hea
    · next hsi =>
        rw [if_neg hsi] at hmem hfl
        rcases List.mem_cons.mp hmem with hmem | hmem
        · exact absurd hmem hsi
        · exact h.sources s hs hmem hfl e he hea

theorem Unlinking.loop : ∀ (is : List BlockId) {c : BlockCache} {done : List BlockId}, Unlinking c b done →
    Unlinking (is.foldl (fun c i => c.modify i (unlinkSource b)) c) b (is.reverse ++ done)
  | [], c, done, h => h
  | i :: is, c, done, h => by
      rw [List.reverse_cons, List.append_assoc]
      exact Unlinking.loop is (h.step i)

theorem Unlinking.unlinkBlock (h : Linked c) (b : JitBlock) :
    Unlinking (c.unlinkBlock b) b (c.linksTo b.effectiveAddress).reverse := by
  have hown : Unlinking
      (c.modify b.id fun b => { b with linkData := b.linkData.map fun e => { e with dest := none } }) b [] := by
    have hnone : ∀ (t : JitBlock), ∀ e ∈ (t.linkData.map fun e => ({ e with dest := none } : LinkData)),
        e.dest = none := by
      intro t e he
      obtain ⟨e₀, -, rfl⟩ := List.mem_map.mp he
      rfl
    refine ⟨h.modify ?_ ?_, ?_, fun s _ hs => by cases hs⟩
    · intro t
      exact t.shape_of_linkData fun _ => rfl
    · intro t _ _ e he d hd
      rw [hnone t e he] at hd
      cases hd
    · intro t ht hid e he
      obtain ⟨s, hs, rfl⟩ := mem_modify.mp ht
      split at he
      · exact hnone s e he
      · next hne =>
          rw [if_neg hne] at hid
          exact absurd hid hne
  have := hown.loop (c.linksTo b.effectiveAddress)
  rw [List.append_nil] at this
  exact this

theorem Linked.destroyBlock (hlive : Live c) (h : Linked c) (hb : b.shape ∈ c.shapes) :
    Linked (c.destroyBlock b) ∧ ∀ s ∈ (c.destroyBlock b).blockMap, ∀ e ∈ s.linkData, e.dest ≠ some b.id := by
  have hsame := SameShape.unlinkBlock (c.dropFast b) b
  have hd := hlive.destroyBlock hb
  have hu := Unlinking.unlinkBlock (h.dropFast b) b
  have hlinks : ((c.dropFast b).unlinkBlock b).linksTo = c.linksTo := by
    obtain ⟨fallback, entry, heq, -⟩ := dropFast_spec c b
    rw [hsame.rest, heq]
  have hshapes : ((c.dropFast b).unlinkBlock b).shapes = c.shapes := by
    rw [hsame.shapes]; exact (hlive.dropFast hb).2.2
  have hno : ∀ s ∈ ((c.dropFast b).unlinkBlock b).blockMap, ∀ e ∈ s.linkData, e.dest ≠ some b.id := by
    intro s hs e he hdest
    obtain ⟨hrec, t, ht, htd, hea, hfl⟩ := hu.linked.good s hs e he b.id hdest
    have := hlive.shape_unique (hshapes ▸ ht) hb htd
    subst this
    rw [hlinks, ← hea] at hrec
    have hmem : s.id ∈ ((c.dropFast b).linksTo b.effectiveAddress).reverse := by
      obtain ⟨fallback, entry, heq, -⟩ := dropFast_spec c b
      rw [List.mem_reverse, heq]
      exact hrec
    rw [hu.sources s hs hmem hfl.symm e he hea.symm] at hdest
    cases hdest
  refine ⟨⟨?_, ?_⟩, hno⟩
  · intro a i hi t ht hid x hx
    obtain ⟨hi, hne⟩ := (hd.links a i).mp hi
    rw [hd.shapes] at ht
    refine (hd.links x i).mpr ⟨h.recorded a i hi t ht hid x hx, fun _ => ?_⟩
    -- `b` was recorded under its own exits only
    intro hib
    obtain ⟨u, hu, hui, hau⟩ := hlive.block_of_links a i hi
    have := hlive.shape_unique hu hb (hui.trans hib)
    subst this
    exact hne (by rw [← JitBlock.shape_exits]; exact hau) hib
  · intro s hs e he d hdest
    obtain ⟨hrec, t, ht⟩ := hu.linked.good s hs e he d hdest
    refine ⟨(hd.links _ _).mpr ⟨hlinks ▸ hrec, fun _ hid => ?_⟩, t, ?_⟩
    · rw [hu.own s hs hid e he] at hdest
      cases hdest
    · rw [hd.shapes, ← hshapes]; exact ht

/-! ## Erasing -/

theorem Linked.eraseBlock (hi : Indexed c) (h : Linked c) (hb : b ∈ c.blockMap) (key : Nat) :
    Linked (c.eraseBlock key b) := by
  unfold BlockCache.eraseBlock
  dsimp only
  generalize b.physicalAddresses.foldl
    (fun t p => if macroBlock p ≠ key then eraseAt t (macroBlock p) b.id else t) c.blockRangeMap = r
  have hlive := hi.live_with r
  obtain ⟨hl, hno⟩ := Linked.destroyBlock hlive (h.withValid c.validBlock r c.js) (shape_mem hb)
  generalize ({ c with blockRangeMap := r } : BlockCache).destroyBlock b = d at hl hno
  refine ⟨?_, ?_⟩
  · intro a i hi t ht
    obtain ⟨t', ht', rfl⟩ := mem_shapes.mp ht
    exact hl.recorded a i hi t'.shape (shape_mem (List.mem_of_mem_filter ht'))
  · intro s hs e he i hdest
    have hs := List.mem_of_mem_filter hs
    obtain ⟨hrec, t, ht, htd, hrest⟩ := hl.good s hs e he i hdest
    refine ⟨hrec, t, ?_, htd, hrest⟩
    -- the target is not the block that goes away
    have hne : i ≠ b.id := by
      rintro rfl
      exact hno s hs e he hdest
    obtain ⟨t', ht', rfl⟩ := mem_shapes.mp ht
    refine shape_mem (List.mem_filter.mpr ⟨ht', ?_⟩)
    rw [JitBlock.shape_id] at htd
    simpa [htd] using hne

structure Sound (c : BlockCache) : Prop where
  indexed : Indexed c
  linked : Linked c

theorem Sound.init (entryPoints : Bool) : Sound (init entryPoints) := ⟨.init entryPoints, .init entryPoints⟩

theorem Sound.eraseIfOverlaps (h : Sound c) (address length key : Nat) (i : BlockId) :
    Sound (eraseIfOverlaps address length key c i) := by
  refine ⟨(h.indexed.eraseIfOverlaps address length key i).1.indexed, ?_⟩
  unfold BlockCache.eraseIfOverlaps
  cases hb : c.block? i with
  | none => exact h.linked
  | some b =>
      dsimp only
      split
      · exact h.linked.eraseBlock h.indexed (mem_of_block? hb).1 key
      · exact h.linked

theorem Sound.erasePhysicalRange (h : Sound c) (address length : Nat) :
    Sound (c.erasePhysicalRange address length) := by
  refine List.foldlRecOn (motive := Sound) _ _ h ?_
  intro c hc key _
  refine List.foldlRecOn (motive := Sound) _ _ hc ?_
  intro c hc i _
  exact hc.eraseIfOverlaps address length key i

theorem Sound.invalidateICacheInternal {pa address length : Nat} {forced : Bool} (h : Sound c)
    (hint : c.invalidateICacheInternal pa address length forced = some c') : Sound c' := by
  refine ⟨h.indexed.invalidateICacheInternal hint, ?_⟩
  obtain ⟨valid, destroy, d, -, hd, js, rfl⟩ := invalidateICacheInternal_some hint
  have hs : Sound { c with validBlock := valid } :=
    ⟨h.indexed.withValid valid c.js, h.linked.withValid valid c.blockRangeMap c.js⟩
  have hd' : Sound d := by
    rw [hd]
    split
    · exact hs.erasePhysicalRange pa length
    · exact hs
  exact hd'.linked.withValid d.validBlock d.blockRangeMap js

theorem Linked.clear (c : BlockCache) : Linked c.clear :=
  ⟨by simp [BlockCache.clear], by simp [BlockCache.clear]⟩

theorem Sound.step (h : Sound c) {op : Op} (hs : c.step op = some c') : Sound c' := by
  cases op with
  | compile mmu ea flags code link =>
      simp only [BlockCache.step] at hs
      cases ha : c.allocateBlock mmu ea flags code with
      | mk c₁ b =>
          rw [ha] at hs
          cases hs
          exact ⟨h.indexed.finalizeBlock ha link, h.linked.finalizeBlock h.indexed ha link⟩
  | dispatch mmu pc flags =>
      cases hs
      rcases dispatch_eq c mmu pc flags with heq | heq
      · rw [heq]; exact h
      · rw [heq]
        exact ⟨h.indexed.moveBlockIntoFastCache mmu pc flags, h.linked.moveBlockIntoFastCache mmu pc flags⟩
  | moveBlockIntoFastCache mmu addr flags =>
      cases hs
      exact ⟨h.indexed.moveBlockIntoFastCache mmu addr flags, h.linked.moveBlockIntoFastCache mmu addr flags⟩
  | invalidateICache mmu address length forced =>
      exact invalidateICache_keeps Sound.invalidateICacheInternal h hs
  | invalidateICacheLine mmu address =>
      exact invalidatePage_keeps Sound.invalidateICacheInternal h hs
  | erasePhysicalRange address length =>
      cases hs
      exact h.erasePhysicalRange address length
  | clear =>
      cases hs
      exact ⟨h.indexed.clear, Linked.clear c⟩

end Karphin.JitCache.BlockCache

/-!
# Invalidation is complete, and links never dangle
-/

namespace Karphin.JitCache.BlockCache

open Karphin.Lib

variable {c c' : BlockCache} {mmu : Mmu} {address length : Nat} {forced : Bool}

/-! ## Invalidation -/

theorem Indexed.purged {gone : Nat → Prop} (hi : Indexed c) (hb : ∀ b ∈ c.blockMap, Clean gone b) :
    Purged c gone := by
  have hlive : ∀ t ∈ c.shapes, ∃ b ∈ c.blockMap, b.shape = t ∧ Clean gone b := by
    intro t ht
    obtain ⟨b, hmem, rfl⟩ := mem_shapes.mp ht
    exact ⟨b, hmem, rfl, hb b hmem⟩
  refine ⟨hb, ?_, ?_, ?_, ?_⟩
  · intro k i hk
    obtain ⟨t, ht, rfl, -⟩ := hi.block_of_range k i hk
    obtain ⟨b, hmem, rfl, hclean⟩ := hlive t ht
    exact ⟨b, hmem, rfl, hclean⟩
  · intro a i ha
    obtain ⟨t, ht, rfl, -⟩ := hi.block_of_links a i ha
    obtain ⟨b, hmem, rfl, hclean⟩ := hlive t ht
    exact ⟨b, hmem, rfl, hclean⟩
  · intro k i hk
    obtain ⟨t, ht, rfl, -⟩ := hi.block_of_fallback k i hk
    obtain ⟨b, hmem, rfl, hclean⟩ := hlive t ht
    exact ⟨b, hmem, rfl, hclean⟩
  · intro k e hk
    obtain ⟨t, ht, rfl, -⟩ := hi.block_of_entry k e hk
    obtain ⟨b, hmem, rfl, hclean⟩ := hlive t ht
    exact ⟨b, hmem, rfl, hclean⟩

theorem Covered.step (hi : Indexed c) (h : Covered c) {op : Op} (hfit : op.Fits (2 ^ 32)) (htop : op.AvoidsTop)
    (hs : c.step op = some c') : Covered c' := by
  cases op with
  | compile mmu ea flags code link =>
      simp only [BlockCache.step] at hs
      cases ha : c.allocateBlock mmu ea flags code with
      | mk c₁ b =>
          rw [ha] at hs
          cases hs
          exact h.finalizeBlock hi ha link
  | dispatch mmu pc flags =>
      cases hs
      rcases dispatch_eq c mmu pc flags with heq | heq
      · rw [heq]; exact h
      · rw [heq]; exact h.moveBlockIntoFastCache mmu pc flags
  | moveBlockIntoFastCache mmu addr flags =>
      cases hs
      exact h.moveBlockIntoFastCache mmu addr flags
  | invalidateICache mmu address length forced => exact (Invalidated.range hi h hfit htop hs).covered
  | invalidateICacheLine mmu address => exact (Invalidated.line hi h hfit htop hs).covered
  | erasePhysicalRange address length =>
      cases hs
      obtain ⟨hsh, -⟩ := hi.erasePhysicalRange address length
      intro t ht
      rw [hsh.valid]
      exact h t (hsh.shapes t ht)
  | clear =>
      cases hs
      exact Covered.clear c

/-- As long as no physical range reaches the end of the physical space, invalidation is complete. A call
returns if it is forced or its range ends before the last word. -/
theorem invalidation_complete (entryPoints : Bool) :
    InvalidatesAll entryPoints (fun op => op.Fits (2 ^ 32) ∧ op.AvoidsTop) ∧
    ∀ (c : BlockCache) (mmu : Mmu) (address length : Nat) (forced : Bool), address + length ≤ 2 ^ 32 →
      forced = true ∨ address + length ≤ 2 ^ 32 - 4 →
      ∃ c', c.invalidateICache mmu address length forced = some c' := by
  refine ⟨?_, fun c mmu address length forced => invalidateICache_isSome c mmu⟩
  intro c hreach
  obtain ⟨hs, hc⟩ : Sound c ∧ Covered c := by
    refine hreach.invariant (fun c => Sound c ∧ Covered c) ⟨.init entryPoints, ?_⟩ ?_
    · intro b hb; cases hb
    · rintro c op c' ⟨hs, hc⟩ ⟨hfit, htop⟩ hstep
      exact ⟨hs.step hstep, hc.step hs.indexed hfit htop hstep⟩
  refine ⟨?_, ?_⟩
  · rintro line hline b hb p hp rfl
    rw [hc b.shape (shape_mem hb) p hp] at hline
    cases hline
  · rintro mmu address length forced c' ⟨hfit, htop⟩ hinv
    have hi := Invalidated.range hs.indexed hc hfit htop hinv
    exact hi.indexed.purged fun b hb p hp => hi.gone b.shape (shape_mem hb) p hp

/-- The guest maps the page at `0x1000` to the last physical page. -/
def topPage : Mmu where
  ir := true
  ibatTable := fun _ => none
  pageTable := fun page => if page = 1 then some (Fin.last _) else none

def topBlock : Op := .compile topPage 0x1ffc 2 ⟨0, [], [0xfffffffc]⟩ false

/-- The block survives the invalidation of its line: in `ErasePhysicalRange` the sum `address + length` wraps
to 0. -/
theorem top_page_block_survives : ¬ InvalidatesAll false (Op.Fits (2 ^ 32 - 1)) := by
  intro h
  have hkept : (((init false).step topBlock).bind fun c =>
      (c.invalidatePage topPage 0x1fe0 32 false).map fun c => c.blockMap.map (·.physicalAddresses)) =
      some [[0xfffffffc]] := by decide
  obtain ⟨c, hc, hkept⟩ := Option.bind_eq_some_iff.mp hkept
  obtain ⟨c', hc', hblocks⟩ := Option.map_eq_some_iff.mp hkept
  obtain ⟨-, hpurge⟩ := h c (Reach.refl.tail (a := topBlock) trivial hc)
  rw [← invalidateICache_of_page (by decide) (by decide)] at hc'
  have hp := (hpurge topPage 0x1fe0 32 false c' (by decide : 0x1fe0 + 32 ≤ 2 ^ 32 - 1) hc').blockMap
  obtain ⟨b, hb, hph⟩ := List.mem_map.mp (hblocks ▸ List.mem_singleton_self [0xfffffffc])
  exact hp b hb 0xfffffffc (by rw [hph]; exact List.mem_singleton_self _)
    ⟨0x1ffc, by decide, by decide, by decide, by decide⟩

/-! ## Links -/

/-- A link leads to a live block of the address and the flags it was made for, and destroying a block
removes every link to it. -/
theorem links_never_dangle (entryPoints : Bool) (c : BlockCache) (h : Reach step anyStep (init entryPoints) c) :
    (∀ b ∈ c.blockMap, ∀ e ∈ b.linkData, ∀ d, e.dest = some d →
      ∃ t ∈ c.blockMap, t.id = d ∧ t.effectiveAddress = e.exitAddress ∧ t.featureFlags = b.featureFlags) ∧
    ∀ b ∈ c.blockMap, ∀ s ∈ (c.destroyBlock b).blockMap, ∀ e ∈ s.linkData, e.dest ≠ some b.id := by
  have hs : Sound c := by
    refine h.invariant Sound (.init entryPoints) ?_
    intro c op c' hs _ hstep
    exact hs.step hstep
  refine ⟨?_, ?_⟩
  · intro b hb e he d hd
    obtain ⟨-, t, ht, htd⟩ := hs.linked.good b hb e he d hd
    obtain ⟨t', ht', rfl⟩ := mem_shapes.mp ht
    exact ⟨t', ht', htd⟩
  · intro b hb
    exact (Linked.destroyBlock hs.indexed.toLive hs.linked (shape_mem hb)).2

def realMode : Mmu where
  ir := false
  ibatTable := fun _ => none
  pageTable := fun _ => none

def twoBlocks : List Op :=
  [.compile realMode 0x100 0 ⟨0, [0x100, 0x200], [0x100]⟩ true,
    .compile realMode 0x200 0 ⟨1, [0x100], [0x200]⟩ true]

theorem links_never_dangle_two_blocks : ∃ c, Reach step anyStep (init false) c ∧
    c.blockMap.map (fun b => b.linkData.map (·.dest)) = [[some 0, some 1], [some 0]] ∧
    ∀ b ∈ c.blockMap, ∀ s ∈ (c.destroyBlock b).blockMap, ∀ e ∈ s.linkData, e.dest ≠ some b.id := by
  have hrun : (run step (init false) twoBlocks).map
      (fun c => c.blockMap.map fun b => b.linkData.map (·.dest)) = some [[some 0, some 1], [some 0]] := by
    decide
  obtain ⟨c, hc, hdest⟩ := Option.map_eq_some_iff.mp hrun
  exact ⟨c, reach_of_run hc, hdest, (links_never_dangle false c (reach_of_run hc)).2⟩

end Karphin.JitCache.BlockCache
