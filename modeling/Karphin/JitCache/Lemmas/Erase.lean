import Karphin.JitCache.Lemmas.Indexes

/-!
# Erasing ranges

`ErasePhysicalRange` removes exactly the blocks that overlap the range, from every index; the invalidation
functions clear valid bits only of lines that no live block covers any more.
-/

namespace Karphin.JitCache.BlockCache

variable {c c' : BlockCache} {b t : JitBlock} {i : BlockId} {mmu : Mmu}

/-! ## One block -/

theorem mem_eraseRange {r : Nat → List BlockId} {key k : Nat} {ps : List Nat} :
    i ∈ eraseAt (ps.foldl (fun t p => if macroBlock p ≠ key then eraseAt t (macroBlock p) b.id else t) r)
        key b.id k ↔ i ∈ r k ∧ ((k = key ∨ ∃ p ∈ ps, macroBlock p = k) → i ≠ b.id) := by
  induction ps generalizing r with
  | nil => simp
  | cons p ps ih =>
      rw [List.foldl_cons, ih]
      simp only [List.mem_cons, exists_eq_or_imp]
      by_cases hp : macroBlock p = key
      · rw [if_neg (not_not_intro hp)]
        constructor
        · rintro ⟨hi, h⟩
          refine ⟨hi, ?_⟩
          rintro (hk | hk | hk)
          · exact h (Or.inl hk)
          · exact h (Or.inl (hk ▸ hp))
          · exact h (Or.inr hk)
        · rintro ⟨hi, h⟩
          refine ⟨hi, ?_⟩
          rintro (hk | hk)
          · exact h (Or.inl hk)
          · exact h (Or.inr (Or.inr hk))
      · rw [if_pos hp, mem_eraseAt]
        constructor
        · rintro ⟨⟨hi, h1⟩, h2⟩
          refine ⟨hi, ?_⟩
          rintro (hk | hk | hk)
          · exact h2 (Or.inl hk)
          · exact h1 hk.symm
          · exact h2 (Or.inr hk)
        · rintro ⟨hi, h⟩
          refine ⟨⟨hi, fun hk => h (Or.inr (Or.inl hk.symm))⟩, ?_⟩
          rintro (hk | hk)
          · exact h (Or.inl hk)
          · exact h (Or.inr (Or.inr hk))

theorem Indexed.live_with (h : Indexed c) (r : Nat → List BlockId) : Live { c with blockRangeMap := r } :=
  ⟨h.ids_nodup, h.id_lt, h.block_of_links, h.block_of_fallback, h.block_of_entry, h.fallback_unused,
    h.entry_unused⟩

theorem Indexed.eraseBlock (h : Indexed c) (hb : b ∈ c.blockMap) (key : Nat) :
    Indexed (c.eraseBlock key b) ∧
    (c.eraseBlock key b).shapes = c.shapes.filter (·.id ≠ b.id) ∧
    (∀ k j, j ∈ (c.eraseBlock key b).blockRangeMap k → j ∈ c.blockRangeMap k) ∧
    (c.eraseBlock key b).validBlock = c.validBlock := by
  have hd := (h.live_with (b.physicalAddresses.foldl
    (fun t p => if macroBlock p ≠ key then eraseAt t (macroBlock p) b.id else t)
    c.blockRangeMap)).destroyBlock (shape_mem hb)
  unfold BlockCache.eraseBlock
  dsimp only
  generalize hr : b.physicalAddresses.foldl
    (fun t p => if macroBlock p ≠ key then eraseAt t (macroBlock p) b.id else t)
    c.blockRangeMap = r at hd ⊢
  generalize hd' : ({ c with blockRangeMap := r } : BlockCache).destroyBlock b = d at hd ⊢
  have hrange : d.blockRangeMap = r := by rw [hd.rest]
  have hvalid : d.validBlock = c.validBlock := by rw [hd.rest]
  have hnext : d.nextId = c.nextId := by rw [hd.rest]
  have hmode : d.entryPoints = c.entryPoints := by rw [hd.rest]
  have hshapes : d.shapes = c.shapes := hd.shapes
  have hmem : ∀ k j, j ∈ eraseAt d.blockRangeMap key b.id k ↔
      j ∈ c.blockRangeMap k ∧ ((k = key ∨ ∃ p ∈ b.physicalAddresses, macroBlock p = k) → j ≠ b.id) := by
    intro k j; rw [hrange, ← hr]; exact mem_eraseRange
  have hfil : (d.blockMap.filter (·.id ≠ b.id)).map JitBlock.shape = c.shapes.filter (·.id ≠ b.id) := by
    rw [← hshapes, shapes, List.filter_map]; rfl
  have hof : ∀ t, t ∈ (d.blockMap.filter (·.id ≠ b.id)).map JitBlock.shape ↔ t ∈ c.shapes ∧ t.id ≠ b.id := by
    intro t; rw [hfil]; simp
  refine ⟨⟨⟨?_, ?_, ?_, ?_, ?_, ?_, ?_⟩, ?_, ?_⟩, hfil, fun k j hj => ((hmem k j).mp hj).1, hvalid⟩
  · show ((List.map JitBlock.shape (d.blockMap.filter (·.id ≠ b.id))).map (·.id)).Nodup
    rw [hfil]
    exact (List.filter_sublist.map _).nodup h.ids_nodup
  · intro t ht
    exact hnext ▸ h.id_lt t ((hof t).mp ht).1
  · intro a j hj
    obtain ⟨hj, hne⟩ := (hd.links a j).mp hj
    obtain ⟨t, ht, rfl, ha⟩ := h.block_of_links a j hj
    refine ⟨t, (hof t).mpr ⟨ht, ?_⟩, rfl, ha⟩
    intro hid
    have := h.shape_unique ht (shape_mem hb) hid
    subst this
    exact hne (by simpa using ha) rfl
  · intro k j hk
    obtain ⟨t, ht, hne, htj⟩ := hd.avoids.fallback k j hk
    exact ⟨t, (hof t).mpr ⟨hshapes ▸ ht, hne⟩, htj⟩
  · intro k e hk
    obtain ⟨t, ht, hne, hte⟩ := hd.avoids.entry k e hk
    exact ⟨t, (hof t).mpr ⟨hshapes ▸ ht, hne⟩, hte⟩
  · intro hm; exact hd.fallback_unused (hmode ▸ hm)
  · intro hm; exact hd.entry_unused (hmode ▸ hm)
  · intro t ht p hp
    obtain ⟨ht, hne⟩ := (hof t).mp ht
    exact (hmem _ _).mpr ⟨h.range_of_block t ht p hp, fun _ => hne⟩
  · intro k j hj
    obtain ⟨hj, hne⟩ := (hmem k j).mp hj
    obtain ⟨t, ht, rfl, p, hp, hk⟩ := h.block_of_range k j hj
    refine ⟨t, (hof t).mpr ⟨ht, ?_⟩, rfl, p, hp, hk⟩
    intro hid
    have := h.shape_unique ht (shape_mem hb) hid
    subst this
    exact hne (Or.inr ⟨p, hp, hk⟩) rfl

/-! ## A physical range -/

/-- `c'` has the indexes in order, no new blocks, and the valid bits of `c`. -/
structure Shrunk (c c' : BlockCache) : Prop where
  indexed : Indexed c'
  shapes : ∀ t ∈ c'.shapes, t ∈ c.shapes
  valid : c'.validBlock = c.validBlock

theorem Shrunk.refl (h : Indexed c) : Shrunk c c := ⟨h, fun _ ht => ht, rfl⟩

theorem Shrunk.trans {c c' c'' : BlockCache} (h : Shrunk c c') (h' : Shrunk c' c'') : Shrunk c c'' :=
  ⟨h'.indexed, fun t ht => h.shapes t (h'.shapes t ht), h'.valid.trans h.valid⟩

theorem Indexed.eraseIfOverlaps (h : Indexed c) (address length key : Nat) (i : BlockId) :
    Shrunk c (eraseIfOverlaps address length key c i) ∧
    ∀ t ∈ (BlockCache.eraseIfOverlaps address length key c i).shapes,
      t.id = i → t.overlapsPhysicalRange address length = false := by
  unfold BlockCache.eraseIfOverlaps
  cases hb : c.block? i with
  | none =>
      refine ⟨.refl h, ?_⟩
      intro t ht hid
      obtain ⟨b, hb', rfl⟩ := mem_shapes.mp ht
      obtain ⟨b', hsome⟩ := block?_isSome hb'
      rw [← hid] at hb
      exact absurd hsome (by rw [show b.id = b.shape.id from rfl, hb]; simp)
  | some b =>
      obtain ⟨hmem, hbi⟩ := mem_of_block? hb
      cases ho : b.overlapsPhysicalRange address length with
      | false =>
          simp only [ho, Bool.false_eq_true, ↓reduceIte]
          refine ⟨.refl h, ?_⟩
          intro t ht hid
          have := h.shape_unique ht (shape_mem hmem) (hid.trans hbi.symm)
          rw [this]; exact ho
      | true =>
          simp only [ho, ↓reduceIte]
          obtain ⟨hi, hs, -, hv⟩ := h.eraseBlock hmem key
          have hsub : ∀ t ∈ (c.eraseBlock key b).shapes, t ∈ c.shapes ∧ t.id ≠ b.id := by
            intro t ht
            rw [hs] at ht
            simpa using ht
          refine ⟨⟨hi, fun t ht => (hsub t ht).1, hv⟩, ?_⟩
          intro t ht hid
          exact absurd (hid.trans hbi.symm) (hsub t ht).2

theorem Indexed.eraseMacroBlock (address length key : Nat) :
    ∀ (is : List BlockId) {c : BlockCache}, Indexed c →
      Shrunk c (is.foldl (BlockCache.eraseIfOverlaps address length key) c) ∧
      ∀ t ∈ (is.foldl (BlockCache.eraseIfOverlaps address length key) c).shapes,
        t.id ∈ is → t.overlapsPhysicalRange address length = false
  | [], c, h => ⟨.refl h, fun _ _ hi => by cases hi⟩
  | i :: is, c, h => by
      obtain ⟨h1, h1'⟩ := h.eraseIfOverlaps address length key i
      obtain ⟨h2, h2'⟩ := Indexed.eraseMacroBlock address length key is h1.indexed
      refine ⟨h1.trans h2, ?_⟩
      intro t ht hi
      rw [List.mem_cons] at hi
      rcases hi with hi | hi
      · exact h1' t (h2.shapes t ht) hi
      · exact h2' t ht hi

theorem Indexed.eraseMacroBlocks (address length : Nat) :
    ∀ (keys : List Nat) {c : BlockCache}, Indexed c →
      Shrunk c (keys.foldl (fun c key =>
        (c.blockRangeMap key).foldl (BlockCache.eraseIfOverlaps address length key) c) c) ∧
      ∀ t ∈ (keys.foldl (fun c key =>
        (c.blockRangeMap key).foldl (BlockCache.eraseIfOverlaps address length key) c) c).shapes,
        (∃ p ∈ t.physicalAddresses, macroBlock p ∈ keys) → t.overlapsPhysicalRange address length = false
  | [], c, h => ⟨.refl h, fun _ _ hp => by obtain ⟨p, -, hp⟩ := hp; cases hp⟩
  | key :: keys, c, h => by
      obtain ⟨h1, h1'⟩ := Indexed.eraseMacroBlock address length key (c.blockRangeMap key) h
      obtain ⟨h2, h2'⟩ := Indexed.eraseMacroBlocks address length keys h1.indexed
      refine ⟨h1.trans h2, ?_⟩
      rintro t ht ⟨p, hp, hk⟩
      rw [List.mem_cons] at hk
      rcases hk with hk | hk
      · have hmem := h.range_of_block t (h1.shapes t (h2.shapes t ht)) p hp
        exact h1' t (h2.shapes t ht) (hk ▸ hmem)
      · exact h2' t ht ⟨p, hp, hk⟩

theorem macroBlock_mem {address stop p : Nat} (hle : address ≤ p) (hlt : p < stop) :
    macroBlock p ∈ macroBlocks address stop := by
  simp only [macroBlocks, List.mem_map, List.mem_range, macroBlock, BLOCK_RANGE_MAP_ELEMENTS]
  exact ⟨p / 0x100 - address / 0x100, by omega, by omega⟩

theorem Indexed.erasePhysicalRange (h : Indexed c) (address length : Nat) :
    Shrunk c (c.erasePhysicalRange address length) ∧
    (address + length < 2 ^ 32 → ∀ t ∈ (c.erasePhysicalRange address length).shapes,
      ∀ p ∈ t.physicalAddresses, ¬ (address ≤ p ∧ p < address + length)) := by
  obtain ⟨h1, h2⟩ := Indexed.eraseMacroBlocks address length (macroBlocks address (addU32 address length)) h
  refine ⟨h1, ?_⟩
  rintro hw t ht p hp ⟨hle, hlt⟩
  have hstop : addU32 address length = address + length := Nat.mod_eq_of_lt hw
  have hno := h2 t ht ⟨p, hp, macroBlock_mem hle (hstop ▸ hlt)⟩
  rw [Bool.eq_false_iff, ne_eq, overlapsPhysicalRange_iff hw] at hno
  exact hno ⟨p, hp, hle, hlt⟩

/-! ## Clear -/

theorem Destroyed.live (h : Live c) (hd : Destroyed c c' b) : Live c' := by
  have hs := hd.shapes
  have hmode : c'.entryPoints = c.entryPoints := by rw [hd.rest]
  refine ⟨by rw [hs]; exact h.ids_nodup, ?_, ?_, ?_, ?_, hmode ▸ hd.fallback_unused, hmode ▸ hd.entry_unused⟩
  · rw [hs, hd.rest]; exact h.id_lt
  · rw [hs]
    intro a i hi
    exact h.block_of_links a i ((hd.links a i).mp hi).1
  · intro k i hk
    obtain ⟨t, ht, -, hti⟩ := hd.avoids.fallback k i hk
    exact ⟨t, ht, hti⟩
  · intro k e hk
    obtain ⟨t, ht, -, hte⟩ := hd.avoids.entry k e hk
    exact ⟨t, ht, hte⟩

theorem Live.destroyAll : ∀ (bs : List JitBlock) {c : BlockCache}, Live c → (∀ b ∈ bs, b.shape ∈ c.shapes) →
    (∀ k i, c.fastBlockMapFallback k = some i → ∃ b ∈ bs, b.id = i) →
    Live (bs.foldl BlockCache.destroyBlock c) ∧
    (∀ k, (bs.foldl BlockCache.destroyBlock c).fastBlockMapFallback k = none) ∧
    (bs.foldl BlockCache.destroyBlock c).entryPoints = c.entryPoints
  | [], c, h, _, hall => by
      refine ⟨h, fun k => ?_, rfl⟩
      cases hk : c.fastBlockMapFallback k with
      | none => exact hk
      | some i =>
          obtain ⟨b, hb, -⟩ := hall k i hk
          cases hb
  | b :: bs, c, h, hmem, hall => by
      have hd := h.destroyBlock (hmem b List.mem_cons_self)
      have hmode : (c.destroyBlock b).entryPoints = c.entryPoints := by rw [hd.rest]
      obtain ⟨h1, h2, h3⟩ := Live.destroyAll bs (hd.live h)
        (fun b' hb' => hd.shapes ▸ hmem b' (List.mem_cons_of_mem b hb')) (by
          intro k i hk
          obtain ⟨t, -, hne, hti, -⟩ := hd.avoids.fallback k i hk
          obtain ⟨b', hb', hid⟩ := hall k i (hd.fallback k i hk)
          rcases List.mem_cons.mp hb' with rfl | hb'
          · exact absurd (hti.trans hid.symm) hne
          · exact ⟨b', hb', hid⟩)
      exact ⟨h1, h2, h3.trans hmode⟩

theorem Indexed.clear (h : Indexed c) : Indexed c.clear := by
  obtain ⟨hl, hf, hm⟩ := h.toLive.destroyAll c.blockMap (fun b hb => shape_mem hb) (by
    intro k i hk
    obtain ⟨t, ht, hti, -⟩ := h.block_of_fallback k i hk
    obtain ⟨b, hb, rfl⟩ := mem_shapes.mp ht
    exact ⟨b, hb, hti⟩)
  have he : ∀ k, c.clear.entryPointTable k = none := by
    intro k
    unfold BlockCache.clear
    cases hc : c.entryPoints with
    | true => rfl
    | false => exact hl.entry_unused (hm.trans hc) k
  refine ⟨⟨?_, ?_, ?_, ?_, ?_, fun _ => hf, fun _ => he⟩, ?_, ?_⟩
  · simp [BlockCache.clear, shapes]
  · simp [BlockCache.clear, shapes]
  · simp [BlockCache.clear]
  · intro k i hk
    exact absurd hk (by rw [show c.clear.fastBlockMapFallback k = none from hf k]; simp)
  · intro k e hk
    exact absurd hk (by rw [he k]; simp)
  · simp [BlockCache.clear, shapes]
  · simp [BlockCache.clear]

theorem Covered.clear (c : BlockCache) : Covered c.clear := by
  intro b hb
  simp [BlockCache.clear, shapes] at hb

end Karphin.JitCache.BlockCache
