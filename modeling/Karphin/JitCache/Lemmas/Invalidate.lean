import Karphin.JitCache.Lemmas.Erase

/-!
# Invalidating effective ranges

The translation is linear within a page, so the physical ranges that `InvalidateICache` erases page by page
are together the translated range.
-/

namespace Karphin.JitCache

open BlockCache

variable {mmu : Mmu} {a address : Nat}

/-! ## Translation -/

theorem Mmu.translate_lt (h : a < 2 ^ 32) : (mmu.translate a).address < 2 ^ 32 := by
  unfold Mmu.translate
  split
  · exact h
  · split
    · next block _ =>
        have := block.isLt
        simp only [BAT_INDEX_SHIFT]
        omega
    · split
      · next rpn _ =>
          have := rpn.isLt
          simp only [HW_PAGE_INDEX_SHIFT]
          omega
      · decide

theorem Mmu.translate_page (hle : address ≤ a)
    (hpage : address / pageSize (mmu.translate address) = a / pageSize (mmu.translate address)) :
    (mmu.translate a).valid = (mmu.translate address).valid ∧
    ((mmu.translate address).valid = true →
      (mmu.translate a).address = (mmu.translate address).address + (a - address)) := by
  unfold Mmu.translate at hpage ⊢
  cases hir : mmu.ir with
  | false => simp only [Bool.not_false, ↓reduceIte]; exact ⟨trivial, fun _ => by omega⟩
  | true =>
      simp only [hir, Bool.not_true, Bool.false_eq_true, ↓reduceIte] at hpage ⊢
      cases hb : mmu.ibatTable (address / 2 ^ BAT_INDEX_SHIFT) with
      | some block =>
          simp only [hb, pageSize, Bool.and_self, ↓reduceIte] at hpage
          simp only [← hpage, hb]
          simp only [BAT_INDEX_SHIFT] at hpage ⊢
          exact ⟨trivial, fun _ => by omega⟩
      | none =>
          cases hp : mmu.pageTable (address / 2 ^ HW_PAGE_INDEX_SHIFT) with
          | some rpn =>
              simp only [hb, hp, pageSize, Bool.and_false, Bool.false_eq_true, ↓reduceIte] at hpage
              have hblock : a / 2 ^ BAT_INDEX_SHIFT = address / 2 ^ BAT_INDEX_SHIFT := by
                simp only [BAT_INDEX_SHIFT, HW_PAGE_INDEX_SHIFT] at hpage ⊢
                omega
              simp only [hblock, hb, ← hpage, hp]
              simp only [HW_PAGE_INDEX_SHIFT] at hpage ⊢
              exact ⟨trivial, fun _ => by omega⟩
          | none =>
              simp only [hb, hp, pageSize, Bool.and_false, Bool.false_eq_true, ↓reduceIte] at hpage
              have hblock : a / 2 ^ BAT_INDEX_SHIFT = address / 2 ^ BAT_INDEX_SHIFT := by
                simp only [BAT_INDEX_SHIFT, HW_PAGE_INDEX_SHIFT] at hpage ⊢
                omega
              simp [hblock, hb, ← hpage, hp]

namespace BlockCache

variable {c c' : BlockCache} {length pa : Nat} {forced : Bool}

/-! ## Valid bits -/

theorem testValid_spec {valid valid' : Nat → Bool} {destroy : Bool} (hw : pa + length < 2 ^ 32)
    (h : testValid valid pa length = (valid', destroy)) :
    (destroy = false → valid' = valid ∧ length = 32 ∧ pa % 32 = 0 ∧ valid (pa / 32) = false) ∧
    (destroy = true → ∀ l, valid l = true → valid' l = true ∨ pa ≤ l * 32 ∧ l * 32 + 32 ≤ pa + length) := by
  have hclear : ∀ (start stop : Nat) {l : Nat}, valid l = true →
      clearLines valid start stop l = true ∨ start ≤ l ∧ l < stop := by
    intro start stop l hl
    by_cases hin : start ≤ l ∧ l < stop
    · exact Or.inr hin
    · exact Or.inl (by simp only [clearLines, if_neg hin]; exact hl)
  unfold testValid at h
  split at h
  · next hline =>
      split at h
      · next hbit =>
          cases h
          exact ⟨fun _ => ⟨rfl, hline.1, hline.2, by simpa using hbit⟩, by simp⟩
      · cases h
        refine ⟨by simp, fun _ l hl => ?_⟩
        obtain hl | hl := hclear (pa / 32) (pa / 32 + 1) hl
        · exact Or.inl hl
        · exact Or.inr (by omega)
  · split at h
    · cases h
      refine ⟨by simp, fun _ l hl => ?_⟩
      obtain hl | hl := hclear (addU32 pa 0x1f / 32) (addU32 pa length / 32) hl
      · exact Or.inl hl
      · refine Or.inr ?_
        simp only [addU32] at hl
        omega
    · cases h
      exact ⟨by simp, fun _ l hl => Or.inl hl⟩

/-! ## One page -/

/-- `c'` is what an invalidation leaves of `c`: the indexes are in order and no live block has an address
in `gone`. -/
structure Invalidated (c c' : BlockCache) (gone : Nat → Prop) : Prop where
  indexed : Indexed c'
  covered : Covered c'
  shapes : ∀ t ∈ c'.shapes, t ∈ c.shapes
  gone : ∀ t ∈ c'.shapes, ∀ p ∈ t.physicalAddresses, ¬ gone p

theorem Indexed.withValid (h : Indexed c) (valid : Nat → Bool) (js : JitState) :
    Indexed { c with validBlock := valid, js := js } :=
  ⟨⟨h.ids_nodup, h.id_lt, h.block_of_links, h.block_of_fallback, h.block_of_entry, h.fallback_unused,
    h.entry_unused⟩, h.range_of_block, h.block_of_range⟩

theorem invalidateICacheInternal_some (h : c.invalidateICacheInternal pa address length forced = some c') :
    ∃ valid destroy d, testValid c.validBlock pa length = (valid, destroy) ∧
      d = (if destroy = true then ({ c with validBlock := valid } : BlockCache).erasePhysicalRange pa length
        else { c with validBlock := valid }) ∧
      ∃ js, c' = { d with js := js } := by
  unfold BlockCache.invalidateICacheInternal at h
  cases ht : testValid c.validBlock pa length with
  | mk valid destroy =>
      refine ⟨valid, destroy, _, rfl, rfl, ?_⟩
      simp only [ht] at h
      cases destroy with
      | false => cases h; exact ⟨c.js, rfl⟩
      | true =>
          simp only [↓reduceIte] at h ⊢
          split at h
          · cases h; exact ⟨_, rfl⟩
          · split at h
            · cases h; exact ⟨_, rfl⟩
            · cases h

theorem Indexed.invalidateICacheInternal (hi : Indexed c)
    (h : c.invalidateICacheInternal pa address length forced = some c') : Indexed c' := by
  obtain ⟨valid, destroy, d, -, hd, js, rfl⟩ := invalidateICacheInternal_some h
  have hi' := hi.withValid valid c.js
  have : Indexed d := by
    rw [hd]
    split
    · exact (hi'.erasePhysicalRange pa length).1.indexed
    · exact hi'
  exact this.withValid d.validBlock js

theorem Invalidated.internal (hi : Indexed c) (hc : Covered c) (hw : pa + length < 2 ^ 32)
    (h : c.invalidateICacheInternal pa address length forced = some c') :
    Invalidated c c' fun p => pa ≤ p ∧ p < pa + length := by
  have hindexed := hi.invalidateICacheInternal h
  obtain ⟨valid, destroy, d, ht, hd, js, rfl⟩ := invalidateICacheInternal_some h
  obtain ⟨hskip, hkeep⟩ := testValid_spec hw ht
  cases destroy with
  | false =>
      -- the bit of the line is clear, so no live block covers it
      obtain ⟨rfl, rfl, hal, hbit⟩ := hskip rfl
      simp only [Bool.false_eq_true, ↓reduceIte] at hd
      subst hd
      refine ⟨hindexed, hc, fun t ht => ht, ?_⟩
      rintro t ht p hp ⟨hle, hlt⟩
      have hset := hc t ht p hp
      rw [show p / 32 = pa / 32 by omega, hbit] at hset
      cases hset
  | true =>
      simp only [↓reduceIte] at hd
      obtain ⟨hsh, hno⟩ := (hi.withValid valid c.js).erasePhysicalRange pa length
      rw [← hd] at hsh hno
      have hno := hno hw
      refine ⟨hindexed, ?_, hsh.shapes, hno⟩
      intro t ht p hp
      have hset := hc t (hsh.shapes t ht) p hp
      have hvalid : d.validBlock = valid := hsh.valid
      show d.validBlock (p / 32) = true
      rw [hvalid]
      rcases hkeep rfl (p / 32) hset with hl | hl
      · exact hl
      · exact absurd ⟨by omega, by omega⟩ (hno t ht p hp)

/-! ## The loop over pages -/

theorem Invalidated.page (hi : Indexed c) (hc : Covered c) (hl : 0 < length) (hw : address + length ≤ 2 ^ 32)
    (htop : AvoidsTop mmu address length)
    (hpage : ∀ a, address ≤ a → a < address + length →
      address / pageSize (mmu.translate address) = a / pageSize (mmu.translate address))
    (h : c.invalidatePage mmu address length forced = some c') :
    Invalidated c c' (Translated mmu address length) := by
  unfold BlockCache.invalidatePage at h
  dsimp only at h
  cases hv : (mmu.translate address).valid with
  | false =>
      simp only [hv, Bool.false_eq_true, ↓reduceIte, Option.some.injEq] at h
      subst h
      refine ⟨hi, hc, fun t ht => ht, ?_⟩
      rintro t - p - ⟨a, hle, hlt, hva, -⟩
      rw [(Mmu.translate_page hle (hpage a hle hlt)).1, hv] at hva
      cases hva
  | true =>
      rw [if_pos hv] at h
      have hlin : ∀ a, address ≤ a → a < address + length → (mmu.translate a).valid = true ∧
          (mmu.translate a).address = (mmu.translate address).address + (a - address) := by
        intro a hle hlt
        obtain ⟨h1, h2⟩ := Mmu.translate_page hle (hpage a hle hlt)
        exact ⟨h1.trans hv, h2 hv⟩
      -- the last byte of the page part tells that the physical range does not wrap
      have hpw : (mmu.translate address).address + length < 2 ^ 32 := by
        obtain ⟨hva, hla⟩ := hlin (address + (length - 1)) (by omega) (by omega)
        have hne := htop (address + (length - 1)) (by omega) (by omega) hva
        have hlt : (mmu.translate (address + (length - 1))).address < 2 ^ 32 := Mmu.translate_lt (by omega)
        omega
      have hint := Invalidated.internal hi hc hpw h
      refine ⟨hint.indexed, hint.covered, hint.shapes, ?_⟩
      rintro t ht p hp ⟨a, hle, hlt, hva, rfl⟩
      refine hint.gone t ht _ hp ?_
      rw [(hlin a hle hlt).2]
      omega

theorem same_page {size n : Nat} (hs : 0 < size) (hn : n ≤ size - address % size) (hle : address ≤ a)
    (hlt : a < address + n) : address / size = a / size := by
  refine Nat.div_eq_of_lt_le ?_ ?_ |>.symm
  · exact Nat.le_trans (Nat.div_mul_le_self address size) hle
  · have := Nat.div_add_mod address size
    have := Nat.mod_lt address hs
    rw [Nat.add_mul, Nat.one_mul, Nat.mul_comm]
    omega

theorem pageSize_pos (t : TranslateResult) : 0 < pageSize t := Nat.two_pow_pos _

theorem invalidateICache_of_page (hl : length ≠ 0)
    (hpage : address / pageSize (mmu.translate address) =
      addU32 address (length - 1) / pageSize (mmu.translate address)) :
    c.invalidateICache mmu address length forced = c.invalidatePage mmu address length forced := by
  unfold BlockCache.invalidateICache
  rw [if_neg hl]
  exact if_pos hpage

section Keeps

variable {P : BlockCache → Prop}
  (hP : ∀ {c c' pa address length forced}, P c →
    c.invalidateICacheInternal pa address length forced = some c' → P c')

include hP

theorem invalidatePage_keeps (hc : P c) (h : c.invalidatePage mmu address length forced = some c') : P c' := by
  unfold BlockCache.invalidatePage at h
  dsimp only at h
  split at h
  · exact hP hc h
  · cases h; exact hc

theorem invalidateICache_keeps (hc : P c) (h : c.invalidateICache mmu address length forced = some c') :
    P c' := by
  induction length using Nat.strongRecOn generalizing c address with
  | _ length ih =>
      unfold BlockCache.invalidateICache at h
      dsimp only at h
      split at h
      · cases h; exact hc
      · split at h
        · exact invalidatePage_keeps hP hc h
        · obtain ⟨d, hd, h⟩ := Option.bind_eq_some_iff.mp h
          have hpos := pageSize_sub_pos (mmu.translate address) address
          exact ih _ (by omega) (invalidatePage_keeps hP hc hd) h

end Keeps

theorem Invalidated.range (hi : Indexed c) (hc : Covered c) (hw : address + length ≤ 2 ^ 32)
    (htop : AvoidsTop mmu address length) (h : c.invalidateICache mmu address length forced = some c') :
    Invalidated c c' (Translated mmu address length) := by
  induction length using Nat.strongRecOn generalizing c address with
  | _ length ih =>
      unfold BlockCache.invalidateICache at h
      dsimp only at h
      split at h
      · next hl =>
          cases h
          refine ⟨hi, hc, fun t ht => ht, ?_⟩
          rintro t - p - ⟨a, hle, hlt, -⟩
          omega
      · next hl =>
          have hlast : addU32 address (length - 1) = address + (length - 1) := Nat.mod_eq_of_lt (by omega)
          rw [hlast] at h
          have hsize := pageSize_pos (mmu.translate address)
          generalize hsz : pageSize (mmu.translate address) = size at h hsize
          split at h
          · next hsame =>
              refine Invalidated.page hi hc (by omega) hw htop ?_ h
              intro a hle hlt
              rw [hsz]
              refine Nat.le_antisymm (Nat.div_le_div_right hle) ?_
              rw [hsame]
              exact Nat.div_le_div_right (by omega)
          · next hdiff =>
              obtain ⟨d, hd, h⟩ := Option.bind_eq_some_iff.mp h
              have hpos : 0 < size - address % size := hsz ▸ pageSize_sub_pos (mmu.translate address) address
              -- the page ends before the range does
              have hshort : size - address % size < length := by
                by_contra hge
                exact hdiff (same_page hsize (Nat.le_of_not_lt hge) (by omega) (by omega))
              have hnext : addU32 address (size - address % size) = address + (size - address % size) :=
                Nat.mod_eq_of_lt (by omega)
              rw [hnext] at h
              have h1 : Invalidated c d (Translated mmu address (size - address % size)) := by
                refine Invalidated.page hi hc hpos (by omega) ?_ ?_ hd
                · exact fun a hle hlt => htop a hle (by omega)
                · intro a hle hlt
                  rw [hsz]
                  exact same_page hsize (Nat.le_refl _) hle hlt
              have h2 := ih _ (by omega) h1.indexed h1.covered (by omega)
                (fun a hle hlt => htop a (by omega) (by omega)) h
              refine ⟨h2.indexed, h2.covered, fun t ht => h1.shapes t (h2.shapes t ht), ?_⟩
              rintro t ht p hp ⟨a, hle, hlt, hva, hpa⟩
              by_cases hin : a < address + (size - address % size)
              · exact h1.gone t (h2.shapes t ht) p hp ⟨a, hle, hin, hva, hpa⟩
              · exact h2.gone t ht p hp ⟨a, by omega, by omega, hva, hpa⟩

theorem Invalidated.line (hi : Indexed c) (hc : Covered c) (hw : address / 32 * 32 + 32 ≤ 2 ^ 32)
    (htop : AvoidsTop mmu (address / 32 * 32) 32) (h : c.invalidateICacheLine mmu address = some c') :
    Invalidated c c' (Translated mmu (address / 32 * 32) 32) := by
  unfold BlockCache.invalidateICacheLine at h
  refine Invalidated.page hi hc (by omega) hw htop ?_ h
  intro a hle hlt
  refine same_page (pageSize_pos _) ?_ hle hlt
  unfold pageSize
  split
  · simp only [BAT_INDEX_SHIFT]; omega
  · simp only [HW_PAGE_INDEX_SHIFT]; omega

/-! ## The call returns -/

theorem invalidatePage_isSome (c : BlockCache) (mmu : Mmu)
    (hend : forced = true ∨ address + length ≤ 2 ^ 32 - 4) :
    ∃ c', c.invalidatePage mmu address length forced = some c' := by
  unfold BlockCache.invalidatePage BlockCache.invalidateICacheInternal
  dsimp only
  split
  · generalize testValid c.validBlock (mmu.translate address).address length = vd
    obtain ⟨valid, destroy⟩ := vd
    dsimp only
    split
    · rcases hend with hf | hend
      · rw [if_pos hf]; exact ⟨_, rfl⟩
      · split
        · exact ⟨_, rfl⟩
        · have hends : loopEnds address (addU32 address length) = true := by
            have : addU32 address length = address + length := Nat.mod_eq_of_lt (by omega)
            simp only [loopEnds, this, decide_eq_true_eq]
            omega
          rw [if_pos hends]; exact ⟨_, rfl⟩
    · exact ⟨_, rfl⟩
  · exact ⟨_, rfl⟩

theorem invalidateICache_isSome (c : BlockCache) (mmu : Mmu) (hw : address + length ≤ 2 ^ 32)
    (hend : forced = true ∨ address + length ≤ 2 ^ 32 - 4) :
    ∃ c', c.invalidateICache mmu address length forced = some c' := by
  induction length using Nat.strongRecOn generalizing c address with
  | _ length ih =>
      unfold BlockCache.invalidateICache
      dsimp only
      split
      · exact ⟨c, rfl⟩
      · next hl =>
          have hlast : addU32 address (length - 1) = address + (length - 1) := Nat.mod_eq_of_lt (by omega)
          rw [hlast]
          have hsize := pageSize_pos (mmu.translate address)
          have hpos := pageSize_sub_pos (mmu.translate address) address
          generalize pageSize (mmu.translate address) = size at hsize hpos
          split
          · exact invalidatePage_isSome c mmu hend
          · next hdiff =>
              have hshort : size - address % size < length := by
                by_contra hge
                exact hdiff (same_page hsize (Nat.le_of_not_lt hge) (by omega) (by omega))
              have hend' : forced = true ∨ address + (size - address % size) ≤ 2 ^ 32 - 4 :=
                hend.imp_right fun h => by omega
              obtain ⟨d, hd⟩ := invalidatePage_isSome c mmu hend'
              have hnext : addU32 address (size - address % size) = address + (size - address % size) :=
                Nat.mod_eq_of_lt (by omega)
              rw [hd, hnext]
              exact ih _ (by omega) d (by omega) (hend.imp_right fun h => by omega)

end BlockCache

end Karphin.JitCache
