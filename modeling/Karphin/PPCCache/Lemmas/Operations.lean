import Karphin.PPCCache.Lemmas.Tables

/-!
# The table invariant is kept by every operation
-/

namespace Karphin.PPCCache

open Machine

variable {z : MemorySizes} {c : Cache} {m : Machine} {set : CacheSet} {way : Way}

theorem Coherent.reset (z : MemorySizes) (c : Cache) : Coherent z c.reset :=
  .of_empty (by simp [Cache.reset, Cache.isValid]) (by simp [Cache.reset, Cache.isModified])
    (by simp [Cache.reset])

theorem Coherent.init (z : MemorySizes) : Coherent z Cache.init := Coherent.reset z _

theorem Coherent.markClean (h : Coherent z c) : Coherent z (c.markClean set way) :=
  h.congr (fun _ _ => rfl) rfl rfl (fun s w hm => by
    simp only [Cache.isModified_markClean, Bool.and_eq_true] at hm
    exact h.isValid_of_isModified s w hm.1)

theorem Coherent.markModified (h : Coherent z c) (hv : c.isValid set way = true) :
    Coherent z (c.markModified set way) :=
  h.congr (fun _ _ => rfl) rfl rfl (fun s w hm => by
    simp only [Cache.isModified_markModified, Bool.or_eq_true, decide_eq_true_eq] at hm
    rcases hm with hm | ⟨rfl, rfl⟩
    · exact h.isValid_of_isModified s w hm
    · exact hv)

theorem Coherent.setData (h : Coherent z c) (b) : Coherent z (c.setData set way b) :=
  h.congr (fun _ _ => rfl) rfl rfl h.isValid_of_isModified

theorem Coherent.getCache_isValid (h : Coherent z m.cache) {addr locked m' set way}
    (hg : Machine.getCache z m addr locked = (m', set, some way)) :
    Coherent z m'.cache ∧ m'.cache.isValid set way = true ∧
      select z (m'.cache.addrs set way) = select z addr ∧ set = setOf addr := by
  obtain ⟨hc, hset, hl⟩ := h.getCache addr locked
  rw [hg] at hc hset hl
  simp only at hc hset hl
  subst hset
  obtain ⟨hv, hs⟩ := hc.lookup_select.mp hl
  exact ⟨hc, hv, hs, rfl⟩

theorem Coherent.getCache_none (h : Coherent z m.cache) {addr locked m' set}
    (hg : Machine.getCache z m addr locked = (m', set, none)) :
    Coherent z m'.cache := by
  have hc := (h.getCache addr locked).1
  rwa [hg] at hc

theorem Coherent.store (h : Coherent z m.cache) (addr : Nat) : Coherent z (Machine.store z m addr).cache := by
  unfold Machine.store
  split
  · rename_i hg; exact h.getCache_none hg
  · rename_i hg; exact (h.getCache_isValid hg).1.markClean

theorem Coherent.invalidate (h : Coherent z m.cache) (addr : Nat) :
    Coherent z (Machine.invalidate z m addr).cache := by
  unfold Machine.invalidate
  split
  · rename_i hg; exact h.getCache_none hg
  · rename_i hg
    obtain ⟨hc, hv, -⟩ := h.getCache_isValid hg
    rw [if_pos hv]; exact hc.drop hv

theorem Coherent.flush (h : Coherent z m.cache) (addr : Nat) : Coherent z (Machine.flush z m addr).cache := by
  unfold Machine.flush
  split
  · rename_i hg; exact h.getCache_none hg
  · rename_i hg
    obtain ⟨hc, hv, -⟩ := h.getCache_isValid hg
    rw [if_pos hv]; exact hc.drop hv

theorem Coherent.readLoop {m : Machine} (h : Coherent z m.cache) (addr : Nat) (buffer : Buffer)
    (pos len : Nat) (locked : Bool) :
    Coherent z (Machine.readLoop z m addr buffer pos len locked).1.cache := by
  induction len using Nat.strong_induction_on generalizing m addr buffer pos with
  | _ len ih =>
      rw [Machine.readLoop]
      split
      · exact h
      · rename_i hlen
        have := lenInBlock_pos addr hlen
        exact ih _ (by omega) (h.getCache addr locked).1 _ _ _

theorem Coherent.write {m : Machine} (h : Coherent z m.cache) (addr : Nat) (value : Buffer)
    (len : Nat) (locked : Bool) : Coherent z (Machine.write z m addr value len locked).cache := by
  induction len using Nat.strong_induction_on generalizing m addr value with
  | _ len ih =>
      rw [Machine.write]
      split
      · exact h
      · rename_i hlen
        have := lenInBlock_pos addr hlen
        refine ih _ (by omega) ?_ _ _
        split
        · rename_i hg
          obtain ⟨hc, hv, -⟩ := h.getCache_isValid hg
          exact (hc.setData _).markModified hv
        · rename_i hg
          have hc := h.getCache_none hg
          exact hc

/-! ## Loops over the ways -/

theorem mem_allWays (p : CacheSet × Way) : p ∈ allWays := by
  unfold allWays
  simp only [List.mem_flatMap, List.mem_map, List.mem_finRange, true_and]
  exact ⟨p.1, p.2, rfl⟩

/-- Only the tables change in the loops of `DoState` and of the instruction cache's `Invalidate`. -/
def SameTags (c c' : Cache) : Prop :=
  c'.data = c.data ∧ c'.addrs = c.addrs ∧ c'.valid = c.valid ∧ c'.modified = c.modified

theorem SameTags.isValid {c c' : Cache} (h : SameTags c c') (s w) : c'.isValid s w = c.isValid s w := by
  simp [Cache.isValid, h.2.2.1]

theorem SameTags.isModified {c c' : Cache} (h : SameTags c c') (s w) :
    c'.isModified s w = c.isModified s w := by simp [Cache.isModified, h.2.2.2]

theorem sameTags_relookup (z : MemorySizes) (c : Cache) (entry p) : SameTags c (relookup z c entry p) := by
  unfold relookup; split <;> exact ⟨rfl, rfl, rfl, rfl⟩

def Holds (z : MemorySizes) (c : Cache) (p : CacheSet × Way) (e : Table × Nat) : Prop :=
  c.isValid p.1 p.2 = true ∧ select z (c.addrs p.1 p.2) = e

theorem SameTags.holds {c c' : Cache} (h : SameTags c c') {p e} : Holds z c' p e ↔ Holds z c p e := by
  simp only [Holds, h.isValid, h.2.1]

theorem SameTags.trans {c c' c'' : Cache} (h : SameTags c c') (h' : SameTags c' c'') : SameTags c c'' :=
  ⟨h'.1.trans h.1, h'.2.1.trans h.2.1, h'.2.2.1.trans h.2.2.1, h'.2.2.2.trans h.2.2.2⟩

theorem relookup_lookup (c : Cache) (entry p e) : (relookup z c entry p).lookup e = entry ∧ Holds z c p e ∨
    (relookup z c entry p).lookup e = c.lookup e ∧ ¬ Holds z c p e := by
  unfold relookup Holds
  by_cases hv : c.isValid p.1 p.2 = true
  · rw [if_pos hv, Cache.lookup_setLookup]
    by_cases he : e = select z (c.addrs p.1 p.2)
    · subst he; simp [hv]
    · simp [he, hv, eq_comm]
  · rw [if_neg hv]; simp [hv]

theorem foldl_relookup_sameTags (z : MemorySizes) (f : CacheSet × Way → Option Way) (l : List (CacheSet × Way)) (c : Cache) :
    SameTags c (l.foldl (fun c p => relookup z c (f p) p) c) := by
  induction l generalizing c with
  | nil => exact ⟨rfl, rfl, rfl, rfl⟩
  | cons p l ih => exact (sameTags_relookup z c (f p) p).trans (ih _)

theorem foldl_clear_lookup (z : MemorySizes) (l : List (CacheSet × Way)) (c : Cache) (e) :
    (l.foldl (fun c p => relookup z c none p) c).lookup e = none ∧ (∃ p ∈ l, Holds z c p e) ∨
    (l.foldl (fun c p => relookup z c none p) c).lookup e = c.lookup e ∧ ∀ p ∈ l, ¬ Holds z c p e := by
  induction l generalizing c with
  | nil => right; simp
  | cons p l ih =>
      have htags := sameTags_relookup z c none p
      simp only [List.foldl_cons, List.mem_cons]
      rcases ih (relookup z c none p) with ⟨h, q, hq, hh⟩ | ⟨h, hl⟩
      · exact Or.inl ⟨h, q, Or.inr hq, htags.holds.mp hh⟩
      · rcases relookup_lookup c none p e with ⟨hp, hh⟩ | ⟨hp, hn⟩
        · exact Or.inl ⟨h.trans hp, p, Or.inl rfl, hh⟩
        · right
          refine ⟨h.trans hp, ?_⟩
          rintro q (rfl | hq)
          · exact hn
          · intro hh; exact hl q hq (htags.holds.mpr hh)

theorem Coherent.foldl_clear (h : Coherent z c) {l : List (CacheSet × Way)} (hl : ∀ p, p ∈ l) (e) :
    (l.foldl (fun c p => relookup z c none p) c).lookup e = none := by
  rcases foldl_clear_lookup z l c e with ⟨he, -⟩ | ⟨he, hn⟩
  · exact he
  · rw [he]
    cases hw : c.lookup e with
    | none => rfl
    | some w => exact absurd ((h.lookup_iff e w).mp hw) (hn (lineSet e.2, w) (hl _))

theorem foldl_recompute_lookup {c₀ : Cache}
    (huniq : ∀ {p q e}, Holds z c₀ p e → Holds z c₀ q e → p = q) (l : List (CacheSet × Way))
    {c : Cache} (htags : SameTags c₀ c)
    (hin : ∀ {e w}, c.lookup e = some w → ∃ set, Holds z c₀ (set, w) e) (e w) :
    (l.foldl (fun c p => relookup z c (some p.2) p) c).lookup e = some w ↔
      c.lookup e = some w ∨ ∃ set, (set, w) ∈ l ∧ Holds z c₀ (set, w) e := by
  induction l generalizing c with
  | nil => simp
  | cons p l ih =>
      simp only [List.foldl_cons]
      have htags' := htags.trans (sameTags_relookup z c (some p.2) p)
      have hstep : ∀ {e w}, (relookup z c (some p.2) p).lookup e = some w ↔
          c.lookup e = some w ∨ p.2 = w ∧ Holds z c₀ p e := by
        intro e w
        rcases relookup_lookup c (some p.2) p e with ⟨hp, hh⟩ | ⟨hp, hn⟩
        · have hh₀ := htags.holds.mp hh
          rw [hp, Option.some.injEq]
          constructor
          · intro hw; exact Or.inr ⟨hw, hh₀⟩
          · rintro (hc | ⟨hw, -⟩)
            · obtain ⟨set, hs⟩ := hin hc
              rw [huniq hh₀ hs]
            · exact hw
        · have hn₀ : ¬ Holds z c₀ p e := fun hh => hn (htags.holds.mpr hh)
          rw [hp]; simp [hn₀]
      rw [ih htags' (by
        intro e w hl
        rcases hstep.mp hl with hc | ⟨rfl, hh⟩
        · exact hin hc
        · exact ⟨p.1, hh⟩), hstep]
      constructor
      · rintro ((hc | ⟨rfl, hh⟩) | ⟨set, hmem, hh⟩)
        · exact Or.inl hc
        · exact Or.inr ⟨p.1, List.mem_cons_self .., hh⟩
        · exact Or.inr ⟨set, List.mem_cons_of_mem _ hmem, hh⟩
      · rintro (hc | ⟨set, hmem, hh⟩)
        · exact Or.inl (Or.inl hc)
        · rcases List.mem_cons.mp hmem with rfl | hmem
          · exact Or.inl (Or.inr ⟨rfl, hh⟩)
          · exact Or.inr ⟨set, hmem, hh⟩

theorem Coherent.holds_iff (h : Coherent z c) {set w e} :
    Holds z c (set, w) e ↔ set = lineSet e.2 ∧ Holds z c (lineSet e.2, w) e := by
  constructor
  · rintro ⟨hv, rfl⟩
    have hset : set = lineSet (select z (c.addrs set w)).2 := by
      rw [lineSet_select, h.setOf_addrs set w hv]
    exact ⟨hset, by rw [← hset]; exact ⟨hv, rfl⟩⟩
  · rintro ⟨rfl, hh⟩; exact hh

theorem Coherent.recompute (h : Coherent z c) {l : List (CacheSet × Way)} (hl : ∀ p, p ∈ l)
    {t : Table × Nat → Option Way} (ht : ∀ e, t e = none) :
    Coherent z (l.foldl (fun c p => relookup z c (some p.2) p) { c with lookup := t }) := by
  let loaded : Cache := { c with lookup := t }
  have htags := foldl_relookup_sameTags z (fun p => some p.2) l loaded
  have huniq : ∀ {p q e}, Holds z loaded p e → Holds z loaded q e → p = q := by
    rintro ⟨s, w⟩ ⟨s', w'⟩ e hp hq
    obtain ⟨rfl, hp'⟩ := h.holds_iff.mp hp
    obtain ⟨rfl, hq'⟩ := h.holds_iff.mp hq
    exact Prod.ext rfl (h.way_unique hp'.1 hq'.1 (hp'.2.trans hq'.2.symm))
  have hempty : ∀ e, loaded.lookup e = none := ht
  have hlookup := foldl_recompute_lookup huniq l ⟨rfl, rfl, rfl, rfl⟩
    (fun {e w} hw => by rw [hempty e] at hw; cases hw)
  refine h.congr htags.isValid htags.2.1 ?_ ?_
  · funext e
    apply Option.ext
    intro w
    rw [hlookup e w, hempty e, h.lookup_iff]
    simp only [reduceCtorEq, hl, true_and, false_or]
    constructor
    · rintro ⟨set, hh⟩; exact (h.holds_iff.mp hh).2
    · intro hh; exact ⟨_, hh⟩
  · intro s w hm
    exact h.isValid_of_isModified s w ((htags.isModified s w).symm.trans hm)

theorem Coherent.doStateRead (h : Coherent z c) {saved : Cache} (hsaved : Coherent z saved) :
    Coherent z (Machine.doStateRead z c saved) := by
  have hclear := h.foldl_clear mem_allWays
  unfold Machine.doStateRead
  revert hclear
  generalize allWays.foldl (fun c p => relookup z c none p) c = cleared
  intro hclear
  exact hsaved.recompute mem_allWays hclear

theorem Coherent.icacheInvalidate (h : Coherent z c) (addr : Nat) :
    Coherent z (Machine.icacheInvalidate z c addr) := by
  unfold Machine.icacheInvalidate
  simp only
  rw [← List.foldl_map (f := fun w => (setOf addr, w)) (g := fun c p => relookup z c none p)]
  have hways : ∀ p : CacheSet × Way, p ∈ (List.finRange 8).map (fun w => (setOf addr, w)) ↔
      p.1 = setOf addr := by
    rintro ⟨s, w⟩
    simp [eq_comm]
  revert hways
  generalize (List.finRange 8).map (fun w => (setOf addr, w)) = ways
  intro hways
  have htags := foldl_relookup_sameTags z (fun _ => none) ways c
  have hlookup := foldl_clear_lookup z ways c
  revert htags hlookup
  generalize ways.foldl (fun c p => relookup z c none p) c = cleared
  intro htags hlookup
  have hvalid : ∀ s w, Cache.isValid { cleared with
      valid := Function.update cleared.valid (setOf addr) 0#8
      modified := Function.update cleared.modified (setOf addr) 0#8 } s w =
      (c.isValid s w && decide (s ≠ setOf addr)) := by
    intro s w
    by_cases hs : s = setOf addr
    · subst hs; simp [Cache.isValid]
    · simp [Cache.isValid, hs, htags.2.2.1]
  have hmodified : ∀ s w, Cache.isModified { cleared with
      valid := Function.update cleared.valid (setOf addr) 0#8
      modified := Function.update cleared.modified (setOf addr) 0#8 } s w =
      (c.isModified s w && decide (s ≠ setOf addr)) := by
    intro s w
    by_cases hs : s = setOf addr
    · subst hs; simp [Cache.isModified]
    · simp [Cache.isModified, hs, htags.2.2.2]
  refine ⟨?_, ?_, ?_, ?_⟩
  · intro e w
    rw [hvalid]
    simp only [htags.2.1, Bool.and_eq_true, decide_eq_true_eq]
    rcases hlookup e with ⟨hn, p, hp, hh⟩ | ⟨he, hn⟩
    · -- the entry belonged to the set that is forgotten
      have hset := (h.holds_iff.mp hh).1
      rw [(hways p).mp hp] at hset
      rw [hn, ← hset]; simp
    · rw [he, h.lookup_iff]
      constructor
      · intro hh
        refine ⟨⟨hh.1, ?_⟩, hh.2⟩
        intro hset
        exact hn (lineSet e.2, w) ((hways _).mpr hset) hh
      · rintro ⟨⟨hv, -⟩, hs⟩; exact ⟨hv, hs⟩
  · intro s w hs
    rw [hvalid, Bool.and_eq_true] at hs
    simpa only [htags.2.1] using h.setOf_addrs s w hs.1
  · intro s w hs
    rw [hvalid, Bool.and_eq_true] at hs
    simpa only [htags.2.1] using h.addrs_mod s w hs.1
  · intro s w hs
    rw [hmodified, Bool.and_eq_true] at hs
    rw [hvalid, Bool.and_eq_true]
    exact ⟨h.isValid_of_isModified s w hs.1, hs.2⟩

end Karphin.PPCCache
