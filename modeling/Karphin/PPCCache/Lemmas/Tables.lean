import Karphin.PPCCache.Defs

/-!
# Way masks, table entries and physical addresses

The lookup table entry of an address fixes its set, and for an address that memory backs it fixes the
32 bytes of memory behind the line.
-/

namespace Karphin.PPCCache

open Karphin.Common

/-! ## Way masks -/

@[simp] theorem testWay_setWay (m : BitVec 8) (w w' : Way) :
    testWay (setWay m w) w' = (testWay m w' || decide (w' = w)) := by
  have hw := w'.isLt
  simp [testWay, setWay, Fin.ext_iff, eq_comm]

@[simp] theorem testWay_clearWay (m : BitVec 8) (w w' : Way) :
    testWay (clearWay m w) w' = (testWay m w' && decide (w' ≠ w)) := by
  have hw := w'.isLt
  simp [testWay, clearWay, Fin.ext_iff, eq_comm]

@[simp] theorem testWay_zero (w : Way) : testWay 0#8 w = false := by simp [testWay]

/-! ## Addresses and lines -/

@[simp] theorem lineAddr_lineAddr (a : Nat) : lineAddr (lineAddr a) = lineAddr a := by
  unfold lineAddr; omega

@[simp] theorem setOf_lineAddr (a : Nat) : setOf (lineAddr a) = setOf a := by
  simp only [setOf, lineAddr, Fin.mk.injEq]; omega

theorem lineAddr_mod (a : Nat) : lineAddr a % 32 = 0 := by unfold lineAddr; omega

theorem and_bit_ne_zero (a k : Nat) : a &&& 2 ^ k ≠ 0 ↔ a / 2 ^ k % 2 = 1 := by
  rw [Nat.and_two_pow, Nat.testBit_eq_decide_div_mod_eq]
  have := Nat.two_pow_pos k
  by_cases h : a / 2 ^ k % 2 = 1 <;> simp [h]

theorem vmemBit (a : Nat) : a &&& CACHE_VMEM_BIT ≠ 0 ↔ a / 0x20000000 % 2 = 1 := and_bit_ne_zero a 29

theorem exramBit (a : Nat) : a &&& CACHE_EXRAM_BIT ≠ 0 ↔ a / 0x10000000 % 2 = 1 := and_bit_ne_zero a 28

/-! ## Region sizes -/

theorem size_spec {v : Nat} (hge : 0x1000 ≤ v) (hle : v ≤ 0x10000000) :
    ∃ k, 12 ≤ k ∧ k ≤ 28 ∧ nextPowerOf2 v = 2 ^ k ∧ v ≤ 2 ^ k := by
  obtain ⟨k, hk, hv, hmin⟩ := nextPowerOf2_spec (by omega : 0 < v) (by omega)
  refine ⟨k, ?_, ?_, hk, hv⟩
  · exact (Nat.pow_le_pow_iff_right (by decide)).mp (show 2 ^ 12 ≤ 2 ^ k by omega)
  · have := (Nat.pow_lt_pow_iff_right (by decide)).mp (show 2 ^ k < 2 ^ 29 by omega)
    omega

theorem maskLine {k : Nat} (hk : 12 ≤ k) (a : Nat) :
    (a &&& (2 ^ k - 1)) >>> 5 = a / 32 % 2 ^ (k - 5) := by
  rw [Nat.and_two_pow_sub_one_eq_mod, Nat.shiftRight_eq_div_pow]
  have : (2 : Nat) ^ k = 2 ^ 5 * 2 ^ (k - 5) := by rw [← Nat.pow_add]; congr 1; omega
  rw [this, Nat.mod_mul_right_div_self]; rfl

theorem mod_lines_mod {k : Nat} (hk : 12 ≤ k) (n : Nat) : n % 2 ^ (k - 5) % 128 = n % 128 := by
  apply Nat.mod_mod_of_dvd
  have : (2 : Nat) ^ (k - 5) = 2 ^ 7 * 2 ^ (k - 12) := by rw [← Nat.pow_add]; congr 1; omega
  rw [this]; exact Nat.dvd_mul_right _ _

/-! ## Table entries -/

theorem select_spec (z : MemorySizes) : ∃ kr ke, 12 ≤ kr ∧ kr ≤ 28 ∧ 12 ≤ ke ∧ ke ≤ 28 ∧
    z.ramSizeReal ≤ 2 ^ kr ∧ z.exRamSizeReal ≤ 2 ^ ke ∧ z.exRamMask = 2 ^ ke - 1 ∧
    ∀ a, select z a =
      if a / 0x20000000 % 2 = 1 then (.vmem, a / 32 % 2 ^ 20)
      else if a / 0x10000000 % 2 = 1 then (.ex, a / 32 % 2 ^ (ke - 5))
      else (.ram, a / 32 % 2 ^ (kr - 5)) := by
  obtain ⟨kr, hr, hr', hkr, hvr⟩ := size_spec z.ram_ge z.ram_le
  obtain ⟨ke, he, he', hke, hve⟩ := size_spec z.exRam_ge z.exRam_le
  have hme : z.exRamMask = 2 ^ ke - 1 := by rw [MemorySizes.exRamMask, MemorySizes.exRamSize, hke]
  refine ⟨kr, ke, hr, hr', he, he', hvr, hve, hme, ?_⟩
  intro a
  have hmr : z.ramMask = 2 ^ kr - 1 := by rw [MemorySizes.ramMask, MemorySizes.ramSize, hkr]
  have hmv : z.fakeVMemMask = 2 ^ 25 - 1 := rfl
  unfold select
  simp only [vmemBit, exramBit, hmr, hme, hmv, maskLine hr, maskLine he,
    maskLine (show 12 ≤ 25 by decide)]

theorem select_lineAddr (z : MemorySizes) (a : Nat) : select z (lineAddr a) = select z a := by
  obtain ⟨kr, ke, -, -, -, -, -, -, -, h⟩ := select_spec z
  have h32 : lineAddr a / 32 = a / 32 := by unfold lineAddr; omega
  have h29 : lineAddr a / 0x20000000 = a / 0x20000000 := by unfold lineAddr; omega
  have h28 : lineAddr a / 0x10000000 = a / 0x10000000 := by unfold lineAddr; omega
  rw [h, h, h32, h29, h28]

theorem lineSet_select (z : MemorySizes) (a : Nat) : lineSet (select z a).2 = setOf a := by
  obtain ⟨kr, ke, hr, -, he, -, -, -, -, h⟩ := select_spec z
  rw [h]
  simp only [lineSet, setOf, Fin.mk.injEq]
  split
  · exact mod_lines_mod (show 12 ≤ 25 by decide) _
  · split
    · exact mod_lines_mod he _
    · exact mod_lines_mod hr _

theorem setOf_eq_of_select {z : MemorySizes} {a b : Nat} (h : select z a = select z b) :
    setOf a = setOf b := by
  rw [← lineSet_select z a, ← lineSet_select z b, h]

theorem select_lt (z : MemorySizes) (a : Nat) : (select z a).2 <
    match (select z a).1 with
    | .ram => z.ramSize >>> 5
    | .ex => z.exRamSize >>> 5
    | .vmem => z.fakeVMemSize >>> 5 := by
  have bound : ∀ k, 12 ≤ k → (a &&& (2 ^ k - 1)) >>> 5 < 2 ^ k >>> 5 := by
    intro k hk
    rw [maskLine hk, Nat.shiftRight_eq_div_pow, Nat.pow_div (by omega) (by decide)]
    exact Nat.mod_lt _ (Nat.two_pow_pos _)
  obtain ⟨kr, hr, -, hkr, -⟩ := size_spec z.ram_ge z.ram_le
  obtain ⟨ke, he, -, hke, -⟩ := size_spec z.exRam_ge z.exRam_le
  unfold select
  split
  · exact bound 25 (by decide)
  · split
    · simp only [MemorySizes.exRamMask, MemorySizes.exRamSize, hke]; exact bound ke he
    · simp only [MemorySizes.ramMask, MemorySizes.ramSize, hkr]; exact bound kr hr

/-! ## Physical addresses -/

def mirror (a : Nat) : Nat := a % 2 ^ 30

theorem getSpanForAddress_spec (z : MemorySizes) (a : Nat) :
    (∃ n, getSpanForAddress z a = some (mirror a, n) ∧ InMemory z (mirror a) ∧
      32 ≤ mirror a % 32 + n) ∨
    getSpanForAddress z a = none ∧ ¬ InMemory z (mirror a) := by
  obtain ⟨kr, ke, -, -, he, he', -, hve, hme, -⟩ := select_spec z
  have hand : a &&& 0x3FFFFFFF = mirror a := Nat.and_two_pow_sub_one_eq_mod a 30
  have hlt : mirror a < 2 ^ 30 := Nat.mod_lt _ (by decide)
  have hram := z.ram_le
  have hramd := z.ram_dvd
  have hexd := z.exRam_dvd
  have hexl := z.exRam_le
  unfold getSpanForAddress
  rw [hand]
  simp only
  by_cases h1 : mirror a < z.ramSizeReal
  · left
    refine ⟨z.ramSizeReal - mirror a, by simp [h1], Or.inl h1, by omega⟩
  · have hand' : mirror a &&& 0x0fffffff = mirror a % 2 ^ 28 := Nat.and_two_pow_sub_one_eq_mod _ 28
    have hmask : mirror a &&& z.exRamMask = mirror a % 2 ^ ke := by
      rw [hme]; exact Nat.and_two_pow_sub_one_eq_mod _ ke
    rw [if_neg h1, hand', hmask, Nat.shiftRight_eq_div_pow]
    by_cases h2 : z.exRam ∧ mirror a / 2 ^ 28 = 1 ∧ mirror a % 2 ^ 28 < z.exRamSizeReal
    · obtain ⟨hx, hq, hr⟩ := h2
      -- the offset in EXRAM is below its size, so masking with the larger power of two keeps it
      have hmod : mirror a % 2 ^ ke = mirror a - 0x10000000 := by
        have hdvd : mirror a % 2 ^ 28 % 2 ^ ke = mirror a % 2 ^ ke :=
          Nat.mod_mod_of_dvd _ (Nat.pow_dvd_pow 2 he')
        rw [← hdvd, Nat.mod_eq_of_lt (by omega)]
        omega
      left
      refine ⟨z.exRamSizeReal - (mirror a - 0x10000000), ?_, Or.inr ⟨hx, by omega, by omega⟩, by omega⟩
      rw [if_pos ⟨hx, hq, hr⟩, hmod, show 0x10000000 + (mirror a - 0x10000000) = mirror a by omega]
    · right
      refine ⟨if_neg h2, ?_⟩
      rintro (h | ⟨hx, hlo, hhi⟩)
      · exact h1 h
      · exact h2 ⟨hx, by omega, by omega⟩

theorem physical_eq_some {z : MemorySizes} {a p : Nat} :
    physical z a = some p ↔ p = mirror a ∧ InMemory z (mirror a) := by
  unfold physical
  rcases getSpanForAddress_spec z a with ⟨n, h, hin, -⟩ | ⟨h, hout⟩
  · simp [h, hin, eq_comm]
  · simp [h, hout]

theorem backed_iff {z : MemorySizes} {a : Nat} : Backed z a ↔ InMemory z (mirror a) := by
  unfold Backed
  rw [Option.isSome_iff_exists]
  constructor
  · rintro ⟨p, hp⟩; exact (physical_eq_some.mp hp).2
  · intro h; exact ⟨_, physical_eq_some.mpr ⟨rfl, h⟩⟩

theorem getPointerForRange_backed {z : MemorySizes} {a size : Nat} (h : Backed z a)
    (hsize : a % 32 + size ≤ 32) : getPointerForRange z a size = some (mirror a) := by
  have hm : mirror a % 32 = a % 32 := by unfold mirror; omega
  rcases getSpanForAddress_spec z a with ⟨n, hs, -, hn⟩ | ⟨-, hout⟩
  · simp only [getPointerForRange, hs]
    rw [if_neg (by omega)]
  · exact absurd (backed_iff.mp h) hout

theorem copyFromEmu_backed {z : MemorySizes} {a size : Nat} (h : Backed z a)
    (hsize : a % 32 + size ≤ 32) (mem : Memory) (data : Buffer) (i : Nat) :
    copyFromEmu z mem data a size i = if i < size then mem (mirror a + i) else data i := by
  unfold copyFromEmu
  split
  · rw [if_neg (by omega)]
  · rw [getPointerForRange_backed h hsize]

theorem copyToEmu_backed {z : MemorySizes} {a size : Nat} (h : Backed z a)
    (hsize : a % 32 + size ≤ 32) (mem : Memory) (data : Buffer) (p : Nat) :
    copyToEmu z mem a data size p =
      if mirror a ≤ p ∧ p < mirror a + size then data (p - mirror a) else mem p := by
  unfold copyToEmu
  split
  · rw [if_neg (by omega)]
  · rw [getPointerForRange_backed h hsize]

theorem select_mirror (z : MemorySizes) (a : Nat) : select z (mirror a) = select z a := by
  obtain ⟨kr, ke, hr, hr', he, he', -, -, -, h⟩ := select_spec z
  have h29 : mirror a / 0x20000000 % 2 = a / 0x20000000 % 2 := by unfold mirror; omega
  have h28 : mirror a / 0x10000000 % 2 = a / 0x10000000 % 2 := by unfold mirror; omega
  have h32 : ∀ k ≤ 25, mirror a / 32 % 2 ^ k = a / 32 % 2 ^ k := by
    intro k hk
    have : mirror a / 32 = a / 32 % 2 ^ 25 := by unfold mirror; omega
    rw [this]; exact Nat.mod_mod_of_dvd _ (Nat.pow_dvd_pow 2 hk)
  rw [h, h, h29, h28, h32 20 (by decide), h32 (ke - 5) (by omega), h32 (kr - 5) (by omega)]

theorem line_eq_of_select {z : MemorySizes} {p q : Nat} (hp : InMemory z p) (hq : InMemory z q)
    (h : select z p = select z q) : p / 32 = q / 32 := by
  obtain ⟨kr, ke, hr, hr', he, he', hvr, hve, -, hs⟩ := select_spec z
  have hram := z.ram_le
  have hex := z.exRam_le
  have hk : ∀ k, 12 ≤ k → (2 : Nat) ^ k = 32 * 2 ^ (k - 5) := by
    intro k hk
    rw [show (32 : Nat) = 2 ^ 5 by decide, ← Nat.pow_add]; congr 1; omega
  have hkr := hk kr hr
  have hke := hk ke he
  have hdvd : (2 : Nat) ^ 23 = 2 ^ (ke - 5) * 2 ^ (28 - ke) := by rw [← Nat.pow_add]; congr 1; omega
  have exLine : ∀ x, 0x10000000 ≤ x → x < 0x10000000 + z.exRamSizeReal →
      x / 32 % 2 ^ (ke - 5) = x / 32 - 2 ^ 23 := by
    intro x hlo hhi
    have h1 : x / 32 = (x / 32 - 2 ^ 23) + 2 ^ (ke - 5) * 2 ^ (28 - ke) := by omega
    rw [h1, Nat.add_mul_mod_self_left, Nat.mod_eq_of_lt (by omega)]
    omega
  have ramLine : ∀ x, x < z.ramSizeReal → x / 32 % 2 ^ (kr - 5) = x / 32 := by
    intro x hx
    exact Nat.mod_eq_of_lt (by omega)
  rw [hs, hs] at h
  rcases hp with hp | ⟨-, hp1, hp2⟩ <;> rcases hq with hq | ⟨-, hq1, hq2⟩
  · rw [if_neg (by omega), if_neg (by omega), if_neg (by omega), if_neg (by omega),
      ramLine p hp, ramLine q hq] at h
    exact (Prod.mk.inj h).2
  · rw [if_neg (by omega), if_neg (by omega), if_neg (by omega), if_pos (by omega)] at h
    cases (Prod.mk.inj h).1
  · rw [if_neg (by omega), if_pos (by omega), if_neg (by omega), if_neg (by omega)] at h
    cases (Prod.mk.inj h).1
  · rw [if_neg (by omega), if_pos (by omega), if_neg (by omega), if_pos (by omega),
      exLine p hp1 hp2, exLine q hq1 hq2] at h
    have := (Prod.mk.inj h).2
    omega

theorem InMemory.line {z : MemorySizes} {p q : Nat} (hp : InMemory z p) (h : p / 32 = q / 32) :
    InMemory z q := by
  have hramd := z.ram_dvd
  have hexd := z.exRam_dvd
  rcases hp with hp | ⟨hx, hp1, hp2⟩
  · left; omega
  · right; exact ⟨hx, by omega, by omega⟩

end Karphin.PPCCache

/-!
# The lookup tables are the inverse of the tags

`Coherent` ties the lookup tables, the tags and the valid and modified bits together. The two lemmas
`Coherent.fill` and `Coherent.drop` cover all operations: a way is given a new line, or forgets its line.
-/

namespace Karphin.PPCCache

/-! ## Fields after an update -/

namespace Cache

variable (c : Cache) (set s : CacheSet) (way w : Way)

@[simp] theorem isValid_setLookup (e o) : (c.setLookup e o).isValid s w = c.isValid s w := rfl
@[simp] theorem isValid_setData (b) : (c.setData set way b).isValid s w = c.isValid s w := rfl
@[simp] theorem isValid_setAddr (a) : (c.setAddr set way a).isValid s w = c.isValid s w := rfl
@[simp] theorem isValid_markModified : (c.markModified set way).isValid s w = c.isValid s w := rfl
@[simp] theorem isValid_markClean : (c.markClean set way).isValid s w = c.isValid s w := rfl
@[simp] theorem isValid_updatePlru : (c.updatePlru set way).isValid s w = c.isValid s w := rfl

@[simp] theorem isValid_markValid :
    (c.markValid set way).isValid s w = (c.isValid s w || decide (s = set ∧ w = way)) := by
  by_cases h : s = set
  · subst h; simp [isValid, markValid]
  · simp [isValid, markValid, h]

@[simp] theorem isValid_markInvalid :
    (c.markInvalid set way).isValid s w = (c.isValid s w && decide (¬(s = set ∧ w = way))) := by
  by_cases h : s = set
  · subst h; simp [isValid, markInvalid]
  · simp [isValid, markInvalid, h]

@[simp] theorem isModified_setLookup (e o) : (c.setLookup e o).isModified s w = c.isModified s w := rfl
@[simp] theorem isModified_setData (b) : (c.setData set way b).isModified s w = c.isModified s w := rfl
@[simp] theorem isModified_setAddr (a) : (c.setAddr set way a).isModified s w = c.isModified s w := rfl
@[simp] theorem isModified_markValid : (c.markValid set way).isModified s w = c.isModified s w := rfl
@[simp] theorem isModified_markInvalid : (c.markInvalid set way).isModified s w = c.isModified s w := rfl
@[simp] theorem isModified_updatePlru : (c.updatePlru set way).isModified s w = c.isModified s w := rfl

@[simp] theorem isModified_markModified :
    (c.markModified set way).isModified s w = (c.isModified s w || decide (s = set ∧ w = way)) := by
  by_cases h : s = set
  · subst h; simp [isModified, markModified]
  · simp [isModified, markModified, h]

@[simp] theorem isModified_markClean :
    (c.markClean set way).isModified s w = (c.isModified s w && decide (¬(s = set ∧ w = way))) := by
  by_cases h : s = set
  · subst h; simp [isModified, markClean]
  · simp [isModified, markClean, h]

@[simp] theorem addrs_setLookup (e o) : (c.setLookup e o).addrs = c.addrs := rfl
@[simp] theorem addrs_setData (b) : (c.setData set way b).addrs = c.addrs := rfl
@[simp] theorem addrs_markValid : (c.markValid set way).addrs = c.addrs := rfl
@[simp] theorem addrs_markInvalid : (c.markInvalid set way).addrs = c.addrs := rfl
@[simp] theorem addrs_markModified : (c.markModified set way).addrs = c.addrs := rfl
@[simp] theorem addrs_markClean : (c.markClean set way).addrs = c.addrs := rfl
@[simp] theorem addrs_updatePlru : (c.updatePlru set way).addrs = c.addrs := rfl

@[simp] theorem addrs_setAddr (a) :
    (c.setAddr set way a).addrs s w = if s = set ∧ w = way then a else c.addrs s w := by
  by_cases h : s = set
  · subst h; simp [setAddr, Function.update_apply]
  · simp [setAddr, h]

@[simp] theorem data_setLookup (e o) : (c.setLookup e o).data = c.data := rfl
@[simp] theorem data_setAddr (a) : (c.setAddr set way a).data = c.data := rfl
@[simp] theorem data_markValid : (c.markValid set way).data = c.data := rfl
@[simp] theorem data_markInvalid : (c.markInvalid set way).data = c.data := rfl
@[simp] theorem data_markModified : (c.markModified set way).data = c.data := rfl
@[simp] theorem data_markClean : (c.markClean set way).data = c.data := rfl
@[simp] theorem data_updatePlru : (c.updatePlru set way).data = c.data := rfl

@[simp] theorem data_setData (b) :
    (c.setData set way b).data s w = if s = set ∧ w = way then b else c.data s w := by
  by_cases h : s = set
  · subst h; simp [setData, Function.update_apply]
  · simp [setData, h]

@[simp] theorem lookup_setData (b) : (c.setData set way b).lookup = c.lookup := rfl
@[simp] theorem lookup_setAddr (a) : (c.setAddr set way a).lookup = c.lookup := rfl
@[simp] theorem lookup_markValid : (c.markValid set way).lookup = c.lookup := rfl
@[simp] theorem lookup_markInvalid : (c.markInvalid set way).lookup = c.lookup := rfl
@[simp] theorem lookup_markModified : (c.markModified set way).lookup = c.lookup := rfl
@[simp] theorem lookup_markClean : (c.markClean set way).lookup = c.lookup := rfl
@[simp] theorem lookup_updatePlru : (c.updatePlru set way).lookup = c.lookup := rfl

@[simp] theorem lookup_setLookup (e o e') :
    (c.setLookup e o).lookup e' = if e' = e then o else c.lookup e' := by
  simp [setLookup, Function.update_apply]

end Cache

/-! ## The invariant -/

/-- The lookup tables are the inverse of the tags, tags are line addresses of their own set, and only
valid ways are modified. -/
structure Coherent (z : MemorySizes) (c : Cache) : Prop where
  lookup_iff : ∀ e w, c.lookup e = some w ↔
    c.isValid (lineSet e.2) w = true ∧ select z (c.addrs (lineSet e.2) w) = e
  setOf_addrs : ∀ set w, c.isValid set w = true → setOf (c.addrs set w) = set
  addrs_mod : ∀ set w, c.isValid set w = true → c.addrs set w % 32 = 0
  isValid_of_isModified : ∀ set w, c.isModified set w = true → c.isValid set w = true

variable {z : MemorySizes} {c : Cache} {set : CacheSet} {way : Way}

theorem Coherent.lookup_select (h : Coherent z c) {a w} : c.lookup (select z a) = some w ↔
    c.isValid (setOf a) w = true ∧ select z (c.addrs (setOf a) w) = select z a := by
  rw [h.lookup_iff, lineSet_select]

theorem Coherent.lookup_addrs (h : Coherent z c) (hv : c.isValid set way = true) :
    c.lookup (select z (c.addrs set way)) = some way := by
  rw [h.lookup_select, h.setOf_addrs set way hv]
  exact ⟨hv, rfl⟩

theorem Coherent.way_unique (h : Coherent z c) {w w' : Way} (hv : c.isValid set w = true)
    (hv' : c.isValid set w' = true) (he : select z (c.addrs set w) = select z (c.addrs set w')) :
    w = w' := by
  have h1 := h.lookup_addrs hv
  have h2 := h.lookup_addrs hv'
  rw [he, h2] at h1
  exact (Option.some.inj h1).symm

theorem Coherent.of_empty (hv : ∀ set w, c.isValid set w = false)
    (hm : ∀ set w, c.isModified set w = false) (hl : ∀ e, c.lookup e = none) : Coherent z c where
  lookup_iff := by simp [hv, hl]
  setOf_addrs := by simp [hv]
  addrs_mod := by simp [hv]
  isValid_of_isModified := by simp [hm]

theorem Coherent.congr (h : Coherent z c) {c' : Cache} (hv : ∀ s w, c'.isValid s w = c.isValid s w)
    (ha : c'.addrs = c.addrs) (hl : c'.lookup = c.lookup)
    (hm : ∀ s w, c'.isModified s w = true → c.isValid s w = true) : Coherent z c' where
  lookup_iff := by rw [hl, ha]; simpa only [hv] using h.lookup_iff
  setOf_addrs := by rw [ha]; simpa only [hv] using h.setOf_addrs
  addrs_mod := by rw [ha]; simpa only [hv] using h.addrs_mod
  isValid_of_isModified := by simpa only [hv] using hm

/-! ## Giving up a line -/

section dropWay

variable (s : CacheSet) (w : Way)

@[simp] theorem isValid_dropWay : (Machine.dropWay z c set way).isValid s w =
    (c.isValid s w && decide (¬(s = set ∧ w = way))) := by simp [Machine.dropWay]

@[simp] theorem isModified_dropWay : (Machine.dropWay z c set way).isModified s w =
    (c.isModified s w && decide (¬(s = set ∧ w = way))) := by simp [Machine.dropWay]

@[simp] theorem addrs_dropWay : (Machine.dropWay z c set way).addrs = c.addrs := rfl

@[simp] theorem data_dropWay : (Machine.dropWay z c set way).data = c.data := rfl

@[simp] theorem lookup_dropWay (e) : (Machine.dropWay z c set way).lookup e =
    if e = select z (c.addrs set way) then none else c.lookup e := by simp [Machine.dropWay]

end dropWay

theorem Coherent.drop (h : Coherent z c) (hv : c.isValid set way = true) :
    Coherent z (Machine.dropWay z c set way) where
  lookup_iff := by
    intro e w
    rw [lookup_dropWay, addrs_dropWay, isValid_dropWay]
    by_cases he : e = select z (c.addrs set way)
    · -- the entry is cleared; no other way of the set holds this line
      subst he
      rw [if_pos rfl, lineSet_select, h.setOf_addrs _ _ hv]
      simp only [reduceCtorEq, Bool.and_eq_true, decide_eq_true_eq, true_and, false_iff, not_and]
      rintro ⟨hv', hne⟩ hs
      exact hne (h.way_unique hv' hv hs)
    · rw [if_neg he, h.lookup_iff e w]
      simp only [Bool.and_eq_true, decide_eq_true_eq]
      constructor
      · rintro ⟨hv', hs⟩
        refine ⟨⟨hv', ?_⟩, hs⟩
        rintro ⟨hset, rfl⟩
        rw [hset] at hs
        exact he hs.symm
      · rintro ⟨⟨hv', -⟩, hs⟩
        exact ⟨hv', hs⟩
  setOf_addrs := by
    intro s w hs
    simp only [isValid_dropWay, Bool.and_eq_true] at hs
    exact h.setOf_addrs s w hs.1
  addrs_mod := by
    intro s w hs
    simp only [isValid_dropWay, Bool.and_eq_true] at hs
    exact h.addrs_mod s w hs.1
  isValid_of_isModified := by
    intro s w hs
    simp only [isModified_dropWay, Bool.and_eq_true] at hs
    simp only [isValid_dropWay, Bool.and_eq_true]
    exact ⟨h.isValid_of_isModified s w hs.1, hs.2⟩

/-! ## Taking a line -/

/-- `GetCache` on a miss: empty the way, then fill it. -/
def fill (z : MemorySizes) (m : Machine) (addr : Nat) (set : CacheSet) (way : Way) : Machine :=
  Machine.load z (Machine.evict z m set way) addr set way

section fill

variable {m : Machine} {addr : Nat} (s : CacheSet) (w : Way)

theorem evict_cache : (Machine.evict z m set way).cache =
    if m.cache.isValid set way then m.cache.setLookup (select z (m.cache.addrs set way)) none
    else m.cache := by
  unfold Machine.evict; split <;> rfl

theorem evict_mem : (Machine.evict z m set way).mem = Machine.writeBack z m.cache m.mem set way := by
  unfold Machine.evict Machine.writeBack
  cases m.cache.isValid set way <;> cases m.cache.isModified set way <;> rfl

@[simp] theorem isValid_fill : (fill z m addr set way).cache.isValid s w =
    (m.cache.isValid s w || decide (s = set ∧ w = way)) := by
  simp only [fill, Machine.load, evict_cache]; split <;> simp

@[simp] theorem isModified_fill : (fill z m addr set way).cache.isModified s w =
    (m.cache.isModified s w && decide (¬(s = set ∧ w = way))) := by
  simp only [fill, Machine.load, evict_cache]; split <;> simp

@[simp] theorem addrs_fill : (fill z m addr set way).cache.addrs s w =
    if s = set ∧ w = way then addr else m.cache.addrs s w := by
  simp only [fill, Machine.load, evict_cache]; split <;> simp

@[simp] theorem data_fill : (fill z m addr set way).cache.data s w =
    if s = set ∧ w = way then
      copyFromEmu z (Machine.writeBack z m.cache m.mem set way) (m.cache.data set way) (lineAddr addr) 32
    else m.cache.data s w := by
  simp only [fill, Machine.load, evict_cache, evict_mem]; split <;> simp

@[simp] theorem lookup_fill (e) : (fill z m addr set way).cache.lookup e =
    if e = select z addr then some way
    else if m.cache.isValid set way = true ∧ e = select z (m.cache.addrs set way) then none
    else m.cache.lookup e := by
  simp only [fill, Machine.load, evict_cache]
  by_cases hv : m.cache.isValid set way = true <;> simp [hv]

@[simp] theorem mem_fill : (fill z m addr set way).mem = Machine.writeBack z m.cache m.mem set way := by
  simp only [fill, Machine.load, evict_mem]

end fill

theorem Coherent.fill {m : Machine} {addr : Nat} (h : Coherent z m.cache) (hset : setOf addr = set)
    (hmod : addr % 32 = 0) (hmiss : m.cache.lookup (select z addr) = none) :
    Coherent z (fill z m addr set way).cache where
  lookup_iff := by
    intro e w
    rw [lookup_fill, isValid_fill, addrs_fill]
    have hlookup := h.lookup_iff e w
    simp only [Bool.or_eq_true, decide_eq_true_eq]
    by_cases he : e = select z addr
    · subst he
      rw [if_pos rfl, lineSet_select, hset]
      rw [lineSet_select, hset, hmiss] at hlookup
      by_cases hw : w = way
      · subst hw; simp
      · simp only [hw, and_false, or_false, ↓reduceIte, ← hlookup, Option.some.injEq, reduceCtorEq,
          iff_false]
        exact fun he => hw he.symm
    · rw [if_neg he]
      by_cases hown : lineSet e.2 = set ∧ w = way
      · obtain ⟨hs, rfl⟩ := hown
        rw [hs] at hlookup
        simp only [hs, and_self, or_true, ↓reduceIte, true_and]
        constructor
        · intro hl
          split at hl
          · cases hl
          · rename_i hne
            obtain ⟨hv, hsel⟩ := hlookup.mp hl
            exact absurd ⟨hv, hsel.symm⟩ hne
        · intro hs; exact absurd hs.symm he
      · simp only [hown, or_false, ↓reduceIte]
        rw [← hlookup]
        split
        · rename_i hold
          obtain ⟨hv, rfl⟩ := hold
          -- the entry of the evicted line names the evicted way
          rw [h.lookup_addrs hv]
          rw [lineSet_select, h.setOf_addrs _ _ hv] at hown
          simp only [reduceCtorEq, Option.some.injEq, false_iff]
          rintro rfl
          exact hown ⟨rfl, rfl⟩
        · rfl
  setOf_addrs := by
    intro s w hs
    simp only [isValid_fill, Bool.or_eq_true, decide_eq_true_eq] at hs
    rw [addrs_fill]
    split
    · rename_i hown; rw [hown.1, hset]
    · rename_i hown; exact h.setOf_addrs s w (hs.resolve_right hown)
  addrs_mod := by
    intro s w hs
    simp only [isValid_fill, Bool.or_eq_true, decide_eq_true_eq] at hs
    rw [addrs_fill]
    split
    · exact hmod
    · rename_i hown; exact h.addrs_mod s w (hs.resolve_right hown)
  isValid_of_isModified := by
    intro s w hs
    simp only [isModified_fill, Bool.and_eq_true] at hs
    simp [h.isValid_of_isModified s w hs.1]

/-! ## `GetCache` -/

theorem getCache_cases (m : Machine) (addr : Nat) (locked : Bool) :
    (∃ w, m.cache.lookup (select z addr) = some w ∧
      Machine.getCache z m addr locked = (⟨m.cache.updatePlru (setOf addr) w, m.mem⟩, setOf addr, some w)) ∨
    (m.cache.lookup (select z addr) = none ∧ locked = true ∧
      Machine.getCache z m addr locked = (m, setOf addr, none)) ∨
    (∃ w, m.cache.lookup (select z addr) = none ∧ locked = false ∧
      Machine.getCache z m addr locked =
        (⟨(fill z m (lineAddr addr) (setOf addr) w).cache.updatePlru (setOf addr) w,
          (fill z m (lineAddr addr) (setOf addr) w).mem⟩, setOf addr, some w)) := by
  unfold Machine.getCache
  simp only [select_lineAddr, setOf_lineAddr]
  cases hl : m.cache.lookup (select z addr) with
  | some w => left; exact ⟨w, rfl, by simp⟩
  | none =>
      right
      cases locked with
      | true => left; exact ⟨rfl, rfl, rfl⟩
      | false => right; exact ⟨Machine.victim m.cache (setOf addr), rfl, rfl, rfl⟩

theorem Coherent.updatePlru (h : Coherent z c) : Coherent z (c.updatePlru set way) :=
  h.congr (fun _ _ => rfl) rfl rfl h.isValid_of_isModified

theorem Coherent.getCache {m : Machine} (h : Coherent z m.cache) (addr : Nat) (locked : Bool) :
    Coherent z (Machine.getCache z m addr locked).1.cache ∧
    (Machine.getCache z m addr locked).2.1 = setOf addr ∧
    (Machine.getCache z m addr locked).1.cache.lookup (select z addr) =
      (Machine.getCache z m addr locked).2.2 := by
  rcases getCache_cases m addr locked with ⟨w, hl, he⟩ | ⟨hl, -, he⟩ | ⟨w, hl, -, he⟩ <;> rw [he]
  · exact ⟨h.updatePlru, rfl, hl⟩
  · exact ⟨h, rfl, hl⟩
  · have hfill : Coherent z (PPCCache.fill z m (lineAddr addr) (setOf addr) w).cache :=
      h.fill (setOf_lineAddr addr) (lineAddr_mod addr) (by rw [select_lineAddr]; exact hl)
    exact ⟨hfill.updatePlru, rfl, by simp [select_lineAddr]⟩

end Karphin.PPCCache
