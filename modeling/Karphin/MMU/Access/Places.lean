import Karphin.MMU.Access.Defs
import Karphin.PPCCache.Lemmas.Keeping

/-!
# The bytes behind an address

Which byte of RAM, EXRAM or the locked L1 cache a translated address names, and what accesses within a page do to the
bytes.
-/

namespace Karphin.MMU

open Karphin.PPCCache (Buffer InMemory Own mirror select)

inductive Place
  | memory (p : Nat)
  | l1Cache (p : Nat)
  | fakeVMem (p : Nat)
deriving DecidableEq, Repr

namespace Place

def add : Place → Nat → Place
  | memory p, i => memory (p + i)
  | l1Cache p, i => l1Cache (p + i)
  | fakeVMem p, i => fakeVMem (p + i)

def offset : Place → Nat
  | memory p | l1Cache p | fakeVMem p => p

variable {δ : Type} (env : Environment δ)

def Valid : Place → Prop
  | memory p => InMemory env.sizes p
  | l1Cache _ => True
  | fakeVMem _ => True

end Place

variable {δ : Type} (env : Environment δ)

def placeOf (address : U32) : Option Place :=
  if inL1Cache address then some (.l1Cache (address &&& 0x0FFFFFFF).toNat)
  else if inRAM address then
    if ramOffset env address < env.sizes.ramSizeReal then some (.memory (ramOffset env address)) else none
  else if inEXRAM env address then some (.memory (exRamOffset address))
  else none

/-! ## Addresses as numbers -/

theorem toNat_and_high (a : U32) (k : Nat) : (a &&& BitVec.allOnes 32 <<< k).toNat = a.toNat / 2 ^ k * 2 ^ k := by
  have hshift : a &&& BitVec.allOnes 32 <<< k = a >>> k <<< k := by
    apply BitVec.eq_of_getLsbD_eq
    intro i hi
    simp only [BitVec.getLsbD_and, BitVec.getLsbD_shiftLeft, BitVec.getLsbD_ushiftRight, BitVec.getLsbD_allOnes]
    by_cases hk : i < k
    · simp [hk]
    · simp [hk, hi, show i - k < 32 by omega, show k + (i - k) = i by omega]
  rw [hshift, BitVec.toNat_shiftLeft, BitVec.toNat_ushiftRight, Nat.shiftRight_eq_div_pow, Nat.shiftLeft_eq]
  exact Nat.mod_eq_of_lt (lt_of_le_of_lt (Nat.div_mul_le_self _ _) a.isLt)

theorem toNat_and_low (a : U32) : (a &&& 0x0FFFFFFF).toNat = a.toNat % 2 ^ 28 := by
  rw [BitVec.toNat_and]
  exact Nat.and_two_pow_sub_one_eq_mod _ 28

theorem toNat_pageOf (a : U32) : (pageOf a).toNat = a.toNat / 4096 * 4096 := toNat_and_high a 12

theorem inRAM_iff {a : U32} : inRAM a = true ↔ a.toNat < 0x08000000 := by
  rw [inRAM, decide_eq_true_eq, ← BitVec.toNat_inj]
  have hhigh : (a &&& 0xF8000000).toNat = a.toNat / 2 ^ 27 * 2 ^ 27 := toNat_and_high a 27
  have hzero : (0 : U32).toNat = 0 := rfl
  rw [hhigh, hzero]
  omega

theorem device_iff {a : U32} : a &&& 0xF8000000 = 0x08000000 ↔ 0x08000000 ≤ a.toNat ∧ a.toNat < 0x10000000 := by
  rw [← BitVec.toNat_inj]
  have hhigh : (a &&& 0xF8000000).toNat = a.toNat / 2 ^ 27 * 2 ^ 27 := toNat_and_high a 27
  have hvalue : (0x08000000 : U32).toNat = 0x08000000 := rfl
  rw [hhigh, hvalue]
  omega

theorem gatherPipe_device {a : U32} (h : a &&& 0xFFFFF000 = GATHER_PIPE_PHYSICAL_ADDRESS) :
    0x08000000 ≤ a.toNat ∧ a.toNat < 0x10000000 := by
  have hhigh : (a &&& 0xFFFFF000).toNat = a.toNat / 2 ^ 12 * 2 ^ 12 := toNat_and_high a 12
  have hvalue : GATHER_PIPE_PHYSICAL_ADDRESS.toNat = 0x0C008000 := rfl
  rw [h, hvalue] at hhigh
  omega

theorem inL1Cache_iff {a : U32} : inL1Cache a = true ↔ 0xE0000000 ≤ a.toNat ∧ a.toNat < 0xE0040000 := by
  rw [inL1Cache, decide_eq_true_eq, ← BitVec.toNat_inj, BitVec.toNat_ushiftRight, Nat.shiftRight_eq_div_pow,
    L1_CACHE_SIZE]
  have hvalue : (0xE : U32).toNat = 0xE := rfl
  have := a.isLt
  omega

theorem inEXRAM_iff {a : U32} : inEXRAM env a = true ↔ env.sizes.exRam = true ∧ 0x10000000 ≤ a.toNat ∧
    a.toNat < 0x10000000 + env.sizes.exRamSizeReal := by
  have hle := env.sizes.exRam_le
  rw [inEXRAM, decide_eq_true_eq, toNat_and_low, ← BitVec.toNat_inj, BitVec.toNat_ushiftRight,
    Nat.shiftRight_eq_div_pow]
  have hvalue : (0x1 : U32).toNat = 1 := rfl
  have := a.isLt
  refine and_congr_right fun _ => ?_
  omega

theorem ramMask_spec : ∃ k, 12 ≤ k ∧ k ≤ 28 ∧ env.sizes.ramSizeReal ≤ 2 ^ k ∧
    ∀ a, ramOffset env a = a.toNat % 2 ^ k := by
  obtain ⟨k, hk, hk', hsize, hle⟩ := PPCCache.size_spec env.sizes.ram_ge env.sizes.ram_le
  refine ⟨k, hk, hk', hle, fun a => ?_⟩
  rw [ramOffset, PPCCache.MemorySizes.ramMask, PPCCache.MemorySizes.ramSize, hsize]
  exact Nat.and_two_pow_sub_one_eq_mod _ k

theorem ramOffset_lt (a : U32) : ramOffset env a < env.sizes.ramSize := by
  obtain ⟨k, -, -, hsize, -⟩ := PPCCache.size_spec env.sizes.ram_ge env.sizes.ram_le
  rw [ramOffset, PPCCache.MemorySizes.ramMask, PPCCache.MemorySizes.ramSize, hsize, Nat.and_two_pow_sub_one_eq_mod]
  exact Nat.mod_lt _ (Nat.two_pow_pos k)

theorem ramOffset_add {a b : U32} {i : Nat} (hb : b.toNat = a.toNat + i) (hi : a.toNat % 4096 + i < 4096) :
    ramOffset env b = ramOffset env a + i := by
  obtain ⟨k, hk, -, -, hoffset⟩ := ramMask_spec env
  have hpow : (2 : Nat) ^ k = 4096 * 2 ^ (k - 12) := by
    rw [show 4096 = 2 ^ 12 from rfl, ← Nat.pow_add]
    congr 1
    omega
  rw [hoffset, hoffset, hb, hpow, Nat.mod_mul, Nat.mod_mul, show (a.toNat + i) % 4096 = a.toNat % 4096 + i by omega,
    show (a.toNat + i) / 4096 = a.toNat / 4096 by omega]
  omega

theorem toNat_add_of_page {a : U32} {i : Nat} (hi : a.toNat % 4096 + i < 4096) :
    (a + BitVec.ofNat 32 i).toNat = a.toNat + i := by
  have := a.isLt
  rw [BitVec.toNat_add, BitVec.toNat_ofNat]
  omega

theorem placeOf_add {t : U32} {i : Nat} {first place : Place} (hi : t.toNat % 4096 + i < 4096)
    (hfirst : placeOf env t = some first) (h : placeOf env (t + BitVec.ofNat 32 i) = some place) :
    place = first.add i := by
  have hnat := toNat_add_of_page hi
  have hram := ramOffset_add env hnat hi
  have hlow : ((t + BitVec.ofNat 32 i) &&& 0x0FFFFFFF).toNat = (t &&& 0x0FFFFFFF).toNat + i := by
    rw [toNat_and_low, toNat_and_low, hnat]
    omega
  have hl1 : inL1Cache (t + BitVec.ofNat 32 i) = inL1Cache t := by
    rw [Bool.eq_iff_iff, inL1Cache_iff, inL1Cache_iff, hnat]
    omega
  have hin : inRAM (t + BitVec.ofNat 32 i) = inRAM t := by
    rw [Bool.eq_iff_iff, inRAM_iff, inRAM_iff, hnat]
    omega
  rw [placeOf, hl1, hin, hlow, hram] at h
  rw [placeOf] at hfirst
  split at h
  · next hcache =>
      rw [if_pos hcache] at hfirst
      cases hfirst
      cases h
      rfl
  · next hcache =>
      rw [if_neg hcache] at hfirst
      split at h
      · next hr =>
          rw [if_pos hr] at hfirst
          split at h
          · split at hfirst
            · cases hfirst
              cases h
              rfl
            · cases hfirst
          · cases h
      · next hr =>
          rw [if_neg hr] at hfirst
          split at h
          · split at hfirst
            · cases hfirst
              cases h
              simp only [Place.add, exRamOffset, hlow]
              congr 1
              omega
            · cases hfirst
          · cases h

theorem placeOf_valid {t : U32} {place : Place} (h : placeOf env t = some place) : place.Valid env := by
  rw [placeOf] at h
  split at h
  · cases h
    trivial
  · split at h
    · split at h
      · next hlt =>
          cases h
          exact Or.inl hlt
      · cases h
    · split at h
      · next hex =>
          obtain ⟨hx, hlo, hhi⟩ := (inEXRAM_iff env).mp hex
          cases h
          right
          refine ⟨hx, ?_, ?_⟩
          · exact Nat.le_add_left _ _
          · rw [exRamOffset, toNat_and_low]
            have := env.sizes.exRam_le
            omega
      · cases h

/-! ## What shows of a byte -/

namespace Bus

/-- The byte lies in `S`, and so does the one behind it where its line in the data cache is clean. -/
def Keeps (s : Bus δ) (place : Place) (S : UInt8 → Prop) : Prop :=
  match place with
  | .memory p => if env.enableDcache then PPCCache.Keeps env.sizes s.dcache p S else S (s.dcache.mem p)
  | .l1Cache p => S (s.l1Cache p)
  | .fakeVMem p => S (s.fakeVMem p)

/-- The data cache, if it is enabled, holds lines of memory only. -/
def Tidy (s : Bus δ) : Prop := env.enableDcache = true → PPCCache.Tidy env.sizes s.dcache

def Preserves (s s' : Bus δ) : Prop :=
  ∀ place S, place.Valid env → s.Keeps env place S → s'.Keeps env place S

variable {env}

theorem Preserves.refl (s : Bus δ) : s.Preserves env s := fun _ _ _ hk => hk

theorem Preserves.trans {s s' s'' : Bus δ} (h : s.Preserves env s') (h' : s'.Preserves env s'') : s.Preserves env s'' :=
  fun place S hv hk => h' place S hv (h place S hv hk)

theorem preserves_of_same {s s' : Bus δ} (hdcache : s'.dcache = s.dcache) (hl1 : s'.l1Cache = s.l1Cache)
    (hfake : s'.fakeVMem = s.fakeVMem) : s.Preserves env s' := by
  intro place S _ hk
  cases place with
  | memory p =>
      simp only [Keeps] at hk ⊢
      rwa [hdcache]
  | l1Cache p =>
      simp only [Keeps] at hk ⊢
      rwa [hl1]
  | fakeVMem p =>
      simp only [Keeps] at hk ⊢
      rwa [hfake]

theorem Tidy.of_same {s s' : Bus δ} (h : s.Tidy env) (hdcache : s'.dcache = s.dcache) : s'.Tidy env := by
  intro hd
  rw [hdcache]
  exact h hd

theorem keeps_memory_enabled {s : Bus δ} (hd : env.enableDcache = true) (p : Nat) (S : UInt8 → Prop) :
    s.Keeps env (.memory p) S ↔ PPCCache.Keeps env.sizes s.dcache p S := by
  simp only [Keeps, hd, if_true]

theorem keeps_memory_disabled {s : Bus δ} (hd : ¬ env.enableDcache = true) (p : Nat) (S : UInt8 → Prop) :
    s.Keeps env (.memory p) S ↔ S (s.dcache.mem p) := by
  simp only [Keeps, hd]
  rfl

end Bus

/-! ## Accesses to RAM and EXRAM -/

theorem InMemory.mirror_eq {z : PPCCache.MemorySizes} {p : Nat} (hp : InMemory z p) : mirror p = p := by
  have hram := z.ram_le
  have hex := z.exRam_le
  unfold mirror
  rcases hp with h | ⟨-, -, h⟩ <;> omega

theorem InMemory.backed {z : PPCCache.MemorySizes} {p : Nat} (hp : InMemory z p) : PPCCache.Backed z p := by
  rw [PPCCache.backed_iff, InMemory.mirror_eq hp]
  exact hp

variable {env}

theorem readMemory_spec {s : Bus δ} (hs : s.Tidy env) (flag : XCheckTLBFlag) {size offset : Nat} (hsize : size ≤ 8)
    (hown : ∀ i < size, Own env.sizes (offset + i)) :
    (readMemory env flag size offset false s).2.Tidy env ∧
    s.Preserves env (readMemory env flag size offset false s).2 ∧
    ∃ bytes, (readMemory env flag size offset false s).1 = bigEndian size bytes ∧
      ∀ i < size, ∀ S, InMemory env.sizes (offset + i) → s.Keeps env (.memory (offset + i)) S → S (bytes i) := by
  by_cases hd : env.enableDcache = true
  · simp only [readMemory, hd, Bool.not_true, Bool.or_self, Bool.false_eq_true, if_false]
    obtain ⟨ht, hpres, hin, -⟩ := (hs hd).readLoop hown env.uninitialized 0 (env.dlock || decide (flag ≠ .read))
    refine ⟨fun _ => ht, ?_, _, bswap_hostValue _ hsize, ?_⟩
    · intro place S hv hk
      cases place with
      | memory p =>
          rw [Bus.keeps_memory_enabled hd] at hk ⊢
          exact hpres p S hv hk
      | l1Cache p => exact hk
      | fakeVMem p => exact hk
    · intro i hi S hp hk
      rw [Bus.keeps_memory_enabled hd] at hk
      have hmir := InMemory.mirror_eq hp
      have := hin i hi S (by rwa [hmir]) (by rwa [hmir])
      rwa [Nat.zero_add] at this
  · simp only [readMemory, hd, Bool.not_false, Bool.true_or, if_true]
    refine ⟨hs, .refl s, _, bswap_hostValue _ hsize, ?_⟩
    intro i _ S _ hk
    rwa [Bus.keeps_memory_disabled hd] at hk

theorem writeMemory_spec {s : Bus δ} (hs : s.Tidy env) (swapped : U32) {size offset : Nat}
    (hmem : ∀ i < size, InMemory env.sizes (offset + i)) :
    (writeMemory env .write swapped size offset false s).Tidy env ∧
    (∀ i < size, (writeMemory env .write swapped size offset false s).Keeps env (.memory (offset + i))
      (· = hostBytes swapped i)) ∧
    ∀ place S, place.Valid env → (∀ i < size, Place.memory (offset + i) ≠ place) → s.Keeps env place S →
      (writeMemory env .write swapped size offset false s).Keeps env place S := by
  have hmir : ∀ i < size, mirror (offset + i) = offset + i := fun i hi => InMemory.mirror_eq (hmem i hi)
  by_cases hd : env.enableDcache = true
  · have hwrite : writeMemory env .write swapped size offset false s =
        { s with dcache := s.dcache.write env.sizes offset (hostBytes swapped) size env.dlock } := by
      simp [writeMemory, hd]
    rw [hwrite]
    obtain ⟨ht, hin, hout⟩ := (hs hd).write (fun i hi => InMemory.backed (hmem i hi)) (hostBytes swapped) env.dlock
    refine ⟨fun _ => ht, ?_, ?_⟩
    · intro i hi
      rw [Bus.keeps_memory_enabled hd]
      have := hin i hi
      rwa [hmir i hi] at this
    · intro place S hv hne hk
      cases place with
      | memory p =>
          rw [Bus.keeps_memory_enabled hd] at hk ⊢
          refine hout p S hv ?_ hk
          intro i hi he
          rw [hmir i hi] at he
          exact hne i hi (congrArg Place.memory he)
      | l1Cache p => exact hk
      | fakeVMem p => exact hk
  · have hwrite : writeMemory env .write swapped size offset false s =
        { s with dcache := { s.dcache with mem := memcpyTo s.dcache.mem offset (hostBytes swapped) size } } := by
      simp [writeMemory, hd]
    rw [hwrite]
    refine ⟨fun he => absurd he hd, ?_, ?_⟩
    · intro i hi
      simp only [Bus.keeps_memory_disabled hd, memcpyTo]
      rw [if_pos (by omega)]
      congr 1
      omega
    · intro place S _ hne hk
      cases place with
      | memory p =>
          simp only [Bus.keeps_memory_disabled hd, memcpyTo] at hk ⊢
          rw [if_neg]
          · exact hk
          · intro hin
            exact hne (p - offset) (by omega) (congrArg Place.memory (by omega))
      | l1Cache p => exact hk
      | fakeVMem p => exact hk

/-! ## Accesses within a page -/

theorem placeOf_cases {t : U32} {place : Place} (h : placeOf env t = some place) :
    (inL1Cache t = true ∧ place = .l1Cache (t &&& 0x0FFFFFFF).toNat) ∨
    (inL1Cache t = false ∧ inRAM t = true ∧ place = .memory (ramOffset env t)) ∨
    (inL1Cache t = false ∧ inRAM t = false ∧ inEXRAM env t = true ∧ place = .memory (exRamOffset t)) := by
  rw [placeOf] at h
  split at h
  · next hl1 =>
      cases h
      exact Or.inl ⟨hl1, rfl⟩
  · next hl1 =>
      rw [Bool.not_eq_true] at hl1
      split at h
      · next hram =>
          split at h
          · cases h
            exact Or.inr (Or.inl ⟨hl1, hram, rfl⟩)
          · cases h
      · next hram =>
          rw [Bool.not_eq_true] at hram
          split at h
          · next hex =>
              cases h
              exact Or.inr (Or.inr ⟨hl1, hram, hex, rfl⟩)
          · cases h

theorem placeOf_not_device {t : U32} {place : Place} (h : placeOf env t = some place) :
    ¬ (0x08000000 ≤ t.toNat ∧ t.toNat < 0x10000000) := by
  rcases placeOf_cases h with ⟨hl1, -⟩ | ⟨-, hram, -⟩ | ⟨-, -, hex, -⟩
  · rw [inL1Cache_iff] at hl1
    omega
  · rw [inRAM_iff] at hram
    omega
  · obtain ⟨-, hlo, -⟩ := (inEXRAM_iff env).mp hex
    omega

theorem placeOf_offset {t : U32} {place : Place} (h : placeOf env t = some place) :
    place.offset % 4096 = t.toNat % 4096 := by
  rcases placeOf_cases h with ⟨-, rfl⟩ | ⟨-, -, rfl⟩ | ⟨-, -, -, rfl⟩
  · simp only [Place.offset, toNat_and_low]
    omega
  · obtain ⟨k, hk, -, -, hoffset⟩ := ramMask_spec env
    simp only [Place.offset, hoffset]
    exact Nat.mod_mod_of_dvd _ (Nat.pow_dvd_pow 2 hk)
  · simp only [Place.offset, exRamOffset, toNat_and_low]
    omega

theorem writePhysical_spec {s : Bus δ} (hs : s.Tidy env) (data : U32) {t : U32} {size : Nat} {first : Place}
    (hfirst : placeOf env t = some first) (hvalid : ∀ i < size, (first.add i).Valid env) :
    (writePhysical env .write t data size false s).Tidy env ∧
    (∀ i < size, (writePhysical env .write t data size false s).Keeps env (first.add i)
      (· = hostBytes (swap32 (data.rotateRight (size * 8))) i)) ∧
    ∀ place S, place.Valid env → (∀ i < size, first.add i ≠ place) → s.Keeps env place S →
      (writePhysical env .write t data size false s).Keeps env place S := by
  have hdevice := placeOf_not_device hfirst
  have hpipe : ¬ t &&& 0xFFFFF000 = GATHER_PIPE_PHYSICAL_ADDRESS := fun h => hdevice (gatherPipe_device h)
  have hmmio : ¬ t &&& 0xF8000000 = 0x08000000 := fun h => hdevice (device_iff.mp h)
  simp only [writePhysical, writeTranslated, hpipe, hmmio, and_false, Bool.false_eq_true, false_and, if_false]
  rcases placeOf_cases hfirst with ⟨hl1, rfl⟩ | ⟨hl1, hram, rfl⟩ | ⟨hl1, hram, hex, rfl⟩
  · rw [if_pos hl1]
    refine ⟨hs, ?_, ?_⟩
    · intro i hi
      simp only [Place.add, Bus.Keeps, memcpyTo]
      rw [if_pos (by omega)]
      congr 1
      omega
    · intro place S _ hne hk
      cases place with
      | memory p => exact hk
      | fakeVMem p => exact hk
      | l1Cache p =>
          simp only [Bus.Keeps, memcpyTo] at hk ⊢
          rw [if_neg]
          · exact hk
          · intro hin
            refine hne (p - (t &&& 0x0FFFFFFF).toNat) (by omega) ?_
            simp only [Place.add]
            congr 1
            omega
  · simp only [hl1, hram, Bool.false_eq_true, if_false, if_true]
    exact writeMemory_spec hs _ hvalid
  · simp only [hl1, hram, hex, Bool.false_eq_true, if_false, if_true]
    exact writeMemory_spec hs _ hvalid

theorem readPhysical_spec {s : Bus δ} (hs : s.Tidy env) (flag : XCheckTLBFlag) {t : U32} {size : Nat} (hsize : size ≤ 8)
    {first : Place} (hfirst : placeOf env t = some first) (hvalid : ∀ i < size, (first.add i).Valid env) :
    (readPhysical env flag size t false s).2.Tidy env ∧
    s.Preserves env (readPhysical env flag size t false s).2 ∧
    ∃ bytes, (readPhysical env flag size t false s).1 = bigEndian size bytes ∧
      ∀ i < size, ∀ S, s.Keeps env (first.add i) S → S (bytes i) := by
  have hdevice := placeOf_not_device hfirst
  have hmmio : ¬ t &&& 0xF8000000 = 0x08000000 := fun h => hdevice (device_iff.mp h)
  have hmemory : ∀ offset, (∀ i < size, InMemory env.sizes (offset + i)) →
      (readMemory env flag size offset false s).2.Tidy env ∧
      s.Preserves env (readMemory env flag size offset false s).2 ∧
      ∃ bytes, (readMemory env flag size offset false s).1 = bigEndian size bytes ∧
        ∀ i < size, ∀ S, s.Keeps env (.memory (offset + i)) S → S (bytes i) := by
    intro offset hin
    obtain ⟨ht, hpres, bytes, hvalue, hbytes⟩ := readMemory_spec hs flag hsize
      (fun i hi => Or.inl (InMemory.backed (hin i hi)))
    exact ⟨ht, hpres, bytes, hvalue, fun i hi S hk => hbytes i hi S (hin i hi) hk⟩
  simp only [readPhysical, hmmio, and_false, if_false]
  rcases placeOf_cases hfirst with ⟨hl1, rfl⟩ | ⟨hl1, hram, rfl⟩ | ⟨hl1, hram, hex, rfl⟩
  · rw [if_pos hl1]
    exact ⟨hs, .refl s, _, bswap_hostValue _ hsize, fun i _ S hk => hk⟩
  · simp only [hl1, hram, Bool.false_eq_true, if_false, if_true]
    exact hmemory _ hvalid
  · simp only [hl1, hram, hex, Bool.false_eq_true, if_false, if_true]
    exact hmemory _ hvalid

/-! ## The memory as the walk uses it -/

theorem crossesPage_iff {a : U32} {size : Nat} (hpos : 0 < size) (hsize : size ≤ 4096) :
    crossesPage a size = true ↔ 4096 < a.toNat % 4096 + size := by
  have hlast : (a + BitVec.ofNat 32 size - 1).toNat = (a.toNat + size - 1) % 2 ^ 32 := by
    rw [BitVec.toNat_sub, BitVec.toNat_add, BitVec.toNat_ofNat]
    have hone : (1 : U32).toNat = 1 := rfl
    rw [hone]
    omega
  rw [crossesPage, decide_eq_true_eq, ne_eq, ← BitVec.toNat_inj, toNat_pageOf, toNat_pageOf, hlast]
  have := a.isLt
  omega

theorem pauseOnPanic_same (env : Environment δ) (s : Bus δ) : (pauseOnPanic env s).dcache = s.dcache ∧
    (pauseOnPanic env s).l1Cache = s.l1Cache ∧ (pauseOnPanic env s).fakeVMem = s.fakeVMem := by
  rw [pauseOnPanic]
  split <;> exact ⟨rfl, rfl, rfl⟩

theorem readWord_spec {s : Bus δ} (hs : s.Tidy env) (noException : Bool) {a : U32} (ha : a.toNat % 4 = 0) :
    ((hardware env).readFromHardware noException a s).2.Tidy env ∧
    s.Preserves env ((hardware env).readFromHardware noException a s).2 ∧
    ∀ q, placeOf env a = some (.memory q) →
      ∃ bytes, ((hardware env).readFromHardware noException a s).1 = (bigEndian 4 bytes).setWidth 32 ∧
        ∀ i < 4, ∀ S, s.Keeps env (.memory (q + i)) S → S (bytes i) := by
  have hcross : crossesPage a 4 = false := by
    rw [Bool.eq_false_iff, ne_eq, crossesPage_iff (by decide) (by decide)]
    omega
  simp only [hardware, readUntranslated, hcross, Bool.false_eq_true, if_false]
  generalize (if noException = true then XCheckTLBFlag.noException else .read) = flag
  by_cases hplace : ∃ q, placeOf env a = some (.memory q)
  · obtain ⟨q, hq⟩ := hplace
    have hvalid : ∀ i < 4, (Place.add (.memory q) i).Valid env := by
      intro i hi
      have hoffset := placeOf_offset hq
      simp only [Place.offset] at hoffset
      exact PPCCache.InMemory.line (placeOf_valid env hq) (by omega)
    obtain ⟨ht, hpres, bytes, hvalue, hbytes⟩ := readPhysical_spec hs flag (by decide) hq hvalid
    refine ⟨ht, hpres, ?_⟩
    intro q' hq'
    rw [hq] at hq'
    cases hq'
    exact ⟨bytes, by rw [hvalue], hbytes⟩
  · suffices h : (readPhysical env flag 4 a false s).2.Tidy env ∧
        s.Preserves env (readPhysical env flag 4 a false s).2 from
      ⟨h.1, h.2, fun q hq => absurd ⟨q, hq⟩ hplace⟩
    rw [readPhysical]
    split
    · split
      · exact ⟨hs.of_same rfl, Bus.preserves_of_same rfl rfl rfl⟩
      · exact ⟨hs.of_same rfl, Bus.preserves_of_same rfl rfl rfl⟩
    · split
      · exact ⟨hs, .refl s⟩
      · next hl1 =>
        split
        · have hown : ∀ i < 4, Own env.sizes (ramOffset env a + i) := by
            intro i hi
            have hpage : a.toNat % 4096 + i < 4096 := by omega
            rw [← ramOffset_add env (toNat_add_of_page hpage) hpage]
            exact Own.of_lt_ramSize (ramOffset_lt env _)
          obtain ⟨ht, hpres, -⟩ := readMemory_spec hs flag (by decide) hown
          exact ⟨ht, hpres⟩
        · next hram =>
          split
          · next hex => exact absurd ⟨_, by rw [placeOf, if_neg hl1, if_neg hram, if_pos hex]⟩ hplace
          · split
            · exact ⟨hs, .refl s⟩
            · -- an alert
              obtain ⟨hdcache, hl1, hfake⟩ := pauseOnPanic_same env s
              exact ⟨hs.of_same hdcache, Bus.preserves_of_same hdcache hl1 hfake⟩

end Karphin.MMU
