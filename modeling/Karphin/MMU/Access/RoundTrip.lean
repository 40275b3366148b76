import Karphin.MMU.Access.Walks
import Karphin.MMU.Access.Inhibited

/-!
# Writing and reading back

A write stores the bytes of its data where its pages are, also when it goes over the end of a page or of the address
space, and a read finds them there.
-/

namespace Karphin.MMU

open Karphin.PPCCache (Buffer)

variable {δ : Type} {env : Environment δ} {s : State (Bus δ)} {address t : U32} {size : Nat}

/-! ## Within a page -/

theorem writePage_eq (h : translated env address s = some t) (data : U32) (size : Nat) :
    writePage env .write address data size s =
      { afterTranslation env address s with
        memory := writePhysical env .write t data size false (afterTranslation env address s).memory } := by
  rw [translated] at h
  rw [afterTranslation]
  by_cases hdr : env.dr = true
  · simp only [hdr, if_true] at h
    split at h
    · next hcached =>
        rw [Bool.and_eq_true, Bool.not_eq_true'] at hcached
        cases h
        simp only [writePage, hdr, if_true, hcached.1, hcached.2]
    · cases h
  · rw [if_neg hdr] at h
    cases h
    simp only [writePage, hdr, Bool.false_eq_true, if_false]

theorem writePage_spec (henv : env.Regular) (hbase : Aligned s.ppc.pagetableBase) (hs : s.memory.Tidy env)
    (hfresh : Fresh env address s) (h : translated env address s = some t) (hpos : 0 < size)
    (hpage : address.toNat % 4096 + size ≤ 4096)
    (hplaces : ∀ i < size, (placeOf env (t + BitVec.ofNat 32 i)).isSome = true) (data : U32) :
    (writePage env .write address data size s).memory.Tidy env ∧
    (writePage env .write address data size s).ppc = (afterTranslation env address s).ppc ∧
    (∀ i < size, ∀ place, placeOf env (t + BitVec.ofNat 32 i) = some place →
      (writePage env .write address data size s).memory.Keeps env place
        (· = hostBytes (swap32 (data.rotateRight (size * 8))) i)) ∧
    ∀ place S, place.Valid env → (∀ i < size, placeOf env (t + BitVec.ofNat 32 i) ≠ some place) →
      (∀ e, walkedEntry env address s = some e → ∀ x, S x → S (x ||| accessMask env e place)) →
      s.memory.Keeps env place S → (writePage env .write address data size s).memory.Keeps env place S := by
  have hoffset := translated_offset henv hfresh h
  obtain ⟨first, hfirst⟩ := Option.isSome_iff_exists.mp (hplaces 0 hpos)
  have hzero : t + BitVec.ofNat 32 0 = t := BitVec.add_zero t
  rw [hzero] at hfirst
  have hadd : ∀ i < size, placeOf env (t + BitVec.ofNat 32 i) = some (first.add i) := by
    intro i hi
    obtain ⟨place, hplace⟩ := Option.isSome_iff_exists.mp (hplaces i hi)
    rw [hplace, placeOf_add env (by omega) hfirst hplace]
  obtain ⟨ht, hkeep⟩ := afterTranslation_keeps henv hbase hs h
  obtain ⟨ht', hin, hout⟩ := writePhysical_spec ht data hfirst fun i hi => placeOf_valid env (hadd i hi)
  rw [writePage_eq h]
  refine ⟨ht', rfl, ?_, ?_⟩
  · intro i hi place hplace
    rw [hadd i hi] at hplace
    cases hplace
    exact hin i hi
  · intro place S hv hne hclosed hk
    refine hout place S hv ?_ (hkeep place S hv hclosed hk)
    intro i hi he
    exact hne i hi (by rw [hadd i hi, he])

theorem readPage_eq (h : Resolves env s.ppc address t) (size : Nat) :
    ∃ ppc, readPage env .read size address s =
      ((readPhysical env .read size t false s.memory).1, ⟨ppc, (readPhysical env .read size t false s.memory).2⟩) ∧
      ∀ b u, Resolves env s.ppc b u → Resolves env ppc b u := by
  have hopcode : XCheckTLBFlag.read.isOpcodeFlag = false := rfl
  rw [Resolves] at h
  simp only [readPage, hopcode, Bool.false_eq_true, if_false]
  by_cases hdr : env.dr = true
  · rw [if_pos hdr] at h ⊢
    simp only [translateAddress, hopcode, Bool.false_eq_true, if_false]
    cases hbat : translateBatAddress env.dbatTable address with
    | some result =>
        obtain ⟨u, wi⟩ := result
        rw [hbat] at h
        obtain ⟨rfl, rfl⟩ := h
        exact ⟨s.ppc, rfl, fun b u hb => hb⟩
    | none =>
        rw [hbat] at h
        obtain ⟨w, hway, rfl⟩ := h
        have hlookup := lookup_eq s.ppc .read address (UReg_SR.vsid (s.ppc.sr (EffectiveAddress.sr address)))
        have hread : tlbIndex .read = 0 := rfl
        have hsame := sameWays_lookupWay .read address (s.ppc.tlb 0 (entryIndex (tag address))) w
        have hfound : (lookupWay .read address (s.ppc.tlb 0 (entryIndex (tag address))) w).1 =
            .found ((s.ppc.tlb 0 (entryIndex (tag address))).paddr w ||| EffectiveAddress.offset address)
              (UPTE_Hi.wi ((s.ppc.tlb 0 (entryIndex (tag address))).pte w)) := by
          simp [lookupWay, EffectiveAddress.offset]
        rw [hway, hread] at hlookup
        simp only [hfound] at hlookup
        simp only [translatePageAddress, hlookup]
        exact ⟨_, rfl, fun b u hb => hb.mono rfl (setTlb_sameWays hsame 0 _)⟩
  · rw [if_neg hdr] at h ⊢
    subst h
    exact ⟨s.ppc, rfl, fun b u hb => hb⟩

theorem readPage_spec (hs : s.memory.Tidy env) (h : Resolves env s.ppc address t) (hpos : 0 < size) (hsize : size ≤ 8)
    (hpage : t.toNat % 4096 + size ≤ 4096)
    (hplaces : ∀ i < size, (placeOf env (t + BitVec.ofNat 32 i)).isSome = true) :
    (readPage env .read size address s).2.memory.Tidy env ∧
    s.memory.Preserves env (readPage env .read size address s).2.memory ∧
    (∀ b u, Resolves env s.ppc b u → Resolves env (readPage env .read size address s).2.ppc b u) ∧
    ∃ bytes, (readPage env .read size address s).1 = bigEndian size bytes ∧
      ∀ i < size, ∀ place S, placeOf env (t + BitVec.ofNat 32 i) = some place → s.memory.Keeps env place S →
        S (bytes i) := by
  obtain ⟨first, hfirst⟩ := Option.isSome_iff_exists.mp (hplaces 0 hpos)
  have hzero : t + BitVec.ofNat 32 0 = t := BitVec.add_zero t
  rw [hzero] at hfirst
  have hadd : ∀ i < size, placeOf env (t + BitVec.ofNat 32 i) = some (first.add i) := by
    intro i hi
    obtain ⟨place, hplace⟩ := Option.isSome_iff_exists.mp (hplaces i hi)
    rw [hplace, placeOf_add env (by omega) hfirst hplace]
  obtain ⟨ht, hpres, bytes, hvalue, hbytes⟩ :=
    readPhysical_spec hs .read hsize hfirst fun i hi => placeOf_valid env (hadd i hi)
  obtain ⟨ppc, hread, hresolves⟩ := readPage_eq h size
  rw [hread]
  refine ⟨ht, hpres, hresolves, bytes, hvalue, ?_⟩
  intro i hi place S hplace hk
  rw [hadd i hi] at hplace
  cases hplace
  exact hbytes i hi S hk

theorem readBytes_spec (hs : s.memory.Tidy env) {u : Nat → U32} {place : Nat → Place} {bytes : Buffer}
    (hresolves : ∀ i < size, Resolves env s.ppc (address + BitVec.ofNat 32 i) (u i))
    (hplaces : ∀ i < size, placeOf env (u i) = some (place i))
    (hbytes : ∀ i < size, s.memory.Keeps env (place i) (· = bytes i)) :
    (readBytes (readPage env .read 1) address size s).1 = bigEndian size bytes := by
  suffices h : ∀ n ≤ size,
      (readBytes (readPage env .read 1) address n s).1 = bigEndian n bytes ∧
      (readBytes (readPage env .read 1) address n s).2.memory.Tidy env ∧
      s.memory.Preserves env (readBytes (readPage env .read 1) address n s).2.memory ∧
      ∀ b v, Resolves env s.ppc b v → Resolves env (readBytes (readPage env .read 1) address n s).2.ppc b v from
    (h size (Nat.le_refl size)).1
  intro n
  induction n with
  | zero => exact fun _ => ⟨rfl, hs, .refl s.memory, fun _ _ hb => hb⟩
  | succ n ih =>
      intro hn
      obtain ⟨hvalue, ht, hpres, hres⟩ := ih (by omega)
      have hstep : readBytes (readPage env .read 1) address (n + 1) s =
          ((readBytes (readPage env .read 1) address n s).1 <<< 8 |||
              (readPage env .read 1 (address + BitVec.ofNat 32 n) (readBytes (readPage env .read 1) address n s).2).1,
            (readPage env .read 1 (address + BitVec.ofNat 32 n) (readBytes (readPage env .read 1) address n s).2).2) := by
        rw [readBytes, List.range_succ, List.foldl_append, ← readBytes]
        rfl
      have hplace := hplaces n (by omega)
      have hzero : u n + BitVec.ofNat 32 0 = u n := BitVec.add_zero (u n)
      obtain ⟨ht', hpres', hres', byte, hbyte, hshows⟩ := readPage_spec ht (hres _ _ (hresolves n (by omega)))
        Nat.one_pos (by decide) (by omega) (by
          intro i hi
          rw [show i = 0 by omega, hzero, hplace]
          rfl)
      rw [hstep]
      refine ⟨?_, ht', hpres.trans hpres', fun b v hb => hres' b v (hres b v hb)⟩
      have hshown : byte 0 = bytes n := by
        refine hshows 0 (by decide) (place n) (· = bytes n) (by rw [hzero, hplace]) ?_
        exact hpres _ _ (placeOf_valid env hplace) (hbytes n (by omega))
      rw [hvalue, hbyte, bigEndian_succ, bigEndian_succ, hshown]
      simp [bigEndian]

/-! ## Over the end of a page -/

def lastPage (address : U32) (size : Nat) : U32 := pageOf (address + BitVec.ofNat 32 size - 1)

def firstSize (address : U32) (size : Nat) : Nat :=
  if crossesPage address size then (lastPage address size - address).toNat else size

/-- The state in which the last page is translated: the bytes of the first page are written. -/
def afterFirst (env : Environment δ) (address data : U32) (size : Nat) (s : State (Bus δ)) : State (Bus δ) :=
  writePage env .write address (data.rotateRight ((size - firstSize address size) * 8)) (firstSize address size) s

def byteAddress (env : Environment δ) (address data : U32) (size : Nat) (s : State (Bus δ)) (i : Nat) : Option U32 :=
  if i < firstSize address size then (translated env address s).map (· + BitVec.ofNat 32 i)
  else (translated env (lastPage address size) (afterFirst env address data size s)).map
    (· + BitVec.ofNat 32 (i - firstSize address size))

/-- The byte of RAM, EXRAM or the locked L1 cache to which the byte `i` goes. -/
def target (env : Environment δ) (address data : U32) (size : Nat) (s : State (Bus δ)) (i : Nat) : Option Place :=
  (byteAddress env address data size s i).bind (placeOf env)

def lastEntry (env : Environment δ) (address data : U32) (size : Nat) (s : State (Bus δ)) : Option U32 :=
  if crossesPage address size then walkedEntry env (lastPage address size) (afterFirst env address data size s) else none

section Crossing

variable {data : U32}

theorem writeToHardware_eq (env : Environment δ) (address data : U32) (size : Nat) (s : State (Bus δ)) :
    writeToHardware env .write address data size s =
      if crossesPage address size then
        writePage env .write (lastPage address size) data (size - firstSize address size)
          (afterFirst env address data size s)
      else writePage env .write address data size s := by
  rw [writeToHardware]
  split
  · next hcross => simp only [afterFirst, firstSize, lastPage, hcross, if_true]
  · rfl

theorem toNat_lastPage (hpos : 0 < size) (hsize : size ≤ 4) (hcross : crossesPage address size = true) :
    (lastPage address size).toNat = (address.toNat / 4096 * 4096 + 4096) % 2 ^ 32 := by
  have hone : (1 : U32).toNat = 1 := rfl
  have hover := (crossesPage_iff hpos (by omega)).mp hcross
  have := address.isLt
  rw [lastPage, toNat_pageOf, BitVec.toNat_sub, BitVec.toNat_add, BitVec.toNat_ofNat, hone]
  omega

theorem firstSize_crossing (hpos : 0 < size) (hsize : size ≤ 4) (hcross : crossesPage address size = true) :
    firstSize address size = 4096 - address.toNat % 4096 := by
  have := address.isLt
  rw [firstSize, if_pos hcross, BitVec.toNat_sub, toNat_lastPage hpos hsize hcross]
  omega

theorem lastPage_eq (hpos : 0 < size) (hsize : size ≤ 4) (hcross : crossesPage address size = true) :
    lastPage address size = address + BitVec.ofNat 32 (firstSize address size) := by
  have := address.isLt
  rw [← BitVec.toNat_inj, toNat_lastPage hpos hsize hcross, firstSize_crossing hpos hsize hcross, BitVec.toNat_add,
    BitVec.toNat_ofNat]
  omega

theorem entryIndex_lastPage (hpos : 0 < size) (hsize : size ≤ 4) (hcross : crossesPage address size = true) {b : U32}
    (hb : tag b = tag address) : entryIndex (tag b) ≠ entryIndex (tag (lastPage address size)) := by
  have hindex : ∀ x : U32, (entryIndex (tag x)).val = x.toNat / 4096 % 64 := by
    intro x
    simp only [entryIndex, tag, BitVec.toFin_extractLsb', Fin.val_ofNat, BitVec.toNat_ushiftRight, Nat.shiftRight_eq_div_pow]
    omega
  intro he
  have := congrArg Fin.val he
  rw [hb, hindex, hindex, toNat_lastPage hpos hsize hcross] at this
  omega

theorem target_of_lt {i : Nat} {place : Place} (hi : i < firstSize address size)
    (h : target env address data size s i = some place) :
    ∃ t, translated env address s = some t ∧ placeOf env (t + BitVec.ofNat 32 i) = some place := by
  rw [target, byteAddress, if_pos hi] at h
  cases ht : translated env address s with
  | none =>
      rw [ht] at h
      cases h
  | some t =>
      rw [ht] at h
      exact ⟨t, rfl, h⟩

theorem target_of_ge {i : Nat} {place : Place} (hi : ¬ i < firstSize address size)
    (h : target env address data size s i = some place) :
    ∃ t, translated env (lastPage address size) (afterFirst env address data size s) = some t ∧
      placeOf env (t + BitVec.ofNat 32 (i - firstSize address size)) = some place := by
  rw [target, byteAddress, if_neg hi] at h
  cases ht : translated env (lastPage address size) (afterFirst env address data size s) with
  | none =>
      rw [ht] at h
      cases h
  | some t =>
      rw [ht] at h
      exact ⟨t, rfl, h⟩

end Crossing

/-! ## Writing and reading back -/

/-- What a write does: its bytes hold the data, every other byte is where it was, access bits of page table entries aside,
and a read returns the data. -/
structure WritesAndReadsBack (env : Environment δ) (address data : U32) (size : Nat) (s : State (Bus δ)) : Prop where
  stored : ∀ i < size, ∀ place, target env address data size s i = some place →
    (writeToHardware env .write address data size s).memory.Keeps env place (· = dataByte data size i)
  others : ∀ place S, place.Valid env → (∀ i < size, target env address data size s i ≠ some place) →
    (∀ e, walkedEntry env address s = some e ∨ lastEntry env address data size s = some e →
      ∀ x, S x → S (x ||| accessMask env e place)) →
    s.memory.Keeps env place S → (writeToHardware env .write address data size s).memory.Keeps env place S
  value : (readFromHardware env .read size address (writeToHardware env .write address data size s)).1 =
    castTo size (data.setWidth 64)

theorem writesAndReadsBack_page (henv : env.Regular) (hbase : Aligned s.ppc.pagetableBase) (hs : s.memory.Tidy env)
    {data : U32} (hpos : 0 < size) (hsize : size ≤ 4) (hcross : ¬ crossesPage address size = true)
    (htarget : ∀ i < size, (target env address data size s i).isSome = true) (hfresh : Fresh env address s) :
    WritesAndReadsBack env address data size s := by
  have hfirst : firstSize address size = size := by rw [firstSize, if_neg hcross]
  have hpage : address.toNat % 4096 + size ≤ 4096 := by
    rw [crossesPage_iff hpos (by omega)] at hcross
    omega
  obtain ⟨place₀, hplace₀⟩ := Option.isSome_iff_exists.mp (htarget 0 hpos)
  obtain ⟨t, ht, -⟩ := target_of_lt (by omega) hplace₀
  have htargets : ∀ i < size, target env address data size s i = placeOf env (t + BitVec.ofNat 32 i) := by
    intro i hi
    rw [target, byteAddress, if_pos (by omega), ht]
    rfl
  have hplaces : ∀ i < size, (placeOf env (t + BitVec.ofNat 32 i)).isSome = true := by
    intro i hi
    rw [← htargets i hi]
    exact htarget i hi
  obtain ⟨htidy, hppc, hin, hout⟩ := writePage_spec henv hbase hs hfresh ht hpos hpage hplaces data
  have hwrite : writeToHardware env .write address data size s = writePage env .write address data size s := by
    rw [writeToHardware_eq, if_neg hcross]
  have hstored : ∀ i < size, ∀ place, placeOf env (t + BitVec.ofNat 32 i) = some place →
      (writePage env .write address data size s).memory.Keeps env place (· = dataByte data size i) := by
    intro i hi place hplace
    rw [← hostBytes_stored data hsize hi]
    exact hin i hi place hplace
  constructor
  · intro i hi place hplace
    rw [htargets i hi] at hplace
    rw [hwrite]
    exact hstored i hi place hplace
  · intro place S hv hne hclosed hk
    rw [hwrite]
    refine hout place S hv ?_ (fun e he => hclosed e (Or.inl he)) hk
    intro i hi
    rw [← htargets i hi]
    exact hne i hi
  · have hresolves := resolves_afterTranslation henv hfresh ht (i := 0) (by omega)
    rw [← hppc] at hresolves
    have hzero : ∀ x : U32, x + BitVec.ofNat 32 0 = x := BitVec.add_zero
    rw [hzero, hzero] at hresolves
    have hoffset := translated_offset henv hfresh ht
    obtain ⟨-, -, -, bytes, hvalue, hbytes⟩ := readPage_spec htidy hresolves hpos (by omega) (by omega) hplaces
    rw [readFromHardware, if_neg hcross, hwrite, hvalue, ← bigEndian_dataByte data hsize]
    apply List.foldl_ext
    intro v i hi
    rw [List.mem_range] at hi
    obtain ⟨place, hplace⟩ := Option.isSome_iff_exists.mp (hplaces i hi)
    rw [hbytes i hi place (· = dataByte data size i) hplace (hstored i hi place hplace)]

theorem writesAndReadsBack_crossing (henv : env.Regular) (hbase : Aligned s.ppc.pagetableBase) (hs : s.memory.Tidy env)
    {data : U32} (hpos : 0 < size) (hsize : size ≤ 4) (hcross : crossesPage address size = true)
    (htarget : ∀ i < size, (target env address data size s i).isSome = true) (hfresh : Fresh env address s)
    (hlast : Fresh env (lastPage address size) (afterFirst env address data size s))
    (hentry : ∀ e, lastEntry env address data size s = some e → ∀ i < firstSize address size, ∀ place,
      target env address data size s i = some place → accessMask env e place = 0) :
    WritesAndReadsBack env address data size s := by
  have hover := (crossesPage_iff hpos (by omega)).mp hcross
  have hn := firstSize_crossing hpos hsize hcross
  have hpage₂ := toNat_lastPage hpos hsize hcross
  generalize hfirst : firstSize address size = n at *
  -- the two pages
  obtain ⟨place₁, hplace₁⟩ := Option.isSome_iff_exists.mp (htarget 0 hpos)
  obtain ⟨t₁, ht₁, -⟩ := target_of_lt (by omega) hplace₁
  obtain ⟨place₂, hplace₂⟩ := Option.isSome_iff_exists.mp (htarget n (by omega))
  obtain ⟨t₂, ht₂, -⟩ := target_of_ge (by omega) hplace₂
  have htarget₁ : ∀ i < n, target env address data size s i = placeOf env (t₁ + BitVec.ofNat 32 i) := by
    intro i hi
    rw [target, byteAddress, if_pos (by omega), ht₁]
    rfl
  have htarget₂ : ∀ i, n ≤ i → target env address data size s i = placeOf env (t₂ + BitVec.ofNat 32 (i - n)) := by
    intro i hi
    rw [target, byteAddress, if_neg (by omega), ht₂, hfirst]
    rfl
  have hplaces₁ : ∀ i < n, (placeOf env (t₁ + BitVec.ofNat 32 i)).isSome = true := by
    intro i hi
    rw [← htarget₁ i hi]
    exact htarget i (by omega)
  have hplaces₂ : ∀ i < size - n, (placeOf env (t₂ + BitVec.ofNat 32 i)).isSome = true := by
    intro i hi
    have := htarget (n + i) (by omega)
    rwa [htarget₂ (n + i) (by omega), show n + i - n = i by omega] at this
  -- the first page
  have hoffset₁ := translated_offset henv hfresh ht₁
  have hafter : afterFirst env address data size s =
      writePage env .write address (data.rotateRight ((size - n) * 8)) n s := by
    rw [afterFirst, hfirst]
  obtain ⟨htidy₁, hppc₁, hin₁, hout₁⟩ := writePage_spec henv hbase hs hfresh ht₁ (by omega) (by omega) hplaces₁
    (data.rotateRight ((size - n) * 8))
  rw [← hafter] at htidy₁ hppc₁ hin₁ hout₁
  have hbase₁ : Aligned (afterFirst env address data size s).ppc.pagetableBase := by
    rw [hppc₁, afterTranslation_base ht₁]
    exact hbase
  -- the last page
  have hoffset₂ := translated_offset henv hlast ht₂
  obtain ⟨htidy₂, hppc₂, hin₂, hout₂⟩ := writePage_spec henv hbase₁ htidy₁ hlast ht₂ (by omega) (by omega) hplaces₂
    data
  have hwrite : writeToHardware env .write address data size s =
      writePage env .write (lastPage address size) data (size - n) (afterFirst env address data size s) := by
    rw [writeToHardware_eq, if_pos hcross, hfirst]
  have hentry' : ∀ e, walkedEntry env (lastPage address size) (afterFirst env address data size s) = some e →
      lastEntry env address data size s = some e := by
    intro e he
    rw [lastEntry, if_pos hcross]
    exact he
  have hstored : ∀ i < size, ∀ place, target env address data size s i = some place →
      (writeToHardware env .write address data size s).memory.Keeps env place (· = dataByte data size i) := by
    intro i hi place hplace
    rw [hwrite]
    by_cases hi₁ : i < n
    · have hplace' := hplace
      rw [htarget₁ i hi₁] at hplace'
      refine hout₂ place _ (placeOf_valid env hplace') ?_ ?_ ?_
      · -- the offsets in the pages are different
        intro j hj he
        have h₁ := placeOf_offset hplace'
        have h₂ := placeOf_offset he
        rw [toNat_add_of_page (by omega)] at h₁ h₂
        omega
      · rintro e he _ rfl
        rw [hentry e (hentry' e he) i hi₁ place hplace]
        exact UInt8.or_zero
      · rw [← dataByte_high data hsize (by omega) hi₁, ← hostBytes_stored _ (by omega) hi₁]
        exact hin₁ i hi₁ place hplace'
    · rw [htarget₂ i (by omega)] at hplace
      have hbyte := dataByte_low data (show size - n ≤ size by omega) (i - n)
      rw [show size - (size - n) + (i - n) = i by omega] at hbyte
      rw [← hbyte, ← hostBytes_stored data (show size - n ≤ 4 by omega) (show i - n < size - n by omega)]
      exact hin₂ (i - n) (by omega) place hplace
  refine ⟨hstored, ?_, ?_⟩
  · intro place S hv hne hclosed hk
    rw [hwrite]
    refine hout₂ place S hv ?_ (fun e he => hclosed e (Or.inr (hentry' e he)))
      (hout₁ place S hv ?_ (fun e he => hclosed e (Or.inl he)) hk)
    · intro j hj
      have := hne (n + j) (by omega)
      rwa [htarget₂ (n + j) (by omega), show n + j - n = j by omega] at this
    · intro i hi
      rw [← htarget₁ i hi]
      exact hne i (by omega)
  · have hresolves : ∀ i < size, Resolves env (writeToHardware env .write address data size s).ppc
        (address + BitVec.ofNat 32 i)
        (if i < n then t₁ + BitVec.ofNat 32 i else t₂ + BitVec.ofNat 32 (i - n)) := by
      intro i hi
      rw [hwrite, hppc₂]
      by_cases hi₁ : i < n
      · rw [if_pos hi₁]
        have htag := tag_add (a := address) (show address.toNat % 4096 + i < 4096 by omega)
        refine resolves_other hlast ht₂ (entryIndex_lastPage hpos hsize hcross htag) ?_
        rw [hppc₁]
        exact resolves_afterTranslation henv hfresh ht₁ (by omega)
      · have haddress : address + BitVec.ofNat 32 i = lastPage address size + BitVec.ofNat 32 (i - n) := by
          rw [lastPage_eq hpos hsize hcross, hfirst, BitVec.add_assoc, ← BitVec.ofNat_add, show n + (i - n) = i by omega]
        rw [if_neg hi₁, haddress]
        exact resolves_afterTranslation henv hlast ht₂ (by omega)
    have hplaces : ∀ i < size, placeOf env (if i < n then t₁ + BitVec.ofNat 32 i else t₂ + BitVec.ofNat 32 (i - n)) =
        some ((target env address data size s i).getD place₁) := by
      intro i hi
      obtain ⟨place, hplace⟩ := Option.isSome_iff_exists.mp (htarget i hi)
      rw [hplace, Option.getD_some, ← hplace]
      split
      · next hi₁ => rw [htarget₁ i hi₁]
      · next hi₁ => rw [htarget₂ i (by omega)]
    have htidy : (writeToHardware env .write address data size s).memory.Tidy env := by
      rw [hwrite]
      exact htidy₂
    rw [readFromHardware, if_pos hcross, readBytes_spec htidy hresolves hplaces, bigEndian_dataByte data hsize]
    intro i hi
    obtain ⟨place, hplace⟩ := Option.isSome_iff_exists.mp (htarget i hi)
    rw [hplace, Option.getD_some]
    exact hstored i hi place hplace

/-- A write to cached bytes stores the data and nothing else but access bits, and a read returns it. The last page may not
be translated by an entry in which the bytes of the first page lie. -/
theorem writeToHardware_readsBack (henv : env.Regular) (hbase : Aligned s.ppc.pagetableBase) (hs : s.memory.Tidy env)
    {data : U32} (hsize : size = 1 ∨ size = 2 ∨ size = 4)
    (htarget : ∀ i < size, (target env address data size s i).isSome = true) (hfresh : Fresh env address s)
    (hlast : crossesPage address size = true →
      Fresh env (lastPage address size) (afterFirst env address data size s))
    (hentry : ∀ e, lastEntry env address data size s = some e → ∀ i < firstSize address size, ∀ place,
      target env address data size s i = some place → accessMask env e place = 0) :
    WritesAndReadsBack env address data size s := by
  by_cases hcross : crossesPage address size = true
  · exact writesAndReadsBack_crossing henv hbase hs (by omega) (by omega) hcross htarget hfresh (hlast hcross) hentry
  · exact writesAndReadsBack_page henv hbase hs (by omega) (by omega) hcross htarget hfresh

/-! ### Page tables -/

theorem plainEnvironment_regular : plainEnvironment.Regular where
  ram := by decide
  frames _ := (by decide : ((0 : U32) &&& BAT_RESULT_MASK).toNat % 2 ^ 17 = 0)

theorem withPageTable_tidy (words : List (Nat × U32)) : (withPageTable words).memory.Tidy plainEnvironment :=
  fun _ => (PPCCache.Faithful.init _ _).tidy

/-- The last page of the address space is at `0x5000` and the first one at `0x7000`. -/
def aroundTheEnd : State (Bus Unit) :=
  withPageTable [(0x0, 0x80000000), (0x4, 0x7000), (0xFFC0, 0x8000003F), (0xFFC4, 0x5000)]

theorem fresh_of_noWay {δ : Type} {env : Environment δ} {address : U32} {s : State (Bus δ)}
    (h : matchingWay s.ppc .write address (UReg_SR.vsid (s.ppc.sr (EffectiveAddress.sr address))) = none) :
    Fresh env address s := by
  intro _ _ w hway
  rw [h] at hway
  cases hway

/-- A word over the end of the address space, with the data cache. -/
theorem writeToHardware_readsBack_aroundTheEnd :
    target plainEnvironment 0xFFFFFFFE 0x12345678 4 aroundTheEnd 1 = some (.memory 0x5FFF) ∧
    target plainEnvironment 0xFFFFFFFE 0x12345678 4 aroundTheEnd 2 = some (.memory 0x7000) ∧
    WritesAndReadsBack plainEnvironment 0xFFFFFFFE 0x12345678 4 aroundTheEnd := by
  have htargets : (target plainEnvironment 0xFFFFFFFE 0x12345678 4 aroundTheEnd 0 = some (.memory 0x5FFE) ∧
      target plainEnvironment 0xFFFFFFFE 0x12345678 4 aroundTheEnd 1 = some (.memory 0x5FFF)) ∧
      target plainEnvironment 0xFFFFFFFE 0x12345678 4 aroundTheEnd 2 = some (.memory 0x7000) ∧
      target plainEnvironment 0xFFFFFFFE 0x12345678 4 aroundTheEnd 3 = some (.memory 0x7001) := by decide +kernel
  obtain ⟨⟨h0, h1⟩, h2, h3⟩ := htargets
  have hbase : Aligned aroundTheEnd.ppc.pagetableBase := aligned_initial 0 aroundTheEnd.memory
  have htidy : aroundTheEnd.memory.Tidy plainEnvironment := withPageTable_tidy _
  refine ⟨h1, h2, writeToHardware_readsBack plainEnvironment_regular hbase htidy (Or.inr (Or.inr rfl)) ?_
    (fresh_of_noWay (by decide)) (fun _ => fresh_of_noWay (by decide +kernel)) ?_⟩
  · intro i hi
    obtain rfl | rfl | rfl | rfl : i = 0 ∨ i = 1 ∨ i = 2 ∨ i = 3 := by omega
    · rw [h0]; rfl
    · rw [h1]; rfl
    · rw [h2]; rfl
    · rw [h3]; rfl
  · have hentry : lastEntry plainEnvironment 0xFFFFFFFE 0x12345678 4 aroundTheEnd = some 0x4 := by decide +kernel
    have hfirst : firstSize 0xFFFFFFFE 4 = 2 := by decide
    intro e he i hi place hplace
    rw [hentry] at he
    cases he
    rw [hfirst] at hi
    obtain rfl | rfl : i = 0 ∨ i = 1 := by omega
    · rw [h0] at hplace
      cases hplace
      decide
    · rw [h1] at hplace
      cases hplace
      decide

def onePageTable : State (Bus Unit) := withPageTable [(0x40, 0x80000000), (0x44, 0x5000)]

def uncachedEnvironment : Environment Unit := { plainEnvironment with enableDcache := false }

/-- The walk for a write to `0x1000` sets the C bit of the entry of the page, in the byte at `0x47`. -/
theorem write_sets_access_bits :
    (∀ i < 4, target uncachedEnvironment 0x1000 0x12345678 4 onePageTable i = some (.memory (0x5000 + i))) ∧
    ¬ ∀ place S, place.Valid uncachedEnvironment →
      (∀ i < 4, target uncachedEnvironment 0x1000 0x12345678 4 onePageTable i ≠ some place) →
      onePageTable.memory.Keeps uncachedEnvironment place S →
      (writeToHardware uncachedEnvironment .write 0x1000 0x12345678 4 onePageTable).memory.Keeps uncachedEnvironment
        place S := by
  have htargets : ∀ i < 4, target uncachedEnvironment 0x1000 0x12345678 4 onePageTable i =
      some (.memory (0x5000 + i)) := by decide +kernel
  refine ⟨htargets, ?_⟩
  intro h
  have hkeeps := h (.memory 0x47) (· = 0) (Or.inl (by decide)) (by
    intro i hi
    rw [htargets i hi]
    intro he
    have hoffset : 0x5000 + i = 0x47 := congrArg Place.offset (Option.some.inj he)
    omega) (by decide +kernel : onePageTable.memory.dcache.mem 0x47 = 0)
  exact absurd hkeeps (by decide +kernel :
    ¬ (writeToHardware uncachedEnvironment .write 0x1000 0x12345678 4 onePageTable).memory.dcache.mem 0x47 = 0)

end Karphin.MMU
