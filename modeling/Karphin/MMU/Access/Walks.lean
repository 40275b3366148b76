import Karphin.MMU.Access.Places
import Karphin.MMU.Theorems

/-!
# What a translation leaves

The walk changes the access bits of the entry that it finds and no other byte, and the TLB translates the page from then
on.
-/

namespace Karphin.MMU

open Karphin.PPCCache (InMemory mirror)

variable {δ : Type} {env : Environment δ}

/-! ## The search -/

/-- The word at `a` is what shows of its bytes, if there are any. -/
def ReadsWord (env : Environment δ) (s : Bus δ) (a word : U32) : Prop :=
  ∀ q, PPCCache.physical env.sizes a.toNat = some q →
    ∃ bytes, word = (bigEndian 4 bytes).setWidth 32 ∧ ∀ i < 4, ∀ S, s.Keeps env (.memory (q + i)) S → S (bytes i)

theorem ReadsWord.mono {s s' : Bus δ} {a word : U32} (h : ReadsWord env s' a word) (hpres : s.Preserves env s')
    (ha : a.toNat % 4 = 0) : ReadsWord env s a word := by
  intro q hq
  obtain ⟨bytes, hword, hbytes⟩ := h q hq
  refine ⟨bytes, hword, fun i hi S hk => hbytes i hi S (hpres _ S ?_ hk)⟩
  obtain ⟨rfl, hin⟩ := PPCCache.physical_eq_some.mp hq
  have hmod := PPCCache.mirror_mod a.toNat
  exact PPCCache.InMemory.line hin (by omega)

theorem Aligned.toNat_add_four {a : U32} (ha : Aligned a) : (a + 4).toNat = a.toNat + 4 := by
  rw [Aligned] at ha
  exact @toNat_add_of_page a 4 (by omega)

theorem readWord_mirror (env : Environment δ) (s : Bus δ) (noException : Bool) {a : U32} (ha : Aligned a)
    (htop : 2 ^ 30 ≤ a.toNat) (hmem : InMemory env.sizes (mirror (a + 4).toNat)) :
    ((hardware env).readFromHardware noException a s).1 = 0 := by
  have hnext := ha.toNat_add_four
  rw [Aligned] at ha
  have hlow : mirror (a.toNat + 4) < 0x20000000 := by
    have hr := env.sizes.ram_le
    have he := env.sizes.exRam_le
    rw [hnext] at hmem
    rcases hmem with h | ⟨-, -, h⟩ <;> omega
  rw [mirror] at hlow
  have := a.isLt
  have hcross : crossesPage a 4 = false := by
    rw [Bool.eq_false_iff, ne_eq, crossesPage_iff (by decide) (by decide)]
    omega
  have hdevice : ¬ a &&& 0xF8000000 = 0x08000000 := by
    rw [device_iff]
    omega
  have hl1 : ¬ inL1Cache a = true := by
    rw [inL1Cache_iff]
    omega
  have hram : ¬ inRAM a = true := by
    rw [inRAM_iff]
    omega
  have hex : ¬ inEXRAM env a = true := by
    rw [inEXRAM_iff]
    rintro ⟨-, -, hhi⟩
    have := env.sizes.exRam_le
    omega
  have hfake : ¬ inFakeVMem env a = true := by
    rw [inFakeVMem, decide_eq_true_eq, ← BitVec.toNat_inj]
    rintro ⟨-, h⟩
    have hhigh : (a &&& 0xFE000000).toNat = a.toNat / 2 ^ 25 * 2 ^ 25 := toNat_and_high a 25
    have hvalue : (0x7E000000 : U32).toNat = 0x7E000000 := rfl
    rw [hhigh, hvalue] at h
    omega
  simp only [hardware, readUntranslated, hcross, Bool.false_eq_true, if_false, readPhysical, hdevice, and_false, hl1, hram,
    hex, hfake]
  rfl

theorem placeOf_of_physical (hram : env.sizes.ramSizeReal ≤ 0x08000000) {a : U32} (ha : a.toNat < 2 ^ 30) {q : Nat}
    (hq : PPCCache.physical env.sizes a.toNat = some q) : placeOf env a = some (.memory q) := by
  obtain ⟨rfl, hin⟩ := PPCCache.physical_eq_some.mp hq
  have hmir : mirror a.toNat = a.toNat := Nat.mod_eq_of_lt ha
  rw [hmir] at hin ⊢
  have hl1 : ¬ inL1Cache a = true := by
    rw [inL1Cache_iff]
    omega
  rw [placeOf, if_neg hl1]
  rcases hin with hlt | ⟨hx, hlo, hhi⟩
  · obtain ⟨k, -, -, hle, hoffset⟩ := ramMask_spec env
    have hsame : ramOffset env a = a.toNat := by rw [hoffset, Nat.mod_eq_of_lt (by omega)]
    rw [if_pos (inRAM_iff.mpr (by omega)), hsame, if_pos hlt]
  · have hno : ¬ inRAM a = true := by
      rw [inRAM_iff]
      omega
    have hex := env.sizes.exRam_le
    rw [if_neg hno, if_pos ((inEXRAM_iff env).mpr ⟨hx, hlo, hhi⟩), exRamOffset, toNat_and_low]
    congr 2
    omega

theorem searchPteg_spec (hram : env.sizes.ramSizeReal ≤ 0x08000000) (noException : Bool) {pte1 : U32} (hpte1 : pte1 ≠ 0) :
    ∀ (n : Nat) {a : U32} {s : Bus δ}, Aligned a → s.Tidy env →
    (searchPteg (hardware env) noException pte1 n a s).2.Tidy env ∧
    s.Preserves env (searchPteg (hardware env) noException pte1 n a s).2 ∧
    ∀ b pte2, (searchPteg (hardware env) noException pte1 n a s).1 = some (b, pte2) →
      Aligned b ∧ ReadsWord env s (b + 4) pte2
  | 0, _, s, _, hs => by
      refine ⟨hs, .refl s, ?_⟩
      intro b pte2 h
      cases h
  | n + 1, a, s, ha, hs => by
      have hnext := ha.toNat_add_four
      have ha8 := ha
      rw [Aligned] at ha8
      obtain ⟨ht, hpres, -⟩ := readWord_spec hs noException (show a.toNat % 4 = 0 by omega)
      have hzero := readWord_mirror env s noException ha
      rcases hfirst : (hardware env).readFromHardware noException a s with ⟨pteg, s₁⟩
      rw [hfirst] at ht hpres hzero
      by_cases hp : pte1 = pteg
      · obtain ⟨ht', hpres', hword⟩ := readWord_spec ht noException (show (a + 4).toNat % 4 = 0 by omega)
        rcases hsecond : (hardware env).readFromHardware noException (a + 4) s₁ with ⟨pte2, s₂⟩
        rw [hsecond] at ht' hpres' hword
        have hfound : searchPteg (hardware env) noException pte1 (n + 1) a s = (some (a, pte2), s₂) := by
          simp only [searchPteg, hfirst, if_pos hp, hsecond]
        rw [hfound]
        refine ⟨ht', hpres.trans hpres', ?_⟩
        intro b pte2' h
        cases h
        have hread : ReadsWord env s₁ (a + 4) pte2 := by
          intro q hq
          -- the first word of the entry was not zero
          have htop : a.toNat < 2 ^ 30 := by
            by_contra hge
            obtain ⟨-, hin⟩ := PPCCache.physical_eq_some.mp hq
            exact hpte1 (hp.trans (hzero (Nat.le_of_not_lt hge) hin))
          exact hword q (placeOf_of_physical hram (by omega) hq)
        exact ⟨ha, hread.mono hpres (by omega)⟩
      · obtain ⟨ht', hpres', hfound⟩ := searchPteg_spec hram noException hpte1 n ha.next ht
        have hnext' : searchPteg (hardware env) noException pte1 (n + 1) a s =
            searchPteg (hardware env) noException pte1 n (a + 8) s₁ := by
          simp only [searchPteg, hfirst, if_neg hp]
        rw [hnext']
        refine ⟨ht', hpres.trans hpres', ?_⟩
        intro b pte2 h
        obtain ⟨hb, hread⟩ := hfound b pte2 h
        have hb4 := hb.toNat_add_four
        refine ⟨hb, hread.mono hpres ?_⟩
        rw [Aligned] at hb
        omega

theorem pte1_ne_zero (api vsid : U32) (h : Bool) : UPTE_Lo.hex api vsid h true ≠ 0 := by
  intro h0
  have hbit := congrArg (fun x : U32 => x.getLsbD 31) h0
  simp [UPTE_Lo.hex] at hbit

theorem searchPageTable_spec (hram : env.sizes.ramSizeReal ≤ 0x08000000) (noException : Bool) {ppc : PowerPCState}
    (hbase : Aligned ppc.pagetableBase) {s : Bus δ} (hs : s.Tidy env) (vsid pageIndex api : U32) :
    (searchPageTable (hardware env) noException ppc vsid pageIndex api s).2.Tidy env ∧
    s.Preserves env (searchPageTable (hardware env) noException ppc vsid pageIndex api s).2 ∧
    ∀ b pte2, (searchPageTable (hardware env) noException ppc vsid pageIndex api s).1 = some (b, pte2) →
      Aligned b ∧ ReadsWord env s (b + 4) pte2 := by
  have hgroup := aligned_group hbase
  obtain ⟨ht, hpres, hfound⟩ := searchPteg_spec hram noException (pte1_ne_zero api vsid false) 8
    (hgroup ((vsid ^^^ pageIndex) &&& ppc.pagetableHashmask)) hs
  simp only [searchPageTable]
  revert ht hpres hfound
  rcases searchPteg (hardware env) noException (UPTE_Lo.hex api vsid false true) 8
    (((vsid ^^^ pageIndex) &&& ppc.pagetableHashmask) <<< 6 ||| ppc.pagetableBase) s with ⟨_ | entry, s₁⟩
  · intro ht hpres _
    obtain ⟨ht', hpres', hfound'⟩ := searchPteg_spec hram noException (pte1_ne_zero api vsid true) 8
      (hgroup (~~~(vsid ^^^ pageIndex) &&& ppc.pagetableHashmask)) ht
    refine ⟨ht', hpres.trans hpres', ?_⟩
    intro b pte2 h
    obtain ⟨hb, hread⟩ := hfound' b pte2 h
    have hb4 := hb.toNat_add_four
    refine ⟨hb, hread.mono hpres ?_⟩
    rw [Aligned] at hb
    omega
  · intro ht hpres hfound
    exact ⟨ht, hpres, hfound⟩

/-! ## The access bits -/

variable (env) in
/-- What the access bits add to the byte: R and C lie in the two last bytes of the word at `entry`. -/
def accessMask (entry : U32) : Place → UInt8
  | .memory p =>
    match PPCCache.physical env.sizes entry.toNat with
    | some q => if q ≤ p ∧ p < q + 4 then hostBytes (swap32 0x180) (p - q) else 0
    | none => 0
  | _ => 0

theorem setAccessBits_write (pte2 : U32) : setAccessBits .write pte2 = pte2 ||| 0x180 := by
  rw [setAccessBits, UPTE_Hi.setC, UPTE_Hi.setR, BitVec.or_assoc]
  rfl

theorem writeAccessBits_spec {s s' : Bus δ} (hs : s'.Tidy env) (hpres : s.Preserves env s') {a pte2 : U32}
    (ha : a.toNat % 4 = 0) (hread : ReadsWord env s a pte2) :
    ((hardware env).writeU32 (setAccessBits .write pte2) a s').Tidy env ∧
    ∀ place S, place.Valid env → (∀ x, S x → S (x ||| accessMask env a place)) → s.Keeps env place S →
      ((hardware env).writeU32 (setAccessBits .write pte2) a s').Keeps env place S := by
  refine ⟨fun hd => (hs hd).store_behind _, ?_⟩
  intro place S hv hclosed hk₀
  have hk := hpres place S hv hk₀
  cases place with
  | l1Cache p => exact hk
  | fakeVMem p => exact hk
  | memory p =>
      have hmem : (PPCCache.copyToEmu env.sizes s'.dcache.mem a.toNat
          (hostBytes (swap32 (setAccessBits .write pte2))) 4 p = s'.dcache.mem p) ∨
          S (PPCCache.copyToEmu env.sizes s'.dcache.mem a.toNat (hostBytes (swap32 (setAccessBits .write pte2))) 4 p) := by
        cases hq : PPCCache.physical env.sizes a.toNat with
        | none =>
            left
            rw [PPCCache.copyToEmu_unbacked]
            simp [PPCCache.Backed, hq]
        | some q =>
            obtain ⟨rfl, hin⟩ := PPCCache.physical_eq_some.mp hq
            rw [PPCCache.copyToEmu_backed (PPCCache.backed_iff.mpr hin) (by omega)]
            split
            · next hp =>
                right
                obtain ⟨bytes, hpte, hbytes⟩ := hread _ hq
                have hi : p - mirror a.toNat < 4 := by omega
                have hmask : accessMask env a (.memory p) = hostBytes (swap32 0x180) (p - mirror a.toNat) := by
                  simp only [accessMask, hq, if_pos hp]
                rw [setAccessBits_write, hostBytes_swap32_or _ _ hi, hpte, hostBytes_swap32_bigEndian _ hi, ← hmask]
                apply hclosed
                apply hbytes _ hi
                rwa [show mirror a.toNat + (p - mirror a.toNat) = p by omega]
            · exact Or.inl rfl
      by_cases hd : env.enableDcache = true
      · rw [Bus.keeps_memory_enabled hd] at hk ⊢
        exact (hs hd).coherent.keeps_behind hk hmem
      · rw [Bus.keeps_memory_disabled hd] at hk ⊢
        rcases hmem with heq | hS
        · simp only [hardware]
          rwa [heq]
        · exact hS

def foundEntry (env : Environment δ) (address : U32) (s : State (Bus δ)) : Option U32 :=
  if SegmentForbids s.ppc .write address then none
  else
    (searchPageTable (hardware env) false s.ppc (UReg_SR.vsid (s.ppc.sr (EffectiveAddress.sr address)))
      (EffectiveAddress.pageIndex address) (EffectiveAddress.api address) s.memory).1.map fun entry => entry.1 + 4

/-- The same for a write, which walks only when neither a BAT nor the TLB translates the address. -/
def walkedEntry (env : Environment δ) (address : U32) (s : State (Bus δ)) : Option U32 :=
  if env.dr && (translateBatAddress env.dbatTable address).isNone then
    match (lookupTLBPageAddress s.ppc .write address (UReg_SR.vsid (s.ppc.sr (EffectiveAddress.sr address)))).1 with
    | .found _ _ => none
    | _ => foundEntry env address s
  else none

/-- From `s` to `s'`, a byte stays where it was, access bits of the entry aside. -/
def KeepsBut (env : Environment δ) (entry : Option U32) (s s' : Bus δ) : Prop :=
  ∀ place S, place.Valid env → (∀ e, entry = some e → ∀ x, S x → S (x ||| accessMask env e place)) →
    s.Keeps env place S → s'.Keeps env place S

theorem Bus.Preserves.keepsBut {s s' : Bus δ} (h : s.Preserves env s') (entry : Option U32) : KeepsBut env entry s s' :=
  fun place S hv _ hk => h place S hv hk

section Walk

variable {address : U32} {res : TLBLookupResult} {s : State (Bus δ)}

theorem translateByPageTable_direct (h : SegmentForbids s.ppc .write address) :
    translateByPageTable (hardware env) .write address res s = (⟨.directStoreSegment, 0⟩, none, s) := by
  have hdirect : UReg_SR.t (s.ppc.sr (EffectiveAddress.sr address)) = true := by
    simpa [SegmentForbids, XCheckTLBFlag.isOpcodeFlag] using h
  simp only [translateByPageTable, hdirect, if_true]

theorem translateByPageTable_fault (h : ¬ SegmentForbids s.ppc .write address) {m : Bus δ}
    (hsearch : searchPageTable (hardware env) false s.ppc (UReg_SR.vsid (s.ppc.sr (EffectiveAddress.sr address)))
      (EffectiveAddress.pageIndex address) (EffectiveAddress.api address) s.memory = (none, m)) :
    translateByPageTable (hardware env) .write address res s = (⟨.pageFault, 0⟩, none, { s with memory := m }) := by
  have hdirect : ¬ UReg_SR.t (s.ppc.sr (EffectiveAddress.sr address)) = true := fun ht => h (Or.inl ht)
  have hopcode : XCheckTLBFlag.write.isOpcodeFlag = false := rfl
  have hno : XCheckTLBFlag.write.isNoExceptionFlag = false := rfl
  simp only [translateByPageTable]
  rw [if_neg hdirect, hopcode, Bool.false_and, if_neg Bool.false_ne_true, hno, hsearch]

theorem translateByPageTable_found (h : ¬ SegmentForbids s.ppc .write address) {m : Bus δ} {b pte2 : U32}
    (hsearch : searchPageTable (hardware env) false s.ppc (UReg_SR.vsid (s.ppc.sr (EffectiveAddress.sr address)))
      (EffectiveAddress.pageIndex address) (EffectiveAddress.api address) s.memory = (some (b, pte2), m)) :
    translateByPageTable (hardware env) .write address res s =
      (⟨.pageTableTranslated, (UPTE_Hi.rpn (setAccessBits .write pte2) <<< 12) ||| EffectiveAddress.offset address⟩,
        some (UPTE_Hi.wi (setAccessBits .write pte2)),
        ⟨if res = .updateC then s.ppc
          else updateTLBEntry s.ppc .write (setAccessBits .write pte2) address
            (UReg_SR.vsid (s.ppc.sr (EffectiveAddress.sr address))),
          (hardware env).writeU32 (setAccessBits .write pte2) (b + 4) m⟩) := by
  have hdirect : ¬ UReg_SR.t (s.ppc.sr (EffectiveAddress.sr address)) = true := fun ht => h (Or.inl ht)
  have hopcode : XCheckTLBFlag.write.isOpcodeFlag = false := rfl
  have hno : XCheckTLBFlag.write.isNoExceptionFlag = false := rfl
  simp only [translateByPageTable]
  rw [if_neg hdirect, hopcode, Bool.false_and, if_neg Bool.false_ne_true, hno, hsearch]
  simp only [Bool.false_eq_true, if_false]

theorem translateByPageTable_success
    (h : (translateByPageTable (hardware env) .write address res s).1.result = .pageTableTranslated) :
    ∃ b pte2 m, translateByPageTable (hardware env) .write address res s =
      (⟨.pageTableTranslated, (UPTE_Hi.rpn (setAccessBits .write pte2) <<< 12) ||| EffectiveAddress.offset address⟩,
        some (UPTE_Hi.wi (setAccessBits .write pte2)),
        ⟨if res = .updateC then s.ppc
          else updateTLBEntry s.ppc .write (setAccessBits .write pte2) address
            (UReg_SR.vsid (s.ppc.sr (EffectiveAddress.sr address))),
          (hardware env).writeU32 (setAccessBits .write pte2) (b + 4) m⟩) := by
  have hallowed : ¬ SegmentForbids s.ppc .write address := fun hforbidden => translateByPageTable_forbidden res hforbidden h
  rcases hsearch : searchPageTable (hardware env) false s.ppc
    (UReg_SR.vsid (s.ppc.sr (EffectiveAddress.sr address))) (EffectiveAddress.pageIndex address)
    (EffectiveAddress.api address) s.memory with ⟨_ | ⟨b, pte2⟩, m⟩
  · rw [translateByPageTable_fault hallowed hsearch] at h
    cases h
  · exact ⟨b, pte2, m, translateByPageTable_found hallowed hsearch⟩

theorem translateByPageTable_keeps (hram : env.sizes.ramSizeReal ≤ 0x08000000) (hbase : Aligned s.ppc.pagetableBase)
    (hs : s.memory.Tidy env) (address : U32) (res : TLBLookupResult) :
    (translateByPageTable (hardware env) .write address res s).2.2.memory.Tidy env ∧
    KeepsBut env (foundEntry env address s) s.memory
      (translateByPageTable (hardware env) .write address res s).2.2.memory := by
  obtain ⟨ht, hpres, hfound⟩ := searchPageTable_spec hram false hbase hs
    (UReg_SR.vsid (s.ppc.sr (EffectiveAddress.sr address))) (EffectiveAddress.pageIndex address)
    (EffectiveAddress.api address)
  by_cases hforbidden : SegmentForbids s.ppc .write address
  · rw [translateByPageTable_direct hforbidden]
    exact ⟨hs, (Bus.Preserves.refl s.memory).keepsBut _⟩
  · rw [foundEntry, if_neg hforbidden]
    rcases hsearch : searchPageTable (hardware env) false s.ppc
      (UReg_SR.vsid (s.ppc.sr (EffectiveAddress.sr address))) (EffectiveAddress.pageIndex address)
      (EffectiveAddress.api address) s.memory with ⟨_ | ⟨b, pte2⟩, m⟩
    · rw [hsearch] at ht hpres
      rw [translateByPageTable_fault hforbidden hsearch]
      exact ⟨ht, hpres.keepsBut _⟩
    · rw [hsearch] at ht hpres hfound
      rw [translateByPageTable_found hforbidden hsearch]
      obtain ⟨hb, hread⟩ := hfound b pte2 rfl
      have hb4 := hb.toNat_add_four
      rw [Aligned] at hb
      obtain ⟨ht', hkeep⟩ := writeAccessBits_spec ht hpres (show (b + 4).toNat % 4 = 0 by omega) hread
      exact ⟨ht', fun place S hv hclosed hk => hkeep place S hv (hclosed _ rfl) hk⟩

end Walk

/-! ## The TLB after a write -/

theorem lookup_eq (ppc : PowerPCState) (flag : XCheckTLBFlag) (vpa vsid : U32) :
    lookupTLBPageAddress ppc flag vpa vsid = match matchingWay ppc flag vpa vsid with
      | some w =>
        ((lookupWay flag vpa (ppc.tlb (tlbIndex flag) (entryIndex (tag vpa))) w).1,
          ppc.setTlb (tlbIndex flag) (entryIndex (tag vpa))
            (lookupWay flag vpa (ppc.tlb (tlbIndex flag) (entryIndex (tag vpa))) w).2)
      | none => (.notFound, ppc) := by
  simp only [lookupTLBPageAddress, matchingWay]
  split
  · rfl
  · split <;> rfl

def afterTranslation (env : Environment δ) (address : U32) (s : State (Bus δ)) : State (Bus δ) :=
  if env.dr then (translateAddress env .write address s).2 else s

/-- Where a write to the address goes, if it is translated and neither write-through nor cache-inhibited. -/
def translated (env : Environment δ) (address : U32) (s : State (Bus δ)) : Option U32 :=
  if env.dr then
    let result := (translateAddress env .write address s).1
    if result.success && !result.wi then some result.address else none
  else some address

/-- A way of the TLB that holds the page of the address is not out of date. -/
def Fresh (env : Environment δ) (address : U32) (s : State (Bus δ)) : Prop :=
  env.dr = true → translateBatAddress env.dbatTable address = none →
    ∀ w, matchingWay s.ppc .write address (UReg_SR.vsid (s.ppc.sr (EffectiveAddress.sr address))) = some w →
      ∀ t, translated env address s = some t → (s.ppc.tlb 0 (entryIndex (tag address))).paddr w = pageOf t

/-- Loads of `address` go to `t`, and no page table is looked at. -/
def Resolves (env : Environment δ) (ppc : PowerPCState) (address t : U32) : Prop :=
  if env.dr then
    match translateBatAddress env.dbatTable address with
    | some (u, wi) => u = t ∧ wi = false
    | none => ∃ w, matchingWay ppc .read address (UReg_SR.vsid (ppc.sr (EffectiveAddress.sr address))) = some w ∧
        (ppc.tlb 0 (entryIndex (tag address))).paddr w ||| EffectiveAddress.offset address = t
  else address = t

theorem matchingWay_sameWay {ppc ppc' : PowerPCState} (flag : XCheckTLBFlag) {address : U32}
    (hway : SameWays (ppc.tlb (tlbIndex flag) (entryIndex (tag address)))
      (ppc'.tlb (tlbIndex flag) (entryIndex (tag address)))) (vsid : U32) :
    matchingWay ppc' flag address vsid = matchingWay ppc flag address vsid := by
  simp only [matchingWay, (hway 0).1, (hway 0).2.1, (hway 1).1, (hway 1).2.1]

theorem Resolves.mono {ppc ppc' : PowerPCState} {address t : U32} (h : Resolves env ppc address t)
    (hsr : ppc'.sr = ppc.sr) (hway : SameWays (ppc.tlb 0 (entryIndex (tag address))) (ppc'.tlb 0 (entryIndex (tag address)))) :
    Resolves env ppc' address t := by
  rw [Resolves] at h ⊢
  by_cases hdr : env.dr = true
  · rw [if_pos hdr] at h ⊢
    cases hbat : translateBatAddress env.dbatTable address with
    | some result =>
        rw [hbat] at h
        exact h
    | none =>
        rw [hbat] at h
        obtain ⟨w, hmatch, haddr⟩ := h
        refine ⟨w, ?_, ?_⟩
        · rw [matchingWay_sameWay .read hway, hsr]
          exact hmatch
        · rw [(hway w).2.2.1]
          exact haddr
  · rw [if_neg hdr] at h ⊢
    exact h

/-! ### Pages and offsets -/

theorem toNat_or_of_lt {k : Nat} {base low : U32} (hbase : base.toNat % 2 ^ k = 0) (hlow : low.toNat < 2 ^ k) :
    (base ||| low).toNat = base.toNat + low.toNat := by
  have hdiv : base.toNat = 2 ^ k * (base.toNat / 2 ^ k) := (Nat.mul_div_cancel' (Nat.dvd_of_mod_eq_zero hbase)).symm
  rw [BitVec.toNat_or, hdiv, ← Nat.two_pow_add_eq_or_of_lt hlow]

theorem toNat_offset (a : U32) : (EffectiveAddress.offset a).toNat = a.toNat % 4096 := by
  rw [EffectiveAddress.offset, BitVec.toNat_and]
  exact Nat.and_two_pow_sub_one_eq_mod _ 12

theorem pageOf_or_offset {base : U32} (hbase : base.toNat % 4096 = 0) (a : U32) :
    pageOf (base ||| EffectiveAddress.offset a) = base := by
  have hlow : (EffectiveAddress.offset a).toNat < 2 ^ 12 := by
    rw [toNat_offset]
    exact Nat.mod_lt _ (by decide)
  rw [← BitVec.toNat_inj, toNat_pageOf, toNat_or_of_lt (k := 12) hbase hlow]
  omega

theorem or_offset_add {base a : U32} {i : Nat} (hbase : base.toNat % 4096 = 0) (hi : a.toNat % 4096 + i < 4096) :
    base ||| EffectiveAddress.offset (a + BitVec.ofNat 32 i) =
      (base ||| EffectiveAddress.offset a) + BitVec.ofNat 32 i := by
  have hlow : ∀ x : U32, (EffectiveAddress.offset x).toNat < 2 ^ 12 := by
    intro x
    rw [toNat_offset]
    exact Nat.mod_lt _ (by decide)
  have hfirst := toNat_or_of_lt (k := 12) hbase (hlow a)
  rw [toNat_offset] at hfirst
  have hsum := @toNat_add_of_page (base ||| EffectiveAddress.offset a) i (by omega)
  rw [← BitVec.toNat_inj, hsum, toNat_or_of_lt (k := 12) hbase (hlow _), toNat_offset, toNat_add_of_page hi, hfirst]
  omega

theorem tag_add {a : U32} {i : Nat} (hi : a.toNat % 4096 + i < 4096) : tag (a + BitVec.ofNat 32 i) = tag a := by
  rw [← BitVec.toNat_inj, tag, tag, BitVec.toNat_ushiftRight, BitVec.toNat_ushiftRight, toNat_add_of_page hi,
    Nat.shiftRight_eq_div_pow, Nat.shiftRight_eq_div_pow]
  omega

theorem sr_of_tag {a b : U32} (h : tag a = tag b) : EffectiveAddress.sr a = EffectiveAddress.sr b := by
  have hsr : ∀ x : U32, EffectiveAddress.sr x = ((tag x).extractLsb' 16 4).toFin := by
    intro x
    simp only [EffectiveAddress.sr, tag]
    congr 1
  rw [hsr, hsr, h]

/-! ### A page that has been written to -/

def HoldsPage (ppc : PowerPCState) (address t : U32) : Prop :=
  ∃ w, matchingWay ppc .read address (UReg_SR.vsid (ppc.sr (EffectiveAddress.sr address))) = some w ∧
    (ppc.tlb 0 (entryIndex (tag address))).paddr w = pageOf t

/-- What a translation by the page table leaves in the registers: the page is in the TLB, and the other entries hold what
they held. -/
structure Entered (ppc ppc' : PowerPCState) (address t : U32) : Prop where
  frame : t = pageOf t ||| EffectiveAddress.offset address
  sr : ppc'.sr = ppc.sr
  base : ppc'.pagetableBase = ppc.pagetableBase
  page : HoldsPage ppc' address t
  others : ∀ n, n ≠ entryIndex (tag address) → SameWays (ppc.tlb 0 n) (ppc'.tlb 0 n)

theorem setTlb_hit {ppc : PowerPCState} {address t : U32} {w : Fin 2} {tlbe : TLBEntry}
    (hway : matchingWay ppc .write address (UReg_SR.vsid (ppc.sr (EffectiveAddress.sr address))) = some w)
    (hpaddr : (ppc.tlb 0 (entryIndex (tag address))).paddr w = pageOf t)
    (hsame : SameWays (ppc.tlb 0 (entryIndex (tag address))) tlbe)
    (hframe : t = pageOf t ||| EffectiveAddress.offset address) :
    Entered ppc (ppc.setTlb 0 (entryIndex (tag address)) tlbe) address t where
  frame := hframe
  sr := rfl
  base := rfl
  page := by
    have hways := setTlb_sameWays hsame 0 (entryIndex (tag address))
    refine ⟨w, ?_, (hways w).2.2.1.trans hpaddr⟩
    exact (matchingWay_sameWay .read hways _).trans hway
  others n _ := setTlb_sameWays hsame 0 n

theorem updateTLBEntry_miss {ppc : PowerPCState} {address pte2 : U32}
    (hway : matchingWay ppc .write address (UReg_SR.vsid (ppc.sr (EffectiveAddress.sr address))) = none) :
    Entered ppc (updateTLBEntry ppc .write pte2 address (UReg_SR.vsid (ppc.sr (EffectiveAddress.sr address)))) address
      ((UPTE_Hi.rpn pte2 <<< 12) ||| EffectiveAddress.offset address) := by
  have hframe : (UPTE_Hi.rpn pte2 <<< 12).toNat % 4096 = 0 := by
    rw [BitVec.toNat_shiftLeft, Nat.shiftLeft_eq]
    omega
  have hpage := pageOf_or_offset hframe address
  have hupdate : updateTLBEntry ppc .write pte2 address (UReg_SR.vsid (ppc.sr (EffectiveAddress.sr address))) =
      ppc.setTlb 0 (entryIndex (tag address)) ((ppc.tlb 0 (entryIndex (tag address))).fill
        (if (ppc.tlb 0 (entryIndex (tag address))).recent = 0 ∧
          (ppc.tlb 0 (entryIndex (tag address))).tag 0 ≠ TLBEntry.invalidTag then 1 else 0) pte2 (tag address)
        (UReg_SR.vsid (ppc.sr (EffectiveAddress.sr address)))) := rfl
  rw [hupdate]
  generalize (if (ppc.tlb 0 (entryIndex (tag address))).recent = 0 ∧
    (ppc.tlb 0 (entryIndex (tag address))).tag 0 ≠ TLBEntry.invalidTag then (1 : Fin 2) else 0) = index
  constructor
  · rw [hpage]
  · rfl
  · rfl
  · have hnomatch : ∀ w, ¬ ((ppc.tlb 0 (entryIndex (tag address))).tag w = tag address ∧
        (ppc.tlb 0 (entryIndex (tag address))).vsid w = UReg_SR.vsid (ppc.sr (EffectiveAddress.sr address))) := by
      have hwrite : tlbIndex .write = 0 := rfl
      simp only [matchingWay, hwrite] at hway
      split at hway
      · cases hway
      · next h0 =>
          split at hway
          · cases hway
          · next h1 => exact Fin.forall_fin_two.mpr ⟨h0, h1⟩
    refine ⟨index, ?_, ?_⟩
    · have hentry : (ppc.setTlb 0 (entryIndex (tag address)) ((ppc.tlb 0 (entryIndex (tag address))).fill index pte2
          (tag address) (UReg_SR.vsid (ppc.sr (EffectiveAddress.sr address))))).tlb 0 (entryIndex (tag address)) =
          (ppc.tlb 0 (entryIndex (tag address))).fill index pte2 (tag address)
            (UReg_SR.vsid (ppc.sr (EffectiveAddress.sr address))) := by
        simp only [PowerPCState.setTlb, Function.update_self]
      have hsr : (ppc.setTlb 0 (entryIndex (tag address)) ((ppc.tlb 0 (entryIndex (tag address))).fill index pte2
          (tag address) (UReg_SR.vsid (ppc.sr (EffectiveAddress.sr address))))).sr = ppc.sr := rfl
      have hread : tlbIndex .read = 0 := rfl
      simp only [matchingWay, hread, hentry, hsr]
      simp only [TLBEntry.fill]
      have hfirst := hnomatch 0
      fin_cases index
      · simp
      · simp [hfirst]
    · simp only [PowerPCState.setTlb, Function.update_self, TLBEntry.fill, hpage]
  · intro n hn
    have hother : (ppc.setTlb 0 (entryIndex (tag address)) ((ppc.tlb 0 (entryIndex (tag address))).fill index pte2
        (tag address) (UReg_SR.vsid (ppc.sr (EffectiveAddress.sr address))))).tlb 0 n = ppc.tlb 0 n := by
      simp only [PowerPCState.setTlb, Function.update_self, Function.update_of_ne hn]
    rw [hother]
    exact sameWays_refl _

theorem lookup_write_cases (ppc : PowerPCState) (address : U32) :
    (∃ w tlbe wi, matchingWay ppc .write address (UReg_SR.vsid (ppc.sr (EffectiveAddress.sr address))) = some w ∧
      SameWays (ppc.tlb 0 (entryIndex (tag address))) tlbe ∧
      lookupTLBPageAddress ppc .write address (UReg_SR.vsid (ppc.sr (EffectiveAddress.sr address))) =
        (.found ((ppc.tlb 0 (entryIndex (tag address))).paddr w ||| EffectiveAddress.offset address) wi,
          ppc.setTlb 0 (entryIndex (tag address)) tlbe)) ∨
    (∃ w tlbe, matchingWay ppc .write address (UReg_SR.vsid (ppc.sr (EffectiveAddress.sr address))) = some w ∧
      SameWays (ppc.tlb 0 (entryIndex (tag address))) tlbe ∧
      lookupTLBPageAddress ppc .write address (UReg_SR.vsid (ppc.sr (EffectiveAddress.sr address))) =
        (.updateC, ppc.setTlb 0 (entryIndex (tag address)) tlbe)) ∨
    (matchingWay ppc .write address (UReg_SR.vsid (ppc.sr (EffectiveAddress.sr address))) = none ∧
      lookupTLBPageAddress ppc .write address (UReg_SR.vsid (ppc.sr (EffectiveAddress.sr address))) =
        (.notFound, ppc)) := by
  have hwrite : tlbIndex .write = 0 := rfl
  rw [lookup_eq, hwrite]
  cases hway : matchingWay ppc .write address (UReg_SR.vsid (ppc.sr (EffectiveAddress.sr address))) with
  | none => exact Or.inr (Or.inr ⟨rfl, rfl⟩)
  | some w =>
      have hsame := sameWays_lookupWay .write address (ppc.tlb 0 (entryIndex (tag address))) w
      by_cases hc : UPTE_Hi.c ((ppc.tlb 0 (entryIndex (tag address))).pte w) = false
      · refine Or.inr (Or.inl ⟨w, _, rfl, hsame, ?_⟩)
        have hresult : (lookupWay .write address (ppc.tlb 0 (entryIndex (tag address))) w).1 = .updateC := by
          simp [lookupWay, hc]
        simp only [hresult]
      · refine Or.inl ⟨w, _, UPTE_Hi.wi ((ppc.tlb 0 (entryIndex (tag address))).pte w), rfl, hsame, ?_⟩
        have hresult : (lookupWay .write address (ppc.tlb 0 (entryIndex (tag address))) w).1 =
            .found ((ppc.tlb 0 (entryIndex (tag address))).paddr w ||| EffectiveAddress.offset address)
              (UPTE_Hi.wi ((ppc.tlb 0 (entryIndex (tag address))).pte w)) := by
          simp [lookupWay, hc, EffectiveAddress.offset]
        simp only [hresult]

theorem translatePageAddress_entered {address : U32} {s : State (Bus δ)}
    (hresult : (translatePageAddress (hardware env) .write address s).1.result = .pageTableTranslated)
    (hfresh : ∀ w, matchingWay s.ppc .write address (UReg_SR.vsid (s.ppc.sr (EffectiveAddress.sr address))) = some w →
      (s.ppc.tlb 0 (entryIndex (tag address))).paddr w =
        pageOf (translatePageAddress (hardware env) .write address s).1.address) :
    Entered s.ppc (translatePageAddress (hardware env) .write address s).2.2.ppc address
      (translatePageAddress (hardware env) .write address s).1.address := by
  have hframe : ∀ pte2 : U32, (UPTE_Hi.rpn pte2 <<< 12).toNat % 4096 = 0 := by
    intro pte2
    rw [BitVec.toNat_shiftLeft, Nat.shiftLeft_eq]
    omega
  rcases lookup_write_cases s.ppc address with
    ⟨w, tlbe, wi, hway, hsame, hlookup⟩ | ⟨w, tlbe, hway, hsame, hlookup⟩ | ⟨hway, hlookup⟩
  · have hfound := hfresh w hway
    simp only [translatePageAddress, hlookup] at hfound ⊢
    exact setTlb_hit hway hfound hsame (by rw [← hfound])
  · have hfound := hfresh w hway
    simp only [translatePageAddress, hlookup] at hresult hfound ⊢
    obtain ⟨b, pte2, m, hwalk⟩ := translateByPageTable_success hresult
    rw [hwalk] at hfound ⊢
    exact setTlb_hit hway hfound hsame (by rw [pageOf_or_offset (hframe _)])
  · simp only [translatePageAddress, hlookup] at hresult ⊢
    obtain ⟨b, pte2, m, hwalk⟩ := translateByPageTable_success hresult
    rw [hwalk]
    exact updateTLBEntry_miss hway

theorem translatePageAddress_keeps (hram : env.sizes.ramSizeReal ≤ 0x08000000) {s : State (Bus δ)}
    (hbase : Aligned s.ppc.pagetableBase) (hs : s.memory.Tidy env) (address : U32) :
    (translatePageAddress (hardware env) .write address s).2.2.memory.Tidy env ∧
    KeepsBut env
      (match (lookupTLBPageAddress s.ppc .write address (UReg_SR.vsid (s.ppc.sr (EffectiveAddress.sr address)))).1 with
        | .found _ _ => none
        | _ => foundEntry env address s)
      s.memory (translatePageAddress (hardware env) .write address s).2.2.memory := by
  rcases lookup_write_cases s.ppc address with
    ⟨w, tlbe, wi, -, -, hlookup⟩ | ⟨w, tlbe, -, -, hlookup⟩ | ⟨-, hlookup⟩
  · simp only [translatePageAddress, hlookup]
    exact ⟨hs, (Bus.Preserves.refl s.memory).keepsBut _⟩
  · simp only [translatePageAddress, hlookup]
    exact translateByPageTable_keeps
      (s := { s with ppc := s.ppc.setTlb 0 (entryIndex (tag address)) tlbe }) hram hbase hs address .updateC
  · simp only [translatePageAddress, hlookup]
    exact translateByPageTable_keeps hram hbase hs address .notFound

/-! ## Any address -/

structure Environment.Regular (env : Environment δ) : Prop where
  ram : env.sizes.ramSizeReal ≤ 0x08000000
  frames : Framed env.dbatTable

section Any

variable {address t : U32} {s : State (Bus δ)}

theorem translated_cases (h : translated env address s = some t) :
    (env.dr = false ∧ t = address ∧ afterTranslation env address s = s) ∨
    (env.dr = true ∧ translateBatAddress env.dbatTable address = some (t, false) ∧ afterTranslation env address s = s) ∨
    (env.dr = true ∧ translateBatAddress env.dbatTable address = none ∧
      (translatePageAddress (hardware env) .write address s).1 = ⟨.pageTableTranslated, t⟩ ∧
      afterTranslation env address s = (translatePageAddress (hardware env) .write address s).2.2) := by
  have hopcode : XCheckTLBFlag.write.isOpcodeFlag = false := rfl
  rw [translated] at h
  rw [afterTranslation]
  by_cases hdr : env.dr = true
  · right
    rw [if_pos hdr] at h ⊢
    simp only [translateAddress, hopcode, Bool.false_eq_true, if_false] at h ⊢
    cases hbat : translateBatAddress env.dbatTable address with
    | some result =>
        obtain ⟨u, wi⟩ := result
        simp only [hbat] at h
        left
        cases wi with
        | false =>
            simp [AddressResult.success] at h
            exact ⟨hdr, by rw [h], rfl⟩
        | true => simp at h
    | none =>
        simp only [hbat] at h
        right
        rcases hpage : (translatePageAddress (hardware env) .write address s).1 with ⟨result, u⟩
        rw [hpage] at h
        cases result with
        | pageTableTranslated =>
            simp [AddressResult.ofPage, AddressResult.success] at h
            exact ⟨hdr, rfl, by rw [h], rfl⟩
        | directStoreSegment => simp [AddressResult.ofPage, AddressResult.success] at h
        | pageFault => simp [AddressResult.ofPage, AddressResult.success] at h
  · left
    rw [if_neg hdr] at h ⊢
    cases h
    exact ⟨Bool.eq_false_iff.mpr hdr, rfl, rfl⟩

theorem afterTranslation_keeps (henv : env.Regular) (hbase : Aligned s.ppc.pagetableBase) (hs : s.memory.Tidy env)
    (h : translated env address s = some t) :
    (afterTranslation env address s).memory.Tidy env ∧
    KeepsBut env (walkedEntry env address s) s.memory (afterTranslation env address s).memory := by
  rcases translated_cases h with ⟨hdr, -, hstate⟩ | ⟨hdr, hbat, hstate⟩ | ⟨hdr, hbat, -, hstate⟩ <;> rw [hstate]
  · exact ⟨hs, (Bus.Preserves.refl s.memory).keepsBut _⟩
  · exact ⟨hs, (Bus.Preserves.refl s.memory).keepsBut _⟩
  · rw [walkedEntry, hdr, hbat, Option.isNone_none, Bool.and_self, if_pos rfl]
    exact translatePageAddress_keeps henv.ram hbase hs address

theorem afterTranslation_base (h : translated env address s = some t) :
    (afterTranslation env address s).ppc.pagetableBase = s.ppc.pagetableBase := by
  rcases translated_cases h with ⟨-, -, hstate⟩ | ⟨-, -, hstate⟩ | ⟨-, -, -, hstate⟩ <;> rw [hstate]
  exact pagetableBase_translate (hardware env) .write address s

theorem afterTranslation_entered (hfresh : Fresh env address s) (hdr : env.dr = true)
    (hbat : translateBatAddress env.dbatTable address = none) (h : translated env address s = some t) :
    Entered s.ppc (afterTranslation env address s).ppc address t := by
  rcases translated_cases h with ⟨hno, -, -⟩ | ⟨-, hblock, -⟩ | ⟨-, -, hresult, hstate⟩
  · rw [hdr] at hno
    cases hno
  · rw [hbat] at hblock
    cases hblock
  · rw [hstate]
    have hsuccess : (translatePageAddress (hardware env) .write address s).1.result = .pageTableTranslated := by rw [hresult]
    have hentered := translatePageAddress_entered hsuccess (by
      intro w hway
      rw [hresult]
      exact hfresh hdr hbat w hway t h)
    rwa [hresult] at hentered

theorem batIndex_add {i : Nat} (hi : address.toNat % 4096 + i < 4096) :
    batIndex (address + BitVec.ofNat 32 i) = batIndex address := by
  rw [← BitVec.toNat_inj, batIndex, batIndex, BitVec.extractLsb'_toNat, BitVec.extractLsb'_toNat, toNat_add_of_page hi,
    Nat.shiftRight_eq_div_pow, Nat.shiftRight_eq_div_pow]
  omega

theorem translateBatAddress_add (henv : env.Regular) {wi : Bool} {i : Nat} (hi : address.toNat % 4096 + i < 4096)
    (h : translateBatAddress env.dbatTable address = some (t, wi)) :
    t.toNat % 4096 = address.toNat % 4096 ∧
    translateBatAddress env.dbatTable (address + BitVec.ofNat 32 i) = some (t + BitVec.ofNat 32 i, wi) := by
  have hlow : ∀ a : U32, (a &&& (BAT_PAGE_SIZE - 1)).toNat = a.toNat % 2 ^ 17 := by
    intro a
    rw [BitVec.toNat_and]
    exact Nat.and_two_pow_sub_one_eq_mod _ 17
  have hlt : ∀ a : U32, (a &&& (BAT_PAGE_SIZE - 1)).toNat < 2 ^ 17 := by
    intro a
    rw [hlow]
    exact Nat.mod_lt _ (by decide)
  have hframe := henv.frames (batIndex address)
  simp only [translateBatAddress, batIndex_add hi] at h ⊢
  split at h
  · cases h
  · next hmapped =>
      rw [if_neg hmapped]
      cases h
      have hfirst := toNat_or_of_lt hframe (hlt address)
      rw [hlow] at hfirst
      have hoffset : (env.dbatTable (batIndex address) &&& BAT_RESULT_MASK |||
          address &&& (BAT_PAGE_SIZE - 1)).toNat % 4096 = address.toNat % 4096 := by
        rw [hfirst]
        omega
      refine ⟨hoffset, ?_⟩
      congr 2
      rw [← BitVec.toNat_inj, toNat_add_of_page (by rw [hoffset]; exact hi), toNat_or_of_lt hframe (hlt _), hlow,
        toNat_add_of_page hi, hfirst]
      omega

theorem translated_offset (henv : env.Regular) (hfresh : Fresh env address s) (h : translated env address s = some t) :
    t.toNat % 4096 = address.toNat % 4096 := by
  rcases translated_cases h with ⟨-, rfl, -⟩ | ⟨-, hbat, -⟩ | ⟨hdr, hbat, -, -⟩
  · rfl
  · exact (translateBatAddress_add (i := 0) henv (by omega) hbat).1
  · have hframe := (afterTranslation_entered hfresh hdr hbat h).frame
    have hnat := congrArg BitVec.toNat hframe
    rw [toNat_or_of_lt (k := 12) (by rw [toNat_pageOf]; omega) (by rw [toNat_offset]; exact Nat.mod_lt _ (by decide)),
      toNat_pageOf, toNat_offset] at hnat
    omega

theorem resolves_afterTranslation (henv : env.Regular) (hfresh : Fresh env address s)
    (h : translated env address s = some t) {i : Nat} (hi : address.toNat % 4096 + i < 4096) :
    Resolves env (afterTranslation env address s).ppc (address + BitVec.ofNat 32 i) (t + BitVec.ofNat 32 i) := by
  rw [Resolves]
  rcases translated_cases h with ⟨hdr, rfl, -⟩ | ⟨hdr, hbat, -⟩ | ⟨hdr, hbat, -, -⟩
  · rw [hdr, if_neg Bool.false_ne_true]
  · rw [hdr, if_pos rfl, (translateBatAddress_add henv hi hbat).2]
    exact ⟨rfl, rfl⟩
  · have hentered := afterTranslation_entered hfresh hdr hbat h
    have hnone : translateBatAddress env.dbatTable (address + BitVec.ofNat 32 i) = none := by
      simp only [translateBatAddress, batIndex_add hi] at hbat ⊢
      split at hbat
      · next hmapped => rw [if_pos hmapped]
      · cases hbat
    have htag := tag_add hi
    obtain ⟨w, hway, hpaddr⟩ := hentered.page
    rw [hdr, if_pos rfl, hnone]
    refine ⟨w, ?_, ?_⟩
    · rw [sr_of_tag htag]
      simp only [matchingWay, htag] at hway ⊢
      exact hway
    · rw [htag, hpaddr, or_offset_add (by rw [toNat_pageOf]; omega) hi, ← hentered.frame]

theorem resolves_other (hfresh : Fresh env address s) (h : translated env address s = some t) {b u : U32}
    (hb : entryIndex (tag b) ≠ entryIndex (tag address)) (hresolves : Resolves env s.ppc b u) :
    Resolves env (afterTranslation env address s).ppc b u := by
  rcases translated_cases h with ⟨-, -, hstate⟩ | ⟨-, -, hstate⟩ | ⟨hdr, hbat, -, -⟩
  · rwa [hstate]
  · rwa [hstate]
  · have hentered := afterTranslation_entered hfresh hdr hbat h
    exact hresolves.mono hentered.sr (hentered.others _ hb)

end Any

end Karphin.MMU
