import Karphin.MMU.Access.Defs

/-!
# Write-through and cache-inhibited pages

`TranslatePageAddress` finds the W and I bits of the entry on each of its two paths, but the result it returns has its own
`wi`, which it never sets.
-/

namespace Karphin.MMU

/-! ## The entry of a page -/

section Page

variable {M : Type} (hw : Hardware M)

def walkEntry (flag : XCheckTLBFlag) (address : U32) (s : State M) : Option U32 :=
  if SegmentForbids s.ppc flag address then none
  else
    (searchPageTable hw flag.isNoExceptionFlag s.ppc (UReg_SR.vsid (s.ppc.sr (EffectiveAddress.sr address)))
      (EffectiveAddress.pageIndex address) (EffectiveAddress.api address) s.memory).1.map Prod.snd

/-- The page table entry that translates the address: the one of the way on a hit, the one of the walk otherwise. -/
def pteUsed (flag : XCheckTLBFlag) (address : U32) (s : State M) : Option U32 :=
  let tlbe := s.ppc.tlb (tlbIndex flag) (entryIndex (tag address))
  match matchingWay s.ppc flag address (UReg_SR.vsid (s.ppc.sr (EffectiveAddress.sr address))) with
  | some w => if flag = .write ∧ UPTE_Hi.c (tlbe.pte w) = false then walkEntry hw flag address s else some (tlbe.pte w)
  | none => walkEntry hw flag address s

variable {hw}

theorem wimg_or (a b : U32) (hb : UPTE_Hi.wimg b = 0) : UPTE_Hi.wimg (a ||| b) = UPTE_Hi.wimg a := by
  rw [UPTE_Hi.wimg] at hb
  rw [UPTE_Hi.wimg, UPTE_Hi.wimg, BitVec.ushiftRight_or_distrib, BitVec.and_or_distrib_right, hb]
  exact BitVec.or_zero

theorem wi_setAccessBits (flag : XCheckTLBFlag) (pte2 : U32) : UPTE_Hi.wi (setAccessBits flag pte2) = UPTE_Hi.wi pte2 := by
  cases flag with
  | noException | opcodeNoException => rfl
  | read | opcode => rw [UPTE_Hi.wi, setAccessBits, UPTE_Hi.setR, wimg_or _ _ (by decide), UPTE_Hi.wi]
  | write =>
      rw [UPTE_Hi.wi, setAccessBits, UPTE_Hi.setC, UPTE_Hi.setR, wimg_or _ _ (by decide), wimg_or _ _ (by decide), UPTE_Hi.wi]

theorem translateByPageTable_entry {flag : XCheckTLBFlag} {address : U32} {res : TLBLookupResult} {s s' : State M}
    (hsame : SameWalk s s') (h : (translateByPageTable hw flag address res s).1.result = .pageTableTranslated) :
    ∃ pte2, walkEntry hw flag address s' = some pte2 ∧
      (translateByPageTable hw flag address res s).2.1 = some (UPTE_Hi.wi pte2) := by
  have hallowed : ¬ SegmentForbids s.ppc flag address := fun hforbidden => translateByPageTable_forbidden res hforbidden h
  have hallowed' : ¬ SegmentForbids s'.ppc flag address := by
    rw [SegmentForbids, ← hsame.sr]
    exact hallowed
  have hsearch (vsid pageIndex api : U32) :
      searchPageTable hw flag.isNoExceptionFlag s.ppc vsid pageIndex api s.memory =
        searchPageTable hw flag.isNoExceptionFlag s'.ppc vsid pageIndex api s'.memory :=
    searchPageTable_sameWalk hsame flag.isNoExceptionFlag vsid pageIndex api
  rw [SegmentForbids, not_or, not_and] at hallowed
  rw [walkEntry, if_neg hallowed', ← hsame.sr, ← hsearch]
  simp only [translateByPageTable] at h ⊢
  rw [if_neg hallowed.1, if_neg (by simpa using hallowed.2)] at h ⊢
  split at h
  · cases h
  · next ptegAddr pte2 m heq => exact ⟨pte2, by rw [heq]; rfl, by simp only [heq, wi_setAccessBits]⟩

theorem translatePageAddress_entry {flag : XCheckTLBFlag} {address : U32} {s : State M}
    (h : (translatePageAddress hw flag address s).1.result = .pageTableTranslated) :
    ∃ pte2, pteUsed hw flag address s = some pte2 ∧ (translatePageAddress hw flag address s).2.1 = some (UPTE_Hi.wi pte2) := by
  have hlookup := lookup_fst s.ppc flag address (UReg_SR.vsid (s.ppc.sr (EffectiveAddress.sr address)))
  have hsame := sameWalk_lookup s flag address (UReg_SR.vsid (s.ppc.sr (EffectiveAddress.sr address)))
  simp only [translatePageAddress, pteUsed] at h ⊢
  split at h
  · next paddr wi ppc heq =>
      rw [heq] at hlookup
      split at hlookup
      · next w hway =>
          simp only [lookupWay] at hlookup
          split at hlookup
          · cases hlookup
          · next hc =>
              cases hlookup
              refine ⟨(s.ppc.tlb (tlbIndex flag) (entryIndex (tag address))).pte w, ?_, ?_⟩
              · simpa only [hway] using if_neg hc
              · rfl
      · cases hlookup
  · next res ppc hres heq =>
      rw [heq] at hlookup hsame
      obtain ⟨pte2, hwalk, hwi⟩ := translateByPageTable_entry hsame h
      refine ⟨pte2, ?_, ?_⟩
      · split
        · next w hway =>
            simp only [hway, lookupWay] at hlookup
            split
            · exact hwalk
            · next hc =>
                rw [if_neg hc] at hlookup
                exact absurd hlookup (hres _ _)
        · exact hwalk
      · exact hwi

end Page

/-! ## The returned flag -/

variable {δ : Type}

def BypassesCache (env : Environment δ) (t : AddressResult) : Prop :=
  (∀ size s, readPhysical env .read size t.address t.wi s =
    readPhysical { env with enableDcache := false } .read size t.address t.wi s) ∧
  ∀ data size s, writePhysical env .write t.address data size t.wi s =
    writePhysical { env with enableDcache := false } .write t.address data size t.wi s

def WIDelivered (env : Environment δ) (t : AddressResult) (pte2 : U32) : Prop :=
  (t.wi = true ↔ UPTE_Hi.wi pte2 = true) ∧ (UPTE_Hi.wi pte2 = true → BypassesCache env t)

/-- The flag of an address in a page is that of its entry exactly when the entry has neither W nor I. -/
theorem page_wi_delivered_iff (env : Environment δ) (flag : XCheckTLBFlag) (address : U32) (s : State (Bus δ))
    (h : (translateAddress env flag address s).1.result = .pageTableTranslated) :
    ∃ pte2, pteUsed (hardware env) flag address s = some pte2 ∧
      (WIDelivered env (translateAddress env flag address s).1 pte2 ↔ UPTE_Hi.wi pte2 = false) := by
  have hpage : translateAddress env flag address s =
      (.ofPage (translatePageAddress (hardware env) flag address s).1, (translatePageAddress (hardware env) flag address s).2.2) := by
    rw [translateAddress] at h ⊢
    split at h
    · cases h
    · rfl
  have htranslated : (translatePageAddress (hardware env) flag address s).1.result = .pageTableTranslated := by
    rw [hpage] at h
    simp only [AddressResult.ofPage] at h
    split at h
    · assumption
    · cases h
    · cases h
  obtain ⟨pte2, hused, -⟩ := translatePageAddress_entry htranslated
  refine ⟨pte2, hused, ?_⟩
  have hwi : (translateAddress env flag address s).1.wi = false := by rw [hpage]; rfl
  rw [WIDelivered, hwi]
  constructor
  · rintro ⟨hflag, -⟩
    exact Bool.eq_false_iff.mpr fun hset => Bool.false_ne_true (hflag.mpr hset)
  · intro hclear
    rw [hclear]
    exact ⟨Iff.rfl, fun hset => absurd hset Bool.false_ne_true⟩

/-! ## A page with the I bit -/

def plainEnvironment : Environment Unit where
  sizes := PPCCache.gameCube
  fakeVMem := false
  ibatTable _ := 0
  dbatTable _ := 0
  ir := true
  dr := true
  dlock := false
  enableDcache := true
  isMMUMode := true
  isPauseOnPanicMode := false
  uninitialized _ := 0
  accessEFB _ _ _ _ d := (0, d)
  mmioRead _ _ d := (0, d)
  mmioWrite _ _ _ d := d
  gpFifoWrite _ _ d := d
  setInterruptPI d := d
  cpuBreak d := d

def memoryOfWords (words : List (Nat × U32)) : PPCCache.Memory :=
  fun p => match words.find? fun w => decide (w.1 ≤ p ∧ p < w.1 + 4) with
    | some w => hostBytes (swap32 w.2) (p - w.1)
    | none => 0

def withPageTable (words : List (Nat × U32)) : State (Bus Unit) where
  ppc := ({} : PowerPCState).sdrUpdated 0
  memory :=
    { dcache := PPCCache.Machine.init (memoryOfWords words)
      l1Cache _ := 0
      fakeVMem _ := 0
      exceptions := 0
      dsisr := 0
      dar := 0
      devices := () }

def inhibitedPage : State (Bus Unit) := withPageTable [(0x40, 0x80000000), (0x44, 0x5020)]

/-- The flag of a cache-inhibited page is false, and a read from it goes into the data cache. -/
theorem inhibited_page_cached :
    (translateAddress plainEnvironment .read 0x1000 inhibitedPage).1 = ⟨.pageTableTranslated, 0x5000, false⟩ ∧
    pteUsed (hardware plainEnvironment) .read 0x1000 inhibitedPage = some 0x5020 ∧ UPTE_Hi.wi 0x5020 = true ∧
    ¬ WIDelivered plainEnvironment (translateAddress plainEnvironment .read 0x1000 inhibitedPage).1 0x5020 ∧
    inhibitedPage.memory.dcache.cache.lookup (.ram, 0x280) = none ∧
    (readFromHardware plainEnvironment .read 4 0x1000 inhibitedPage).2.memory.dcache.cache.lookup (.ram, 0x280) = some 0 := by
  have htranslate : (translateAddress plainEnvironment .read 0x1000 inhibitedPage).1 =
      ⟨.pageTableTranslated, 0x5000, false⟩ := by decide +kernel
  refine ⟨htranslate, by decide +kernel, by decide, ?_, by decide +kernel, by decide +kernel⟩
  rintro ⟨hflag, -⟩
  rw [htranslate] at hflag
  exact absurd (hflag.mpr (by decide)) Bool.false_ne_true

/-- The page `0x1000` is at `0x5000`, with neither bit. -/
theorem page_wi_delivered_cached :
    ∃ pte2, pteUsed (hardware plainEnvironment) .read 0x1000 (withPageTable [(0x40, 0x80000000), (0x44, 0x5000)]) =
        some pte2 ∧
      (WIDelivered plainEnvironment
          (translateAddress plainEnvironment .read 0x1000 (withPageTable [(0x40, 0x80000000), (0x44, 0x5000)])).1 pte2 ↔
        UPTE_Hi.wi pte2 = false) :=
  page_wi_delivered_iff plainEnvironment .read 0x1000 _ (by decide +kernel)

end Karphin.MMU
