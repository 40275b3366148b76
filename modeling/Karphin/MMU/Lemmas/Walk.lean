import Karphin.Lib.FinNumerals

/-!
# Page address translation

`LookupTLBPageAddress`, `UpdateTLBEntry`, `InvalidateTLBEntry` and `TranslatePageAddress`, with the bit fields they
read. The walk reads the page table through `ReadFromHardware` and writes the access bits with `Memory::Write_U32`:
both are parameters of the model, and a read may change the state of the memory (the caches, the devices).
-/

namespace Karphin.MMU

abbrev U32 := BitVec 32

/-! ## Bit fields -/

namespace UReg_SR

def vsid (sr : U32) : U32 := sr &&& 0xffffff
def n (sr : U32) : Bool := sr.getLsbD 28
def t (sr : U32) : Bool := sr.getLsbD 31

end UReg_SR

namespace EffectiveAddress

def offset (a : U32) : U32 := a &&& 0xfff
def pageIndex (a : U32) : U32 := (a >>> 12) &&& 0xffff
def api (a : U32) : U32 := (a >>> 22) &&& 0x3f
def sr (a : U32) : Fin 16 := (a.extractLsb' 28 4).toFin

end EffectiveAddress

namespace UPTE_Lo

def hex (api vsid : U32) (h v : Bool) : U32 :=
  api ||| (if h then 0x40 else 0) ||| (vsid <<< 7) ||| (if v then 0x80000000 else 0)

end UPTE_Lo

namespace UPTE_Hi

def wimg (pte2 : U32) : U32 := (pte2 >>> 3) &&& 0xf
def c (pte2 : U32) : Bool := pte2.getLsbD 7
def rpn (pte2 : U32) : U32 := pte2 >>> 12
def setC (pte2 : U32) : U32 := pte2 ||| 0x80
def setR (pte2 : U32) : U32 := pte2 ||| 0x100

def wi (pte2 : U32) : Bool := wimg pte2 &&& 0b1100 ≠ 0

end UPTE_Hi

inductive XCheckTLBFlag
  | noException
  | read
  | write
  | opcode
  | opcodeNoException
  deriving DecidableEq, Repr

namespace XCheckTLBFlag

def isOpcodeFlag (flag : XCheckTLBFlag) : Bool := flag = .opcode || flag = .opcodeNoException
def isNoExceptionFlag (flag : XCheckTLBFlag) : Bool := flag = .noException || flag = .opcodeNoException

end XCheckTLBFlag

/-! ## The TLB -/

structure TLBEntry where
  tag : Fin 2 → U32 := fun _ => 0xffffffff
  paddr : Fin 2 → U32 := fun _ => 0
  vsid : Fin 2 → U32 := fun _ => 0
  pte : Fin 2 → U32 := fun _ => 0
  recent : Fin 2 := 0

namespace TLBEntry

def invalidTag : U32 := 0xffffffff

def invalidate (tlbe : TLBEntry) : TLBEntry := { tlbe with tag := fun _ => invalidTag }

def fill (tlbe : TLBEntry) (index : Fin 2) (pte2 tag vsid : U32) : TLBEntry where
  recent := index
  paddr := Function.update tlbe.paddr index (UPTE_Hi.rpn pte2 <<< 12)
  pte := Function.update tlbe.pte index pte2
  tag := Function.update tlbe.tag index tag
  vsid := Function.update tlbe.vsid index vsid

end TLBEntry

structure PowerPCState where
  /-- The data TLB at 0, the instruction TLB at 1. -/
  tlb : Fin 2 → Fin 64 → TLBEntry := fun _ _ => {}
  sr : Fin 16 → U32 := fun _ => 0
  pagetableBase : U32 := 0
  pagetableHashmask : U32 := 0

namespace PowerPCState

def setTlb (s : PowerPCState) (i : Fin 2) (n : Fin 64) (tlbe : TLBEntry) : PowerPCState :=
  { s with tlb := Function.update s.tlb i (Function.update (s.tlb i) n tlbe) }

def setSR (s : PowerPCState) (index : Fin 16) (value : U32) : PowerPCState :=
  { s with sr := Function.update s.sr index value }

/-- `SDRUpdated` with the value `sdr` of SDR1: HTABMASK are its low 9 bits, HTABORG its high 16 bits. -/
def sdrUpdated (s : PowerPCState) (sdr : U32) : PowerPCState :=
  { s with
    pagetableBase := (sdr >>> 16) <<< 16
    pagetableHashmask := ((sdr &&& 0x1ff) <<< 10) ||| 0x3ff }

end PowerPCState

def tlbIndex (flag : XCheckTLBFlag) : Fin 2 := if flag.isOpcodeFlag then 1 else 0

def tag (address : U32) : U32 := address >>> 12

def entryIndex (tag : U32) : Fin 64 := (tag.extractLsb' 0 6).toFin

inductive TLBLookupResult
  | found (paddr : U32) (wi : Bool)
  | notFound
  | updateC
  deriving DecidableEq

/-- What `LookupTLBPageAddress` does for the way `w` of an entry whose tag and VSID agree. -/
def lookupWay (flag : XCheckTLBFlag) (vpa : U32) (tlbe : TLBEntry) (w : Fin 2) : TLBLookupResult × TLBEntry :=
  let pte2 := tlbe.pte w
  if flag = .write ∧ UPTE_Hi.c pte2 = false then
    (.updateC, { tlbe with pte := Function.update tlbe.pte w (UPTE_Hi.setC pte2) })
  else
    (.found (tlbe.paddr w ||| (vpa &&& 0xfff)) (UPTE_Hi.wi pte2),
      if flag.isNoExceptionFlag then tlbe else { tlbe with recent := w })

def lookupTLBPageAddress (s : PowerPCState) (flag : XCheckTLBFlag) (vpa vsid : U32) :
    TLBLookupResult × PowerPCState :=
  let tag := tag vpa
  let tlbe := s.tlb (tlbIndex flag) (entryIndex tag)
  if tlbe.tag 0 = tag ∧ tlbe.vsid 0 = vsid then
    let (res, tlbe) := lookupWay flag vpa tlbe 0
    (res, s.setTlb (tlbIndex flag) (entryIndex tag) tlbe)
  else if tlbe.tag 1 = tag ∧ tlbe.vsid 1 = vsid then
    let (res, tlbe) := lookupWay flag vpa tlbe 1
    (res, s.setTlb (tlbIndex flag) (entryIndex tag) tlbe)
  else (.notFound, s)

def updateTLBEntry (s : PowerPCState) (flag : XCheckTLBFlag) (pte2 address vsid : U32) : PowerPCState :=
  if flag.isNoExceptionFlag then s
  else
    let tag := tag address
    let tlbe := s.tlb (tlbIndex flag) (entryIndex tag)
    let index : Fin 2 := if tlbe.recent = 0 ∧ tlbe.tag 0 ≠ TLBEntry.invalidTag then 1 else 0
    s.setTlb (tlbIndex flag) (entryIndex tag) (tlbe.fill index pte2 tag vsid)

def invalidateTLBEntry (s : PowerPCState) (address : U32) : PowerPCState :=
  let n := entryIndex (tag address)
  let s := s.setTlb 0 n (s.tlb 0 n).invalidate
  s.setTlb 1 n (s.tlb 1 n).invalidate

/-! ## The walk -/

/-- The memory as the walk uses it; `noException` is whether the read is made with `XCheckTLBFlag::NoException`. -/
structure Hardware (M : Type) where
  readFromHardware : (noException : Bool) → U32 → M → U32 × M
  writeU32 : U32 → U32 → M → M

inductive TranslateAddressResultEnum
  | pageTableTranslated
  | directStoreSegment
  | pageFault
  deriving DecidableEq, Repr

structure TranslateAddressResult where
  result : TranslateAddressResultEnum
  address : U32
  deriving DecidableEq, Repr

structure State (M : Type) where
  ppc : PowerPCState
  memory : M

variable {M : Type} (hw : Hardware M)

/-- The inner loop: `n` entries from `ptegAddr` on. The result is the address of the entry and its second word. -/
def searchPteg (noException : Bool) (pte1 : U32) : Nat → U32 → M → Option (U32 × U32) × M
  | 0, _, m => (none, m)
  | n + 1, ptegAddr, m =>
    let (pteg, m) := hw.readFromHardware noException ptegAddr m
    if pte1 = pteg then
      let (pte2, m) := hw.readFromHardware noException (ptegAddr + 4) m
      (some (ptegAddr, pte2), m)
    else searchPteg noException pte1 n (ptegAddr + 8) m

/-- Both hash functions, the second only when the first finds nothing. -/
def searchPageTable (noException : Bool) (s : PowerPCState) (vsid pageIndex api : U32) (m : M) :
    Option (U32 × U32) × M :=
  let hash := vsid ^^^ pageIndex
  let group (hash : U32) : U32 := ((hash &&& s.pagetableHashmask) <<< 6) ||| s.pagetableBase
  match searchPteg hw noException (UPTE_Lo.hex api vsid false true) 8 (group hash) m with
  | (some entry, m) => (some entry, m)
  | (none, m) => searchPteg hw noException (UPTE_Lo.hex api vsid true true) 8 (group (~~~hash)) m

def setAccessBits (flag : XCheckTLBFlag) (pte2 : U32) : U32 :=
  match flag with
  | .noException | .opcodeNoException => pte2
  | .read | .opcode => UPTE_Hi.setR pte2
  | .write => UPTE_Hi.setC (UPTE_Hi.setR pte2)

/-- The part of `TranslatePageAddress` after the TLB: `res` is what the TLB said. -/
def translateByPageTable (flag : XCheckTLBFlag) (address : U32) (res : TLBLookupResult) (s : State M) :
    TranslateAddressResult × Option Bool × State M :=
  let sr := s.ppc.sr (EffectiveAddress.sr address)
  let vsid := UReg_SR.vsid sr
  if UReg_SR.t sr then (⟨.directStoreSegment, 0⟩, none, s)
  else if flag.isOpcodeFlag && UReg_SR.n sr then (⟨.pageFault, 0⟩, none, s)
  else
    match searchPageTable hw flag.isNoExceptionFlag s.ppc vsid (EffectiveAddress.pageIndex address)
      (EffectiveAddress.api address) s.memory with
    | (none, m) => (⟨.pageFault, 0⟩, none, { s with memory := m })
    | (some (ptegAddr, pte2), m) =>
      let pte2 := setAccessBits flag pte2
      let m := if flag.isNoExceptionFlag then m else hw.writeU32 pte2 (ptegAddr + 4) m
      let ppc := if res = .updateC then s.ppc else updateTLBEntry s.ppc flag pte2 address vsid
      (⟨.pageTableTranslated, (UPTE_Hi.rpn pte2 <<< 12) ||| EffectiveAddress.offset address⟩,
        some (UPTE_Hi.wi pte2), ⟨ppc, m⟩)

/-- The result, the value stored to `wi` if there is one, and the state after it. -/
def translatePageAddress (flag : XCheckTLBFlag) (address : U32) (s : State M) :
    TranslateAddressResult × Option Bool × State M :=
  let vsid := UReg_SR.vsid (s.ppc.sr (EffectiveAddress.sr address))
  match lookupTLBPageAddress s.ppc flag address vsid with
  | (.found paddr wi, ppc) => (⟨.pageTableTranslated, paddr⟩, some wi, { s with ppc := ppc })
  | (res, ppc) => translateByPageTable hw flag address res { s with ppc := ppc }

/-! ## What the TLB promises -/

def State.withoutTLB (s : State M) : State M :=
  { s with ppc := { s.ppc with tlb := fun i n => (s.ppc.tlb i n).invalidate } }

def SameEntry (pte2 pte2' : U32) : Prop := pte2 ||| 0x180 = pte2' ||| 0x180

/-- The way holds what `UpdateTLBEntry` stores for a page, from an entry that the page table still selects for the
page and the VSID, R and C bits aside. -/
def FilledFromPageTable (s : State M) (n : Fin 64) (tlbe : TLBEntry) (w : Fin 2) : Prop :=
  ∃ address pte2, tlbe.tag w = tag address ∧ entryIndex (tag address) = n ∧ tlbe.paddr w = UPTE_Hi.rpn pte2 <<< 12 ∧
    SameEntry (tlbe.pte w) pte2 ∧
    ∀ noException, ∃ ptegAddr pte2' m, SameEntry pte2' pte2 ∧
      searchPageTable hw noException s.ppc (tlbe.vsid w) (EffectiveAddress.pageIndex address)
        (EffectiveAddress.api address) s.memory = (some (ptegAddr, pte2'), m)

def TLBFilled (s : State M) : Prop :=
  ∀ i n w, (s.ppc.tlb i n).tag w ≠ TLBEntry.invalidTag → FilledFromPageTable hw s n (s.ppc.tlb i n) w

def matchingWay (s : PowerPCState) (flag : XCheckTLBFlag) (address vsid : U32) : Option (Fin 2) :=
  let tlbe := s.tlb (tlbIndex flag) (entryIndex (tag address))
  if tlbe.tag 0 = tag address ∧ tlbe.vsid 0 = vsid then some 0
  else if tlbe.tag 1 = tag address ∧ tlbe.vsid 1 = vsid then some 1
  else none

/-- A way agrees, and it is not a write to a page whose C bit is clear in it. -/
def TLBHit (s : PowerPCState) (flag : XCheckTLBFlag) (address : U32) : Prop :=
  ∃ w, matchingWay s flag address (UReg_SR.vsid (s.sr (EffectiveAddress.sr address))) = some w ∧
    ¬ (flag = .write ∧ UPTE_Hi.c ((s.tlb (tlbIndex flag) (entryIndex (tag address))).pte w) = false)

/-- The segment register forbids the access before any page table entry is looked at: a direct-store segment, or an
instruction fetch from a no-execute segment. -/
def SegmentForbids (s : PowerPCState) (flag : XCheckTLBFlag) (address : U32) : Prop :=
  UReg_SR.t (s.sr (EffectiveAddress.sr address)) = true ∨
    flag.isOpcodeFlag = true ∧ UReg_SR.n (s.sr (EffectiveAddress.sr address)) = true

instance (s : PowerPCState) (flag : XCheckTLBFlag) (address : U32) : Decidable (SegmentForbids s flag address) :=
  inferInstanceAs (Decidable (_ ∨ _))

end Karphin.MMU

/-!
# The lookup and the walk

What `TranslatePageAddress` answers on a hit and what it answers without one.
-/

namespace Karphin.MMU

/-! ## Bit fields of one page -/

theorem pageIndex_of_tag {a b : U32} (h : tag a = tag b) :
    EffectiveAddress.pageIndex a = EffectiveAddress.pageIndex b := by
  simp only [EffectiveAddress.pageIndex, tag] at h ⊢
  rw [h]

theorem api_eq_tag (a : U32) : EffectiveAddress.api a = (tag a >>> 10) &&& 0x3f := by
  simp only [EffectiveAddress.api, tag, ← BitVec.shiftRight_add]

theorem api_of_tag {a b : U32} (h : tag a = tag b) : EffectiveAddress.api a = EffectiveAddress.api b := by
  rw [api_eq_tag, api_eq_tag, h]

theorem tag_ne_invalidTag (address : U32) : tag address ≠ TLBEntry.invalidTag := by
  intro h
  have h0 := congrArg (fun x : U32 => x.getLsbD 31) h
  simp [tag, TLBEntry.invalidTag] at h0

theorem rpn_or (a b : U32) (hb : b >>> 12 = 0) : UPTE_Hi.rpn (a ||| b) = UPTE_Hi.rpn a := by
  simp [UPTE_Hi.rpn, BitVec.ushiftRight_or_distrib, hb]

theorem SameEntry.rpn {a b : U32} (h : SameEntry a b) : UPTE_Hi.rpn a = UPTE_Hi.rpn b := by
  have h0 := congrArg UPTE_Hi.rpn h
  rwa [rpn_or _ _ (by decide), rpn_or _ _ (by decide)] at h0

theorem rpn_setAccessBits (flag : XCheckTLBFlag) (pte2 : U32) :
    UPTE_Hi.rpn (setAccessBits flag pte2) = UPTE_Hi.rpn pte2 := by
  cases flag with
  | noException | opcodeNoException => rfl
  | read | opcode => exact rpn_or _ _ (by decide)
  | write =>
      simp only [setAccessBits, UPTE_Hi.setC, UPTE_Hi.setR]
      rw [rpn_or _ _ (by decide), rpn_or _ _ (by decide)]

/-! ## The lookup -/

theorem lookup_fst (s : PowerPCState) (flag : XCheckTLBFlag) (vpa vsid : U32) :
    (lookupTLBPageAddress s flag vpa vsid).1 = match matchingWay s flag vpa vsid with
      | some w => (lookupWay flag vpa (s.tlb (tlbIndex flag) (entryIndex (tag vpa))) w).1
      | none => .notFound := by
  simp only [lookupTLBPageAddress, matchingWay]
  split
  · rfl
  · split <;> rfl

theorem matchingWay_some {s : PowerPCState} {flag : XCheckTLBFlag} {address vsid : U32} {w : Fin 2}
    (h : matchingWay s flag address vsid = some w) :
    (s.tlb (tlbIndex flag) (entryIndex (tag address))).tag w = tag address ∧
      (s.tlb (tlbIndex flag) (entryIndex (tag address))).vsid w = vsid := by
  simp only [matchingWay] at h
  split at h
  · next hw =>
      cases h
      exact hw
  · split at h
    · next hw =>
        cases h
        exact hw
    · cases h

theorem matchingWay_withoutTLB {M : Type} (s : State M) (flag : XCheckTLBFlag) (address vsid : U32) :
    matchingWay s.withoutTLB.ppc flag address vsid = none := by
  have hne := (tag_ne_invalidTag address).symm
  simp [matchingWay, State.withoutTLB, TLBEntry.invalidate, hne]

structure SameWalk {M : Type} (s s' : State M) : Prop where
  sr : s.ppc.sr = s'.ppc.sr
  base : s.ppc.pagetableBase = s'.ppc.pagetableBase
  hashmask : s.ppc.pagetableHashmask = s'.ppc.pagetableHashmask
  memory : s.memory = s'.memory

theorem sameWalk_lookup {M : Type} (s : State M) (flag : XCheckTLBFlag) (vpa vsid : U32) :
    SameWalk { s with ppc := (lookupTLBPageAddress s.ppc flag vpa vsid).2 } s := by
  simp only [lookupTLBPageAddress]
  split
  · exact ⟨rfl, rfl, rfl, rfl⟩
  · split <;> exact ⟨rfl, rfl, rfl, rfl⟩

section Walk

variable {M : Type} {hw : Hardware M}

theorem searchPageTable_sameWalk {s s' : State M} (h : SameWalk s s') (noException : Bool) (vsid pageIndex api : U32) :
    searchPageTable hw noException s.ppc vsid pageIndex api s.memory =
      searchPageTable hw noException s'.ppc vsid pageIndex api s'.memory := by
  simp only [searchPageTable, h.base, h.hashmask, h.memory]

theorem translateByPageTable_fst {s s' : State M} (h : SameWalk s s') (flag : XCheckTLBFlag) (address : U32)
    (res res' : TLBLookupResult) :
    (translateByPageTable hw flag address res s).1 = (translateByPageTable hw flag address res' s').1 := by
  simp only [translateByPageTable, h.sr, searchPageTable_sameWalk h]
  split
  · rfl
  · split
    · rfl
    · split <;> rfl

theorem translateByPageTable_forbidden {s : State M} {flag : XCheckTLBFlag} {address : U32} (res : TLBLookupResult)
    (h : SegmentForbids s.ppc flag address) :
    (translateByPageTable hw flag address res s).1.result ≠ .pageTableTranslated := by
  simp only [translateByPageTable]
  split
  · simp
  · next ht =>
      rw [if_pos]
      · simp
      · simpa [SegmentForbids, ht] using h

theorem translateByPageTable_allowed {s : State M} {flag : XCheckTLBFlag} {address ptegAddr pte2 : U32} {m : M}
    (res : TLBLookupResult) (h : ¬ SegmentForbids s.ppc flag address)
    (hpte : searchPageTable hw flag.isNoExceptionFlag s.ppc (UReg_SR.vsid (s.ppc.sr (EffectiveAddress.sr address)))
      (EffectiveAddress.pageIndex address) (EffectiveAddress.api address) s.memory = (some (ptegAddr, pte2), m)) :
    (translateByPageTable hw flag address res s).1 =
      ⟨.pageTableTranslated, (UPTE_Hi.rpn pte2 <<< 12) ||| EffectiveAddress.offset address⟩ := by
  simp only [SegmentForbids, not_or, not_and] at h
  simp only [translateByPageTable]
  rw [if_neg h.1, if_neg (by simpa using h.2), hpte]
  simp only [rpn_setAccessBits]

theorem translatePageAddress_withoutTLB (s : State M) (flag : XCheckTLBFlag) (address : U32) :
    (translatePageAddress hw flag address s.withoutTLB).1 = (translateByPageTable hw flag address .notFound s).1 := by
  have hl := lookup_fst s.withoutTLB.ppc flag address
    (UReg_SR.vsid (s.withoutTLB.ppc.sr (EffectiveAddress.sr address)))
  rw [matchingWay_withoutTLB] at hl
  simp only [translatePageAddress]
  split
  · next heq =>
      rw [heq] at hl
      cases hl
  · next res ppc _ heq =>
      apply translateByPageTable_fst
      have hw0 := sameWalk_lookup s.withoutTLB flag address
        (UReg_SR.vsid (s.withoutTLB.ppc.sr (EffectiveAddress.sr address)))
      rw [heq] at hw0
      exact ⟨hw0.sr, hw0.base, hw0.hashmask, hw0.memory⟩

theorem translatePageAddress_hit {s : State M} {flag : XCheckTLBFlag} {address : U32} {w : Fin 2}
    (hway : matchingWay s.ppc flag address (UReg_SR.vsid (s.ppc.sr (EffectiveAddress.sr address))) = some w)
    (hc : ¬ (flag = .write ∧
      UPTE_Hi.c ((s.ppc.tlb (tlbIndex flag) (entryIndex (tag address))).pte w) = false)) :
    (translatePageAddress hw flag address s).1 = ⟨.pageTableTranslated,
      (s.ppc.tlb (tlbIndex flag) (entryIndex (tag address))).paddr w ||| EffectiveAddress.offset address⟩ := by
  have hl := lookup_fst s.ppc flag address (UReg_SR.vsid (s.ppc.sr (EffectiveAddress.sr address)))
  simp only [hway, lookupWay, if_neg hc] at hl
  simp only [translatePageAddress]
  split
  · next heq =>
      rw [heq] at hl
      cases hl
      rfl
  · next hres heq =>
      rw [heq] at hl
      exact (hres _ _ hl).elim

theorem translatePageAddress_miss {s : State M} {flag : XCheckTLBFlag} {address : U32}
    (h : ¬ TLBHit s.ppc flag address) :
    (translatePageAddress hw flag address s).1 = (translateByPageTable hw flag address .notFound s).1 := by
  have hl := lookup_fst s.ppc flag address (UReg_SR.vsid (s.ppc.sr (EffectiveAddress.sr address)))
  simp only [translatePageAddress]
  split
  · next paddr wi ppc heq =>
      rw [heq] at hl
      split at hl
      · next w hway =>
          simp only [lookupWay] at hl
          split at hl
          · cases hl
          · next hc => exact absurd ⟨w, hway, hc⟩ h
      · cases hl
  · next res ppc _ heq =>
      apply translateByPageTable_fst
      have hs := sameWalk_lookup s flag address (UReg_SR.vsid (s.ppc.sr (EffectiveAddress.sr address)))
      rwa [heq] at hs

theorem walk_of_hit {s : State M} (hs : TLBFilled hw s) {flag : XCheckTLBFlag} {address : U32} {w : Fin 2}
    (hway : matchingWay s.ppc flag address (UReg_SR.vsid (s.ppc.sr (EffectiveAddress.sr address))) = some w)
    (hseg : ¬ SegmentForbids s.ppc flag address) :
    (translateByPageTable hw flag address .notFound s).1 = ⟨.pageTableTranslated,
      (s.ppc.tlb (tlbIndex flag) (entryIndex (tag address))).paddr w ||| EffectiveAddress.offset address⟩ := by
  obtain ⟨htag, hvsid⟩ := matchingWay_some hway
  have hvalid : (s.ppc.tlb (tlbIndex flag) (entryIndex (tag address))).tag w ≠ TLBEntry.invalidTag := by
    rw [htag]
    exact tag_ne_invalidTag address
  obtain ⟨page, pte2, hpage, -, hpaddr, -, hsel⟩ := hs _ _ w hvalid
  obtain ⟨ptegAddr, pte2', m, hsame, hfound⟩ := hsel flag.isNoExceptionFlag
  have heq : tag page = tag address := by rw [← hpage, htag]
  rw [pageIndex_of_tag heq, api_of_tag heq, hvsid] at hfound
  rw [translateByPageTable_allowed .notFound hseg hfound, hpaddr, hsame.rpn]

end Walk

end Karphin.MMU
