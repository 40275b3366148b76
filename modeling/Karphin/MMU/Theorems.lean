import Karphin.MMU.Lemmas.Walk
import Karphin.Lib.Transition

/-!
# Translations, segment registers and invalidations in any order

With a page table in plain memory that only the walk itself writes to, the TLB stays filled from the page table: the
walk changes the R and C bits of the entry it selects, and these decide no later selection.
-/

namespace Karphin.MMU

variable {M : Type}

/-- Plain memory: `word` is what a read of either kind returns, and a write changes one word. -/
structure PlainMemory (hw : Hardware M) (word : M → U32 → U32) : Prop where
  read : ∀ noException a m, hw.readFromHardware noException a m = (word m a, m)
  write : ∀ v a m b, word (hw.writeU32 v a m) b = if b = a then v else word m b

def Aligned (a : U32) : Prop := a.toNat % 8 = 0

def SamePageTable (word : M → U32 → U32) (m m' : M) : Prop :=
  ∀ a, Aligned a → word m a = word m' a ∧ SameEntry (word m (a + 4)) (word m' (a + 4))

theorem SameEntry.refl (a : U32) : SameEntry a a := rfl

theorem SameEntry.symm {a b : U32} (h : SameEntry a b) : SameEntry b a := Eq.symm h

theorem SameEntry.trans {a b c : U32} (h : SameEntry a b) (h' : SameEntry b c) : SameEntry a c := Eq.trans h h'

theorem sameEntry_setC (a : U32) : SameEntry (UPTE_Hi.setC a) a := by
  simp only [SameEntry, UPTE_Hi.setC, BitVec.or_assoc]
  rfl

theorem sameEntry_setR (a : U32) : SameEntry (UPTE_Hi.setR a) a := by
  simp only [SameEntry, UPTE_Hi.setR, BitVec.or_assoc]
  rfl

theorem sameEntry_setAccessBits (flag : XCheckTLBFlag) (a : U32) : SameEntry (setAccessBits flag a) a := by
  cases flag with
  | noException | opcodeNoException => exact .refl a
  | read | opcode => exact sameEntry_setR a
  | write => exact (sameEntry_setC _).trans (sameEntry_setR a)

theorem Aligned.next {a : U32} (h : Aligned a) : Aligned (a + 8) := by
  simp only [Aligned] at h ⊢
  bv_omega

theorem Aligned.add_four_ne {a b : U32} (ha : Aligned a) (hb : Aligned b) : a ≠ b + 4 := by
  simp only [Aligned] at ha hb
  bv_omega

section Search

variable {hw : Hardware M} {word : M → U32 → U32}

theorem samePageTable_refl (m : M) : SamePageTable word m m := fun _ _ => ⟨rfl, .refl _⟩

theorem searchPteg_same (hmem : PlainMemory hw word) {m m' : M} (h : SamePageTable word m m') (noException : Bool)
    (pte1 : U32) : ∀ (n : Nat) (a : U32), Aligned a →
    (searchPteg hw noException pte1 n a m = (none, m) ∧ searchPteg hw noException pte1 n a m' = (none, m')) ∨
    ∃ b pte2 pte2', Aligned b ∧ SameEntry pte2 pte2' ∧ pte2 = word m (b + 4) ∧
      searchPteg hw noException pte1 n a m = (some (b, pte2), m) ∧
      searchPteg hw noException pte1 n a m' = (some (b, pte2'), m')
  | 0, _, _ => Or.inl ⟨rfl, rfl⟩
  | n + 1, a, ha => by
      simp only [searchPteg, hmem.read, (h a ha).1]
      by_cases hp : pte1 = word m' a
      · right
        exact ⟨a, word m (a + 4), word m' (a + 4), ha, (h a ha).2, rfl, by simp [hp], by simp [hp]⟩
      · simp only [hp, if_false]
        exact searchPteg_same hmem h noException pte1 n (a + 8) ha.next

theorem aligned_group {base : U32} (h : Aligned base) (x : U32) : Aligned ((x <<< 6) ||| base) := by
  have hx : (x <<< 6).toNat % 2 ^ 3 = 0 := by
    simp only [BitVec.toNat_shiftLeft, Nat.shiftLeft_eq]
    omega
  simp only [Aligned, BitVec.toNat_or] at h ⊢
  rw [show 8 = 2 ^ 3 from rfl, Nat.or_mod_two_pow, hx, h]
  rfl

theorem searchPageTable_same (hmem : PlainMemory hw word) {m m' : M} (h : SamePageTable word m m')
    {s s' : PowerPCState} (hbase : s'.pagetableBase = s.pagetableBase)
    (hmask : s'.pagetableHashmask = s.pagetableHashmask) (ha : Aligned s.pagetableBase) (noException : Bool)
    (vsid pageIndex api : U32) :
    (searchPageTable hw noException s vsid pageIndex api m = (none, m) ∧
      searchPageTable hw noException s' vsid pageIndex api m' = (none, m')) ∨
    ∃ b pte2 pte2', Aligned b ∧ SameEntry pte2 pte2' ∧ pte2 = word m (b + 4) ∧
      searchPageTable hw noException s vsid pageIndex api m = (some (b, pte2), m) ∧
      searchPageTable hw noException s' vsid pageIndex api m' = (some (b, pte2'), m') := by
  simp only [searchPageTable, hbase, hmask]
  have h1 := searchPteg_same hmem h noException (UPTE_Lo.hex api vsid false true) 8 _
    (aligned_group ha ((vsid ^^^ pageIndex) &&& s.pagetableHashmask))
  have h2 := searchPteg_same hmem h noException (UPTE_Lo.hex api vsid true true) 8 _
    (aligned_group ha (~~~(vsid ^^^ pageIndex) &&& s.pagetableHashmask))
  obtain ⟨hn, hn'⟩ | ⟨b, pte2, pte2', hb, hsame, hval, hf, hf'⟩ := h1
  · simp only [hn, hn']
    exact h2
  · right
    exact ⟨b, pte2, pte2', hb, hsame, hval, by simp only [hf], by simp only [hf']⟩

theorem searchPageTable_plain (hmem : PlainMemory hw word) {s : PowerPCState} (ha : Aligned s.pagetableBase)
    {noException : Bool} {vsid pageIndex api : U32} {m : M} :
    (∀ {m'}, searchPageTable hw noException s vsid pageIndex api m = (none, m') → m' = m) ∧
    ∀ {b pte2 m'}, searchPageTable hw noException s vsid pageIndex api m = (some (b, pte2), m') →
      m' = m ∧ Aligned b ∧ pte2 = word m (b + 4) := by
  obtain ⟨hn, -⟩ | ⟨b, pte2, -, hb, -, hval, hf, -⟩ := searchPageTable_same hmem
    (samePageTable_refl m) (s := s) rfl rfl ha noException vsid pageIndex api
  · rw [hn]
    constructor
    · intro m' h
      cases h
      rfl
    · intro b pte2 m' h
      cases h
  · rw [hf]
    constructor
    · intro m' h
      cases h
    · intro b' pte2' m' h
      cases h
      exact ⟨rfl, hb, hval⟩

theorem searchPteg_noException (hmem : PlainMemory hw word) (noException noException' : Bool) (pte1 : U32) (m : M) :
    ∀ (n : Nat) (a : U32), searchPteg hw noException pte1 n a m = searchPteg hw noException' pte1 n a m
  | 0, _ => rfl
  | n + 1, a => by
      simp only [searchPteg, hmem.read]
      rw [searchPteg_noException hmem noException noException' pte1 m n]

theorem searchPageTable_noException (hmem : PlainMemory hw word) (noException noException' : Bool) (s : PowerPCState)
    (vsid pageIndex api : U32) (m : M) :
    searchPageTable hw noException s vsid pageIndex api m = searchPageTable hw noException' s vsid pageIndex api m := by
  simp only [searchPageTable, searchPteg_noException hmem noException noException']

theorem samePageTable_write (hmem : PlainMemory hw word) (flag : XCheckTLBFlag) {m : M} {b : U32} (hb : Aligned b) :
    SamePageTable word m (hw.writeU32 (setAccessBits flag (word m (b + 4))) (b + 4) m) := by
  intro a ha
  constructor
  · rw [hmem.write, if_neg (ha.add_four_ne hb)]
  · rw [hmem.write]
    split
    · next heq =>
        rw [heq]
        exact (sameEntry_setAccessBits flag _).symm
    · exact .refl _

end Search

/-! ## One translation -/

def SameWays (tlbe tlbe' : TLBEntry) : Prop :=
  ∀ w, tlbe'.tag w = tlbe.tag w ∧ tlbe'.vsid w = tlbe.vsid w ∧ tlbe'.paddr w = tlbe.paddr w ∧
    SameEntry (tlbe'.pte w) (tlbe.pte w)

theorem sameWays_refl (tlbe : TLBEntry) : SameWays tlbe tlbe := fun _ => ⟨rfl, rfl, rfl, .refl _⟩

theorem sameWays_lookupWay (flag : XCheckTLBFlag) (vpa : U32) (tlbe : TLBEntry) (w : Fin 2) :
    SameWays tlbe (lookupWay flag vpa tlbe w).2 := by
  simp only [lookupWay]
  split
  · intro v
    by_cases hv : v = w
    · subst hv
      exact ⟨rfl, rfl, rfl, by simpa using sameEntry_setC _⟩
    · exact ⟨rfl, rfl, rfl, by simp [hv, SameEntry.refl]⟩
  · split
    · exact sameWays_refl tlbe
    · exact fun _ => ⟨rfl, rfl, rfl, .refl _⟩

theorem setTlb_sameWays {s : PowerPCState} {i : Fin 2} {n : Fin 64} {tlbe : TLBEntry} (h : SameWays (s.tlb i n) tlbe)
    (j : Fin 2) (k : Fin 64) : SameWays (s.tlb j k) ((s.setTlb i n tlbe).tlb j k) := by
  simp only [PowerPCState.setTlb]
  by_cases hj : j = i
  · subst hj
    by_cases hk : k = n
    · subst hk
      simpa using h
    · simpa [hk] using sameWays_refl _
  · simpa [hj] using sameWays_refl _

theorem sameWays_lookup (s : PowerPCState) (flag : XCheckTLBFlag) (vpa vsid : U32) (i : Fin 2) (n : Fin 64) :
    SameWays (s.tlb i n) ((lookupTLBPageAddress s flag vpa vsid).2.tlb i n) := by
  simp only [lookupTLBPageAddress]
  split
  · exact setTlb_sameWays (sameWays_lookupWay flag vpa _ 0) i n
  · split
    · exact setTlb_sameWays (sameWays_lookupWay flag vpa _ 1) i n
    · exact sameWays_refl _

theorem pagetableBase_updateTLBEntry (s : PowerPCState) (flag : XCheckTLBFlag) (pte2 address vsid : U32) :
    (updateTLBEntry s flag pte2 address vsid).pagetableBase = s.pagetableBase := by
  simp only [updateTLBEntry]
  split <;> rfl

theorem pagetableBase_translateByPageTable (hw : Hardware M) (flag : XCheckTLBFlag) (address : U32)
    (res : TLBLookupResult) (s : State M) :
    (translateByPageTable hw flag address res s).2.2.ppc.pagetableBase = s.ppc.pagetableBase := by
  simp only [translateByPageTable]
  split
  · rfl
  · split
    · rfl
    · split
      · rfl
      · split
        · rfl
        · exact pagetableBase_updateTLBEntry ..

theorem pagetableBase_translate (hw : Hardware M) (flag : XCheckTLBFlag) (address : U32) (s : State M) :
    (translatePageAddress hw flag address s).2.2.ppc.pagetableBase = s.ppc.pagetableBase := by
  have hsw := (sameWalk_lookup s flag address (UReg_SR.vsid (s.ppc.sr (EffectiveAddress.sr address)))).base
  simp only [translatePageAddress]
  split
  · next heq =>
      rw [heq] at hsw
      exact hsw
  · next heq =>
      rw [heq] at hsw
      rw [pagetableBase_translateByPageTable]
      exact hsw

section Filled

variable {hw : Hardware M} {word : M → U32 → U32}

theorem FilledFromPageTable.mono (hmem : PlainMemory hw word) {s s' : State M} {n : Fin 64} {tlbe tlbe' : TLBEntry}
    {w : Fin 2} (h : FilledFromPageTable hw s n tlbe w) (hways : SameWays tlbe tlbe')
    (hpt : SamePageTable word s.memory s'.memory) (hbase : s'.ppc.pagetableBase = s.ppc.pagetableBase)
    (hmask : s'.ppc.pagetableHashmask = s.ppc.pagetableHashmask) (ha : Aligned s.ppc.pagetableBase) :
    FilledFromPageTable hw s' n tlbe' w := by
  obtain ⟨htag, hvsid, hpaddr, hpte⟩ := hways w
  obtain ⟨address, pte2, h1, h2, h3, h4, hsel⟩ := h
  refine ⟨address, pte2, htag.trans h1, h2, hpaddr.trans h3, hpte.trans h4, fun noException => ?_⟩
  obtain ⟨ptegAddr, pte2', m, hsame, hfound⟩ := hsel noException
  rw [hvsid]
  obtain ⟨hn, -⟩ | ⟨b, v, v', -, hv, -, hf, hf'⟩ := searchPageTable_same hmem hpt hbase hmask ha noException
    (tlbe.vsid w) (EffectiveAddress.pageIndex address) (EffectiveAddress.api address)
  · rw [hn] at hfound
    cases hfound
  · rw [hf] at hfound
    cases hfound
    exact ⟨_, v', _, hv.symm.trans hsame, hf'⟩

theorem TLBFilled.mono (hmem : PlainMemory hw word) {s s' : State M} (h : TLBFilled hw s)
    (hways : ∀ i n, SameWays (s.ppc.tlb i n) (s'.ppc.tlb i n)) (hpt : SamePageTable word s.memory s'.memory)
    (hbase : s'.ppc.pagetableBase = s.ppc.pagetableBase)
    (hmask : s'.ppc.pagetableHashmask = s.ppc.pagetableHashmask) (ha : Aligned s.ppc.pagetableBase) :
    TLBFilled hw s' := by
  intro i n w hvalid
  rw [(hways i n w).1] at hvalid
  exact (h i n w hvalid).mono hmem (hways i n) hpt hbase hmask ha

theorem filled_fill {s : State M} {n : Fin 64} {tlbe : TLBEntry} {pte2 address vsid : U32}
    (hn : entryIndex (tag address) = n)
    (h : ∀ w, tlbe.tag w ≠ TLBEntry.invalidTag → FilledFromPageTable hw s n tlbe w)
    (hsel : ∀ noException, ∃ ptegAddr pte2' m, SameEntry pte2' pte2 ∧
      searchPageTable hw noException s.ppc vsid (EffectiveAddress.pageIndex address)
        (EffectiveAddress.api address) s.memory = (some (ptegAddr, pte2'), m)) (index w : Fin 2)
    (hvalid : (tlbe.fill index pte2 (tag address) vsid).tag w ≠ TLBEntry.invalidTag) :
    FilledFromPageTable hw s n (tlbe.fill index pte2 (tag address) vsid) w := by
  by_cases hw' : w = index
  · subst hw'
    simp only [FilledFromPageTable, TLBEntry.fill, Function.update_self]
    exact ⟨address, pte2, rfl, hn, rfl, .refl _, hsel⟩
  · simp only [FilledFromPageTable, TLBEntry.fill, Function.update_of_ne hw'] at hvalid ⊢
    exact h w hvalid

theorem TLBFilled.update {s : State M} (h : TLBFilled hw s) (flag : XCheckTLBFlag) {pte2 address vsid : U32}
    (hsel : ∀ noException, ∃ ptegAddr pte2' m, SameEntry pte2' pte2 ∧
      searchPageTable hw noException s.ppc vsid (EffectiveAddress.pageIndex address)
        (EffectiveAddress.api address) s.memory = (some (ptegAddr, pte2'), m)) :
    TLBFilled hw { s with ppc := updateTLBEntry s.ppc flag pte2 address vsid } := by
  intro i n w hvalid
  simp only [updateTLBEntry] at hvalid ⊢
  split
  · next hne =>
      rw [if_pos hne] at hvalid
      exact h i n w hvalid
  · next hne =>
      rw [if_neg hne] at hvalid
      simp only [PowerPCState.setTlb] at hvalid ⊢
      by_cases hi : i = tlbIndex flag
      · subst hi
        simp only [Function.update_self] at hvalid ⊢
        by_cases hn : n = entryIndex (tag address)
        · subst hn
          simp only [Function.update_self] at hvalid ⊢
          exact filled_fill rfl (h _ _) hsel _ w hvalid
        · simp only [Function.update_of_ne hn] at hvalid ⊢
          exact h _ n w hvalid
      · simp only [Function.update_of_ne hi] at hvalid ⊢
        exact h i n w hvalid

theorem TLBFilled.walk (hmem : PlainMemory hw word) {s : State M} (h : TLBFilled hw s)
    (ha : Aligned s.ppc.pagetableBase) (flag : XCheckTLBFlag) (address : U32) (res : TLBLookupResult) :
    TLBFilled hw (translateByPageTable hw flag address res s).2.2 := by
  simp only [translateByPageTable]
  split
  · exact h
  · split
    · exact h
    · split
      · next m hsearch =>
          rw [(searchPageTable_plain hmem ha).1 hsearch]
          exact h
      · next ptegAddr pte2 m hsearch =>
          obtain ⟨rfl, hb, rfl⟩ := (searchPageTable_plain hmem ha).2 hsearch
          have hpt : SamePageTable word s.memory (if flag.isNoExceptionFlag then s.memory
              else hw.writeU32 (setAccessBits flag (word s.memory (ptegAddr + 4))) (ptegAddr + 4) s.memory) := by
            split
            · exact samePageTable_refl _
            · exact samePageTable_write hmem flag hb
          revert hpt
          generalize (if flag.isNoExceptionFlag = true then s.memory
            else hw.writeU32 (setAccessBits flag (word s.memory (ptegAddr + 4))) (ptegAddr + 4) s.memory) = m'
          intro hpt
          have hm : TLBFilled hw ⟨s.ppc, m'⟩ := h.mono hmem (fun _ _ => sameWays_refl _) hpt rfl rfl ha
          split
          · exact hm
          · apply hm.update
            intro noException
            rw [searchPageTable_noException hmem _ noException] at hsearch
            obtain ⟨hn, -⟩ | ⟨b, v, v', -, hv, -, hf, hf'⟩ := searchPageTable_same hmem hpt (s := s.ppc) rfl rfl ha
              noException (UReg_SR.vsid (s.ppc.sr (EffectiveAddress.sr address)))
              (EffectiveAddress.pageIndex address) (EffectiveAddress.api address)
            · rw [hn] at hsearch
              cases hsearch
            · rw [hf] at hsearch
              cases hsearch
              exact ⟨_, v', _, hv.symm.trans (sameEntry_setAccessBits flag _).symm, hf'⟩

theorem TLBFilled.translate (hmem : PlainMemory hw word) {s : State M} (h : TLBFilled hw s)
    (ha : Aligned s.ppc.pagetableBase) (flag : XCheckTLBFlag) (address : U32) :
    TLBFilled hw (translatePageAddress hw flag address s).2.2 := by
  have hl := fun vsid => sameWays_lookup s.ppc flag address vsid
  have hsw := fun vsid => sameWalk_lookup s flag address vsid
  have hk : ∀ vsid, TLBFilled hw { s with ppc := (lookupTLBPageAddress s.ppc flag address vsid).2 } := fun vsid =>
    h.mono hmem (hl vsid) (samePageTable_refl _) (hsw vsid).base (hsw vsid).hashmask ha
  simp only [translatePageAddress]
  split
  · next heq =>
      have := hk (UReg_SR.vsid (s.ppc.sr (EffectiveAddress.sr address)))
      rwa [heq] at this
  · next heq =>
      have hf := hk (UReg_SR.vsid (s.ppc.sr (EffectiveAddress.sr address)))
      have hb := (hsw (UReg_SR.vsid (s.ppc.sr (EffectiveAddress.sr address)))).base
      rw [heq] at hf hb
      exact hf.walk hmem (by simpa [← hb] using ha) flag address _

theorem TLBFilled.invalidateTLBEntry {s : State M} (h : TLBFilled hw s) (address : U32) :
    TLBFilled hw { s with ppc := invalidateTLBEntry s.ppc address } := by
  have hinv : ∀ {s : State M} (_ : TLBFilled hw s) (i n),
      TLBFilled hw { s with ppc := s.ppc.setTlb i n (s.ppc.tlb i n).invalidate } := by
    intro s h i n j k w hvalid
    simp only [PowerPCState.setTlb] at hvalid ⊢
    by_cases hj : j = i
    · subst hj
      simp only [Function.update_self] at hvalid ⊢
      by_cases hk : k = n
      · subst hk
        simp [TLBEntry.invalidate] at hvalid
      · simp only [Function.update_of_ne hk] at hvalid ⊢
        exact h _ k w hvalid
    · simp only [Function.update_of_ne hj] at hvalid ⊢
      exact h j k w hvalid
  exact hinv (hinv h 0 _) 1 _

/-! ## Any history -/

/-- What the emulated program does between two changes of the page table. -/
inductive Op
  | translate (flag : XCheckTLBFlag) (address : U32)
  | setSR (index : Fin 16) (value : U32)
  | invalidateTLBEntry (address : U32)

def step (hw : Hardware M) (s : State M) : Op → Option (State M)
  | .translate flag address => some (translatePageAddress hw flag address s).2.2
  | .setSR index value => some { s with ppc := s.ppc.setSR index value }
  | .invalidateTLBEntry address => some { s with ppc := Karphin.MMU.invalidateTLBEntry s.ppc address }

def initial (sdr : U32) (m : M) : State M := ⟨({} : PowerPCState).sdrUpdated sdr, m⟩

theorem aligned_initial (sdr : U32) (m : M) : Aligned (initial sdr m).ppc.pagetableBase := by
  simp only [Aligned, initial, PowerPCState.sdrUpdated, BitVec.toNat_shiftLeft, Nat.shiftLeft_eq]
  omega

theorem tlbFilled_of_reach (hmem : PlainMemory hw word) {sdr : U32} {m : M} {s : State M}
    (h : Lib.Reach (step hw) Lib.anyStep (initial sdr m) s) : TLBFilled hw s := by
  have hinv : TLBFilled hw s ∧ Aligned s.ppc.pagetableBase := by
    refine Lib.Reach.invariant (fun s => TLBFilled hw s ∧ Aligned s.ppc.pagetableBase) ⟨?_, aligned_initial sdr m⟩ ?_ h
    · intro i n w hvalid
      exact absurd rfl hvalid
    · intro s op s' hs _ hstep
      cases op with
      | translate flag address =>
          cases hstep
          exact ⟨hs.1.translate hmem hs.2 flag address, by rw [pagetableBase_translate]; exact hs.2⟩
      | setSR index value =>
          cases hstep
          exact hs
      | invalidateTLBEntry address =>
          cases hstep
          exact ⟨hs.1.invalidateTLBEntry address, hs.2⟩
  exact hinv.1

end Filled

end Karphin.MMU

/-!
# The TLB and the translation

The hit path of `TranslatePageAddress` returns before the segment register is looked at. That is the only way in
which the TLB shows in the result.
-/

namespace Karphin.MMU

variable {M : Type}

/-- The answer is the one without a TLB exactly when it is not a hit in a segment that forbids the access. -/
theorem tlb_invisible (hw : Hardware M) (s : State M) (hs : TLBFilled hw s) (flag : XCheckTLBFlag) (address : U32) :
    (translatePageAddress hw flag address s).1 = (translatePageAddress hw flag address s.withoutTLB).1 ↔
      ¬ (TLBHit s.ppc flag address ∧ SegmentForbids s.ppc flag address) := by
  rw [translatePageAddress_withoutTLB]
  by_cases hhit : TLBHit s.ppc flag address
  · obtain ⟨w, hway, hc⟩ := id hhit
    rw [translatePageAddress_hit hway hc]
    by_cases hseg : SegmentForbids s.ppc flag address
    · have hne : (translateByPageTable hw flag address .notFound s).1.result ≠ .pageTableTranslated :=
        translateByPageTable_forbidden .notFound hseg
      constructor
      · intro h
        rw [← h] at hne
        exact absurd rfl hne
      · intro h
        exact absurd ⟨hhit, hseg⟩ h
    · rw [walk_of_hit hs hway hseg]
      simp [hseg]
  · rw [translatePageAddress_miss hhit]
    simp [hhit]

/-! ## A page table of one page -/

def plainHardware : Hardware (U32 → U32) where
  readFromHardware _ a m := (m a, m)
  writeU32 v a m := Function.update m a v

theorem plainHardware_plain : PlainMemory plainHardware id :=
  ⟨fun _ _ _ => rfl, fun v a m b => by simp [plainHardware, Function.update_apply]⟩

def onePage (a : U32) : U32 := if a = 0x40 then 0x80000000 else if a = 0x44 then 0x5000 else 0

def afterRead : State (U32 → U32) := (translatePageAddress plainHardware .read 0x1000 (initial 0 onePage)).2.2

theorem reach_afterRead : Lib.Reach (step plainHardware) Lib.anyStep (initial 0 onePage) afterRead :=
  Lib.Reach.refl.tail trivial (a := .translate .read 0x1000) rfl

theorem tlb_invisible_afterRead : TLBFilled plainHardware afterRead ∧
    (translatePageAddress plainHardware .read 0x1004 afterRead).1 =
      (translatePageAddress plainHardware .read 0x1004 afterRead.withoutTLB).1 :=
  have h := tlbFilled_of_reach plainHardware_plain reach_afterRead
  ⟨h, (tlb_invisible plainHardware afterRead h .read 0x1004).2 (fun hf => absurd hf.2 (by decide))⟩

/-- After the read the segment becomes a direct-store segment, and the next read still finds the page. -/
theorem direct_store_segment_missed :
    ∃ s, Lib.Reach (step plainHardware) Lib.anyStep (initial 0 onePage) s ∧ TLBFilled plainHardware s ∧
      (translatePageAddress plainHardware .read 0x1000 s).1 = ⟨.pageTableTranslated, 0x5000⟩ ∧
      (translatePageAddress plainHardware .read 0x1000 s.withoutTLB).1 = ⟨.directStoreSegment, 0⟩ := by
  have h : Lib.Reach (step plainHardware) Lib.anyStep (initial 0 onePage)
      { afterRead with ppc := afterRead.ppc.setSR 0 0x80000000 } :=
    reach_afterRead.tail trivial (a := .setSR 0 0x80000000) rfl
  exact ⟨_, h, tlbFilled_of_reach plainHardware_plain h, by decide, by decide⟩

end Karphin.MMU
