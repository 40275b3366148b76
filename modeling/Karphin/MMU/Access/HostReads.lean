import Karphin.Lib.Quiet
import Karphin.MMU.Access.Inhibited
import Karphin.PPCCache.Lemmas.Logical

/-!
# Reads by the host

A read with `NoException` or `OpcodeNoException` fills no line, no TLB entry and no access bit. What it leaves are marks:
the recency bits of the lines it finds in the data cache, and the alerts for addresses behind which there is nothing.
-/

namespace Karphin.MMU

open PPCCache (MemorySizes Buffer Cache lineAddr setOf select)
open PPCCache.Machine (getCache readLoop lenInBlock)

/-! ## Marks -/

inductive HostEvent
  /-- The data cache is asked for the line of the address. -/
  | lookup (address : Nat)
  /-- Nothing is behind an address. -/
  | alert
deriving DecidableEq, Repr

/-- `GetCache` on a line that must not be filled. -/
def touchLine (z : MemorySizes) (c : Cache) (address : Nat) : Cache :=
  match c.lookup (select z (lineAddr address)) with
  | some way => c.updatePlru (setOf (lineAddr address)) way
  | none => c

variable {δ : Type}

def HostEvent.mark (env : Environment δ) (e : HostEvent) (s : Bus δ) : Bus δ :=
  match e with
  | lookup address => { s with dcache := ⟨touchLine env.sizes s.dcache.cache address, s.dcache.mem⟩ }
  | alert => pauseOnPanic env s

structure Bus.Alike (s s' : Bus δ) : Prop where
  data : s.dcache.cache.data = s'.dcache.cache.data
  addrs : s.dcache.cache.addrs = s'.dcache.cache.addrs
  valid : s.dcache.cache.valid = s'.dcache.cache.valid
  modified : s.dcache.cache.modified = s'.dcache.cache.modified
  lookup : s.dcache.cache.lookup = s'.dcache.cache.lookup
  mem : s.dcache.mem = s'.dcache.mem
  l1Cache : s.l1Cache = s'.l1Cache
  fakeVMem : s.fakeVMem = s'.fakeVMem
  dsisr : s.dsisr = s'.dsisr
  dar : s.dar = s'.dar

theorem Bus.alike_equivalence : Equivalence (@Bus.Alike δ) where
  refl _ := ⟨rfl, rfl, rfl, rfl, rfl, rfl, rfl, rfl, rfl, rfl⟩
  symm h := ⟨h.data.symm, h.addrs.symm, h.valid.symm, h.modified.symm, h.lookup.symm, h.mem.symm, h.l1Cache.symm,
    h.fakeVMem.symm, h.dsisr.symm, h.dar.symm⟩
  trans h h' := ⟨h.data.trans h'.data, h.addrs.trans h'.addrs, h.valid.trans h'.valid, h.modified.trans h'.modified,
    h.lookup.trans h'.lookup, h.mem.trans h'.mem, h.l1Cache.trans h'.l1Cache, h.fakeVMem.trans h'.fakeVMem,
    h.dsisr.trans h'.dsisr, h.dar.trans h'.dar⟩

theorem HostEvent.mark_alike (env : Environment δ) (e : HostEvent) (s : Bus δ) : Bus.Alike (e.mark env s) s := by
  cases e with
  | lookup address =>
      rw [mark, touchLine]
      cases s.dcache.cache.lookup (select env.sizes (lineAddr address)) <;> exact ⟨rfl, rfl, rfl, rfl, rfl, rfl, rfl, rfl, rfl, rfl⟩
  | alert =>
      rw [mark, pauseOnPanic]
      cases env.isPauseOnPanicMode <;> exact ⟨rfl, rfl, rfl, rfl, rfl, rfl, rfl, rfl, rfl, rfl⟩

def hostMarks (env : Environment δ) : Lib.Marking (Bus δ) HostEvent where
  mark := HostEvent.mark env
  Alike := Bus.Alike
  equivalence := Bus.alike_equivalence
  mark_alike := HostEvent.mark_alike env

/-! ## The data cache -/

/-- The addresses for which `Cache::Read` calls `GetCache`. -/
def lookups (addr len : Nat) : List Nat :=
  if h : len = 0 then []
  else addr :: lookups ((addr + lenInBlock addr len) % 2 ^ 32) (len - lenInBlock addr len)
termination_by len
decreasing_by have := PPCCache.Machine.lenInBlock_pos addr h; omega

variable (env : Environment δ)

theorem getCache_locked (z : MemorySizes) (m : PPCCache.Machine) (addr : Nat) :
    getCache z m addr true =
      (⟨touchLine z m.cache addr, m.mem⟩, setOf (lineAddr addr), m.cache.lookup (select z (lineAddr addr))) := by
  rw [getCache, touchLine]
  cases h : m.cache.lookup (select z (lineAddr addr)) with
  | none => simp [h]
  | some way => simp [h]

theorem quiet_readBlock (addr : Nat) (rest : Buffer) (n : Nat) :
    (hostMarks env).Quiet
      (fun s => (PPCCache.readBlock env.sizes s.dcache addr rest n true,
        { s with dcache := (getCache env.sizes s.dcache addr true).1 }))
      fun _ => [.lookup addr] where
  state s := by
    rw [getCache_locked]
    rfl
  value {s s'} h := by
    have hmem : s.dcache.mem = s'.dcache.mem := h.mem
    have hdata (c : Cache) : (touchLine env.sizes c addr).data = c.data := by
      rw [touchLine]
      cases c.lookup (select env.sizes (lineAddr addr)) <;> rfl
    rw [PPCCache.readBlock, PPCCache.readBlock, getCache_locked, getCache_locked]
    rw [h.lookup, hmem]
    cases s'.dcache.cache.lookup (select env.sizes (lineAddr addr)) with
    | none => rfl
    | some way =>
        dsimp only
        rw [hdata, hdata, h.data]
  events _ := rfl

theorem quiet_readLoop (addr len : Nat) (buffer : Buffer) (pos : Nat) :
    (hostMarks env).Quiet
      (fun s => ((readLoop env.sizes s.dcache addr buffer pos len true).2,
        { s with dcache := (readLoop env.sizes s.dcache addr buffer pos len true).1 }))
      fun _ => (lookups addr len).map HostEvent.lookup := by
  induction len using Nat.strong_induction_on generalizing addr buffer pos with
  | _ len ih =>
      rw [lookups]
      by_cases hlen : len = 0
      · rw [dif_pos hlen]
        have hread (s : Bus δ) : readLoop env.sizes s.dcache addr buffer pos len true = (s.dcache, buffer) := by
          rw [PPCCache.readLoop_eq, if_pos hlen]
        simp only [hread]
        exact .look fun _ => rfl
      · have hpos := PPCCache.Machine.lenInBlock_pos addr hlen
        rw [dif_neg hlen, List.map_cons]
        have hrest := (quiet_readBlock env addr (fun i => buffer (pos + i)) (lenInBlock addr len)).bind fun block =>
          ih (len - lenInBlock addr len) (by omega) ((addr + lenInBlock addr len) % 2 ^ 32)
            (fun i => if pos ≤ i ∧ i < pos + lenInBlock addr len then block (i - pos) else buffer i)
            (pos + lenInBlock addr len)
        have hread (s : Bus δ) : readLoop env.sizes s.dcache addr buffer pos len true =
            readLoop env.sizes (getCache env.sizes s.dcache addr true).1 ((addr + lenInBlock addr len) % 2 ^ 32)
              (fun i => if pos ≤ i ∧ i < pos + lenInBlock addr len then
                PPCCache.readBlock env.sizes s.dcache addr (fun i => buffer (pos + i)) (lenInBlock addr len) true (i - pos)
                else buffer i)
              (pos + lenInBlock addr len) (len - lenInBlock addr len) true := by
          rw [PPCCache.readLoop_eq, if_neg hlen]
        simp only [hread]
        exact hrest

/-! ## An address -/

def memoryEvents (size offset : Nat) (wi : Bool) : List HostEvent :=
  if !env.enableDcache || wi then [] else (lookups offset size).map HostEvent.lookup

def physicalEvents (size : Nat) (address : U32) (wi : Bool) : List HostEvent :=
  if inL1Cache address then []
  else if inRAM address then memoryEvents env size (ramOffset env address) wi
  else if inEXRAM env address then memoryEvents env size (exRamOffset address) wi
  else if inFakeVMem env address then []
  else [.alert]

variable {flag : XCheckTLBFlag}

theorem ne_read_of_host (hflag : flag.isNoExceptionFlag = true) : flag ≠ .read := by
  rintro rfl
  cases hflag

theorem quiet_readMemory (hflag : flag.isNoExceptionFlag = true) (size offset : Nat) (wi : Bool) :
    (hostMarks env).Quiet (readMemory env flag size offset wi) fun _ => memoryEvents env size offset wi := by
  by_cases hdirect : (!env.enableDcache || wi) = true
  · have hread : readMemory env flag size offset wi = fun s => (bswap size (hostValue size fun i => s.dcache.mem (offset + i)), s) :=
      funext fun s => if_pos hdirect
    rw [hread, memoryEvents, if_pos hdirect]
    exact .look fun h => by rw [h.mem]
  · have hlocked : (env.dlock || decide (flag ≠ .read)) = true := by
      rw [decide_eq_true (ne_read_of_host hflag), Bool.or_true]
    have hread : readMemory env flag size offset wi = fun s =>
        (bswap size (hostValue size (readLoop env.sizes s.dcache offset env.uninitialized 0 size true).2),
          { s with dcache := (readLoop env.sizes s.dcache offset env.uninitialized 0 size true).1 }) := by
      funext s
      rw [readMemory, if_neg hdirect, hlocked]
      rfl
    rw [hread, memoryEvents, if_neg hdirect]
    exact (quiet_readLoop env offset size env.uninitialized 0).map fun value => bswap size (hostValue size value)

theorem quiet_readPhysical (hflag : flag.isNoExceptionFlag = true) (size : Nat) (address : U32) (wi : Bool) :
    (hostMarks env).Quiet (readPhysical env flag size address wi) fun _ => physicalEvents env size address wi := by
  have hdevice : ¬ (flag = .read ∧ address &&& 0xF8000000 = 0x08000000) := fun h => ne_read_of_host hflag h.1
  have hread : readPhysical env flag size address wi = fun s =>
      if inL1Cache address = true then (bswap size (hostValue size fun i => s.l1Cache ((address &&& 0x0FFFFFFF).toNat + i)), s)
      else if inRAM address = true then readMemory env flag size (ramOffset env address) wi s
      else if inEXRAM env address = true then readMemory env flag size (exRamOffset address) wi s
      else if inFakeVMem env address = true then
        (bswap size (hostValue size fun i => s.fakeVMem (fakeVMemOffset env address + i)), s)
      else (0, pauseOnPanic env s) := funext fun s => if_neg hdevice
  have halert : (hostMarks env).Quiet (fun s => ((0 : BitVec 64), pauseOnPanic env s)) fun _ => [.alert] :=
    ⟨fun _ => rfl, fun _ => rfl, fun _ => rfl⟩
  rw [hread]
  unfold physicalEvents
  refine .ite _ (.look fun h => by rw [h.l1Cache]) ?_
  refine .ite _ (quiet_readMemory env hflag size _ wi) ?_
  refine .ite _ (quiet_readMemory env hflag size _ wi) ?_
  exact .ite _ (.look fun h => by rw [h.fakeVMem]) halert

/-! ## The walk -/

def wordEvents (address : U32) : List HostEvent :=
  if crossesPage address 4 then (List.range 4).flatMap fun i => physicalEvents env 1 (address + BitVec.ofNat 32 i) false
  else physicalEvents env 4 address false

def ptegEvents (pte1 : U32) : Nat → U32 → Bus δ → List HostEvent
  | 0, _, _ => []
  | n + 1, ptegAddr, s =>
    wordEvents env ptegAddr ++
      if pte1 = ((hardware env).readFromHardware true ptegAddr s).1 then wordEvents env (ptegAddr + 4)
      else ptegEvents pte1 n (ptegAddr + 8) s

def groupOf (ppc : PowerPCState) (hash : U32) : U32 := ((hash &&& ppc.pagetableHashmask) <<< 6) ||| ppc.pagetableBase

def pageTableEvents (ppc : PowerPCState) (vsid pageIndex api : U32) (s : Bus δ) : List HostEvent :=
  let group := groupOf ppc (vsid ^^^ pageIndex)
  ptegEvents env (UPTE_Lo.hex api vsid false true) 8 group s ++
    match (searchPteg (hardware env) true (UPTE_Lo.hex api vsid false true) 8 group s).1 with
    | some _ => []
    | none => ptegEvents env (UPTE_Lo.hex api vsid true true) 8 (groupOf ppc (~~~(vsid ^^^ pageIndex))) s

theorem quiet_word (address : U32) :
    (hostMarks env).Quiet ((hardware env).readFromHardware true address) fun _ => wordEvents env address := by
  have hhost : XCheckTLBFlag.noException.isNoExceptionFlag = true := rfl
  by_cases hcross : crossesPage address 4 = true
  · have hread : (hardware env).readFromHardware true address = fun s =>
        ((readBytes (fun a s => readPhysical env .noException 1 a false s) address 4 s).1.setWidth 32,
          (readBytes (fun a s => readPhysical env .noException 1 a false s) address 4 s).2) := by
      funext s
      have huntranslated : readUntranslated env .noException 4 address s =
          readBytes (fun a s => readPhysical env .noException 1 a false s) address 4 s := if_pos hcross
      rw [← huntranslated]
      rfl
    have hbytes := Lib.Marking.Quiet.foldl
      (fun i => quiet_readPhysical env hhost 1 (address + BitVec.ofNat 32 i) false)
      (fun (value : BitVec 64) byte => value <<< 8 ||| byte) (List.range 4) 0
    rw [hread, wordEvents, if_pos hcross]
    exact hbytes.map fun value => value.setWidth 32
  · have hread : (hardware env).readFromHardware true address = fun s =>
        ((readPhysical env .noException 4 address false s).1.setWidth 32, (readPhysical env .noException 4 address false s).2) := by
      funext s
      have huntranslated : readUntranslated env .noException 4 address s = readPhysical env .noException 4 address false s :=
        if_neg hcross
      rw [← huntranslated]
      rfl
    rw [hread, wordEvents, if_neg hcross]
    exact (quiet_readPhysical env hhost 4 address false).map fun value => value.setWidth 32

theorem quiet_searchPteg (pte1 : U32) (n : Nat) (ptegAddr : U32) :
    (hostMarks env).Quiet (searchPteg (hardware env) true pte1 n ptegAddr) (ptegEvents env pte1 n ptegAddr) := by
  induction n generalizing ptegAddr with
  | zero => exact .look fun _ => rfl
  | succ n ih =>
      have hfound : (hostMarks env).Quiet
          (fun s => (some (ptegAddr, ((hardware env).readFromHardware true (ptegAddr + 4) s).1),
            ((hardware env).readFromHardware true (ptegAddr + 4) s).2))
          fun _ => wordEvents env (ptegAddr + 4) := (quiet_word env (ptegAddr + 4)).map fun pte2 => some (ptegAddr, pte2)
      exact (quiet_word env ptegAddr).bind fun pteg => .ite _ hfound (ih (ptegAddr + 8))

theorem quiet_searchPageTable (ppc : PowerPCState) (vsid pageIndex api : U32) :
    (hostMarks env).Quiet (searchPageTable (hardware env) true ppc vsid pageIndex api)
      (pageTableEvents env ppc vsid pageIndex api) := by
  have hsecond (entry : Option (U32 × U32)) : (hostMarks env).Quiet
      (fun s => match entry with
        | some entry => (some entry, s)
        | none => searchPteg (hardware env) true (UPTE_Lo.hex api vsid true true) 8 (groupOf ppc (~~~(vsid ^^^ pageIndex))) s)
      fun s => match entry with
        | some _ => []
        | none => ptegEvents env (UPTE_Lo.hex api vsid true true) 8 (groupOf ppc (~~~(vsid ^^^ pageIndex))) s := by
    cases entry with
    | some entry => exact .look fun _ => rfl
    | none => exact quiet_searchPteg env _ 8 _
  refine ((quiet_searchPteg env (UPTE_Lo.hex api vsid false true) 8 (groupOf ppc (vsid ^^^ pageIndex))).bind hsecond).congr ?_
    fun _ => rfl
  intro s
  rw [searchPageTable]
  dsimp only [groupOf]
  cases searchPteg (hardware env) true (UPTE_Lo.hex api vsid false true) 8
    (((vsid ^^^ pageIndex) &&& ppc.pagetableHashmask) <<< 6 ||| ppc.pagetableBase) s with
  | mk entry m => cases entry <;> rfl

/-! ## The translation -/

def translateEvents (ppc : PowerPCState) (flag : XCheckTLBFlag) (address : U32) (s : Bus δ) : List HostEvent :=
  let vsid := UReg_SR.vsid (ppc.sr (EffectiveAddress.sr address))
  match translateBatAddress (if flag.isOpcodeFlag then env.ibatTable else env.dbatTable) address with
  | some _ => []
  | none =>
    match (lookupTLBPageAddress ppc flag address vsid).1 with
    | .found _ _ => []
    | _ =>
      if SegmentForbids ppc flag address then []
      else pageTableEvents env ppc vsid (EffectiveAddress.pageIndex address) (EffectiveAddress.api address) s

theorem setTlb_self (s : PowerPCState) (i : Fin 2) (n : Fin 64) : s.setTlb i n (s.tlb i n) = s := by
  rw [PowerPCState.setTlb, Function.update_eq_self, Function.update_eq_self]

theorem lookup_host (hflag : flag.isNoExceptionFlag = true) (s : PowerPCState) (vpa vsid : U32) :
    (lookupTLBPageAddress s flag vpa vsid).2 = s := by
  have hwrite : flag ≠ .write := by
    rintro rfl
    cases hflag
  have hway (tlbe : TLBEntry) (w : Fin 2) : (lookupWay flag vpa tlbe w).2 = tlbe := by
    rw [lookupWay, if_neg fun h => hwrite h.1]
    exact if_pos hflag
  rw [lookupTLBPageAddress]
  dsimp only
  split
  · dsimp only
    rw [hway, setTlb_self]
  · split
    · dsimp only
      rw [hway, setTlb_self]
    · rfl

theorem translateByPageTable_host (hflag : flag.isNoExceptionFlag = true) (address : U32) (res : TLBLookupResult)
    (ppc : PowerPCState) (m : Bus δ) :
    let search := searchPageTable (hardware env) true ppc (UReg_SR.vsid (ppc.sr (EffectiveAddress.sr address)))
      (EffectiveAddress.pageIndex address) (EffectiveAddress.api address)
    (translateByPageTable (hardware env) flag address res ⟨ppc, m⟩).1 =
      (if SegmentForbids ppc flag address then
        ⟨if UReg_SR.t (ppc.sr (EffectiveAddress.sr address)) then .directStoreSegment else .pageFault, 0⟩
      else match (search m).1 with
        | some entry => ⟨.pageTableTranslated, (UPTE_Hi.rpn entry.2 <<< 12) ||| EffectiveAddress.offset address⟩
        | none => ⟨.pageFault, 0⟩) ∧
    (translateByPageTable (hardware env) flag address res ⟨ppc, m⟩).2.2 =
      if SegmentForbids ppc flag address then ⟨ppc, m⟩ else ⟨ppc, (search m).2⟩ := by
  intro search
  rw [translateByPageTable]
  dsimp only
  by_cases ht : UReg_SR.t (ppc.sr (EffectiveAddress.sr address)) = true
  · have hforbids : SegmentForbids ppc flag address := .inl ht
    rw [if_pos ht, if_pos hforbids, if_pos hforbids, if_pos ht]
    exact ⟨rfl, rfl⟩
  · rw [if_neg ht]
    by_cases hn : (flag.isOpcodeFlag && UReg_SR.n (ppc.sr (EffectiveAddress.sr address))) = true
    · have hforbids : SegmentForbids ppc flag address := .inr (by simpa using hn)
      rw [if_pos hn, if_pos hforbids, if_pos hforbids, if_neg ht]
      exact ⟨rfl, rfl⟩
    · have hallowed : ¬ SegmentForbids ppc flag address := by
        rw [SegmentForbids, not_or]
        exact ⟨ht, by simpa using hn⟩
      rw [if_neg hn, if_neg hallowed, if_neg hallowed, hflag]
      cases hsearch : search m with
      | mk entry m' =>
          cases entry with
          | none =>
              simp only [search] at hsearch
              rw [hsearch]
              exact ⟨rfl, rfl⟩
          | some entry =>
              simp only [search] at hsearch
              have hupdate (pte2 vsid : U32) : updateTLBEntry ppc flag pte2 address vsid = ppc := if_pos hflag
              rw [hsearch]
              dsimp only
              rw [rpn_setAccessBits, if_pos rfl, hupdate, ite_self]
              exact ⟨rfl, rfl⟩

theorem translatePageAddress_host (hflag : flag.isNoExceptionFlag = true) (address : U32) (ppc : PowerPCState) (m : Bus δ) :
    translatePageAddress (hardware env) flag address ⟨ppc, m⟩ =
      match (lookupTLBPageAddress ppc flag address (UReg_SR.vsid (ppc.sr (EffectiveAddress.sr address)))).1 with
      | .found paddr wi => (⟨.pageTableTranslated, paddr⟩, some wi, ⟨ppc, m⟩)
      | res => translateByPageTable (hardware env) flag address res ⟨ppc, m⟩ := by
  have hstate := lookup_host hflag ppc address (UReg_SR.vsid (ppc.sr (EffectiveAddress.sr address)))
  rw [translatePageAddress]
  dsimp only
  cases h : lookupTLBPageAddress ppc flag address (UReg_SR.vsid (ppc.sr (EffectiveAddress.sr address))) with
  | mk res ppc' =>
      rw [h] at hstate
      dsimp only at hstate
      subst hstate
      cases res <;> rfl

theorem quiet_translateAddress (hflag : flag.isNoExceptionFlag = true) (ppc : PowerPCState) (address : U32) :
    (∀ m, (translateAddress env flag address ⟨ppc, m⟩).2.ppc = ppc) ∧
    (hostMarks env).Quiet
      (fun m => ((translateAddress env flag address ⟨ppc, m⟩).1, (translateAddress env flag address ⟨ppc, m⟩).2.memory))
      (translateEvents env ppc flag address) := by
  unfold translateAddress translateEvents
  cases hbat : translateBatAddress (if flag.isOpcodeFlag then env.ibatTable else env.dbatTable) address with
  | some found => exact ⟨fun _ => rfl, .look fun _ => rfl⟩
  | none =>
      simp only [translatePageAddress_host env hflag]
      have hwalk (res : TLBLookupResult) :
          (∀ m, (translateByPageTable (hardware env) flag address res ⟨ppc, m⟩).2.2.ppc = ppc) ∧
          (hostMarks env).Quiet
            (fun m => (AddressResult.ofPage (translateByPageTable (hardware env) flag address res ⟨ppc, m⟩).1,
              (translateByPageTable (hardware env) flag address res ⟨ppc, m⟩).2.2.memory))
            fun s => if SegmentForbids ppc flag address then []
              else pageTableEvents env ppc (UReg_SR.vsid (ppc.sr (EffectiveAddress.sr address)))
                (EffectiveAddress.pageIndex address) (EffectiveAddress.api address) s := by
        have hhost (m : Bus δ) := translateByPageTable_host env hflag address res ppc m
        by_cases hforbids : SegmentForbids ppc flag address
        · simp only [if_pos hforbids] at hhost ⊢
          refine ⟨fun m => by rw [(hhost m).2], ?_⟩
          exact (Lib.Marking.Quiet.look fun _ => rfl).congr (fun m => Prod.ext (by rw [(hhost m).1]) (by rw [(hhost m).2]))
            fun _ => rfl
        · simp only [if_neg hforbids] at hhost ⊢
          refine ⟨fun m => by rw [(hhost m).2], ?_⟩
          exact ((quiet_searchPageTable env ppc _ _ _).map fun entry => AddressResult.ofPage (match entry with
            | some entry => ⟨.pageTableTranslated, (UPTE_Hi.rpn entry.2 <<< 12) ||| EffectiveAddress.offset address⟩
            | none => ⟨.pageFault, 0⟩)).congr (fun m => Prod.ext (by rw [(hhost m).1]) (by rw [(hhost m).2])) fun _ => rfl
      cases (lookupTLBPageAddress ppc flag address (UReg_SR.vsid (ppc.sr (EffectiveAddress.sr address)))).1 with
      | found paddr wi => exact ⟨fun _ => rfl, .look fun _ => rfl⟩
      | notFound => exact hwalk .notFound
      | updateC => exact hwalk .updateC

/-! ## The read -/

def pageEvents (ppc : PowerPCState) (flag : XCheckTLBFlag) (size : Nat) (address : U32) (s : Bus δ) : List HostEvent :=
  if (if flag.isOpcodeFlag then env.ir else env.dr) then
    let translated := (translateAddress env flag address ⟨ppc, s⟩).1
    translateEvents env ppc flag address s ++
      if translated.success then physicalEvents env size translated.address translated.wi else []
  else physicalEvents env size address false

/-- What a read by the host asks the data cache for, and the addresses behind which it finds nothing, in order. -/
def hostEvents (flag : XCheckTLBFlag) (size : Nat) (address : U32) (s : State (Bus δ)) : List HostEvent :=
  if crossesPage address size then
    (List.range size).flatMap fun i => pageEvents env s.ppc flag 1 (address + BitVec.ofNat 32 i) s.memory
  else pageEvents env s.ppc flag size address s.memory

theorem quiet_readPage (hflag : flag.isNoExceptionFlag = true) (ppc : PowerPCState) (size : Nat) (address : U32) :
    (∀ m, (readPage env flag size address ⟨ppc, m⟩).2.ppc = ppc) ∧
    (hostMarks env).Quiet
      (fun m => ((readPage env flag size address ⟨ppc, m⟩).1, (readPage env flag size address ⟨ppc, m⟩).2.memory))
      (pageEvents env ppc flag size address) := by
  have hread := ne_read_of_host hflag
  obtain ⟨hppc, htranslate⟩ := quiet_translateAddress env hflag ppc address
  unfold readPage pageEvents
  by_cases hon : (if flag.isOpcodeFlag then env.ir else env.dr) = true
  · simp only [if_pos hon, if_neg hread]
    constructor
    · intro m
      split <;> exact hppc m
    · refine (htranslate.bind fun t => .ite (t.success = true) (quiet_readPhysical env hflag size t.address t.wi)
        (.look fun _ => rfl : (hostMarks env).Quiet (fun m => ((0 : BitVec 64), m)) _)).congr ?_ fun _ => rfl
      intro m
      dsimp only
      by_cases hsuccess : (translateAddress env flag address ⟨ppc, m⟩).1.success = true
      · rw [if_pos hsuccess, if_pos hsuccess]
      · rw [if_neg hsuccess, if_neg hsuccess]
  · simp only [if_neg hon]
    exact ⟨fun _ => trivial, quiet_readPhysical env hflag size address false⟩

theorem state_eta {s : State (Bus δ)} {ppc : PowerPCState} (h : s.ppc = ppc) : s = ⟨ppc, s.memory⟩ := by
  subst h
  rfl

theorem foldl_memory {ι α β : Type} {body : ι → State (Bus δ) → α × State (Bus δ)} {ppc : PowerPCState}
    (hppc : ∀ i m, (body i ⟨ppc, m⟩).2.ppc = ppc) (add : β → α → β) (indices : List ι) (start : β) (m : Bus δ) :
    (indices.foldl (fun acc i => (add acc.1 (body i acc.2).1, (body i acc.2).2)) (start, ⟨ppc, m⟩)).2 =
      ⟨ppc, (indices.foldl (fun acc i => (add acc.1 (body i ⟨ppc, acc.2⟩).1, (body i ⟨ppc, acc.2⟩).2.memory)) (start, m)).2⟩ := by
  induction indices generalizing start m with
  | nil => rfl
  | cons i indices ih =>
      rw [List.foldl_cons, List.foldl_cons]
      dsimp only
      rw [state_eta (hppc i m)]
      exact ih _ _

theorem readFromHardware_host (hflag : flag.isNoExceptionFlag = true) (size : Nat) (address : U32) (s : State (Bus δ)) :
    (readFromHardware env flag size address s).2 =
      ⟨s.ppc, (hostMarks env).replay (hostEvents env flag size address s) s.memory⟩ := by
  obtain ⟨ppc, m⟩ := s
  have hpage (size : Nat) (address : U32) := quiet_readPage env hflag ppc size address
  rw [readFromHardware, hostEvents]
  by_cases hcross : crossesPage address size = true
  · have hbytes := Lib.Marking.Quiet.foldl (fun i : Nat => (hpage 1 (address + BitVec.ofNat 32 i)).2)
      (fun (value : BitVec 64) byte => value <<< 8 ||| byte) (List.range size) 0
    rw [if_pos hcross, if_pos hcross, ← hbytes.state]
    exact foldl_memory (fun (i : Nat) m => (hpage 1 (address + BitVec.ofNat 32 i)).1 m)
      (fun (value : BitVec 64) byte => value <<< 8 ||| byte) (List.range size) 0 m
  · have hstate := (hpage size address).2.state m
    dsimp only at hstate
    rw [if_neg hcross, if_neg hcross, ← hstate]
    exact state_eta ((hpage size address).1 m)

/-! ## What is disturbed -/

def Undisturbed (s s' : State (Bus δ)) : Prop :=
  s'.ppc = s.ppc ∧ s'.memory.dcache = s.memory.dcache ∧ s'.memory.l1Cache = s.memory.l1Cache ∧
    s'.memory.fakeVMem = s.memory.fakeVMem ∧ s'.memory.exceptions = s.memory.exceptions ∧
    s'.memory.dsisr = s.memory.dsisr ∧ s'.memory.dar = s.memory.dar

/-- `GetCache` marks the way that holds the line as the most recent one of its set. -/
def touchPlru (z : MemorySizes) (c : Cache) (plru : PPCCache.CacheSet → BitVec 8) (e : HostEvent) : PPCCache.CacheSet → BitVec 8 :=
  match e with
  | .lookup address =>
    match c.lookup (select z (lineAddr address)) with
    | some way =>
      Function.update plru (setOf (lineAddr address))
        ((plru (setOf (lineAddr address)) &&& ~~~PPCCache.plruMask way) ||| PPCCache.plruValue way)
    | none => plru
  | .alert => plru

/-- The lines that are asked for and are in the cache, marked in order, leave the recency bits as they are. -/
def KeepsRecency (events : List HostEvent) (c : Cache) : Prop := events.foldl (touchPlru env.sizes c) c.plru = c.plru

def KeepsExceptions (events : List HostEvent) (exceptions : U32) : Prop :=
  env.isPauseOnPanicMode = true → HostEvent.alert ∈ events →
    exceptions ||| (EXCEPTION_DSI ||| EXCEPTION_FAKE_MEMCHECK_HIT) = exceptions

def withPlru (c : Cache) (plru : PPCCache.CacheSet → BitVec 8) : Cache := { c with plru := plru }

theorem touchLine_eq (z : MemorySizes) (c : Cache) (address : Nat) :
    touchLine z c address = withPlru c (touchPlru z c c.plru (.lookup address)) := by
  rw [touchLine, touchPlru]
  cases c.lookup (select z (lineAddr address)) <;> rfl

theorem replay_dcache (events : List HostEvent) (s : Bus δ) :
    ((hostMarks env).replay events s).dcache =
      ⟨withPlru s.dcache.cache (events.foldl (touchPlru env.sizes s.dcache.cache) s.dcache.cache.plru), s.dcache.mem⟩ := by
  induction events generalizing s with
  | nil => rfl
  | cons e events ih =>
      have hstep := ih (e.mark env s)
      rw [List.foldl_cons]
      cases e with
      | lookup address =>
          refine hstep.trans ?_
          rw [HostEvent.mark]
          dsimp only
          rw [touchLine_eq]
          rfl
      | alert =>
          have hsame : (HostEvent.alert.mark env s).dcache = s.dcache := by
            rw [HostEvent.mark, pauseOnPanic]
            cases env.isPauseOnPanicMode <;> rfl
          refine hstep.trans ?_
          rw [hsame]
          rfl

theorem replay_exceptions (events : List HostEvent) (s : Bus δ) :
    ((hostMarks env).replay events s).exceptions =
      if env.isPauseOnPanicMode = true ∧ HostEvent.alert ∈ events then
        s.exceptions ||| (EXCEPTION_DSI ||| EXCEPTION_FAKE_MEMCHECK_HIT)
      else s.exceptions := by
  induction events generalizing s with
  | nil => simp [Lib.Marking.replay]
  | cons e events ih =>
      refine (ih (e.mark env s)).trans ?_
      cases e with
      | lookup address =>
          have hmem : HostEvent.alert ∈ HostEvent.lookup address :: events ↔ HostEvent.alert ∈ events := by simp
          exact if_congr (and_congr_right fun _ => hmem.symm) rfl rfl
      | alert =>
          rw [HostEvent.mark, pauseOnPanic]
          by_cases hpause : env.isPauseOnPanicMode = true
          · have hright : env.isPauseOnPanicMode = true ∧ HostEvent.alert ∈ HostEvent.alert :: events :=
              ⟨hpause, List.mem_cons_self⟩
            rw [if_pos hpause, if_pos hright]
            dsimp only
            split
            · rw [BitVec.or_assoc, BitVec.or_self]
            · rfl
          · rw [if_neg hpause, if_neg fun h => hpause h.1, if_neg fun h => hpause h.1]

/-- A read by the host disturbs nothing exactly when its lookups leave the recency bits, and its alerts the exceptions, as
they are. -/
theorem host_read_undisturbed_iff (hflag : flag.isNoExceptionFlag = true) (size : Nat) (address : U32) (s : State (Bus δ)) :
    Undisturbed s (readFromHardware env flag size address s).2 ↔
      KeepsRecency env (hostEvents env flag size address s) s.memory.dcache.cache ∧
        KeepsExceptions env (hostEvents env flag size address s) s.memory.exceptions := by
  have halike := (hostMarks env).replay_alike (hostEvents env flag size address s) s.memory
  rw [readFromHardware_host env hflag, Undisturbed]
  dsimp only
  rw [replay_dcache, replay_exceptions, KeepsRecency, KeepsExceptions]
  constructor
  · rintro ⟨-, hcache, -, -, hexceptions, -⟩
    refine ⟨congrArg (fun m => m.cache.plru) hcache, ?_⟩
    intro hpause halert
    rwa [if_pos ⟨hpause, halert⟩] at hexceptions
  · rintro ⟨hplru, hexceptions⟩
    refine ⟨rfl, ?_, halike.l1Cache, halike.fakeVMem, ?_, halike.dsisr, halike.dar⟩
    · rw [hplru]
      rfl
    · split
      · next h => exact hexceptions h.1 h.2
      · rfl

/-! ## Two lines of one set -/

def untranslatedEnvironment : Environment Unit := { plainEnvironment with dr := false }

/-- The guest has read the lines of `0x100` and of `0x1100`, in this order. -/
def twoLines : State (Bus Unit) :=
  (readFromHardware untranslatedEnvironment .read 4 0x1100
    (readFromHardware untranslatedEnvironment .read 4 0x100 (withPageTable [])).2).2

/-- A read of the older line by the host makes it the most recent one of its set. -/
theorem host_read_moves_recency :
    inRAM 0x100 = true ∧ ¬ Undisturbed twoLines (readFromHardware untranslatedEnvironment .noException 4 0x100 twoLines).2 := by
  refine ⟨by decide, fun h => ?_⟩
  have hplru : (readFromHardware untranslatedEnvironment .noException 4 0x100 twoLines).2.memory.dcache.cache.plru 8 =
      twoLines.memory.dcache.cache.plru 8 := congrArg (fun m : PPCCache.Machine => m.cache.plru 8) h.2.1
  revert hplru
  decide +kernel

theorem host_read_undisturbed_newer :
    Undisturbed twoLines (readFromHardware untranslatedEnvironment .noException 4 0x1100 twoLines).2 := by
  have hevents : hostEvents untranslatedEnvironment .noException 4 0x1100 twoLines = [.lookup 0x1100] := by decide +kernel
  refine (host_read_undisturbed_iff untranslatedEnvironment rfl 4 0x1100 twoLines).mpr ⟨?_, ?_⟩
  · rw [hevents, KeepsRecency]
    funext set
    revert set
    decide +kernel
  · intro hpause
    cases hpause

end Karphin.MMU
