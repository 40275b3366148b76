import Karphin.MMU.Bat.Theorems

/-!
# Accesses

`ReadFromHardware` and `WriteToHardware` with everything they reach: the translation, the data cache, RAM, EXRAM, the
locked L1 cache and the fake VMEM. The EFB, the MMIO handlers, the gather pipe, the processor interface and the break of
the CPU are parameters of the model. RAM and the locked L1 cache are mapped whenever the emulator runs.
-/

namespace Karphin.MMU

open Karphin.PPCCache (MemorySizes Buffer)

/-- What lies behind an address, and what an access leaves for the guest. -/
structure Bus (δ : Type) where
  /-- `dCache`, with RAM and EXRAM behind it. -/
  dcache : PPCCache.Machine
  l1Cache : Buffer
  fakeVMem : Buffer
  exceptions : U32
  dsisr : U32
  dar : U32
  /-- The rest of the machine. -/
  devices : δ

inductive EFBAccessType
  | peekZ
  | pokeZ
  | peekColor
  | pokeColor
deriving DecidableEq, Repr

/-- The settings and registers that no access changes, and the code behind the devices. -/
structure Environment (δ : Type) where
  sizes : MemorySizes
  /-- `GetFakeVMEM()` is not null. -/
  fakeVMem : Bool
  ibatTable : BatTable
  dbatTable : BatTable
  /-- MSR[IR] -/
  ir : Bool
  /-- MSR[DR] -/
  dr : Bool
  /-- HID0[DLOCK] -/
  dlock : Bool
  enableDcache : Bool
  isMMUMode : Bool
  isPauseOnPanicMode : Bool
  /-- What a local variable holds before it is read into. -/
  uninitialized : Buffer
  accessEFB : EFBAccessType → (x y data : U32) → δ → U32 × δ
  mmioRead : (size : Nat) → U32 → δ → BitVec 64 × δ
  mmioWrite : (size : Nat) → (address data : U32) → δ → δ
  gpFifoWrite : (size : Nat) → (data : U32) → δ → δ
  setInterruptPI : δ → δ
  cpuBreak : δ → δ

variable {δ : Type} (env : Environment δ)

/-! ## Values -/

/-- The number that `memcpy` leaves in a variable of `size` bytes. -/
def hostValue (size : Nat) (bytes : Buffer) : BitVec 64 :=
  (List.range size).foldl (fun v i => v ||| (bytes i).toBitVec.setWidth 64 <<< (8 * i)) 0

def bswap (size : Nat) (v : BitVec 64) : BitVec 64 :=
  (List.range size).foldl (fun out i => out <<< 8 ||| (v >>> (8 * i) &&& 0xff)) 0

def hostBytes (v : U32) : Buffer := fun i => UInt8.ofBitVec ((v >>> (8 * i)).setWidth 8)

def swap32 (v : U32) : U32 :=
  v <<< 24 ||| (v &&& 0xff00) <<< 8 ||| (v >>> 8 &&& 0xff00) ||| v >>> 24

def castTo (size : Nat) (v : BitVec 64) : BitVec 64 := v &&& (BitVec.allOnes 64 >>> (64 - 8 * size))

/-! ## Reads -/

def EXCEPTION_DSI : U32 := 0x8
def EXCEPTION_FAKE_MEMCHECK_HIT : U32 := 0x200

def pauseOnPanic (s : Bus δ) : Bus δ :=
  if env.isPauseOnPanicMode then
    { s with
      devices := env.cpuBreak s.devices
      exceptions := s.exceptions ||| (EXCEPTION_DSI ||| EXCEPTION_FAKE_MEMCHECK_HIT) }
  else s

def efbRead (addr : U32) (d : δ) : U32 × δ :=
  let x := (addr &&& 0xfff) >>> 2
  let y := addr >>> 12 &&& 0x3ff
  if addr &&& 0x00800000 ≠ 0 then (0, d)
  else if addr &&& 0x00400000 ≠ 0 then env.accessEFB .peekZ x y 0 d
  else env.accessEFB .peekColor x y 0 d

def inL1Cache (address : U32) : Bool := address >>> 28 = 0xE ∧ address.toNat < 0xE0000000 + L1_CACHE_SIZE

def inRAM (address : U32) : Bool := address &&& 0xF8000000 = 0

def inEXRAM (address : U32) : Bool :=
  env.sizes.exRam ∧ address >>> 28 = 0x1 ∧ (address &&& 0x0FFFFFFF).toNat < env.sizes.exRamSizeReal

def inFakeVMem (address : U32) : Bool := env.fakeVMem ∧ address &&& 0xFE000000 = 0x7E000000

def ramOffset (address : U32) : Nat := address.toNat &&& env.sizes.ramMask
def exRamOffset (address : U32) : Nat := (address &&& 0x0FFFFFFF).toNat + 0x10000000
def fakeVMemOffset (address : U32) : Nat := address.toNat &&& env.sizes.fakeVMemMask

def readMemory (flag : XCheckTLBFlag) (size offset : Nat) (wi : Bool) (s : Bus δ) : BitVec 64 × Bus δ :=
  if !env.enableDcache || wi then (bswap size (hostValue size fun i => s.dcache.mem (offset + i)), s)
  else
    let (dcache, value) := s.dcache.read env.sizes offset env.uninitialized size (env.dlock || flag ≠ .read)
    (bswap size (hostValue size value), { s with dcache := dcache })

def readPhysical (flag : XCheckTLBFlag) (size : Nat) (address : U32) (wi : Bool) (s : Bus δ) : BitVec 64 × Bus δ :=
  if flag = .read ∧ address &&& 0xF8000000 = 0x08000000 then
    if address.toNat < 0x0c000000 then
      let (value, d) := efbRead env address s.devices
      (castTo size (value.setWidth 64), { s with devices := d })
    else
      let (value, d) := env.mmioRead size address s.devices
      (castTo size value, { s with devices := d })
  else if inL1Cache address then
    (bswap size (hostValue size fun i => s.l1Cache ((address &&& 0x0FFFFFFF).toNat + i)), s)
  -- the masking intentionally discards bits, which creates mirrors of memory
  else if inRAM address then readMemory env flag size (ramOffset env address) wi s
  else if inEXRAM env address then readMemory env flag size (exRamOffset address) wi s
  else if inFakeVMem env address then
    (bswap size (hostValue size fun i => s.fakeVMem (fakeVMemOffset env address + i)), s)
  else (0, pauseOnPanic env s)

def pageOf (address : U32) : U32 := address &&& ~~~0xfff#32

def crossesPage (address : U32) (size : Nat) : Bool := pageOf address ≠ pageOf (address + BitVec.ofNat 32 size - 1)

def readBytes {σ : Type} (readByte : U32 → σ → BitVec 64 × σ) (address : U32) (size : Nat) (s : σ) : BitVec 64 × σ :=
  (List.range size).foldl
    (fun acc i =>
      let (value, s) := readByte (address + BitVec.ofNat 32 i) acc.2
      (acc.1 <<< 8 ||| value, s))
    (0, s)

/-- `ReadFromHardware` with `never_translate`. -/
def readUntranslated (flag : XCheckTLBFlag) (size : Nat) (address : U32) (s : Bus δ) : BitVec 64 × Bus δ :=
  if crossesPage address size then readBytes (fun a s => readPhysical env flag 1 a false s) address size s
  else readPhysical env flag size address false s

/-- The memory as the page table walk uses it; the access bits are written with `Memory::Write_U32`. -/
def hardware : Hardware (Bus δ) where
  readFromHardware noException address s :=
    let (value, s) := readUntranslated env (if noException then .noException else .read) 4 address s
    (value.setWidth 32, s)
  writeU32 value address s :=
    { s with
      dcache :=
        { s.dcache with mem := PPCCache.copyToEmu env.sizes s.dcache.mem address.toNat (hostBytes (swap32 value)) 4 } }

/-! ## Translation -/

inductive AddressResultEnum
  | batTranslated
  | pageTableTranslated
  | directStoreSegment
  | pageFault
deriving DecidableEq, Repr

structure AddressResult where
  result : AddressResultEnum
  address : U32
  wi : Bool
deriving DecidableEq, Repr

namespace AddressResult

def success (r : AddressResult) : Bool := r.result = .batTranslated || r.result = .pageTableTranslated

/-- What `TranslatePageAddress` returns: it is built without `wi`, whose default is false. -/
def ofPage (r : TranslateAddressResult) : AddressResult where
  result := match r.result with
    | .pageTableTranslated => .pageTableTranslated
    | .directStoreSegment => .directStoreSegment
    | .pageFault => .pageFault
  address := r.address
  wi := false

end AddressResult

/-- The local `wi` to which `TranslatePageAddress` writes is not used afterwards. -/
def translateAddress (flag : XCheckTLBFlag) (address : U32) (s : State (Bus δ)) : AddressResult × State (Bus δ) :=
  match translateBatAddress (if flag.isOpcodeFlag then env.ibatTable else env.dbatTable) address with
  | some (address, wi) => (⟨.batTranslated, address, wi⟩, s)
  | none =>
    let (result, _wi, s) := translatePageAddress (hardware env) flag address s
    (.ofPage result, s)

def SPR_DSISR_PAGE : U32 := 0x40000000
def SPR_DSISR_STORE : U32 := 0x02000000

def generateDSIException (effectiveAddress : U32) (write : Bool) (s : Bus δ) : Bus δ :=
  if !env.isMMUMode then pauseOnPanic env s
  else
    { s with
      dsisr := if write then SPR_DSISR_PAGE ||| SPR_DSISR_STORE else SPR_DSISR_PAGE
      dar := effectiveAddress
      exceptions := s.exceptions ||| EXCEPTION_DSI }

def readPage (flag : XCheckTLBFlag) (size : Nat) (address : U32) (s : State (Bus δ)) : BitVec 64 × State (Bus δ) :=
  if (if flag.isOpcodeFlag then env.ir else env.dr) then
    let (translated, s) := translateAddress env flag address s
    if translated.success then
      let (value, m) := readPhysical env flag size translated.address translated.wi s.memory
      (value, { s with memory := m })
    else (0, if flag = .read then { s with memory := generateDSIException env address false s.memory } else s)
  else
    let (value, m) := readPhysical env flag size address false s.memory
    (value, { s with memory := m })

def readFromHardware (flag : XCheckTLBFlag) (size : Nat) (address : U32) (s : State (Bus δ)) : BitVec 64 × State (Bus δ) :=
  if crossesPage address size then readBytes (readPage env flag 1) address size s
  else readPage env flag size address s

/-! ## Writes -/

def efbWrite (data addr : U32) (d : δ) : δ :=
  let x := (addr &&& 0xfff) >>> 2
  let y := addr >>> 12 &&& 0x3ff
  if addr &&& 0x00800000 ≠ 0 then d
  else if addr &&& 0x00400000 ≠ 0 then (env.accessEFB .pokeZ x y data d).2
  else (env.accessEFB .pokeColor x y data d).2

def GATHER_PIPE_PHYSICAL_ADDRESS : U32 := 0x0C008000

/-- The sizes that are not those of a type are written byte by byte, the highest byte first. -/
def writeDeviceBytes (write : Nat → U32 → δ → δ) (data : U32) (size : Nat) (d : δ) : δ :=
  (List.range size).foldl (fun d i => write i (data >>> (8 * (size - 1 - i)) &&& 0xff) d) d

def gatherPipeWrite (data : U32) (size : Nat) (d : δ) : δ :=
  match size with
  | 1 => env.gpFifoWrite 1 (data &&& 0xff) d
  | 2 => env.gpFifoWrite 2 (data &&& 0xffff) d
  | 4 => env.gpFifoWrite 4 data d
  | size => writeDeviceBytes (fun _ byte d => env.gpFifoWrite 1 byte d) data size d

def mmioMappingWrite (address data : U32) (size : Nat) (d : δ) : δ :=
  match size with
  | 1 => env.mmioWrite 1 address (data &&& 0xff) d
  | 2 => env.mmioWrite 2 address (data &&& 0xffff) d
  | 4 => env.mmioWrite 4 address data d
  | size => writeDeviceBytes (fun i byte d => env.mmioWrite 1 (address + BitVec.ofNat 32 i) byte d) data size d

def memcpyTo (buffer : Buffer) (offset : Nat) (bytes : Buffer) (size : Nat) : Buffer :=
  fun p => if offset ≤ p ∧ p < offset + size then bytes (p - offset) else buffer p

def writeMemory (flag : XCheckTLBFlag) (swapped : U32) (size offset : Nat) (wi : Bool) (s : Bus δ) : Bus δ :=
  let s := if env.enableDcache && !wi then
      { s with dcache := s.dcache.write env.sizes offset (hostBytes swapped) size env.dlock }
    else s
  if !env.enableDcache || wi || flag ≠ .write then
    { s with dcache := { s.dcache with mem := memcpyTo s.dcache.mem offset (hostBytes swapped) size } }
  else s

/-- `WriteToHardware` after the translation; `duplicate` is what happens to a write-through or cache-inhibited
access that is not one of an aligned word. -/
def writeTranslated (flag : XCheckTLBFlag) (address data : U32) (size : Nat) (wi : Bool) (duplicate : Bus δ → Bus δ)
    (s : Bus δ) : Bus δ :=
  if flag = .write ∧ address &&& 0xFFFFF000 = GATHER_PIPE_PHYSICAL_ADDRESS then
    { s with devices := gatherPipeWrite env data size s.devices }
  else if flag = .write ∧ address &&& 0xF8000000 = 0x08000000 then
    if address.toNat < 0x0c000000 then { s with devices := efbWrite env data address s.devices }
    else { s with devices := mmioMappingWrite env address data size s.devices }
  else
    let swapped := swap32 (data.rotateRight (size * 8))
    if inL1Cache address then
      { s with l1Cache := memcpyTo s.l1Cache (address &&& 0x0FFFFFFF).toNat (hostBytes swapped) size }
    else if wi ∧ (size < 4 ∨ address &&& 0x3 ≠ 0) then duplicate s
    else if inRAM address then writeMemory env flag swapped size (ramOffset env address) wi s
    else if inEXRAM env address then writeMemory env flag swapped size (exRamOffset address) wi s
    else if inFakeVMem env address then
      { s with fakeVMem := memcpyTo s.fakeVMem (fakeVMemOffset env address) (hostBytes swapped) size }
    else pauseOnPanic env s

/-- `WriteToHardware` with `never_translate`, for an aligned word. -/
def writeWord (flag : XCheckTLBFlag) (address data : U32) (s : Bus δ) : Bus δ :=
  writeTranslated env flag address data 4 false id s

def duplicateWrite (flag : XCheckTLBFlag) (address data : U32) (size : Nat) (s : Bus δ) : Bus δ :=
  let s := { s with devices := env.setInterruptPI s.devices }
  let rotated := data.rotateRight (((address &&& 0x3).toNat + size) * 8)
  let startAddr := address &&& ~~~0x7#32
  let endAddr := (address + BitVec.ofNat 32 size + 7) &&& ~~~0x7#32
  (List.range ((endAddr - startAddr).toNat / 8)).foldl
    (fun s i =>
      let addr := startAddr + BitVec.ofNat 32 (8 * i)
      writeWord env flag (addr + 4) rotated (writeWord env flag addr rotated s))
    s

def writePhysical (flag : XCheckTLBFlag) (address data : U32) (size : Nat) (wi : Bool) (s : Bus δ) : Bus δ :=
  writeTranslated env flag address data size wi (duplicateWrite env flag address data size) s

def writePage (flag : XCheckTLBFlag) (address data : U32) (size : Nat) (s : State (Bus δ)) : State (Bus δ) :=
  if env.dr then
    let (translated, s) := translateAddress env flag address s
    if translated.success then
      { s with memory := writePhysical env flag translated.address data size translated.wi s.memory }
    else if flag = .write then { s with memory := generateDSIException env address true s.memory }
    else s
  else { s with memory := writePhysical env flag address data size false s.memory }

def writeToHardware (flag : XCheckTLBFlag) (address data : U32) (size : Nat) (s : State (Bus δ)) : State (Bus δ) :=
  if crossesPage address size then
    let endPage := pageOf (address + BitVec.ofNat 32 size - 1)
    let firstHalfSize := (endPage - address).toNat
    let secondHalfSize := size - firstHalfSize
    let s := writePage env flag address (data.rotateRight (secondHalfSize * 8)) firstHalfSize s
    writePage env flag endPage data secondHalfSize s
  else writePage env flag address data size s

end Karphin.MMU

/-!
# The bytes of a value

A write rotates its data, swaps the bytes and copies them; a read copies bytes and swaps them, or shifts in one byte after
the other. Bit by bit, all of it is the order of a big-endian machine.
-/

namespace Karphin.MMU

open Karphin.PPCCache (Buffer)

/-- The byte `i` of `size` in the order of memory, the highest first. -/
def dataByte (data : U32) (size i : Nat) : UInt8 := UInt8.ofBitVec ((data >>> (8 * (size - 1 - i))).setWidth 8)

def bigEndian (size : Nat) (bytes : Buffer) : BitVec 64 :=
  (List.range size).foldl (fun v i => v <<< 8 ||| (bytes i).toBitVec.setWidth 64) 0

theorem bigEndian_succ (size : Nat) (bytes : Buffer) :
    bigEndian (size + 1) bytes = bigEndian size bytes <<< 8 ||| (bytes size).toBitVec.setWidth 64 := by
  rw [bigEndian, List.range_succ, List.foldl_append, ← bigEndian]
  rfl

theorem byte_ext {a b : UInt8} (h : ∀ j < 8, a.toBitVec.getLsbD j = b.toBitVec.getLsbD j) : a = b := by
  apply UInt8.toBitVec_inj.mp
  exact BitVec.eq_of_getLsbD_eq h

/-! ## Stores -/

theorem getLsbD_dataByte (data : U32) (size i : Nat) {j : Nat} (hj : j < 8) :
    (dataByte data size i).toBitVec.getLsbD j = data.getLsbD (8 * (size - 1 - i) + j) := by
  simp [dataByte, hj]

theorem getLsbD_rotateRight (v : U32) (r : Nat) {k : Nat} (hk : k < 32) :
    (v.rotateRight r).getLsbD k = v.getLsbD ((k + r) % 32) := by
  have hr : r % 32 < 32 := Nat.mod_lt _ (by decide)
  rw [BitVec.getLsbD_rotateRight]
  by_cases hlt : k < 32 - r % 32
  · rw [decide_eq_true hlt, cond_true]
    congr 1
    omega
  · rw [decide_eq_false hlt, cond_false, decide_eq_true hk, Bool.true_and]
    congr 1
    omega

theorem getLsbD_hostBytes (v : U32) (i : Nat) {j : Nat} (hj : j < 8) :
    (hostBytes v i).toBitVec.getLsbD j = v.getLsbD (8 * i + j) := by
  simp [hostBytes, hj]

theorem getLsbD_ff00 (k : Nat) : (0xff00 : U32).getLsbD k = decide (8 ≤ k ∧ k < 16) := by
  by_cases hk : k < 32
  · revert k
    decide
  · rw [BitVec.getLsbD_of_ge _ _ (by omega), decide_eq_false (by omega)]

theorem getLsbD_swap32 (v : U32) {i j : Nat} (hi : i < 4) (hj : j < 8) :
    (swap32 v).getLsbD (8 * i + j) = v.getLsbD (8 * (3 - i) + j) := by
  have hout : ∀ k, 32 ≤ k → v.getLsbD k = false := fun k hk => BitVec.getLsbD_of_ge v k hk
  have hcast : ((0xff00 : Nat) : U32) = 0xff00 := rfl
  simp only [swap32, hcast, BitVec.getLsbD_or, BitVec.getLsbD_shiftLeft, BitVec.getLsbD_and,
    BitVec.getLsbD_ushiftRight, getLsbD_ff00]
  obtain rfl | rfl | rfl | rfl : i = 0 ∨ i = 1 ∨ i = 2 ∨ i = 3 := by omega
  · grind
  · grind
  · grind
  · grind

theorem hostBytes_stored (data : U32) {size i : Nat} (hsize : size ≤ 4) (hi : i < size) :
    hostBytes (swap32 (data.rotateRight (size * 8))) i = dataByte data size i := by
  apply byte_ext
  intro j hj
  rw [getLsbD_hostBytes _ _ hj, getLsbD_swap32 _ (by omega) hj, getLsbD_rotateRight _ _ (by omega),
    getLsbD_dataByte _ _ _ hj]
  congr 1
  omega

theorem dataByte_high (data : U32) {size n i : Nat} (hsize : size ≤ 4) (hn : n ≤ size) (hi : i < n) :
    dataByte (data.rotateRight ((size - n) * 8)) n i = dataByte data size i := by
  apply byte_ext
  intro j hj
  rw [getLsbD_dataByte _ _ _ hj, getLsbD_dataByte _ _ _ hj, getLsbD_rotateRight _ _ (by omega)]
  congr 1
  omega

theorem dataByte_low (data : U32) {size n : Nat} (hn : n ≤ size) (i : Nat) :
    dataByte data n i = dataByte data size (size - n + i) := by
  have hindex : size - 1 - (size - n + i) = n - 1 - i := by omega
  rw [dataByte, dataByte, hindex]

theorem hostBytes_swap32_or (v w : U32) {i : Nat} (hi : i < 4) :
    hostBytes (swap32 (v ||| w)) i = hostBytes (swap32 v) i ||| hostBytes (swap32 w) i := by
  apply byte_ext
  intro j hj
  rw [UInt8.toBitVec_or, BitVec.getLsbD_or, getLsbD_hostBytes _ _ hj, getLsbD_hostBytes _ _ hj,
    getLsbD_hostBytes _ _ hj, getLsbD_swap32 _ hi hj, getLsbD_swap32 _ hi hj, getLsbD_swap32 _ hi hj, BitVec.getLsbD_or]

/-! ## Loads -/

theorem getLsbD_bigEndian (bytes : Buffer) {size : Nat} (hsize : size ≤ 8) (k : Nat) :
    (bigEndian size bytes).getLsbD k =
      (decide (k < 8 * size) && (bytes (size - 1 - k / 8)).toBitVec.getLsbD (k % 8)) := by
  induction size generalizing k with
  | zero => simp [bigEndian]
  | succ size ih =>
      rw [bigEndian_succ, BitVec.getLsbD_or, BitVec.getLsbD_shiftLeft, BitVec.getLsbD_setWidth]
      by_cases hk : k < 8
      · have hdiv : k / 8 = 0 := by omega
        have hmod : k % 8 = k := by omega
        simp [hk, hdiv, hmod, show k < 64 by omega, show k < 8 * (size + 1) by omega]
      · have hdiv : (k - 8) / 8 = k / 8 - 1 := by omega
        have hmod : (k - 8) % 8 = k % 8 := by omega
        have hindex : size - 1 - (k / 8 - 1) = size + 1 - 1 - k / 8 := by omega
        have hhigh : (bytes size).toBitVec.getLsbD k = false := BitVec.getLsbD_of_ge _ _ (by omega)
        rw [ih (by omega), hdiv, hmod, hindex, hhigh, Bool.and_false, Bool.or_false, decide_eq_false hk]
        have hlt : decide (k - 8 < 8 * size) = decide (k < 8 * (size + 1)) := decide_eq_decide.mpr (by omega)
        rw [hlt]
        by_cases h64 : k < 64
        · simp [h64]
        · simp [h64, show ¬ k < 8 * (size + 1) by omega]

theorem hostValue_succ (size : Nat) (bytes : Buffer) :
    hostValue (size + 1) bytes = hostValue size bytes ||| (bytes size).toBitVec.setWidth 64 <<< (8 * size) := by
  rw [hostValue, List.range_succ, List.foldl_append, ← hostValue]
  rfl

theorem getLsbD_hostValue (bytes : Buffer) {size : Nat} (hsize : size ≤ 8) (k : Nat) :
    (hostValue size bytes).getLsbD k = (decide (k < 8 * size) && (bytes (k / 8)).toBitVec.getLsbD (k % 8)) := by
  induction size with
  | zero => simp [hostValue]
  | succ size ih =>
      rw [hostValue_succ, BitVec.getLsbD_or, ih (by omega), BitVec.getLsbD_shiftLeft, BitVec.getLsbD_setWidth]
      by_cases hlow : k < 8 * size
      · simp [hlow, show k < 8 * (size + 1) by omega]
      · by_cases hk : k < 8 * (size + 1)
        · have hdiv : k / 8 = size := by omega
          have hmod : k % 8 = k - 8 * size := by omega
          simp [hlow, hk, hdiv, hmod, show k < 64 by omega, show k - 8 * size < 64 by omega]
        · simp [hlow, hk, BitVec.getLsbD_of_ge _ _ (show 8 ≤ k - 8 * size by omega)]

theorem bswap_hostValue (bytes : Buffer) {size : Nat} (hsize : size ≤ 8) :
    bswap size (hostValue size bytes) = bigEndian size bytes := by
  rw [bswap, bigEndian]
  apply List.foldl_ext
  intro v i hi
  congr 1
  have hi' := List.mem_range.mp hi
  apply BitVec.eq_of_getLsbD_eq
  intro k hk
  rw [BitVec.getLsbD_and, BitVec.getLsbD_ushiftRight, getLsbD_hostValue bytes hsize, BitVec.getLsbD_setWidth]
  by_cases hlow : k < 8
  · have hdiv : (8 * i + k) / 8 = i := by omega
    have hmod : (8 * i + k) % 8 = k := by omega
    have hmask : (0xff : BitVec 64).getLsbD k = true := by
      clear hk hdiv hmod
      revert k
      decide
    rw [hdiv, hmod, hmask, decide_eq_true (show 8 * i + k < 8 * size by omega), decide_eq_true hk]
    simp
  · have hmask : (0xff : BitVec 64).getLsbD k = false := by
      clear hi hi'
      revert k
      decide
    rw [hmask, Bool.and_false, BitVec.getLsbD_of_ge _ _ (show 8 ≤ k by omega), Bool.and_false]

theorem bigEndian_dataByte (data : U32) {size : Nat} (hsize : size ≤ 4) :
    bigEndian size (dataByte data size) = castTo size (data.setWidth 64) := by
  apply BitVec.eq_of_getLsbD_eq
  intro k hk
  rw [getLsbD_bigEndian _ (by omega), castTo, BitVec.getLsbD_and, BitVec.getLsbD_ushiftRight, BitVec.getLsbD_setWidth,
    BitVec.getLsbD_allOnes, getLsbD_dataByte _ _ _ (Nat.mod_lt _ (by decide)), decide_eq_true hk, Bool.true_and]
  by_cases hlow : k < 8 * size
  · have hindex : 8 * (size - 1 - (size - 1 - k / 8)) + k % 8 = k := by omega
    rw [hindex, decide_eq_true hlow, decide_eq_true (show 64 - 8 * size + k < 64 by omega), Bool.and_true, Bool.true_and]
  · rw [decide_eq_false hlow, decide_eq_false (show ¬ 64 - 8 * size + k < 64 by omega), Bool.and_false, Bool.false_and]

theorem hostBytes_swap32_bigEndian (bytes : Buffer) {i : Nat} (hi : i < 4) :
    hostBytes (swap32 ((bigEndian 4 bytes).setWidth 32)) i = bytes i := by
  apply byte_ext
  intro j hj
  rw [getLsbD_hostBytes _ _ hj, getLsbD_swap32 _ hi hj, BitVec.getLsbD_setWidth, getLsbD_bigEndian _ (by decide)]
  have hdiv : 4 - 1 - (8 * (3 - i) + j) / 8 = i := by omega
  have hmod : (8 * (3 - i) + j) % 8 = j := by omega
  rw [hdiv, hmod, decide_eq_true (show 8 * (3 - i) + j < 32 by omega), Bool.true_and, Bool.true_and]

end Karphin.MMU
