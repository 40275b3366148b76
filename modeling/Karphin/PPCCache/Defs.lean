import Karphin.Common.MathUtil
import Karphin.Lib.Transition

/-!
# The physical memory seen by the caches

`Memory::MemoryManager` as far as the caches use it: the region sizes, and the checked copies
`CopyFromEmu` and `CopyToEmu`. RAM and EXRAM are two host arrays in the source; here they are one flat
array indexed by physical address, RAM from 0 and EXRAM from `0x10000000`. A copy never crosses from one to
the other, because the span of an address ends with its region.
-/

namespace Karphin.PPCCache

open Karphin.Common

/-- The sizes `MemoryManager::Init` reads from the settings. The bounds hold for the retail sizes and for
every size the RAM override sliders produce (24 to 64 and 64 to 128 MiB). -/
structure MemorySizes where
  ramSizeReal : Nat
  exRamSizeReal : Nat
  /-- `m_exram` is mapped: the emulated console is a Wii. -/
  exRam : Bool
  ram_ge : 0x1000 ≤ ramSizeReal
  ram_le : ramSizeReal ≤ 0x10000000
  ram_dvd : ramSizeReal % 32 = 0
  exRam_ge : 0x1000 ≤ exRamSizeReal
  exRam_le : exRamSizeReal ≤ 0x10000000
  exRam_dvd : exRamSizeReal % 32 = 0

namespace MemorySizes

variable (z : MemorySizes)

def ramSize : Nat := nextPowerOf2 z.ramSizeReal
def ramMask : Nat := z.ramSize - 1
def exRamSize : Nat := nextPowerOf2 z.exRamSizeReal
def exRamMask : Nat := z.exRamSize - 1
def fakeVMemSize (_ : MemorySizes) : Nat := 0x02000000
def fakeVMemMask : Nat := z.fakeVMemSize - 1

end MemorySizes

def gameCube : MemorySizes where
  ramSizeReal := 0x01800000
  exRamSizeReal := 0x04000000
  exRam := false
  ram_ge := by decide
  ram_le := by decide
  ram_dvd := by decide
  exRam_ge := by decide
  exRam_le := by decide
  exRam_dvd := by decide

abbrev Memory := Nat → UInt8

abbrev Buffer := Nat → UInt8

/-- `GetSpanForAddress`: where the bytes from `address` on lie and how many there are; `none` is the empty
span of an unknown pointer. -/
def getSpanForAddress (z : MemorySizes) (address : Nat) : Option (Nat × Nat) :=
  let address := address &&& 0x3FFFFFFF
  if address < z.ramSizeReal then some (address, z.ramSizeReal - address)
  else if z.exRam ∧ address >>> 28 = 0x1 ∧ address &&& 0x0fffffff < z.exRamSizeReal then
    some (0x10000000 + (address &&& z.exRamMask), z.exRamSizeReal - (address &&& z.exRamMask))
  else none

def getPointerForRange (z : MemorySizes) (address size : Nat) : Option Nat :=
  match getSpanForAddress z address with
  | none => none
  | some (data, spanSize) => if spanSize < size then none else some data

/-- `CopyFromEmu`: the buffer is left alone, after a panic alert, when the range is invalid. -/
def copyFromEmu (z : MemorySizes) (mem : Memory) (data : Buffer) (address size : Nat) : Buffer :=
  if size = 0 then data
  else match getPointerForRange z address size with
    | none => data
    | some pointer => fun i => if i < size then mem (pointer + i) else data i

/-- `CopyToEmu`: memory is left alone, after a panic alert, when the range is invalid. -/
def copyToEmu (z : MemorySizes) (mem : Memory) (address : Nat) (data : Buffer) (size : Nat) : Memory :=
  if size = 0 then mem
  else match getPointerForRange z address size with
    | none => mem
    | some pointer => fun p => if pointer ≤ p ∧ p < pointer + size then data (p - pointer) else mem p

def InMemory (z : MemorySizes) (p : Nat) : Prop :=
  p < z.ramSizeReal ∨ z.exRam = true ∧ 0x10000000 ≤ p ∧ p < 0x10000000 + z.exRamSizeReal

/-- The byte of memory that a 32-bit address names, if any: the two top bits are ignored. -/
def physical (z : MemorySizes) (address : Nat) : Option Nat := (getSpanForAddress z address).map Prod.fst

def Backed (z : MemorySizes) (address : Nat) : Prop := (physical z address).isSome = true

instance (z : MemorySizes) (address : Nat) : Decidable (Backed z address) :=
  inferInstanceAs (Decidable (_ = true))

end Karphin.PPCCache

/-!
## The L1 cache model

`PowerPC::Cache` and `InstructionCache::Invalidate`. An operation takes the cache together with main memory
and returns both. The entry `0xff` of a lookup table is `none`.
-/

namespace Karphin.PPCCache

abbrev CacheSet := Fin 128
abbrev Way := Fin 8

/-- The three lookup tables: `lookup_table`, `lookup_table_ex` and `lookup_table_vmem`. -/
inductive Table
  | ram
  | ex
  | vmem
deriving DecidableEq, Repr

structure Cache where
  data : CacheSet → Way → Buffer
  addrs : CacheSet → Way → Nat
  plru : CacheSet → BitVec 8
  valid : CacheSet → BitVec 8
  modified : CacheSet → BitVec 8
  lookup : Table × Nat → Option Way

structure Machine where
  cache : Cache
  mem : Memory

def CACHE_EXRAM_BIT : Nat := 0x10000000
def CACHE_VMEM_BIT : Nat := 0x20000000

def lineAddr (addr : Nat) : Nat := addr / 32 * 32

def setOf (addr : Nat) : CacheSet := ⟨addr / 32 % 128, Nat.mod_lt _ (by decide)⟩

def select (z : MemorySizes) (addr : Nat) : Table × Nat :=
  if addr &&& CACHE_VMEM_BIT ≠ 0 then (.vmem, (addr &&& z.fakeVMemMask) >>> 5)
  else if addr &&& CACHE_EXRAM_BIT ≠ 0 then (.ex, (addr &&& z.exRamMask) >>> 5)
  else (.ram, (addr &&& z.ramMask) >>> 5)

def lineSet (index : Nat) : CacheSet := ⟨index % 128, Nat.mod_lt _ (by decide)⟩

/-! ## Way masks -/

def testWay (mask : BitVec 8) (way : Way) : Bool := mask.getLsbD way

def setWay (mask : BitVec 8) (way : Way) : BitVec 8 := mask ||| BitVec.twoPow 8 way

def clearWay (mask : BitVec 8) (way : Way) : BitVec 8 := mask &&& ~~~BitVec.twoPow 8 way

def plruMask : Way → BitVec 8
  | 0 | 1 => 11#8
  | 2 | 3 => 19#8
  | 4 | 5 => 37#8
  | 6 | 7 => 69#8

def plruValue : Way → BitVec 8
  | 0 => 11#8
  | 1 => 3#8
  | 2 => 17#8
  | 3 => 1#8
  | 4 => 36#8
  | 5 => 4#8
  | 6 => 64#8
  | 7 => 0#8

/-- `s_way_from_valid`: the first way whose bit is clear; not used for the mask `0xff`. -/
def wayFromValid (m : BitVec 8) : Way := ((List.finRange 8).find? fun w => !testWay m w).getD 0

def wayFromPlru (m : BitVec 8) : Way :=
  if m.getLsbD 0 then
    if m.getLsbD 2 then
      if m.getLsbD 6 then 7 else 6
    else if m.getLsbD 5 then 5
    else 4
  else if m.getLsbD 1 then
    if m.getLsbD 4 then 3 else 2
  else if m.getLsbD 3 then 1
  else 0

/-! ## Single updates -/

namespace Cache

def isValid (c : Cache) (set : CacheSet) (way : Way) : Bool := testWay (c.valid set) way
def isModified (c : Cache) (set : CacheSet) (way : Way) : Bool := testWay (c.modified set) way

def setLookup (c : Cache) (entry : Table × Nat) (way : Option Way) : Cache :=
  { c with lookup := Function.update c.lookup entry way }

def setData (c : Cache) (set : CacheSet) (way : Way) (block : Buffer) : Cache :=
  { c with data := Function.update c.data set (Function.update (c.data set) way block) }

def setAddr (c : Cache) (set : CacheSet) (way : Way) (addr : Nat) : Cache :=
  { c with addrs := Function.update c.addrs set (Function.update (c.addrs set) way addr) }

def markValid (c : Cache) (set : CacheSet) (way : Way) : Cache :=
  { c with valid := Function.update c.valid set (setWay (c.valid set) way) }

def markInvalid (c : Cache) (set : CacheSet) (way : Way) : Cache :=
  { c with valid := Function.update c.valid set (clearWay (c.valid set) way) }

def markModified (c : Cache) (set : CacheSet) (way : Way) : Cache :=
  { c with modified := Function.update c.modified set (setWay (c.modified set) way) }

def markClean (c : Cache) (set : CacheSet) (way : Way) : Cache :=
  { c with modified := Function.update c.modified set (clearWay (c.modified set) way) }

def updatePlru (c : Cache) (set : CacheSet) (way : Way) : Cache :=
  { c with
    plru := Function.update c.plru set ((c.plru set &&& ~~~plruMask way) ||| plruValue way) }

def reset (c : Cache) : Cache :=
  { c with
    valid := fun _ => 0#8
    plru := fun _ => 0#8
    modified := fun _ => 0#8
    lookup := fun _ => none }

/-- `Cache::Init`. Resizing the tables only matters for the entries that `Reset` then overwrites. -/
def init : Cache :=
  reset
    { data := fun _ _ _ => 0
      addrs := fun _ _ => 0
      plru := fun _ => 0#8
      valid := fun _ => 0#8
      modified := fun _ => 0#8
      lookup := fun _ => none }

end Cache

/-! ## Operations -/

variable (z : MemorySizes)

namespace Machine

def init (mem : Memory) : Machine := ⟨Cache.init, mem⟩

def victim (c : Cache) (set : CacheSet) : Way :=
  if c.valid set ≠ 0xff#8 then wayFromValid (c.valid set) else wayFromPlru (c.plru set)

def evict (s : Machine) (set : CacheSet) (way : Way) : Machine :=
  if s.cache.isValid set way then
    -- store the cache back to main memory
    let mem := if s.cache.isModified set way then
        copyToEmu z s.mem (s.cache.addrs set way) (s.cache.data set way) 32
      else s.mem
    ⟨s.cache.setLookup (select z (s.cache.addrs set way)) none, mem⟩
  else s

/-- `GetCache`, the part that fills the chosen way with the line at `addr`. -/
def load (s : Machine) (addr : Nat) (set : CacheSet) (way : Way) : Machine :=
  let block := copyFromEmu z s.mem (s.cache.data set way) (lineAddr addr) 32
  let c := s.cache.setData set way block
  let c := c.setLookup (select z addr) (some way)
  let c := c.setAddr set way addr
  ⟨(c.markValid set way).markClean set way, s.mem⟩

def getCache (s : Machine) (addr : Nat) (locked : Bool) : Machine × CacheSet × Option Way :=
  let addr := lineAddr addr
  let set := setOf addr
  let way := s.cache.lookup (select z addr)
  let (s, way) :=
    -- load to the cache
    if !locked && way.isNone then
      let way := victim s.cache set
      (load z (evict z s set way) addr set way, some way)
    else (s, way)
  match way with
  | some w => (⟨s.cache.updatePlru set w, s.mem⟩, set, some w)
  | none => (s, set, none)

/-- `Cache::Touch`; the argument `store` is not used. -/
def touch (s : Machine) (addr : Nat) (_store : Bool) : Machine := (getCache z s addr false).1

def store (s : Machine) (addr : Nat) : Machine :=
  match getCache z s addr true with
  | (s, _, none) => s
  | (s, set, some way) =>
      let mem := if s.cache.isValid set way && s.cache.isModified set way then
          copyToEmu z s.mem (lineAddr addr) (s.cache.data set way) 32
        else s.mem
      ⟨s.cache.markClean set way, mem⟩

/-- The lines shared by `Invalidate` and `Flush`: forget a way. -/
def dropWay (c : Cache) (set : CacheSet) (way : Way) : Cache :=
  ((c.setLookup (select z (c.addrs set way)) none).markInvalid set way).markClean set way

def invalidate (s : Machine) (addr : Nat) : Machine :=
  match getCache z s addr true with
  | (s, _, none) => s
  | (s, set, some way) =>
      if s.cache.isValid set way then ⟨dropWay z s.cache set way, s.mem⟩ else s

def flush (s : Machine) (addr : Nat) : Machine :=
  match getCache z s addr true with
  | (s, _, none) => s
  | (s, set, some way) =>
      if s.cache.isValid set way then
        let mem := if s.cache.isModified set way then
            copyToEmu z s.mem (lineAddr addr) (s.cache.data set way) 32
          else s.mem
        ⟨dropWay z s.cache set way, mem⟩
      else s

def writeBack (c : Cache) (mem : Memory) (set : CacheSet) (way : Way) : Memory :=
  if c.isValid set way && c.isModified set way then
    copyToEmu z mem (c.addrs set way) (c.data set way) 32
  else mem

@[irreducible] def allWays : List (CacheSet × Way) :=
  (List.finRange 128).flatMap fun set => (List.finRange 8).map fun way => (set, way)

def flushAll (s : Machine) : Machine :=
  ⟨s.cache.reset, allWays.foldl (fun mem p => writeBack z s.cache mem p.1 p.2) s.mem⟩

/-- `std::min<u32>(len, ((addr + 32) & ~31) - addr)`. -/
def lenInBlock (addr len : Nat) : Nat := min len (lineAddr (addr + 32) - addr)

theorem lenInBlock_pos (addr : Nat) {len : Nat} (h : len ≠ 0) : 0 < lenInBlock addr len := by
  unfold lenInBlock lineAddr; omega

/-- `Cache::Read`; `value` is the not yet written rest of the buffer and starts at offset `pos`. -/
def readLoop (s : Machine) (addr : Nat) (buffer : Buffer) (pos len : Nat) (locked : Bool) :
    Machine × Buffer :=
  if h : len = 0 then (s, buffer)
  else
    let n := lenInBlock addr len
    let r := getCache z s addr locked
    let src : Buffer := match r with
      | (s, set, some way) => fun i => s.cache.data set way (addr - lineAddr addr + i)
      | (s, _, none) => copyFromEmu z s.mem (fun i => buffer (pos + i)) addr n
    let buffer : Buffer := fun i => if pos ≤ i ∧ i < pos + n then src (i - pos) else buffer i
    readLoop r.1 ((addr + n) % 2 ^ 32) buffer (pos + n) (len - n) locked
termination_by len
decreasing_by have := lenInBlock_pos addr h; omega

def read (s : Machine) (addr : Nat) (buffer : Buffer) (len : Nat) (locked : Bool) : Machine × Buffer :=
  readLoop z s addr buffer 0 len locked

/-- The part of `data[set][way]` that a block of `Write` replaces. -/
def patch (block : Buffer) (offset : Nat) (value : Buffer) (n : Nat) : Buffer :=
  fun i => if offset ≤ i ∧ i < offset + n then value (i - offset) else block i

def write (s : Machine) (addr : Nat) (value : Buffer) (len : Nat) (locked : Bool) : Machine :=
  if h : len = 0 then s
  else
    let n := lenInBlock addr len
    let s := match getCache z s addr locked with
      | (s, set, some way) =>
          let block := patch (s.cache.data set way) (addr - lineAddr addr) value n
          ⟨(s.cache.setData set way block).markModified set way, s.mem⟩
      | (s, _, none) => ⟨s.cache, copyToEmu z s.mem addr value n⟩
    write s ((addr + n) % 2 ^ 32) (fun i => value (n + i)) (len - n) locked
termination_by len
decreasing_by have := lenInBlock_pos addr h; omega

/-! ## Save states and the instruction cache -/

/-- One pass of the loops of `DoState` that clear or recompute the lookup tables. -/
def relookup (c : Cache) (entry : Option Way) (p : CacheSet × Way) : Cache :=
  if c.isValid p.1 p.2 then c.setLookup (select z (c.addrs p.1 p.2)) entry else c

/-- `Cache::DoState` in read mode; `saved` holds the arrays of the save state. -/
def doStateRead (c saved : Cache) : Cache :=
  -- Clear valid parts of the lookup tables
  let c := allWays.foldl (fun c p => relookup z c none p) c
  let c := { c with
    data := saved.data
    plru := saved.plru
    valid := saved.valid
    addrs := saved.addrs
    modified := saved.modified }
  -- Recompute lookup tables
  allWays.foldl (fun c p => relookup z c (some p.2) p) c

/-- `InstructionCache::Invalidate`, without the call into the JIT. -/
def icacheInvalidate (c : Cache) (addr : Nat) : Cache :=
  let set := setOf addr
  let c := (List.finRange 8).foldl (fun c way => relookup z c none (set, way)) c
  { c with
    valid := Function.update c.valid set 0#8
    modified := Function.update c.modified set 0#8 }

end Machine

end Karphin.PPCCache

/-!
# What the caches are for: the abstract memory

Seen from the CPU, cache and main memory together are one flat memory, the logical memory: the cached byte
where the line is in the cache, the byte of main memory elsewhere. `DataOp.Spec` says what each operation
may do to it.
-/

namespace Karphin.PPCCache

open Karphin.Lib

variable (z : MemorySizes)

/-- The way that holds the line of `p`, going by the tags and the valid bits. -/
def lineWay (c : Cache) (p : Nat) : Option Way :=
  (List.finRange 8).find? fun w =>
    c.isValid (setOf p) w && decide (select z (c.addrs (setOf p) w) = select z p)

def logical (m : Machine) : Memory := fun p =>
  match lineWay z m.cache p with
  | some w => m.cache.data (setOf p) w (p % 32)
  | none => m.mem p

inductive DataOp
  | getCache (addr : Nat) (locked : Bool)
  | touch (addr : Nat) (store : Bool)
  | read (addr : Nat) (buffer : Buffer) (len : Nat) (locked : Bool)
  | write (addr : Nat) (value : Buffer) (len : Nat) (locked : Bool)
  | store (addr : Nat)
  | flush (addr : Nat)

namespace DataOp

def apply (m : Machine) : DataOp → Machine
  | getCache addr locked => (m.getCache z addr locked).1
  | touch addr st => m.touch z addr st
  | read addr buffer len locked => (m.read z addr buffer len locked).1
  | write addr value len locked => m.write z addr value len locked
  | store addr => m.store z addr
  | flush addr => m.flush z addr

def output (m : Machine) : DataOp → Buffer
  | read addr buffer len locked => (m.read z addr buffer len locked).2
  | _ => fun _ => 0

/-- The effect on the logical memory `M`, with the bytes `out` returned. -/
def Spec (M M' : Memory) (out : Buffer) : DataOp → Prop
  | read addr _ len _ =>
      (∀ i < len, ∀ p, physical z (addr + i) = some p → out i = M p) ∧ ∀ p, InMemory z p → M' p = M p
  | write addr value len _ =>
      (∀ i < len, ∀ p, physical z (addr + i) = some p → M' p = value i) ∧
      ∀ p, InMemory z p → (∀ i < len, physical z (addr + i) ≠ some p) → M' p = M p
  | _ => ∀ p, InMemory z p → M' p = M p

def Backed : DataOp → Prop
  | getCache addr _ | touch addr _ | store addr | flush addr => PPCCache.Backed z addr
  | read addr _ len _ | write addr _ len _ => ∀ i < len, PPCCache.Backed z (addr + i)

end DataOp

/-- In every run of operations that meet `ok`, each operation acts on the logical memory as specified, and
`FlushAll` brings main memory up to date. -/
def Transparent (ok : DataOp → Prop) : Prop :=
  ∀ mem m, Reach (fun m op => some (DataOp.apply z m op)) (fun _ op => ok op) (Machine.init mem) m →
    (∀ op, ok op → op.Spec z (logical z m) (logical z (op.apply z m)) (op.output z m)) ∧
    ∀ p, InMemory z p → (m.flushAll z).mem p = logical z m p

inductive CacheOp
  | data (op : DataOp)
  | invalidate (addr : Nat)
  | icacheInvalidate (addr : Nat)
  | flushAll
  | reset

def CacheOp.apply (m : Machine) : CacheOp → Machine
  | data op => op.apply z m
  | invalidate addr => m.invalidate z addr
  | icacheInvalidate addr => ⟨Machine.icacheInvalidate z m.cache addr, m.mem⟩
  | flushAll => m.flushAll z
  | reset => ⟨m.cache.reset, m.mem⟩

/-- The states reached from `Init`. A save state that is loaded was saved from a reached state; the memory
that comes with it is arbitrary. -/
inductive Reachable : Machine → Prop
  | init (mem : Memory) : Reachable (Machine.init mem)
  | op {m} (op : CacheOp) : Reachable m → Reachable (op.apply z m)
  | load {m saved} (mem : Memory) : Reachable m → Reachable saved →
      Reachable ⟨Machine.doStateRead z m.cache saved.cache, mem⟩

end Karphin.PPCCache
