import Karphin.Lib.FinNumerals
import Karphin.Lib.Transition

/-!
# The JIT block cache

`JitBaseBlockCache`. A `JitBlock*` is a `BlockId` that is never handed out twice; `block_map` is the list of
the live blocks in the order in which they were allocated, which is also the order of `equal_range`. The sets
of the other maps are lists of ids. Addresses are natural numbers below `2 ^ 32`.
-/

namespace Karphin.JitCache

abbrev BlockId := Nat

/-! ## Address translation -/

structure TranslateResult where
  valid : Bool := false
  translated : Bool := false
  fromBat : Bool := false
  address : Nat := 0

/-- What `JitCache_TranslateAddress` reads: `MSR.IR`, the instruction BAT table, indexed by the 128 KiB block,
and the outcome of the TLB and page table search, which looks at the page number only. -/
structure Mmu where
  ir : Bool
  ibatTable : Nat → Option (Fin (2 ^ 15))
  pageTable : Nat → Option (Fin (2 ^ 20))

def BAT_INDEX_SHIFT : Nat := 17
def HW_PAGE_INDEX_SHIFT : Nat := 12

def Mmu.translate (mmu : Mmu) (address : Nat) : TranslateResult :=
  if !mmu.ir then { valid := true, address := address }
  else match mmu.ibatTable (address / 2 ^ BAT_INDEX_SHIFT) with
    | some block =>
        { valid := true, translated := true, fromBat := true
          address := block * 2 ^ BAT_INDEX_SHIFT + address % 2 ^ BAT_INDEX_SHIFT }
    | none => match mmu.pageTable (address / 2 ^ HW_PAGE_INDEX_SHIFT) with
      | some rpn =>
          { valid := true, translated := true
            address := rpn * 2 ^ HW_PAGE_INDEX_SHIFT + address % 2 ^ HW_PAGE_INDEX_SHIFT }
      | none => {}

/-! ## Blocks and the cache -/

/-- An exit of a block. `dest` is the block that `WriteLinkBlock` last wrote into the exit jump, `none` for
the dispatcher. -/
structure LinkData where
  exitAddress : Nat
  linkStatus : Bool := false
  dest : Option BlockId := none
deriving DecidableEq

structure JitBlock where
  id : BlockId
  effectiveAddress : Nat
  physicalAddress : Nat
  featureFlags : Nat
  normalEntry : Nat
  fastBlockMapIndex : Nat := 0
  linkData : List LinkData
  physicalAddresses : List Nat
deriving DecidableEq

structure JitState where
  fifoWriteAddresses : List Nat := []
  pairedQuantizeAddresses : List Nat := []
  noSpeculativeConstantsAddresses : List Nat := []

structure BlockCache where
  blockMap : List JitBlock
  nextId : BlockId
  linksTo : Nat → List BlockId
  blockRangeMap : Nat → List BlockId
  validBlock : Nat → Bool
  /-- Whether `m_entry_points_ptr` is set. -/
  entryPoints : Bool
  entryPointTable : Nat → Option Nat
  fastBlockMapFallback : Nat → Option BlockId
  js : JitState

def FEATURE_FLAG_MSR_IR : Nat := 2
def BLOCK_RANGE_MAP_ELEMENTS : Nat := 0x100
def FAST_BLOCK_MAP_FALLBACK_MASK : Nat := 0xffff

def macroBlock (addr : Nat) : Nat := addr / BLOCK_RANGE_MAP_ELEMENTS * BLOCK_RANGE_MAP_ELEMENTS

def addU32 (a b : Nat) : Nat := (a + b) % 2 ^ 32

/-- `std::set::lower_bound`; `none` is `end()`. -/
def lowerBound (set : List Nat) (x : Nat) : Option Nat := (set.filter (x ≤ ·)).min?

def JitBlock.overlapsPhysicalRange (b : JitBlock) (address length : Nat) : Bool :=
  lowerBound b.physicalAddresses address ≠ lowerBound b.physicalAddresses (addU32 address length)

def JitBlock.exits (b : JitBlock) : List Nat := b.linkData.map (·.exitAddress)

def JitBlock.withIndex (b : JitBlock) (index : Nat) : JitBlock := { b with fastBlockMapIndex := index }

def eraseAt (t : Nat → List BlockId) (key : Nat) (i : BlockId) : Nat → List BlockId :=
  Function.update t key ((t key).filter (· ≠ i))

def insertAt (t : Nat → List BlockId) (key : Nat) (i : BlockId) : Nat → List BlockId :=
  Function.update t key ((t key).insert i)

namespace BlockCache

/-- The cache after `Init`, with or without the large entry point map. -/
def init (entryPoints : Bool) : BlockCache where
  blockMap := []
  nextId := 0
  linksTo := fun _ => []
  blockRangeMap := fun _ => []
  validBlock := fun _ => false
  entryPoints := entryPoints
  entryPointTable := fun _ => none
  fastBlockMapFallback := fun _ => none
  js := {}

def modify (c : BlockCache) (i : BlockId) (f : JitBlock → JitBlock) : BlockCache :=
  { c with blockMap := c.blockMap.map fun b => if b.id = i then f b else b }

def block? (c : BlockCache) (i : BlockId) : Option JitBlock := c.blockMap.find? (·.id = i)

def fastLookupIndexForAddress (c : BlockCache) (address featureFlags : Nat) : Nat :=
  if c.entryPoints then (featureFlags <<< 30) ||| (address >>> 2)
  else (address >>> 2) &&& FAST_BLOCK_MAP_FALLBACK_MASK

/-! ## Lookup and linking -/

def getBlockFromStartAddress (c : BlockCache) (mmu : Mmu) (addr featureFlags : Nat) : Option JitBlock :=
  let find (translated : Nat) := c.blockMap.find? fun b =>
    b.physicalAddress = translated ∧ b.effectiveAddress = addr ∧ b.featureFlags = featureFlags
  if featureFlags &&& FEATURE_FLAG_MSR_IR ≠ 0 then
    if (mmu.translate addr).valid then find (mmu.translate addr).address else none
  else find addr

def linkExit (c : BlockCache) (mmu : Mmu) (featureFlags : Nat) (e : LinkData) : LinkData :=
  if e.linkStatus then e
  else match c.getBlockFromStartAddress mmu e.exitAddress featureFlags with
    | some destinationBlock => { e with dest := some destinationBlock.id, linkStatus := true }
    | none => e

def linkBlockExits (c : BlockCache) (mmu : Mmu) (b : JitBlock) : JitBlock :=
  { b with linkData := b.linkData.map (c.linkExit mmu b.featureFlags) }

def linkBlock (c : BlockCache) (mmu : Mmu) (block : JitBlock) : BlockCache :=
  (c.linksTo block.effectiveAddress).foldl
    (fun c i => c.modify i fun b2 =>
      if block.featureFlags = b2.featureFlags then c.linkBlockExits mmu b2 else b2)
    (c.modify block.id (c.linkBlockExits mmu))

/-- Unlinks the exits of `sourceBlock` that point to the address of `block`. -/
def unlinkSource (block sourceBlock : JitBlock) : JitBlock :=
  if sourceBlock.featureFlags ≠ block.featureFlags then sourceBlock
  else { sourceBlock with linkData := sourceBlock.linkData.map fun e =>
    if e.exitAddress = block.effectiveAddress then { e with dest := none, linkStatus := false } else e }

def unlinkBlock (c : BlockCache) (block : JitBlock) : BlockCache :=
  (c.linksTo block.effectiveAddress).foldl (fun c i => c.modify i (unlinkSource block))
    (c.modify block.id fun b => { b with linkData := b.linkData.map fun e => { e with dest := none } })

/-! ## The fast block map -/

def dropFast (c : BlockCache) (b : JitBlock) : BlockCache :=
  if c.entryPoints then
    if c.entryPointTable b.fastBlockMapIndex = some b.normalEntry then
      { c with entryPointTable := Function.update c.entryPointTable b.fastBlockMapIndex none }
    else c
  else if c.fastBlockMapFallback b.fastBlockMapIndex = some b.id then
    { c with fastBlockMapFallback := Function.update c.fastBlockMapFallback b.fastBlockMapIndex none }
  else c

/-- Writes the entry `index` of the fast block map and records the index in the block. -/
def enterFast (c : BlockCache) (b : JitBlock) (index : Nat) : BlockCache :=
  (if c.entryPoints then
    { c with entryPointTable := Function.update c.entryPointTable index (some b.normalEntry) }
  else { c with fastBlockMapFallback := Function.update c.fastBlockMapFallback index (some b.id) }).modify
    b.id (·.withIndex index)

def moveBlockIntoFastCache (c : BlockCache) (mmu : Mmu) (addr featureFlags : Nat) :
    BlockCache × Option JitBlock :=
  match c.getBlockFromStartAddress mmu addr featureFlags with
  | none => (c, none)
  | some b => ((c.dropFast b).enterFast b (c.fastLookupIndexForAddress addr featureFlags), some b)

/-- `Dispatch`: the entry point to jump to. -/
def dispatch (c : BlockCache) (mmu : Mmu) (pc featureFlags : Nat) : BlockCache × Option Nat :=
  let index := c.fastLookupIndexForAddress pc featureFlags
  let move := c.moveBlockIntoFastCache mmu pc featureFlags
  if c.entryPoints then
    match c.entryPointTable index with
    | some entry => (c, some entry)
    | none => (move.1, move.2.map (·.normalEntry))
  else match (c.fastBlockMapFallback index).bind c.block? with
    | some b =>
        if b.effectiveAddress ≠ pc ∨ b.featureFlags ≠ featureFlags then (move.1, move.2.map (·.normalEntry))
        else (c, some b.normalEntry)
    | none => (move.1, move.2.map (·.normalEntry))

/-! ## Creating and destroying blocks -/

/-- What the code generator leaves in a block between `AllocateBlock` and `FinalizeBlock`. -/
structure Compiled where
  normalEntry : Nat
  exits : List Nat
  physicalAddresses : List Nat

/-- `AllocateBlock`, with the fields that the code generator fills. -/
def allocateBlock (c : BlockCache) (mmu : Mmu) (emAddress featureFlags : Nat) (code : Compiled) :
    BlockCache × JitBlock :=
  let b : JitBlock :=
    { id := c.nextId
      effectiveAddress := emAddress
      physicalAddress := (mmu.translate emAddress).address
      featureFlags := featureFlags
      normalEntry := code.normalEntry
      linkData := code.exits.map fun a => { exitAddress := a }
      physicalAddresses := code.physicalAddresses }
  ({ c with blockMap := c.blockMap ++ [b], nextId := c.nextId + 1 }, b)

def addPhysical (i : BlockId) (c : BlockCache) (addr : Nat) : BlockCache :=
  { c with
    validBlock := Function.update c.validBlock (addr / 32) true
    blockRangeMap := insertAt c.blockRangeMap (macroBlock addr) i }

/-- The first part of `FinalizeBlock`: the fast block map, the valid bits and the range map. -/
def indexBlock (c : BlockCache) (block : JitBlock) : BlockCache :=
  block.physicalAddresses.foldl (addPhysical block.id)
    (c.enterFast block (c.fastLookupIndexForAddress block.effectiveAddress block.featureFlags))

def addLinks (c : BlockCache) (block : JitBlock) : BlockCache :=
  { c with linksTo := block.exits.foldl (fun t a => insertAt t a block.id) c.linksTo }

def finalizeBlock (c : BlockCache) (mmu : Mmu) (block : JitBlock) (blockLink : Bool) : BlockCache :=
  let c := c.indexBlock block
  if blockLink then (c.addLinks block).linkBlock mmu block else c

def removeLinks (c : BlockCache) (block : JitBlock) : BlockCache :=
  { c with linksTo := block.exits.foldl (fun t a => eraseAt t a block.id) c.linksTo }

def destroyBlock (c : BlockCache) (block : JitBlock) : BlockCache :=
  ((c.dropFast block).unlinkBlock block).removeLinks block

/-- Removes `block`, found in the macro block `key`, from all maps. -/
def eraseBlock (c : BlockCache) (key : Nat) (block : JitBlock) : BlockCache :=
  let range := block.physicalAddresses.foldl
    (fun t addr => if macroBlock addr ≠ key then eraseAt t (macroBlock addr) block.id else t)
    c.blockRangeMap
  let c := ({ c with blockRangeMap := range } : BlockCache).destroyBlock block
  { c with
    blockMap := c.blockMap.filter (·.id ≠ block.id)
    blockRangeMap := eraseAt c.blockRangeMap key block.id }

def eraseIfOverlaps (address length key : Nat) (c : BlockCache) (i : BlockId) : BlockCache :=
  match c.block? i with
  | some b => if b.overlapsPhysicalRange address length then c.eraseBlock key b else c
  | none => c

/-- The keys of the macro blocks from `lower_bound(address & range_mask)` up to `lower_bound(stop)`. -/
def macroBlocks (address stop : Nat) : List Nat :=
  (List.range ((stop - macroBlock address + (BLOCK_RANGE_MAP_ELEMENTS - 1)) / BLOCK_RANGE_MAP_ELEMENTS)).map
    fun k => macroBlock address + k * BLOCK_RANGE_MAP_ELEMENTS

/-- `ErasePhysicalRange`. When `address + length` wraps, the end iterator is not behind the start iterator:
nothing is erased if they are equal, and the loop leaves the map otherwise. The model has the first case. -/
def erasePhysicalRange (c : BlockCache) (address length : Nat) : BlockCache :=
  (macroBlocks address (addU32 address length)).foldl
    (fun c key => (c.blockRangeMap key).foldl (eraseIfOverlaps address length key) c) c

def clear (c : BlockCache) : BlockCache :=
  let c' := c.blockMap.foldl destroyBlock c
  { c' with
    blockMap := []
    linksTo := fun _ => []
    blockRangeMap := fun _ => []
    validBlock := fun _ => false
    entryPointTable := if c.entryPoints then fun _ => none else c'.entryPointTable
    js := {} }

/-! ## Invalidation -/

/-- Whether `for (u32 i = address; i < stop; i += 4)` ends: `i` must not step over `2 ^ 32`. -/
def loopEnds (address stop : Nat) : Bool :=
  stop ≤ address ∨ address + (stop - address + 3) / 4 * 4 < 2 ^ 32

def eraseFifo (js : JitState) (address stop : Nat) : JitState :=
  let kept (i : Nat) : Bool := ¬ (address ≤ i ∧ i < stop ∧ (i - address) % 4 = 0)
  { fifoWriteAddresses := js.fifoWriteAddresses.filter kept
    pairedQuantizeAddresses := js.pairedQuantizeAddresses.filter kept
    noSpeculativeConstantsAddresses := js.noSpeculativeConstantsAddresses.filter kept }

def clearLines (valid : Nat → Bool) (start stop : Nat) : Nat → Bool :=
  fun i => if start ≤ i ∧ i < stop then false else valid i

/-- The valid bits after the first part of `InvalidateICacheInternal`, and `destroy_block`. -/
def testValid (valid : Nat → Bool) (physicalAddress length : Nat) : (Nat → Bool) × Bool :=
  if length = 32 ∧ physicalAddress % 32 = 0 then
    if !valid (physicalAddress / 32) then (valid, false)
    else (clearLines valid (physicalAddress / 32) (physicalAddress / 32 + 1), true)
  else if length > 32 then
    (clearLines valid (addU32 physicalAddress 0x1f / 32) (addU32 physicalAddress length / 32), true)
  else (valid, true)

/-- `InvalidateICacheInternal`; `none` if the loop over the FIFO write addresses does not end. -/
def invalidateICacheInternal (c : BlockCache) (physicalAddress address length : Nat) (forced : Bool) :
    Option BlockCache :=
  let (valid, destroy) := testValid c.validBlock physicalAddress length
  let c := { c with validBlock := valid }
  if destroy then
    let c := c.erasePhysicalRange physicalAddress length
    if forced then some c
    else if loopEnds address (addU32 address length) then
      some { c with js := eraseFifo c.js address (addU32 address length) }
    else none
  else some c

def invalidateICacheLine (c : BlockCache) (mmu : Mmu) (address : Nat) : Option BlockCache :=
  let line := address / 32 * 32
  if (mmu.translate line).valid then
    c.invalidateICacheInternal (mmu.translate line).address line 32 false
  else some c

def pageSize (t : TranslateResult) : Nat :=
  2 ^ if t.valid && t.translated && t.fromBat then BAT_INDEX_SHIFT else HW_PAGE_INDEX_SHIFT

def invalidatePage (c : BlockCache) (mmu : Mmu) (address length : Nat) (forced : Bool) : Option BlockCache :=
  let t := mmu.translate address
  if t.valid then c.invalidateICacheInternal t.address address length forced else some c

theorem pageSize_sub_pos (t : TranslateResult) (a : Nat) : 0 < pageSize t - a % pageSize t :=
  Nat.sub_pos_of_lt (Nat.mod_lt _ (Nat.two_pow_pos _))

/-- `InvalidateICache`. The `length_this_page` of the source, `end_of_page - first_address` in `u32`, is the
distance to the end of the page. -/
def invalidateICache (c : BlockCache) (mmu : Mmu) (address length : Nat) (forced : Bool) : Option BlockCache :=
  if length = 0 then some c
  else
    let size := pageSize (mmu.translate address)
    let lastAddress := addU32 address (length - 1)
    if address / size = lastAddress / size then c.invalidatePage mmu address length forced
    else
      let lengthThisPage := size - address % size
      (c.invalidatePage mmu address lengthThisPage forced).bind fun c =>
        c.invalidateICache mmu (addU32 address lengthThisPage) (length - lengthThisPage) forced
termination_by length
decreasing_by
  have := pageSize_sub_pos (mmu.translate address) address
  omega

/-! ## Runs -/

inductive Op
  | compile (mmu : Mmu) (emAddress featureFlags : Nat) (code : Compiled) (blockLink : Bool)
  | dispatch (mmu : Mmu) (pc featureFlags : Nat)
  | moveBlockIntoFastCache (mmu : Mmu) (addr featureFlags : Nat)
  | invalidateICache (mmu : Mmu) (address length : Nat) (forced : Bool)
  | invalidateICacheLine (mmu : Mmu) (address : Nat)
  | erasePhysicalRange (address length : Nat)
  | clear

def step (c : BlockCache) : Op → Option BlockCache
  | .compile mmu emAddress featureFlags code blockLink =>
      let (c, b) := c.allocateBlock mmu emAddress featureFlags code
      some (c.finalizeBlock mmu b blockLink)
  | .dispatch mmu pc featureFlags => some (c.dispatch mmu pc featureFlags).1
  | .moveBlockIntoFastCache mmu addr featureFlags => some (c.moveBlockIntoFastCache mmu addr featureFlags).1
  | .invalidateICache mmu address length forced => c.invalidateICache mmu address length forced
  | .invalidateICacheLine mmu address => c.invalidateICacheLine mmu address
  | .erasePhysicalRange address length => some (c.erasePhysicalRange address length)
  | .clear => some c.clear

end BlockCache

end Karphin.JitCache

/-!
## What the block cache promises

After an invalidation no code compiled from the invalidated bytes can be found, and a link between blocks
leads to a live block.
-/

namespace Karphin.JitCache

open Karphin.Lib

namespace BlockCache

def Translated (mmu : Mmu) (address length p : Nat) : Prop :=
  ∃ a, address ≤ a ∧ a < address + length ∧ (mmu.translate a).valid = true ∧ (mmu.translate a).address = p

/-- No address of `[address, address + length)` is translated to the last byte of the physical space. -/
def AvoidsTop (mmu : Mmu) (address length : Nat) : Prop :=
  ∀ a, address ≤ a → a < address + length → (mmu.translate a).valid = true →
    (mmu.translate a).address ≠ 2 ^ 32 - 1

def Clean (gone : Nat → Prop) (b : JitBlock) : Prop := ∀ p ∈ b.physicalAddresses, ¬ gone p

structure Purged (c : BlockCache) (gone : Nat → Prop) : Prop where
  blockMap : ∀ b ∈ c.blockMap, Clean gone b
  blockRangeMap : ∀ k, ∀ i ∈ c.blockRangeMap k, ∃ b ∈ c.blockMap, b.id = i ∧ Clean gone b
  linksTo : ∀ a, ∀ i ∈ c.linksTo a, ∃ b ∈ c.blockMap, b.id = i ∧ Clean gone b
  fastBlockMapFallback : ∀ k i, c.fastBlockMapFallback k = some i → ∃ b ∈ c.blockMap, b.id = i ∧ Clean gone b
  entryPointTable : ∀ k e, c.entryPointTable k = some e → ∃ b ∈ c.blockMap, b.normalEntry = e ∧ Clean gone b

def Op.Fits (bound : Nat) : Op → Prop
  | .invalidateICache _ address length _ => address + length ≤ bound
  | .invalidateICacheLine _ address => address / 32 * 32 + 32 ≤ bound
  | .erasePhysicalRange address length => address + length ≤ bound
  | _ => True

def Op.AvoidsTop : Op → Prop
  | .invalidateICache mmu address length _ => BlockCache.AvoidsTop mmu address length
  | .invalidateICacheLine mmu address => BlockCache.AvoidsTop mmu (address / 32 * 32) 32
  | .erasePhysicalRange address length => address + length < 2 ^ 32
  | _ => True

/-- In every run of calls that meet `ok`, a clear valid bit means that no live block covers the line, and an
invalidation leaves nothing of its range. -/
def InvalidatesAll (entryPoints : Bool) (ok : Op → Prop) : Prop :=
  ∀ c, Reach step (fun _ op => ok op) (init entryPoints) c →
    (∀ line, c.validBlock line = false → ∀ b ∈ c.blockMap, ∀ p ∈ b.physicalAddresses, p / 32 ≠ line) ∧
    ∀ mmu address length forced c', ok (.invalidateICache mmu address length forced) →
      c.invalidateICache mmu address length forced = some c' → Purged c' (Translated mmu address length)

end BlockCache

end Karphin.JitCache
