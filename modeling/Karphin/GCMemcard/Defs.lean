import Karphin.Lib.FinNumerals

/-!
# The blocks of a memory card

The header block, the directory entries and the data blocks, with their bytes where the checksums and the fix-ups of
save files look at them. Values of the host's byte order are little endian.
-/

namespace Karphin.GCMemcard

def dirLen : Nat := 0x7F
def mcFstBlocks : Nat := 5
def batSize : Nat := 0xFFB
def mbitToBlocks : Nat := 16

/-! ## Bytes -/

def be16 (v : Nat) : List UInt8 := [UInt8.ofNat (v / 256), UInt8.ofNat v]
def be32 (v : UInt32) : List UInt8 := be16 (v.toNat / 65536) ++ be16 v.toNat
def be64 (v : UInt64) : List UInt8 := be32 (UInt32.ofNat (v.toNat / 2 ^ 32)) ++ be32 (UInt32.ofNat v.toNat)
def le32 (v : UInt32) : List UInt8 := (be32 v).reverse

def swap16 (v : UInt16) : UInt16 := (v <<< 8) ||| (v >>> 8)

def readLe32 : List UInt8 → UInt32
  | a :: b :: c :: d :: _ => a.toUInt32 ||| (b.toUInt32 <<< 8) ||| (c.toUInt32 <<< 16) ||| (d.toUInt32 <<< 24)
  | _ => 0

def sumWords (csum invCsum : UInt16) : List UInt8 → UInt16 × UInt16
  | a :: b :: data =>
      let d : UInt16 := (a.toUInt16 <<< 8) ||| b.toUInt16
      sumWords (csum + d) (invCsum + (d ^^^ 0xffff)) data
  | _ => (csum, invCsum)

def calculateMemcardChecksums (data : List UInt8) : UInt16 × UInt16 :=
  let (csum, invCsum) := sumWords 0 0 data
  let csum := swap16 csum
  let invCsum := swap16 invCsum
  (if csum = 0xffff then 0 else csum, if invCsum = 0xffff then 0 else invCsum)

/-! ## Data blocks -/

abbrev GCMBlock := Fin 0x2000 → UInt8

namespace GCMBlock

def erased : GCMBlock := fun _ => 0xFF

def store (b : GCMBlock) (offset : Nat) (bytes : List UInt8) : GCMBlock :=
  fun i => if offset ≤ i.1 ∧ i.1 < offset + bytes.length then bytes.getD (i.1 - offset) 0 else b i

end GCMBlock

/-! ## The header -/

structure HeaderData where
  serial : Vector UInt8 12
  formatTime : UInt64
  sramBias : UInt32
  sramLanguage : UInt32
  dtvStatus : UInt32
  deviceId : UInt16
  sizeMb : UInt16
  encoding : UInt16

def HeaderData.raw (h : HeaderData) : List UInt8 :=
  h.serial.toList ++ be64 h.formatTime ++ le32 h.sramBias ++ be32 h.sramLanguage ++ le32 h.dtvStatus ++
    be16 h.deviceId.toNat ++ be16 h.sizeMb.toNat ++ be16 h.encoding.toNat

/-- The serial number of `InitializeHeaderData`, from the flash id and a random sequence. -/
def initialSerial (flashId : Vector UInt8 12) (formatTime : UInt64) : Vector UInt8 12 :=
  let next (rand : UInt64) : UInt64 := (rand * 0x41c64e6d + 0x3039) >>> 16
  let step := fun (acc : UInt64 × Vector UInt8 12) (i : Fin 12) =>
    let rand := next acc.1
    (next rand &&& 0x7fff, acc.2.set i (flashId[i] + rand.toUInt8))
  ((List.finRange 12).foldl step (formatTime, Vector.replicate 12 0)).2

def initializeHeaderData (flashId : Vector UInt8 12) (sizeMbits : UInt16) (shiftJis : Bool)
    (rtcBias sramLanguage : UInt32) (formatTime : UInt64) : HeaderData where
  serial := initialSerial flashId formatTime
  formatTime := formatTime
  sramBias := rtcBias
  sramLanguage := sramLanguage
  dtvStatus := 0
  deviceId := 0
  sizeMb := sizeMbits
  encoding := if shiftJis then 1 else 0

structure Header where
  data : HeaderData
  unused1 : Vector UInt8 468 := Vector.replicate 468 0xFF
  updateCounter : UInt16 := 0xFFFF
  checksum : UInt16 := 0xFFFF
  checksumInv : UInt16 := 0xFFFF
  unused2 : Vector UInt8 7680 := Vector.replicate 7680 0xFF

namespace Header

def calculateChecksums (h : Header) : UInt16 × UInt16 :=
  calculateMemcardChecksums (h.data.raw ++ h.unused1.toList ++ (be16 h.updateCounter.toNat).reverse)

def fixChecksums (h : Header) : Header :=
  { h with checksum := h.calculateChecksums.1, checksumInv := h.calculateChecksums.2 }

def create (flashId : Vector UInt8 12) (sizeMbits : UInt16) (shiftJis : Bool) (rtcBias sramLanguage : UInt32)
    (formatTime : UInt64) : Header :=
  fixChecksums { data := initializeHeaderData flashId sizeMbits shiftJis rtcBias sramLanguage formatTime }

/-- `CalculateSerial`: the first 32 bytes, in words of two kinds. -/
def calculateSerial (h : Header) : UInt32 × UInt32 :=
  let raw := h.data.raw
  ([0, 8, 16, 24].foldl (fun s i => s ^^^ readLe32 (raw.drop i)) 0,
    [0, 8, 16, 24].foldl (fun s i => s ^^^ readLe32 (raw.drop (i + 4))) 0)

end Header

/-! ## Directory entries -/

structure DEntry where
  gamecode : Vector UInt8 4 := Vector.replicate 4 0xFF
  makercode : Vector UInt8 2 := Vector.replicate 2 0xFF
  unused1 : UInt8 := 0xFF
  bannerAndIconFlags : UInt8 := 0xFF
  filename : Vector UInt8 32 := Vector.replicate 32 0xFF
  modificationTime : UInt32 := 0xFFFFFFFF
  imageOffset : UInt32 := 0xFFFFFFFF
  iconFormat : UInt16 := 0xFFFF
  animationSpeed : UInt16 := 0xFFFF
  filePermissions : UInt8 := 0xFF
  copyCounter : UInt8 := 0xFF
  firstBlock : Nat := 0xFFFF
  blockCount : Nat := 0xFFFF
  unused2 : Vector UInt8 2 := Vector.replicate 2 0xFF
  commentsAddress : UInt32 := 0xFFFFFFFF

namespace DEntry

def uninitializedGamecode : Vector UInt8 4 := Vector.replicate 4 0xFF

def used (e : DEntry) : Bool := e.gamecode ≠ uninitializedGamecode

def raw (e : DEntry) : List UInt8 :=
  e.gamecode.toList ++ e.makercode.toList ++ [e.unused1, e.bannerAndIconFlags] ++ e.filename.toList ++
    be32 e.modificationTime ++ be32 e.imageOffset ++ be16 e.iconFormat.toNat ++ be16 e.animationSpeed.toNat ++
    [e.filePermissions, e.copyCounter] ++ be16 e.firstBlock ++ be16 e.blockCount ++ e.unused2.toList ++
    be32 e.commentsAddress

def sameFilename : List UInt8 → List UInt8 → Bool
  | a :: as, b :: bs => if a = 0 then b = 0 else if a ≠ b then false else sameFilename as bs
  | _, _ => true

def hasSameIdentity (lhs rhs : DEntry) : Bool :=
  lhs.gamecode = rhs.gamecode && lhs.makercode = rhs.makercode &&
    sameFilename lhs.filename.toList rhs.filename.toList

/-- `strcmp` of the file name with a text finds no difference. -/
def filenameIs (e : DEntry) (text : String) : Bool :=
  e.filename.toList.takeWhile (· ≠ 0) = text.toList.map (fun c => UInt8.ofNat c.toNat)

end DEntry

def galeCode : Vector UInt8 4 := #v[0x47, 0x41, 0x4C, 0x45]

/-! ## Save files that hold the serial number of their card -/

def crc16Step (chksum : UInt16) (byte : UInt8) : UInt16 :=
  let shift := fun (chksum : UInt16) => if chksum &&& 1 ≠ 0 then (chksum >>> 1) ^^^ 0x8408 else chksum >>> 1
  shift (shift (shift (shift (shift (shift (shift (shift (chksum ^^^ byte.toUInt16))))))))

def fzerogxMakeSaveGameValid (cardheader : Header) (direntry : DEntry) (fileBuffer : List GCMBlock) : List GCMBlock :=
  if direntry.filenameIs "f_zero.dat" then
    match fileBuffer with
    | [b0, b1, b2, b3] =>
        -- the numbers are swapped, and their halves are stored in big endian
        let serial1 := le32 cardheader.calculateSerial.1
        let serial2 := le32 cardheader.calculateSerial.2
        let b1 := ((b1.store 0x0066 (serial1.take 2)).store 0x0060 (serial1.drop 2)).store 0x0200 (serial2.drop 2)
        let b3 := b3.store 0x1580 (serial2.take 2)
        let bytes := ([b0, b1, b2, b3].flatMap List.ofFn).drop 2
        let chksum := bytes.foldl crc16Step 0xFFFF
        [b0.store 0 (be16 (~~~chksum).toNat), b1, b2, b3]
    | _ => fileBuffer
  else fileBuffer

def crc32LUT (i : UInt32) : UInt32 :=
  let shift := fun (chksum : UInt32) => if chksum &&& 1 ≠ 0 then (chksum >>> 1) ^^^ 0xEDB88320 else chksum >>> 1
  shift (shift (shift (shift (shift (shift (shift (shift i)))))))

def crc32Step (chksum : UInt32) (byte : UInt8) : UInt32 :=
  ((chksum >>> 8) &&& 0xFFFFFF) ^^^ crc32LUT ((chksum ^^^ byte.toUInt32) &&& 0xFF)

def psoMakeSaveGameValid (cardheader : Header) (direntry : DEntry) (fileBuffer : List GCMBlock) : List GCMBlock :=
  let pso := direntry.filenameIs "PSO_SYSTEM"
  if pso || direntry.filenameIs "PSO3_SYSTEM" then
    let pso3offset := if pso then 0 else 0x10
    fileBuffer.modify 1 fun b1 =>
      let b1 := (b1.store 0x0158 (le32 cardheader.calculateSerial.1)).store 0x015C (le32 cardheader.calculateSerial.2)
      let bytes := ((List.ofFn b1).take (0x0164 + pso3offset)).drop 0x004C
      let chksum := bytes.foldl crc32Step 0xDEBB20E3
      b1.store 0x0048 (be32 (chksum ^^^ 0xFFFFFFFF))
  else fileBuffer

end Karphin.GCMemcard

/-!
## The memory card

The block allocation table, the directory and the operations of `GCMemcard`. A file on disk is the blocks that `Save`
writes, one after the other; reading and writing it does not fail.
-/

namespace Karphin.GCMemcard

inductive GCMemcardValidityIssues
  | failedToOpen
  | ioError
  | invalidCardSize
  | invalidChecksum
  | mismatchedCardSize
  | freeBlockMismatch
  | dirBatInconsistent
  | dataInUnusedArea
  deriving DecidableEq, Repr

abbrev GCMemcardErrorCode := Finset GCMemcardValidityIssues

namespace GCMemcardErrorCode

def single (issue : GCMemcardValidityIssues) (b : Bool) : GCMemcardErrorCode := if b then {issue} else ∅

def hasCriticalErrors (e : GCMemcardErrorCode) : Bool :=
  .failedToOpen ∈ e || .ioError ∈ e || .invalidCardSize ∈ e || .invalidChecksum ∈ e || .mismatchedCardSize ∈ e ||
    .freeBlockMismatch ∈ e || .dirBatInconsistent ∈ e

end GCMemcardErrorCode

open GCMemcardErrorCode (single)

def mbitToFreeBlocks (sizeMb : Nat) : Nat := sizeMb * mbitToBlocks - mcFstBlocks

def nextCounter (c : Int) : Int := (c + 1).bmod 65536

def rawCounter (c : Int) : List UInt8 := be16 (c % 65536).toNat

/-! ## The block allocation table -/

structure BlockAlloc where
  checksum : UInt16 := 0
  checksumInv : UInt16 := 0
  updateCounter : Int := 0
  freeBlocks : Nat := 0
  lastAllocatedBlock : Nat := 0
  /-- 0 for a free block, `0xFFFF` for the last block of a file, else the block that follows. -/
  map : Nat → Nat := fun _ => 0

namespace BlockAlloc

@[irreducible]
def calculateChecksums (bat : BlockAlloc) : UInt16 × UInt16 :=
  calculateMemcardChecksums (rawCounter bat.updateCounter ++ be16 bat.freeBlocks ++ be16 bat.lastAllocatedBlock ++
    (List.range batSize).flatMap (fun i => be16 (bat.map i)))

def fixChecksums (bat : BlockAlloc) : BlockAlloc :=
  { bat with checksum := bat.calculateChecksums.1, checksumInv := bat.calculateChecksums.2 }

def create (sizeMbits : Nat) : BlockAlloc :=
  fixChecksums { freeBlocks := mbitToFreeBlocks sizeMbits, lastAllocatedBlock := 4 }

def getNextBlock (bat : BlockAlloc) (block : Nat) : Nat :=
  if block < mcFstBlocks ∨ block > 4091 then 0 else bat.map (block - mcFstBlocks)

def isFree (bat : BlockAlloc) (block : Nat) : Bool := bat.map (block - mcFstBlocks) = 0

/-- `std::clamp` to the blocks that the map can describe. -/
def clampBlock (block : Nat) : Nat := max mcFstBlocks (min block (batSize + mcFstBlocks))

def nextFreeBlock (bat : BlockAlloc) (maxBlock startingBlock : Nat) : Nat :=
  if bat.freeBlocks > 0 then
    let startingBlock := clampBlock startingBlock
    let maxBlock := clampBlock maxBlock
    match (List.range' startingBlock (maxBlock - startingBlock)).find? bat.isFree with
    | some i => i
    | none => match (List.range' mcFstBlocks (startingBlock - mcFstBlocks)).find? bat.isFree with
      | some i => i
      | none => 0xFFFF
  else 0xFFFF

/-- The loop of `ClearBlocks`: the blocks of a chain and where it ends, if that is within `fuel` blocks. -/
def collect (bat : BlockAlloc) : Nat → Nat → Option (List Nat × Nat)
  | 0, _ => none
  | fuel + 1, startingBlock =>
      if startingBlock ≠ 0xFFFF ∧ startingBlock ≠ 0 then
        (bat.collect fuel (bat.getNextBlock startingBlock)).map fun (blocks, last) => (startingBlock :: blocks, last)
      else some ([], startingBlock)

/-- `ClearBlocks`; `none` is `false`, and a chain that does not end. -/
def clearBlocks (bat : BlockAlloc) (startingBlock blockCount : Nat) : Option BlockAlloc :=
  match bat.collect (batSize + 2) startingBlock with
  | none => none
  | some (blocks, last) =>
      if last > 0 ∧ blocks.length = blockCount then
        some { bat with
          map := blocks.foldl (fun map b => Function.update map (b - mcFstBlocks) 0) bat.map
          freeBlocks := bat.freeBlocks + blockCount }
      else none

def checkForErrors (bat : BlockAlloc) (sizeMbits : Nat) : GCMemcardErrorCode :=
  let checksum := single .invalidChecksum (bat.calculateChecksums ≠ (bat.checksum, bat.checksumInv))
  if sizeMbits > 0 ∧ sizeMbits ≤ 256 then
    let total := sizeMbits * mbitToBlocks - mcFstBlocks
    let blocksInUse := (List.range total).countP (bat.map · ≠ 0)
    checksum ∪ single .freeBlockMismatch (total - blocksInUse ≠ bat.freeBlocks) ∪
      single .dataInUnusedArea ((List.range' total (batSize - total)).any (bat.map · ≠ 0))
  else checksum ∪ {.invalidCardSize}

end BlockAlloc

/-! ## The directory -/

structure Directory where
  dirEntries : Vector DEntry dirLen := Vector.replicate dirLen {}
  padding : Vector UInt8 0x3a := Vector.replicate 0x3a 0xFF
  updateCounter : Int := 0
  checksum : UInt16 := swap16 0xF003
  checksumInv : UInt16 := 0

namespace Directory

def calculateChecksums (dir : Directory) : UInt16 × UInt16 :=
  calculateMemcardChecksums (dir.dirEntries.toList.flatMap DEntry.raw ++ dir.padding.toList ++
    rawCounter dir.updateCounter)

def fixChecksums (dir : Directory) : Directory :=
  { dir with checksum := dir.calculateChecksums.1, checksumInv := dir.calculateChecksums.2 }

def checkForErrors (dir : Directory) : GCMemcardErrorCode :=
  single .invalidChecksum (dir.calculateChecksums ≠ (dir.checksum, dir.checksumInv)) ∪
    single .dataInUnusedArea (dir.padding.toList.any (· ≠ 0xFF))

def batBlockCountMatches (bat : BlockAlloc) : Nat → Nat → Bool
  | 0, _ => false
  | remaining + 1, current =>
      let next := bat.getNextBlock current
      if next = 0 then false else if next = 0xFFFF then remaining = 0 else batBlockCountMatches bat remaining next

def checkForErrorsWithBat (dir : Directory) (bat : BlockAlloc) : GCMemcardErrorCode :=
  single .dirBatInconsistent ((List.finRange dirLen).any fun i =>
    dir.dirEntries[i].used && !batBlockCountMatches bat dir.dirEntries[i].blockCount dir.dirEntries[i].firstBlock)

end Directory

/-! ## The card -/

structure Savefile where
  dirEntry : DEntry
  blocks : List GCMBlock

structure Memcard where
  valid : Bool
  sizeBlocks : Nat
  sizeMb : Nat
  headerBlock : Header
  directoryBlocks : Fin 2 → Directory
  batBlocks : Fin 2 → BlockAlloc
  dataBlocks : List GCMBlock
  activeDirectory : Fin 2
  activeBat : Fin 2

inductive GCMemcardImportFileRetVal
  | success
  | noMemcard
  | outOfDirEntries
  | outOfBlocks
  | titlePresent
  deriving DecidableEq, Repr

inductive GCMemcardRemoveFileRetVal
  | success
  | noMemcard
  | deleteFail
  deriving DecidableEq, Repr

namespace Memcard

/-- `Create` for a size in megabits; the file is written. -/
def create (flashId : Vector UInt8 12) (sizeMbits : UInt16) (shiftJis : Bool) (rtcBias sramLanguage : UInt32)
    (formatTime : UInt64) : Memcard where
  valid := true
  sizeBlocks := sizeMbits.toNat * mbitToBlocks
  sizeMb := sizeMbits.toNat
  headerBlock := .create flashId sizeMbits shiftJis rtcBias sramLanguage formatTime
  directoryBlocks := fun _ => {}
  batBlocks := fun _ => .create sizeMbits.toNat
  dataBlocks := List.replicate (sizeMbits.toNat * mbitToBlocks - mcFstBlocks) GCMBlock.erased
  activeDirectory := 0
  activeBat := 0

def getActiveDirectory (card : Memcard) : Directory := card.directoryBlocks card.activeDirectory
def getActiveBat (card : Memcard) : BlockAlloc := card.batBlocks card.activeBat

def updateDirectory (card : Memcard) (directory : Directory) : Memcard :=
  let new : Fin 2 := if card.activeDirectory = 0 then 1 else 0
  { card with directoryBlocks := Function.update card.directoryBlocks new directory, activeDirectory := new }

def updateBat (card : Memcard) (bat : BlockAlloc) : Memcard :=
  let new : Fin 2 := if card.activeBat = 0 then 1 else 0
  { card with batBlocks := Function.update card.batBlocks new bat, activeBat := new }

def fixChecksums (card : Memcard) : Memcard :=
  if card.valid then
    { card with
      headerBlock := card.headerBlock.fixChecksums
      directoryBlocks := fun i => (card.directoryBlocks i).fixChecksums
      batBlocks := fun i => (card.batBlocks i).fixChecksums }
  else card

def getNumFiles (card : Memcard) : Nat :=
  if card.valid then (List.finRange dirLen).countP (fun i => card.getActiveDirectory.dirEntries[i].used) else 0

def titlePresent (card : Memcard) (d : DEntry) : Bool :=
  card.valid && (List.finRange dirLen).any (fun i => card.getActiveDirectory.dirEntries[i].hasSameIdentity d)

/-- The loop of `ImportFile`: `remaining` blocks from the block `i` of the file on, the next one to `firstBlock`. -/
def copyBlocks (sizeBlocks : Nat) (blocks : List GCMBlock) :
    (remaining i firstBlock : Nat) → BlockAlloc → List GCMBlock → BlockAlloc × List GCMBlock
  | 0, _, _, bat, data => (bat, data)
  | remaining + 1, i, firstBlock, bat, data =>
      let data := data.set (firstBlock - mcFstBlocks) (blocks.getD i GCMBlock.erased)
      let nextBlock := if remaining = 0 then 0xFFFF else bat.nextFreeBlock sizeBlocks (firstBlock + 1)
      let bat := { bat with
        map := Function.update bat.map (firstBlock - mcFstBlocks) nextBlock
        lastAllocatedBlock := firstBlock }
      copyBlocks sizeBlocks blocks remaining (i + 1) nextBlock bat data

def newEntry (direntry : DEntry) (firstBlock : Nat) : DEntry :=
  { direntry with firstBlock := firstBlock, copyCounter := direntry.copyCounter + 1 }

def validBlocks (card : Memcard) (savefile : Savefile) : List GCMBlock :=
  psoMakeSaveGameValid card.headerBlock savefile.dirEntry
    (fzerogxMakeSaveGameValid card.headerBlock savefile.dirEntry savefile.blocks)

def importFile (card : Memcard) (savefile : Savefile) : GCMemcardImportFileRetVal × Memcard :=
  let direntry := savefile.dirEntry
  if !card.valid then (.noMemcard, card)
  else if card.getNumFiles ≥ dirLen then (.outOfDirEntries, card)
  else if card.getActiveBat.freeBlocks < direntry.blockCount then (.outOfBlocks, card)
  else if card.titlePresent direntry then (.titlePresent, card)
  else
    let firstBlock := card.getActiveBat.nextFreeBlock card.sizeBlocks card.getActiveBat.lastAllocatedBlock
    if firstBlock = 0xFFFF then (.outOfBlocks, card)
    else
      let dir := card.getActiveDirectory
      let entries := match (List.finRange dirLen).find? (fun i => !dir.dirEntries[i].used) with
        | some i => dir.dirEntries.set i (newEntry direntry firstBlock)
        | none => dir.dirEntries
      let dir := { dir with dirEntries := entries, updateCounter := nextCounter dir.updateCounter }
      let blocks := card.validBlocks savefile
      let (bat, data) := copyBlocks card.sizeBlocks blocks direntry.blockCount 0 firstBlock card.getActiveBat
        card.dataBlocks
      let bat := { bat with
        freeBlocks := bat.freeBlocks - direntry.blockCount
        updateCounter := nextCounter bat.updateCounter }
      (.success, (({ card.updateDirectory dir with dataBlocks := data } : Memcard).updateBat bat).fixChecksums)

def dEntryFirstBlock (card : Memcard) (index : Fin dirLen) : Nat :=
  let block := card.getActiveDirectory.dirEntries[index].firstBlock
  if !card.valid || block > card.sizeBlocks then 0xFFFF else block

def dEntryBlockCount (card : Memcard) (index : Fin dirLen) : Nat :=
  let blocks := card.getActiveDirectory.dirEntries[index].blockCount
  if !card.valid || blocks > card.sizeBlocks then 0xFFFF else blocks

def readBlocks (card : Memcard) : Nat → Nat → Option (List GCMBlock)
  | 0, _ => some []
  | remaining + 1, nextBlock =>
      if nextBlock = 0 ∨ nextBlock = 0xFFFF then none
      else (card.readBlocks remaining (card.getActiveBat.getNextBlock nextBlock)).map
        ((card.dataBlocks.getD (nextBlock - mcFstBlocks) GCMBlock.erased) :: ·)

def getSaveData (card : Memcard) (index : Fin dirLen) : Option (List GCMBlock) :=
  let block := card.dEntryFirstBlock index
  let blockCount := card.dEntryBlockCount index
  if !card.valid || block = 0xFFFF || blockCount = 0xFFFF then none else card.readBlocks blockCount block

/-- `ExportFile` for an index of the directory; every other index gives nothing. -/
def exportFile (card : Memcard) (index : Fin dirLen) : Option Savefile :=
  let dirEntry := card.getActiveDirectory.dirEntries[index]
  if !card.valid || !dirEntry.used then none
  else (card.getSaveData index).map fun blocks => ⟨dirEntry, blocks⟩

def removeFile (card : Memcard) (index : Nat) : GCMemcardRemoveFileRetVal × Memcard :=
  if !card.valid then (.noMemcard, card)
  else if h : index < dirLen then
    let entry := card.getActiveDirectory.dirEntries[index]
    match card.getActiveBat.clearBlocks entry.firstBlock entry.blockCount with
    | none => (.deleteFail, card)
    | some bat =>
        let card := card.updateBat { bat with updateCounter := nextCounter bat.updateCounter }
        let dir := card.getActiveDirectory
        let dir := { dir with
          dirEntries := dir.dirEntries.set index {}
          updateCounter := nextCounter dir.updateCounter }
        (.success, (card.updateDirectory dir).fixChecksums)
  else (.deleteFail, card)

end Memcard

/-! ## Files -/

structure CardFile where
  headerBlock : Header
  directoryBlocks : Fin 2 → Directory
  batBlocks : Fin 2 → BlockAlloc
  dataBlocks : List GCMBlock

def CardFile.size (f : CardFile) : Nat := (mcFstBlocks + f.dataBlocks.length) * 0x2000

def bytesToMegabits (bytes : Nat) : Option Nat :=
  let factor := 1024 * 1024 / 8
  if bytes % factor ≠ 0 then none else some (bytes / factor)

def validMegabits : List Nat := [0x04, 0x08, 0x10, 0x20, 0x40, 0x80]

def Header.checkForErrors (h : Header) (cardSizeMbits : Nat) : GCMemcardErrorCode :=
  single .mismatchedCardSize (h.data.sizeMb.toNat ≠ cardSizeMbits) ∪
    single .dataInUnusedArea (h.unused1.toList.any (· ≠ 0xFF) || h.unused2.toList.any (· ≠ 0xFF)) ∪
    single .invalidChecksum (h.calculateChecksums ≠ (h.checksum, h.checksumInv))

namespace Memcard

def save (card : Memcard) : CardFile where
  headerBlock := card.headerBlock
  directoryBlocks := card.directoryBlocks
  batBlocks := card.batBlocks
  dataBlocks := (List.range (card.sizeBlocks - mcFstBlocks)).map (card.dataBlocks.getD · GCMBlock.erased)

def repairDirectory (dirs : Fin 2 → Directory) : Fin 2 → Directory :=
  let corrupted (i : Fin 2) : Bool := (dirs i).checkForErrors.hasCriticalErrors
  let copy (d : Directory) : Directory := { d with updateCounter := nextCounter d.updateCounter }.fixChecksums
  if corrupted 0 then Function.update dirs 0 (copy (dirs 1))
  else if corrupted 1 then Function.update dirs 1 (copy (dirs 0))
  else dirs

def repairBat (sizeMbits : Nat) (bats : Fin 2 → BlockAlloc) : Fin 2 → BlockAlloc :=
  let corrupted (i : Fin 2) : Bool := ((bats i).checkForErrors sizeMbits).hasCriticalErrors
  let copy (b : BlockAlloc) : BlockAlloc := { b with updateCounter := nextCounter b.updateCounter }.fixChecksums
  if corrupted 0 then Function.update bats 0 (copy (bats 1))
  else if corrupted 1 then Function.update bats 1 (copy (bats 0))
  else bats

/-- `Open`. When one of the four blocks is corrupted, only that one is repaired, so that the errors at the end are
those of the blocks that the card then has. -/
def openFile (f : CardFile) : GCMemcardErrorCode × Option Memcard :=
  let mbits := (bytesToMegabits f.size).getD 0
  if mbits ∉ validMegabits then ({.invalidCardSize}, none)
  else
    let sizeBlocks := mbits * mbitToBlocks
    let headerErrors := f.headerBlock.checkForErrors mbits
    let errors (dirs : Fin 2 → Directory) (bats : Fin 2 → BlockAlloc) : GCMemcardErrorCode :=
      headerErrors ∪ (dirs 0).checkForErrors ∪ (dirs 1).checkForErrors ∪ (bats 0).checkForErrors mbits ∪
        (bats 1).checkForErrors mbits
    if headerErrors.hasCriticalErrors then (headerErrors, none)
    else
      let corrupted := [(f.directoryBlocks 0).checkForErrors, (f.directoryBlocks 1).checkForErrors,
        (f.batBlocks 0).checkForErrors mbits, (f.batBlocks 1).checkForErrors mbits].countP
          GCMemcardErrorCode.hasCriticalErrors
      if corrupted > 1 then (errors f.directoryBlocks f.batBlocks, none)
      else
        let dirs := repairDirectory f.directoryBlocks
        let bats := repairBat mbits f.batBlocks
        let card : Memcard :=
          { valid := true
            sizeBlocks := sizeBlocks
            sizeMb := mbits
            headerBlock := f.headerBlock
            directoryBlocks := dirs
            batBlocks := bats
            dataBlocks := f.dataBlocks.take (sizeBlocks - mcFstBlocks)
            activeDirectory := if (dirs 0).updateCounter ≥ (dirs 1).updateCounter then 0 else 1
            activeBat := if (bats 0).updateCounter ≥ (bats 1).updateCounter then 0 else 1 }
        let errors := errors dirs bats ∪ card.getActiveDirectory.checkForErrorsWithBat card.getActiveBat
        if errors.hasCriticalErrors then (errors, none) else (errors, some card)

/-! ## What holds of a card -/

/-- Followed with `GetNextBlock` from `first` on, the chain visits the blocks of the list, all of them data blocks of
the card, and ends. -/
def Follows (bat : BlockAlloc) (sizeBlocks : Nat) : Nat → List Nat → Prop
  | first, [] => first = 0xFFFF
  | first, b :: bs => first = b ∧ mcFstBlocks ≤ b ∧ b < sizeBlocks ∧ Follows bat sizeBlocks (bat.getNextBlock b) bs

/-- Every file has its own chain with as many blocks as its entry says, and no other block is allocated. -/
structure Chains (sizeBlocks : Nat) (dir : Directory) (bat : BlockAlloc) (chain : Fin dirLen → List Nat) : Prop where
  follows : ∀ i, dir.dirEntries[i].used = true → Follows bat sizeBlocks dir.dirEntries[i].firstBlock (chain i)
  length : ∀ i, dir.dirEntries[i].used = true → (chain i).length = dir.dirEntries[i].blockCount
  nodup : ∀ i, dir.dirEntries[i].used = true → (chain i).Nodup
  disjoint : ∀ i j, dir.dirEntries[i].used = true → dir.dirEntries[j].used = true → i ≠ j →
    (chain i).Disjoint (chain j)
  covered : ∀ k, bat.map k ≠ 0 → ∃ i, dir.dirEntries[i].used = true ∧ k + mcFstBlocks ∈ chain i

def freeCount (sizeBlocks : Nat) (bat : BlockAlloc) : Nat :=
  (List.range (sizeBlocks - mcFstBlocks)).countP (bat.map · = 0)

structure Consistent (card : Memcard) : Prop where
  chains : ∃ chain, Chains card.sizeBlocks card.getActiveDirectory card.getActiveBat chain
  free : card.getActiveBat.freeBlocks = freeCount card.sizeBlocks card.getActiveBat
  reopened : ∃ card', openFile card.save = (∅, some card') ∧ card'.getActiveDirectory = card.getActiveDirectory ∧
    card'.getActiveBat = card.getActiveBat ∧ card'.dataBlocks = card.dataBlocks

def rewritten (direntry : DEntry) (block byte : Nat) : Bool :=
  let within (offset length : Nat) : Bool := offset ≤ byte && byte < offset + length
  (direntry.filenameIs "f_zero.dat" && (block = 0 && within 0 2 ||
      block = 1 && (within 0x0066 2 || within 0x0060 2 || within 0x0200 2) || block = 3 && within 0x1580 2)) ||
    ((direntry.filenameIs "PSO_SYSTEM" || direntry.filenameIs "PSO3_SYSTEM") && block = 1 &&
      (within 0x0158 4 || within 0x015C 4 || within 0x0048 4))

/-! ## Calls in any order -/

inductive Call
  | importFile (savefile : Savefile)
  | removeFile (index : Nat)

/-- The save files that may be imported: the file has the blocks that its entry says, and the fix-up for a system file
of PSO finds its second block. -/
def Call.Allowed : Call → Prop
  | .importFile savefile => savefile.blocks.length = savefile.dirEntry.blockCount ∧ 1 ≤ savefile.blocks.length ∧
      savefile.dirEntry.used = true ∧
      ((savefile.dirEntry.filenameIs "PSO_SYSTEM" || savefile.dirEntry.filenameIs "PSO3_SYSTEM") = true →
        2 ≤ savefile.blocks.length)
  | .removeFile _ => True

/-- An imported file is exported as it was, and no call changes what is exported for another index. -/
structure KeepsFiles (card : Memcard) : Prop where
  imported : ∀ savefile, (Call.importFile savefile).Allowed → (card.importFile savefile).1 = .success →
    ∃ k firstBlock blocks, card.getActiveDirectory.dirEntries[k].used = false ∧
      (∀ j, j ≠ k → (card.importFile savefile).2.getActiveDirectory.dirEntries[j] =
        card.getActiveDirectory.dirEntries[j]) ∧
      (card.importFile savefile).2.exportFile k = some
        ⟨{ savefile.dirEntry with
            firstBlock := firstBlock
            copyCounter := savefile.dirEntry.copyCounter + 1 }, blocks⟩ ∧
      blocks.length = savefile.blocks.length ∧
      ∀ i (byte : Fin 0x2000), rewritten savefile.dirEntry i byte.1 = false →
        blocks.getD i GCMBlock.erased byte = savefile.blocks.getD i GCMBlock.erased byte
  import_frame : ∀ savefile, (Call.importFile savefile).Allowed → (card.importFile savefile).1 = .success →
    ∀ j, card.getActiveDirectory.dirEntries[j].used = true →
      (card.importFile savefile).2.exportFile j = card.exportFile j
  remove_frame : ∀ (index : Nat) (j : Fin dirLen), j.1 ≠ index → card.getActiveDirectory.dirEntries[j].used = true →
    (card.removeFile index).2.exportFile j = card.exportFile j

def call (card : Memcard) : Call → Memcard
  | .importFile savefile => (card.importFile savefile).2
  | .removeFile index => (card.removeFile index).2

end Memcard

end Karphin.GCMemcard
