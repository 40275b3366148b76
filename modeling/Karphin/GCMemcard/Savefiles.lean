import Karphin.GCMemcard.Defs

/-!
# Save files and card images that nobody has checked

`ReadSavefile` for the three formats, and which blocks `ExportFile` reads from a card and `ImportFile` from a save
file.
-/

namespace Karphin.GCMemcard

/-! ## `ReadSavefile` -/

def blockSize : Nat := 0x2000
def dentrySize : Nat := 0x40
def savMagic : List UInt8 := [0x44, 0x41, 0x54, 0x45, 0x4C, 0x47, 0x43, 0x5F, 0x53, 0x41, 0x56, 0x45]
def savHeaderSize : Nat := 0xC0
def savDentryOffset : Nat := 0x80
def gcsMagic : List UInt8 := [0x47, 0x43, 0x53, 0x41, 0x56, 0x45]
def gcsHeaderSize : Nat := 0x150
def gcsDentryOffset : Nat := 0x110

inductive ReadSavefileErrorCode
  | openFileFail
  | ioError
  | dataCorrupted
  deriving DecidableEq, Repr

def bytesAt (n : Nat) (bytes : List UInt8) (offset : Nat) : Vector UInt8 n :=
  Vector.ofFn fun i : Fin n => bytes.getD (offset + i) 0

def u16At (bytes : List UInt8) (offset : Nat) : UInt16 :=
  ((bytes.getD offset 0).toUInt16 <<< 8) ||| (bytes.getD (offset + 1) 0).toUInt16

def u32At (bytes : List UInt8) (offset : Nat) : UInt32 :=
  ((u16At bytes offset).toUInt32 <<< 16) ||| (u16At bytes (offset + 2)).toUInt32

def DEntry.ofBytes (bytes : List UInt8) : DEntry where
  gamecode := bytesAt 4 bytes 0x00
  makercode := bytesAt 2 bytes 0x04
  unused1 := bytes.getD 0x06 0
  bannerAndIconFlags := bytes.getD 0x07 0
  filename := bytesAt 32 bytes 0x08
  modificationTime := u32At bytes 0x28
  imageOffset := u32At bytes 0x2C
  iconFormat := u16At bytes 0x30
  animationSpeed := u16At bytes 0x32
  filePermissions := bytes.getD 0x34 0
  copyCounter := bytes.getD 0x35 0
  firstBlock := (u16At bytes 0x36).toNat
  blockCount := (u16At bytes 0x38).toNat
  unused2 := bytesAt 2 bytes 0x3A
  commentsAddress := u32At bytes 0x3C

def GCMBlock.ofBytes (bytes : List UInt8) : GCMBlock := fun i => bytes.getD i 0

/-- The loop of `ReadBlocksFromIOFile`; `none` when the file ends. -/
def readBlocksFromIOFile : Nat → List UInt8 → Option (List GCMBlock)
  | 0, _ => some []
  | count + 1, file =>
      if file.length < blockSize then none
      else (readBlocksFromIOFile count (file.drop blockSize)).map (GCMBlock.ofBytes (file.take blockSize) :: ·)

def readBlocks (file : List UInt8) (headerSize blockCount : Nat) (dirEntry : DEntry) :
    Except ReadSavefileErrorCode Savefile :=
  match readBlocksFromIOFile blockCount (file.drop headerSize) with
  | none => .error .ioError
  | some blocks => .ok ⟨dirEntry, blocks⟩

def readSavefileInternalGCI (file : List UInt8) : Except ReadSavefileErrorCode Savefile :=
  if file.length < dentrySize then .error .ioError
  else
    let dirEntry := DEntry.ofBytes file
    if dentrySize + dirEntry.blockCount * blockSize ≠ file.length then .error .dataCorrupted
    else readBlocks file dentrySize dirEntry.blockCount dirEntry

/-- The number of blocks is that of the file; the entry has 16 bits for it. -/
def readSavefileInternalGCS (file : List UInt8) : Except ReadSavefileErrorCode Savefile :=
  if file.length < gcsHeaderSize then .error .ioError
  else if file.take gcsMagic.length ≠ gcsMagic then .error .dataCorrupted
  else
    let totalBlockSize := file.length - gcsHeaderSize
    if totalBlockSize % blockSize ≠ 0 then .error .dataCorrupted
    else
      let blockCount := totalBlockSize / blockSize
      readBlocks file gcsHeaderSize blockCount
        { DEntry.ofBytes (file.drop gcsDentryOffset) with blockCount := blockCount % 65536 }

/-- `std::swap` of a byte with the next. -/
def swapPair (entry : List UInt8) (p : Nat) : List UInt8 :=
  (entry.set p (entry.getD (p + 1) 0)).set (p + 1) (entry.getD p 0)

def byteswapDEntrySavHeader (entry : List UInt8) : List UInt8 :=
  [0x06, 0x2C, 0x2E, 0x30, 0x32, 0x34, 0x36, 0x38, 0x3A, 0x3C, 0x3E].foldl swapPair entry

def extractDEntryFromSavHeader (file : List UInt8) : DEntry :=
  DEntry.ofBytes (byteswapDEntrySavHeader ((file.drop savDentryOffset).take dentrySize))

def readSavefileInternalSAV (file : List UInt8) : Except ReadSavefileErrorCode Savefile :=
  if file.length < savHeaderSize then .error .ioError
  else if file.take savMagic.length ≠ savMagic then .error .dataCorrupted
  else
    let dirEntry := extractDEntryFromSavHeader file
    if savHeaderSize + dirEntry.blockCount * blockSize ≠ file.length then .error .dataCorrupted
    else readBlocks file savHeaderSize dirEntry.blockCount dirEntry

def readSavefile (file : List UInt8) : Except ReadSavefileErrorCode Savefile :=
  if file.length % blockSize = dentrySize then readSavefileInternalGCI file
  else if file.length % blockSize = gcsHeaderSize then readSavefileInternalGCS file
  else if file.length % blockSize = savHeaderSize then readSavefileInternalSAV file
  else .error .dataCorrupted

/-! ## Which blocks are looked at -/

def DEntry.isPsoSystem (e : DEntry) : Bool := e.filenameIs "PSO_SYSTEM" || e.filenameIs "PSO3_SYSTEM"

/-- The indexes into the blocks of a save file that an import uses: in the fix-ups and in the loop that copies. -/
def Savefile.usedIndexes (savefile : Savefile) : List Nat :=
  (if savefile.dirEntry.filenameIs "f_zero.dat" && savefile.blocks.length = 4 then [0, 1, 2, 3] else []) ++
    (if savefile.dirEntry.isPsoSystem then [1] else []) ++ List.range savefile.dirEntry.blockCount

def BlockAlloc.followed (bat : BlockAlloc) : Nat → Nat → List Nat
  | 0, _ => []
  | remaining + 1, nextBlock =>
      if nextBlock = 0 ∨ nextBlock = 0xFFFF then []
      else nextBlock :: bat.followed remaining (bat.getNextBlock nextBlock)

def BlockAlloc.onCard (bat : BlockAlloc) (sizeBlocks : Nat) : BlockAlloc :=
  { bat with map := fun k => if k < sizeBlocks - mcFstBlocks then bat.map k else 0 }

namespace Memcard

def followedBlocks (card : Memcard) (index : Fin dirLen) : List Nat :=
  let block := card.dEntryFirstBlock index
  let blockCount := card.dEntryBlockCount index
  if !card.valid || block = 0xFFFF || blockCount = 0xFFFF then [] else card.getActiveBat.followed blockCount block

def exportedBlocks (card : Memcard) (index : Fin dirLen) : List Nat :=
  if !card.valid || !(getElem card.getActiveDirectory.dirEntries index index.isLt).used then [] else card.followedBlocks index

/-- `DEntry_FirstBlock` or `DEntry_BlockCount` gives no value. -/
def rejectsEntry (card : Memcard) (index : Fin dirLen) : Bool :=
  (getElem card.getActiveDirectory.dirEntries index index.isLt).firstBlock > card.sizeBlocks ||
    (getElem card.getActiveDirectory.dirEntries index index.isLt).blockCount > card.sizeBlocks

def Valid (card : Memcard) : Prop := openFile card.save = (∅, some card)

def SameContents (card card' : Memcard) : Prop :=
  card'.headerBlock = card.headerBlock ∧ card'.directoryBlocks = card.directoryBlocks ∧
    card'.batBlocks = card.batBlocks ∧ card'.dataBlocks = card.dataBlocks

/-- An import fails and changes nothing, or it succeeds, uses blocks of the save file only, and leaves a card that is
opened without an error. -/
def ImportSafe (card : Memcard) (savefile : Savefile) : Prop :=
  ((card.importFile savefile).1 ≠ .success ∧ card.SameContents (card.importFile savefile).2) ∨
    ((card.importFile savefile).1 = .success ∧ (∀ i ∈ savefile.usedIndexes, i < savefile.blocks.length) ∧
      ∃ card', openFile (card.importFile savefile).2.save = (∅, some card'))

/-- The directory is full, there are not enough blocks, or none, or the title is there. -/
def refuses (card : Memcard) (savefile : Savefile) : Bool :=
  card.getNumFiles ≥ dirLen || card.getActiveBat.freeBlocks < savefile.dirEntry.blockCount ||
    card.titlePresent savefile.dirEntry || card.getActiveBat.freeBlocks = 0

end Memcard

end Karphin.GCMemcard
