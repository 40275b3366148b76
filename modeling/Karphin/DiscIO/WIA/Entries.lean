import Karphin.DiscIO.Sector.Lemmas.Cache
import Karphin.DiscIO.Scrubber.Lemmas.Marks
import Karphin.Lib.Tiling

/-!
# WIA and RVZ

What is stored for one chunk of a disc image.
-/

namespace Karphin.DiscIO

def blockTotalSize : Nat := 0x8000

abbrev WiiKey := Vector UInt8 16

/-- `GroupEntry`. The offset is in units of four bytes; only RVZ has a packed size. -/
structure GroupEntry where
  dataOffset : Nat
  dataSize : Nat
  rvzPackedSize : Nat := 0
  deriving DecidableEq

structure ReuseID where
  partitionKey : WiiKey
  dataSize : Nat
  encrypted : Bool
  value : UInt8
  deriving DecidableEq

structure OutputParametersEntry where
  exceptionLists : List UInt8 := []
  mainData : List UInt8 := []
  reuseId : Option ReuseID := none
  reusedGroup : Option GroupEntry := none
  rvzPackedSize : Nat := 0
  compressed : Bool := false

end Karphin.DiscIO

/-!
# The data entries of WIA and RVZ

`SetUpDataEntriesForWriting`, and the loop of `Convert` that reads the disc image by them. What the loop hands to the
compressor is left out. Values of 64 and of 32 bits are cut off where they can overflow.
-/

namespace Karphin.DiscIO.WIARVZ

open Lib
open Scrubbing (Volume FileInfo alignDown)

def groupTotalSize : Nat := 0x200000

/-- `sizeof(WIAHeader2::disc_header)` -/
def discHeaderSize : Nat := 0x80

structure VolumeDisc extends Volume where
  hasWiiEncryption : Bool
  /-- the title key of a ticket that is valid -/
  getTitleKey : (partition : Nat) → Option WiiKey
  offsetShift_le : offsetShift ≤ 2
  /-- the offsets are words of the partition tables, shifted by two bits -/
  partition_lt : ∀ partition ∈ getPartitions, partition < 2 ^ 34

def isDiscImageBlockSizeValid (blockSize : Nat) (rvz : Bool) : Bool :=
  if rvz then
    !(blockSize < 0x8000 || (blockSize < 0x200000 && !(blockSize > 0 && blockSize &&& (blockSize - 1) = 0)) ||
      (blockSize > 0x200000 && blockSize % 0x200000 ≠ 0))
  else !(blockSize < 0x200000 || blockSize % 0x200000 ≠ 0)

def alignUp (value size : Nat) : Nat := alignDown ((value + (size - 1)) % 2 ^ 64) size

def sub64 (a b : Nat) : Nat := (a + 2 ^ 64 - b) % 2 ^ 64

/-! ## The tables -/

structure RawDataEntry where
  dataOffset : Nat
  dataSize : Nat
  groupIndex : Nat
  numberOfGroups : Nat
  deriving DecidableEq

structure PartitionDataEntry where
  firstSector : Nat
  numberOfSectors : Nat
  groupIndex : Nat
  numberOfGroups : Nat
  deriving DecidableEq

structure PartitionEntry where
  partitionKey : WiiKey
  dataEntries : Vector PartitionDataEntry 2

structure DataEntry where
  index : Nat
  isPartition : Bool := false
  partitionDataIndex : Fin 2 := 0
  deriving DecidableEq

structure Entries where
  totalGroups : Nat := 0
  partitionEntries : List PartitionEntry := []
  rawDataEntries : List RawDataEntry := []
  dataEntries : List DataEntry := []
  partitionFileSystems : List (Option (List FileInfo)) := []

/-! ## `SetUpDataEntriesForWriting` -/

def addRawDataEntry (chunkSize : Nat) (s : Entries) (offset size : Nat) : Entries :=
  let skip := if offset < discHeaderSize then min (discHeaderSize - offset) size else 0
  let offset := offset + skip
  let size := size - skip
  if size = 0 then s
  else
    let groups := alignUp size chunkSize / chunkSize % 2 ^ 32
    { s with
      totalGroups := (s.totalGroups + groups) % 2 ^ 32
      dataEntries := s.dataEntries ++ [{ index := s.rawDataEntries.length }]
      rawDataEntries := s.rawDataEntries ++ [⟨offset, size, s.totalGroups, groups⟩] }

def createPartitionDataEntry (chunkSize : Nat) (s : Entries) (offset size : Nat) (index : Fin 2) :
    PartitionDataEntry × Entries :=
  let roundedSize := alignDown size blockTotalSize
  let groups := alignUp roundedSize chunkSize / chunkSize % 2 ^ 32
  (⟨offset / blockTotalSize % 2 ^ 32, size / blockTotalSize % 2 ^ 32, s.totalGroups, groups⟩,
    { s with
      totalGroups := (s.totalGroups + groups) % 2 ^ 32
      dataEntries := s.dataEntries ++ [⟨s.partitionEntries.length, true, index⟩] })

def addPartition (volume : VolumeDisc) (chunkSize : Nat) (last : Nat) (s : Entries)
    (partition dataOffset dataEnd fstEnd : Nat) (titleKey : WiiKey) : Nat × Entries :=
  let dataStart := partition + dataOffset
  let s := addRawDataEntry chunkSize s last (partition - last)
  let s := addRawDataEntry chunkSize s partition dataOffset
  let splitPoint := min dataEnd (alignUp (fstEnd - dataStart) groupTotalSize + dataStart)
  let (entry0, s) := createPartitionDataEntry chunkSize s dataStart (splitPoint - dataStart) 0
  let (entry1, s) := createPartitionDataEntry chunkSize s splitPoint (dataEnd - splitPoint) 1
  ((entry1.firstSector + entry1.numberOfSectors) % 2 ^ 32 * blockTotalSize,
    { s with
      partitionEntries := s.partitionEntries ++ [⟨titleKey, #v[entry0, entry1]⟩]
      partitionFileSystems := s.partitionFileSystems ++ [volume.getFileSystem (some partition)] })

/-- The body of the loop over the partitions; `none` when something cannot be read. The state is
`last_partition_end_offset` with the tables. -/
def setUpPartition (volume : VolumeDisc) (chunkSize : Nat) (state : Nat × Entries) (partition : Nat) :
    Option (Nat × Entries) :=
  if partition < state.1 then some state
  else if volume.readSwapped partition none ≠ some 0x10001 then some state
  else do
    let dataOffset ← volume.readSwappedAndShifted (partition + 0x2b8) none
    let dataSize ← volume.readSwappedAndShifted (partition + 0x2bc) none
    let dataStart := partition + dataOffset
    let dataEnd := dataStart + dataSize
    if dataStart % blockTotalSize ≠ 0 then some state
    else if dataSize < blockTotalSize then some state
    else do
      -- of a partition that is too large only `data_size` is clipped, which nothing reads any more
      let fstOffset ← volume.getFSTOffset (some partition)
      let fstSize ← volume.getFSTSize (some partition)
      let titleKey ← volume.getTitleKey partition
      let fstEnd := volume.partitionOffsetToRawOffset (fstOffset + fstSize) (some partition)
      some (addPartition volume chunkSize state.1 state.2 partition dataOffset dataEnd fstEnd titleKey)

/-- The partitions in the order of their offsets; a disc without hashes or encryption is not looked at. -/
def sortedPartitions : Option VolumeDisc → List Nat
  | none => []
  | some volume =>
      if volume.hasWiiHashes && volume.hasWiiEncryption then volume.getPartitions.insertionSort (· ≤ ·) else []

def setUpDataEntriesForWriting (volume : Option VolumeDisc) (chunkSize isoSize : Nat) : Option Entries := do
  let (last, s) ← match volume with
    | none => some (0, {})
    | some disc => (sortedPartitions volume).foldlM (setUpPartition disc chunkSize) (0, {})
  return addRawDataEntry chunkSize s last (sub64 isoSize last)

/-! ## The loop of `Convert` -/

structure StoredExtent extends Extent where
  isPartition : Bool
  groupIndex : Nat
  numberOfGroups : Nat
  deriving DecidableEq

namespace Entries

def extentOf (s : Entries) (entry : DataEntry) : Option StoredExtent :=
  if entry.isPartition then
    s.partitionEntries[entry.index]?.map fun partition =>
      let data := partition.dataEntries[entry.partitionDataIndex]
      ⟨⟨data.firstSector * blockTotalSize, data.numberOfSectors * blockTotalSize⟩, true, data.groupIndex,
        data.numberOfGroups⟩
  else s.rawDataEntries[entry.index]?.map fun data =>
    ⟨⟨data.dataOffset, data.dataSize⟩, false, data.groupIndex, data.numberOfGroups⟩

def extents (s : Entries) : List StoredExtent := s.dataEntries.filterMap s.extentOf

end Entries

/-- Why the loop does not come to its end. -/
inductive Stop
  | readFailed
  | assertionFailed
  | neverEnds
  deriving DecidableEq, Repr

structure Progress where
  bytesRead : Nat
  groupsProcessed : Nat
  deriving DecidableEq

/-- The loop over the groups of an entry, and how much of the entry is left. Each round that reads something processes
a group, so that a loop that has not ended after `fuel` rounds reads nothing any more. -/
def readGroups (isoSize chunkSize stride lastGroup : Nat) :
    (fuel : Nat) → Progress → (dataOffset dataSize : Nat) → Except Stop (Progress × Nat)
  | 0, p, _, dataSize => if p.groupsProcessed < lastGroup then .error .neverEnds else .ok (p, dataSize)
  | fuel + 1, p, dataOffset, dataSize =>
      if p.groupsProcessed < lastGroup then
        let bytesToRead := min stride (sub64 ((dataOffset + dataSize) % 2 ^ 64) p.bytesRead)
        if isoSize < p.bytesRead + bytesToRead then .error .readFailed
        else
          readGroups isoSize chunkSize stride lastGroup fuel
            ⟨p.bytesRead + bytesToRead, p.groupsProcessed + alignUp bytesToRead chunkSize / chunkSize⟩
            (dataOffset + bytesToRead) (sub64 dataSize bytesToRead)
      else .ok (p, dataSize)

def convertEntry (isoSize chunkSize : Nat) (p : Progress) (e : StoredExtent) : Except Stop Progress :=
  let lastGroup := (e.groupIndex + e.numberOfGroups) % 2 ^ 32
  let skippedData := if e.isPartition then 0 else e.offset % blockTotalSize
  let dataOffset := e.offset - skippedData
  let dataSize := (e.size + skippedData) % 2 ^ 64
  let stride := if e.isPartition then max chunkSize groupTotalSize else chunkSize
  if p.groupsProcessed ≠ e.groupIndex ∨ p.bytesRead ≠ dataOffset then .error .assertionFailed
  else
    match readGroups isoSize chunkSize stride lastGroup (lastGroup - p.groupsProcessed) p dataOffset dataSize with
    | .error stop => .error stop
    | .ok (p, dataSize) => if dataSize = 0 then .ok p else .error .assertionFailed

def convert (isoSize chunkSize : Nat) (s : Entries) : Except Stop Progress :=
  -- the disc header is read first
  if isoSize < discHeaderSize then .error .readFailed
  else
    match s.extents.foldlM (convertEntry isoSize chunkSize) ⟨0, 0⟩ with
    | .error stop => .error stop
    | .ok p =>
        if p.groupsProcessed ≠ s.totalGroups ∨ p.bytesRead ≠ isoSize then .error .assertionFailed else .ok p

end Karphin.DiscIO.WIARVZ
