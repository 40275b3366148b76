import Karphin.Lib.FinNumerals

/-!
# Scrubbing

`DiscScrubber` finds the clusters of a disc that have no used data. All offsets and sizes come from 32-bit fields of the
disc, shifted by two bits at most, so that no sum of them exceeds 64 bits; sums of 32-bit variables are cut off.
-/

namespace Karphin.DiscIO.Scrubbing

def clusterSize : Nat := 0x8000

def blockDataSize : Nat := 0x7C00

def alignDown (value size : Nat) : Nat := value - value % size

/-! ## Volumes -/

inductive FileInfo where
  | file (offset size : Nat)
  | directory (children : List FileInfo)

/-- The volume that is scrubbed. A partition is given by its offset, `PARTITION_NONE` by `none`. -/
structure Volume where
  isDisc : Bool := true
  hasWiiHashes : Bool
  offsetShift : Nat
  dataSize : Nat
  getPartitions : List Nat
  readSwapped : (offset : Nat) → (partition : Option Nat) → Option UInt32
  /-- the entries of the root directory -/
  getFileSystem : (partition : Option Nat) → Option (List FileInfo)

namespace Volume

variable (disc : Volume)

def readFromVolume (offset : Nat) (partition : Option Nat) : Option Nat :=
  (disc.readSwapped offset partition).map (·.toNat)

def readSwappedAndShifted (offset : Nat) (partition : Option Nat) : Option Nat :=
  (disc.readSwapped offset partition).map (·.toNat <<< disc.offsetShift)

def getApploaderSize (partition : Option Nat) : Option Nat := do
  let apploaderSize ← disc.readFromVolume (0x2440 + 0x14) partition
  let trailerSize ← disc.readFromVolume (0x2440 + 0x18) partition
  return 0x20 + apploaderSize + trailerSize

def getBootDOLOffset (partition : Option Nat) : Option Nat :=
  if disc.isDisc then
    match disc.readSwappedAndShifted 0x420 partition with
    | some 0 => none
    | dolOffset => dolOffset
  else none

def dolSizeLoop (partition : Option Nat) (offsets sizes : Nat) : (segments : List Nat) → UInt32 → Option UInt32
  | [], dolSize => some dolSize
  | i :: segments, dolSize => do
      let offset ← disc.readSwapped (offsets + i * 4) partition
      let size ← disc.readSwapped (sizes + i * 4) partition
      dolSizeLoop partition offsets sizes segments (max (offset + size) dolSize)

def getBootDOLSize (partition : Option Nat) (dolOffset : Nat) : Option Nat :=
  if disc.isDisc then do
    let dolSize ← disc.dolSizeLoop partition (dolOffset + 0x00) (dolOffset + 0x90) (List.range 7) 0
    let dolSize ← disc.dolSizeLoop partition (dolOffset + 0x1c) (dolOffset + 0xac) (List.range 11) dolSize
    return dolSize.toNat
  else none

def getFSTOffset (partition : Option Nat) : Option Nat :=
  if disc.isDisc then disc.readSwappedAndShifted 0x424 partition else none

def getFSTSize (partition : Option Nat) : Option Nat :=
  if disc.isDisc then disc.readSwappedAndShifted 0x428 partition else none

def partitionDataOffset : (partition : Option Nat) → Option Nat
  | none => some 0
  | some partition => (disc.readSwappedAndShifted (partition + 0x2b8) none).map (partition + ·)

def partitionOffsetToRawOffset (offset : Nat) : (partition : Option Nat) → Nat
  | none => offset
  | some partition =>
      let dataOffset := (disc.readSwappedAndShifted (partition + 0x2b8) none).getD 0
      if disc.hasWiiHashes then
        partition + dataOffset + offset / blockDataSize * clusterSize + offset % blockDataSize
      else partition + dataOffset + offset

end Volume

/-! ## The scrubber -/

structure DiscScrubber where
  freeTable : List Bool
  fileSize : Nat
  hasWiiHashes : Bool
  isScrubbing : Bool := false

namespace DiscScrubber

def canBlockBeScrubbed (s : DiscScrubber) (offset : Nat) : Bool :=
  if !s.isScrubbing then false else s.freeTable.getD (offset / clusterSize) true

/-- The loop of `MarkAsUsed`, for `fuel` rounds at most. -/
def markLoop (fileSize endOffset : Nat) : (fuel currentOffset : Nat) → List Bool → List Bool
  | 0, _, table => table
  | fuel + 1, currentOffset, table =>
      if currentOffset < endOffset ∧ currentOffset < fileSize then
        markLoop fileSize endOffset fuel (currentOffset + clusterSize) (table.set (currentOffset / clusterSize) false)
      else table

def markAsUsed (s : DiscScrubber) (offset size : Nat) : DiscScrubber :=
  { s with freeTable := markLoop s.fileSize (offset + size) s.freeTable.length (alignDown offset clusterSize) s.freeTable }

def toClusterOffset (hasWiiHashes : Bool) (offset : Nat) : Nat :=
  if hasWiiHashes then offset / blockDataSize * clusterSize else alignDown offset clusterSize

def markAsUsedE (s : DiscScrubber) (partitionDataOffset offset size : Nat) : DiscScrubber :=
  if partitionDataOffset = 0 then s.markAsUsed offset size
  else
    let firstClusterStart := toClusterOffset s.hasWiiHashes offset + partitionDataOffset
    let lastClusterEnd :=
      -- without this special case, a size of 0 can be rounded to 1 cluster instead of 0
      if size = 0 then firstClusterStart
      else toClusterOffset s.hasWiiHashes (offset + size - 1) + clusterSize + partitionDataOffset
    s.markAsUsed firstClusterStart (lastClusterEnd - firstClusterStart)

mutual
def parseFileInfo (partitionDataOffset : Nat) : FileInfo → DiscScrubber → DiscScrubber
  | .file offset size, s => s.markAsUsedE partitionDataOffset offset size
  | .directory children, s => parseFileSystemData partitionDataOffset children s

def parseFileSystemData (partitionDataOffset : Nat) : List FileInfo → DiscScrubber → DiscScrubber
  | [], s => s
  | fileInfo :: rest, s => parseFileSystemData partitionDataOffset rest (parseFileInfo partitionDataOffset fileInfo s)
end

def parsePartitionData (disc : Volume) (partition : Option Nat) (s : DiscScrubber) : Option DiscScrubber := do
  let filesystem ← disc.getFileSystem partition
  let partitionDataOffset ← disc.partitionDataOffset partition
  -- header, header information, apploader
  let apploaderSize ← disc.readFromVolume (0x2440 + 0x14) partition
  let apploaderTrailerSize ← disc.readFromVolume (0x2440 + 0x18) partition
  let s := s.markAsUsedE partitionDataOffset 0 ((0x2440 + apploaderSize + apploaderTrailerSize) % 2 ^ 32)
  let dolOffset ← disc.getBootDOLOffset partition
  let dolSize ← disc.getBootDOLSize partition dolOffset
  let s := s.markAsUsedE partitionDataOffset dolOffset dolSize
  let fstOffset ← disc.getFSTOffset partition
  let fstSize ← disc.getFSTSize partition
  let s := s.markAsUsedE partitionDataOffset fstOffset fstSize
  return parseFileSystemData partitionDataOffset filesystem s

def parsePartition (disc : Volume) (s : DiscScrubber) (partition : Nat) : Option DiscScrubber := do
  let tmdSize ← disc.readFromVolume (partition + 0x2a4) none
  let tmdOffset ← disc.readSwappedAndShifted (partition + 0x2a8) none
  let certChainSize ← disc.readFromVolume (partition + 0x2ac) none
  let certChainOffset ← disc.readSwappedAndShifted (partition + 0x2b0) none
  let h3Offset ← disc.readSwappedAndShifted (partition + 0x2b4) none
  let s := s.markAsUsed partition 0x2c0
  let s := s.markAsUsed (partition + tmdOffset) tmdSize
  let s := s.markAsUsed (partition + certChainOffset) certChainSize
  let s := s.markAsUsed (partition + h3Offset) 0x18000
  parsePartitionData disc (some partition) s

def parseDisc (disc : Volume) (s : DiscScrubber) : Option DiscScrubber :=
  match disc.getPartitions with
  | [] => parsePartitionData disc none s
  | partitions => partitions.foldlM (parsePartition disc) (s.markAsUsed 0 0x50000)

def setupScrub (disc : Volume) : Option DiscScrubber := do
  let numClusters := (disc.dataSize + clusterSize - 1) / clusterSize
  let s ← parseDisc disc { freeTable := List.replicate numClusters true, fileSize := disc.dataSize,
                           hasWiiHashes := disc.hasWiiHashes }
  return { s with isScrubbing := true }

end DiscScrubber

end Karphin.DiscIO.Scrubbing

/-!
# What is marked

The table of free clusters is given by the ranges that were marked, which are those of the layout of the disc.
-/

namespace Karphin.DiscIO.Scrubbing

/-! ## Layouts -/

structure PartitionHeader where
  tmdOffset : Nat
  tmdSize : Nat
  certChainOffset : Nat
  certChainSize : Nat
  h3Offset : Nat

structure PartitionLayout where
  dataOffset : Nat
  apploaderSize : Nat
  apploaderTrailerSize : Nat
  dolOffset : Nat
  dolSize : Nat
  fstOffset : Nat
  fstSize : Nat
  files : List (Nat × Nat)

mutual
def FileInfo.files : FileInfo → List (Nat × Nat)
  | .file offset size => [(offset, size)]
  | .directory children => filesOf children

def filesOf : List FileInfo → List (Nat × Nat)
  | [] => []
  | fileInfo :: rest => fileInfo.files ++ filesOf rest
end

def Volume.partitionHeader (disc : Volume) (partition : Nat) : Option PartitionHeader := do
  let tmdSize ← disc.readFromVolume (partition + 0x2a4) none
  let tmdOffset ← disc.readSwappedAndShifted (partition + 0x2a8) none
  let certChainSize ← disc.readFromVolume (partition + 0x2ac) none
  let certChainOffset ← disc.readSwappedAndShifted (partition + 0x2b0) none
  let h3Offset ← disc.readSwappedAndShifted (partition + 0x2b4) none
  return { tmdOffset, tmdSize, certChainOffset, certChainSize, h3Offset }

def Volume.partitionLayout (disc : Volume) (partition : Option Nat) : Option PartitionLayout := do
  let filesystem ← disc.getFileSystem partition
  let dataOffset ← disc.partitionDataOffset partition
  let apploaderSize ← disc.readFromVolume (0x2440 + 0x14) partition
  let apploaderTrailerSize ← disc.readFromVolume (0x2440 + 0x18) partition
  let dolOffset ← disc.getBootDOLOffset partition
  let dolSize ← disc.getBootDOLSize partition dolOffset
  let fstOffset ← disc.getFSTOffset partition
  let fstSize ← disc.getFSTSize partition
  return { dataOffset, apploaderSize, apploaderTrailerSize, dolOffset, dolSize, fstOffset, fstSize,
           files := filesOf filesystem }

/-! ## Ranges -/

def Touches (range : Nat × Nat) (cluster : Nat) : Prop :=
  range.1 / clusterSize ≤ cluster ∧ cluster * clusterSize < range.1 + range.2

def rawRange (hasWiiHashes : Bool) (partitionDataOffset : Nat) (area : Nat × Nat) : Nat × Nat :=
  if partitionDataOffset = 0 then area
  else
    let first := DiscScrubber.toClusterOffset hasWiiHashes area.1 + partitionDataOffset
    let last :=
      if area.2 = 0 then first
      else DiscScrubber.toClusterOffset hasWiiHashes (area.1 + area.2 - 1) + clusterSize + partitionDataOffset
    (first, last - first)

def PartitionLayout.apploaderMarked (l : PartitionLayout) : Nat :=
  (0x2440 + l.apploaderSize + l.apploaderTrailerSize) % 2 ^ 32

def PartitionLayout.marks (l : PartitionLayout) (hasWiiHashes : Bool) : List (Nat × Nat) :=
  ((0, l.apploaderMarked) :: (l.dolOffset, l.dolSize) :: (l.fstOffset, l.fstSize) :: l.files).map
    (rawRange hasWiiHashes l.dataOffset)

def PartitionHeader.marks (h : PartitionHeader) (partition : Nat) : List (Nat × Nat) :=
  [(partition, 0x2c0), (partition + h.tmdOffset, h.tmdSize), (partition + h.certChainOffset, h.certChainSize),
    (partition + h.h3Offset, 0x18000)]

def Volume.partitionMarks (disc : Volume) (partition : Option Nat) : List (Nat × Nat) :=
  ((disc.partitionLayout partition).map (·.marks disc.hasWiiHashes)).getD []

def Volume.marks (disc : Volume) : List (Nat × Nat) :=
  match disc.getPartitions with
  | [] => disc.partitionMarks none
  | partitions => (0, 0x50000) :: partitions.flatMap fun partition =>
      ((disc.partitionHeader partition).map (·.marks partition)).getD [] ++ disc.partitionMarks (some partition)

def Volume.parsedPartitions (disc : Volume) : List (Option Nat) :=
  match disc.getPartitions with
  | [] => [none]
  | partitions => partitions.map some

/-! ## The table -/

namespace DiscScrubber

structure Marked (disc : Volume) (s : DiscScrubber) (marks : List (Nat × Nat)) : Prop where
  fileSize : s.fileSize = disc.dataSize
  hasWiiHashes : s.hasWiiHashes = disc.hasWiiHashes
  length : s.freeTable.length = (disc.dataSize + clusterSize - 1) / clusterSize
  free : ∀ k, s.freeTable.getD k true = false ↔ k * clusterSize < disc.dataSize ∧ ∃ range ∈ marks, Touches range k

theorem lt_numClusters {fileSize k : Nat} : k < (fileSize + clusterSize - 1) / clusterSize ↔ k * clusterSize < fileSize := by
  simp only [clusterSize]
  omega

theorem markLoop_length (fileSize endOffset : Nat) : ∀ (fuel currentOffset : Nat) (table : List Bool),
    (markLoop fileSize endOffset fuel currentOffset table).length = table.length
  | 0, _, _ => rfl
  | fuel + 1, currentOffset, table => by
      rw [markLoop]
      split
      · rw [markLoop_length fileSize endOffset fuel, List.length_set]
      · rfl

theorem getD_set {table : List Bool} {i k : Nat} (h : i < table.length) :
    (table.set i false).getD k true = false ↔ k = i ∨ table.getD k true = false := by
  simp only [List.getD_eq_getElem?_getD]
  by_cases hk : k = i
  · subst hk
    simp [List.getElem?_set_self h]
  · rw [List.getElem?_set_ne (Ne.symm hk)]
    simp [hk]

theorem markLoop_free {fileSize endOffset : Nat} : ∀ {fuel c : Nat} {table : List Bool},
    table.length = (fileSize + clusterSize - 1) / clusterSize → table.length ≤ fuel + c → ∀ k,
    ((markLoop fileSize endOffset fuel (c * clusterSize) table).getD k true = false ↔
      table.getD k true = false ∨ (c ≤ k ∧ k * clusterSize < endOffset ∧ k * clusterSize < fileSize))
  | 0, c, table, hlen, hfuel, k => by
      have hend : ¬ (c ≤ k ∧ k * clusterSize < endOffset ∧ k * clusterSize < fileSize) := by
        rintro ⟨hck, -, hk⟩
        have := lt_numClusters.mpr hk
        omega
      rw [markLoop]
      simp only [hend, or_false]
  | fuel + 1, c, table, hlen, hfuel, k => by
      rw [markLoop]
      by_cases hmore : c * clusterSize < endOffset ∧ c * clusterSize < fileSize
      · have hc : c < table.length := by
          rw [hlen]
          exact lt_numClusters.mpr hmore.2
        have hdiv : c * clusterSize / clusterSize = c := Nat.mul_div_cancel _ (by decide)
        have hnext : c * clusterSize + clusterSize = (c + 1) * clusterSize := (Nat.succ_mul ..).symm
        rw [if_pos hmore, hdiv, hnext, markLoop_free (by rwa [List.length_set]) (by rw [List.length_set]; omega) k,
          getD_set hc]
        constructor
        · rintro ((rfl | h) | h)
          · exact .inr ⟨Nat.le_refl _, hmore⟩
          · exact .inl h
          · exact .inr ⟨by omega, h.2⟩
        · rintro (h | ⟨hck, h⟩)
          · exact .inl (.inr h)
          · by_cases hkc : k = c
            · exact .inl (.inl hkc)
            · exact .inr ⟨by omega, h⟩
      · have hend : ¬ (c ≤ k ∧ k * clusterSize < endOffset ∧ k * clusterSize < fileSize) := by
          rintro ⟨hck, hk⟩
          have hle : c * clusterSize ≤ k * clusterSize := Nat.mul_le_mul_right _ hck
          omega
        rw [if_neg hmore]
        simp only [hend, or_false]

variable {disc : Volume} {s : DiscScrubber} {marks : List (Nat × Nat)}

theorem Marked.markAsUsed (h : Marked disc s marks) (offset size : Nat) :
    Marked disc (s.markAsUsed offset size) (marks ++ [(offset, size)]) := by
  have halign : alignDown offset clusterSize = offset / clusterSize * clusterSize := by
    simp only [alignDown, clusterSize]
    omega
  constructor
  · exact h.fileSize
  · exact h.hasWiiHashes
  · rw [DiscScrubber.markAsUsed, markLoop_length, h.length]
  · intro k
    have hloop := @markLoop_free s.fileSize (offset + size) s.freeTable.length (offset / clusterSize) s.freeTable
      (by rw [h.length, h.fileSize]) (Nat.le_add_right _ _) k
    rw [DiscScrubber.markAsUsed, halign]
    refine hloop.trans ?_
    simp only [h.free k, h.fileSize, List.mem_append, List.mem_singleton, Touches]
    constructor
    · rintro (⟨hk, range, hrange, ht⟩ | ⟨hstart, hend, hk⟩)
      · exact ⟨hk, range, .inl hrange, ht⟩
      · exact ⟨hk, _, .inr rfl, hstart, hend⟩
    · rintro ⟨hk, range, hrange | rfl, ht⟩
      · exact .inl ⟨hk, range, hrange, ht⟩
      · exact .inr ⟨ht.1, ht.2, hk⟩

theorem Marked.markAsUsedE (h : Marked disc s marks) (partitionDataOffset : Nat) (area : Nat × Nat) :
    Marked disc (s.markAsUsedE partitionDataOffset area.1 area.2)
      (marks ++ [rawRange disc.hasWiiHashes partitionDataOffset area]) := by
  rw [DiscScrubber.markAsUsedE, rawRange, h.hasWiiHashes]
  by_cases hzero : partitionDataOffset = 0
  · rw [if_pos hzero, if_pos hzero]
    exact h.markAsUsed _ _
  · rw [if_neg hzero, if_neg hzero]
    exact h.markAsUsed _ _

mutual
theorem Marked.parseFileInfo {s : DiscScrubber} {marks : List (Nat × Nat)} (h : Marked disc s marks)
    (partitionDataOffset : Nat) : (fileInfo : FileInfo) → Marked disc (s.parseFileInfo partitionDataOffset fileInfo)
      (marks ++ fileInfo.files.map (rawRange disc.hasWiiHashes partitionDataOffset))
  | .file offset size => by
      rw [DiscScrubber.parseFileInfo, FileInfo.files]
      exact h.markAsUsedE partitionDataOffset (offset, size)
  | .directory children => by
      rw [DiscScrubber.parseFileInfo, FileInfo.files]
      exact h.parseFileSystemData partitionDataOffset children

theorem Marked.parseFileSystemData {s : DiscScrubber} {marks : List (Nat × Nat)} (h : Marked disc s marks)
    (partitionDataOffset : Nat) : (directory : List FileInfo) →
      Marked disc (s.parseFileSystemData partitionDataOffset directory)
        (marks ++ (filesOf directory).map (rawRange disc.hasWiiHashes partitionDataOffset))
  | [] => by
      rw [DiscScrubber.parseFileSystemData, filesOf, List.map_nil, List.append_nil]
      exact h
  | fileInfo :: rest => by
      have hfirst := h.parseFileInfo partitionDataOffset fileInfo
      rw [DiscScrubber.parseFileSystemData, filesOf, List.map_append, ← List.append_assoc]
      exact hfirst.parseFileSystemData partitionDataOffset rest
end

/-! ## The disc -/

theorem parsePartitionData_spec {s' : DiscScrubber} {partition : Option Nat} (h : Marked disc s marks)
    (hparse : parsePartitionData disc partition s = some s') :
    (disc.partitionLayout partition).isSome ∧ Marked disc s' (marks ++ disc.partitionMarks partition) := by
  simp only [parsePartitionData, Option.bind_eq_bind, Option.bind_eq_some_iff, Option.pure_def, Option.some.injEq]
    at hparse
  obtain ⟨filesystem, hfs, pdo, hpdo, size, hsize, trailer, htrailer, dolOffset, hdol, dolSize, hdolSize, fstOffset,
    hfst, fstSize, hfstSize, rfl⟩ := hparse
  have hlayout : disc.partitionLayout partition = some
      { dataOffset := pdo, apploaderSize := size, apploaderTrailerSize := trailer, dolOffset, dolSize, fstOffset,
        fstSize, files := filesOf filesystem } := by
    simp [Volume.partitionLayout, hfs, hpdo, hsize, htrailer, hdol, hdolSize, hfst, hfstSize]
  have hmarked := (((h.markAsUsedE pdo (0, (0x2440 + size + trailer) % 2 ^ 32)).markAsUsedE pdo
    (dolOffset, dolSize)).markAsUsedE pdo (fstOffset, fstSize)).parseFileSystemData pdo filesystem
  refine ⟨by rw [hlayout]; rfl, ?_⟩
  rw [Volume.partitionMarks, hlayout]
  simpa [PartitionLayout.marks, PartitionLayout.apploaderMarked, List.append_assoc] using hmarked

theorem parsePartition_spec {s' : DiscScrubber} {partition : Nat} (h : Marked disc s marks)
    (hparse : parsePartition disc s partition = some s') :
    (disc.partitionHeader partition).isSome ∧ (disc.partitionLayout (some partition)).isSome ∧
      Marked disc s' (marks ++ (((disc.partitionHeader partition).map (·.marks partition)).getD [] ++
        disc.partitionMarks (some partition))) := by
  simp only [parsePartition, Option.bind_eq_bind, Option.bind_eq_some_iff] at hparse
  obtain ⟨tmdSize, htmdSize, tmdOffset, htmd, certSize, hcertSize, certOffset, hcert, h3Offset, hh3, hdata⟩ := hparse
  have hheader : disc.partitionHeader partition = some
      { tmdOffset, tmdSize, certChainOffset := certOffset, certChainSize := certSize, h3Offset } := by
    simp [Volume.partitionHeader, htmdSize, htmd, hcertSize, hcert, hh3]
  have hmarked := (((h.markAsUsed partition 0x2c0).markAsUsed (partition + tmdOffset) tmdSize).markAsUsed
    (partition + certOffset) certSize).markAsUsed (partition + h3Offset) 0x18000
  obtain ⟨hlayout, hall⟩ := parsePartitionData_spec hmarked hdata
  refine ⟨by rw [hheader]; rfl, hlayout, ?_⟩
  rw [hheader]
  simpa [PartitionHeader.marks, List.append_assoc] using hall

theorem parsePartitions_spec : ∀ {partitions : List Nat} {s s' : DiscScrubber} {marks : List (Nat × Nat)},
    Marked disc s marks → partitions.foldlM (parsePartition disc) s = some s' →
    (∀ partition ∈ partitions,
      (disc.partitionHeader partition).isSome ∧ (disc.partitionLayout (some partition)).isSome) ∧
      Marked disc s' (marks ++ partitions.flatMap fun partition =>
        ((disc.partitionHeader partition).map (·.marks partition)).getD [] ++ disc.partitionMarks (some partition))
  | [], s, s', marks, h, hparse => by
      simp only [List.foldlM_nil, Option.pure_def, Option.some.injEq] at hparse
      subst hparse
      rw [List.flatMap_nil, List.append_nil]
      exact ⟨fun _ hp => absurd hp (List.not_mem_nil), h⟩
  | partition :: partitions, s, s', marks, h, hparse => by
      simp only [List.foldlM_cons, Option.bind_eq_bind, Option.bind_eq_some_iff] at hparse
      obtain ⟨s1, hfirst, hrest⟩ := hparse
      obtain ⟨hheader, hlayout, h1⟩ := parsePartition_spec h hfirst
      obtain ⟨hall, hmarked⟩ := parsePartitions_spec h1 hrest
      constructor
      · intro p hp
        cases List.mem_cons.mp hp with
        | inl heq => rw [heq]; exact ⟨hheader, hlayout⟩
        | inr hp => exact hall p hp
      · rw [List.flatMap_cons, ← List.append_assoc]
        exact hmarked

theorem marked_new : Marked disc { freeTable := List.replicate ((disc.dataSize + clusterSize - 1) / clusterSize) true
                                   fileSize := disc.dataSize
                                   hasWiiHashes := disc.hasWiiHashes } [] where
  fileSize := rfl
  hasWiiHashes := rfl
  length := List.length_replicate ..
  free k := by
    simp only [List.not_mem_nil, false_and, exists_false, and_false, iff_false, List.getD_eq_getElem?_getD]
    rw [List.getElem?_replicate]
    split
    · simp
    · simp

theorem setupScrub_spec {s' : DiscScrubber} (hsetup : setupScrub disc = some s') :
    s'.isScrubbing = true ∧ Marked disc s' disc.marks ∧
      (∀ partition ∈ disc.getPartitions, (disc.partitionHeader partition).isSome) ∧
      ∀ partition ∈ disc.parsedPartitions, (disc.partitionLayout partition).isSome := by
  simp only [setupScrub, Option.bind_eq_bind, Option.bind_eq_some_iff, Option.pure_def, Option.some.injEq] at hsetup
  obtain ⟨s, hparse, rfl⟩ := hsetup
  have hscrubbing : ∀ {marks}, Marked disc s marks → Marked disc { s with isScrubbing := true } marks :=
    fun h => ⟨h.fileSize, h.hasWiiHashes, h.length, h.free⟩
  rw [parseDisc] at hparse
  rw [Volume.marks, Volume.parsedPartitions]
  cases hpartitions : disc.getPartitions with
  | nil =>
      rw [hpartitions] at hparse
      obtain ⟨hlayout, hmarked⟩ := parsePartitionData_spec marked_new hparse
      refine ⟨rfl, hscrubbing hmarked, fun _ hp => absurd hp (List.not_mem_nil), fun partition hp => ?_⟩
      rw [List.mem_singleton.mp hp]
      exact hlayout
  | cons first rest =>
      rw [hpartitions] at hparse
      obtain ⟨hall, hmarked⟩ := parsePartitions_spec (marked_new.markAsUsed 0 0x50000) hparse
      refine ⟨rfl, hscrubbing hmarked, fun p hp => (hall p hp).1, fun partition hp => ?_⟩
      obtain ⟨p, hmem, rfl⟩ := List.mem_map.mp hp
      exact (hall p hmem).2

end DiscScrubber

end Karphin.DiscIO.Scrubbing
