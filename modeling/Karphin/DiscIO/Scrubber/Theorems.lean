import Karphin.DiscIO.Scrubber.Lemmas.Marks

/-!
# Which clusters can be scrubbed
-/

namespace Karphin.DiscIO.Scrubbing

/-! ## Used bytes -/

def Contains (area : Nat × Nat) (offset : Nat) : Prop := area.1 ≤ offset ∧ offset < area.1 + area.2

def PartitionLayout.areas (l : PartitionLayout) : List (Nat × Nat) :=
  (0, 0x2440) :: (0x2440, 0x20 + l.apploaderSize + l.apploaderTrailerSize) :: (l.dolOffset, l.dolSize) ::
    (l.fstOffset, l.fstSize) :: l.files

/-- One of the four tables of partitions: its offset and its size. -/
def Volume.partitionTable (disc : Volume) (group : Nat) : Option (Nat × Nat) := do
  let number ← disc.readFromVolume (0x40000 + group * 8) none
  let offset ← disc.readSwappedAndShifted (0x40000 + group * 8 + 4) none
  return (offset, 8 * number)

/-- The bytes of a disc that are used. The ticket is at the start of the header of a partition. -/
inductive UsedByte (disc : Volume) (raw : Nat) : Prop
  | discHeader (hpartitions : disc.getPartitions ≠ []) (hraw : raw < 0x50000)
  | partitionTable (hpartitions : disc.getPartitions ≠ []) {group : Nat} (hgroup : group < 4) {area : Nat × Nat}
      (harea : disc.partitionTable group = some area) (hraw : Contains area raw)
  | partitionHeader {partition : Nat} (hpartition : partition ∈ disc.getPartitions)
      (hraw : Contains (partition, 0x2c0) raw)
  | tmd {partition : Nat} (hpartition : partition ∈ disc.getPartitions) {header : PartitionHeader}
      (hheader : disc.partitionHeader partition = some header)
      (hraw : Contains (partition + header.tmdOffset, header.tmdSize) raw)
  | h3 {partition : Nat} (hpartition : partition ∈ disc.getPartitions) {header : PartitionHeader}
      (hheader : disc.partitionHeader partition = some header)
      (hraw : Contains (partition + header.h3Offset, 0x18000) raw)
  | data {partition : Option Nat} (hpartition : partition ∈ disc.parsedPartitions) {layout : PartitionLayout}
      (hlayout : disc.partitionLayout partition = some layout) {area : Nat × Nat} (harea : area ∈ layout.areas)
      {offset : Nat} (hoffset : Contains area offset) (hraw : raw = disc.partitionOffsetToRawOffset offset partition)

/-- The used bytes for which nothing is marked: the last bytes of an apploader, a partition table behind the header of
the disc, and the data of a partition that start at the start of a disc with hashes. -/
inductive Exposed (disc : Volume) (raw : Nat) : Prop
  | apploader {partition : Option Nat} (hpartition : partition ∈ disc.parsedPartitions) {layout : PartitionLayout}
      (hlayout : disc.partitionLayout partition = some layout) {offset : Nat} (hstart : layout.apploaderMarked ≤ offset)
      (hend : offset < 0x2460 + layout.apploaderSize + layout.apploaderTrailerSize)
      (hraw : raw = disc.partitionOffsetToRawOffset offset partition)
  | partitionTable (hpartitions : disc.getPartitions ≠ []) {group : Nat} (hgroup : group < 4) {area : Nat × Nat}
      (harea : disc.partitionTable group = some area) (hraw : Contains area raw) (hstart : 0x50000 ≤ raw)
  | start {partition : Nat} (hpartition : partition ∈ disc.getPartitions) {layout : PartitionLayout}
      (hlayout : disc.partitionLayout (some partition) = some layout) (hzero : layout.dataOffset = 0)
      (hhashes : disc.hasWiiHashes = true) {area : Nat × Nat} (harea : area ∈ layout.areas)
      {offset : Nat} (hoffset : Contains area offset)
      (hraw : raw = disc.partitionOffsetToRawOffset offset (some partition))

def ScrubsSafely (disc : Volume) (s : DiscScrubber) : Prop :=
  ∀ offset, s.canBlockBeScrubbed offset = true → ∀ raw < disc.dataSize, UsedByte disc raw →
    raw / clusterSize ≠ offset / clusterSize

variable {disc : Volume} {raw : Nat}

theorem mem_parsedPartitions {partition : Nat} (h : partition ∈ disc.getPartitions) :
    some partition ∈ disc.parsedPartitions := by
  rw [Volume.parsedPartitions]
  cases hp : disc.getPartitions with
  | nil => rw [hp] at h; cases h
  | cons first rest =>
      rw [hp] at h
      exact List.mem_map_of_mem h

theorem mem_getPartitions {partition : Nat} (h : some partition ∈ disc.parsedPartitions) :
    partition ∈ disc.getPartitions := by
  rw [Volume.parsedPartitions] at h
  cases hp : disc.getPartitions with
  | nil =>
      rw [hp] at h
      cases List.mem_singleton.mp h
  | cons first rest =>
      rw [hp] at h
      obtain ⟨p, hmem, heq⟩ := List.mem_map.mp h
      cases heq
      exact hmem

theorem Exposed.used (h : Exposed disc raw) : UsedByte disc raw := by
  cases h with
  | @apploader partition hpartition layout hlayout offset _ hend hraw =>
      by_cases hboot : offset < 0x2440
      · exact .data hpartition hlayout (List.mem_cons_self ..) ⟨Nat.zero_le _, by simp only; omega⟩ hraw
      · refine .data hpartition hlayout (List.mem_cons_of_mem _ (List.mem_cons_self ..)) ⟨?_, ?_⟩ hraw
        · simp only
          omega
        · simp only
          omega
  | partitionTable hpartitions hgroup harea hraw _ => exact .partitionTable hpartitions hgroup harea hraw
  | start hpartition hlayout _ _ harea hoffset hraw =>
      exact .data (mem_parsedPartitions hpartition) hlayout harea hoffset hraw

/-! ## Clusters of used bytes -/

theorem Contains.touches {area : Nat × Nat} (h : Contains area raw) : Touches area (raw / clusterSize) := by
  obtain ⟨hstart, hend⟩ := h
  exact ⟨Nat.div_le_div_right hstart, Nat.lt_of_le_of_lt (Nat.div_mul_le_self _ _) hend⟩

theorem rawRange_touches {hasWiiHashes : Bool} {partitionDataOffset offset : Nat} {area : Nat × Nat}
    (hpos : partitionDataOffset ≠ 0) (h : Contains area offset)
    (hraw : raw = partitionDataOffset +
      if hasWiiHashes then offset / blockDataSize * clusterSize + offset % blockDataSize else offset) :
    Touches (rawRange hasWiiHashes partitionDataOffset area) (raw / clusterSize) := by
  obtain ⟨hstart, hend⟩ := h
  apply Contains.touches
  rw [rawRange, if_neg hpos]
  simp only
  rw [if_neg (by omega), Contains]
  have hfirst : area.1 / blockDataSize ≤ offset / blockDataSize := Nat.div_le_div_right hstart
  have hlast : offset / blockDataSize ≤ (area.1 + area.2 - 1) / blockDataSize := Nat.div_le_div_right (by omega)
  have hmod : offset % blockDataSize < blockDataSize := Nat.mod_lt _ (by decide)
  cases hasWiiHashes with
  | true =>
      simp only [DiscScrubber.toClusterOffset, if_true] at hraw ⊢
      generalize area.1 / blockDataSize = first at hfirst
      generalize (area.1 + area.2 - 1) / blockDataSize = last at hlast
      generalize offset / blockDataSize = block at hfirst hlast hraw
      simp only [clusterSize, blockDataSize] at hraw hmod ⊢
      omega
  | false =>
      simp only [DiscScrubber.toClusterOffset, alignDown, Bool.false_eq_true, if_false] at hraw ⊢
      simp only [clusterSize]
      omega

theorem partitionMarks_subset {partition : Option Nat} (hpartition : partition ∈ disc.parsedPartitions)
    {range : Nat × Nat} (hrange : range ∈ disc.partitionMarks partition) : range ∈ disc.marks := by
  rw [Volume.parsedPartitions] at hpartition
  rw [Volume.marks]
  cases hp : disc.getPartitions with
  | nil =>
      rw [hp] at hpartition
      rw [List.mem_singleton.mp hpartition] at hrange
      exact hrange
  | cons first rest =>
      rw [hp] at hpartition
      obtain ⟨p, hmem, rfl⟩ := List.mem_map.mp hpartition
      exact List.mem_cons_of_mem _ (List.mem_flatMap.mpr ⟨p, hmem, List.mem_append_right _ hrange⟩)

theorem headerMarks_subset {partition : Nat} (hpartition : partition ∈ disc.getPartitions) {header : PartitionHeader}
    (hheader : disc.partitionHeader partition = some header) {range : Nat × Nat}
    (hrange : range ∈ header.marks partition) : range ∈ disc.marks := by
  rw [Volume.marks]
  cases hp : disc.getPartitions with
  | nil => rw [hp] at hpartition; cases hpartition
  | cons first rest =>
      rw [hp] at hpartition
      refine List.mem_cons_of_mem _ (List.mem_flatMap.mpr ⟨partition, hpartition, List.mem_append_left _ ?_⟩)
      rw [hheader]
      exact hrange

theorem discHeader_mem (hpartitions : disc.getPartitions ≠ []) : (0, 0x50000) ∈ disc.marks := by
  rw [Volume.marks]
  cases hp : disc.getPartitions with
  | nil => exact absurd hp hpartitions
  | cons first rest => exact List.mem_cons_self ..

theorem partitionLayout_dataOffset {partition : Option Nat} {layout : PartitionLayout}
    (h : disc.partitionLayout partition = some layout) :
    disc.partitionDataOffset partition = some layout.dataOffset := by
  simp only [Volume.partitionLayout, Option.bind_eq_bind, Option.bind_eq_some_iff, Option.pure_def,
    Option.some.injEq] at h
  obtain ⟨_, _, dataOffset, hdata, _, _, _, _, _, _, _, _, _, _, _, _, rfl⟩ := h
  exact hdata

theorem data_touched {partition : Option Nat} (hpartition : partition ∈ disc.parsedPartitions) {layout : PartitionLayout}
    (hlayout : disc.partitionLayout partition = some layout) {area : Nat × Nat}
    (harea : area ∈ (0, layout.apploaderMarked) :: (layout.dolOffset, layout.dolSize) ::
      (layout.fstOffset, layout.fstSize) :: layout.files)
    {offset : Nat} (hoffset : Contains area offset) (hraw : raw = disc.partitionOffsetToRawOffset offset partition)
    (hstart : ¬ (partition ≠ none ∧ layout.dataOffset = 0 ∧ disc.hasWiiHashes = true)) :
    ∃ range ∈ disc.marks, Touches range (raw / clusterSize) := by
  have hmem : rawRange disc.hasWiiHashes layout.dataOffset area ∈ disc.marks := by
    apply partitionMarks_subset hpartition
    rw [Volume.partitionMarks, hlayout]
    exact List.mem_map_of_mem harea
  refine ⟨_, hmem, ?_⟩
  have hdata := partitionLayout_dataOffset hlayout
  cases partition with
  | none =>
      simp only [Volume.partitionDataOffset, Option.some.injEq] at hdata
      rw [Volume.partitionOffsetToRawOffset] at hraw
      rw [rawRange, if_pos hdata.symm, hraw]
      exact hoffset.touches
  | some partition =>
      simp only [Volume.partitionDataOffset, Option.map_eq_some_iff] at hdata
      obtain ⟨d, hd, hsum⟩ := hdata
      have hraw' : raw = layout.dataOffset +
          if disc.hasWiiHashes then offset / blockDataSize * clusterSize + offset % blockDataSize else offset := by
        rw [hraw, Volume.partitionOffsetToRawOffset, hd, ← hsum]
        simp only [Option.getD_some]
        split
        · omega
        · rfl
      by_cases hzero : layout.dataOffset = 0
      · have hhashes : disc.hasWiiHashes = false := by
          cases hh : disc.hasWiiHashes with
          | false => rfl
          | true => exact absurd ⟨by simp, hzero, hh⟩ hstart
        simp only [hhashes, hzero, Bool.false_eq_true, if_false, Nat.zero_add] at hraw'
        rw [rawRange, if_pos hzero, hraw']
        exact hoffset.touches
      · exact rawRange_touches hzero hoffset hraw'

theorem areas_touched {partition : Option Nat} (hpartition : partition ∈ disc.parsedPartitions) {layout : PartitionLayout}
    (hlayout : disc.partitionLayout partition = some layout) {area : Nat × Nat} (harea : area ∈ layout.areas)
    {offset : Nat} (hoffset : Contains area offset) (hraw : raw = disc.partitionOffsetToRawOffset offset partition)
    (hstart : ¬ (partition ≠ none ∧ layout.dataOffset = 0 ∧ disc.hasWiiHashes = true)) :
    Exposed disc raw ∨ ∃ range ∈ disc.marks, Touches range (raw / clusterSize) := by
  have happloader : offset < 0x2460 + layout.apploaderSize + layout.apploaderTrailerSize →
      Exposed disc raw ∨ ∃ range ∈ disc.marks, Touches range (raw / clusterSize) := by
    intro hend
    by_cases hmarked : offset < layout.apploaderMarked
    · exact .inr (data_touched hpartition hlayout (List.mem_cons_self ..) ⟨Nat.zero_le _, by simp only; omega⟩ hraw hstart)
    · exact .inl (.apploader hpartition hlayout (by omega) hend hraw)
  have hend := hoffset.2
  simp only [PartitionLayout.areas, List.mem_cons] at harea
  rcases harea with rfl | rfl | hrest
  · exact happloader (by simp only at hend; omega)
  · exact happloader (by simp only at hend; omega)
  · refine .inr (data_touched hpartition hlayout (List.mem_cons_of_mem _ ?_) hoffset hraw hstart)
    simp only [List.mem_cons]
    exact hrest

theorem used_touched (hheaders : ∀ partition ∈ disc.getPartitions, (disc.partitionHeader partition).isSome)
    (h : UsedByte disc raw) : Exposed disc raw ∨ ∃ range ∈ disc.marks, Touches range (raw / clusterSize) := by
  cases h with
  | discHeader hpartitions hraw =>
      have hcontains : Contains (0, 0x50000) raw := ⟨Nat.zero_le _, by simp only; omega⟩
      exact .inr ⟨_, discHeader_mem hpartitions, hcontains.touches⟩
  | partitionTable hpartitions hgroup harea hraw =>
      by_cases hstart : 0x50000 ≤ raw
      · exact .inl (.partitionTable hpartitions hgroup harea hraw hstart)
      · have hcontains : Contains (0, 0x50000) raw := ⟨Nat.zero_le _, by simp only; omega⟩
        exact .inr ⟨_, discHeader_mem hpartitions, hcontains.touches⟩
  | @partitionHeader partition hpartition hraw =>
      obtain ⟨header, hheader⟩ := Option.isSome_iff_exists.mp (hheaders partition hpartition)
      exact .inr ⟨_, headerMarks_subset hpartition hheader (by simp [PartitionHeader.marks]), hraw.touches⟩
  | tmd hpartition hheader hraw =>
      exact .inr ⟨_, headerMarks_subset hpartition hheader (by simp [PartitionHeader.marks]), hraw.touches⟩
  | h3 hpartition hheader hraw =>
      exact .inr ⟨_, headerMarks_subset hpartition hheader (by simp [PartitionHeader.marks]), hraw.touches⟩
  | @data partition hpartition layout hlayout area harea offset hoffset hraw =>
      by_cases hstart : partition ≠ none ∧ layout.dataOffset = 0 ∧ disc.hasWiiHashes = true
      · cases partition with
        | none => exact absurd rfl hstart.1
        | some partition =>
            exact .inl (.start (mem_getPartitions hpartition) hlayout hstart.2.1 hstart.2.2 harea hoffset hraw)
      · exact areas_touched hpartition hlayout harea hoffset hraw hstart

/-! ## The scrubber -/

theorem canBlockBeScrubbed_iff {s : DiscScrubber} (hscrubbing : s.isScrubbing = true)
    (hmarked : DiscScrubber.Marked disc s disc.marks) {offset : Nat} : s.canBlockBeScrubbed offset = true ↔
      ¬ (offset / clusterSize * clusterSize < disc.dataSize ∧
        ∃ range ∈ disc.marks, Touches range (offset / clusterSize)) := by
  have hfree := hmarked.free (offset / clusterSize)
  rw [DiscScrubber.canBlockBeScrubbed, hscrubbing, ← hfree]
  simp

/-- A disc is scrubbed safely if each exposed byte shares its cluster with a range that is marked, and only then. -/
theorem scrubsSafely_iff {s : DiscScrubber} (hsetup : DiscScrubber.setupScrub disc = some s) : ScrubsSafely disc s ↔
    ∀ raw < disc.dataSize, Exposed disc raw → ∃ range ∈ disc.marks, Touches range (raw / clusterSize) := by
  obtain ⟨hscrubbing, hmarked, hheaders, -⟩ := DiscScrubber.setupScrub_spec hsetup
  constructor
  · intro hsafe raw hraw hexposed
    by_contra hnone
    have hscrubbed : s.canBlockBeScrubbed raw = true := by
      rw [canBlockBeScrubbed_iff hscrubbing hmarked]
      exact fun h => hnone h.2
    exact hsafe raw hscrubbed raw hraw hexposed.used rfl
  · intro hexposed offset hscrubbed raw hraw hused hsame
    rw [canBlockBeScrubbed_iff hscrubbing hmarked, ← hsame] at hscrubbed
    have hstart : raw / clusterSize * clusterSize < disc.dataSize := Nat.lt_of_le_of_lt (Nat.div_mul_le_self _ _) hraw
    cases used_touched hheaders hused with
    | inl h => exact hscrubbed ⟨hstart, hexposed raw hraw h⟩
    | inr h => exact hscrubbed ⟨hstart, h⟩

/-! ## Two discs -/

/-- A disc of four clusters without partitions, with an apploader in the first one, a DOL in the third one, and an FST and
a file in the last one. -/
def gameDisc (apploaderSize : UInt32) : Volume where
  hasWiiHashes := false
  offsetShift := 0
  dataSize := 0x20000
  getPartitions := []
  readSwapped offset _ := some <|
    if offset = 0x2454 then apploaderSize
    else if offset = 0x420 then 0x10000
    else if offset = 0x424 then 0x18000
    else if offset = 0x428 then 0x20
    else if offset = 0x10000 then 0x100
    else if offset = 0x10090 then 0x200
    else 0
  getFileSystem _ := some [.directory [.file 0x18100 0x100], .file 0x18200 0]

def gameLayout (apploaderSize : Nat) : PartitionLayout where
  dataOffset := 0
  apploaderSize := apploaderSize
  apploaderTrailerSize := 0
  dolOffset := 0x10000
  dolSize := 0x300
  fstOffset := 0x18000
  fstSize := 0x20
  files := [(0x18100, 0x100), (0x18200, 0)]

def gameScrubber : DiscScrubber where
  freeTable := [false, true, false, false]
  fileSize := 0x20000
  hasWiiHashes := false
  isScrubbing := true

theorem gameDisc_safe : ScrubsSafely (gameDisc 0x1000) gameScrubber := by
  have hsetup : DiscScrubber.setupScrub (gameDisc 0x1000) = some gameScrubber := rfl
  have hmarks : (0, 0x3440) ∈ (gameDisc 0x1000).marks := by decide
  rw [scrubsSafely_iff hsetup]
  intro raw _ hexposed
  cases hexposed with
  | @apploader partition hpartition layout hlayout offset hstart hend hraw =>
      rw [List.mem_singleton.mp hpartition] at hlayout hraw
      have heq : layout = gameLayout 0x1000 := by
        have hrfl : (gameDisc 0x1000).partitionLayout none = some (gameLayout 0x1000) := rfl
        rw [hrfl] at hlayout
        exact (Option.some.inj hlayout).symm
      rw [heq] at hend
      simp only [gameLayout] at hend
      rw [Volume.partitionOffsetToRawOffset] at hraw
      exact ⟨_, hmarks, Nat.zero_le _, by simp only [clusterSize]; omega⟩
  | partitionTable hpartitions _ _ _ _ => exact absurd rfl hpartitions
  | start hpartition _ _ _ _ _ _ => cases hpartition

/-- The last bytes of an apploader are scrubbed. -/
theorem gameDisc_scrubbed :
    ∃ s, DiscScrubber.setupScrub (gameDisc 0x5BC0) = some s ∧ ¬ ScrubsSafely (gameDisc 0x5BC0) s := by
  refine ⟨gameScrubber, rfl, fun hsafe => ?_⟩
  have hused : UsedByte (gameDisc 0x5BC0) 0x8000 :=
    .data (List.mem_singleton.mpr rfl) (show _ = some (gameLayout 0x5BC0) from rfl)
      (List.mem_cons_of_mem _ (List.mem_cons_self ..)) ⟨by decide, by decide⟩ rfl
  exact hsafe 0x8000 rfl 0x8000 (by decide) hused rfl

end Karphin.DiscIO.Scrubbing
