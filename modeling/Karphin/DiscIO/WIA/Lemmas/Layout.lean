import Karphin.DiscIO.WIA.Entries

/-!
# The layout of the data entries

The regions of the partitions that are stored as such, the pieces of the disc that are stored for them and for what lies
between them, and that the tables hold these pieces.
-/

namespace Karphin.DiscIO.WIARVZ

open Lib
open Scrubbing (Volume alignDown)

/-! ## Regions -/

/-- Where a partition, its data, what lies behind the group with the end of its file system table, and the end of its
data are on the disc. -/
structure Region where
  start : Nat
  dataStart : Nat
  split : Nat
  dataEnd : Nat
  start_le : start ≤ dataStart
  dataStart_le : dataStart ≤ split
  split_le : split ≤ dataEnd
  aligned : blockTotalSize ∣ dataStart
  split_aligned : split = dataEnd ∨ blockTotalSize ∣ split
  full : dataStart + blockTotalSize ≤ dataEnd
  lt : dataEnd < 2 ^ 47

def Region.finish (r : Region) : Nat := alignDown r.dataEnd blockTotalSize

theorem dvd_alignUp {size : Nat} (value : Nat) (h : blockTotalSize ∣ size) : blockTotalSize ∣ alignUp value size :=
  h.trans (Nat.dvd_sub_mod _)

/-- The region of a partition with the signature of a ticket, data that begin with a block, and at least one block. -/
def regionOf (volume : VolumeDisc) (partition : Nat) : Option Region :=
  if volume.readSwapped partition none = some 0x10001 then do
    let dataOffset ← volume.readSwappedAndShifted (partition + 0x2b8) none
    let dataSize ← volume.readSwappedAndShifted (partition + 0x2bc) none
    let fstOffset ← volume.getFSTOffset (some partition)
    let fstSize ← volume.getFSTSize (some partition)
    let fstEnd := volume.partitionOffsetToRawOffset (fstOffset + fstSize) (some partition)
    let dataStart := partition + dataOffset
    if h : blockTotalSize ∣ dataStart ∧ blockTotalSize ≤ dataSize ∧ dataStart + dataSize < 2 ^ 47 then
      some {
        start := partition
        dataStart := dataStart
        split := min (dataStart + dataSize) (alignUp (fstEnd - dataStart) groupTotalSize + dataStart)
        dataEnd := dataStart + dataSize
        start_le := Nat.le_add_right _ _
        dataStart_le := le_min (Nat.le_add_right _ _) (Nat.le_add_left _ _)
        split_le := min_le_left _ _
        aligned := h.1
        split_aligned := (min_choice _ _).imp id fun hmin => by
          rw [hmin]
          exact Nat.dvd_add (dvd_alignUp _ (by decide)) h.1
        full := Nat.add_le_add_left h.2.1 _
        lt := h.2.2 }
    else none
  else none

def regionsFrom (volume : VolumeDisc) : (position : Nat) → List Nat → List Region
  | _, [] => []
  | position, partition :: partitions =>
      match regionOf volume partition with
      | none => regionsFrom volume position partitions
      | some r =>
          if partition < position then regionsFrom volume position partitions
          else r :: regionsFrom volume r.finish partitions

def regions : Option VolumeDisc → List Region
  | none => []
  | some disc => regionsFrom disc 0 (sortedPartitions (some disc))

def lastEnd : (position : Nat) → List Region → Nat
  | position, [] => position
  | _, r :: rs => lastEnd r.finish rs

/-! ## Pieces -/

structure Piece extends Extent where
  isPartition : Bool

def rawPieces (offset size : Nat) : List Piece :=
  let skip := if offset < discHeaderSize then min (discHeaderSize - offset) size else 0
  if size - skip = 0 then [] else [⟨⟨offset + skip, size - skip⟩, false⟩]

def Region.pieces (r : Region) (position : Nat) : List Piece :=
  rawPieces position (r.start - position) ++ rawPieces r.start (r.dataStart - r.start) ++
    [⟨⟨r.dataStart, alignDown (r.split - r.dataStart) blockTotalSize⟩, true⟩,
      ⟨⟨alignDown r.split blockTotalSize, alignDown (r.dataEnd - r.split) blockTotalSize⟩, true⟩]

def piecesFrom : (position : Nat) → List Region → List Piece
  | _, [] => []
  | position, r :: rs => r.pieces position ++ piecesFrom r.finish rs

def layout (isoSize : Nat) (rs : List Region) : List Piece :=
  piecesFrom 0 rs ++ rawPieces (lastEnd 0 rs) (sub64 isoSize (lastEnd 0 rs))

/-! ## Numbers of groups, as they are stored -/

def storedGroups (chunkSize : Nat) (p : Piece) : Nat := alignUp p.size chunkSize / chunkSize % 2 ^ 32

def totalFrom (chunkSize : Nat) : (total : Nat) → List Piece → Nat
  | total, [] => total
  | total, p :: ps => totalFrom chunkSize ((total + storedGroups chunkSize p) % 2 ^ 32) ps

def numberFrom (chunkSize : Nat) : (total : Nat) → List Piece → List StoredExtent
  | _, [] => []
  | total, p :: ps =>
      ⟨p.toExtent, p.isPartition, total, storedGroups chunkSize p⟩ ::
        numberFrom chunkSize ((total + storedGroups chunkSize p) % 2 ^ 32) ps

variable {chunkSize : Nat}

theorem totalFrom_append (ps qs : List Piece) (total : Nat) :
    totalFrom chunkSize total (ps ++ qs) = totalFrom chunkSize (totalFrom chunkSize total ps) qs := by
  induction ps generalizing total with
  | nil => rfl
  | cons p ps ih => exact ih _

theorem numberFrom_append (ps qs : List Piece) (total : Nat) :
    numberFrom chunkSize total (ps ++ qs) =
      numberFrom chunkSize total ps ++ numberFrom chunkSize (totalFrom chunkSize total ps) qs := by
  induction ps generalizing total with
  | nil => rfl
  | cons p ps ih => exact congrArg _ (ih _)

/-! ## The tables hold the pieces -/

/-- Every data entry is in the tables, and they hold the pieces in order. -/
structure Represents (chunkSize : Nat) (s : Entries) (ps : List Piece) : Prop where
  resolved : ∀ entry ∈ s.dataEntries, (s.extentOf entry).isSome
  extents : s.extents = numberFrom chunkSize 0 ps
  total : s.totalGroups = totalFrom chunkSize 0 ps

theorem represents_empty : Represents chunkSize {} [] := ⟨nofun, rfl, rfl⟩

structure Extends (s s' : Entries) : Prop where
  raw : s.rawDataEntries <+: s'.rawDataEntries
  partitions : s.partitionEntries <+: s'.partitionEntries

theorem Extends.extentOf {s s' : Entries} (h : Extends s s') {entry : DataEntry}
    (hentry : (s.extentOf entry).isSome) : s'.extentOf entry = s.extentOf entry := by
  obtain ⟨rawRest, hraw⟩ := h.raw
  obtain ⟨rest, hpartitions⟩ := h.partitions
  unfold Entries.extentOf at hentry ⊢
  split_ifs at hentry ⊢ with hkind
  · rw [Option.isSome_map, isSome_getElem?] at hentry
    rw [← hpartitions, List.getElem?_append_left hentry]
  · rw [Option.isSome_map, isSome_getElem?] at hentry
    rw [← hraw, List.getElem?_append_left hentry]

theorem Represents.extend {s s' : Entries} {ps qs : List Piece} {added : List DataEntry}
    (h : Represents chunkSize s ps) (hext : Extends s s') (hentries : s'.dataEntries = s.dataEntries ++ added)
    (hadded : added.map s'.extentOf = (numberFrom chunkSize s.totalGroups qs).map some)
    (htotal : s'.totalGroups = totalFrom chunkSize s.totalGroups qs) : Represents chunkSize s' (ps ++ qs) where
  resolved := by
    intro entry hentry
    rw [hentries, List.mem_append] at hentry
    rcases hentry with hold | hnew
    · rw [hext.extentOf (h.resolved entry hold)]
      exact h.resolved entry hold
    · have hmem : s'.extentOf entry ∈ added.map s'.extentOf := List.mem_map_of_mem hnew
      rw [hadded, List.mem_map] at hmem
      obtain ⟨x, -, hx⟩ := hmem
      rw [← hx]
      rfl
  extents := by
    have hold : s.dataEntries.filterMap s'.extentOf = s.extents :=
      List.filterMap_congr fun entry hentry => hext.extentOf (h.resolved entry hentry)
    have hnew : added.filterMap s'.extentOf = numberFrom chunkSize s.totalGroups qs := by
      have hid : added.filterMap s'.extentOf = (added.map s'.extentOf).filterMap id := by
        rw [List.filterMap_map]
        rfl
      rw [hid, hadded, List.filterMap_map]
      exact List.filterMap_some
    rw [Entries.extents, hentries, List.filterMap_append, hold, hnew, h.extents, numberFrom_append, h.total]
  total := by rw [htotal, h.total, totalFrom_append]

theorem represents_addRawDataEntry {s : Entries} {ps : List Piece} (h : Represents chunkSize s ps) (offset size : Nat) :
    Represents chunkSize (addRawDataEntry chunkSize s offset size) (ps ++ rawPieces offset size) := by
  unfold addRawDataEntry rawPieces
  dsimp only
  generalize (if offset < discHeaderSize then min (discHeaderSize - offset) size else 0) = skip
  split_ifs with hsize
  · rwa [List.append_nil]
  · refine h.extend ⟨List.prefix_append _ _, List.prefix_rfl⟩ rfl ?_ rfl
    simp [Entries.extentOf, numberFrom, storedGroups]

theorem sectors_eq {n : Nat} (h : n < 2 ^ 47) :
    n / blockTotalSize % 2 ^ 32 * blockTotalSize = alignDown n blockTotalSize := by
  have hfits : n / blockTotalSize < 2 ^ 32 := by
    rw [blockTotalSize]
    omega
  rw [Nat.mod_eq_of_lt hfits]
  exact Nat.eq_sub_of_add_eq (Nat.div_add_mod' _ _)

theorem alignDown_of_dvd {n : Nat} (h : blockTotalSize ∣ n) : alignDown n blockTotalSize = n := by
  rw [alignDown, Nat.mod_eq_zero_of_dvd h, Nat.sub_zero]

theorem Region.sectors_add (r : Region) :
    r.split / blockTotalSize + (r.dataEnd - r.split) / blockTotalSize = r.dataEnd / blockTotalSize := by
  rcases r.split_aligned with hend | ⟨n, hn⟩
  · rw [hend, Nat.sub_self, Nat.zero_div, Nat.add_zero]
  · have hle := r.split_le
    have hpos : 0 < blockTotalSize := by decide
    have hsum : r.dataEnd = r.dataEnd - r.split + blockTotalSize * n := by omega
    rw [hsum, Nat.add_mul_div_left _ _ hpos, ← hsum, hn, Nat.mul_div_cancel_left _ hpos, Nat.add_comm]

theorem represents_addPartition {s : Entries} {ps : List Piece} (h : Represents chunkSize s ps) (volume : VolumeDisc)
    (position : Nat) (r : Region) (fstEnd : Nat) (titleKey : WiiKey)
    (hsplit : r.split = min r.dataEnd (alignUp (fstEnd - r.dataStart) groupTotalSize + r.dataStart)) :
    let result := addPartition volume chunkSize position s r.start (r.dataStart - r.start) r.dataEnd fstEnd titleKey
    Represents chunkSize result.2 (ps ++ r.pieces position) ∧ result.1 = r.finish := by
  have hstart : r.start + (r.dataStart - r.start) = r.dataStart := Nat.add_sub_cancel' r.start_le
  have hsplitLt : r.split < 2 ^ 47 := lt_of_le_of_lt r.split_le r.lt
  have hstartLt : r.dataStart < 2 ^ 47 := lt_of_le_of_lt r.dataStart_le hsplitLt
  have hraw := represents_addRawDataEntry (represents_addRawDataEntry h position (r.start - position)) r.start
    (r.dataStart - r.start)
  simp only [addPartition, hstart, ← hsplit, createPartitionDataEntry]
  constructor
  · rw [Region.pieces, ← List.append_assoc, ← List.append_assoc]
    refine hraw.extend ⟨List.prefix_rfl, List.prefix_append _ _⟩ (List.append_assoc _ _ _) ?_ rfl
    simp [Entries.extentOf, numberFrom, storedGroups]
    exact ⟨⟨(sectors_eq hstartLt).trans (alignDown_of_dvd r.aligned), sectors_eq ((Nat.sub_le _ _).trans_lt hsplitLt)⟩,
      sectors_eq hsplitLt, sectors_eq ((Nat.sub_le _ _).trans_lt r.lt)⟩
  · rw [← Nat.add_mod, r.sectors_add, sectors_eq r.lt]
    rfl

/-! ## The loop over the partitions -/

variable {volume : VolumeDisc} {partition position : Nat} {s : Entries}

theorem VolumeDisc.shifted_lt {offset value : Nat} {inside : Option Nat}
    (h : volume.readSwappedAndShifted offset inside = some value) : value < 2 ^ 34 := by
  unfold Volume.readSwappedAndShifted at h
  obtain ⟨x, -, rfl⟩ := Option.map_eq_some_iff.mp h
  have hx := x.toNat_lt
  have hpow : 2 ^ volume.offsetShift ≤ 2 ^ 2 := Nat.pow_le_pow_right (by decide) volume.offsetShift_le
  rw [Nat.shiftLeft_eq]
  calc x.toNat * 2 ^ volume.offsetShift ≤ x.toNat * 2 ^ 2 := Nat.mul_le_mul_left _ hpow
    _ < 2 ^ 34 := by omega

structure RegionData (volume : VolumeDisc) (partition : Nat) (r : Region) (dataOffset dataSize fstOffset fstSize : Nat) :
    Prop where
  offset : volume.readSwappedAndShifted (partition + 0x2b8) none = some dataOffset
  size : volume.readSwappedAndShifted (partition + 0x2bc) none = some dataSize
  fstOffset_eq : volume.getFSTOffset (some partition) = some fstOffset
  fstSize_eq : volume.getFSTSize (some partition) = some fstSize
  aligned : blockTotalSize ∣ partition + dataOffset
  full : blockTotalSize ≤ dataSize
  start_eq : r.start = partition
  dataStart_eq : r.dataStart = partition + dataOffset
  dataEnd_eq : r.dataEnd = partition + dataOffset + dataSize
  split_eq : r.split = min r.dataEnd (alignUp
    (volume.partitionOffsetToRawOffset (fstOffset + fstSize) (some partition) - r.dataStart) groupTotalSize + r.dataStart)

theorem regionOf_data {r : Region} (h : regionOf volume partition = some r) :
    volume.readSwapped partition none = some 0x10001 ∧
      ∃ dataOffset dataSize fstOffset fstSize, RegionData volume partition r dataOffset dataSize fstOffset fstSize := by
  unfold regionOf at h
  split_ifs at h with hsignature
  simp only [Option.bind_eq_bind, Option.bind_eq_some_iff] at h
  obtain ⟨dataOffset, hoffset, dataSize, hsize, fstOffset, hfstOffset, fstSize, hfstSize, h⟩ := h
  split_ifs at h with hconditions
  obtain rfl := Option.some.inj h
  exact ⟨hsignature, dataOffset, dataSize, fstOffset, fstSize,
    ⟨hoffset, hsize, hfstOffset, hfstSize, hconditions.1, hconditions.2.1, rfl, rfl, rfl, rfl⟩⟩

theorem setUpPartition_cases {state : Nat × Entries} (hlt : partition < 2 ^ 34)
    (h : setUpPartition volume chunkSize (position, s) partition = some state) :
    (state = (position, s) ∧ ∀ r, regionOf volume partition = some r → partition < position) ∨
      ∃ r fstEnd titleKey, regionOf volume partition = some r ∧ r.start = partition ∧ ¬ partition < position ∧
        r.split = min r.dataEnd (alignUp (fstEnd - r.dataStart) groupTotalSize + r.dataStart) ∧
        state = addPartition volume chunkSize position s r.start (r.dataStart - r.start) r.dataEnd fstEnd titleKey := by
  unfold setUpPartition at h
  by_cases hbehind : partition < position
  · rw [if_pos hbehind, Option.some.injEq] at h
    exact .inl ⟨h.symm, fun _ _ => hbehind⟩
  rw [if_neg hbehind] at h
  by_cases hsignature : volume.readSwapped partition none = some 0x10001
  swap
  · rw [if_pos hsignature, Option.some.injEq] at h
    exact .inl ⟨h.symm, fun r hr => absurd (regionOf_data hr).1 hsignature⟩
  rw [if_neg (not_not_intro hsignature)] at h
  simp only [Option.bind_eq_bind, Option.bind_eq_some_iff] at h
  obtain ⟨dataOffset, hoffset, dataSize, hsize, h⟩ := h
  have hregion : ∀ r, regionOf volume partition = some r →
      blockTotalSize ∣ partition + dataOffset ∧ blockTotalSize ≤ dataSize := by
    intro r hr
    obtain ⟨-, _, _, _, _, hdata⟩ := regionOf_data hr
    have hoffset' := hoffset.symm.trans hdata.offset
    have hsize' := hsize.symm.trans hdata.size
    rw [Option.some.injEq] at hoffset' hsize'
    rw [hoffset', hsize']
    exact ⟨hdata.aligned, hdata.full⟩
  by_cases haligned : (partition + dataOffset) % blockTotalSize = 0
  swap
  · rw [if_pos haligned, Option.some.injEq] at h
    exact .inl ⟨h.symm, fun r hr => absurd (Nat.mod_eq_zero_of_dvd (hregion r hr).1) haligned⟩
  rw [if_neg (not_not_intro haligned)] at h
  by_cases hsmall : dataSize < blockTotalSize
  · rw [if_pos hsmall, Option.some.injEq] at h
    exact .inl ⟨h.symm, fun r hr => absurd (hregion r hr).2 (Nat.not_le.mpr hsmall)⟩
  rw [if_neg hsmall] at h
  simp only [Option.bind_eq_some_iff, Option.some.injEq] at h
  obtain ⟨fstOffset, hfstOffset, fstSize, hfstSize, titleKey, -, rfl⟩ := h
  have hoffsetLt := VolumeDisc.shifted_lt hoffset
  have hsizeLt := VolumeDisc.shifted_lt hsize
  have hconditions : blockTotalSize ∣ partition + dataOffset ∧ blockTotalSize ≤ dataSize ∧
      partition + dataOffset + dataSize < 2 ^ 47 :=
    ⟨Nat.dvd_of_mod_eq_zero haligned, Nat.not_lt.mp hsmall, by omega⟩
  have hsome : (regionOf volume partition).isSome := by
    unfold regionOf
    rw [if_pos hsignature]
    simp only [hoffset, hsize, hfstOffset, hfstSize, Option.bind_eq_bind, Option.bind_some, dif_pos hconditions,
      Option.isSome_some]
  obtain ⟨r, hr⟩ := Option.isSome_iff_exists.mp hsome
  obtain ⟨-, _, _, _, _, hdata⟩ := regionOf_data hr
  obtain rfl := Option.some.inj (hoffset.symm.trans hdata.offset)
  obtain rfl := Option.some.inj (hsize.symm.trans hdata.size)
  obtain rfl := Option.some.inj (hfstOffset.symm.trans hdata.fstOffset_eq)
  obtain rfl := Option.some.inj (hfstSize.symm.trans hdata.fstSize_eq)
  refine .inr ⟨r, _, titleKey, hr, hdata.start_eq, hbehind, hdata.split_eq, ?_⟩
  rw [hdata.start_eq, hdata.dataStart_eq, hdata.dataEnd_eq, Nat.add_sub_cancel_left]

theorem represents_loop {ps : List Piece} {partitions : List Nat} {state : Nat × Entries}
    (hlt : ∀ partition ∈ partitions, partition < 2 ^ 34) (h : Represents chunkSize s ps)
    (hloop : partitions.foldlM (setUpPartition volume chunkSize) (position, s) = some state) :
    Represents chunkSize state.2 (ps ++ piecesFrom position (regionsFrom volume position partitions)) ∧
      state.1 = lastEnd position (regionsFrom volume position partitions) := by
  induction partitions generalizing position s ps with
  | nil =>
    obtain rfl : (position, s) = state := by simpa using hloop
    simpa [regionsFrom, piecesFrom, lastEnd] using h
  | cons partition partitions ih =>
    rw [List.foldlM_cons, Option.bind_eq_bind, Option.bind_eq_some_iff] at hloop
    obtain ⟨next, hnext, hloop⟩ := hloop
    have hrest : ∀ p ∈ partitions, p < 2 ^ 34 := fun p hp => hlt p (List.mem_cons_of_mem _ hp)
    rcases setUpPartition_cases (hlt partition List.mem_cons_self) hnext with
      ⟨rfl, hskipped⟩ | ⟨r, fstEnd, titleKey, hr, hstart, hbehind, hsplit, rfl⟩
    · have hregions : regionsFrom volume position (partition :: partitions) =
          regionsFrom volume position partitions := by
        rw [regionsFrom]
        cases hr : regionOf volume partition with
        | none => rfl
        | some r => exact if_pos (hskipped r hr)
      rw [hregions]
      exact ih hrest h hloop
    · have hregions : regionsFrom volume position (partition :: partitions) =
          r :: regionsFrom volume r.finish partitions := by
        rw [regionsFrom, hr]
        exact if_neg hbehind
      have hadded := represents_addPartition h volume position r fstEnd titleKey hsplit
      rw [hregions, piecesFrom, lastEnd, ← List.append_assoc, ← hadded.2]
      exact ih hrest hadded.1 hloop

theorem sortedPartitions_lt {disc : VolumeDisc} : ∀ partition ∈ sortedPartitions (some disc), partition < 2 ^ 34 := by
  intro partition hmem
  rw [sortedPartitions] at hmem
  split_ifs at hmem
  · exact disc.partition_lt partition ((List.mem_insertionSort _).mp hmem)
  · cases hmem

theorem represents_layout {disc : Option VolumeDisc} {isoSize : Nat}
    (h : setUpDataEntriesForWriting disc chunkSize isoSize = some s) :
    Represents chunkSize s (layout isoSize (regions disc)) := by
  unfold setUpDataEntriesForWriting at h
  cases disc with
  | none =>
    obtain rfl : addRawDataEntry chunkSize {} 0 (sub64 isoSize 0) = s := by simpa using h
    exact represents_addRawDataEntry represents_empty _ _
  | some disc =>
    simp only [Option.bind_eq_bind, Option.bind_eq_some_iff, Option.pure_def, Option.some.injEq] at h
    obtain ⟨⟨last, s'⟩, hloop, rfl⟩ := h
    obtain ⟨hrepresents, rfl⟩ := represents_loop sortedPartitions_lt represents_empty hloop
    exact represents_addRawDataEntry hrepresents _ _

/-! ## The pieces tile the disc -/

theorem sub64_of_le {a b : Nat} (h : b ≤ a) (hlt : a < 2 ^ 64) : sub64 a b = a - b := by
  have hsum : a + 2 ^ 64 - b = a - b + 2 ^ 64 := by omega
  rw [sub64, hsum, Nat.add_mod_right, Nat.mod_eq_of_lt (by omega)]

def Ascending : (position : Nat) → List Region → Prop
  | _, [] => True
  | position, r :: rs => position ≤ r.start ∧ Ascending r.finish rs

theorem ascending_regionsFrom (partitions : List Nat) : Ascending position (regionsFrom volume position partitions) := by
  induction partitions generalizing position with
  | nil => trivial
  | cons partition partitions ih =>
    rw [regionsFrom]
    cases hr : regionOf volume partition with
    | none => exact ih
    | some r =>
      obtain ⟨-, _, _, _, _, hdata⟩ := regionOf_data hr
      dsimp only
      split_ifs with hbehind
      · exact ih
      · exact ⟨by rw [hdata.start_eq]; exact Nat.not_lt.mp hbehind, ih⟩

theorem ascending_regions (disc : Option VolumeDisc) : Ascending 0 (regions disc) := by
  cases disc with
  | none => trivial
  | some disc => exact ascending_regionsFrom _

namespace Region

variable (r : Region)

theorem dvd_finish : blockTotalSize ∣ r.finish := Nat.dvd_sub_mod _

theorem dataStart_lt_finish : r.dataStart < r.finish := by
  obtain ⟨n, hn⟩ := r.aligned
  have hfull := r.full
  rw [finish, alignDown]
  rw [blockTotalSize] at *
  omega

theorem start_lt_finish : r.start < r.finish := r.start_le.trans_lt r.dataStart_lt_finish

theorem header_lt_finish : discHeaderSize < r.finish := by
  obtain ⟨n, hn⟩ := r.dvd_finish
  have hlt := r.dataStart_lt_finish
  rw [discHeaderSize]
  rw [blockTotalSize] at hn
  omega

theorem header_lt_dataStart (h : 0 < r.dataStart) : discHeaderSize < r.dataStart := by
  obtain ⟨n, hn⟩ := r.aligned
  rw [discHeaderSize]
  rw [blockTotalSize] at hn
  omega

end Region

theorem tiles_rawPieces (offset size : Nat) :
    Tiles (max discHeaderSize (offset + size)) (max discHeaderSize offset)
      ((rawPieces offset size).map Piece.toExtent) := by
  unfold rawPieces
  dsimp only
  split_ifs with hbegin hsize hsize <;> simp only [List.map_nil, List.map_cons, Tiles] <;> omega

theorem Region.tiles_pieces (r : Region) (hle : position ≤ r.start) (hpos : 0 < r.dataStart) :
    Tiles (max discHeaderSize r.finish) (max discHeaderSize position) ((r.pieces position).map Piece.toExtent) := by
  have hheader := r.header_lt_dataStart hpos
  have hbefore := tiles_rawPieces position (r.start - position)
  have hmanagement := tiles_rawPieces r.start (r.dataStart - r.start)
  rw [Nat.add_sub_cancel' hle] at hbefore
  rw [Nat.add_sub_cancel' r.start_le, max_eq_right hheader.le] at hmanagement
  have hdata : Tiles r.finish r.dataStart
      [⟨r.dataStart, alignDown (r.split - r.dataStart) blockTotalSize⟩,
        ⟨alignDown r.split blockTotalSize, alignDown (r.dataEnd - r.split) blockTotalSize⟩] := by
    obtain ⟨n, hn⟩ := r.aligned
    have hle := r.dataStart_le
    have hend := r.split_le
    simp only [Tiles, Region.finish, alignDown, true_and]
    rcases r.split_aligned with hsplit | ⟨m, hm⟩ <;> rw [blockTotalSize] at * <;> omega
  rw [max_eq_right r.header_lt_finish.le, Region.pieces, List.map_append, List.map_append]
  exact (hbefore.append hmanagement).append hdata

theorem tiles_piecesFrom {rs : List Region} (h : Ascending position rs) (hpos : ∀ r ∈ rs, 0 < r.dataStart) :
    Tiles (max discHeaderSize (lastEnd position rs)) (max discHeaderSize position)
      ((piecesFrom position rs).map Piece.toExtent) := by
  induction rs generalizing position with
  | nil => rfl
  | cons r rs ih =>
    rw [piecesFrom, lastEnd, List.map_append]
    exact (r.tiles_pieces h.1 (hpos r List.mem_cons_self)).append
      (ih h.2 fun r' hr' => hpos r' (List.mem_cons_of_mem _ hr'))

theorem lastEnd_ge {rs : List Region} (h : Ascending position rs) : position ≤ lastEnd position rs := by
  induction rs generalizing position with
  | nil => exact le_rfl
  | cons r rs ih => exact (h.1.trans r.start_lt_finish.le).trans (ih h.2)

theorem dataStart_pos {rs : List Region} (h : Ascending position rs) (hpos : 0 < position) : ∀ r ∈ rs, 0 < r.dataStart := by
  induction rs generalizing position with
  | nil => exact fun _ hr => nomatch hr
  | cons r rs ih =>
    intro r' hr'
    rcases List.mem_cons.mp hr' with rfl | hmem
    · exact (hpos.trans_le h.1).trans_le r'.start_le
    · exact ih h.2 (r.start_lt_finish.trans_le' (Nat.zero_le _)) r' hmem

theorem tiles_layout {rs : List Region} {isoSize : Nat} (h : Ascending 0 rs) (hpos : ∀ r ∈ rs, 0 < r.dataStart)
    (hiso : isoSize < 2 ^ 64) (hend : lastEnd 0 rs ≤ isoSize) :
    Tiles (max discHeaderSize isoSize) discHeaderSize ((layout isoSize rs).map Piece.toExtent) := by
  have htail := tiles_rawPieces (lastEnd 0 rs) (isoSize - lastEnd 0 rs)
  rw [Nat.add_sub_cancel' hend, ← sub64_of_le hend hiso] at htail
  rw [layout, List.map_append]
  exact (tiles_piecesFrom h hpos).append htail

theorem tiles_layout_iff {rs : List Region} {isoSize : Nat} (h : Ascending 0 rs) (hiso : isoSize < 2 ^ 64) :
    Tiles (max discHeaderSize isoSize) discHeaderSize ((layout isoSize rs).map Piece.toExtent) ↔
      lastEnd 0 rs ≤ isoSize ∧ ∀ r ∈ rs, 0 < r.dataStart := by
  refine ⟨fun htiles => ?_, fun ⟨hend, hpos⟩ => tiles_layout h hpos hiso hend⟩
  have hpos : ∀ r ∈ rs, 0 < r.dataStart := by
    cases rs with
    | nil => exact fun _ hr => nomatch hr
    | cons r rs =>
      have hfirst : 0 < r.dataStart := by
        rw [Nat.pos_iff_ne_zero]
        intro hzero
        have hstart : r.start = 0 := by
          have := r.start_le
          omega
        -- there are no raw data in front of the region
        have hnone : rawPieces 0 0 = [] := rfl
        rw [layout, piecesFrom, Region.pieces, hstart, hzero, Nat.sub_self, hnone] at htiles
        exact absurd htiles.1 (show (0 : Nat) ≠ 0x80 by decide)
      intro r' hr'
      rcases List.mem_cons.mp hr' with rfl | hmem
      · exact hfirst
      · exact dataStart_pos h.2 (r.start_lt_finish.trans_le' (Nat.zero_le _)) r' hmem
  refine ⟨?_, hpos⟩
  by_contra hbehind
  have hpieces : Tiles (max discHeaderSize (lastEnd 0 rs)) discHeaderSize ((piecesFrom 0 rs).map Piece.toExtent) :=
    tiles_piecesFrom h hpos
  rw [layout, List.map_append, tiles_append, hpieces.endOf_eq] at htiles
  have hheader : discHeaderSize < lastEnd 0 rs := by
    cases rs with
    | nil => exact absurd (Nat.zero_le _) hbehind
    | cons r rs => exact r.header_lt_finish.trans_le (lastEnd_ge h.2)
  -- the size of what lies behind the last region is negative, and the raw data end at another place
  have hend := htiles.2.endOf_eq
  rw [(tiles_rawPieces (lastEnd 0 rs) (sub64 isoSize (lastEnd 0 rs))).endOf_eq, sub64] at hend
  omega

end Karphin.DiscIO.WIARVZ
