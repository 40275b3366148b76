import Karphin.DiscIO.WIA.Lemmas.Layout

/-!
# When the data entries are those of the disc

The data entries tile the disc behind its header, have the numbers of groups that `Convert` counts, and pass its
assertions, if and only if no partition ends behind the disc and nothing is rounded that `Convert` does not expect.
-/

namespace Karphin.DiscIO.WIARVZ

open Lib
open Scrubbing (alignDown)

/-! ## What is expected of the data entries -/

def Numbered (chunkSize : Nat) : (total : Nat) → List StoredExtent → Prop
  | _, [] => True
  | total, e :: extents =>
      e.groupIndex = total ∧ e.numberOfGroups = chunks chunkSize e.size ∧
        Numbered chunkSize (total + chunks chunkSize e.size) extents

/-- The loop of `Convert` comes to its end, or to a part of the disc that cannot be read. -/
def AssertionsHold (chunkSize isoSize : Nat) (s : Entries) : Prop :=
  convert isoSize chunkSize s = .error .readFailed ∨ ∃ p, convert isoSize chunkSize s = .ok p

structure Stored (chunkSize isoSize : Nat) (s : Entries) : Prop where
  tiles : Tiles (max discHeaderSize isoSize) discHeaderSize (s.extents.map StoredExtent.toExtent)
  numbered : Numbered chunkSize 0 s.extents
  total : s.totalGroups = (s.extents.map fun e => chunks chunkSize e.size).sum
  assertions : AssertionsHold chunkSize isoSize s

/-- No region ends behind the disc or has its data at the beginning, the partitions begin with a block, a disc without
regions does not end within the first bytes of a chunk, and the groups can be counted. -/
structure Storable (chunkSize isoSize : Nat) (rs : List Region) : Prop where
  onDisc : lastEnd 0 rs ≤ isoSize
  started : ∀ r ∈ rs, 0 < r.dataStart
  aligned : ∀ r ∈ rs, blockTotalSize ∣ r.start ∨ r.start ≤ discHeaderSize
  tail : rs = [] → isoSize < discHeaderSize ∨ isoSize % chunkSize = 0 ∨ discHeaderSize < isoSize % chunkSize
  counted : ((layout isoSize rs).map fun p => chunks chunkSize p.size).sum < 2 ^ 32

/-! ## Chunk sizes -/

structure ChunkSize (chunkSize : Nat) : Prop where
  blocks : blockTotalSize ∣ chunkSize
  groups : chunkSize ∣ groupTotalSize ∨ groupTotalSize ∣ chunkSize
  lt : chunkSize < 2 ^ 31
  pos : 0 < chunkSize

theorem chunkSize_valid {chunkSize : Nat} {rvz : Bool} (hvalid : isDiscImageBlockSizeValid chunkSize rvz)
    (hlt : chunkSize < 2 ^ 31) : ChunkSize chunkSize := by
  have hblock : blockTotalSize ∣ 0x200000 := by decide
  have hmultiple : ∀ {n : Nat}, 0x200000 ≤ n → n % 0x200000 = 0 → n < 2 ^ 31 → ChunkSize n := by
    intro n hle hmod hlt
    have hdvd := Nat.dvd_of_mod_eq_zero hmod
    exact ⟨hblock.trans hdvd, .inr hdvd, hlt, by omega⟩
  cases rvz with
  | false =>
    simp [isDiscImageBlockSizeValid] at hvalid
    exact hmultiple hvalid.1 hvalid.2 hlt
  | true =>
    simp [isDiscImageBlockSizeValid] at hvalid
    obtain ⟨⟨hmin, hpow⟩, hbig⟩ := hvalid
    rcases Nat.lt_or_ge chunkSize 0x200000 with hlarge | hlarge
    · obtain ⟨hpos, hand⟩ := hpow.resolve_left (Nat.not_le.mpr hlarge)
      obtain ⟨m, rfl⟩ := (Nat.and_sub_one_eq_zero_iff_isPowerOfTwo hpos.ne').mp hand
      have hlow : 15 ≤ m := (Nat.pow_le_pow_iff_right (show 1 < 2 by decide)).mp hmin
      have hhigh : m < 21 := (Nat.pow_lt_pow_iff_right (show 1 < 2 by decide)).mp hlarge
      exact ⟨Nat.pow_dvd_pow 2 hlow, .inl (Nat.pow_dvd_pow 2 hhigh.le), hlt, hpos⟩
    · exact hmultiple hlarge (hbig.elim (fun hle => by rw [le_antisymm hle hlarge]) id) hlt

/-! ## Stored numbers -/

variable {chunkSize isoSize : Nat}

theorem alignUp_div {value size : Nat} (hpos : 0 < size) (h : value + (size - 1) < 2 ^ 64) :
    alignUp value size / size = chunks size value := by
  have hdown := Nat.eq_sub_of_add_eq (Nat.div_add_mod' (value + (size - 1)) size)
  rw [alignUp, Nat.mod_eq_of_lt h, alignDown, ← hdown, Nat.mul_div_cancel _ hpos, chunks]

theorem le_chunks_mul {size : Nat} (hpos : 0 < chunkSize) : size ≤ chunks chunkSize size * chunkSize := by
  have h := Nat.div_add_mod' (size + (chunkSize - 1)) chunkSize
  have hmod := Nat.mod_lt (size + (chunkSize - 1)) hpos
  rw [chunks]
  omega

theorem numbered_numberFrom (hc : ChunkSize chunkSize) {ps : List Piece} {total : Nat}
    (h : total + (ps.map fun p => chunks chunkSize p.size).sum < 2 ^ 32) :
    Numbered chunkSize total (numberFrom chunkSize total ps) ∧
      totalFrom chunkSize total ps = total + (ps.map fun p => chunks chunkSize p.size).sum := by
  induction ps generalizing total with
  | nil => exact ⟨trivial, rfl⟩
  | cons p ps ih =>
    rw [List.map_cons, List.sum_cons] at h ⊢
    have hsmall : p.size + (chunkSize - 1) < 2 ^ 64 := by
      have hle : p.size ≤ chunks chunkSize p.size * chunkSize := le_chunks_mul hc.pos
      have hmul : chunks chunkSize p.size * chunkSize ≤ 2 ^ 32 * 2 ^ 31 := Nat.mul_le_mul (by omega) hc.lt.le
      have := hc.lt
      omega
    have hstored : storedGroups chunkSize p = chunks chunkSize p.size := by
      rw [storedGroups, alignUp_div hc.pos hsmall, Nat.mod_eq_of_lt (by omega)]
    have hnext : (total + storedGroups chunkSize p) % 2 ^ 32 = total + chunks chunkSize p.size := by
      rw [hstored, Nat.mod_eq_of_lt (by omega)]
    have hrest : total + chunks chunkSize p.size + (ps.map fun p => chunks chunkSize p.size).sum < 2 ^ 32 := by omega
    rw [numberFrom, totalFrom, hnext, ← Nat.add_assoc]
    exact ⟨⟨rfl, hstored, (ih hrest).1⟩, (ih hrest).2⟩

theorem totalFrom_lt (ps : List Piece) {total : Nat} (h : total < 2 ^ 32) : totalFrom chunkSize total ps < 2 ^ 32 := by
  induction ps generalizing total with
  | nil => exact h
  | cons p ps ih => exact ih (Nat.mod_lt _ (by decide))

theorem map_numberFrom {α : Type*} (f : Extent → Bool → α) (ps : List Piece) (total : Nat) :
    (numberFrom chunkSize total ps).map (fun e => f e.toExtent e.isPartition) =
      ps.map fun p => f p.toExtent p.isPartition := by
  induction ps generalizing total with
  | nil => rfl
  | cons p ps ih => exact congrArg _ (ih _)

theorem forall_numberFrom (P : Extent → Bool → Prop) (ps : List Piece) (total : Nat) :
    (∀ e ∈ numberFrom chunkSize total ps, P e.toExtent e.isPartition) ↔ ∀ p ∈ ps, P p.toExtent p.isPartition := by
  induction ps generalizing total with
  | nil => simp [numberFrom]
  | cons p ps ih => rw [numberFrom, List.forall_mem_cons, List.forall_mem_cons, ih]

/-! ## `Convert` -/

section
variable {stride fuel lastGroup size : Nat} {p : Progress}

theorem readGroups_done (h : lastGroup ≤ p.groupsProcessed) (dataOffset : Nat) :
    readGroups isoSize chunkSize stride lastGroup fuel p dataOffset size = .ok (p, size) := by
  cases fuel <;> rw [readGroups, if_neg (Nat.not_lt.mpr h)]

theorem readGroups_round {bytes : Nat} (hc : ChunkSize chunkSize) (hiso : isoSize < 2 ^ 64) (hstride : stride < 2 ^ 32)
    (hsize : p.bytesRead + size ≤ isoSize) (hgroup : p.groupsProcessed < lastGroup) (hbytes : min stride size = bytes) :
    readGroups isoSize chunkSize stride lastGroup (fuel + 1) p p.bytesRead size =
      readGroups isoSize chunkSize stride lastGroup fuel
        ⟨p.bytesRead + bytes, p.groupsProcessed + chunks chunkSize bytes⟩ (p.bytesRead + bytes) (size - bytes) := by
  have hle : bytes ≤ size := hbytes ▸ min_le_right _ _
  have hleStride : bytes ≤ stride := hbytes ▸ min_le_left _ _
  have hlt := hc.lt
  have hleft : sub64 ((p.bytesRead + size) % 2 ^ 64) p.bytesRead = size := by
    rw [Nat.mod_eq_of_lt (by omega), sub64_of_le (by omega) (by omega), Nat.add_sub_cancel_left]
  rw [readGroups, if_pos hgroup]
  simp only [hleft, hbytes]
  rw [if_neg (by omega), alignUp_div hc.pos (by omega), sub64_of_le hle (by omega)]

theorem readGroups_all (hc : ChunkSize chunkSize) (hiso : isoSize < 2 ^ 64) (hdvd : chunkSize ∣ stride)
    (hpos : 0 < stride) (hstride : stride < 2 ^ 32) (hsize : p.bytesRead + size ≤ isoSize)
    (hlast : lastGroup = p.groupsProcessed + chunks chunkSize size) (hfuel : lastGroup - p.groupsProcessed ≤ fuel) :
    readGroups isoSize chunkSize stride lastGroup fuel p p.bytesRead size =
      .ok (⟨p.bytesRead + size, lastGroup⟩, 0) := by
  induction fuel generalizing p size with
  | zero =>
    have hzero : size = 0 := by
      by_contra hne
      have := chunks_pos hc.pos (Nat.pos_of_ne_zero hne)
      omega
    subst hzero
    rw [readGroups_done (by omega), hlast, chunks_zero hc.pos]
    rfl
  | succ fuel ih =>
    rcases Nat.eq_zero_or_pos size with rfl | hsizePos
    · rw [chunks_zero hc.pos] at hlast
      rw [readGroups_done (by omega), hlast]
      rfl
    have hgroup := chunks_pos hc.pos hsizePos
    rcases le_or_gt size stride with hle | hlt
    · rw [readGroups_round hc hiso hstride hsize (by omega) (min_eq_right hle), readGroups_done hlast.le, Nat.sub_self,
        ← hlast]
    · obtain ⟨k, rfl⟩ := hdvd
      have hsplit : chunks chunkSize size = k + chunks chunkSize (size - chunkSize * k) := by
        rw [← chunks_add_mul hc.pos, Nat.mul_comm k, Nat.add_sub_cancel' hlt.le]
      have hround : chunks chunkSize (chunkSize * k) = k := by
        have h := chunks_add_mul hc.pos k 0
        rwa [chunks_zero hc.pos, Nat.add_zero, Nat.add_zero, Nat.mul_comm] at h
      have hk : 0 < k := Nat.pos_of_mul_pos_left hpos
      rw [readGroups_round hc hiso hstride hsize (by omega) (min_eq_left hlt.le), hround]
      have hend : p.bytesRead + size = p.bytesRead + chunkSize * k + (size - chunkSize * k) := by omega
      rw [hend] at hsize ⊢
      refine ih (p := ⟨p.bytesRead + chunkSize * k, p.groupsProcessed + k⟩) hsize ?_ ?_
      · rw [hlast, hsplit, Nat.add_assoc]
      · show lastGroup - (p.groupsProcessed + k) ≤ fuel
        omega

theorem readGroups_short (hc : ChunkSize chunkSize) (hiso : isoSize < 2 ^ 64) {n rest : Nat}
    (hsize : p.bytesRead + (n * chunkSize + rest) ≤ isoSize) (hlast : lastGroup = p.groupsProcessed + n)
    (hfuel : n ≤ fuel) :
    ∃ p', readGroups isoSize chunkSize chunkSize lastGroup fuel p p.bytesRead (n * chunkSize + rest) =
      .ok (p', rest) := by
  induction n generalizing p fuel with
  | zero =>
    rw [readGroups_done (by omega)]
    exact ⟨p, by rw [Nat.zero_mul, Nat.zero_add]⟩
  | succ n ih =>
    obtain ⟨fuel, rfl⟩ : ∃ f, fuel = f + 1 := ⟨fuel - 1, by omega⟩
    have hsum : (n + 1) * chunkSize + rest = chunkSize + (n * chunkSize + rest) := by ring
    have hchunk : chunks chunkSize chunkSize = 1 := chunks_of_le hc.pos le_rfl
    have hlt := hc.lt
    rw [readGroups_round hc hiso (by omega) hsize (by omega) (min_eq_left (by omega)), hchunk, hsum,
      Nat.add_sub_cancel_left]
    rw [hsum] at hsize
    exact ih (p := ⟨p.bytesRead + chunkSize, p.groupsProcessed + 1⟩) (by dsimp only; omega) (by dsimp only; omega) (by omega)

end

/-- An entry as the tables hold it: the sectors of a partition are whole blocks, and raw data begin behind the disc
header and are not empty. -/
def WellFormed (e : Extent) (isPartition : Bool) : Prop :=
  if isPartition then blockTotalSize ∣ e.offset else discHeaderSize ≤ e.offset ∧ 0 < e.size

/-- Nothing is rounded that is not read: raw data begin with a block, or the disc header in front of them fits their
last group. -/
def Entire (chunkSize : Nat) (e : Extent) (isPartition : Bool) : Prop :=
  isPartition = true ∨ blockTotalSize ∣ e.offset ∨
    (e.offset = discHeaderSize ∧ chunks chunkSize (e.size + discHeaderSize) = chunks chunkSize e.size)

/-- How much of the disc is read when the entries up to a position are: the first one begins with the disc header. -/
def readTo (position : Nat) : Nat := if position = discHeaderSize then 0 else position

section
variable {e : StoredExtent} {p : Progress}

theorem readTo_of_dvd {position : Nat} (h : blockTotalSize ∣ position) : readTo position = position := by
  rw [readTo, if_neg]
  rintro rfl
  exact absurd h (by decide)

structure Next (chunkSize isoSize : Nat) (p : Progress) (e : StoredExtent) : Prop where
  wellFormed : WellFormed e.toExtent e.isPartition
  read : p.bytesRead = readTo e.offset
  group : p.groupsProcessed = e.groupIndex
  number : e.numberOfGroups = chunks chunkSize e.size
  count : e.groupIndex + e.numberOfGroups < 2 ^ 32
  fits : e.offset + e.size ≤ isoSize

def StoredExtent.skipped (e : StoredExtent) : Nat := if e.isPartition then 0 else e.offset % blockTotalSize

theorem StoredExtent.skipped_le (e : StoredExtent) : e.skipped ≤ e.offset := by
  unfold StoredExtent.skipped
  split_ifs
  · exact Nat.zero_le _
  · exact Nat.mod_le _ _

theorem convertEntry_eq (h : Next chunkSize isoSize p e) (hread : p.bytesRead = e.offset - e.skipped)
    (hsize : e.size + e.skipped < 2 ^ 64) :
    convertEntry isoSize chunkSize p e =
      match readGroups isoSize chunkSize (if e.isPartition then max chunkSize groupTotalSize else chunkSize)
        (e.groupIndex + e.numberOfGroups) (e.groupIndex + e.numberOfGroups - p.groupsProcessed) p p.bytesRead
        (e.size + e.skipped) with
      | .error stop => .error stop
      | .ok (p, dataSize) => if dataSize = 0 then .ok p else .error .assertionFailed := by
  have hholds : ¬ (p.groupsProcessed ≠ e.groupIndex ∨ p.bytesRead ≠ e.offset - e.skipped) := by
    rw [not_or, not_not, not_not]
    exact ⟨h.group, hread⟩
  unfold convertEntry
  refine (if_neg hholds).trans ?_
  rw [Nat.mod_eq_of_lt h.count, hread, ← Nat.mod_eq_of_lt hsize]
  rfl

theorem convertEntry_of_read (hc : ChunkSize chunkSize) (hiso : isoSize < 2 ^ 64) (h : Next chunkSize isoSize p e)
    (hread : p.bytesRead = e.offset - e.skipped)
    (hchunks : chunks chunkSize (e.size + e.skipped) = chunks chunkSize e.size) :
    convertEntry isoSize chunkSize p e = .ok ⟨e.offset + e.size, e.groupIndex + e.numberOfGroups⟩ := by
  have hle := e.skipped_le
  have hfits := h.fits
  have hlt := hc.lt
  have hlast : e.groupIndex + e.numberOfGroups = p.groupsProcessed + chunks chunkSize (e.size + e.skipped) := by
    rw [h.group, h.number, hchunks]
  have hsize : p.bytesRead + (e.size + e.skipped) = e.offset + e.size := by omega
  obtain ⟨hdvd, hpos, hstride⟩ : chunkSize ∣ (if e.isPartition then max chunkSize groupTotalSize else chunkSize) ∧
      0 < (if e.isPartition then max chunkSize groupTotalSize else chunkSize) ∧
      (if e.isPartition then max chunkSize groupTotalSize else chunkSize) < 2 ^ 32 := by
    split_ifs
    · refine ⟨?_, lt_max_of_lt_left hc.pos, max_lt (by omega) (by decide)⟩
      rcases hc.groups with hdvd | hdvd
      · rwa [max_eq_right (Nat.le_of_dvd (by decide) hdvd)]
      · rw [max_eq_left (Nat.le_of_dvd hc.pos hdvd)]
    · exact ⟨dvd_rfl, hc.pos, by omega⟩
  rw [convertEntry_eq h hread (by omega), readGroups_all hc hiso hdvd hpos hstride (by omega) hlast le_rfl]
  simp only [hsize, if_true]

theorem convertEntry_entire (hc : ChunkSize chunkSize) (hiso : isoSize < 2 ^ 64) (h : Next chunkSize isoSize p e)
    (hentire : Entire chunkSize e.toExtent e.isPartition) :
    convertEntry isoSize chunkSize p e = .ok ⟨e.offset + e.size, e.groupIndex + e.numberOfGroups⟩ := by
  have hblock (hdvd : blockTotalSize ∣ e.offset) (hskipped : e.skipped = 0) :
      convertEntry isoSize chunkSize p e = .ok ⟨e.offset + e.size, e.groupIndex + e.numberOfGroups⟩ := by
    apply convertEntry_of_read hc hiso h
    · rw [hskipped, h.read, readTo_of_dvd hdvd, Nat.sub_zero]
    · rw [hskipped, Nat.add_zero]
  have hwell := h.wellFormed
  unfold WellFormed at hwell
  unfold StoredExtent.skipped at hblock
  by_cases hkind : e.isPartition = true
  · rw [if_pos hkind] at hwell hblock
    exact hblock hwell rfl
  rw [if_neg hkind] at hblock
  rcases hentire with hpartition | hdvd | ⟨hheader, hchunks⟩
  · exact absurd hpartition hkind
  · exact hblock hdvd (Nat.mod_eq_zero_of_dvd hdvd)
  · have hskipped : e.skipped = discHeaderSize := by
      rw [StoredExtent.skipped, if_neg hkind, hheader]
      rfl
    apply convertEntry_of_read hc hiso h
    · rw [hskipped, hheader, h.read, hheader]
      rfl
    · rw [hskipped, hchunks]

theorem convertEntry_rounded (hc : ChunkSize chunkSize) (hiso : isoSize < 2 ^ 64) (h : Next chunkSize isoSize p e)
    (hentire : ¬ Entire chunkSize e.toExtent e.isPartition) :
    convertEntry isoSize chunkSize p e = .error .assertionFailed := by
  simp only [Entire, not_or, Bool.not_eq_true] at hentire
  obtain ⟨hkind, hdvd, hchunks⟩ := hentire
  have hwell := h.wellFormed
  simp only [WellFormed, hkind, Bool.false_eq_true, if_false] at hwell
  by_cases hheader : e.offset = discHeaderSize
  · -- the disc header needs a further group
    have hskipped : e.skipped = discHeaderSize := by
      rw [StoredExtent.skipped, hkind, hheader]
      rfl
    have hover : chunks chunkSize e.size * chunkSize < e.size + discHeaderSize := by
      by_contra hle
      refine hchunks ⟨hheader, le_antisymm ?_ (Nat.div_le_div_right (by omega))⟩
      have hround := chunks_add_mul hc.pos (chunks chunkSize e.size) 0
      rw [chunks_zero hc.pos, Nat.add_zero, Nat.add_zero] at hround
      rw [← hround]
      exact Nat.div_le_div_right (by omega)
    obtain ⟨rest, hrest⟩ : ∃ rest, e.size + discHeaderSize = chunks chunkSize e.size * chunkSize + (rest + 1) :=
      ⟨e.size + discHeaderSize - chunks chunkSize e.size * chunkSize - 1, by omega⟩
    have hzero : p.bytesRead = 0 := by
      rw [h.read, hheader]
      rfl
    have hfits := h.fits
    have hread : p.bytesRead = e.offset - e.skipped := by rw [hzero, hheader, hskipped, Nat.sub_self]
    obtain ⟨p', hshort⟩ : ∃ p', readGroups isoSize chunkSize chunkSize (e.groupIndex + e.numberOfGroups)
        (e.groupIndex + e.numberOfGroups - p.groupsProcessed) p p.bytesRead
        (chunks chunkSize e.size * chunkSize + (rest + 1)) = .ok (p', rest + 1) := by
      apply readGroups_short hc hiso
      · rw [← hrest]
        omega
      · rw [h.group, h.number]
      · rw [h.group, h.number, Nat.add_sub_cancel_left]
    rw [convertEntry_eq h hread (by omega), hkind, hskipped, hrest]
    simp only [Bool.false_eq_true, if_false, hshort]
    rw [if_neg (Nat.succ_ne_zero rest)]
  · -- the entry is expected to begin with a block
    have hmod : e.offset % blockTotalSize ≠ 0 := fun hzero => hdvd (Nat.dvd_of_mod_eq_zero hzero)
    have hread : p.bytesRead ≠ e.offset - e.offset % blockTotalSize := by
      rw [h.read, readTo, if_neg hheader]
      have := Nat.mod_le e.offset blockTotalSize
      omega
    unfold convertEntry
    simp only [hkind, Bool.false_eq_true, if_false]
    rw [if_pos (.inr hread)]

theorem WellFormed.end_gt (h : WellFormed e.toExtent e.isPartition) (hle : discHeaderSize ≤ e.offset) :
    discHeaderSize < e.offset + e.size := by
  unfold WellFormed at h
  split_ifs at h
  · obtain ⟨n, hn⟩ := h
    rw [discHeaderSize] at hle ⊢
    rw [blockTotalSize] at hn
    omega
  · have := h.2
    omega

end

section
variable {extents : List StoredExtent} {finish position total : Nat}

theorem convert_entries (hc : ChunkSize chunkSize) (hiso : isoSize < 2 ^ 64)
    (hwell : ∀ e ∈ extents, WellFormed e.toExtent e.isPartition) (hposition : discHeaderSize ≤ position)
    (htiles : Tiles finish position (extents.map StoredExtent.toExtent)) (hfinish : finish ≤ isoSize)
    (hnumbered : Numbered chunkSize total extents)
    (hcount : total + (extents.map fun e => chunks chunkSize e.size).sum < 2 ^ 32) :
    ((∀ e ∈ extents, Entire chunkSize e.toExtent e.isPartition) →
      extents.foldlM (convertEntry isoSize chunkSize) ⟨readTo position, total⟩ =
        .ok ⟨readTo finish, total + (extents.map fun e => chunks chunkSize e.size).sum⟩) ∧
    ((∃ e ∈ extents, ¬ Entire chunkSize e.toExtent e.isPartition) →
      extents.foldlM (convertEntry isoSize chunkSize) ⟨readTo position, total⟩ = .error .assertionFailed) := by
  induction extents generalizing position total with
  | nil =>
    obtain rfl : position = finish := htiles
    exact ⟨fun _ => rfl, fun ⟨_, hmem, _⟩ => nomatch hmem⟩
  | cons e extents ih =>
    obtain ⟨hoffset, hrest⟩ := htiles
    obtain ⟨hindex, hnumber, hnumbered⟩ := hnumbered
    rw [List.map_cons, List.sum_cons, ← Nat.add_assoc] at hcount ⊢
    have hle : position + e.size ≤ isoSize := hrest.le.trans hfinish
    have hnext : Next chunkSize isoSize ⟨readTo position, total⟩ e :=
      ⟨hwell e List.mem_cons_self, by rw [hoffset], hindex.symm, hnumber, by omega, by rwa [hoffset]⟩
    have hgt := hnext.wellFormed.end_gt (by rwa [hoffset])
    rw [hoffset] at hgt
    have hread : readTo (position + e.size) = position + e.size := if_neg hgt.ne'
    have htail := ih (fun e' he' => hwell e' (List.mem_cons_of_mem _ he')) hgt.le hrest hnumbered hcount
    rw [List.foldlM_cons]
    constructor
    · intro hentire
      rw [convertEntry_entire hc hiso hnext (hentire e List.mem_cons_self), hoffset, hindex, hnumber, ← hread]
      exact htail.1 fun e' he' => hentire e' (List.mem_cons_of_mem _ he')
    · rintro ⟨e', he', hrounded⟩
      by_cases hentire : Entire chunkSize e.toExtent e.isPartition
      · rw [convertEntry_entire hc hiso hnext hentire, hoffset, hindex, hnumber, ← hread]
        refine htail.2 ⟨e', (List.mem_cons.mp he').resolve_left ?_, hrounded⟩
        rintro rfl
        exact hrounded hentire
      · rw [convertEntry_rounded hc hiso hnext hentire]
        rfl

theorem assertionsHold_iff {s : Entries} (hc : ChunkSize chunkSize) (hiso : isoSize < 2 ^ 64)
    (hwell : ∀ e ∈ s.extents, WellFormed e.toExtent e.isPartition)
    (htiles : Tiles (max discHeaderSize isoSize) discHeaderSize (s.extents.map StoredExtent.toExtent))
    (hnumbered : Numbered chunkSize 0 s.extents)
    (htotal : s.totalGroups = (s.extents.map fun e => chunks chunkSize e.size).sum) (hcount : s.totalGroups < 2 ^ 32) :
    AssertionsHold chunkSize isoSize s ↔
      isoSize < discHeaderSize ∨
        (isoSize ≠ discHeaderSize ∧ ∀ e ∈ s.extents, Entire chunkSize e.toExtent e.isPartition) := by
  unfold AssertionsHold convert
  by_cases hsmall : isoSize < discHeaderSize
  · simp [hsmall]
  rw [max_eq_right (Nat.not_lt.mp hsmall)] at htiles
  have hloop := convert_entries hc hiso hwell le_rfl htiles le_rfl hnumbered (by omega)
  simp only [if_neg hsmall, or_iff_right hsmall]
  have hstart : readTo discHeaderSize = 0 := if_pos rfl
  rw [hstart, Nat.zero_add, ← htotal] at hloop
  by_cases hentire : ∀ e ∈ s.extents, Entire chunkSize e.toExtent e.isPartition
  · rw [hloop.1 hentire, and_iff_left hentire]
    by_cases hheader : isoSize = discHeaderSize
    · simp [hheader, readTo, discHeaderSize]
    · simp [hheader, readTo]
  · rw [hloop.2 (by simpa using hentire)]
    simp [hentire]

end

/-! ## The layout -/

theorem mem_rawPieces {offset size : Nat} {p : Piece} (h : p ∈ rawPieces offset size) :
    p.isPartition = false ∧ p.offset = max discHeaderSize offset ∧ p.offset + p.size = offset + size ∧ 0 < p.size := by
  unfold rawPieces at h
  dsimp only at h
  split_ifs at h with hbegin hsize hsize
  · cases h
  · obtain rfl := List.mem_singleton.mp h
    refine ⟨rfl, ?_, ?_, ?_⟩ <;> dsimp only <;> omega
  · cases h
  · obtain rfl := List.mem_singleton.mp h
    refine ⟨rfl, ?_, ?_, ?_⟩ <;> dsimp only <;> omega

theorem rawPieces_ne_nil {offset size : Nat} (h : discHeaderSize < offset + size) (hsize : 0 < size) :
    ∃ p, p ∈ rawPieces offset size := by
  unfold rawPieces
  dsimp only
  split_ifs with hbegin hempty hempty
  · omega
  · exact ⟨_, List.mem_singleton_self _⟩
  · omega
  · exact ⟨_, List.mem_singleton_self _⟩

theorem wellFormed_layout {rs : List Region} : ∀ p ∈ layout isoSize rs, WellFormed p.toExtent p.isPartition := by
  have hraw : ∀ {offset size : Nat} {p : Piece}, p ∈ rawPieces offset size →
      WellFormed p.toExtent p.isPartition := by
    intro offset size p hp
    obtain ⟨hkind, hoffset, -, hpos⟩ := mem_rawPieces hp
    rw [WellFormed, hkind, hoffset]
    exact ⟨le_max_left _ _, hpos⟩
  have hpieces : ∀ {position : Nat}, ∀ p ∈ piecesFrom position rs,
      WellFormed p.toExtent p.isPartition := by
    intro position
    induction rs generalizing position with
    | nil => exact fun _ hp => nomatch hp
    | cons r rs ih =>
      intro p hp
      simp only [piecesFrom, Region.pieces, List.mem_append, List.mem_cons, List.not_mem_nil, or_false] at hp
      rcases hp with ((hp | hp) | rfl | rfl) | hp
      · exact hraw hp
      · exact hraw hp
      · exact r.aligned
      · exact Nat.dvd_sub_mod _
      · exact ih p hp
  intro p hp
  rcases List.mem_append.mp hp with hp | hp
  · exact hpieces p hp
  · exact hraw hp

theorem header_mod_block (hc : ChunkSize chunkSize) {n : Nat} (h : blockTotalSize ∣ n) :
    n % chunkSize = 0 ∨ discHeaderSize < n % chunkSize := by
  obtain ⟨m, hm⟩ := (Nat.dvd_mod_iff hc.blocks).mpr h
  rw [hm]
  rw [discHeaderSize, blockTotalSize]
  omega

theorem entire_first_iff (hc : ChunkSize chunkSize) {offset size : Nat} {p : Piece} (hp : p ∈ rawPieces offset size)
    (hoffset : offset ≤ discHeaderSize) :
    Entire chunkSize p.toExtent p.isPartition ↔
      (offset + size) % chunkSize = 0 ∨ discHeaderSize < (offset + size) % chunkSize := by
  obtain ⟨hkind, hbegin, hend, hpos⟩ := mem_rawPieces hp
  rw [max_eq_left hoffset] at hbegin
  have hheader : discHeaderSize < chunkSize := (show discHeaderSize < blockTotalSize by decide).trans_le
    (Nat.le_of_dvd hc.pos hc.blocks)
  have hdvd : ¬ blockTotalSize ∣ p.offset := by
    rw [hbegin]
    decide
  have hsum : p.size + discHeaderSize = offset + size := by omega
  rw [Entire, hkind, or_iff_right (by decide), or_iff_right hdvd, and_iff_right hbegin,
    chunks_add_eq_iff hheader hpos, hsum]

theorem entire_of_dvd {offset size : Nat} {p : Piece} (hp : p ∈ rawPieces offset size)
    (hoffset : discHeaderSize < offset) (h : blockTotalSize ∣ offset) :
    Entire chunkSize p.toExtent p.isPartition := by
  obtain ⟨-, hbegin, -, -⟩ := mem_rawPieces hp
  refine .inr (.inl ?_)
  rwa [hbegin, max_eq_right hoffset.le]

def Begins (position : Nat) : Prop := position = 0 ∨ discHeaderSize < position ∧ blockTotalSize ∣ position

theorem Region.begins_finish (r : Region) : Begins r.finish := .inr ⟨r.header_lt_finish, r.dvd_finish⟩

theorem begins_lastEnd {position : Nat} (h : Begins position) (rs : List Region) : Begins (lastEnd position rs) := by
  induction rs generalizing position with
  | nil => exact h
  | cons r rs ih => exact ih r.begins_finish

theorem entire_pieces_iff (hc : ChunkSize chunkSize) {position : Nat} {r : Region} (hposition : Begins position)
    (hle : position ≤ r.start) (hpos : 0 < r.dataStart) :
    (∀ p ∈ r.pieces position, Entire chunkSize p.toExtent p.isPartition) ↔
      blockTotalSize ∣ r.start ∨ r.start ≤ discHeaderSize := by
  have hheader := r.header_lt_dataStart hpos
  have hdata : r.start + (r.dataStart - r.start) = r.dataStart := Nat.add_sub_cancel' r.start_le
  constructor
  · intro hentire
    by_contra hrounded
    rw [not_or, Nat.not_le] at hrounded
    obtain ⟨hdvd, hbehind⟩ := hrounded
    have hne : r.start ≠ r.dataStart := fun heq => hdvd (heq ▸ r.aligned)
    have hlt := r.start_le.lt_of_ne hne
    obtain ⟨p, hp⟩ := rawPieces_ne_nil (by rwa [hdata]) (Nat.sub_pos_of_lt hlt)
    obtain ⟨hkind, hoffset, -, -⟩ := mem_rawPieces hp
    rw [max_eq_right hbehind.le] at hoffset
    have hmem : p ∈ r.pieces position := by
      simp only [Region.pieces, List.mem_append]
      exact .inl (.inr hp)
    rcases hentire p hmem with htrue | hblock | ⟨hfirst, -⟩
    · rw [hkind] at htrue
      cases htrue
    · exact hdvd (hoffset ▸ hblock)
    · omega
  · intro hstart p hp
    simp only [Region.pieces, List.mem_append, List.mem_cons, List.not_mem_nil, or_false] at hp
    rcases hp with (hp | hp) | rfl | rfl
    · rcases hposition with rfl | ⟨hbehind, hdvd⟩
      · rw [entire_first_iff hc hp (Nat.zero_le _), Nat.zero_add, Nat.sub_zero]
        rcases hstart with hblock | hsmall
        · exact header_mod_block hc hblock
        · obtain ⟨-, hbegin, hend, hsize⟩ := mem_rawPieces hp
          omega
      · exact entire_of_dvd hp hbehind hdvd
    · rcases Nat.lt_or_ge discHeaderSize r.start with hbehind | hsmall
      · exact entire_of_dvd hp hbehind (hstart.resolve_right (Nat.not_le.mpr hbehind))
      · rw [entire_first_iff hc hp hsmall, hdata]
        exact header_mod_block hc r.aligned
    · exact .inl rfl
    · exact .inl rfl

theorem entire_piecesFrom_iff (hc : ChunkSize chunkSize) {position : Nat} {rs : List Region} (hposition : Begins position)
    (h : Ascending position rs) (hpos : ∀ r ∈ rs, 0 < r.dataStart) :
    (∀ p ∈ piecesFrom position rs, Entire chunkSize p.toExtent p.isPartition) ↔
      ∀ r ∈ rs, blockTotalSize ∣ r.start ∨ r.start ≤ discHeaderSize := by
  induction rs generalizing position with
  | nil => simp [piecesFrom]
  | cons r rs ih =>
    rw [piecesFrom, List.forall_mem_append, entire_pieces_iff hc hposition h.1 (hpos r List.mem_cons_self),
      ih r.begins_finish h.2 (fun r' hr' => hpos r' (List.mem_cons_of_mem _ hr')), List.forall_mem_cons]

theorem entire_layout_iff (hc : ChunkSize chunkSize) (hiso : isoSize < 2 ^ 64) {rs : List Region}
    (h : Ascending 0 rs) (hpos : ∀ r ∈ rs, 0 < r.dataStart) (hend : lastEnd 0 rs ≤ isoSize) :
    (isoSize < discHeaderSize ∨
        (isoSize ≠ discHeaderSize ∧ ∀ p ∈ layout isoSize rs, Entire chunkSize p.toExtent p.isPartition)) ↔
      (∀ r ∈ rs, blockTotalSize ∣ r.start ∨ r.start ≤ discHeaderSize) ∧
        (rs = [] → isoSize < discHeaderSize ∨ isoSize % chunkSize = 0 ∨ discHeaderSize < isoSize % chunkSize) := by
  have hheader : discHeaderSize < chunkSize := (show discHeaderSize < blockTotalSize by decide).trans_le
    (Nat.le_of_dvd hc.pos hc.blocks)
  rw [layout, sub64_of_le hend hiso, List.forall_mem_append, entire_piecesFrom_iff hc (.inl rfl) h hpos]
  cases rs with
  | nil =>
    have hend' : lastEnd 0 [] = 0 := rfl
    simp only [List.not_mem_nil, false_imp_iff, implies_true, true_and, true_imp_iff, hend', Nat.sub_zero]
    rcases lt_trichotomy isoSize discHeaderSize with hsmall | rfl | hlarge
    · simp [hsmall]
    · rw [Nat.mod_eq_of_lt hheader]
      simp [discHeaderSize]
    · have hrest : (∀ p ∈ rawPieces 0 isoSize, Entire chunkSize p.toExtent p.isPartition) ↔
          isoSize % chunkSize = 0 ∨ discHeaderSize < isoSize % chunkSize := by
        obtain ⟨p, hp⟩ := rawPieces_ne_nil (by rwa [Nat.zero_add]) ((Nat.zero_le discHeaderSize).trans_lt hlarge)
        constructor
        · intro hentire
          simpa using (entire_first_iff hc hp (Nat.zero_le _)).mp (hentire p hp)
        · intro hmod q hq
          rw [entire_first_iff hc hq (Nat.zero_le _), Nat.zero_add]
          exact hmod
      rw [or_iff_right hlarge.not_gt, or_iff_right hlarge.not_gt, and_iff_right hlarge.ne', hrest]
  | cons r rs =>
    have hlast : discHeaderSize < isoSize :=
      (r.header_lt_finish.trans_le (lastEnd_ge h.2)).trans_le hend
    have htail : ∀ p ∈ rawPieces (lastEnd 0 (r :: rs)) (isoSize - lastEnd 0 (r :: rs)),
        Entire chunkSize p.toExtent p.isPartition := by
      intro p hp
      rcases begins_lastEnd r.begins_finish rs with hzero | ⟨hbehind, hdvd⟩
      · have := r.header_lt_finish.trans_le (lastEnd_ge h.2)
        omega
      · exact entire_of_dvd hp hbehind hdvd
    rw [or_iff_right (by omega), and_iff_right hlast.ne', and_iff_left htail]
    simp

/-! ## The data entries of a disc -/

theorem stored_iff {s : Entries} {rs : List Region} (hc : ChunkSize chunkSize) (hiso : isoSize < 2 ^ 64)
    (h : Ascending 0 rs) (hs : Represents chunkSize s (layout isoSize rs)) :
    Stored chunkSize isoSize s ↔ Storable chunkSize isoSize rs := by
  have hextents : s.extents.map StoredExtent.toExtent = (layout isoSize rs).map Piece.toExtent := by
    rw [hs.extents]
    exact map_numberFrom (fun e _ => e) _ 0
  have hgroups : (s.extents.map fun e => chunks chunkSize e.size) =
      (layout isoSize rs).map fun p => chunks chunkSize p.size := by
    rw [hs.extents]
    exact map_numberFrom (fun e _ => chunks chunkSize e.size) _ 0
  have hentire : (∀ e ∈ s.extents, Entire chunkSize e.toExtent e.isPartition) ↔
      ∀ p ∈ layout isoSize rs, Entire chunkSize p.toExtent p.isPartition := by
    rw [hs.extents]
    exact forall_numberFrom (Entire chunkSize) _ 0
  have hwell : ∀ e ∈ s.extents, WellFormed e.toExtent e.isPartition := by
    rw [hs.extents]
    exact (forall_numberFrom WellFormed _ 0).mpr wellFormed_layout
  have hlt : s.totalGroups < 2 ^ 32 := by
    rw [hs.total]
    exact totalFrom_lt _ (by decide)
  constructor
  · intro hstored
    have htiles := hstored.tiles
    rw [hextents, tiles_layout_iff h hiso] at htiles
    have hassertions := (assertionsHold_iff hc hiso hwell hstored.tiles hstored.numbered hstored.total hlt).mp
      hstored.assertions
    rw [hentire, entire_layout_iff hc hiso h htiles.2 htiles.1] at hassertions
    exact ⟨htiles.1, htiles.2, hassertions.1, hassertions.2, by rwa [← hgroups, ← hstored.total]⟩
  · intro hstorable
    have htiles := tiles_layout h hstorable.started hiso hstorable.onDisc
    rw [← hextents] at htiles
    have hcounted : 0 + ((layout isoSize rs).map fun p => chunks chunkSize p.size).sum < 2 ^ 32 := by
      rw [Nat.zero_add]
      exact hstorable.counted
    have hnumbers := numbered_numberFrom hc hcounted
    rw [← hs.extents, ← hs.total, Nat.zero_add, ← hgroups] at hnumbers
    refine ⟨htiles, hnumbers.1, hnumbers.2, ?_⟩
    rw [assertionsHold_iff hc hiso hwell htiles hnumbers.1 hnumbers.2 hlt, hentire,
      entire_layout_iff hc hiso h hstorable.started hstorable.onDisc]
    exact ⟨hstorable.aligned, hstorable.tail⟩

/-- The data entries of a disc, for a size of chunks that is valid, tile the disc and pass the assertions of `Convert` if
and only if its regions are storable. -/
theorem setUpDataEntries_stored_iff {disc : Option VolumeDisc} {rvz : Bool} {s : Entries}
    (hvalid : isDiscImageBlockSizeValid chunkSize rvz) (hchunk : chunkSize < 2 ^ 31) (hiso : isoSize < 2 ^ 64)
    (h : setUpDataEntriesForWriting disc chunkSize isoSize = some s) :
    Stored chunkSize isoSize s ↔ Storable chunkSize isoSize (regions disc) :=
  stored_iff (chunkSize_valid hvalid hchunk) hiso (ascending_regions disc) (represents_layout h)

/-- A disc with a partition at `0x50000` that has two blocks of data, which end at `0x80000`. -/
def twoBlockDisc : VolumeDisc where
  hasWiiHashes := true
  hasWiiEncryption := true
  offsetShift := 2
  dataSize := 0x100000
  getPartitions := [0x50000]
  readSwapped
    | 0x50000, none => some 0x10001
    | 0x502b8, none => some 0x8000
    | 0x502bc, none => some 0x4000
    | _, _ => some 0x100
  getFileSystem _ := none
  getTitleKey _ := some (Vector.replicate 16 0)
  offsetShift_le := le_rfl
  partition_lt := by decide

theorem twoBlockDisc_stored : isDiscImageBlockSizeValid 0x8000 true ∧
    ∃ s, setUpDataEntriesForWriting (some twoBlockDisc) 0x8000 0x100000 = some s ∧ Stored 0x8000 0x100000 s := by
  have hstorable : Storable 0x8000 0x100000 (regions (some twoBlockDisc)) :=
    ⟨by decide, by decide, by decide, by decide, by decide⟩
  have hvalid : isDiscImageBlockSizeValid 0x8000 true := by decide
  have hsome : (setUpDataEntriesForWriting (some twoBlockDisc) 0x8000 0x100000).isSome := by decide
  obtain ⟨s, hs⟩ := Option.isSome_iff_exists.mp hsome
  exact ⟨hvalid, s, hs, (setUpDataEntries_stored_iff hvalid (by decide) (by decide) hs).mpr hstorable⟩

/-- On a disc that ends within its data the entries of the partition go on behind the disc. -/
theorem twoBlockDisc_truncated : isDiscImageBlockSizeValid 0x8000 true ∧
    ∃ s, setUpDataEntriesForWriting (some twoBlockDisc) 0x8000 0x78000 = some s ∧
      (∃ e ∈ s.extents, e.isPartition = true ∧ 0x78000 < e.offset + e.size) ∧ ¬ Stored 0x8000 0x78000 s := by
  have hsome : (setUpDataEntriesForWriting (some twoBlockDisc) 0x8000 0x78000).isSome := by decide
  obtain ⟨s, hs⟩ := Option.isSome_iff_exists.mp hsome
  have hextents : (setUpDataEntriesForWriting (some twoBlockDisc) 0x8000 0x78000).map Entries.extents =
      some [⟨⟨0x80, 0x4FF80⟩, false, 0, 10⟩, ⟨⟨0x50000, 0x20000⟩, false, 10, 4⟩, ⟨⟨0x70000, 0x10000⟩, true, 14, 2⟩,
        ⟨⟨0x80000, 0⟩, true, 16, 0⟩, ⟨⟨0x80000, 2 ^ 64 - 0x8000⟩, false, 16, 4294967295⟩] := by decide
  rw [hs, Option.map_some, Option.some.injEq] at hextents
  refine ⟨by decide, s, hs, ⟨⟨⟨0x70000, 0x10000⟩, true, 14, 2⟩, by simp [hextents], rfl, by decide⟩, ?_⟩
  intro hstored
  have htiles := hstored.tiles
  rw [hextents] at htiles
  have hfinish : 2 ^ 64 + 0x78000 = 0x78000 := htiles.2.2.2.2.2
  exact absurd hfinish (by decide)

end Karphin.DiscIO.WIARVZ
