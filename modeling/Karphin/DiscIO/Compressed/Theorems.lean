import Karphin.DiscIO.Compressed.Lemmas.Blocks

/-!
# Reading a compressed image back
-/

namespace Karphin.DiscIO

/-- A file can be opened, and whatever is read of it, one read after another, are the bytes of the image. -/
def ReadsBack (zlib : Zlib) (image file : List UInt8) : Prop :=
  ∃ r, CompressedBlobReader.create file = some r ∧
    ∀ reads : List (Nat × Nat), (∀ range ∈ reads, range.1 + range.2 ≤ image.length) →
      (r.sectorReader zlib).readAll reads (r.sectorReader zlib).emptyLines =
        reads.map fun range => some ((image.drop range.1).take range.2)

variable {zlib : Zlib} {callback : Nat → Nat → Bool} {image file : List UInt8} {blockSize : Nat} {subType : UInt32}

theorem converted_nil : Converted zlib image blockSize
    { offsets := List.replicate (blockCount image blockSize) 0
      hashes := List.replicate (blockCount image blockSize) 0 } [] where
  inpos := by simp
  position := rfl
  written := rfl
  encoded k h := absurd h (Nat.not_lt_zero k)
  offsets_length := List.length_replicate ..
  hashes_length := List.length_replicate ..
  offsets k h := absurd h (Nat.not_lt_zero k)

theorem Small.length_lt (h : Small image blockSize) : image.length + blockSize < 2 ^ 61 := by
  have hlen := @blockCount_mul image blockSize h.pos
  have htotal := h.total_lt
  have hblock := h.blockSize_lt
  omega

theorem numBlocks_eq (h : Small image blockSize) : numBlocks (.ofImage image) blockSize = blockCount image blockSize := by
  have hlen := h.length_lt
  have hnum := h.dataStart_lt
  rw [dataStart] at hnum
  have hmod : (image.length + (blockSize - 1)) % u64Max = image.length + (blockSize - 1) :=
    Nat.mod_eq_of_lt (by simp only [u64Max]; omega)
  have hcut : blockCount image blockSize % u32Max = blockCount image blockSize :=
    Nat.mod_eq_of_lt (by simp only [u32Max]; omega)
  rw [numBlocks, show (BlobReader.ofImage image).dataSize = image.length from rfl, hmod, ← blockCount, hcut]

theorem convertToGCZ_ok (h : Small image blockSize)
    (hf : convertToGCZ zlib callback (.ofImage image) blockSize subType = .ok file) :
    ∃ c outs, Converted zlib image blockSize c outs ∧ outs.length = blockCount image blockSize ∧
      file = fileOf subType image blockSize c := by
  have hlen := h.length_lt
  rw [convertToGCZ, numBlocks_eq h] at hf
  simp only at hf
  split at hf
  · cases hf
  · next c hc =>
      cases hf
      obtain ⟨outs, hconverted, houts⟩ := convertBlocks_ok h.pos (by omega) converted_nil (Nat.zero_add _) hc
      exact ⟨c, outs, hconverted, houts, rfl⟩

theorem convertToGCZ_succeeds (h : Small image blockSize) (hdeflate : ∀ block, zlib.deflate block ≠ none)
    (hcallback : ∀ i ratio, callback i ratio) :
    ∃ file, convertToGCZ zlib callback (.ofImage image) blockSize subType = .ok file := by
  have hlen := h.length_lt
  obtain ⟨c, hc⟩ := @convertBlocks_succeeds zlib callback image blockSize hdeflate hcallback h.pos (by omega) _ _ _
    converted_nil (Nat.zero_add _)
  rw [convertToGCZ, numBlocks_eq h]
  rw [List.length_nil] at hc
  simp only [hc]
  exact ⟨_, rfl⟩

theorem range_map_getD {offset size : Nat} (h : offset + size ≤ image.length) :
    ((List.range size).map fun i => image.getD (offset + i) 0) = (image.drop offset).take size := by
  apply List.ext_getElem
  · simp only [List.length_map, List.length_range, List.length_take, List.length_drop]
    omega
  · intro i h1 h2
    have hi : i < size := by simpa using h1
    simp only [List.getElem_map, List.getElem_range, List.getElem_take, List.getElem_drop, List.getD_eq_getElem?_getD]
    rw [List.getElem?_eq_getElem (by omega), Option.getD_some]

section Opened

variable {c : Conversion} {outs : List OutputParameters} {r : CompressedBlobReader}

theorem Opened.blockSize_eq (hr : Opened subType image blockSize c outs r) :
    (r.sectorReader zlib).blockSize = blockSize :=
  congrArg CompressedBlobHeader.blockSize hr.header

theorem Opened.dataSize_eq (hr : Opened subType image blockSize c outs r) :
    (r.sectorReader zlib).dataSize = image.length :=
  congrArg CompressedBlobHeader.dataSize hr.header

theorem sectorReader_getBlock (r : CompressedBlobReader) : (r.sectorReader zlib).getBlock = r.getBlock zlib := rfl

end Opened

theorem readsBack_of_lt (hinflate : ∀ block out, zlib.deflate block = some ⟨true, out⟩ →
      zlib.inflate out block.length = block)
    (h : Small image blockSize) (hint : dataStart image blockSize < 2 ^ 31)
    (hf : convertToGCZ zlib callback (.ofImage image) blockSize subType = .ok file) : ReadsBack zlib image file := by
  obtain ⟨c, outs, hc, houts, rfl⟩ := convertToGCZ_ok h hf
  obtain ⟨r, hcreate, hr⟩ := create_fileOf subType h hc houts
  have hlen := h.length_lt
  have hblock := h.blockSize_lt
  have hreads : SectorReader.Reads (r.sectorReader zlib) fun p => image.getD p 0 := by
    constructor
    · rw [hr.blockSize_eq]
      exact h.pos
    · exact Nat.one_pos
    · rw [hr.blockSize_eq]
      simp only [CompressedBlobReader.sectorReader, u32Max]
      omega
    · rw [hr.blockSize_eq, hr.dataSize_eq, u64Max]
      omega
    · intro k hk
      rw [hr.blockSize_eq, hr.dataSize_eq] at hk
      rw [hr.blockSize_eq]
      have hcount : k < outs.length := by
        rw [houts]
        exact (lt_blockCount h.pos).mpr hk
      rw [sectorReader_getBlock]
      exact getBlock_eq hinflate h hc houts hr hint hcount
  refine ⟨r, hcreate, fun reads hall => ?_⟩
  have hall' : ∀ range ∈ reads, range.1 + range.2 ≤ (r.sectorReader zlib).dataSize := by
    intro range hrange
    rw [hr.dataSize_eq]
    exact hall range hrange
  rw [SectorReader.readAll_spec hreads (SectorReader.allGood_emptyLines hreads) hall']
  apply List.map_congr_left
  intro range hrange
  rw [range_map_getD (hall range hrange)]

theorem not_readsBack_of_ge (hstream : ∀ block, zlib.deflate block ≠ some ⟨true, []⟩) (h : Small image blockSize)
    (hint : 2 ^ 31 ≤ dataStart image blockSize)
    (hf : convertToGCZ zlib callback (.ofImage image) blockSize subType = .ok file) : ¬ ReadsBack zlib image file := by
  obtain ⟨c, outs, hc, houts, rfl⟩ := convertToGCZ_ok h hf
  obtain ⟨r, hcreate, hr⟩ := create_fileOf subType h hc houts
  have hlen := h.length_lt
  have hcount : 0 < blockCount image blockSize := by
    rw [dataStart, CompressedBlobHeader.size] at hint
    omega
  have himage : 0 < image.length := by
    have := (lt_blockCount h.pos).mp hcount
    omega
  rintro ⟨r', hcreate', hback⟩
  rw [hcreate, Option.some.injEq] at hcreate'
  subst hcreate'
  have hnone : ((r.sectorReader zlib).read 0 1 (r.sectorReader zlib).emptyLines).1 = none := by
    apply SectorReader.read_first_none
    · rw [sectorReader_getBlock]
      exact getBlock_none hstream h hc houts hr hint (by omega)
    · rw [hr.blockSize_eq]
      exact h.pos
    · exact Nat.one_pos
    · rw [hr.dataSize_eq]
      exact himage
    · rw [hr.blockSize_eq, hr.dataSize_eq, u64Max]
      omega
  have hrange : ∀ range ∈ [((0, 1) : Nat × Nat)], range.1 + range.2 ≤ image.length := by
    intro range hrange
    rw [List.mem_singleton.mp hrange]
    exact himage
  have hfirst := hback [(0, 1)] hrange
  rw [SectorReader.readAll, hnone] at hfirst
  cases hfirst

/-- The offset of the data is kept in an `int`. As long as it fits, all reads give the bytes of the image; when it has
become negative, the first byte cannot be read. -/
theorem convertToGCZ_readsBack (hinflate : ∀ block out, zlib.deflate block = some ⟨true, out⟩ →
      zlib.inflate out block.length = block)
    (hstream : ∀ block, zlib.deflate block ≠ some ⟨true, []⟩) (hpos : 0 < blockSize) (hblock : blockSize < 2 ^ 31)
    (hf : convertToGCZ zlib callback (.ofImage image) blockSize subType = .ok file) :
    (dataStart image blockSize < 2 ^ 31 → ReadsBack zlib image file) ∧
      (dataStart image blockSize < 2 ^ 32 → ReadsBack zlib image file → dataStart image blockSize < 2 ^ 31) := by
  constructor
  · intro hint
    exact readsBack_of_lt hinflate ⟨hpos, hblock, by omega⟩ hint hf
  · intro hnum hback
    by_contra hint
    exact not_readsBack_of_ge hstream ⟨hpos, hblock, hnum⟩ (by omega) hf hback

/-! ## Two images -/

def adler32 (bytes : List UInt8) : UInt32 :=
  let (a, b) := bytes.foldl (fun (a, b) byte => ((a + byte.toNat) % 65521, (b + a + byte.toNat) % 65521)) (1, 0)
  UInt32.ofNat (b * 65536 + a)

def zeros24 : List UInt8 := [120, 218, 99, 96, 192, 14, 0, 0, 24, 0, 1]

/-- What the library does with blocks that are all zeros, or that do not get smaller. -/
def smallZlib : Zlib where
  deflate block := if block = List.replicate 24 0 then some ⟨true, zeros24⟩ else some ⟨false, []⟩
  inflate stream availOut := if stream = zeros24 then List.replicate (min 24 availOut) 0 else []
  adler32 := adler32

theorem smallZlib_inflate (block out : List UInt8) (h : smallZlib.deflate block = some ⟨true, out⟩) :
    smallZlib.inflate out block.length = block := by
  simp only [smallZlib] at h
  split at h
  · next hzeros =>
      cases h
      rw [hzeros]
      rfl
  · cases h

theorem smallZlib_stream (block : List UInt8) : smallZlib.deflate block ≠ some ⟨true, []⟩ := by
  simp only [smallZlib]
  split
  · simp [zeros24]
  · simp

theorem smallZlib_deflate (block : List UInt8) : smallZlib.deflate block ≠ none := by
  simp only [smallZlib]
  split
  · simp
  · simp

def twoBlocks : List UInt8 := List.replicate 24 0 ++ (List.range 23).map fun i => UInt8.ofNat (i + 1)

def twoBlocksFile : List UInt8 :=
  [1, 192, 11, 177, 0, 0, 0, 0, 35, 0, 0, 0, 0, 0, 0, 0, 47, 0, 0, 0, 0, 0, 0, 0, 24, 0, 0, 0, 2, 0, 0, 0] ++
    [0, 0, 0, 0, 0, 0, 0, 0, 11, 0, 0, 0, 0, 0, 0, 128] ++ [253, 2, 15, 26, 21, 1, 40, 10] ++ zeros24 ++
    (List.range 23).map (fun i => UInt8.ofNat (i + 1)) ++ [0]

theorem twoBlocks_converted :
    convertToGCZ smallZlib (fun _ _ => true) (.ofImage twoBlocks) 24 0 = .ok twoBlocksFile := by
  rfl

theorem twoBlocks_readsBack :
    convertToGCZ smallZlib (fun _ _ => true) (.ofImage twoBlocks) 24 0 = .ok twoBlocksFile ∧
      ReadsBack smallZlib twoBlocks twoBlocksFile := by
  refine ⟨twoBlocks_converted, ?_⟩
  exact (convertToGCZ_readsBack smallZlib_inflate smallZlib_stream (by decide) (by decide) twoBlocks_converted).1
    (by decide)

/-- With blocks of one byte, 178956968 zeros cannot be read back. -/
theorem zeros_not_readsBack : ∃ file,
    convertToGCZ smallZlib (fun _ _ => true) (.ofImage (List.replicate 178956968 0)) 1 0 = .ok file ∧
      ¬ ReadsBack smallZlib (List.replicate 178956968 0) file := by
  have hcount : blockCount (List.replicate 178956968 0) 1 = 178956968 := by
    rw [blockCount, List.length_replicate, Nat.sub_self, Nat.add_zero, Nat.div_one]
  have hstart : dataStart (List.replicate 178956968 0) 1 = 2 ^ 31 := by
    rw [dataStart, hcount]
    rfl
  have hsmall : Small (List.replicate 178956968 0) 1 := ⟨Nat.one_pos, by decide, by rw [hstart]; decide⟩
  obtain ⟨file, hf⟩ := @convertToGCZ_succeeds smallZlib (fun _ _ => true) _ 1 0 hsmall smallZlib_deflate
    fun _ _ => rfl
  exact ⟨file, hf, not_readsBack_of_ge smallZlib_stream hsmall hstart.ge hf⟩

end Karphin.DiscIO
