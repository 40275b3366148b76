import Karphin.DiscIO.Compressed.Defs

/-!
# What is written

The blocks of the image one after another, each of them stored or compressed, with a pointer to its start.
-/

namespace Karphin.DiscIO

def blockOf (image : List UInt8) (blockSize k : Nat) : List UInt8 :=
  (List.range blockSize).map fun i => image.getD (k * blockSize + i) 0

@[simp]
theorem blockOf_length (image : List UInt8) (blockSize k : Nat) : (blockOf image blockSize k).length = blockSize := by
  simp [blockOf]

def blockCount (image : List UInt8) (blockSize : Nat) : Nat := (image.length + (blockSize - 1)) / blockSize

def Encoded (zlib : Zlib) (blockSize : Nat) (block : List UInt8) (out : OutputParameters) : Prop :=
  (out.compressed = false ∧ out.data = block) ∨
    (out.compressed = true ∧ zlib.deflate block = some ⟨true, out.data⟩ ∧ out.data.length + 10 ≤ blockSize)

def startOf (outs : List OutputParameters) (k : Nat) : Nat := ((outs.take k).flatMap (·.data)).length

def pointerOf (outs : List OutputParameters) (k : Nat) : Nat :=
  startOf outs k + if (outs[k]?.map (·.compressed)) = some true then 0 else 2 ^ 63

structure Converted (zlib : Zlib) (image : List UInt8) (blockSize : Nat) (c : Conversion)
    (outs : List OutputParameters) : Prop where
  inpos : c.inpos = outs.length * blockSize
  position : c.position = c.written.length
  written : c.written = outs.flatMap (·.data)
  encoded : ∀ k (h : k < outs.length), Encoded zlib blockSize (blockOf image blockSize k) outs[k]
  offsets_length : c.offsets.length = blockCount image blockSize
  hashes_length : c.hashes.length = blockCount image blockSize
  offsets : ∀ k < outs.length, c.offsets.getD k 0 = pointerOf outs k

variable {zlib : Zlib} {callback : Nat → Nat → Bool} {image : List UInt8} {blockSize : Nat}

/-! ## Sizes -/

theorem Encoded.length_le {block : List UInt8} {out : OutputParameters} (h : Encoded zlib blockSize block out)
    (hblock : block.length = blockSize) : out.data.length ≤ blockSize := by
  cases h with
  | inl h => rw [h.2, hblock]
  | inr h => omega

theorem flatMap_length_le {size : Nat} : ∀ {outs : List OutputParameters}, (∀ out ∈ outs, out.data.length ≤ size) →
    (outs.flatMap (·.data)).length ≤ outs.length * size
  | [], _ => by simp
  | out :: outs, h => by
      have hout := h out (List.mem_cons_self ..)
      have hrest := flatMap_length_le fun o ho => h o (List.mem_cons_of_mem _ ho)
      rw [List.flatMap_cons, List.length_append, List.length_cons, Nat.succ_mul]
      omega

theorem startOf_succ {outs : List OutputParameters} {k : Nat} (h : k < outs.length) :
    startOf outs (k + 1) = startOf outs k + outs[k].data.length := by
  rw [startOf, List.take_succ_eq_append_getElem h, List.flatMap_append, List.length_append, List.flatMap_singleton]
  rfl

theorem startOf_append {outs : List OutputParameters} (out : OutputParameters) {k : Nat} (h : k ≤ outs.length) :
    startOf (outs ++ [out]) k = startOf outs k := by
  rw [startOf, List.take_append_of_le_length h]
  rfl

theorem startOf_length (outs : List OutputParameters) : startOf outs outs.length = (outs.flatMap (·.data)).length := by
  rw [startOf, List.take_length]

theorem slice {outs : List OutputParameters} {k : Nat} (h : k < outs.length) (before : List UInt8) :
    ((before ++ outs.flatMap (·.data)).drop (before.length + startOf outs k)).take outs[k].data.length =
      outs[k].data := by
  have hsplit : outs.flatMap (·.data) =
      (outs.take k).flatMap (·.data) ++ (outs[k].data ++ (outs.drop (k + 1)).flatMap (·.data)) := by
    conv_lhs => rw [← List.take_append_drop k outs, List.drop_eq_getElem_cons h]
    rw [List.flatMap_append, List.flatMap_cons]
  rw [List.drop_append, hsplit, startOf, List.drop_eq_nil_of_le (by omega), List.nil_append, Nat.add_sub_cancel_left,
    List.drop_left, List.take_left]

/-! ## A block -/

theorem inBuf_eq {k : Nat} (h : k * blockSize < image.length) (hlt : image.length < u64Max) {n : Nat}
    (hn : n = min blockSize ((image.length + u64Max - k * blockSize) % u64Max)) :
    ∃ bytes, (BlobReader.ofImage image).read (k * blockSize) n = some bytes ∧
      bytes ++ List.replicate (blockSize - n) 0 = blockOf image blockSize k := by
  have hmod : (image.length + u64Max - k * blockSize) % u64Max = image.length - k * blockSize := by
    simp only [u64Max] at hlt ⊢
    omega
  rw [hmod] at hn
  refine ⟨(image.drop (k * blockSize)).take n, ?_, ?_⟩
  · simp only [BlobReader.ofImage]
    rw [if_pos (by omega)]
  · have hlen : ((image.drop (k * blockSize)).take n).length = n := by
      rw [List.length_take, List.length_drop]
      omega
    apply List.ext_getElem
    · rw [List.length_append, hlen, List.length_replicate, blockOf_length]
      omega
    · intro i h1 h2
      rw [blockOf_length] at h2
      simp only [blockOf, List.getElem_map, List.getElem_range, List.getD_eq_getElem?_getD]
      by_cases hi : i < n
      · rw [List.getElem_append_left (by omega), List.getElem_take, List.getElem_drop,
          List.getElem?_eq_getElem (by omega), Option.getD_some]
      · rw [List.getElem_append_right (by omega), List.getElem_replicate, List.getElem?_eq_none (by omega),
          Option.getD_none]

theorem compress_ok {parameters : CompressParameters} {out : OutputParameters}
    (h : compress zlib blockSize parameters = .ok out) :
    Encoded zlib blockSize parameters.data out ∧ out.blockNumber = parameters.blockNumber := by
  rw [compress] at h
  split at h
  · cases h
  · next streamEnd bytes hdeflate =>
      split at h
      · cases h
        exact ⟨.inl ⟨rfl, rfl⟩, rfl⟩
      · next hstream =>
          cases h
          simp only [Bool.or_eq_true, Bool.not_eq_true', decide_eq_true_eq, not_or, Bool.not_eq_false] at hstream
          obtain ⟨rfl, hsize⟩ := hstream
          refine ⟨.inr ⟨rfl, hdeflate, ?_⟩, rfl⟩
          simp only
          omega

theorem output_ok {infile : BlobReader} {out : OutputParameters} {c c' : Conversion}
    (h : output callback infile blockSize out c = .ok c') :
    c' = { c with
      offsets := c.offsets.set out.blockNumber
        (if out.compressed then c.position else c.position ||| 0x8000000000000000)
      position := (c.position + out.data.length) % u64Max
      written := c.written ++ out.data } := by
  rw [output] at h
  split at h
  · split at h
    · cases h
      rfl
    · cases h
  · cases h
    rfl

theorem stored_pointer {position : Nat} (h : position < 2 ^ 63) :
    position ||| 0x8000000000000000 = position + 2 ^ 63 := by
  have hor := Nat.two_pow_add_eq_or_of_lt h 1
  rw [Nat.mul_one] at hor
  rw [Nat.or_comm, Nat.add_comm]
  exact hor.symm

/-! ## All blocks -/

theorem pointerOf_append {outs : List OutputParameters} (out : OutputParameters) {k : Nat} (h : k < outs.length) :
    pointerOf (outs ++ [out]) k = pointerOf outs k := by
  rw [pointerOf, startOf_append out h.le, List.getElem?_append_left h]
  rfl

theorem pointerOf_last (outs : List OutputParameters) (out : OutputParameters) : pointerOf (outs ++ [out]) outs.length =
    (outs.flatMap (·.data)).length + if out.compressed then 0 else 2 ^ 63 := by
  rw [pointerOf, startOf_append out (le_refl _), startOf_length, List.getElem?_append_right (le_refl _), Nat.sub_self]
  simp

theorem Converted.written_le {c : Conversion} {outs : List OutputParameters}
    (h : Converted zlib image blockSize c outs) : c.written.length ≤ outs.length * blockSize := by
  rw [h.written]
  apply flatMap_length_le
  intro out hout
  obtain ⟨k, hk, rfl⟩ := List.mem_iff_getElem.mp hout
  exact (h.encoded k hk).length_le (blockOf_length ..)

theorem convertBlock_ok {c c' : Conversion} {outs : List OutputParameters} (h : Converted zlib image blockSize c outs)
    (hblock : outs.length * blockSize < image.length) (hcount : outs.length < blockCount image blockSize)
    (hlt : image.length + blockSize < 2 ^ 63)
    (hc : convertBlock zlib callback (.ofImage image) blockSize outs.length c = .ok c') :
    ∃ out, Converted zlib image blockSize c' (outs ++ [out]) := by
  have hwritten := h.written_le
  obtain ⟨bytes, hread, hbuf⟩ := @inBuf_eq image blockSize outs.length hblock (by simp only [u64Max]; omega) _ rfl
  rw [convertBlock, h.inpos] at hc
  simp only [show (BlobReader.ofImage image).dataSize = image.length from rfl, hread, hbuf] at hc
  split at hc
  · cases hc
  · next out hcompress =>
      obtain ⟨hencoded, hnumber⟩ := compress_ok hcompress
      simp only at hencoded hnumber
      have hlen := hencoded.length_le (blockOf_length ..)
      have hc' := output_ok hc
      simp only [hnumber] at hc'
      refine ⟨out, ?_⟩
      rw [hc']
      constructor
      · simp only [List.length_append, List.length_singleton, Nat.succ_mul, u64Max]
        omega
      · simp only [List.length_append, h.position, u64Max]
        omega
      · simp only [List.flatMap_append, List.flatMap_singleton, h.written]
      · intro k hk
        by_cases hlast : k = outs.length
        · subst hlast
          rw [List.getElem_append_right (le_refl _)]
          simpa using hencoded
        · have hk' : k < outs.length := by
            rw [List.length_append, List.length_singleton] at hk
            omega
          rw [List.getElem_append_left hk']
          exact h.encoded k hk'
      · simp only [List.length_set, h.offsets_length]
      · simp only [List.length_set, h.hashes_length]
      · intro k hk
        simp only [List.getD_eq_getElem?_getD]
        by_cases hlast : k = outs.length
        · subst hlast
          rw [List.getElem?_set_self (by rw [h.offsets_length]; exact hcount), Option.getD_some, pointerOf_last,
            ← h.written, ← h.position]
          split
          · rw [Nat.add_zero]
          · exact stored_pointer (by rw [h.position]; omega)
        · have hk' : k < outs.length := by
            rw [List.length_append, List.length_singleton] at hk
            omega
          rw [List.getElem?_set_ne (Ne.symm hlast), pointerOf_append out hk', ← h.offsets k hk',
            List.getD_eq_getElem?_getD]

theorem lt_blockCount (hpos : 0 < blockSize) {k : Nat} : k < blockCount image blockSize ↔ k * blockSize < image.length := by
  rw [blockCount, Nat.lt_iff_add_one_le, Nat.le_div_iff_mul_le hpos, Nat.add_mul, Nat.one_mul]
  omega

theorem convertBlocks_ok (hpos : 0 < blockSize) (hlt : image.length + blockSize < 2 ^ 63) :
    ∀ {count : Nat} {c c' : Conversion} {outs : List OutputParameters}, Converted zlib image blockSize c outs →
    outs.length + count = blockCount image blockSize →
    convertBlocks zlib callback (.ofImage image) blockSize count outs.length c = .ok c' →
    ∃ outs', Converted zlib image blockSize c' outs' ∧ outs'.length = blockCount image blockSize
  | 0, c, c', outs, h, hcount, hc => by
      cases hc
      exact ⟨outs, h, hcount⟩
  | count + 1, c, c', outs, h, hcount, hc => by
      have hcount' : outs.length < blockCount image blockSize := by omega
      rw [convertBlocks] at hc
      split at hc
      · cases hc
      · next c1 hc1 =>
          obtain ⟨out, h1⟩ := convertBlock_ok h ((lt_blockCount hpos).mp hcount') hcount' hlt hc1
          have hcount1 : (outs ++ [out]).length + count = blockCount image blockSize := by
            rw [List.length_append, List.length_singleton]
            omega
          exact convertBlocks_ok hpos hlt h1 hcount1 (by rwa [List.length_append])

theorem convertBlocks_succeeds (hdeflate : ∀ block, zlib.deflate block ≠ none) (hcallback : ∀ i ratio, callback i ratio)
    (hpos : 0 < blockSize) (hlt : image.length + blockSize < 2 ^ 63) : ∀ {count : Nat} {c : Conversion}
    {outs : List OutputParameters}, Converted zlib image blockSize c outs →
    outs.length + count = blockCount image blockSize →
    ∃ c', convertBlocks zlib callback (.ofImage image) blockSize count outs.length c = .ok c'
  | 0, c, _, _, _ => ⟨c, rfl⟩
  | count + 1, c, outs, h, hcount => by
      have hcount' : outs.length < blockCount image blockSize := by omega
      have hblock := (lt_blockCount hpos).mp hcount'
      have hstep : ∃ c1, convertBlock zlib callback (.ofImage image) blockSize outs.length c = .ok c1 := by
        obtain ⟨bytes, hread, -⟩ := @inBuf_eq image blockSize outs.length hblock (by simp only [u64Max]; omega) _ rfl
        rw [convertBlock, h.inpos]
        simp only [show (BlobReader.ofImage image).dataSize = image.length from rfl, hread, compress]
        split
        · next hc =>
            split at hc
            · next hd => exact absurd hd (hdeflate _)
            · split at hc
              · cases hc
              · cases hc
        · simp only [output, hcallback, if_true]
          split
          · exact ⟨_, rfl⟩
          · exact ⟨_, rfl⟩
      obtain ⟨c1, hc1⟩ := hstep
      obtain ⟨out, h1⟩ := convertBlock_ok h hblock hcount' hlt hc1
      have hcount1 : (outs ++ [out]).length + count = blockCount image blockSize := by
        rw [List.length_append, List.length_singleton]
        omega
      obtain ⟨c', hc'⟩ := convertBlocks_succeeds hdeflate hcallback hpos hlt h1 hcount1
      rw [List.length_append, List.length_singleton] at hc'
      rw [convertBlocks, hc1]
      exact ⟨c', hc'⟩

end Karphin.DiscIO

/-!
# What is read

The reader finds the tables, and each block by its pointer, as long as the offset of the data is an `int`.
-/

namespace Karphin.DiscIO

open Karphin.Lib

def headerOf (subType : UInt32) (image : List UInt8) (blockSize : Nat) (c : Conversion) : CompressedBlobHeader where
  subType := subType.toNat
  compressedDataSize := c.position
  dataSize := image.length
  blockSize := blockSize
  numBlocks := blockCount image blockSize

def fileOf (subType : UInt32) (image : List UInt8) (blockSize : Nat) (c : Conversion) : List UInt8 :=
  (headerOf subType image blockSize c).bytes ++ (leTable 8 c.offsets ++ (leTable 4 c.hashes ++ c.written))

def dataStart (image : List UInt8) (blockSize : Nat) : Nat := CompressedBlobHeader.size + 12 * blockCount image blockSize

theorem header_length (header : CompressedBlobHeader) : header.bytes.length = CompressedBlobHeader.size := by
  simp [CompressedBlobHeader.bytes, CompressedBlobHeader.size]

theorem ofFile_bytes {header : CompressedBlobHeader} (hsub : header.subType < 256 ^ 4)
    (hcompressed : header.compressedDataSize < 256 ^ 8) (hdata : header.dataSize < 256 ^ 8)
    (hblock : header.blockSize < 256 ^ 4) (hnum : header.numBlocks < 256 ^ 4) (after : List UInt8) :
    CompressedBlobHeader.ofFile (header.bytes ++ after) = header := by
  simp only [CompressedBlobHeader.ofFile, CompressedBlobHeader.bytes, List.append_assoc]
  simp only [readLe_skip, readLe_head, Nat.reduceLeDiff, Nat.reduceSub, Nat.mod_eq_of_lt, hsub, hcompressed, hdata,
    hblock, hnum]

theorem isGCZBlob_bytes (header : CompressedBlobHeader) (after : List UInt8) :
    isGCZBlob (header.bytes ++ after) = true := by
  have hlen := header_length header
  have hmagic : readLe 4 (header.bytes ++ after) 0 = gczMagic := by
    simp only [CompressedBlobHeader.bytes, List.append_assoc]
    rw [readLe_head]
    rfl
  rw [isGCZBlob, hmagic, List.length_append, hlen]
  simp

variable {zlib : Zlib} {image : List UInt8} {blockSize : Nat} {subType : UInt32} {c : Conversion} {outs : List OutputParameters}

structure Opened (subType : UInt32) (image : List UInt8) (blockSize : Nat) (c : Conversion) (outs : List OutputParameters)
    (r : CompressedBlobReader) : Prop where
  header : r.header = headerOf subType image blockSize c
  pointers : ∀ k < outs.length, r.blockPointers.getD k 0 = pointerOf outs k
  dataOffset : r.dataOffset = CompressedBlobReader.toInt (dataStart image blockSize)
  file : r.file = fileOf subType image blockSize c

structure Small (image : List UInt8) (blockSize : Nat) : Prop where
  pos : 0 < blockSize
  blockSize_lt : blockSize < 2 ^ 31
  dataStart_lt : dataStart image blockSize < 2 ^ 32

theorem blockCount_mul (hpos : 0 < blockSize) : image.length ≤ blockCount image blockSize * blockSize := by
  have hnot := (@lt_blockCount image blockSize hpos (blockCount image blockSize)).not.mp (Nat.lt_irrefl _)
  omega

theorem Small.total_lt (h : Small image blockSize) : blockCount image blockSize * blockSize < 2 ^ 60 := by
  have hnum := h.dataStart_lt
  rw [dataStart] at hnum
  have hle : blockCount image blockSize ≤ 2 ^ 29 := by omega
  exact (Nat.mul_le_mul_right _ hle).trans_lt ((Nat.mul_lt_mul_left (by decide)).mpr h.blockSize_lt)

theorem pointerOf_lt (hc : Converted zlib image blockSize c outs) (hsize : outs.length * blockSize < 2 ^ 60)
    (k : Nat) : startOf outs k < 2 ^ 60 ∧ pointerOf outs k < 2 ^ 64 := by
  have hle : startOf outs k ≤ (outs.take k).length * blockSize := by
    apply flatMap_length_le
    intro out hout
    obtain ⟨j, hj, rfl⟩ := List.mem_iff_getElem.mp (List.mem_of_mem_take hout)
    exact (hc.encoded j hj).length_le (blockOf_length ..)
  have htake : (outs.take k).length * blockSize ≤ outs.length * blockSize :=
    Nat.mul_le_mul_right _ (List.length_take_le' ..)
  have hstart : startOf outs k < 2 ^ 60 := by omega
  refine ⟨hstart, ?_⟩
  rw [pointerOf]
  split
  · omega
  · omega

theorem create_fileOf (subType : UInt32) (h : Small image blockSize) (hc : Converted zlib image blockSize c outs)
    (houts : outs.length = blockCount image blockSize) :
    ∃ r, CompressedBlobReader.create (fileOf subType image blockSize c) = some r ∧
      Opened subType image blockSize c outs r := by
  have htotal := h.total_lt
  have hlen := @blockCount_mul image blockSize h.pos
  have hnum := h.dataStart_lt
  rw [dataStart] at hnum
  have hposition : c.position < 2 ^ 60 := by
    have := hc.written_le
    rw [hc.position]
    rw [houts] at this
    omega
  have hblock := h.blockSize_lt
  have hheader : CompressedBlobHeader.ofFile (fileOf subType image blockSize c) = headerOf subType image blockSize c :=
    ofFile_bytes subType.toNat_lt (by simp only [headerOf]; omega) (by simp only [headerOf]; omega)
      (by simp only [headerOf]; omega) (by simp only [headerOf]; omega) _
  refine ⟨_, by rw [CompressedBlobReader.create, fileOf, isGCZBlob_bytes, if_pos rfl], ?_⟩
  rw [← fileOf]
  refine ⟨hheader, fun k hk => ?_, ?_, rfl⟩
  · have htable := @readLeTable_append 8 c.offsets _ _ (header_length (headerOf subType image blockSize c))
      (leTable 4 c.hashes ++ c.written)
    rw [← fileOf, hc.offsets_length] at htable
    simp only [hheader, headerOf, htable]
    have hentry : (c.offsets.map (· % 256 ^ 8)).getD k 0 = c.offsets.getD k 0 % 256 ^ 8 :=
      List.getD_map c.offsets 0 fun v => v % 256 ^ 8
    rw [hentry, hc.offsets k hk]
    exact Nat.mod_eq_of_lt (pointerOf_lt hc (by rwa [houts]) k).2
  · simp only [hheader, headerOf, dataStart]
    congr 1
    omega

/-! ## A block -/

theorem pointerOf_eq_or (outs : List OutputParameters) (k : Nat) :
    pointerOf outs k = startOf outs k ∨ pointerOf outs k = startOf outs k + 2 ^ 63 := by
  rw [pointerOf]
  split
  · exact .inl (Nat.add_zero _)
  · exact .inr rfl

theorem getBlockCompressedSize_eq (h : Small image blockSize) (hc : Converted zlib image blockSize c outs)
    (houts : outs.length = blockCount image blockSize) {r : CompressedBlobReader}
    (hr : Opened subType image blockSize c outs r) {k : Nat} (hk : k < outs.length) :
    r.getBlockCompressedSize k % u32Max = outs[k].data.length := by
  have htotal := h.total_lt
  rw [← houts] at htotal
  have hnum := h.dataStart_lt
  rw [dataStart, ← houts] at hnum
  have hblock := h.blockSize_lt
  have hlen := (hc.encoded k hk).length_le (blockOf_length ..)
  have hstart := (pointerOf_lt hc htotal k).1
  have hnext := startOf_succ hk
  have hlast : (blockCount image blockSize + u32Max - 1) % u32Max = outs.length - 1 := by
    rw [← houts]
    simp only [u32Max]
    omega
  have hpointer := pointerOf_eq_or outs k
  rw [CompressedBlobReader.getBlockCompressedSize, hr.header, hr.pointers k hk]
  simp only [headerOf, hlast]
  by_cases hend : k < outs.length - 1
  · have hnextPointer := pointerOf_eq_or outs (k + 1)
    rw [if_pos hend, hr.pointers (k + 1) (by omega)]
    simp only [u32Max, u64Max]
    omega
  · have hposition : c.position = startOf outs (k + 1) := by
      rw [hc.position, hc.written, ← startOf_length, show k + 1 = outs.length by omega]
    rw [if_neg hend, if_pos (by omega), hposition]
    simp only [u32Max, u64Max]
    omega

theorem fileOf_length (hc : Converted zlib image blockSize c outs) :
    (fileOf subType image blockSize c).length = dataStart image blockSize + c.written.length := by
  rw [fileOf, List.length_append, header_length, List.length_append, List.length_append, leTable_length, leTable_length,
    hc.offsets_length, hc.hashes_length, dataStart]
  omega

theorem readBytes_block (hc : Converted zlib image blockSize c outs) {k : Nat} (hk : k < outs.length) :
    readBytes (fileOf subType image blockSize c) (dataStart image blockSize + startOf outs k) outs[k].data.length =
      some outs[k].data := by
  have hfile : fileOf subType image blockSize c =
      ((headerOf subType image blockSize c).bytes ++ leTable 8 c.offsets ++ leTable 4 c.hashes) ++
        outs.flatMap (·.data) := by
    rw [fileOf, hc.written]
    simp only [List.append_assoc]
  have hbefore : ((headerOf subType image blockSize c).bytes ++ leTable 8 c.offsets ++ leTable 4 c.hashes).length =
      dataStart image blockSize := by
    rw [List.length_append, List.length_append, header_length, leTable_length, leTable_length, hc.offsets_length,
      hc.hashes_length, dataStart]
    omega
  have hslice := slice hk ((headerOf subType image blockSize c).bytes ++ leTable 8 c.offsets ++ leTable 4 c.hashes)
  have hlen := congrArg List.length hslice
  rw [hbefore, ← hfile] at hslice hlen
  rw [List.length_take, List.length_drop] at hlen
  rw [readBytes, if_pos (by omega), hslice]

theorem toInt_of_lt {n : Nat} (h : n < 2 ^ 31) : CompressedBlobReader.toInt n = n := by
  have hmod : n % u32Max = n := Nat.mod_eq_of_lt (by simp only [u32Max]; omega)
  rw [CompressedBlobReader.toInt, hmod, if_pos h]

theorem toInt_of_ge {n : Nat} (h : 2 ^ 31 ≤ n) (hlt : n < 2 ^ 32) :
    CompressedBlobReader.toInt n = (n : Int) - 2 ^ 32 := by
  have hmod : n % u32Max = n := Nat.mod_eq_of_lt hlt
  rw [CompressedBlobReader.toInt, hmod, if_neg (by omega)]
  rfl

theorem getBlock_eq (hinflate : ∀ block out, zlib.deflate block = some ⟨true, out⟩ →
      zlib.inflate out block.length = block)
    (h : Small image blockSize) (hc : Converted zlib image blockSize c outs)
    (houts : outs.length = blockCount image blockSize) {r : CompressedBlobReader}
    (hr : Opened subType image blockSize c outs r) (hint : dataStart image blockSize < 2 ^ 31) {k : Nat}
    (hk : k < outs.length) : r.getBlock zlib k = some (blockOf image blockSize k) := by
  have htotal := h.total_lt
  rw [← houts] at htotal
  have hstart := (pointerOf_lt hc htotal k).1
  have hoffset : r.dataOffset = dataStart image blockSize := by
    rw [hr.dataOffset, toInt_of_lt hint]
  have hread := @readBytes_block zlib image blockSize subType c outs hc k hk
  rw [CompressedBlobReader.getBlock, getBlockCompressedSize_eq h hc houts hr hk, hr.pointers k hk, hoffset, hr.file,
    hr.header]
  simp only [headerOf, pointerOf, List.getElem?_eq_getElem hk, Option.map_some, Option.some.injEq]
  cases hc.encoded k hk with
  | inl hstored =>
      have hplace : (((startOf outs k + 2 ^ 63 : Nat) : Int) + (dataStart image blockSize : Int)) % (u64Max : Int) =
          ((2 ^ 63 + (dataStart image blockSize + startOf outs k) : Nat) : Int) := by
        simp only [u64Max]
        omega
      have hbit : (2 ^ 63 + (dataStart image blockSize + startOf outs k)).testBit 63 = true := by
        rw [Nat.testBit_two_pow_add_eq, Nat.testBit_lt_two_pow (by omega)]
        rfl
      simp only [hstored.1, Bool.false_eq_true, if_false, hplace, Int.toNat_natCast, hbit, if_true]
      rw [Nat.add_mod_left, Nat.mod_eq_of_lt (by omega), hread, hstored.2]
      rfl
  | inr hcompressed =>
      have hplace : (((startOf outs k + 0 : Nat) : Int) + (dataStart image blockSize : Int)) % (u64Max : Int) =
          ((dataStart image blockSize + startOf outs k : Nat) : Int) := by
        simp only [u64Max]
        omega
      have hbit : (dataStart image blockSize + startOf outs k).testBit 63 = false :=
        Nat.testBit_lt_two_pow (by omega)
      have hout := hinflate _ _ hcompressed.2.1
      rw [blockOf_length] at hout
      simp only [hcompressed.1, if_true, hplace, Int.toNat_natCast, hbit, Bool.false_eq_true, if_false, hread,
        Option.bind_some, hout, blockOf_length]

theorem getBlock_none (hstream : ∀ block, zlib.deflate block ≠ some ⟨true, []⟩)
    (h : Small image blockSize) (hc : Converted zlib image blockSize c outs)
    (houts : outs.length = blockCount image blockSize) {r : CompressedBlobReader}
    (hr : Opened subType image blockSize c outs r) (hint : 2 ^ 31 ≤ dataStart image blockSize)
    (hpos : 0 < outs.length) : r.getBlock zlib 0 = none := by
  have htotal := h.total_lt
  have hnum := h.dataStart_lt
  have hblock := h.pos
  have hwritten := hc.written_le
  rw [houts] at hwritten
  have hlen := @fileOf_length zlib image blockSize subType c outs hc
  have hoffset : r.dataOffset = (dataStart image blockSize : Int) - 2 ^ 32 := by
    rw [hr.dataOffset, toInt_of_ge hint hnum]
  have hsize : 0 < outs[0].data.length := by
    cases hc.encoded 0 hpos with
    | inl hstored =>
        rw [hstored.2, blockOf_length]
        exact hblock
    | inr hcompressed =>
        refine List.length_pos_of_ne_nil fun hnil => hstream (blockOf image blockSize 0) ?_
        rw [hcompressed.2.1, hnil]
  have hread : ∀ offset, 2 ^ 62 ≤ offset →
      readBytes (fileOf subType image blockSize c) offset outs[0].data.length = none := by
    intro offset hoff
    rw [readBytes, if_neg (by omega)]
  rw [CompressedBlobReader.getBlock, getBlockCompressedSize_eq h hc houts hr hpos, hr.pointers 0 hpos, hoffset, hr.file]
  have hpointer := pointerOf_eq_or outs 0
  have hzero : startOf outs 0 = 0 := rfl
  generalize pointerOf outs 0 = pointer at hpointer
  have hplace : (((pointer : Int) + ((dataStart image blockSize : Int) - 2 ^ 32)) % (u64Max : Int)).toNat % 2 ^ 63 =
      2 ^ 63 - (2 ^ 32 - dataStart image blockSize) := by
    simp only [u64Max]
    omega
  generalize (((pointer : Int) + ((dataStart image blockSize : Int) - 2 ^ 32)) % (u64Max : Int)).toNat = offset at hplace
  simp only
  rw [hread _ (by split <;> omega)]
  rfl

end Karphin.DiscIO
