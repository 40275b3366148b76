import Karphin.GCMemcard.Savefiles

/-!
# The three formats of a save file

`WriteSavefile`, and that `ReadSavefile` tells the formats apart and gives the save file back. A file that can be
opened takes the bytes that are written to it.
-/

namespace Karphin.GCMemcard

/-! ## `WriteSavefile` -/

inductive SavefileFormat
  | gci
  | gcs
  | sav
  deriving DecidableEq, Repr

/-- `std::memcpy` into an array. -/
def copyTo (array : List UInt8) (offset : Nat) (bytes : List UInt8) : List UInt8 :=
  array.take offset ++ bytes ++ array.drop (offset + bytes.length)

def writeBlocks (file : List UInt8) (blocks : List GCMBlock) : List UInt8 :=
  blocks.foldl (fun file block => file ++ List.ofFn block) file

def writeSavefileInternalGCI (savefile : Savefile) : List UInt8 := writeBlocks savefile.dirEntry.raw savefile.blocks

def writeSavefileInternalGCS (savefile : Savefile) : List UInt8 :=
  let header := copyTo (List.replicate gcsHeaderSize 0) 0 gcsMagic
  -- always stored as 1 in these files
  let gcsEntry := { savefile.dirEntry with blockCount := 1 }
  writeBlocks (copyTo header gcsDentryOffset gcsEntry.raw) savefile.blocks

def injectDEntryToSavHeader (header : List UInt8) (dirEntry : DEntry) : List UInt8 :=
  copyTo header savDentryOffset (byteswapDEntrySavHeader dirEntry.raw)

def writeSavefileInternalSAV (savefile : Savefile) : List UInt8 :=
  let header := copyTo (List.replicate savHeaderSize 0) 0 savMagic
  writeBlocks (injectDEntryToSavHeader header savefile.dirEntry) savefile.blocks

/-- `WriteSavefile`: the bytes of the file. -/
def writeSavefile (savefile : Savefile) : SavefileFormat → List UInt8
  | .gci => writeSavefileInternalGCI savefile
  | .gcs => writeSavefileInternalGCS savefile
  | .sav => writeSavefileInternalSAV savefile

/-! ## How a format is recognised -/

def SavefileFormat.ofSize (filesize : Nat) : Option SavefileFormat :=
  if filesize % blockSize = dentrySize then some .gci
  else if filesize % blockSize = gcsHeaderSize then some .gcs
  else if filesize % blockSize = savHeaderSize then some .sav
  else none

def readSavefileInternal (file : List UInt8) : SavefileFormat → Except ReadSavefileErrorCode Savefile
  | .gci => readSavefileInternalGCI file
  | .gcs => readSavefileInternalGCS file
  | .sav => readSavefileInternalSAV file

def SavefileFormat.headerSize : SavefileFormat → Nat
  | .gci => dentrySize
  | .gcs => gcsHeaderSize
  | .sav => savHeaderSize

theorem readSavefile_ofSize {file : List UInt8} {format : SavefileFormat}
    (h : SavefileFormat.ofSize file.length = some format) : readSavefile file = readSavefileInternal file format := by
  unfold SavefileFormat.ofSize at h
  unfold readSavefile
  split_ifs at h ⊢ <;> cases h <;> rfl

theorem ofSize_blocks (format : SavefileFormat) (n : Nat) :
    SavefileFormat.ofSize (format.headerSize + n * blockSize) = some format := by
  have hmod : (format.headerSize + n * blockSize) % blockSize = format.headerSize := by
    rw [Nat.add_mul_mod_self_right]
    cases format <;> rfl
  unfold SavefileFormat.ofSize
  rw [hmod]
  cases format <;> rfl

/-! ## Fields of a file -/

/-- An entry whose block numbers have 16 bits, as those of the source have. -/
structure DEntry.Fits (e : DEntry) : Prop where
  firstBlock : e.firstBlock < 65536
  blockCount : e.blockCount < 65536

section
variable {n : Nat} {front rest : List UInt8} {offset : Nat}

theorem getD_behind (h : front.length ≤ offset) :
    (front ++ rest).getD offset 0 = rest.getD (offset - front.length) 0 := List.getD_append_right _ _ _ _ h

theorem bytesAt_behind (h : front.length ≤ offset) :
    bytesAt n (front ++ rest) offset = bytesAt n rest (offset - front.length) := by
  simp only [bytesAt]
  congr 1
  funext i
  rw [getD_behind (by omega)]
  congr 1
  omega

theorem u16At_behind (h : front.length ≤ offset) :
    u16At (front ++ rest) offset = u16At rest (offset - front.length) := by
  have hnext : offset + 1 - front.length = offset - front.length + 1 := by omega
  rw [u16At, getD_behind h, getD_behind (by omega), hnext, u16At]

theorem u32At_behind (h : front.length ≤ offset) :
    u32At (front ++ rest) offset = u32At rest (offset - front.length) := by
  have hnext : offset + 2 - front.length = offset - front.length + 2 := by omega
  rw [u32At, u16At_behind h, u16At_behind (by omega), hnext, u32At]

theorem getD_cons {b : UInt8} (h : 0 < offset) : (b :: rest).getD offset 0 = rest.getD (offset - 1) 0 :=
  getD_behind (show ([b] : List UInt8).length ≤ offset from h)

theorem bytesAt_cons {b : UInt8} (h : 0 < offset) : bytesAt n (b :: rest) offset = bytesAt n rest (offset - 1) :=
  bytesAt_behind (show ([b] : List UInt8).length ≤ offset from h)

theorem u16At_cons {b : UInt8} (h : 0 < offset) : u16At (b :: rest) offset = u16At rest (offset - 1) := by
  have hlength : ([b] : List UInt8).length ≤ offset := h
  rw [← List.singleton_append, u16At_behind hlength]
  rfl

theorem u32At_cons {b : UInt8} (h : 0 < offset) : u32At (b :: rest) offset = u32At rest (offset - 1) := by
  have hlength : ([b] : List UInt8).length ≤ offset := h
  rw [← List.singleton_append, u32At_behind hlength]
  rfl

theorem bytesAt_field (v : Vector UInt8 n) : bytesAt n (v.toList ++ rest) 0 = v := by
  ext i hi
  have hfield : (v.toList ++ rest).getD i 0 = v[i] := by
    rw [List.getD_append _ _ _ _ (by simpa using hi)]
    simp [hi]
  simp only [bytesAt, Vector.getElem_ofFn, Nat.zero_add, hfield]

theorem u16At_field (v : Nat) : u16At (be16 v ++ rest) 0 = UInt16.ofNat v := by
  have hvalue : v / 256 % 256 * 256 + v % 256 = v % 65536 := by omega
  have hhigh : v / 256 % 256 * 256 < 65536 := by omega
  apply UInt16.toNat.inj
  simp only [u16At, be16, List.cons_append, List.nil_append, List.getD_cons_zero, List.getD_cons_succ]
  rw [UInt16.toNat_or, UInt16.toNat_shiftLeft, UInt8.toNat_toUInt16, UInt8.toNat_toUInt16, UInt8.toNat_ofNat', UInt8.toNat_ofNat',
    UInt16.toNat_ofNat', ← hvalue]
  simp [Nat.shiftLeft_eq]
  rw [Nat.mod_eq_of_lt hhigh]
  have := Nat.two_pow_add_eq_or_of_lt (i := 8) (Nat.mod_lt v (by decide : 0 < 2 ^ 8)) (v / 256 % 256)
  rw [Nat.mul_comm] at this
  exact this.symm

theorem u32At_field (v : UInt32) : u32At (be32 v ++ rest) 0 = v := by
  have hlow : u16At (be32 v ++ rest) 2 = UInt16.ofNat v.toNat := by
    rw [be32, List.append_assoc, u16At_behind (show (be16 _).length ≤ 2 from le_of_eq rfl)]
    exact u16At_field _
  rw [u32At, be32, List.append_assoc, u16At_field]
  rw [be32, List.append_assoc] at hlow
  rw [Nat.zero_add, hlow]
  have hhigh : v.toNat / 65536 < 65536 := Nat.div_lt_of_lt_mul v.toNat_lt
  have hshift : v.toNat / 65536 * 2 ^ 16 < 2 ^ 32 := lt_of_le_of_lt (Nat.div_mul_le_self _ _) v.toNat_lt
  have hor := Nat.two_pow_add_eq_or_of_lt (i := 16) (Nat.mod_lt v.toNat (by decide : 0 < 2 ^ 16)) (v.toNat / 65536)
  apply UInt32.toNat.inj
  simp only [UInt32.toNat_or, UInt32.toNat_shiftLeft, UInt16.toNat_toUInt32, UInt16.toNat_ofNat', Nat.mod_eq_of_lt hhigh]
  have hexp : (2 : Nat) ^ (UInt32.toNat 16 % 32) = 2 ^ 16 := rfl
  rw [Nat.shiftLeft_eq, hexp, Nat.mod_eq_of_lt hshift, Nat.mul_comm]
  exact hor.symm.trans (Nat.div_add_mod _ _)

@[simp] theorem length_be16 (v : Nat) : (be16 v).length = 2 := by simp [be16]
@[simp] theorem length_be32 (v : UInt32) : (be32 v).length = 4 := by simp [be32]

end

@[simp] theorem length_raw (e : DEntry) : e.raw.length = 0x40 := by
  simp [DEntry.raw]

theorem ofBytes_raw {e : DEntry} (h : e.Fits) (rest : List UInt8) : DEntry.ofBytes (e.raw ++ rest) = e := by
  simp [-List.getD_eq_getElem?_getD, DEntry.ofBytes, DEntry.raw, getD_behind, bytesAt_behind, u16At_behind,
    u32At_behind, List.getD_cons_zero, getD_cons, bytesAt_cons, u16At_cons, u32At_cons, bytesAt_field, u16At_field, u32At_field,
    Nat.mod_eq_of_lt h.firstBlock, Nat.mod_eq_of_lt h.blockCount]

/-! ## The entry of a byte-swapped header -/

theorem length_swapPair (entry : List UInt8) (p : Nat) : (swapPair entry p).length = entry.length := by
  simp [swapPair]

theorem getElem?_swapPair {entry : List UInt8} {p : Nat} (h : p + 1 < entry.length) (i : Nat) :
    (swapPair entry p)[i]? = entry[if i = p then p + 1 else if i = p + 1 then p else i]? := by
  have hp : entry.getD p 0 = entry[p] := by simp [show p < entry.length by omega]
  have hp' : entry.getD (p + 1) 0 = entry[p + 1] := by simp [h]
  rw [swapPair, hp, hp']
  rcases eq_or_ne i p with rfl | hip
  · rw [if_pos rfl, List.getElem?_set_ne (by omega), List.getElem?_set_self (by omega), List.getElem?_eq_getElem h]
  rw [if_neg hip]
  rcases eq_or_ne i (p + 1) with rfl | hip'
  · rw [if_pos rfl, List.getElem?_set_self (by rwa [List.length_set]), List.getElem?_eq_getElem]
  · rw [if_neg hip', List.getElem?_set_ne hip'.symm, List.getElem?_set_ne hip.symm]

theorem swapPair_swapPair {entry : List UInt8} {p : Nat} (h : p + 1 < entry.length) :
    swapPair (swapPair entry p) p = entry := by
  apply List.ext_getElem?
  intro i
  rw [getElem?_swapPair (by rwa [length_swapPair]), getElem?_swapPair h]
  congr 1
  split_ifs <;> omega

theorem swapPair_comm {entry : List UInt8} {p q : Nat} (hp : p + 1 < entry.length) (hq : q + 1 < entry.length)
    (h : p + 1 < q) : swapPair (swapPair entry p) q = swapPair (swapPair entry q) p := by
  apply List.ext_getElem?
  intro i
  rw [getElem?_swapPair (by rwa [length_swapPair]), getElem?_swapPair hp,
    getElem?_swapPair (by rwa [length_swapPair]), getElem?_swapPair hq]
  congr 1
  split_ifs <;> omega

theorem length_foldl_swapPair (ps : List Nat) (entry : List UInt8) :
    (ps.foldl swapPair entry).length = entry.length := by
  induction ps generalizing entry with
  | nil => rfl
  | cons p ps ih => rw [List.foldl_cons, ih, length_swapPair]

theorem swapPair_foldl {p : Nat} (ps : List Nat) {entry : List UInt8} (hp : p + 1 < entry.length)
    (hps : ∀ q ∈ ps, p + 1 < q ∧ q + 1 < entry.length) :
    swapPair (ps.foldl swapPair entry) p = ps.foldl swapPair (swapPair entry p) := by
  induction ps generalizing entry with
  | nil => rfl
  | cons q ps ih =>
    obtain ⟨hpq, hq⟩ := hps q List.mem_cons_self
    have hrest : ∀ r ∈ ps, p + 1 < r ∧ r + 1 < (swapPair entry q).length := by
      intro r hr
      rw [length_swapPair]
      exact hps r (List.mem_cons_of_mem q hr)
    rw [List.foldl_cons, List.foldl_cons, ih (by rwa [length_swapPair]) hrest, swapPair_comm hp hq hpq]

theorem foldl_swapPair_twice (ps : List Nat) {entry : List UInt8} (hps : ps.Pairwise (· + 1 < ·))
    (hlt : ∀ p ∈ ps, p + 1 < entry.length) : ps.foldl swapPair (ps.foldl swapPair entry) = entry := by
  induction ps generalizing entry with
  | nil => rfl
  | cons p ps ih =>
    obtain ⟨hp, hps⟩ := List.pairwise_cons.mp hps
    have hpl := hlt p List.mem_cons_self
    have hrest : ∀ q ∈ ps, q + 1 < entry.length := fun q hq => hlt q (List.mem_cons_of_mem p hq)
    have hlength := length_swapPair entry p
    rw [List.foldl_cons, List.foldl_cons,
      swapPair_foldl ps (by omega) (fun q hq => ⟨hp q hq, by have := hrest q hq; omega⟩), swapPair_swapPair hpl,
      ih hps hrest]

theorem length_byteswap (entry : List UInt8) : (byteswapDEntrySavHeader entry).length = entry.length :=
  length_foldl_swapPair _ entry

theorem byteswap_byteswap {entry : List UInt8} (h : entry.length = dentrySize) :
    byteswapDEntrySavHeader (byteswapDEntrySavHeader entry) = entry := by
  apply foldl_swapPair_twice
  · decide
  · rw [h]
    decide

/-! ## Blocks -/

theorem writeBlocks_eq (file : List UInt8) (blocks : List GCMBlock) :
    writeBlocks file blocks = file ++ blocks.flatMap List.ofFn := by
  induction blocks generalizing file with
  | nil => simp only [writeBlocks, List.foldl_nil, List.flatMap_nil, List.append_nil]
  | cons block blocks ih =>
    rw [writeBlocks, List.foldl_cons, ← writeBlocks, ih, List.flatMap_cons, List.append_assoc]

theorem length_writeBlocks (file : List UInt8) (blocks : List GCMBlock) :
    (writeBlocks file blocks).length = file.length + blocks.length * blockSize := by
  induction blocks generalizing file with
  | nil => simp only [writeBlocks, List.foldl_nil, List.length_nil, Nat.zero_mul, Nat.add_zero]
  | cons block blocks ih =>
    have hlength : (List.ofFn block).length = blockSize := List.length_ofFn
    rw [writeBlocks, List.foldl_cons, ← writeBlocks, ih, List.length_append, hlength, List.length_cons]
    ring

theorem ofBytes_ofFn (block : GCMBlock) : GCMBlock.ofBytes (List.ofFn block) = block := by
  funext i
  rw [GCMBlock.ofBytes, List.getD_eq_getElem _ _ (by rw [List.length_ofFn]; exact i.isLt), List.getElem_ofFn]

theorem readBlocksFromIOFile_blocks (blocks : List GCMBlock) :
    readBlocksFromIOFile blocks.length (blocks.flatMap List.ofFn) = some blocks := by
  induction blocks with
  | nil => rfl
  | cons block blocks ih =>
    have hlength : (List.ofFn block).length = blockSize := List.length_ofFn
    have hle : ¬ (List.ofFn block ++ blocks.flatMap List.ofFn).length < blockSize := by
      rw [List.length_append, hlength]
      omega
    rw [List.length_cons, List.flatMap_cons, readBlocksFromIOFile, if_neg hle, List.drop_left' hlength,
      List.take_left' hlength, ih, ofBytes_ofFn, Option.map_some]

theorem readBlocks_writeBlocks {header : List UInt8} {headerSize : Nat} (h : header.length = headerSize)
    (blocks : List GCMBlock) (dirEntry : DEntry) :
    readBlocks (writeBlocks header blocks) headerSize blocks.length dirEntry = .ok ⟨dirEntry, blocks⟩ := by
  rw [readBlocks, writeBlocks_eq, List.drop_left' h, readBlocksFromIOFile_blocks]

/-! ## Each format is read back -/

variable {savefile : Savefile}

theorem length_header (magic dentry : List UInt8) {headerSize dentryOffset : Nat}
    (hmagic : magic.length ≤ dentryOffset) (hdentry : dentryOffset + dentry.length ≤ headerSize) :
    (copyTo (copyTo (List.replicate headerSize 0) 0 magic) dentryOffset dentry).length = headerSize := by
  simp [copyTo]
  omega

theorem length_writeSavefile (savefile : Savefile) (format : SavefileFormat) :
    (writeSavefile savefile format).length = format.headerSize + savefile.blocks.length * blockSize := by
  cases format with
  | gci =>
    rw [writeSavefile, writeSavefileInternalGCI, length_writeBlocks, length_raw]
    rfl
  | gcs =>
    rw [writeSavefile, writeSavefileInternalGCS, length_writeBlocks, length_header _ _ (by decide)]
    · rfl
    · rw [length_raw]
      decide
  | sav =>
    rw [writeSavefile, writeSavefileInternalSAV, injectDEntryToSavHeader, length_writeBlocks,
      length_header _ _ (by decide)]
    · rfl
    · rw [length_byteswap, length_raw]
      decide

theorem header_parts (magic dentry : List UInt8) {headerSize dentryOffset : Nat} (blocks : List GCMBlock)
    (hmagic : magic.length ≤ dentryOffset) (hdentry : dentryOffset + dentry.length ≤ headerSize) :
    let file := writeBlocks (copyTo (copyTo (List.replicate headerSize 0) 0 magic) dentryOffset dentry) blocks
    file.take magic.length = magic ∧ ∃ rest, file.drop dentryOffset = dentry ++ rest := by
  have hfront : (copyTo (List.replicate headerSize 0) 0 magic).take dentryOffset =
      magic ++ List.replicate (dentryOffset - magic.length) 0 := by
    simp only [copyTo, List.take_zero, List.nil_append, Nat.zero_add, List.drop_replicate]
    rw [List.take_append, List.take_of_length_le hmagic, List.take_replicate]
    congr 2
    omega
  have hlength : (magic ++ List.replicate (dentryOffset - magic.length) (0 : UInt8)).length = dentryOffset := by
    rw [List.length_append, List.length_replicate]
    omega
  simp only [writeBlocks_eq]
  rw [copyTo, hfront]
  simp only [List.append_assoc]
  constructor
  · exact List.take_left' rfl
  · rw [← List.append_assoc, List.drop_left' hlength]
    exact ⟨_, rfl⟩

theorem readSavefileInternalGCI_written (hfits : savefile.dirEntry.Fits)
    (h : savefile.blocks.length = savefile.dirEntry.blockCount) :
    readSavefileInternalGCI (writeSavefile savefile .gci) = .ok savefile := by
  have hlength := length_writeSavefile savefile .gci
  have hsize : ¬ (writeSavefile savefile .gci).length < dentrySize := by
    rw [hlength]
    exact Nat.not_lt.mpr (Nat.le_add_right _ _)
  have hentry : DEntry.ofBytes (writeSavefile savefile .gci) = savefile.dirEntry := by
    rw [writeSavefile, writeSavefileInternalGCI, writeBlocks_eq, ofBytes_raw hfits]
  simp only [readSavefileInternalGCI, if_neg hsize, hentry]
  rw [if_neg (by rw [hlength, h]; exact fun hne => hne rfl), ← h]
  exact readBlocks_writeBlocks (length_raw _) _ _

theorem readSavefileInternalGCS_written (hfits : savefile.dirEntry.Fits)
    (h : savefile.blocks.length = savefile.dirEntry.blockCount) :
    readSavefileInternalGCS (writeSavefile savefile .gcs) = .ok savefile := by
  have hlength : (writeSavefile savefile .gcs).length = gcsHeaderSize + savefile.blocks.length * blockSize :=
    length_writeSavefile savefile .gcs
  have hsize : ¬ (writeSavefile savefile .gcs).length < gcsHeaderSize := by
    rw [hlength]
    exact Nat.not_lt.mpr (Nat.le_add_right _ _)
  have hdentry : gcsDentryOffset + { savefile.dirEntry with blockCount := 1 }.raw.length ≤ gcsHeaderSize := by
    rw [length_raw]
    decide
  have hstored : DEntry.Fits { savefile.dirEntry with blockCount := 1 } := ⟨hfits.firstBlock, show 1 < 65536 by decide⟩
  obtain ⟨hmagic, rest, hrest⟩ := header_parts gcsMagic _ savefile.blocks (by decide) hdentry
  have hcount : savefile.blocks.length * blockSize / blockSize = savefile.dirEntry.blockCount := by
    rw [Nat.mul_div_cancel _ (by decide), h]
  have hentry : { DEntry.ofBytes ((writeSavefile savefile .gcs).drop gcsDentryOffset) with
      blockCount := savefile.dirEntry.blockCount % 65536 } = savefile.dirEntry := by
    rw [writeSavefile, writeSavefileInternalGCS, hrest, ofBytes_raw hstored, Nat.mod_eq_of_lt hfits.blockCount]
  have hmod : savefile.blocks.length * blockSize % blockSize = 0 := Nat.mul_mod_left _ _
  have htotal : (writeSavefile savefile .gcs).length - gcsHeaderSize = savefile.blocks.length * blockSize := by
    rw [hlength, Nat.add_sub_cancel_left]
  simp only [readSavefileInternalGCS, if_neg hsize, htotal, hmod, hcount, hentry]
  rw [if_neg (fun hne => hne hmagic), if_neg (fun hne => hne rfl), ← h]
  exact readBlocks_writeBlocks (length_header _ _ (by decide) hdentry) _ _

theorem readSavefileInternalSAV_written (hfits : savefile.dirEntry.Fits)
    (h : savefile.blocks.length = savefile.dirEntry.blockCount) :
    readSavefileInternalSAV (writeSavefile savefile .sav) = .ok savefile := by
  have hlength := length_writeSavefile savefile .sav
  have hsize : ¬ (writeSavefile savefile .sav).length < savHeaderSize := by
    rw [hlength]
    exact Nat.not_lt.mpr (Nat.le_add_right _ _)
  have hswapped : (byteswapDEntrySavHeader savefile.dirEntry.raw).length = dentrySize := by
    rw [length_byteswap, length_raw]
    rfl
  have hdentry : savDentryOffset + (byteswapDEntrySavHeader savefile.dirEntry.raw).length ≤ savHeaderSize := by
    rw [hswapped]
    decide
  obtain ⟨hmagic, rest, hrest⟩ := header_parts savMagic _ savefile.blocks (by decide) hdentry
  have hentry : extractDEntryFromSavHeader (writeSavefile savefile .sav) = savefile.dirEntry := by
    have hraw := ofBytes_raw hfits []
    rw [List.append_nil] at hraw
    rw [extractDEntryFromSavHeader, writeSavefile, writeSavefileInternalSAV, injectDEntryToSavHeader, hrest,
      List.take_left' hswapped, byteswap_byteswap (length_raw _), hraw]
  simp only [readSavefileInternalSAV, if_neg hsize, hentry]
  rw [if_neg (fun hne => hne hmagic), if_neg (by rw [hlength, h]; exact fun hne => hne rfl), ← h]
  exact readBlocks_writeBlocks (length_header _ _ (by decide) hdentry) _ _

/-- A save file with as many blocks as its entry says is read back from each format that it is written in, and the
format is recognised. -/
theorem readSavefile_writeSavefile (hfits : savefile.dirEntry.Fits)
    (h : savefile.blocks.length = savefile.dirEntry.blockCount) (format : SavefileFormat) :
    SavefileFormat.ofSize (writeSavefile savefile format).length = some format ∧
      readSavefileInternal (writeSavefile savefile format) format = .ok savefile ∧
      readSavefile (writeSavefile savefile format) = .ok savefile := by
  have hformat : SavefileFormat.ofSize (writeSavefile savefile format).length = some format := by
    rw [length_writeSavefile]
    exact ofSize_blocks format _
  have hread : readSavefileInternal (writeSavefile savefile format) format = .ok savefile := by
    cases format with
    | gci => exact readSavefileInternalGCI_written hfits h
    | gcs => exact readSavefileInternalGCS_written hfits h
    | sav => exact readSavefileInternalSAV_written hfits h
  exact ⟨hformat, hread, by rw [readSavefile_ofSize hformat, hread]⟩

def oneBlockSavefile : Savefile :=
  ⟨{ gamecode := galeCode, firstBlock := 5, blockCount := 1 }, [GCMBlock.erased]⟩

theorem oneBlockSavefile_readBack : oneBlockSavefile.dirEntry.Fits ∧
    oneBlockSavefile.blocks.length = oneBlockSavefile.dirEntry.blockCount ∧
    readSavefile (writeSavefile oneBlockSavefile .sav) = .ok oneBlockSavefile := by
  have hfits : oneBlockSavefile.dirEntry.Fits := ⟨by decide, by decide⟩
  exact ⟨hfits, rfl, (readSavefile_writeSavefile hfits rfl .sav).2.2⟩

end Karphin.GCMemcard
