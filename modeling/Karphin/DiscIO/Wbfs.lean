import Karphin.Lib.FinNumerals
import Karphin.Lib.LittleEndian

/-!
# WBFS images

An image may be split over several files, which are read as one. It is cut into sectors of its own size, and a table says
where each of them stands. A copy of a reader opens the same files again.
-/

namespace Karphin.DiscIO.Wbfs

open Lib

def wbfsMagic : Nat := 0x53464257
def wiiSectorSize : Nat := 0x8000
def wiiSectorCount : Nat := 143432 * 2
def wiiDiscHeaderSize : Nat := 256

def u64 (n : Nat) : Nat := n % 2 ^ 64

/-- An open `File::IOFile`. After an error, reads fail until the error is cleared. -/
structure IOFile where
  content : List UInt8
  good : Bool := true

/-- `Seek` and `ReadBytes`, which has succeeded where the file is still good. -/
def IOFile.readAt (file : IOFile) (position length : Nat) : List UInt8 × IOFile :=
  let data := (file.content.drop position).take length
  (data, { file with good := file.good && data.length = length })

def IOFile.clearError (file : IOFile) : IOFile := { file with good := true }

/-- `WbfsFileReader::FileEntry`. The sizes of the files of an image add up to less than 2^64. -/
structure FileEntry where
  file : IOFile
  baseAddress : Nat
  size : Nat

structure WbfsHeader where
  magic : Nat
  hdSectorCount : Nat
  hdSectorShift : Nat
  wbfsSectorShift : Nat
  discTable0 : UInt8

/-- What stands in the memory of a new reader where nothing is written. -/
structure Memory where
  header : Nat → UInt8
  hdSectorSize : Nat
  wbfsSectorSize : Nat
  blocksPerDisc : Nat

/-- A field after `Common::swap32` or `Common::swap16`. -/
def ofBeBytes (bytes : List UInt8) : Nat := ofLeBytes bytes.reverse

/-- `m_header` after `ReadBytes`, with the bytes of the memory behind a file that is too short. -/
def WbfsHeader.ofBytes (memory : Memory) (content : List UInt8) : WbfsHeader where
  magic := ofLeBytes ((List.range' 0 4).map fun i => content.getD i (memory.header i))
  hdSectorCount := ofBeBytes ((List.range' 4 4).map fun i => content.getD i (memory.header i))
  hdSectorShift := (content.getD 8 (memory.header 8)).toNat
  wbfsSectorShift := (content.getD 9 (memory.header 9)).toNat
  discTable0 := content.getD 12 (memory.header 12)

def wbfsHeaderSize : Nat := 512

structure WbfsFileReader where
  files : List FileEntry
  size : Nat
  header : WbfsHeader
  hdSectorSize : Nat
  wbfsSectorSize : Nat
  wlbaTable : List Nat
  blocksPerDisc : Nat
  good : Bool

namespace WbfsFileReader

def dataSize : Nat := wiiSectorCount * wiiSectorSize

def uninitialized (memory : Memory) : WbfsFileReader where
  files := []
  size := 0
  header := .ofBytes memory []
  hdSectorSize := memory.hdSectorSize
  wbfsSectorSize := memory.wbfsSectorSize
  wlbaTable := []
  blocksPerDisc := memory.blocksPerDisc
  good := false

def addFileToList (reader : WbfsFileReader) (content : List UInt8) : WbfsFileReader :=
  { reader with
    files := reader.files ++ [⟨⟨content, true⟩, reader.size, content.length⟩]
    size := reader.size + content.length }

/-- The loop of `OpenAdditionalFiles`, where a file that there is opens. It ends with ten files. -/
def openAdditionalFiles (files : List UInt8 → Option (List UInt8)) (path : List UInt8) :
    Nat → WbfsFileReader → WbfsFileReader
  | 0, reader => reader
  | n + 1, reader =>
      if reader.files.length ≥ 10 then reader
      else
        match files (path.dropLast ++ [UInt8.ofNat (0x30 + reader.files.length)]) with
        | none => reader
        | some content => openAdditionalFiles files path n (reader.addFileToList content)

def readFirst (reader : WbfsFileReader) (position length : Nat) : List FileEntry :=
  match reader.files with
  | [] => []
  | first :: rest => { first with file := (first.file.readAt position length).2 } :: rest

def firstContent (reader : WbfsFileReader) : List UInt8 := (reader.files.head?.map (·.file.content)).getD []

/-- `ReadHeader`. A shift by 64 bits or more is not defined. -/
def readHeader (memory : Memory) (reader : WbfsFileReader) : Option (Bool × WbfsFileReader) :=
  let header := WbfsHeader.ofBytes memory reader.firstContent
  let reader := { reader with files := reader.readFirst 0 wbfsHeaderSize, header := header }
  if header.magic ≠ wbfsMagic then some (false, reader)
  else if header.hdSectorShift ≥ 64 then none
  else
    let reader := { reader with hdSectorSize := 2 ^ header.hdSectorShift }
    if reader.size ≠ u64 (header.hdSectorCount * reader.hdSectorSize) then some (false, reader)
    else if header.wbfsSectorShift ≥ 64 then none
    else
      let reader := { reader with wbfsSectorSize := 2 ^ header.wbfsSectorShift }
      if reader.wbfsSectorSize < wiiSectorSize then some (false, reader)
      else
        let reader := { reader with blocksPerDisc := (dataSize + reader.wbfsSectorSize - 1) / reader.wbfsSectorSize }
        some (header.discTable0 ≠ 0, reader)

/-- The table of the disc in the first slot, in big endian; what the file does not have stays zero. -/
def readTable (reader : WbfsFileReader) : WbfsFileReader :=
  let position := reader.hdSectorSize + wiiDiscHeaderSize
  { reader with
    files := reader.readFirst position (reader.blocksPerDisc * 2)
    wlbaTable := (List.range reader.blocksPerDisc).map fun i =>
      ofBeBytes [reader.firstContent.getD (position + 2 * i) 0, reader.firstContent.getD (position + 2 * i + 1) 0] }

def construct (memory : Memory) (files : List UInt8 → Option (List UInt8)) (content path : List UInt8) :
    Option WbfsFileReader :=
  let reader := (uninitialized memory).addFileToList content
  let reader := if path.length < 4 then reader else openAdditionalFiles files path 10 reader
  (readHeader memory reader).map fun (good, reader) =>
    if good then { reader with good := true }.readTable else reader

def create (memory : Memory) (files : List UInt8 → Option (List UInt8)) (content path : List UInt8) :
    Option WbfsFileReader :=
  (construct memory files content path).filter (·.good)

/-- `CopyReader`, which has no path for the files behind the first one. -/
def copyReader (memory : Memory) (reader : WbfsFileReader) : Option WbfsFileReader :=
  (construct memory (fun _ => none) reader.firstContent []).map fun copy =>
    reader.files.tail.foldl (fun copy entry => copy.addFileToList entry.file.content) copy

/-- `SeekToCluster`: the file, the place in it and how much can be read from there, if the place is in a file. What stands
behind the end of the table is not defined. -/
def seekToCluster (reader : WbfsFileReader) (offset : Nat) : Option (Option (Nat × Nat × Nat)) :=
  let baseCluster := offset >>> reader.header.wbfsSectorShift
  if baseCluster < reader.blocksPerDisc then
    reader.wlbaTable[baseCluster]?.map fun entry =>
      let clusterAddress := u64 (reader.wbfsSectorSize * entry)
      let clusterOffset := offset &&& (reader.wbfsSectorSize - 1)
      let finalAddress := u64 (clusterAddress + clusterOffset)
      (reader.files.zipIdx.find? fun (entry, _) => finalAddress < entry.baseAddress + entry.size).map fun (entry, i) =>
        let position := finalAddress - entry.baseAddress
        (i, position, min (entry.size - position) (reader.wbfsSectorSize - clusterOffset))
  else some none

/-- What `Read` does: it runs on, it has read behind the end of the table, or it returns. -/
inductive Outcome
  | running
  | undefined
  | returned (success : Bool) (bytes : List UInt8) (reader : WbfsFileReader)

def setFile (reader : WbfsFileReader) (i : Nat) (file : IOFile) : WbfsFileReader :=
  { reader with files := reader.files.modify i fun entry => { entry with file := file } }

def readLoop : (fuel : Nat) → WbfsFileReader → (offset nbytes : Nat) → List UInt8 → Outcome
  | _, reader, _, 0, written => .returned true written reader
  | 0, _, _, _ + 1, _ => .running
  | fuel + 1, reader, offset, nbytes + 1, written =>
      match reader.seekToCluster offset with
      | none => .undefined
      | some none => .returned false written reader
      | some (some (i, position, available)) =>
          let readSize := min available (nbytes + 1)
          if readSize = 0 then .returned false written reader
          else
            match reader.files[i]? with
            | none => .undefined
            | some entry =>
                let (data, file) := entry.file.readAt position readSize
                if file.good then
                  readLoop fuel (reader.setFile i file) (u64 (offset + readSize)) (nbytes + 1 - readSize) (written ++ data)
                else .returned false (written ++ data) (reader.setFile i file.clearError)

def read (reader : WbfsFileReader) (offset nbytes : UInt64) : Outcome :=
  if (offset + nbytes).toNat > dataSize then .returned false [] reader
  else readLoop nbytes.toNat reader offset.toNat nbytes.toNat []

/-! ## Files that are read as one -/

def Laid : Nat → List FileEntry → Prop
  | _, [] => True
  | base, entry :: files =>
      entry.baseAddress = base ∧ entry.size = entry.file.content.length ∧ Laid (base + entry.size) files

def contents (files : List FileEntry) : List UInt8 := files.flatMap (·.file.content)

/-- An address lies in a file, and from there on the file is what all files together are. -/
structure Place (base : Nat) (files : List FileEntry) (address i : Nat) (entry : FileEntry) : Prop where
  get : files[i]? = some entry
  size : entry.size = entry.file.content.length
  lower : entry.baseAddress ≤ address
  upper : address < entry.baseAddress + entry.size
  bytes : ∀ n, address + n ≤ entry.baseAddress + entry.size →
    (entry.file.content.drop (address - entry.baseAddress)).take n = ((contents files).drop (address - base)).take n

variable {base address : Nat} {files : List FileEntry}

theorem Laid.find_none (h : Laid base files) (haddress : base + (contents files).length ≤ address) (k : Nat) :
    ((files.zipIdx k).find? fun (entry, _) => address < entry.baseAddress + entry.size) = none := by
  induction files generalizing base k with
  | nil => rfl
  | cons entry files ih =>
      obtain ⟨rfl, hsize, hrest⟩ := h
      rw [contents, List.flatMap_cons, List.length_append, ← hsize] at haddress
      rw [List.zipIdx_cons, List.find?_cons_of_neg (by simp; omega)]
      exact ih hrest (by rw [contents]; omega) (k + 1)

theorem Laid.find_some (h : Laid base files) (hbase : base ≤ address)
    (haddress : address < base + (contents files).length) (k : Nat) :
    ∃ entry i, ((files.zipIdx k).find? fun (entry, _) => address < entry.baseAddress + entry.size) = some (entry, k + i) ∧
      Place base files address i entry := by
  induction files generalizing base k with
  | nil =>
      rw [contents, List.flatMap_nil, List.length_nil] at haddress
      omega
  | cons entry files ih =>
      obtain ⟨rfl, hsize, hrest⟩ := h
      have hcontents : contents (entry :: files) = entry.file.content ++ contents files := List.flatMap_cons
      rw [hcontents, List.length_append, ← hsize] at haddress
      by_cases hhere : address < entry.baseAddress + entry.size
      · refine ⟨entry, 0, ?_, rfl, hsize, hbase, hhere, fun n hn => ?_⟩
        · rw [List.zipIdx_cons, List.find?_cons_of_pos (by simpa using hhere)]
          rfl
        · rw [hcontents, List.drop_append_of_le_length (by omega), List.take_append_of_le_length]
          rw [List.length_drop]
          omega
      · obtain ⟨found, i, hfind, hplace⟩ := ih hrest (by omega) (by omega) (k + 1)
        refine ⟨found, i + 1, ?_, hplace.get, hplace.size, hplace.lower, hplace.upper, fun n hn => ?_⟩
        · rw [List.zipIdx_cons, List.find?_cons_of_neg (by simpa using hhere), hfind]
          simp only [Option.some.injEq, Prod.mk.injEq, true_and]
          omega
        · have hdrop : (contents (entry :: files)).drop (address - entry.baseAddress) =
              (contents files).drop (address - (entry.baseAddress + entry.size)) := by
            rw [hcontents, List.drop_append, List.drop_eq_nil_of_le (by omega), List.nil_append]
            congr 1
            omega
          rw [hplace.bytes n hn, hdrop]

/-! ## Readers -/

/-- What holds of the fields of a reader that was created, whatever it has read. -/
structure Valid (reader : WbfsFileReader) : Prop where
  laid : Laid 0 reader.files
  size : reader.size = (contents reader.files).length
  shift : reader.header.wbfsSectorShift < 64
  sector : reader.wbfsSectorSize = 2 ^ reader.header.wbfsSectorShift
  blocks : reader.blocksPerDisc = (dataSize + reader.wbfsSectorSize - 1) / reader.wbfsSectorSize
  table : reader.wlbaTable.length = reader.blocksPerDisc
  size_lt : reader.size < 2 ^ 64

variable {reader : WbfsFileReader} {offset : Nat}

theorem Valid.sector_pos (h : reader.Valid) : 0 < reader.wbfsSectorSize := h.sector ▸ Nat.two_pow_pos _

theorem Valid.cluster_eq (h : reader.Valid) (offset : Nat) :
    offset >>> reader.header.wbfsSectorShift = offset / reader.wbfsSectorSize := by
  rw [Nat.shiftRight_eq_div_pow, h.sector]

theorem Valid.clusterOffset_eq (h : reader.Valid) (offset : Nat) :
    offset &&& (reader.wbfsSectorSize - 1) = offset % reader.wbfsSectorSize := by
  rw [h.sector, Nat.and_two_pow_sub_one_eq_mod]

theorem Valid.address_lt (h : reader.Valid) (entry offset : Nat) :
    u64 (reader.wbfsSectorSize * entry) + offset % reader.wbfsSectorSize < 2 ^ 64 := by
  have hsplit : 2 ^ 64 = reader.wbfsSectorSize * 2 ^ (64 - reader.header.wbfsSectorShift) := by
    rw [h.sector, ← Nat.pow_add, Nat.add_sub_cancel' h.shift.le]
  have hmod := Nat.mod_lt offset h.sector_pos
  have hlt : entry % 2 ^ (64 - reader.header.wbfsSectorShift) < 2 ^ (64 - reader.header.wbfsSectorShift) :=
    Nat.mod_lt _ (Nat.two_pow_pos _)
  rw [u64, hsplit, Nat.mul_mod_mul_left]
  calc _ < reader.wbfsSectorSize * (entry % 2 ^ (64 - reader.header.wbfsSectorShift)) + reader.wbfsSectorSize :=
        Nat.add_lt_add_left hmod _
    _ = reader.wbfsSectorSize * (entry % 2 ^ (64 - reader.header.wbfsSectorShift) + 1) := (Nat.mul_succ _ _).symm
    _ ≤ _ := Nat.mul_le_mul_left _ hlt

theorem Valid.seek_beyond (h : reader.Valid) (hbeyond : reader.blocksPerDisc ≤ offset / reader.wbfsSectorSize) :
    reader.seekToCluster offset = some none := by
  rw [seekToCluster, h.cluster_eq, if_neg (Nat.not_lt.mpr hbeyond)]

structure Found (reader : WbfsFileReader) (offset address i position available : Nat) (entry : FileEntry) : Prop where
  place : Place 0 reader.files address i entry
  position : position = address - entry.baseAddress
  available : available = min (entry.baseAddress + entry.size - address)
    (reader.wbfsSectorSize - offset % reader.wbfsSectorSize)

theorem Valid.seek_eq (h : reader.Valid) {entry : Nat}
    (hentry : reader.wlbaTable[offset / reader.wbfsSectorSize]? = some entry) :
    (reader.size ≤ u64 (reader.wbfsSectorSize * entry) + offset % reader.wbfsSectorSize →
      reader.seekToCluster offset = some none) ∧
    (u64 (reader.wbfsSectorSize * entry) + offset % reader.wbfsSectorSize < reader.size →
      ∃ i position available found, reader.seekToCluster offset = some (some (i, position, available)) ∧
        Found reader offset (u64 (reader.wbfsSectorSize * entry) + offset % reader.wbfsSectorSize) i position available
          found) := by
  have hlt : offset / reader.wbfsSectorSize < reader.blocksPerDisc := by
    rw [← h.table]
    exact (List.getElem?_eq_some_iff.mp hentry).1
  have hseek : reader.seekToCluster offset = some
      ((reader.files.zipIdx.find? fun (found, _) => u64 (reader.wbfsSectorSize * entry) +
          offset % reader.wbfsSectorSize < found.baseAddress + found.size).map fun (found, i) =>
        (i, u64 (reader.wbfsSectorSize * entry) + offset % reader.wbfsSectorSize - found.baseAddress,
          min (found.size - (u64 (reader.wbfsSectorSize * entry) + offset % reader.wbfsSectorSize - found.baseAddress))
            (reader.wbfsSectorSize - offset % reader.wbfsSectorSize))) := by
    have hwrap : u64 (u64 (reader.wbfsSectorSize * entry) + offset % reader.wbfsSectorSize) =
        u64 (reader.wbfsSectorSize * entry) + offset % reader.wbfsSectorSize := Nat.mod_eq_of_lt (h.address_lt _ _)
    rw [seekToCluster, h.cluster_eq, if_pos hlt, hentry, Option.map_some, h.clusterOffset_eq]
    dsimp only
    rw [hwrap]
  refine ⟨fun hbehind => ?_, fun hwithin => ?_⟩
  · rw [hseek, h.laid.find_none (by rw [Nat.zero_add, ← h.size]; exact hbehind) 0]
    rfl
  · obtain ⟨found, i, hfind, hplace⟩ := h.laid.find_some (Nat.zero_le _)
      (by rw [Nat.zero_add, ← h.size]; exact hwithin) 0
    rw [hseek, hfind, Nat.zero_add]
    refine ⟨i, _, _, found, rfl, hplace, rfl, ?_⟩
    have hlower := hplace.lower
    have hupper := hplace.upper
    congr 1
    omega

/-! ## Reads -/

def Touches (reader : WbfsFileReader) (entry : Nat) : Prop := u64 (reader.wbfsSectorSize * entry) < reader.size

def positionOf (reader : WbfsFileReader) (offset : Nat) : Nat :=
  reader.wlbaTable.getD (offset / reader.wbfsSectorSize) 0 * reader.wbfsSectorSize + offset % reader.wbfsSectorSize

def BytesFrom (reader : WbfsFileReader) (offset : Nat) (bytes : List UInt8) : Prop :=
  ∀ i < bytes.length, bytes[i]? = (contents reader.files)[reader.positionOf (offset + i)]?

def NoWrap (reader : WbfsFileReader) : Prop :=
  ∀ entry ∈ reader.wlbaTable, reader.Touches entry → reader.wbfsSectorSize * entry < 2 ^ 64

theorem readAt_full {file : IOFile} {position length : Nat} (h : position + length ≤ file.content.length) :
    file.readAt position length = ((file.content.drop position).take length, file) := by
  have hlength : ((file.content.drop position).take length).length = length := by
    rw [List.length_take, List.length_drop]
    omega
  simp [IOFile.readAt, hlength]

theorem setFile_self {i : Nat} {entry : FileEntry} (h : reader.files[i]? = some entry) :
    reader.setFile i entry.file = reader := by
  have hfiles : (reader.files.modify i fun entry' => { entry' with file := entry.file }) = reader.files := by
    apply List.ext_getElem?
    intro j
    rw [List.getElem?_modify]
    by_cases hij : i = j
    · subst hij
      simp [h]
    · simp [hij]
  rw [setFile, hfiles]

theorem Valid.seek_cases (h : reader.Valid) (offset : Nat) : reader.seekToCluster offset = some none ∨
    ∃ table i position available entry, reader.wlbaTable[offset / reader.wbfsSectorSize]? = some table ∧
      reader.Touches table ∧ reader.seekToCluster offset = some (some (i, position, available)) ∧
      Found reader offset (u64 (reader.wbfsSectorSize * table) + offset % reader.wbfsSectorSize) i position available
        entry := by
  rcases Nat.lt_or_ge (offset / reader.wbfsSectorSize) reader.blocksPerDisc with hlt | hge
  · rw [← h.table] at hlt
    have hentry := List.getElem?_eq_getElem hlt
    obtain ⟨hbehind, hwithin⟩ := h.seek_eq hentry
    rcases Nat.lt_or_ge (u64 (reader.wbfsSectorSize * reader.wlbaTable[offset / reader.wbfsSectorSize]) +
      offset % reader.wbfsSectorSize) reader.size with hin | hout
    · obtain ⟨i, position, available, found, hseek, hfound⟩ := hwithin hin
      exact .inr ⟨_, i, position, available, found, hentry, Nat.lt_of_le_of_lt (Nat.le_add_right _ _) hin, hseek, hfound⟩
    · exact .inl (hbehind hout)
  · exact .inl (h.seek_beyond hge)

theorem Found.within (h : reader.Valid) {address i position available : Nat} {entry : FileEntry}
    (hfound : Found reader offset address i position available entry) :
    0 < available ∧ address + available ≤ entry.baseAddress + entry.size ∧
      offset % reader.wbfsSectorSize + available ≤ reader.wbfsSectorSize := by
  have hmod := Nat.mod_lt offset h.sector_pos
  have hupper := hfound.place.upper
  have havailable := hfound.available
  omega

theorem Found.readAt (h : reader.Valid) {address i position available n : Nat} {entry : FileEntry}
    (hfound : Found reader offset address i position available entry) (hn : n ≤ available) :
    entry.file.readAt position n = (((contents reader.files).drop address).take n, entry.file) ∧
      (((contents reader.files).drop address).take n).length = n := by
  obtain ⟨-, hwithin, -⟩ := hfound.within h
  have hlower := hfound.place.lower
  have hsize := hfound.place.size
  have hposition := hfound.position
  have hfit : position + n ≤ entry.file.content.length := by omega
  have hbytes := hfound.place.bytes n (by omega)
  rw [Nat.sub_zero, ← hposition] at hbytes
  refine ⟨by rw [readAt_full hfit, hbytes], ?_⟩
  rw [← hbytes, List.length_take, List.length_drop]
  omega

theorem BytesFrom.append {bytes bytes' : List UInt8} (h : reader.BytesFrom offset bytes)
    (h' : reader.BytesFrom (offset + bytes.length) bytes') : reader.BytesFrom offset (bytes ++ bytes') := by
  intro i hi
  rcases Nat.lt_or_ge i bytes.length with hlt | hge
  · rw [List.getElem?_append_left hlt]
    exact h i hlt
  · rw [List.length_append] at hi
    rw [List.getElem?_append_right hge, h' (i - bytes.length) (by omega), Nat.add_assoc, Nat.add_sub_cancel' hge]

theorem bytesFrom_sector (h : reader.Valid) {table n : Nat}
    (htable : reader.wlbaTable[offset / reader.wbfsSectorSize]? = some table)
    (hwrap : reader.wbfsSectorSize * table < 2 ^ 64) (hn : offset % reader.wbfsSectorSize + n ≤ reader.wbfsSectorSize) :
    reader.BytesFrom offset
      (((contents reader.files).drop (u64 (reader.wbfsSectorSize * table) + offset % reader.wbfsSectorSize)).take n) := by
  intro i hi
  have hin : i < n := by
    rw [List.length_take] at hi
    omega
  have hsplit : offset + i = offset / reader.wbfsSectorSize * reader.wbfsSectorSize +
      (offset % reader.wbfsSectorSize + i) := by
    rw [← Nat.add_assoc, Nat.div_add_mod']
  have hlt : offset % reader.wbfsSectorSize + i < reader.wbfsSectorSize := by omega
  have hdiv : (offset + i) / reader.wbfsSectorSize = offset / reader.wbfsSectorSize := by
    rw [hsplit, Nat.mul_comm, Nat.mul_add_div h.sector_pos, Nat.div_eq_of_lt hlt, Nat.add_zero]
  have hmod : (offset + i) % reader.wbfsSectorSize = offset % reader.wbfsSectorSize + i := by
    rw [hsplit, Nat.mul_comm, Nat.mul_add_mod, Nat.mod_eq_of_lt hlt]
  have hu64 : u64 (reader.wbfsSectorSize * table) = table * reader.wbfsSectorSize := by
    rw [u64, Nat.mod_eq_of_lt hwrap, Nat.mul_comm]
  rw [positionOf, hdiv, hmod, List.getD_eq_getElem?_getD, htable, Option.getD_some, List.getElem?_take_of_lt hin,
    List.getElem?_drop, hu64, Nat.add_assoc]

theorem Valid.offset_lt (h : reader.Valid) {n : Nat} (hcluster : offset / reader.wbfsSectorSize < reader.blocksPerDisc)
    (hn : offset % reader.wbfsSectorSize + n ≤ reader.wbfsSectorSize) : offset + n < 2 ^ 64 := by
  have hle : reader.wbfsSectorSize ≤ 2 ^ 63 := h.sector ▸ Nat.pow_le_pow_right (by decide) (Nat.le_of_lt_succ h.shift)
  have hsize : dataSize < 2 ^ 63 := by decide
  have hblocks : reader.blocksPerDisc * reader.wbfsSectorSize ≤ dataSize + reader.wbfsSectorSize - 1 :=
    h.blocks ▸ Nat.div_mul_le_self _ _
  have hoffset := Nat.div_add_mod' offset reader.wbfsSectorSize
  have hmul : (offset / reader.wbfsSectorSize + 1) * reader.wbfsSectorSize ≤
      reader.blocksPerDisc * reader.wbfsSectorSize := Nat.mul_le_mul_right _ hcluster
  rw [Nat.add_mul, Nat.one_mul] at hmul
  have hpos := h.sector_pos
  omega

theorem Valid.readLoop_found (h : reader.Valid) {table i position available : Nat} {entry : FileEntry}
    (htable : reader.wlbaTable[offset / reader.wbfsSectorSize]? = some table)
    (hseek : reader.seekToCluster offset = some (some (i, position, available)))
    (hfound : Found reader offset (u64 (reader.wbfsSectorSize * table) + offset % reader.wbfsSectorSize) i position
      available entry) (fuel nbytes : Nat) (written : List UInt8) :
    let readSize := min available (nbytes + 1)
    let data := ((contents reader.files).drop
      (u64 (reader.wbfsSectorSize * table) + offset % reader.wbfsSectorSize)).take readSize
    readLoop (fuel + 1) reader offset (nbytes + 1) written =
      if entry.file.good then readLoop fuel reader (offset + readSize) (nbytes + 1 - readSize) (written ++ data)
      else .returned false (written ++ data) (reader.setFile i entry.file.clearError) := by
  intro readSize data
  obtain ⟨hpos, -, hsector⟩ := hfound.within h
  have hle : readSize ≤ available := Nat.min_le_left _ _
  have hne : readSize ≠ 0 := by omega
  have hcluster : offset / reader.wbfsSectorSize < reader.blocksPerDisc :=
    h.table ▸ (List.getElem?_eq_some_iff.mp htable).1
  have hlt : offset + readSize < 2 ^ 64 := h.offset_lt hcluster (by omega)
  obtain ⟨hread, -⟩ := hfound.readAt h hle
  rw [readLoop, hseek]
  dsimp only
  rw [if_neg hne, hfound.place.get]
  dsimp only
  have hoffset : u64 (offset + readSize) = offset + readSize := Nat.mod_eq_of_lt hlt
  rw [hread, setFile_self hfound.place.get, hoffset]

/-- What the loop leaves: the reader as it was, or an error of a file that is cleared; and the bytes of the disc where it
succeeds. -/
structure LoopResult (reader : WbfsFileReader) (offset nbytes : Nat) (written : List UInt8) (success : Bool)
    (bytes : List UInt8) (reader' : WbfsFileReader) : Prop where
  state : reader' = reader ∨ success = false ∧ ∃ i entry, reader.files[i]? = some entry ∧ entry.file.good = false ∧
    reader' = reader.setFile i entry.file.clearError ∧ ∃ table ∈ reader.wlbaTable, reader.Touches table
  bytes : success = true → reader.NoWrap → ∃ data, bytes = written ++ data ∧ data.length = nbytes ∧
    reader.BytesFrom offset data

theorem Valid.readLoop (h : reader.Valid) {fuel nbytes : Nat} (hfuel : nbytes ≤ fuel) (written : List UInt8) :
    ∃ success bytes reader', readLoop fuel reader offset nbytes written = .returned success bytes reader' ∧
      LoopResult reader offset nbytes written success bytes reader' := by
  induction fuel generalizing offset nbytes written with
  | zero =>
      obtain rfl : nbytes = 0 := Nat.le_zero.mp hfuel
      refine ⟨true, written, reader, by rw [WbfsFileReader.readLoop], .inl rfl, fun _ _ => ⟨[], ?_, rfl, ?_⟩⟩
      · rw [List.append_nil]
      · exact fun i hi => absurd hi (Nat.not_lt_zero i)
  | succ fuel ih =>
      cases nbytes with
      | zero =>
          refine ⟨true, written, reader, by rw [WbfsFileReader.readLoop], .inl rfl, fun _ _ => ⟨[], ?_, rfl, ?_⟩⟩
          · rw [List.append_nil]
          · exact fun i hi => absurd hi (Nat.not_lt_zero i)
      | succ nbytes =>
          rcases h.seek_cases offset with hnone | ⟨table, i, position, available, entry, htable, htouch, hseek, hfound⟩
          · refine ⟨false, written, reader, ?_, .inl rfl, fun hfalse => absurd hfalse (by decide)⟩
            rw [WbfsFileReader.readLoop, hnone]
          · obtain ⟨hpos, -, hsector⟩ := hfound.within h
            have hle : min available (nbytes + 1) ≤ available := Nat.min_le_left _ _
            obtain ⟨hread, hlength⟩ := hfound.readAt h hle
            have hloop := h.readLoop_found htable hseek hfound fuel nbytes written
            dsimp only at hloop
            cases hgood : entry.file.good with
            | false =>
                rw [hgood, if_neg (by decide)] at hloop
                exact ⟨false, _, _, hloop, .inr ⟨rfl, i, entry, hfound.place.get, hgood, rfl, table,
                  List.mem_of_getElem? htable, htouch⟩,
                  fun hfalse => absurd hfalse (by decide)⟩
            | true =>
                rw [hgood, if_pos rfl] at hloop
                obtain ⟨success, bytes, reader', hrest, hstate, hbytes⟩ :=
                  @ih (offset + min available (nbytes + 1)) (nbytes + 1 - min available (nbytes + 1)) (by omega)
                    (written ++ ((contents reader.files).drop (u64 (reader.wbfsSectorSize * table) +
                      offset % reader.wbfsSectorSize)).take (min available (nbytes + 1)))
                refine ⟨success, bytes, reader', hloop.trans hrest, hstate, fun hsuccess hwrap => ?_⟩
                obtain ⟨data, hdata, hdataLength, hfrom⟩ := hbytes hsuccess hwrap
                have hfirst := bytesFrom_sector h htable (hwrap table (List.mem_of_getElem? htable) htouch)
                  (by omega : offset % reader.wbfsSectorSize + min available (nbytes + 1) ≤ reader.wbfsSectorSize)
                refine ⟨_ ++ data, by rw [hdata, List.append_assoc], ?_, hfirst.append ?_⟩
                · rw [List.length_append, hlength, hdataLength]
                  omega
                · rw [hlength]
                  exact hfrom

/-! ## Readers after any reads -/

def Returns (outcome : Outcome) (success : Bool) (bytes : List UInt8) : Prop :=
  ∃ reader, outcome = .returned success bytes reader

inductive Reads (reader : WbfsFileReader) : WbfsFileReader → Prop
  | refl : Reads reader reader
  | read {reader' reader'' : WbfsFileReader} {offset nbytes : UInt64} {success : Bool} {bytes : List UInt8} :
      Reads reader reader' → reader'.read offset nbytes = .returned success bytes reader'' → Reads reader reader''

def SameReads (reader reader' : WbfsFileReader) : Prop :=
  ∀ offset nbytes, ∃ success bytes, Returns (reader.read offset nbytes) success bytes ∧
    Returns (reader'.read offset nbytes) success bytes

theorem Laid.setFile {entry : FileEntry} (h : Laid base files) (i : Nat) (hget : files[i]? = some entry) :
    Laid base (files.modify i fun entry' => { entry' with file := entry.file.clearError }) ∧
      (files.modify i fun entry' => { entry' with file := entry.file.clearError }).map (·.file.content) =
        files.map (·.file.content) := by
  induction files generalizing base i with
  | nil => cases hget
  | cons first files ih =>
      obtain ⟨hbase, hsize, hrest⟩ := h
      cases i with
      | zero =>
          cases hget
          rw [List.modify_zero_cons]
          exact ⟨⟨hbase, hsize, hrest⟩, rfl⟩
      | succ i =>
          obtain ⟨hlaid, hcontents⟩ := ih hrest i hget
          rw [List.modify_succ_cons]
          exact ⟨⟨hbase, hsize, hlaid⟩, congrArg (first.file.content :: ·) hcontents⟩

theorem contents_congr {files' : List FileEntry} (h : files'.map (·.file.content) = files.map (·.file.content)) :
    contents files' = contents files := by
  rw [contents, contents, List.flatMap_def, List.flatMap_def, h]

theorem Valid.setFile (h : reader.Valid) {i : Nat} {entry : FileEntry} (hget : reader.files[i]? = some entry) :
    (reader.setFile i entry.file.clearError).Valid where
  laid := (h.laid.setFile i hget).1
  size := h.size.trans (congrArg List.length (contents_congr (h.laid.setFile i hget).2).symm)
  shift := h.shift
  sector := h.sector
  blocks := h.blocks
  table := h.table
  size_lt := h.size_lt

theorem Valid.read (h : reader.Valid) (offset nbytes : UInt64) : ∃ success bytes reader',
    reader.read offset nbytes = .returned success bytes reader' ∧
      LoopResult reader offset.toNat nbytes.toNat [] success bytes reader' := by
  rw [WbfsFileReader.read]
  split
  · exact ⟨false, [], reader, rfl, .inl rfl, fun hfalse => absurd hfalse (by decide)⟩
  · exact h.readLoop le_rfl []

structure SameImage (reader reader' : WbfsFileReader) : Prop where
  content : reader'.files.map (·.file.content) = reader.files.map (·.file.content)
  size : reader'.size = reader.size
  sector : reader'.wbfsSectorSize = reader.wbfsSectorSize
  table : reader'.wlbaTable = reader.wlbaTable

theorem Reads.valid {reader' : WbfsFileReader} (hreads : Reads reader reader') (h : reader.Valid) :
    reader'.Valid ∧ SameImage reader reader' := by
  induction hreads with
  | refl => exact ⟨h, rfl, rfl, rfl, rfl⟩
  | @read reader' reader'' offset nbytes success bytes hreads hread ih =>
      obtain ⟨hvalid, hsame⟩ := ih
      obtain ⟨success', bytes', after, hread', hresult⟩ := hvalid.read offset nbytes
      rw [hread] at hread'
      cases hread'
      rcases hresult.state with rfl | ⟨-, i, entry, hget, -, rfl, -⟩
      · exact ⟨hvalid, hsame⟩
      · exact ⟨hvalid.setFile hget, (hvalid.laid.setFile i hget).2.trans hsame.content, hsame.size, hsame.sector,
          hsame.table⟩

theorem SameImage.noWrap {reader' : WbfsFileReader} (h : SameImage reader reader') (hwrap : reader.NoWrap) :
    reader'.NoWrap := by
  intro entry hentry htouch
  rw [h.table] at hentry
  rw [Touches, h.sector, h.size] at htouch
  rw [h.sector]
  exact hwrap entry hentry htouch

theorem Valid.read_first (h : reader.Valid) {b table : Nat} (htable : reader.wlbaTable[b]? = some table)
    (htouch : reader.Touches table) :
    ∃ (i : Nat) (entry : FileEntry) (byte : UInt8), reader.files[i]? = some entry ∧ 0 < entry.size ∧
      reader.read (UInt64.ofNat (b * reader.wbfsSectorSize)) 1 =
        if entry.file.good then .returned true [byte] reader
        else .returned false [byte] (reader.setFile i entry.file.clearError) := by
  have hpos := h.sector_pos
  have hb : b < reader.blocksPerDisc := h.table ▸ (List.getElem?_eq_some_iff.mp htable).1
  have hdiv : b * reader.wbfsSectorSize / reader.wbfsSectorSize = b := Nat.mul_div_cancel b hpos
  have hmod : b * reader.wbfsSectorSize % reader.wbfsSectorSize = 0 := Nat.mul_mod_left ..
  -- the sector begins before the end of the disc
  have hin : b * reader.wbfsSectorSize + 1 ≤ dataSize := by
    have hlast : (b + 1) * reader.wbfsSectorSize ≤ dataSize + reader.wbfsSectorSize - 1 :=
      (Nat.mul_le_mul_right _ hb).trans (h.blocks ▸ Nat.div_mul_le_self _ _)
    rw [Nat.add_mul, Nat.one_mul] at hlast
    omega
  have hsize : dataSize < 2 ^ 63 := by decide
  have hoffset : (UInt64.ofNat (b * reader.wbfsSectorSize)).toNat = b * reader.wbfsSectorSize :=
    UInt64.toNat_ofNat_of_lt' (by simp only [UInt64.size]; omega)
  have hsum : ¬(UInt64.ofNat (b * reader.wbfsSectorSize) + 1).toNat > dataSize := by
    rw [UInt64.toNat_add, hoffset, UInt64.toNat_one, Nat.mod_eq_of_lt (by omega)]
    omega
  have hread : reader.read (UInt64.ofNat (b * reader.wbfsSectorSize)) 1 =
      WbfsFileReader.readLoop 1 reader (b * reader.wbfsSectorSize) 1 [] := by
    rw [WbfsFileReader.read, if_neg hsum, hoffset]
    rfl
  have htable' : reader.wlbaTable[b * reader.wbfsSectorSize / reader.wbfsSectorSize]? = some table := by rwa [hdiv]
  obtain ⟨i, position, available, entry, hseek, hfound⟩ :=
    (h.seek_eq htable').2 (by rw [hmod, Nat.add_zero]; exact htouch)
  have hloop := h.readLoop_found htable' hseek hfound 0 0 []
  obtain ⟨havailable, -, -⟩ := hfound.within h
  obtain ⟨-, hlength⟩ := hfound.readAt h havailable
  have hone : min available (0 + 1) = 1 := by omega
  obtain ⟨byte, hbyte⟩ := List.length_eq_one_iff.mp hlength
  dsimp only at hloop
  rw [hone, hbyte] at hloop
  have hlower := hfound.place.lower
  have hupper := hfound.place.upper
  refine ⟨i, entry, byte, hfound.place.get, by omega, ?_⟩
  rw [hread, hloop]
  rfl

/-! ## Creation -/

def layout : Nat → List (List UInt8) → List FileEntry
  | _, [] => []
  | base, content :: rest => ⟨⟨content, true⟩, base, content.length⟩ :: layout (base + content.length) rest

theorem foldl_addFileToList (reader : WbfsFileReader) (rest : List (List UInt8)) :
    rest.foldl addFileToList reader =
      { reader with
        files := reader.files ++ layout reader.size rest
        size := reader.size + (rest.map List.length).sum } := by
  induction rest generalizing reader with
  | nil => simp [layout]
  | cons content rest ih =>
      rw [List.foldl_cons, ih]
      simp [addFileToList, layout, Nat.add_assoc]

theorem openAdditionalFiles_eq (open' : List UInt8 → Option (List UInt8)) (path : List UInt8) (n : Nat)
    (reader : WbfsFileReader) : ∃ rest : List (List UInt8),
      openAdditionalFiles open' path n reader = rest.foldl addFileToList reader := by
  induction n generalizing reader with
  | zero => exact ⟨[], rfl⟩
  | succ n ih =>
      rw [openAdditionalFiles]
      split
      · exact ⟨[], rfl⟩
      · split
        · exact ⟨[], rfl⟩
        next content _ =>
          obtain ⟨rest, hrest⟩ := ih (reader.addFileToList content)
          exact ⟨content :: rest, hrest⟩

def opened (memory : Memory) (content : List UInt8) (rest : List (List UInt8)) : WbfsFileReader :=
  rest.foldl addFileToList ((uninitialized memory).addFileToList content)

/-- The checks of `ReadHeader` on an image of a size, up to the last one. -/
structure HeaderOk (header : WbfsHeader) (size : Nat) : Prop where
  magic : header.magic = wbfsMagic
  hdShift : header.hdSectorShift < 64
  size : size = u64 (header.hdSectorCount * 2 ^ header.hdSectorShift)
  wbfsShift : header.wbfsSectorShift < 64
  sector : wiiSectorSize ≤ 2 ^ header.wbfsSectorShift

def blocksOf (header : WbfsHeader) : Nat := (dataSize + 2 ^ header.wbfsSectorShift - 1) / 2 ^ header.wbfsSectorShift

def tableStart (header : WbfsHeader) : Nat := 2 ^ header.hdSectorShift + wiiDiscHeaderSize

def Whole (header : WbfsHeader) (content : List UInt8) : Prop :=
  wbfsHeaderSize ≤ content.length ∧ tableStart header + blocksOf header * 2 ≤ content.length

instance (header : WbfsHeader) (content : List UInt8) : Decidable (Whole header content) :=
  inferInstanceAs (Decidable (_ ∧ _))

def finished (header : WbfsHeader) (content : List UInt8) (rest : List (List UInt8)) : WbfsFileReader where
  files := ⟨⟨content, decide (Whole header content)⟩, 0, content.length⟩ :: layout content.length rest
  size := content.length + (rest.map List.length).sum
  header := header
  hdSectorSize := 2 ^ header.hdSectorShift
  wbfsSectorSize := 2 ^ header.wbfsSectorShift
  wlbaTable := (List.range (blocksOf header)).map fun i =>
    ofBeBytes [content.getD (tableStart header + 2 * i) 0, content.getD (tableStart header + 2 * i + 1) 0]
  blocksPerDisc := blocksOf header
  good := true

variable {memory : Memory} {content : List UInt8} {rest : List (List UInt8)}

theorem opened_eq : opened memory content rest =
    { uninitialized memory with
      files := ⟨⟨content, true⟩, 0, content.length⟩ :: layout content.length rest
      size := content.length + (rest.map List.length).sum } := by
  rw [opened, foldl_addFileToList]
  simp [addFileToList, uninitialized]

theorem blocksOf_pos (header : WbfsHeader) : 0 < blocksOf header := by
  have hpos : 0 < 2 ^ header.wbfsSectorShift := Nat.two_pow_pos _
  have hsize : 0 < dataSize := by decide
  exact Nat.div_pos (by omega) hpos

theorem good_iff_whole (header : WbfsHeader) (content : List UInt8) :
    (true && decide (((content.drop 0).take wbfsHeaderSize).length = wbfsHeaderSize) &&
      decide (((content.drop (tableStart header)).take (blocksOf header * 2)).length = blocksOf header * 2)) =
      decide (Whole header content) := by
  have hpos := blocksOf_pos header
  rw [Bool.true_and, ← Bool.decide_and, decide_eq_decide, List.length_take, List.length_take, List.length_drop,
    List.length_drop, Whole]
  omega

theorem readHeader_ok (h : HeaderOk (.ofBytes memory content) (content.length + (rest.map List.length).sum)) :
    ∃ reader, readHeader memory (opened memory content rest) =
        some (decide ((WbfsHeader.ofBytes memory content).discTable0 ≠ 0), reader) ∧
      { reader with good := true }.readTable = finished (.ofBytes memory content) content rest ∧
      reader.header = .ofBytes memory content ∧ reader.blocksPerDisc = blocksOf (.ofBytes memory content) ∧
      reader.wlbaTable = [] ∧ reader.good = false := by
  have hfirst : (opened memory content rest).firstContent = content := by
    rw [opened_eq]
    rfl
  rw [readHeader, hfirst]
  dsimp only
  rw [if_neg (not_not.mpr h.magic), if_neg (Nat.not_le.mpr h.hdShift), opened_eq]
  dsimp only
  rw [if_neg (not_not.mpr h.size), if_neg (Nat.not_le.mpr h.wbfsShift), if_neg (Nat.not_lt.mpr h.sector)]
  refine ⟨_, rfl, ?_, rfl, rfl, rfl, rfl⟩
  rw [finished, ← good_iff_whole]
  rfl

theorem headerOk_of_readHeader {reader reader' : WbfsFileReader}
    (h : readHeader memory reader = some (true, reader')) : HeaderOk (.ofBytes memory reader.firstContent) reader.size ∧
      (WbfsHeader.ofBytes memory reader.firstContent).discTable0 ≠ 0 := by
  rw [readHeader] at h
  dsimp only at h
  split at h
  · cases h
  next hmagic =>
    split at h
    · cases h
    next hhd =>
      split at h
      · cases h
      next hsize =>
        split at h
        · cases h
        next hwbfs =>
          split at h
          · cases h
          next hsector =>
            rw [Option.some.injEq, Prod.mk.injEq] at h
            exact ⟨⟨not_not.mp hmagic, Nat.not_le.mp hhd, not_not.mp hsize, Nat.not_le.mp hwbfs, Nat.not_lt.mp hsector⟩,
              of_decide_eq_true h.1⟩

theorem construct_eq (memory : Memory) (open' : List UInt8 → Option (List UInt8)) (content path : List UInt8) :
    ∃ rest, (path.length < 4 → rest = []) ∧ construct memory open' content path =
      (readHeader memory (opened memory content rest)).map fun (good, reader) =>
        if good then { reader with good := true }.readTable else reader := by
  rw [construct]
  by_cases hpath : path.length < 4
  · exact ⟨[], fun _ => rfl, by rw [if_pos hpath]; rfl⟩
  · obtain ⟨rest, hrest⟩ := openAdditionalFiles_eq open' path 10 ((uninitialized memory).addFileToList content)
    refine ⟨rest, fun h => absurd h hpath, ?_⟩
    rw [if_neg hpath, hrest]
    rfl

theorem readHeader_keeps {reader reader' : WbfsFileReader} {success : Bool}
    (h : readHeader memory reader = some (success, reader')) :
    reader'.good = reader.good ∧ reader'.wlbaTable = reader.wlbaTable ∧
      reader'.header = .ofBytes memory reader.firstContent := by
  rw [readHeader] at h
  dsimp only at h
  -- every way out has the same table
  split at h
  · cases h
    exact ⟨rfl, rfl, rfl⟩
  · split at h
    · cases h
    · split at h
      · cases h
        exact ⟨rfl, rfl, rfl⟩
      · split at h
        · cases h
        · split at h
          · cases h
            exact ⟨rfl, rfl, rfl⟩
          · cases h
            exact ⟨rfl, rfl, rfl⟩

theorem firstContent_opened : (opened memory content rest).firstContent = content := by
  rw [opened_eq]
  rfl

theorem size_opened : (opened memory content rest).size = content.length + (rest.map List.length).sum := by
  rw [opened_eq]

theorem create_some {open' : List UInt8 → Option (List UInt8)} {path : List UInt8} {reader : WbfsFileReader}
    (h : create memory open' content path = some reader) :
    ∃ rest, HeaderOk (.ofBytes memory content) (content.length + (rest.map List.length).sum) ∧
      (WbfsHeader.ofBytes memory content).discTable0 ≠ 0 ∧ reader = finished (.ofBytes memory content) content rest := by
  obtain ⟨rest, -, hconstruct⟩ := construct_eq memory open' content path
  rw [create, hconstruct, Option.filter_eq_some_iff, Option.map_eq_some_iff] at h
  obtain ⟨⟨⟨success, reader'⟩, hheader, heq⟩, hgood⟩ := h
  cases success with
  | false =>
      obtain ⟨hkept, -⟩ := readHeader_keeps hheader
      cases heq
      rw [opened_eq] at hkept
      have hfalse : reader'.good = false := hkept
      exact Bool.noConfusion (hgood.symm.trans hfalse)
  | true =>
      obtain ⟨hok, hdisc⟩ := headerOk_of_readHeader hheader
      rw [firstContent_opened] at hok hdisc
      rw [size_opened] at hok
      obtain ⟨reader'', hheader', hfinished, -⟩ := readHeader_ok hok
      rw [hheader, Option.some.injEq, Prod.mk.injEq] at hheader'
      rw [← hheader'.2] at hfinished
      exact ⟨rest, hok, hdisc, heq.symm.trans hfinished⟩

theorem laid_layout (base : Nat) (rest : List (List UInt8)) : Laid base (layout base rest) ∧
    (layout base rest).map (·.file.content) = rest := by
  induction rest generalizing base with
  | nil => exact ⟨trivial, rfl⟩
  | cons content rest ih =>
      obtain ⟨hlaid, hcontents⟩ := ih (base + content.length)
      exact ⟨⟨rfl, rfl, hlaid⟩, congrArg (content :: ·) hcontents⟩

theorem contents_finished (header : WbfsHeader) (content : List UInt8) (rest : List (List UInt8)) :
    contents (finished header content rest).files = content ++ rest.flatten := by
  have hrest := (laid_layout content.length rest).2
  rw [finished, contents, List.flatMap_cons, List.flatMap_def, hrest]

theorem valid_finished {header : WbfsHeader} (h : HeaderOk header (content.length + (rest.map List.length).sum)) :
    (finished header content rest).Valid where
  laid := ⟨rfl, rfl, by rw [Nat.zero_add]; exact (laid_layout _ _).1⟩
  size := by
    rw [contents_finished, List.length_append, List.length_flatten]
    rfl
  shift := h.wbfsShift
  sector := rfl
  blocks := rfl
  table := by simp [finished]
  size_lt := by
    change content.length + (rest.map List.length).sum < 2 ^ 64
    rw [h.size]
    exact Nat.mod_lt _ (by decide)

/-! ## Copies -/

theorem construct_alone (memory : Memory) (content : List UInt8) :
    construct memory (fun _ => none) content [] = (readHeader memory (opened memory content [])).map fun (good, reader) =>
      if good then { reader with good := true }.readTable else reader := by
  obtain ⟨rest, hrest, heq⟩ := construct_eq memory (fun _ => none) content []
  rw [hrest (by decide)] at heq
  exact heq

theorem read_undefined {copy : WbfsFileReader} (htable : copy.wlbaTable = []) (hblocks : 0 < copy.blocksPerDisc) :
    copy.read 0 1 = .undefined := by
  have hseek : copy.seekToCluster 0 = none := by
    rw [seekToCluster, Nat.zero_shiftRight, if_pos hblocks, htable]
    rfl
  rw [WbfsFileReader.read, if_neg (by decide)]
  change readLoop 1 copy 0 1 [] = .undefined
  rw [WbfsFileReader.readLoop, hseek]

theorem copyReader_eq (memory : Memory) (reader : WbfsFileReader) : reader.copyReader memory =
    (construct memory (fun _ => none) reader.firstContent []).map fun copy =>
      (reader.files.tail.map (·.file.content)).foldl addFileToList copy := by
  rw [copyReader]
  congr 1
  funext copy
  rw [List.foldl_map]

theorem copyReader_undefined {reader copy : WbfsFileReader}
    (hconstruct : construct memory (fun _ => none) reader.firstContent [] = some copy) (htable : copy.wlbaTable = [])
    (hblocks : 0 < copy.blocksPerDisc) :
    ∃ copy', reader.copyReader memory = some copy' ∧ copy'.read 0 1 = .undefined := by
  rw [copyReader_eq, hconstruct, Option.map_some, foldl_addFileToList]
  exact ⟨_, rfl, read_undefined htable hblocks⟩

theorem ofBytes_eq {memory' : Memory}
    (h : ∀ i < 12, content.getD i (memory'.header i) = content.getD i (memory.header i)) :
    WbfsHeader.ofBytes memory' content =
      { WbfsHeader.ofBytes memory content with discTable0 := content.getD 12 (memory'.header 12) } := by
  simp only [WbfsHeader.ofBytes, h 8 (by decide), h 9 (by decide)]
  congr 2
  · exact List.map_congr_left fun i hi => h i (by simp at hi; omega)
  · exact List.map_congr_left fun i hi => h i (by simp at hi; omega)

def withBlock (memory : Memory) : Memory := { memory with blocksPerDisc := 1 }

theorem construct_split (hok : HeaderOk (.ofBytes memory content) (content.length + (rest.map List.length).sum))
    (hsplit : (rest.map List.length).sum ≠ 0) :
    ∃ copy, construct (withBlock memory) (fun _ => none) content [] = some copy ∧ copy.wlbaTable = [] ∧
      0 < copy.blocksPerDisc := by
  have hheader : WbfsHeader.ofBytes (withBlock memory) content = .ofBytes memory content := rfl
  have hsize : (opened (withBlock memory) content []).size ≠ u64 ((WbfsHeader.ofBytes memory content).hdSectorCount *
      2 ^ (WbfsHeader.ofBytes memory content).hdSectorShift) := by
    rw [size_opened, List.map_nil, List.sum_nil, ← hok.size]
    omega
  rw [construct_alone, readHeader, firstContent_opened, hheader]
  dsimp only
  rw [if_neg (not_not.mpr hok.magic), if_neg (Nat.not_le.mpr hok.hdShift), if_pos hsize, opened_eq]
  exact ⟨_, rfl, rfl, Nat.one_pos⟩

def withoutDisc (memory : Memory) : Memory :=
  { memory with header := fun i => if i = 12 then 0 else memory.header i }

theorem construct_short (hok : HeaderOk (.ofBytes memory content) content.length) (hshort : content.length ≤ 12) :
    ∃ copy, construct (withoutDisc memory) (fun _ => none) content [] = some copy ∧ copy.wlbaTable = [] ∧
      0 < copy.blocksPerDisc := by
  have hdisc : (WbfsHeader.ofBytes (withoutDisc memory) content).discTable0 = 0 := by
    change content.getD 12 0 = 0
    rw [List.getD_eq_getElem?_getD, List.getElem?_eq_none hshort]
    rfl
  have hheader := @ofBytes_eq memory content (withoutDisc memory) fun i hi => by
    rw [withoutDisc]
    dsimp only
    rw [if_neg (Nat.ne_of_lt hi)]
  have hok' : HeaderOk (.ofBytes (withoutDisc memory) content)
      (content.length + (([] : List (List UInt8)).map List.length).sum) := by
    rw [hheader]
    exact ⟨hok.magic, hok.hdShift, hok.size, hok.wbfsShift, hok.sector⟩
  obtain ⟨reader, hheader, -, -, hblocks, htable, -⟩ := readHeader_ok hok'
  rw [hdisc] at hheader
  rw [construct_alone, hheader]
  exact ⟨reader, rfl, htable, hblocks ▸ blocksOf_pos _⟩

theorem construct_whole (memory' : Memory) (hok : HeaderOk (.ofBytes memory content) content.length)
    (hdisc : (WbfsHeader.ofBytes memory content).discTable0 ≠ 0) (hlong : 12 < content.length) :
    construct memory' (fun _ => none) content [] = some (finished (.ofBytes memory content) content []) := by
  have hheader : WbfsHeader.ofBytes memory' content = .ofBytes memory content := by
    have hget : ∀ i ≤ 12, content.getD i (memory'.header i) = content.getD i (memory.header i) := by
      intro i hi
      rw [List.getD_eq_getElem?_getD, List.getD_eq_getElem?_getD, List.getElem?_eq_getElem (by omega)]
      rfl
    rw [ofBytes_eq fun i hi => hget i hi.le, hget 12 le_rfl]
    rfl
  have hok' : HeaderOk (.ofBytes memory' content) (content.length + (([] : List (List UInt8)).map List.length).sum) := by
    rw [hheader]
    exact hok
  obtain ⟨reader, hread, hfinished, -⟩ := readHeader_ok hok'
  rw [hheader] at hread hfinished
  rw [construct_alone, hread, Option.map_some, decide_eq_true hdisc]
  exact congrArg some hfinished

theorem copyReader_finished {reader : WbfsFileReader} (memory' : Memory)
    (hok : HeaderOk (.ofBytes memory content) (content.length + (rest.map List.length).sum))
    (hdisc : (WbfsHeader.ofBytes memory content).discTable0 ≠ 0) (hlong : 12 < content.length)
    (hempty : (rest.map List.length).sum = 0) (hreads : Reads (finished (.ofBytes memory content) content rest) reader) :
    reader.copyReader memory' = some (finished (.ofBytes memory content) content rest) := by
  have hsame := (hreads.valid (valid_finished hok)).2.content
  have hcontents : reader.files.map (·.file.content) = content :: rest :=
    hsame.trans (congrArg (content :: ·) (laid_layout content.length rest).2)
  have hfirst : reader.firstContent = content := by
    rw [firstContent, ← List.head?_map, hcontents]
    rfl
  have htail : reader.files.tail.map (·.file.content) = rest := by
    rw [List.map_tail, hcontents]
    rfl
  rw [hempty, Nat.add_zero] at hok
  rw [copyReader_eq, hfirst, htail, construct_whole memory' hok hdisc hlong, Option.map_some, foldl_addFileToList]
  simp [finished, layout]

/-! ## When copies agree -/

/-- Copies read what the reader reads, and both read what the table says, whatever has been read before. -/
structure Faithful (reader : WbfsFileReader) : Prop where
  copies : ∀ memory original, Reads reader original → ∃ copy, original.copyReader memory = some copy ∧
    ∀ original' copy', Reads original original' → Reads copy copy' → SameReads original' copy'
  ends : ∀ original, Reads reader original → ∀ offset nbytes, ∃ success bytes,
    Returns (original.read offset nbytes) success bytes
  bytes : ∀ original, Reads reader original → ∀ offset nbytes bytes, Returns (original.read offset nbytes) true bytes →
    bytes.length = nbytes.toNat ∧ original.BytesFrom offset.toNat bytes

/-- Every file but the first is empty. The first one has the header and the table to their ends, or at least the entry of the
first slot, and then no sector is found in it. No sector that is found has an address of more than 64 bits. -/
structure Unsplit (reader : WbfsFileReader) : Prop where
  rest : ∀ entry ∈ reader.files.tail, entry.size = 0
  first : Whole reader.header reader.firstContent ∨
    12 < reader.firstContent.length ∧ ∀ table ∈ reader.wlbaTable, ¬reader.Touches table
  noWrap : reader.NoWrap

theorem good_layout {base : Nat} {entry : FileEntry} (h : entry ∈ layout base rest) : entry.file.good = true := by
  induction rest generalizing base with
  | nil => cases h
  | cons content rest ih =>
      rcases List.mem_cons.mp h with rfl | h
      · rfl
      · exact ih h

theorem sizes_layout {base : Nat} : (∀ entry ∈ layout base rest, entry.size = 0) ↔ (rest.map List.length).sum = 0 := by
  induction rest generalizing base with
  | nil => simp [layout]
  | cons content rest ih =>
      rw [layout, List.forall_mem_cons, ih, List.map_cons, List.sum_cons]
      exact Nat.add_eq_zero_iff.symm

theorem good_cleared {header : WbfsHeader} {i : Nat} {entry : FileEntry}
    (hget : (finished header content rest).files[i]? = some entry) (hbad : entry.file.good = false) :
    ∀ entry' ∈ ((finished header content rest).setFile i entry.file.clearError).files, entry'.file.good = true := by
  cases i with
  | zero =>
      intro entry' hmem
      rw [setFile, finished, List.modify_zero_cons] at hmem
      rcases List.mem_cons.mp hmem with rfl | hmem
      · rfl
      · exact good_layout hmem
  | succ i =>
      have hgood := good_layout (List.mem_of_getElem? hget)
      exact Bool.noConfusion (hgood.symm.trans hbad)

theorem exists_read {header : WbfsHeader} (h : (finished header content rest).Valid) {b table : Nat}
    (htable : (finished header content rest).wlbaTable[b]? = some table)
    (htouch : (finished header content rest).Touches table) :
    ∃ original byte, Reads (finished header content rest) original ∧
      Returns (original.read (UInt64.ofNat (b * (finished header content rest).wbfsSectorSize)) 1) true [byte] := by
  obtain ⟨i, entry, byte, hget, -, hread⟩ := h.read_first htable htouch
  cases hgood : entry.file.good with
  | true =>
      rw [hgood, if_pos rfl] at hread
      exact ⟨_, byte, .refl, _, hread⟩
  | false =>
      rw [hgood, if_neg (by decide)] at hread
      obtain ⟨j, entry', byte', hget', -, hread'⟩ := (h.setFile hget).read_first htable htouch
      have hgood' := good_cleared hget hgood entry' (List.mem_of_getElem? hget')
      rw [hgood', if_pos rfl] at hread'
      exact ⟨_, byte', Reads.refl.read hread, _, hread'⟩

section Finished

variable {header : WbfsHeader}

theorem Unsplit.reads_eq (h : (finished header content rest).Unsplit) (hvalid : (finished header content rest).Valid)
    {reader : WbfsFileReader} (hreads : Reads (finished header content rest) reader) :
    reader = finished header content rest := by
  induction hreads with
  | refl => rfl
  | @read reader' reader'' offset nbytes success bytes hreads hread ih =>
      subst ih
      obtain ⟨success', bytes', after, hread', hresult⟩ := hvalid.read offset nbytes
      rw [hread] at hread'
      cases hread'
      rcases hresult.state with rfl | ⟨-, i, entry, hget, hbad, -, table, htable, htouch⟩
      · rfl
      · rcases h.first with hwhole | ⟨-, hnone⟩
        · cases i with
          | zero =>
              cases hget
              exact Bool.noConfusion (hbad.symm.trans (decide_eq_true hwhole))
          | succ i => exact Bool.noConfusion (hbad.symm.trans (good_layout (List.mem_of_getElem? hget)))
        · exact absurd htouch (hnone table htable)

theorem Unsplit.long (h : (finished header content rest).Unsplit) : 12 < content.length := by
  rcases h.first with hwhole | ⟨hlong, -⟩
  · exact Nat.lt_of_lt_of_le (by decide) hwhole.1
  · exact hlong

end Finished

theorem read_bytes {original : WbfsFileReader} (hreads : Reads reader original) (hvalid : reader.Valid)
    (hwrap : reader.NoWrap) {offset nbytes : UInt64} {bytes : List UInt8}
    (h : Returns (original.read offset nbytes) true bytes) :
    bytes.length = nbytes.toNat ∧ original.BytesFrom offset.toNat bytes := by
  obtain ⟨hvalid', hsame⟩ := hreads.valid hvalid
  obtain ⟨after, hread⟩ := h
  obtain ⟨success, bytes', after', hread', hresult⟩ := hvalid'.read offset nbytes
  rw [hread] at hread'
  cases hread'
  obtain ⟨data, rfl, hlength, hfrom⟩ := hresult.bytes rfl (hsame.noWrap hwrap)
  exact ⟨hlength, hfrom⟩

theorem not_sameReads {copy : WbfsFileReader} (h : copy.read 0 1 = .undefined) : ¬SameReads reader copy := by
  intro hsame
  obtain ⟨success, bytes, -, after, hread⟩ := hsame 0 1
  rw [h] at hread
  cases hread

theorem Faithful.noWrap {header : WbfsHeader} (h : (finished header content rest).Faithful)
    (hvalid : (finished header content rest).Valid) : (finished header content rest).NoWrap := by
  intro table htable htouch
  by_contra hwrap
  obtain ⟨b, hb⟩ := List.mem_iff_getElem?.mp htable
  obtain ⟨original, byte, hreads, hread⟩ := exists_read hvalid hb htouch
  obtain ⟨hvalid', hsame⟩ := hreads.valid hvalid
  have hbyte := (h.bytes original hreads _ _ _ hread).2 0 (Nat.one_pos)
  have hpos := hvalid.sector_pos
  have hlt : b * (finished header content rest).wbfsSectorSize < 2 ^ 64 := by
    have hblocks : b < (finished header content rest).blocksPerDisc :=
      hvalid.table ▸ (List.getElem?_eq_some_iff.mp hb).1
    have hoffset := @Valid.offset_lt _ (b * (finished header content rest).wbfsSectorSize) hvalid 0
      (by rwa [Nat.mul_div_cancel b hpos]) (Nat.mod_lt _ hpos).le
    exact hoffset
  have hposition : original.positionOf ((UInt64.ofNat (b * (finished header content rest).wbfsSectorSize)).toNat + 0) =
      table * (finished header content rest).wbfsSectorSize := by
    rw [Nat.add_zero, UInt64.toNat_ofNat_of_lt' hlt, positionOf, hsame.sector, hsame.table, Nat.mul_div_cancel b hpos,
      Nat.mul_mod_left, List.getD_eq_getElem?_getD, hb]
    rfl
  have hnone : (contents original.files)[table * (finished header content rest).wbfsSectorSize]? = none := by
    rw [List.getElem?_eq_none_iff, ← hvalid'.size, Nat.mul_comm]
    exact hvalid'.size_lt.le.trans (Nat.not_lt.mp hwrap)
  rw [hposition, hnone] at hbyte
  cases hbyte

theorem Faithful.unsplit (h : (finished (.ofBytes memory content) content rest).Faithful)
    (hok : HeaderOk (.ofBytes memory content) (content.length + (rest.map List.length).sum))
    (hdisc : (WbfsHeader.ofBytes memory content).discTable0 ≠ 0) :
    (finished (.ofBytes memory content) content rest).Unsplit := by
  have hvalid := valid_finished hok
  have hempty : (rest.map List.length).sum = 0 := by
    by_contra hsplit
    obtain ⟨copy, hconstruct, htable, hblocks⟩ := construct_split hok hsplit
    obtain ⟨copy', hcopy, hundefined⟩ := @copyReader_undefined (withBlock memory)
      (finished (.ofBytes memory content) content rest) copy hconstruct htable hblocks
    obtain ⟨copy'', hcopy', hsame⟩ := h.copies (withBlock memory) _ .refl
    obtain rfl := Option.some.inj (hcopy.symm.trans hcopy')
    exact not_sameReads hundefined (hsame _ _ .refl .refl)
  have hlong : 12 < content.length := by
    by_contra hshort
    rw [hempty, Nat.add_zero] at hok
    obtain ⟨copy, hconstruct, htable, hblocks⟩ := construct_short hok (Nat.not_lt.mp hshort)
    obtain ⟨copy', hcopy, hundefined⟩ := @copyReader_undefined (withoutDisc memory)
      (finished (.ofBytes memory content) content rest) copy hconstruct htable hblocks
    obtain ⟨copy'', hcopy', hsame⟩ := h.copies (withoutDisc memory) _ .refl
    obtain rfl := Option.some.inj (hcopy.symm.trans hcopy')
    exact not_sameReads hundefined (hsame _ _ .refl .refl)
  refine ⟨sizes_layout.mpr hempty, ?_, h.noWrap hvalid⟩
  by_cases hwhole : Whole (.ofBytes memory content) content
  · exact .inl hwhole
  · refine .inr ⟨hlong, fun table htable htouch => ?_⟩
    obtain ⟨b, hb⟩ := List.mem_iff_getElem?.mp htable
    obtain ⟨i, entry, byte, hget, hpos, hread⟩ := hvalid.read_first hb htouch
    -- the sector is found in the first file, which has an error until it has been read from
    have hbad : entry.file.good = false := by
      cases i with
      | zero =>
          cases hget
          exact decide_eq_false hwhole
      | succ i =>
          have hzero := sizes_layout.mpr hempty entry (List.mem_of_getElem? hget)
          omega
    rw [hbad, if_neg (by decide)] at hread
    have hreads := Reads.refl.read hread
    obtain ⟨j, entry', byte', hget', -, hread'⟩ := (hvalid.setFile hget).read_first hb htouch
    rw [good_cleared hget hbad entry' (List.mem_of_getElem? hget'), if_pos rfl] at hread'
    have hcopy := copyReader_finished memory hok hdisc hlong hempty hreads
    obtain ⟨copy, hcopy', hsame⟩ := h.copies memory _ hreads
    obtain rfl := Option.some.inj (hcopy.symm.trans hcopy')
    obtain ⟨success, bytes, ⟨after, hfirst⟩, after', hsecond⟩ := hsame _ _ .refl .refl
      (UInt64.ofNat (b * (finished (.ofBytes memory content) content rest).wbfsSectorSize)) 1
    rw [hread] at hsecond
    cases hsecond
    have hcleared : (((finished (.ofBytes memory content) content rest).setFile i entry.file.clearError).read
        (UInt64.ofNat (b * (finished (.ofBytes memory content) content rest).wbfsSectorSize)) 1) =
          .returned true [byte'] _ := hread'
    rw [hcleared] at hfirst
    cases hfirst

def imageFile (sectors : UInt8) (rest : List UInt8) : List UInt8 :=
  [0x57, 0x42, 0x46, 0x53, 0, 0, 0, sectors, 9, 34, 0, 0, 1] ++ rest

def imagePath : List UInt8 := [0x61, 0x2e, 0x77, 0x62, 0x66, 0x73]

def openPart (part : Option (List UInt8)) (path : List UInt8) : Option (List UInt8) :=
  if path = imagePath.dropLast ++ [0x31] then part else none

def zeroMemory : Memory := ⟨fun _ => 0, 0, 0, 0⟩

theorem imageFile_headerOk {sectors : UInt8} {rest : List UInt8} {size : Nat} (h : size = u64 (sectors.toNat * 512)) :
    HeaderOk (.ofBytes zeroMemory (imageFile sectors rest)) size where
  magic := by
    change ofLeBytes [0x57, 0x42, 0x46, 0x53] = wbfsMagic
    decide
  hdShift := by
    change 9 < 64
    decide
  size := by
    change size = u64 (ofBeBytes [0, 0, 0, sectors] * 2 ^ 9)
    simp [h, ofBeBytes, ofLeBytes]
  wbfsShift := by
    change 34 < 64
    decide
  sector := by
    change wiiSectorSize ≤ 2 ^ 34
    decide

theorem create_imageFile {sectors : UInt8} {rest : List UInt8} {part : Option (List UInt8)}
    (hok : HeaderOk (.ofBytes zeroMemory (imageFile sectors rest))
      ((imageFile sectors rest).length + (part.toList.map List.length).sum)) :
    create zeroMemory (openPart part) (imageFile sectors rest) imagePath =
      some (finished (.ofBytes zeroMemory (imageFile sectors rest)) (imageFile sectors rest) part.toList) := by
  have hdisc : (WbfsHeader.ofBytes zeroMemory (imageFile sectors rest)).discTable0 ≠ 0 := by
    change (1 : UInt8) ≠ 0
    decide
  have hconstruct : construct zeroMemory (openPart part) (imageFile sectors rest) imagePath =
      (readHeader zeroMemory (opened zeroMemory (imageFile sectors rest) part.toList)).map fun (good, reader) =>
        if good then { reader with good := true }.readTable else reader := by
    rw [construct, if_neg (by decide)]
    cases part with
    | none => rfl
    | some content => rfl
  obtain ⟨reader, hread, hfinished, -⟩ := readHeader_ok hok
  rw [create, hconstruct, hread, Option.map_some, decide_eq_true hdisc]
  exact congrArg (·.filter fun reader => reader.good) (congrArg some hfinished)

theorem ofBeBytes_pair_lt (a b : UInt8) : ofBeBytes [a, b] < 2 ^ 16 := by
  have ha := a.toNat_lt
  have hb := b.toNat_lt
  simp only [ofBeBytes, List.reverse_cons, List.reverse_nil, List.nil_append, List.singleton_append, ofLeBytes]
  omega

/-- Copies read the same and reads find the bytes that the table says, just when the image is not split, its header and table
are whole, and no address wraps around. -/
theorem faithful_iff_unsplit {open' : List UInt8 → Option (List UInt8)} {path : List UInt8}
    (hcreate : create memory open' content path = some reader) : reader.Faithful ↔ reader.Unsplit := by
  obtain ⟨rest, hok, hdisc, rfl⟩ := create_some hcreate
  have hvalid := valid_finished hok
  refine ⟨fun h => h.unsplit hok hdisc, fun h => ⟨fun memory' original horiginal => ?_, fun original hreads => ?_,
    fun original hreads offset nbytes bytes => read_bytes hreads hvalid h.noWrap⟩⟩
  · obtain rfl := h.reads_eq hvalid horiginal
    refine ⟨_, copyReader_finished memory' hok hdisc h.long (sizes_layout.mp h.rest) .refl, ?_⟩
    intro original' copy' horiginal' hcopy' offset nbytes
    obtain rfl := h.reads_eq hvalid horiginal'
    obtain rfl := h.reads_eq hvalid hcopy'
    obtain ⟨success, bytes, after, hread, -⟩ := hvalid.read offset nbytes
    exact ⟨success, bytes, ⟨after, hread⟩, after, hread⟩
  · intro offset nbytes
    obtain ⟨success, bytes, after, hread, -⟩ := (hreads.valid hvalid).1.read offset nbytes
    exact ⟨success, bytes, after, hread⟩

/-- An image of one file. -/
theorem faithful_iff_unsplit_oneFile :
    ∃ reader, create zeroMemory (openPart none) (imageFile 2 (List.replicate 1011 0)) imagePath = some reader ∧
      reader.Faithful := by
  have hlength : (imageFile 2 (List.replicate 1011 0)).length = 1024 := by
    rw [imageFile, List.length_append, List.length_replicate]
    decide
  have hok : HeaderOk (.ofBytes zeroMemory (imageFile 2 (List.replicate 1011 0)))
      ((imageFile 2 (List.replicate 1011 0)).length + ((none : Option (List UInt8)).toList.map List.length).sum) :=
    imageFile_headerOk (by rw [hlength]; decide)
  have hcreate := create_imageFile hok
  refine ⟨_, hcreate, (faithful_iff_unsplit hcreate).mpr ⟨fun entry hentry => ?_, .inl ⟨?_, ?_⟩, fun table htable _ => ?_⟩⟩
  · exact absurd hentry List.not_mem_nil
  · change wbfsHeaderSize ≤ (imageFile 2 (List.replicate 1011 0)).length
    rw [hlength]
    decide
  · change 2 ^ 9 + wiiDiscHeaderSize + (dataSize + 2 ^ 34 - 1) / 2 ^ 34 * 2 ≤
      (imageFile 2 (List.replicate 1011 0)).length
    rw [hlength]
    decide
  · obtain ⟨i, -, rfl⟩ := List.mem_map.mp htable
    exact Nat.lt_of_lt_of_le (Nat.mul_lt_mul_of_pos_left (ofBeBytes_pair_lt _ _) (by decide)) (by decide)

/-- The copy of an image of two files takes the first one for the whole image, and reads no table. -/
theorem splitImage_copyFails : ∃ reader, create zeroMemory (openPart (some (List.replicate 512 0)))
    (imageFile 3 (List.replicate 1011 0)) imagePath = some reader ∧ ¬reader.Faithful := by
  have hok : HeaderOk (.ofBytes zeroMemory (imageFile 3 (List.replicate 1011 0)))
      ((imageFile 3 (List.replicate 1011 0)).length +
        ((some (List.replicate 512 (0 : UInt8))).toList.map List.length).sum) := by
    apply imageFile_headerOk
    rw [imageFile, List.length_append, List.length_replicate, Option.toList_some, List.map_singleton,
      List.length_replicate]
    decide
  refine ⟨_, create_imageFile hok, fun h => ?_⟩
  have hdisc : (WbfsHeader.ofBytes zeroMemory (imageFile 3 (List.replicate 1011 0))).discTable0 ≠ 0 := by
    change (1 : UInt8) ≠ 0
    decide
  have hempty := sizes_layout.mp (h.unsplit hok hdisc).rest
  rw [Option.toList_some, List.map_singleton, List.length_replicate] at hempty
  exact absurd hempty (by decide)

end WbfsFileReader

end Karphin.DiscIO.Wbfs
