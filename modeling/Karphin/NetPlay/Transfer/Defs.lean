import Karphin.Lib.FinNumerals
import Karphin.Lib.Packet

/-!
# Transfer of files, folders and codes

The functions of `NetPlayCommon` and the two sides of `SyncCodes`. A packet that is written is the list of its bytes.
The compressor is a parameter. Files and folders that exist can be read and written.
-/

namespace Karphin.NetPlay.Transfer

open Lib

/-! ## Compressed data -/

/-- `lzo1x_1_compress`, which does not fail, and `lzo1x_decompress`. -/
structure Lzo where
  compress : List UInt8 → List UInt8
  decompress : List UInt8 → Option (List UInt8)

def lzoInLen : Nat := 1024 * 64
def lzoOutLen : Nat := lzoInLen + lzoInLen / 16 + 64 + 3

/-- What the library promises for a block: nothing is lost, the end of the stream is marked, and data that cannot be
compressed grows by no more than the buffer allows. -/
structure Lzo.Lawful (lzo : Lzo) : Prop where
  undo : ∀ block, lzo.decompress (lzo.compress block) = some block
  pos : ∀ block, 0 < (lzo.compress block).length
  bound : ∀ block, block.length ≤ lzoInLen → (lzo.compress block).length ≤ lzoOutLen

def compressBlocks (lzo : Lzo) (data : List UInt8) : List UInt8 :=
  let curLen := if lzoInLen ≥ data.length then data.length else lzoInLen
  if _hcur : curLen = 0 then []
  else
    let out := lzo.compress (data.take curLen)
    beBytes 4 out.length ++ out ++ if curLen ≠ lzoInLen then [] else compressBlocks lzo (data.drop curLen)
termination_by data.length
decreasing_by
  simp only [List.length_drop]
  have : data.length ≠ 0 := by
    intro h
    simp [curLen, h] at _hcur
  omega

/-- The size, the blocks and the end marker; only the size when there is nothing. -/
def compressIntoPacket (lzo : Lzo) (data : List UInt8) : List UInt8 :=
  beBytes 8 data.length ++ if data.length = 0 then [] else compressBlocks lzo data ++ beBytes 4 0

def compressFileIntoPacket (lzo : Lzo) (file : List UInt8) : List UInt8 := compressIntoPacket lzo file

def compressBufferIntoPacket (lzo : Lzo) (inBuffer : List UInt8) : List UInt8 := compressIntoPacket lzo inBuffer

/-- The loop over the blocks of a packet. `room` is the number of bytes that a block may give when so many were written
before, `buffer` the bytes of the block before. Nothing comes of a block that does not fit its buffer or that cannot be
decompressed. -/
def decompressBlocks (lzo : Lzo) (room : Nat → Nat) (buffer written : List UInt8) (packet : Packet) :
    Option (List UInt8 × Packet) :=
  let cur := packet.readNat 4 0
  if _hcur : cur.1 = 0 then some (written, cur.2)
  else if cur.1 > lzoOutLen then none
  else
    let block := Packet.readBytes buffer cur.1 cur.2
    match lzo.decompress block.1 with
    | none => none
    | some bytes =>
        if bytes.length > room written.length then none
        else decompressBlocks lzo room (block.1 ++ buffer.drop cur.1) (written ++ bytes) block.2
termination_by packet.data.length
decreasing_by
  have h1 := Packet.readNat_length_lt (p := packet) (w := 4) (by decide) _hcur
  have h2 := Packet.readBytes_length_le buffer cur.1 cur.2
  exact Nat.lt_of_le_of_lt h2 h1

/-- `DecompressPacketIntoBuffer`; `junk` is what the size holds when it cannot be read. -/
def decompressPacketIntoBuffer (lzo : Lzo) (junk : Nat) (packet : Packet) : Option (List UInt8 × Packet) :=
  let (size, packet) := packet.readNat 8 junk
  if size = 0 then some ([], packet)
  else
    (decompressBlocks lzo (size - ·) (List.replicate lzoOutLen 0) [] packet).map fun (written, packet) =>
      (written ++ List.replicate (size - written.length) 0, packet)

/-! ## Files and folders -/

abbrev Name := List UInt8
abbrev Path := List Name

inductive Node
  | folder
  | file (bytes : List UInt8)
  deriving DecidableEq, Repr

abbrev FileSystem := Path → Option Node

def isFile : Option Node → Bool
  | some (.file _) => true
  | _ => false

def createFullPath (fs : FileSystem) (path : Path) : Option FileSystem :=
  if path.inits.any fun q => isFile (fs q) then none
  else some fun q => if q.isPrefixOf path then some .folder else fs q

def openForWriting (fs : FileSystem) (path : Path) : Option FileSystem :=
  if fs path.dropLast = some .folder ∧ fs path ≠ some .folder then some (Function.update fs path (some (.file []))) else none

/-- A folder that does not exist, at a path where it can be created. -/
structure Fresh (fs : FileSystem) (path : Path) : Prop where
  creatable : ∀ q, q <+: path → isFile (fs q) = false
  absent : ∀ r, fs (path ++ r) = none

def decompressPacketIntoFile (lzo : Lzo) (junk : Nat) (packet : Packet) (fs : FileSystem) (path : Path) :
    Option (Packet × FileSystem) :=
  let (fileSize, packet) := packet.readNat 8 junk
  if fileSize = 0 then some (packet, fs)
  else
    (openForWriting fs path).bind fun fs =>
      (decompressBlocks lzo (fun _ => lzoInLen) (List.replicate lzoOutLen 0) [] packet).map fun (written, packet) =>
        (packet, Function.update fs path (some (.file written)))

inductive Entries
  | nil
  | file (name : Name) (bytes : List UInt8) (rest : Entries)
  | folder (name : Name) (children rest : Entries)

namespace Entries

def count : Entries → Nat
  | .nil => 0
  | .file _ _ rest => rest.count + 1
  | .folder _ _ rest => rest.count + 1

def names : Entries → List Name
  | .nil => []
  | .file name _ rest => name :: rest.names
  | .folder name _ rest => name :: rest.names

def lookup : Entries → Path → Option Node
  | _, [] => some .folder
  | .nil, _ :: _ => none
  | .file name bytes rest, n :: q => if n = name then (if q = [] then some (.file bytes) else none) else rest.lookup (n :: q)
  | .folder name children rest, n :: q => if n = name then children.lookup q else rest.lookup (n :: q)

/-- What every file system keeps: names are not empty and hold no slash, and siblings have different names. -/
def WellFormed : Entries → Prop
  | .nil => True
  | .file name bytes rest =>
      name ≠ [] ∧ 0x2F ∉ name ∧ name.length < 2 ^ 32 ∧ name ∉ rest.names ∧ bytes.length < 2 ^ 64 ∧ rest.WellFormed
  | .folder name children rest =>
      name ≠ [] ∧ 0x2F ∉ name ∧ name.length < 2 ^ 32 ∧ name ∉ rest.names ∧ children.count < 2 ^ 64 ∧
        children.WellFormed ∧ rest.WellFormed

def allNames : Entries → List Name
  | .nil => []
  | .file name _ rest => name :: rest.allNames
  | .folder name children rest => name :: (children.allNames ++ rest.allNames)

end Entries

/-- `CompressFolderIntoPacketInternal` without the number of children, which the caller writes. -/
def compressChildren (lzo : Lzo) : Entries → List UInt8
  | .nil => []
  | .file name bytes rest =>
      Packet.putString name ++ Packet.putBool false ++ compressFileIntoPacket lzo bytes ++ compressChildren lzo rest
  | .folder name children rest =>
      Packet.putString name ++ Packet.putBool true ++ (beBytes 8 children.count ++ compressChildren lzo children) ++
        compressChildren lzo rest

/-- `CompressFolderIntoPacket`; `none` is a folder that does not exist. -/
def compressFolderIntoPacket (lzo : Lzo) : Option Entries → List UInt8
  | none => Packet.putBool false
  | some folder => Packet.putBool true ++ (beBytes 8 folder.count ++ compressChildren lzo folder)

/-- The names that the receiver refuses: those with a slash and those of dots only. -/
def refusedName (name : Name) : Bool := name.contains 0x2F || name.all (· = 0x2E)

mutual

/-- `DecompressPacketIntoFolderInternal`, for so many nested calls and children; `none` is `false`. -/
def decompressFolder (lzo : Lzo) (junk : Nat) : Nat → Packet → FileSystem → Path → Option (Packet × FileSystem)
  | 0, _, _, _ => none
  | fuel + 1, packet, fs, path =>
      (createFullPath fs path).bind fun fs =>
        let (size, packet) := packet.readNat 8 junk
        decompressChildren lzo junk fuel size packet fs path

def decompressChildren (lzo : Lzo) (junk : Nat) : Nat → Nat → Packet → FileSystem → Path → Option (Packet × FileSystem)
  | 0, _, _, _, _ => none
  | _ + 1, 0, packet, fs, _ => some (packet, fs)
  | fuel + 1, size + 1, packet, fs, path =>
      let (name, packet) := packet.readString
      if refusedName name then none
      else
        let (isFolder, packet) := packet.readBool (junk ≠ 0)
        (if isFolder then decompressFolder lzo junk fuel packet fs (path ++ [name])
          else decompressPacketIntoFile lzo junk packet fs (path ++ [name])).bind fun (packet, fs) =>
            decompressChildren lzo junk fuel size packet fs path

end

def decompressPacketIntoFolder (lzo : Lzo) (junk fuel : Nat) (packet : Packet) (fs : FileSystem) (path : Path) :
    Option (Packet × FileSystem) :=
  let (folderExisted, packet) := packet.readBool (junk ≠ 0)
  if !folderExisted then some (packet, fs) else decompressFolder lzo junk fuel packet fs path

/-! ## Codes -/

structure CodeLine where
  address : UInt32
  data : UInt32
  deriving DecidableEq, Repr

abbrev Codes := List (List CodeLine)

inductive CodeKind
  | gecko
  | ar
  deriving DecidableEq, Repr

inductive SyncCodesMessage
  | notify
  | notifyCount (kind : CodeKind) (bytes : List UInt8)
  | data (kind : CodeKind) (bytes : List UInt8)

def countLines (codes : Codes) : Nat :=
  codes.foldl (fun n code => code.foldl (fun n _ => (n + 1) % 65536) n) 0

def putLine (line : CodeLine) : List UInt8 := beBytes 4 line.address.toNat ++ beBytes 4 line.data.toNat

def syncKind (kind : CodeKind) (codes : Codes) : List SyncCodesMessage :=
  [.notifyCount kind (beBytes 2 (countLines codes)), .data kind (codes.flatMap fun code => code.flatMap putLine)]

def syncCodes (gecko ar : Codes) : List SyncCodesMessage := .notify :: (syncKind .gecko gecko ++ syncKind .ar ar)

structure CodeSync where
  count : Nat := 0
  successCount : Nat := 0
  complete : Bool := false
  /-- The synced codes of `UpdateSyncedCodes`. -/
  synced : Codes := []

structure Client where
  gecko : CodeSync := {}
  ar : CodeSync := {}
  /-- How often it was reported that all codes arrived. -/
  responses : Nat := 0

namespace Client

def get (c : Client) : CodeKind → CodeSync
  | .gecko => c.gecko
  | .ar => c.ar

def set (c : Client) (kind : CodeKind) (sync : CodeSync) : Client :=
  match kind with
  | .gecko => { c with gecko := sync }
  | .ar => { c with ar := sync }

def syncCodeResponse (c : Client) : Client :=
  if c.gecko.complete && c.ar.complete then { c with responses := c.responses + 1 } else c

def onSyncCodesNotify (c : Client) : Client :=
  { c with
    gecko := { c.gecko with complete := false }
    ar := { c.ar with complete := false } }

def onSyncCodesNotifyCount (c : Client) (kind : CodeKind) (packet : Packet) : Client :=
  let sync := c.get kind
  let sync := { sync with count := (packet.readNat 2 sync.count).1, successCount := 0 }
  if sync.count = 0 then (c.set kind { sync with complete := true }).syncCodeResponse else c.set kind sync

/-- One line; `junk` is what the fields of a new line hold. -/
def readLine (junk : UInt32) (packet : Packet) : CodeLine × Packet :=
  let (address, packet) := packet.readNat 4 junk.toNat
  let (data, packet) := packet.readNat 4 junk.toNat
  (⟨UInt32.ofNat address, UInt32.ofNat data⟩, packet)

def receiveLines (kind : CodeKind) (junk : UInt32) : Nat → Packet → Client → List CodeLine → List CodeLine × Client
  | 0, _, c, lines => (lines, c)
  | n + 1, packet, c, lines =>
      let (line, packet) := readLine junk packet
      let sync := c.get kind
      let sync := { sync with successCount := (sync.successCount + 1) % 65536 }
      let c := if sync.successCount ≥ sync.count then (c.set kind { sync with complete := true }).syncCodeResponse
        else c.set kind sync
      receiveLines kind junk n packet c (lines ++ [line])

def onSyncCodesData (c : Client) (kind : CodeKind) (junk : UInt32) (packet : Packet) : Client :=
  let (lines, c) := receiveLines kind junk (c.get kind).count packet c []
  let sync := c.get kind
  c.set kind { sync with synced := if sync.count = 0 then [] else [lines] }

/-- `OnSyncCodes` for a client that is not the host. -/
def onSyncCodes (junk : UInt32) (c : Client) : SyncCodesMessage → Client
  | .notify => c.onSyncCodesNotify
  | .notifyCount kind bytes => c.onSyncCodesNotifyCount kind ⟨bytes, true⟩
  | .data kind bytes => c.onSyncCodesData kind junk ⟨bytes, true⟩

end Client

end Karphin.NetPlay.Transfer
