import Karphin.DiscIO.Sector.Lemmas.Cache
import Karphin.Lib.LittleEndian

/-!
# Compressed images

`ConvertToGCZ` with blocks that are delivered in order, and `CompressedBlobReader`. What is only logged is left out; what
is written to the output file is written.
-/

namespace Karphin.DiscIO

open Karphin.Lib

/-! ## Compression -/

/-- What `deflate` has written to its buffer, and whether its status is `Z_STREAM_END`. -/
structure Deflated where
  streamEnd : Bool
  bytes : List UInt8

/-- The library: `deflate` of a block after a reset, which may fail; what `inflate` writes to a buffer of a size; and the
checksum. -/
structure Zlib where
  deflate : (block : List UInt8) → Option Deflated
  inflate : (stream : List UInt8) → (availOut : Nat) → List UInt8
  adler32 : List UInt8 → UInt32

inductive ConversionResultCode where
  | canceled
  | readFailed
  | internalError
  deriving DecidableEq, Repr

/-! ## The file -/

def gczMagic : Nat := 0xB10BC001

structure CompressedBlobHeader where
  subType : Nat
  compressedDataSize : Nat
  dataSize : Nat
  blockSize : Nat
  numBlocks : Nat

namespace CompressedBlobHeader

def size : Nat := 32

def bytes (header : CompressedBlobHeader) : List UInt8 :=
  leBytes 4 gczMagic ++ leBytes 4 header.subType ++ leBytes 8 header.compressedDataSize ++ leBytes 8 header.dataSize ++
    leBytes 4 header.blockSize ++ leBytes 4 header.numBlocks

def ofFile (file : List UInt8) : CompressedBlobHeader where
  subType := readLe 4 file 4
  compressedDataSize := readLe 8 file 8
  dataSize := readLe 8 file 16
  blockSize := readLe 4 file 24
  numBlocks := readLe 4 file 28

end CompressedBlobHeader

def isGCZBlob (file : List UInt8) : Bool := CompressedBlobHeader.size ≤ file.length && readLe 4 file 0 = gczMagic

/-! ## Converting -/

structure BlobReader where
  dataSize : Nat
  read : (offset size : Nat) → Option (List UInt8)

def BlobReader.ofImage (image : List UInt8) : BlobReader where
  dataSize := image.length
  read offset size := if offset + size ≤ image.length then some ((image.drop offset).take size) else none

structure CompressParameters where
  data : List UInt8
  blockNumber : Nat
  inpos : Nat

structure OutputParameters where
  data : List UInt8
  blockNumber : Nat
  compressed : Bool
  inpos : Nat

/-- The variables of `ConvertToGCZ`, and what was written after the tables. -/
structure Conversion where
  inpos : Nat := 0
  position : Nat := 0
  offsets : List Nat
  hashes : List Nat
  written : List UInt8 := []

section Convert

variable (zlib : Zlib) (callback : (blockNumber ratio : Nat) → Bool) (infile : BlobReader) (blockSize : Nat)

def compress (parameters : CompressParameters) : Except ConversionResultCode OutputParameters :=
  match zlib.deflate parameters.data with
  | none => .error .internalError
  | some ⟨streamEnd, bytes⟩ =>
      if !streamEnd || blockSize - bytes.length < 10 then
        -- let's store uncompressed
        .ok ⟨parameters.data, parameters.blockNumber, false, parameters.inpos⟩
      else .ok ⟨bytes, parameters.blockNumber, true, parameters.inpos⟩

def numBlocks : Nat := (infile.dataSize + (blockSize - 1)) % u64Max / blockSize % u32Max

def progressMonitor : Nat := max 1 (numBlocks infile blockSize / 1000)

def ratio (position inpos : Nat) : Nat := if inpos = 0 then 0 else 100 * position % u64Max / inpos

def output (parameters : OutputParameters) (c : Conversion) : Except ConversionResultCode Conversion :=
  let offset := if parameters.compressed then c.position else c.position ||| 0x8000000000000000
  let position := (c.position + parameters.data.length) % u64Max
  let c := { c with
    offsets := c.offsets.set parameters.blockNumber offset
    position := position
    written := c.written ++ parameters.data }
  if parameters.blockNumber % progressMonitor infile blockSize = 0 then
    if callback parameters.blockNumber (ratio position parameters.inpos) then .ok c else .error .canceled
  else .ok c

/-- The loop body of `ConvertToGCZ`: a block is read, compressed and written. -/
def convertBlock (i : Nat) (c : Conversion) : Except ConversionResultCode Conversion :=
  let bytesToRead := min blockSize ((infile.dataSize + u64Max - c.inpos) % u64Max)
  match infile.read c.inpos bytesToRead with
  | none => .error .readFailed
  | some bytes =>
      let inBuf := bytes ++ List.replicate (blockSize - bytesToRead) 0
      let inpos := (c.inpos + blockSize) % u64Max
      match compress zlib blockSize ⟨inBuf, i, inpos⟩ with
      | .error result => .error result
      | .ok parameters =>
          output callback infile blockSize parameters { c with
            inpos := inpos
            hashes := c.hashes.set i (zlib.adler32 parameters.data).toNat }

def convertBlocks : (count i : Nat) → Conversion → Except ConversionResultCode Conversion
  | 0, _, c => .ok c
  | count + 1, i, c =>
      match convertBlock zlib callback infile blockSize i c with
      | .error result => .error result
      | .ok c => convertBlocks count (i + 1) c

def convertToGCZ (subType : UInt32) : Except ConversionResultCode (List UInt8) :=
  let numBlocks := numBlocks infile blockSize
  match convertBlocks zlib callback infile blockSize numBlocks 0
    { offsets := List.replicate numBlocks 0, hashes := List.replicate numBlocks 0 } with
  | .error result => .error result
  | .ok c =>
      let header : CompressedBlobHeader := { subType := subType.toNat, compressedDataSize := c.position,
                                             dataSize := infile.dataSize, blockSize, numBlocks }
      .ok (header.bytes ++ (leTable 8 c.offsets ++ (leTable 4 c.hashes ++ c.written)))

end Convert

/-! ## Reading -/

@[irreducible]
def readBytes (file : List UInt8) (offset size : Nat) : Option (List UInt8) :=
  if size = 0 ∨ offset + size ≤ file.length then some ((file.drop offset).take size) else none

/-- The reader of a file that has its tables. `dataOffset` is an `int`. -/
structure CompressedBlobReader where
  header : CompressedBlobHeader
  blockPointers : List Nat
  dataOffset : Int
  file : List UInt8

namespace CompressedBlobReader

def toInt (n : Nat) : Int := if n % u32Max < 2 ^ 31 then (n % u32Max : Nat) else (n % u32Max : Nat) - (u32Max : Int)

def create (file : List UInt8) : Option CompressedBlobReader :=
  if isGCZBlob file then
    let header := CompressedBlobHeader.ofFile file
    some { header
           blockPointers := readLeTable 8 header.numBlocks file CompressedBlobHeader.size
           dataOffset := toInt (CompressedBlobHeader.size + 8 * header.numBlocks + 4 * header.numBlocks)
           file }
  else none

variable (r : CompressedBlobReader) (zlib : Zlib)

def getBlockCompressedSize (blockNum : Nat) : Nat :=
  let start := r.blockPointers.getD blockNum 0
  let last := (r.header.numBlocks + u32Max - 1) % u32Max
  if blockNum < last then (r.blockPointers.getD (blockNum + 1) 0 + u64Max - start) % u64Max
  else if blockNum = last then (r.header.compressedDataSize + u64Max - start) % u64Max
  else 0

def getBlock (blockNum : Nat) : Option (List UInt8) :=
  let compBlockSize := r.getBlockCompressedSize blockNum % u32Max
  let offset := (((r.blockPointers.getD blockNum 0 : Int) + r.dataOffset) % (u64Max : Int)).toNat
  let uncompressed := offset.testBit 63
  let offset := if uncompressed then offset % 2 ^ 63 else offset
  (readBytes r.file offset compBlockSize).bind fun bytes =>
    if uncompressed then some bytes
    else
      let out := zlib.inflate bytes r.header.blockSize
      if out.length = r.header.blockSize then some out else none

def sectorReader : SectorReader where
  dataSize := r.header.dataSize
  blockSize := r.header.blockSize
  getBlock := r.getBlock zlib

end CompressedBlobReader

end Karphin.DiscIO
