import Karphin.Lib.OrderedMap
import Karphin.Lib.Packet
import Karphin.DiscIO.LaggedFibonacci.Lemmas.Words
import Karphin.DiscIO.WIA.Entries

/-!
# RVZ packing

`RVZPack` replaces the padding of a disc by the seeds it was generated from, and `RVZPackDecompressor` generates it
again.
-/

namespace Karphin.DiscIO

open Karphin.Lib

namespace RVZPack

/-- `LaggedFibonacciGenerator::SEED_SIZE * sizeof(u32)` -/
def seedBytesSize : Nat := seedSize * 4

def zeroSeed : Seed := Vector.replicate seedSize 0

/-! ## The file system -/

structure FileInfo where
  offset : Nat
  size : Nat

def FileInfo.endOffset (file : FileInfo) : Nat := file.offset + file.size

abbrev FileSystem := List FileInfo

def FileSystem.offsetCache (fileSystem : FileSystem) : OrderedMap FileInfo :=
  fileSystem.foldl (fun cache file => cache.emplace file.endOffset file) .empty

/-- `FindFileInfo`: the first file that ends after the offset. -/
def FileSystem.findFileInfo (fileSystem : FileSystem) (discOffset : Nat) : Option FileInfo :=
  match fileSystem.offsetCache.upperBound discOffset with
  | some (_, file) => if file.offset ≤ discOffset then some file else none
  | none => none

/-! ## Looking for junk -/

structure JunkInfo where
  startOffset : Nat
  seed : Seed

section Junk

-- `GetSeed` for the data at a position of the input: the number of bytes and the seed
variable (getSeed : (position : Nat) → (data : List UInt8) → (dataOffset : Nat) → Nat × Seed)
variable (input : List UInt8) (compression : Bool) (fileSystem : Option FileSystem)

def countZeroes (position : Nat) : Nat := ((input.drop position).takeWhile (· = 0)).length

def bytesToRead (position dataOffset : Nat) : Nat :=
  min ((LaggedFibonacciGenerator.alignUp ((dataOffset + 1) % u64Max) blockTotalSize + u64Max - dataOffset) % u64Max)
    (input.length - position)

def fileEndOffset (dataOffset bytesReconstructed bytesToRead : Nat) : Option Nat :=
  match fileSystem with
  | none => none
  | some fileSystem =>
      match fileSystem.findFileInfo ((dataOffset + bytesReconstructed) % u64Max) with
      | none => none
      | some file =>
          if file.endOffset < (dataOffset + bytesToRead) % u64Max then some file.endOffset else none

/-- The first loop of `RVZPack`, for `fuel` rounds at most. -/
def findJunk : (fuel position dataOffset : Nat) → OrderedMap JunkInfo → Option (OrderedMap JunkInfo)
  | 0, _, _, _ => none
  | fuel + 1, position, dataOffset, junk =>
      if position < input.length then
        let zeroes := countZeroes input position
        -- with compression, the compressor will likely encode zeroes better than we can
        let junk := if !compression && zeroes > seedBytesSize then
            junk.emplace (position + zeroes) ⟨position, zeroSeed⟩
          else junk
        let position := position + zeroes
        let dataOffset := (dataOffset + zeroes) % u64Max
        let bytesToRead := bytesToRead input position dataOffset
        let (bytesReconstructed, seed) :=
          getSeed position ((input.drop position).take bytesToRead) (dataOffset % blockTotalSize)
        let junk := if bytesReconstructed > 0 then junk.emplace (position + bytesReconstructed) ⟨position, seed⟩
          else junk
        match fileEndOffset fileSystem dataOffset bytesReconstructed bytesToRead with
        | some fileEnd => findJunk fuel ((position + (fileEnd + u64Max - dataOffset) % u64Max) % u64Max) fileEnd junk
        | none => findJunk fuel (position + bytesToRead) ((dataOffset + bytesToRead) % u64Max) junk
      else some junk

end Junk

/-! ## Packing -/

section Pack

variable (input : List UInt8) (junk : OrderedMap JunkInfo)

def nextJunk (storeJunkEfficiently : Bool) (currentOffset endOffset : Nat) : Option (Nat × Nat × Seed) :=
  if storeJunkEfficiently && endOffset - currentOffset > seedBytesSize then
    match junk.upperBound (currentOffset + seedBytesSize) with
    | none => none
    | some (junkEnd, info) =>
        if info.startOffset + seedBytesSize < endOffset then
          some (max currentOffset info.startOffset, min endOffset junkEnd, info.seed)
        else none
  else none

def packData (entry : OutputParametersEntry) (bytes : List UInt8) : OutputParametersEntry :=
  if bytes.length > 0 then
    { entry with mainData := entry.mainData ++ (beBytes 4 (bytes.length % u32Max) ++ bytes)
                 rvzPackedSize := entry.rvzPackedSize + (4 + bytes.length) }
  else entry

def packJunk (entry : OutputParametersEntry) (junkBytes : Nat) (seed : Seed) : OutputParametersEntry :=
  if junkBytes > 0 then
    { entry with mainData := entry.mainData ++
                   (beBytes 4 (junkBytes % u32Max ||| 0x80000000) ++ LaggedFibonacciGenerator.seedBytes seed)
                 rvzPackedSize := entry.rvzPackedSize + (4 + seedBytesSize) }
  else entry

/-- The loop for one chunk, for `fuel` rounds at most. -/
def packLoop (storeJunkEfficiently : Bool) (endOffset : Nat) :
    (fuel : Nat) → (firstLoopIteration : Bool) → (currentOffset : Nat) → OutputParametersEntry →
      Option OutputParametersEntry
  | 0, _, _, _ => none
  | fuel + 1, firstLoopIteration, currentOffset, entry =>
      if currentOffset < endOffset then
        match nextJunk junk storeJunkEfficiently currentOffset endOffset with
        | none =>
            let rest := (input.drop currentOffset).take (endOffset - currentOffset)
            if firstLoopIteration then
              -- storing this chunk without RVZ packing would be inefficient
              some { entry with mainData := entry.mainData ++ rest }
            else packLoop storeJunkEfficiently endOffset fuel false endOffset (packData entry rest)
        | some (nextJunkStart, nextJunkEnd, seed) =>
            let entry := packData entry ((input.drop currentOffset).take (nextJunkStart - currentOffset))
            packLoop storeJunkEfficiently endOffset fuel false nextJunkEnd
              (packJunk entry (nextJunkEnd - nextJunkStart) seed)
      else some entry

def packChunk (bytesPerChunk i : Nat) (multipart allowJunkReuse : Bool) (entry : OutputParametersEntry) :
    Option OutputParametersEntry :=
  if entry.reusedGroup.isSome then some entry
  else
    let currentOffset := i * bytesPerChunk % u64Max
    let endOffset := min ((currentOffset + bytesPerChunk) % u64Max) input.length
    packLoop input junk (allowJunkReuse || entry.reuseId.isNone) endOffset (input.length + 1) (!multipart) currentOffset
      entry

end Pack

def rvzPack (getSeed : Nat → List UInt8 → Nat → Nat × Seed) (input : List UInt8) (out : List OutputParametersEntry)
    (bytesPerChunk dataOffset : Nat) (multipart allowJunkReuse compression : Bool) (fileSystem : Option FileSystem) :
    Option (List OutputParametersEntry) :=
  match findJunk getSeed input compression fileSystem (input.length + 1) 0 dataOffset .empty with
  | none => none
  | some junk => out.zipIdx.mapM fun (entry, i) => packChunk input junk bytesPerChunk i multipart allowJunkReuse entry

end RVZPack

end Karphin.DiscIO

/-!
## RVZ unpacking

`RVZPackDecompressor`, which reads from a `NoneDecompressor`. It can be called with any part of its input and any room
for its output.
-/

namespace Karphin.DiscIO.RVZPack

open Karphin.Lib

/-- `decompressed` has the first `bytes_written` bytes of the buffer, `decompressedSize` is the size of the buffer, and
`noneDone` is the `m_done` of the other decompressor. -/
structure RVZPackDecompressor where
  noneDone : Bool
  decompressed : List UInt8
  decompressedSize : Nat
  decompressedBytesRead : Nat := 0
  dataOffset : Nat
  rvzPackedSize : Nat
  bytesRead : Nat
  lfg : LaggedFibonacciGenerator := ⟨fun _ => 0, ⟨0, lfgBytes_pos⟩⟩
  size : Nat := 0
  junk : Bool := false

namespace RVZPackDecompressor

def done (d : RVZPackDecompressor) : Bool :=
  d.size = 0 && d.rvzPackedSize = d.bytesRead && d.decompressed.length = d.decompressedBytesRead && d.noneDone

/-- The decompressor and the arguments of a call: how much of the input was read, and what was written to the output. -/
structure Call where
  d : RVZPackDecompressor
  inBytesRead : Nat
  out : List UInt8 := []

section Decompress

variable (inData : List UInt8) (inBytesWritten space : Nat)

/-- `NoneDecompressor::Decompress`, with room for `room` bytes. -/
def noneDecompress (c : Call) (room : Nat) : List UInt8 × Call :=
  let length := min (inBytesWritten - c.inBytesRead) room
  ((inData.drop c.inBytesRead).take length,
    { c with inBytesRead := c.inBytesRead + length
             d := { c.d with noneDone := inData.length = c.inBytesRead + length } })

def readToDecompressed (c : Call) (decompressedBytesRead bytesToRead : Nat) : Option Bool × Call :=
  let needed := decompressedBytesRead + bytesToRead
  let c := { c with d := { c.d with decompressedSize := max c.d.decompressedSize needed } }
  if c.d.decompressed.length < needed then
    let (bytes, c) := noneDecompress inData inBytesWritten c (c.d.decompressedSize - c.d.decompressed.length)
    let c := { c with d := { c.d with decompressed := c.d.decompressed ++ bytes
                                      bytesRead := c.d.bytesRead + bytes.length } }
    if c.d.bytesRead > c.d.rvzPackedSize then (some false, c)
    else if c.d.decompressed.length < needed then (some true, c)
    else (none, c)
  else (none, c)

def resetDecompressed (c : Call) : Call :=
  if c.d.decompressed.length = c.d.decompressedBytesRead then
    { c with d := { c.d with decompressed := [], decompressedSize := 4, decompressedBytesRead := 0 } }
  else c

def nextSize (d : RVZPackDecompressor) : Nat := ofBeBytes ((d.decompressed.drop d.decompressedBytesRead).take 4)

def nextSeed (d : RVZPackDecompressor) : List UInt8 :=
  (d.decompressed.drop (d.decompressedBytesRead + 4)).take seedBytesSize

def startData (c : Call) : Call :=
  { c with d := { c.d with junk := false
                           size := nextSize c.d &&& 0x7FFFFFFF
                           decompressedBytesRead := c.d.decompressedBytesRead + 4 } }

def startJunk (c : Call) : Call :=
  { c with d := { c.d with junk := true
                           size := nextSize c.d &&& 0x7FFFFFFF
                           lfg := (c.d.lfg.setSeedBytes (nextSeed c.d)).forward (c.d.dataOffset % blockTotalSize)
                           decompressedBytesRead := c.d.decompressedBytesRead + seedBytesSize + 4 } }

def readHeader (c : Call) : Option Bool × Call :=
  let c := resetDecompressed c
  match readToDecompressed inData inBytesWritten c c.d.decompressedBytesRead 4 with
  | (some result, c) => (some result, c)
  | (none, c) =>
      if nextSize c.d &&& 0x80000000 = 0 then (none, startData c)
      else
        let c := { c with d := { c.d with junk := true } }
        match readToDecompressed inData inBytesWritten c (c.d.decompressedBytesRead + 4) seedBytesSize with
        | (some result, c) => (some result, c)
        | (none, c) => (none, startJunk c)

def advance (c : Call) (bytesToWrite : Nat) : Call :=
  { c with d := { c.d with dataOffset := (c.d.dataOffset + bytesToWrite) % u64Max
                           size := c.d.size - bytesToWrite } }

def writeJunk (c : Call) : Call :=
  let bytesToWrite := min c.d.size (space - c.out.length)
  let (bytes, lfg) := c.d.lfg.getBytes bytesToWrite
  advance { c with out := c.out ++ bytes, d := { c.d with lfg } } bytesToWrite

def writeDecompressed (c : Call) : Call :=
  let bytesToWrite := min (min c.d.size (space - c.out.length))
    (c.d.decompressed.length - c.d.decompressedBytesRead)
  advance { c with out := c.out ++ (c.d.decompressed.drop c.d.decompressedBytesRead).take bytesToWrite
                   d := { c.d with decompressedBytesRead := c.d.decompressedBytesRead + bytesToWrite } } bytesToWrite

def writeInput (c : Call) : Option Bool × Call :=
  let (bytes, c) := noneDecompress inData inBytesWritten c (min c.d.size (space - c.out.length))
  let c := { c with out := c.out ++ bytes, d := { c.d with bytesRead := c.d.bytesRead + bytes.length } }
  if c.d.bytesRead > c.d.rvzPackedSize then (some false, c)
  else if bytes.length = 0 then (some true, c)
  else (none, advance c bytes.length)

def write (c : Call) : Option Bool × Call :=
  if c.d.junk then (none, writeJunk space c)
  else if c.d.decompressed.length ≠ c.d.decompressedBytesRead then (none, writeDecompressed space c)
  else writeInput inData inBytesWritten space c

/-- The loop of `Decompress`, for `fuel` rounds at most, and what comes after it. -/
def decompressLoop : (fuel : Nat) → Call → Option (Bool × Call)
  | 0, _ => none
  | fuel + 1, c =>
      if c.out.length ≠ space ∧ c.d.done = false then
        match if c.d.size = 0 then readHeader inData inBytesWritten c else (none, c) with
        | (some result, c) => some (result, c)
        | (none, c) =>
            match write inData inBytesWritten space c with
            | (some result, c) => some (result, c)
            | (none, c) => decompressLoop fuel c
      -- the other decompressor may still have to read something that gives no output
      else if c.out.length = space ∧ inBytesWritten ≠ c.inBytesRead then
        some (true, (noneDecompress inData inBytesWritten c 0).2)
      else some (true, c)

/-- `Decompress`, with `inBytesWritten` bytes of the input and room for `space` bytes. -/
def decompress (d : RVZPackDecompressor) (inBytesRead : Nat) : Option (Bool × Call) :=
  decompressLoop inData inBytesWritten space
    (space + d.decompressed.length + (inBytesWritten - inBytesRead) + 1) { d, inBytesRead }

end Decompress

/-! ## Runs -/

/-- A decompressor between two calls, how much of its input has arrived and was read, and what each call has written. -/
structure Run where
  d : RVZPackDecompressor
  inBytesWritten : Nat
  inBytesRead : Nat
  outs : List (List UInt8) := []

/-- A call after `added` more bytes of the input have arrived, with room for `space` bytes. -/
def Run.call (inData : List UInt8) (r : Run) (added space : Nat) : Option Run :=
  let inBytesWritten := min (r.inBytesWritten + added) inData.length
  match decompress inData inBytesWritten space r.d r.inBytesRead with
  | some (true, c) => some ⟨c.d, inBytesWritten, c.inBytesRead, r.outs ++ [c.out]⟩
  | _ => none

/-- Before the first call. The bytes before the packed ones, and the first `moved` packed ones, were read before: the
latter are handed over in a buffer. -/
def Run.start (dataOffset rvzPackedSize : Nat) (preceding packed : List UInt8) (moved : Nat) : Run where
  d := { noneDone := 0 < moved && packed.length ≤ moved
         decompressed := packed.take moved
         decompressedSize := min moved packed.length
         dataOffset
         rvzPackedSize
         bytesRead := min moved packed.length }
  inBytesWritten := preceding.length + min moved packed.length
  inBytesRead := preceding.length + min moved packed.length

def decompressAll (dataOffset rvzPackedSize : Nat) (preceding packed : List UInt8) (moved : Nat)
    (calls : List (Nat × Nat)) : Option Run :=
  calls.foldlM (fun r (added, space) => r.call (preceding ++ packed) added space)
    (.start dataOffset rvzPackedSize preceding packed moved)

end RVZPackDecompressor

end Karphin.DiscIO.RVZPack
