import Karphin.Lib.FinNumerals
import Karphin.Lib.FileReader
import Karphin.Lib.LittleEndian

/-!
# The file of a saved state

Three headers and the string of the version, then what has been saved, in pieces that LZ4 has compressed or as it is.
-/

namespace Karphin.State

open Lib FileReader

def stateVersion : Nat := 168

def extendedHeaderVersion : Nat := 1

def compressedDataOffset : Nat := 0

def cookieBase : Nat := 0xBAADBABE

def lz4MaxInputSize : Nat := 0x7E000000

/-- `LZ4_compress_default`, nothing where it fails, and `LZ4_decompress_safe` into as many bytes. -/
structure Lz4 where
  compress : List UInt8 → List UInt8
  decompressSafe : (compressed : List UInt8) → (capacity : Nat) → Option (List UInt8)

structure StateHeaderLegacy where
  gameId : List UInt8
  lzoSize : Nat
  time : List UInt8

structure StateHeaderVersion where
  versionCookie : Nat
  versionStringLength : Nat

structure StateHeader where
  legacyHeader : StateHeaderLegacy
  versionHeader : StateHeaderVersion
  versionString : List UInt8

structure StateExtendedBaseHeader where
  headerVersion : Nat
  compressionType : Nat
  payloadOffset : Nat
  uncompressedSize : Nat

def StateHeaderLegacy.bytes (h : StateHeaderLegacy) : List UInt8 :=
  h.gameId ++ (List.replicate 2 0 ++ (leBytes 4 h.lzoSize ++ (List.replicate 4 0 ++ h.time)))

def StateHeaderVersion.bytes (h : StateHeaderVersion) : List UInt8 :=
  leBytes 4 h.versionCookie ++ leBytes 4 h.versionStringLength

def StateExtendedBaseHeader.bytes (h : StateExtendedBaseHeader) : List UInt8 :=
  leBytes 2 h.headerVersion ++ (leBytes 2 h.compressionType ++ (leBytes 4 h.payloadOffset ++ leBytes 8 h.uncompressedSize))

/-! ## Writing -/

/-- What the headers are made of: the game, the clock (a `double`), the revision string and `s_use_compression`. -/
structure Session where
  gameId : List UInt8
  time : List UInt8
  scmRevStr : List UInt8
  useCompression : Bool
  time_size : time.length = 8
  scmRevStr_size : scmRevStr.length < 2 ^ 32

def compressionType (useCompression : Bool) : Nat := if useCompression then 1 else 0

def createExtendedHeader (s : Session) (uncompressedSize : Nat) : StateExtendedBaseHeader :=
  { headerVersion := extendedHeaderVersion, compressionType := compressionType s.useCompression,
    payloadOffset := compressedDataOffset, uncompressedSize }

def Session.header (s : Session) : StateHeader where
  legacyHeader := { gameId := s.gameId.take 6 ++ List.replicate (6 - s.gameId.length) 0, lzoSize := 0, time := s.time }
  versionHeader := { versionCookie := cookieBase + stateVersion, versionStringLength := s.scmRevStr.length }
  versionString := s.scmRevStr

def writeHeadersToFile (s : Session) (uncompressedSize : Nat) : List (List UInt8) :=
  [s.header.legacyHeader.bytes, s.header.versionHeader.bytes, s.header.versionString,
    (createExtendedHeader s uncompressedSize).bytes]

def compressBufferToFile (lz4 : Lz4) (buffer : List UInt8) : List (List UInt8) :=
  let compressed := lz4.compress (buffer.take lz4MaxInputSize)
  if compressed.isEmpty then []
  else
    leBytes 4 compressed.length :: compressed ::
      if buffer.length ≤ lz4MaxInputSize then [] else compressBufferToFile lz4 (buffer.drop lz4MaxInputSize)
termination_by buffer.length
decreasing_by
  rw [List.length_drop, lz4MaxInputSize] at *
  omega

def stateWrites (lz4 : Lz4) (s : Session) (buffer : List UInt8) : List (List UInt8) :=
  writeHeadersToFile s buffer.length ++ if s.useCompression then compressBufferToFile lz4 buffer else [buffer]

def stateFile (lz4 : Lz4) (s : Session) (buffer : List UInt8) : List UInt8 := (stateWrites lz4 s buffer).flatten

/-! ## Reading -/

def readNat (w : Nat) : FileReader UInt8 Nat := do return ofLeBytes (← readBytes w)

def readLegacyHeader : FileReader UInt8 StateHeaderLegacy := do
  let gameId ← readBytes 6
  let _ ← readBytes 2
  let lzoSize ← readNat 4
  let _ ← readBytes 4
  return ⟨gameId, lzoSize, ← readBytes 8⟩

def readVersionHeader : FileReader UInt8 StateHeaderVersion := do
  let versionCookie ← readNat 4
  return ⟨versionCookie, ← readNat 4⟩

def readExtendedBaseHeader : FileReader UInt8 StateExtendedBaseHeader := do
  let headerVersion ← readNat 2
  let compressionType ← readNat 2
  let payloadOffset ← readNat 4
  return ⟨headerVersion, compressionType, payloadOffset, ← readNat 8⟩

/-- The first block of an old state, as `lzo1x_decompress` leaves it in a buffer of this size. -/
def getVersionFromLZO (lzo : List UInt8 → (size : Nat) → Option (List UInt8)) (legacy : StateHeaderLegacy) :
    FileReader UInt8 StateHeader := do
  let curLen ← readNat 4
  let out ← readBytes curLen
  match lzo out legacy.lzoSize with
  | none => failure
  | some buffer =>
      check (8 ≤ buffer.length)
      let version : StateHeaderVersion := ⟨readLe 4 buffer 0, readLe 4 buffer 4⟩
      check (8 + version.versionStringLength ≤ buffer.length)
      return ⟨legacy, version, (buffer.drop 8).take version.versionStringLength⟩

def readStateHeaderFromFile (lzo : List UInt8 → (size : Nat) → Option (List UInt8)) : FileReader UInt8 StateHeader := do
  let legacy ← readLegacyHeader
  if legacy.lzoSize ≠ 0 then getVersionFromLZO lzo legacy
  else
    let version ← readVersionHeader
    return ⟨legacy, version, ← readBytes version.versionStringLength⟩

def sameGame (gameId stored : List UInt8) : Bool := (gameId.take 6).takeWhile (· ≠ 0) = (stored.take 6).takeWhile (· ≠ 0)

def validateHeaders (gameId : List UInt8) (header : StateHeader) : Bool :=
  let loadedVersion := (header.versionHeader.versionCookie + 2 ^ 32 - cookieBase) % 2 ^ 32
  sameGame gameId header.legacyHeader.gameId && !(17 ≤ loadedVersion && loadedVersion ≤ 42) && loadedVersion == stateVersion

/-- The loop of `DecompressLZ4`, for `fuel` rounds at most. -/
def decompressLoop (lz4 : Lz4) (size : Nat) : (fuel : Nat) → (buffer : List UInt8) → FileReader UInt8 (List UInt8)
  | 0, _ => failure
  | fuel + 1, buffer => do
      let compressedDataLen ← readNat 4
      check (0 < compressedDataLen ∧ compressedDataLen < 2 ^ 31)
      let compressedData ← readBytes compressedDataLen
      match lz4.decompressSafe compressedData (min lz4MaxInputSize (size - buffer.length)) with
      | none => failure
      | some read =>
          let buffer := buffer ++ read
          if buffer.length = size then return buffer
          else
            check (buffer.length < size)
            decompressLoop lz4 size fuel buffer

def decompressLZ4 (lz4 : Lz4) (size : Nat) : FileReader UInt8 (List UInt8) := fun file =>
  decompressLoop lz4 size file.length [] file

/-- What is read of a payload as it is: all that follows, up to the end of a file of this size. -/
def readUncompressed (fileSize : Nat) (header : StateHeader) (extended : StateExtendedBaseHeader) :
    FileReader UInt8 (List UInt8) := do
  let headerLen := 24 + 8 + header.versionHeader.versionStringLength + 16 + extended.payloadOffset
  check (headerLen ≤ fileSize)
  readBytes (fileSize - headerLen)

def readHeaders (lzo : List UInt8 → (size : Nat) → Option (List UInt8)) (gameId : List UInt8) :
    FileReader UInt8 (StateHeader × StateExtendedBaseHeader) := do
  let header ← readStateHeaderFromFile lzo
  check (validateHeaders gameId header = true)
  let extended ← readExtendedBaseHeader
  check (extended.headerVersion = extendedHeaderVersion)
  return (header, extended)

def readPayload (lz4 : Lz4) (fileSize : Nat) (headers : StateHeader × StateExtendedBaseHeader) :
    FileReader UInt8 (List UInt8) :=
  match headers.2.compressionType with
  | 1 => decompressLZ4 lz4 headers.2.uncompressedSize
  | 0 => readUncompressed fileSize headers.1 headers.2
  | _ => failure

def loadFileStateData (lz4 : Lz4) (lzo : List UInt8 → (size : Nat) → Option (List UInt8)) (gameId file : List UInt8) :
    Option (List UInt8) :=
  ((readHeaders lzo gameId >>= readPayload lz4 file.length) file).map Prod.fst

end Karphin.State
