import Karphin.Lib.FinNumerals
import Karphin.Lib.LittleEndian

/-!
# Paths of the emulated file system

Which paths are valid, how a path is split, and the names that stand for its components on the host.
-/

namespace Karphin.IOS.FS

/-- A `std::string`. -/
abbrev Bytes := List UInt8

def slash : UInt8 := 0x2f
def dot : UInt8 := 0x2e
def underscore : UInt8 := 0x5f

def maxPathDepth : Nat := 8

def maxPathLength : Nat := 64

def maxFilenameLength : Nat := 12

/-! ## Validity -/

def isValidNonRootPath (path : Bytes) : Bool :=
  1 < path.length && path.length ≤ maxPathLength && path.head? = some slash && path.getLast? ≠ some slash

def isValidPath (path : Bytes) : Bool := path = [slash] || isValidNonRootPath path

def isPrintableCharacter (c : UInt8) : Bool := 0x20 ≤ c && c ≤ 0x7e

/-! ## Splitting -/

structure SplitPathResult where
  parent : Bytes
  fileName : Bytes

def lastSeparator (path : Bytes) : Option Nat := (path.reverse.idxOf? slash).map fun i => path.length - 1 - i

def splitPathAndBasename (path : Bytes) : SplitPathResult :=
  match lastSeparator path with
  | none => { parent := path, fileName := path }
  | some i => { parent := path.take (max 1 i), fileName := path.drop (i + 1) }

/-- The pieces between the delimiters; nothing comes after a delimiter at the end. -/
def splitString (delim : UInt8) : Bytes → List Bytes
  | [] => []
  | c :: cs =>
      if c = delim then [] :: splitString delim cs
      else
        match splitString delim cs with
        | [] => [[c]]
        | piece :: pieces => (c :: piece) :: pieces

/-! ## Escaping -/

def isIllegalCharacter (c : UInt8) : Bool :=
  -- " * / : < > ? \ | and DEL
  c ≤ 0x1f || c ∈ [0x22, 0x2a, 0x2f, 0x3a, 0x3c, 0x3e, 0x3f, 0x5c, 0x7c, 0x7f]

def hexDigit (n : UInt8) : UInt8 := if n < 10 then 0x30 + n else 0x61 + (n - 10)

/-- `__{:02x}__` -/
def escapeSequence (c : UInt8) : Bytes :=
  [underscore, underscore, hexDigit (c / 16), hexDigit (c % 16), underscore, underscore]

def escapeDoubleUnderscores : Bytes → Bytes
  | [] => []
  | [c] => [c]
  | c :: c' :: cs =>
      if c = underscore ∧ c' = underscore then
        escapeSequence underscore ++ escapeSequence underscore ++ escapeDoubleUnderscores cs
      else c :: escapeDoubleUnderscores (c' :: cs)

def escapeFileName (filename : Bytes) : Bytes :=
  -- no special names such as . and ..
  if filename.all (· = dot) then filename.flatMap fun _ => escapeSequence dot
  else (escapeDoubleUnderscores filename).flatMap fun c => if isIllegalCharacter c then escapeSequence c else [c]

/-- A path on the host as its components; a repeated separator gives an empty one. -/
abbrev HostPath := List Bytes

def escapePath (path : Bytes) : HostPath := (splitString slash path).map escapeFileName

/-- The names of the directories on the way; the host skips repeated separators. -/
def HostPath.resolve (path : HostPath) : List Bytes := path.filter (· ≠ [])

example : splitString slash [slash, 0x61, slash, slash, 0x62] = [[], [0x61], [], [0x62]] := by decide

end Karphin.IOS.FS

/-!
# The file system table

The tree of the metadata, the lookup that makes the entries that are missing, and the file that the tree is kept in.
-/

namespace Karphin.IOS.FS

open Karphin.Lib

/-- `Mode`: 1 is `Read`, 2 is `Write`. -/
abbrev Mode := UInt8

def Mode.read : Mode := 1
def Mode.write : Mode := 2
def Mode.readWrite : Mode := 3

structure Modes where
  owner : Mode
  group : Mode
  other : Mode
  deriving DecidableEq

structure Metadata where
  uid : UInt32 := 0
  gid : UInt16 := 0
  attr : UInt8 := 0
  modes : Modes := ⟨0, 0, 0⟩
  isFile : Bool := false
  deriving DecidableEq

structure FstEntry where
  name : Bytes := []
  data : Metadata := {}
  children : List FstEntry := []

namespace FstEntry

def checkPermission (e : FstEntry) (callerUid : UInt32) (callerGid : UInt16) (requestedMode : Mode) : Bool :=
  if callerUid = 0 then true
  else
    let fileMode :=
      if e.data.uid = callerUid then e.data.modes.owner
      else if e.data.gid = callerGid then e.data.modes.group
      else e.data.modes.other
    requestedMode &&& fileMode = requestedMode

/-! ## Lookup -/

def fallback (name : Bytes) : FstEntry := { name, data := { modes := ⟨.readWrite, .readWrite, .readWrite⟩ } }

def child? (e : FstEntry) (name : Bytes) : Option FstEntry := e.children.find? (·.name = name)

def entryAt? : List Bytes → FstEntry → Option FstEntry
  | [], e => some e
  | name :: path, e => (e.child? name).bind (entryAt? path)

def alterChild (name : Bytes) (f : FstEntry → FstEntry) : List FstEntry → List FstEntry
  | [] => [f (fallback name)]
  | e :: es => if e.name = name then f e :: es else e :: alterChild name f es

def alter (f : FstEntry → FstEntry) : List Bytes → FstEntry → FstEntry
  | [], e => f e
  | name :: path, e => { e with children := alterChild name (alter f path) e.children }

def eraseChild (name : Bytes) (e : FstEntry) : FstEntry := { e with children := e.children.eraseP (·.name = name) }

/-! ## The file -/

def bigEndian (w v : Nat) : Bytes := (leBytes w v).reverse

def ofBigEndian (bytes : Bytes) : Nat := ofLeBytes bytes.reverse

def serializedSize : Nat := 0x20

/-- `SetName`: what does not fit is cut off. -/
def setName (name : Bytes) : Bytes := name.take maxFilenameLength ++ List.replicate (maxFilenameLength - name.length) 0

def getName (name : Bytes) : Bytes := name.takeWhile (· ≠ 0)

def serialize (e : FstEntry) : Bytes :=
  setName e.name ++ bigEndian 4 e.data.uid.toNat ++ bigEndian 2 e.data.gid.toNat ++ [if e.data.isFile then 1 else 0] ++
    [e.data.modes.owner, e.data.modes.group, e.data.modes.other] ++ [e.data.attr] ++
    -- padding and the unknown property
    [0] ++ bigEndian 4 0 ++ bigEndian 4 e.children.length

mutual
def collectEntries : FstEntry → Bytes
  | ⟨name, data, children⟩ => serialize ⟨name, data, children⟩ ++ collectChildren children

def collectChildren : List FstEntry → Bytes
  | [] => []
  | e :: es => collectEntries e ++ collectChildren es
end

def deserialize (bytes : Bytes) : FstEntry where
  name := getName (bytes.take 12)
  data := {
    uid := UInt32.ofNat (ofBigEndian ((bytes.drop 12).take 4))
    gid := UInt16.ofNat (ofBigEndian ((bytes.drop 16).take 2))
    isFile := bytes.getD 18 0 ≠ 0
    modes := ⟨bytes.getD 19 0, bytes.getD 20 0, bytes.getD 21 0⟩
    attr := bytes.getD 22 0 }

def numChildren (bytes : Bytes) : Nat := ofBigEndian ((bytes.drop 28).take 4)

def parseChildren (parse : Bytes → Option (FstEntry × Bytes)) : Nat → Bytes → Option (List FstEntry × Bytes)
  | 0, file => some ([], file)
  | n + 1, file =>
      match parse file with
      | none => none
      | some (child, file) =>
          match parseChildren parse n file with
          | none => none
          | some (children, file) => some (child :: children, file)

def parseEntry : (depths : Nat) → Bytes → Option (FstEntry × Bytes)
  | 0, _ => none
  | depths + 1, file =>
      if file.length < serializedSize then none
      else
        match parseChildren (parseEntry depths) (numChildren (file.take serializedSize)) (file.drop serializedSize) with
        | none => none
        | some (children, rest) => some ({ deserialize (file.take serializedSize) with children }, rest)

end FstEntry

end Karphin.IOS.FS
