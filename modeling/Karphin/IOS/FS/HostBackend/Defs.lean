import Karphin.IOS.FS.Fst
import Karphin.Lib.FileTree

/-!
# The host backend of the file system

The operations of `HostFileSystem` over the files of a host that behaves as POSIX says.
-/

namespace Karphin.IOS.FS

open Karphin.Lib

/-! ## The host -/

/-- The tree of the host, and the bytes of each file object, which outlive the name of the file. -/
structure Host where
  tree : FileTree Bytes
  contents : Nat → Bytes

namespace Host

def node (h : Host) (path : HostPath) : Option Node := h.tree.node path.resolve

def «exists» (h : Host) (path : HostPath) : Bool := (h.node path).isSome

def isDirectory (h : Host) (path : HostPath) : Bool := (h.node path).any (·.isDir)

def isFile (h : Host) (path : HostPath) : Bool := (h.node path).any (!·.isDir)

def getSize (h : Host) (path : HostPath) : Nat :=
  match h.node path with
  | some (.file object) => (h.contents object).length
  | _ => 0

def setContents (h : Host) (object : Nat) (bytes : Bytes) : Host :=
  { h with contents := Function.update h.contents object bytes }

/-- `File::Delete`: a directory stays. -/
def delete (h : Host) (path : HostPath) : Bool × Host :=
  if !h.exists path then (true, h)
  else if h.isDirectory path then (false, h)
  else (true, { h with tree := h.tree.remove path.resolve })

def deleteDirRecursively (h : Host) (path : HostPath) : Bool × Host :=
  (h.exists path, { h with tree := h.tree.remove path.resolve })

def createDir (h : Host) (path : HostPath) : Bool × Host :=
  match h.tree.createDir path.resolve with
  | some tree => (true, { h with tree })
  | none => (h.isDirectory path, h)

/-- `File::CreateFullPath`: the directories on the way to a path, and the last one. -/
def createFullPath (h : Host) (path : HostPath) : Host :=
  path.resolve.inits.foldl (fun h dir => (h.createDir dir).2) h

/-- A file is opened for writing, and all of it is written: what was in it is gone. -/
def writeFile (h : Host) (path : HostPath) (bytes : Bytes) : Bool × Host :=
  match h.node path with
  | some .dir => (false, h)
  | some (.file object) => (true, h.setContents object bytes)
  | none =>
      match h.tree.createFile path.resolve with
      | some tree => (true, { h with tree }.setContents h.tree.next bytes)
      | none => (false, h)

def createEmptyFile (h : Host) (path : HostPath) : Bool × Host := h.writeFile path []

def rename (h : Host) (src dest : HostPath) : Bool × Host :=
  match h.tree.rename src.resolve dest.resolve with
  | some tree => (true, { h with tree })
  | none => (false, h)

def copyRegularFile (h : Host) (src dest : HostPath) : Bool × Host :=
  match h.node src with
  | some (.file object) => if src.resolve = dest.resolve then (false, h) else h.writeFile dest (h.contents object)
  | _ => (false, h)

end Host

/-! ## The state -/

inductive ResultCode
  | success
  | invalid
  | accessDenied
  | alreadyExists
  | notFound
  | noFreeHandle
  | tooManyPathComponents
  | inUse
  | fileNotEmpty
  | unknownError
  deriving DecidableEq

structure NandRedirect where
  sourcePath : Bytes
  targetPath : HostPath

/-- An open file of the host; the handles on one path share it. -/
structure IOFile where
  hostPath : HostPath
  object : Nat
  deriving DecidableEq

structure Handle where
  opened : Bool := false
  mode : Mode := 0
  wiiPath : Bytes := []
  hostFile : Option IOFile := none
  fileOffset : UInt32 := 0

def numHandles : Nat := 16

/-- `openFiles` is the table of the open files, by their path on the host. A file is in it as long as a handle has it. -/
structure HostFileSystem where
  rootPath : HostPath
  nandRedirects : List NandRedirect := []
  rootEntry : FstEntry := {}
  redirectFst : FstEntry := {}
  openFiles : HostPath → Option IOFile := fun _ => none
  handles : Vector Handle numHandles := Vector.replicate numHandles {}
  host : Host

structure HostFilename where
  hostPath : HostPath
  isRedirect : Bool

structure FstPointer where
  isRedirect : Bool
  path : List Bytes

namespace HostFileSystem

def matchesRedirect (wiiPath : Bytes) (redirect : NandRedirect) : Bool :=
  redirect.sourcePath.isPrefixOf wiiPath &&
    (wiiPath.length = redirect.sourcePath.length || wiiPath[redirect.sourcePath.length]? = some slash)

def buildFilename (s : HostFileSystem) (wiiPath : Bytes) : HostFilename :=
  match s.nandRedirects.find? (matchesRedirect wiiPath) with
  | some redirect => ⟨redirect.targetPath ++ escapePath (wiiPath.drop redirect.sourcePath.length), true⟩
  | none => if wiiPath.head? = some slash then ⟨s.rootPath ++ escapePath wiiPath, false⟩ else ⟨s.rootPath, false⟩

/-! ## The file system table -/

def fst (s : HostFileSystem) (isRedirect : Bool) : FstEntry := if isRedirect then s.redirectFst else s.rootEntry

def setFst (s : HostFileSystem) (isRedirect : Bool) (e : FstEntry) : HostFileSystem :=
  if isRedirect then { s with redirectFst := e } else { s with rootEntry := e }

def entry (s : HostFileSystem) (p : FstPointer) : FstEntry := ((s.fst p.isRedirect).entryAt? p.path).getD {}

def modifyEntry (s : HostFileSystem) (p : FstPointer) (f : FstEntry → FstEntry) : HostFileSystem :=
  s.setFst p.isRedirect ((s.fst p.isRedirect).alter f p.path)

def fstName : Bytes := [0x66, 0x73, 0x74, 0x2e, 0x62, 0x69, 0x6e]

def tempSuffix : Bytes := [0x2e, 0x78, 0x78, 0x78]

def getFstFilePath (s : HostFileSystem) : HostPath := s.rootPath ++ [fstName]

def getTempFilename (s : HostFileSystem) : HostPath := s.rootPath ++ [fstName ++ tempSuffix]

def resetRoot : FstEntry := { name := [slash], data := { modes := ⟨0, .read, .read⟩ } }

def resetFst (s : HostFileSystem) : HostFileSystem := { s with rootEntry := resetRoot }

def loadFst (s : HostFileSystem) : HostFileSystem :=
  match s.host.node s.getFstFilePath with
  | some (.file object) =>
      match FstEntry.parseEntry (maxPathDepth + 1) (s.host.contents object) with
      | some (root, _) => { s with rootEntry := root }
      | none => s
  | _ => s

def saveFst (s : HostFileSystem) : HostFileSystem :=
  let written := s.host.writeFile s.getTempFilename s.rootEntry.collectEntries
  if !written.1 then { s with host := written.2 }
  else { s with host := (written.2.rename s.getTempFilename s.getFstFilePath).2 }

def construct (rootPath : HostPath) (nandRedirects : List NandRedirect) (host : Host) : HostFileSystem :=
  ({ rootPath, nandRedirects, host := host.createFullPath rootPath } : HostFileSystem).resetFst.loadFst

def refresh (isFile : Bool) (e : FstEntry) : FstEntry :=
  { e with data := { e.data with isFile }, children := if isFile then [] else e.children }

def getFstEntryForPath (s : HostFileSystem) (path : Bytes) : Option (FstPointer × HostFileSystem) :=
  if path = [slash] then some (⟨false, []⟩, s)
  else if !isValidNonRootPath path then none
  else
    let hostFile := s.buildFilename path
    if !s.host.exists hostFile.hostPath then none
    else
      let p : FstPointer := ⟨hostFile.isRedirect, splitString slash (path.drop 1)⟩
      some (p, s.modifyEntry p (refresh (s.host.isFile hostFile.hostPath)))

/-! ## Files and directories -/

def createFileOrDirectory (s : HostFileSystem) (uid : UInt32) (gid : UInt16) (path : Bytes) (attr : UInt8)
    (modes : Modes) (isFile : Bool) : ResultCode × HostFileSystem :=
  if !isValidNonRootPath path || !path.all isPrintableCharacter then (.invalid, s)
  else if !isFile && maxPathDepth < path.count slash then (.tooManyPathComponents, s)
  else
    let splitPath := splitPathAndBasename path
    let hostPath := (s.buildFilename path).hostPath
    match s.getFstEntryForPath splitPath.parent with
    | none => (.notFound, s)
    | some (parent, s) =>
        if !(s.entry parent).checkPermission uid gid .write then (.accessDenied, s)
        else if s.host.exists hostPath then (.alreadyExists, s)
        else
          let created := if isFile then s.host.createEmptyFile hostPath else s.host.createDir hostPath
          let s := { s with host := created.2 }
          if !created.1 then (.unknownError, s)
          else
            -- the path exists now, so there is an entry
            match s.getFstEntryForPath path with
            | none => (.unknownError, s)
            | some (child, s) =>
                let data : Metadata := { uid, gid, attr, modes, isFile }
                (.success, (s.modifyEntry child fun _ => { name := splitPath.fileName, data }).saveFst)

def createFile (s : HostFileSystem) (uid : UInt32) (gid : UInt16) (path : Bytes) (attr : UInt8) (modes : Modes) :
    ResultCode × HostFileSystem := s.createFileOrDirectory uid gid path attr modes true

def createDirectory (s : HostFileSystem) (uid : UInt32) (gid : UInt16) (path : Bytes) (attr : UInt8) (modes : Modes) :
    ResultCode × HostFileSystem := s.createFileOrDirectory uid gid path attr modes false

def isFileOpened (s : HostFileSystem) (path : Bytes) : Bool :=
  s.handles.toList.any fun handle => handle.opened && handle.wiiPath = path

def isDirectoryInUse (s : HostFileSystem) (path : Bytes) : Bool :=
  s.handles.toList.any fun handle => handle.opened && path.isPrefixOf handle.wiiPath

def delete (s : HostFileSystem) (uid : UInt32) (gid : UInt16) (path : Bytes) : ResultCode × HostFileSystem :=
  if !isValidNonRootPath path then (.invalid, s)
  else
    let hostPath := (s.buildFilename path).hostPath
    let splitPath := splitPathAndBasename path
    match s.getFstEntryForPath splitPath.parent with
    | none => (.notFound, s)
    | some (parent, s) =>
        if !(s.entry parent).checkPermission uid gid .write then (.accessDenied, s)
        else if !s.host.exists hostPath then (.notFound, s)
        else if s.host.isFile hostPath && !s.isFileOpened path then
          let s := { s with host := (s.host.delete hostPath).2 }
          (.success, (s.modifyEntry parent (FstEntry.eraseChild splitPath.fileName)).saveFst)
        else if s.host.isDirectory hostPath && !s.isDirectoryInUse path then
          let s := { s with host := (s.host.deleteDirRecursively hostPath).2 }
          (.success, (s.modifyEntry parent (FstEntry.eraseChild splitPath.fileName)).saveFst)
        else (.inUse, s)

/-- What `Rename` checks before it changes the host: the error, or where the parents and the entry are. -/
def renameChecks (s : HostFileSystem) (uid : UInt32) (gid : UInt16) (oldPath newPath : Bytes) :
    Except ResultCode FstPointer × HostFileSystem :=
  if !isValidNonRootPath oldPath || !isValidNonRootPath newPath then (.error .invalid, s)
  else
    let splitOldPath := splitPathAndBasename oldPath
    let splitNewPath := splitPathAndBasename newPath
    match s.getFstEntryForPath splitOldPath.parent with
    | none =>
        match s.getFstEntryForPath splitNewPath.parent with
        | none => (.error .notFound, s)
        | some (_, s) => (.error .notFound, s)
    | some (oldParent, s) =>
        match s.getFstEntryForPath splitNewPath.parent with
        | none => (.error .notFound, s)
        | some (newParent, s) =>
            if !(s.entry oldParent).checkPermission uid gid .write || !(s.entry newParent).checkPermission uid gid .write
            then (.error .accessDenied, s)
            else
              match s.getFstEntryForPath oldPath with
              | none => (.error .notFound, s)
              | some (entry, s) =>
                  let isFile := (s.entry entry).data.isFile
                  -- the name of a file cannot change
                  if isFile && splitOldPath.fileName ≠ splitNewPath.fileName then (.error .invalid, s)
                  else if (!isFile && s.isDirectoryInUse oldPath) || (isFile && s.isFileOpened oldPath) then
                    (.error .inUse, s)
                  else (.ok oldParent, s)

def clearTarget (h : Host) (oldPath newPath : HostPath) : Option Host :=
  if !h.exists newPath then some h
  else
    let oldIsFile := h.isFile oldPath
    let newIsFile := h.isFile newPath
    if oldIsFile && newIsFile then some (h.delete newPath).2
    else if !oldIsFile && !newIsFile then some (h.deleteDirRecursively newPath).2
    else none

def moveOnHost (h : Host) (oldInfo newInfo : HostFilename) : ResultCode × Host :=
  let renamed := h.rename oldInfo.hostPath newInfo.hostPath
  if renamed.1 then (.success, renamed.2)
  else if oldInfo.isRedirect || newInfo.isRedirect then
    let copied := renamed.2.copyRegularFile oldInfo.hostPath newInfo.hostPath
    if !copied.1 then (.notFound, copied.2)
    else
      let deleted := copied.2.delete oldInfo.hostPath
      if !deleted.1 then (.invalid, deleted.2) else (.success, deleted.2)
  else (.notFound, renamed.2)

def moveEntry (s : HostFileSystem) (oldParent newEntry : FstPointer) (oldName newName : Bytes) : HostFileSystem :=
  let s := s.modifyEntry newEntry fun e => { e with name := newName }
  match (s.entry oldParent).child? oldName with
  | none => s
  | some it =>
      let s := s.modifyEntry newEntry fun e => { e with data := it.data, children := it.children }
      s.modifyEntry oldParent (FstEntry.eraseChild oldName)

def rename (s : HostFileSystem) (uid : UInt32) (gid : UInt16) (oldPath newPath : Bytes) :
    ResultCode × HostFileSystem :=
  match s.renameChecks uid gid oldPath newPath with
  | (.error code, s) => (code, s)
  | (.ok oldParent, s) =>
      let oldInfo := s.buildFilename oldPath
      let newInfo := s.buildFilename newPath
      match clearTarget s.host oldInfo.hostPath newInfo.hostPath with
      | none => (.invalid, s)
      | some host =>
          let moved := moveOnHost host oldInfo newInfo
          let s := { s with host := moved.2 }
          if moved.1 ≠ .success then (moved.1, s)
          else
            -- the new path exists now, so there is an entry
            match s.getFstEntryForPath newPath with
            | none => (.unknownError, s)
            | some (newEntry, s) =>
                (.success, (s.moveEntry oldParent newEntry (splitPathAndBasename oldPath).fileName
                  (splitPathAndBasename newPath).fileName).saveFst)

def setMetadata (s : HostFileSystem) (callerUid : UInt32) (path : Bytes) (uid : UInt32) (gid : UInt16) (attr : UInt8)
    (modes : Modes) : ResultCode × HostFileSystem :=
  if !isValidPath path then (.invalid, s)
  else
    match s.getFstEntryForPath path with
    | none => (.notFound, s)
    | some (p, s) =>
        let data := (s.entry p).data
        if callerUid ≠ 0 ∧ callerUid ≠ data.uid then (.accessDenied, s)
        else if callerUid ≠ 0 ∧ uid ≠ data.uid then (.accessDenied, s)
        else
          let isEmpty := s.host.getSize (s.buildFilename path).hostPath = 0
          if data.uid ≠ uid ∧ data.isFile ∧ ¬isEmpty then (.fileNotEmpty, s)
          else if data.gid ≠ gid ∨ data.uid ≠ uid ∨ data.attr ≠ attr ∨ data.modes ≠ modes then
            (.success, (s.modifyEntry p fun e => { e with data := { e.data with gid, uid, attr, modes } }).saveFst)
          else (.success, s)

end HostFileSystem

end Karphin.IOS.FS

/-!
## Open files

The handles, the table of the open files that the handles share, and the calls of a game.
-/

namespace Karphin.IOS.FS

open Karphin.Lib

inductive SeekMode
  | set
  | current
  | «end»
  | other

namespace Host

def writeAt (bytes : Bytes) (offset : Nat) (data : Bytes) : Bytes :=
  if data = [] then bytes else bytes.takeD offset 0 ++ data ++ bytes.drop (offset + data.length)

end Host

namespace HostFileSystem

/-! ## Handles -/

/-- `*handle = Handle{}`: when no other handle has the file, it is closed and taken from the table. -/
def resetHandle (s : HostFileSystem) (fd : Fin numHandles) : HostFileSystem :=
  let handles := s.handles.set fd {}
  match (s.handles.get fd).hostFile with
  | none => { s with handles }
  | some file =>
      if handles.toList.any fun handle => handle.hostFile = some file then { s with handles }
      else { s with handles, openFiles := Function.update s.openFiles file.hostPath none }

def assignFreeHandle (s : HostFileSystem) : Option (Fin numHandles × HostFileSystem) :=
  ((List.finRange numHandles).find? fun fd => !(s.handles.get fd).opened).map fun fd =>
    let s := s.resetHandle fd
    (fd, { s with handles := s.handles.set fd { opened := true } })

def getHandleFromFd (s : HostFileSystem) (fd : Nat) : Option (Fin numHandles × Handle) :=
  if h : fd < numHandles then
    let handle := s.handles.get ⟨fd, h⟩
    if handle.opened then some (⟨fd, h⟩, handle) else none
  else none

def setHandle (s : HostFileSystem) (fd : Fin numHandles) (handle : Handle) : HostFileSystem :=
  { s with handles := s.handles.set fd handle }

/-! ## Files -/

def openHostFile (s : HostFileSystem) (hostPath : HostPath) : Option IOFile × HostFileSystem :=
  match s.openFiles hostPath with
  | some file => (some file, s)
  | none =>
      match s.host.node hostPath with
      | some (.file object) =>
          let file : IOFile := { hostPath, object }
          (some file, { s with openFiles := Function.update s.openFiles hostPath (some file) })
      | _ => (none, s)

def openFile (s : HostFileSystem) (path : Bytes) (mode : Mode) : Except ResultCode Nat × HostFileSystem :=
  match s.assignFreeHandle with
  | none => (.error .noFreeHandle, s)
  | some (fd, s) =>
      let hostPath := (s.buildFilename path).hostPath
      if s.host.isDirectory hostPath then (.error .invalid, s.resetHandle fd)
      else if !s.host.isFile hostPath then (.error .notFound, s.resetHandle fd)
      else
        match s.openHostFile hostPath with
        | (none, s) => (.error .accessDenied, s.resetHandle fd)
        | (some file, s) =>
            (.ok fd, s.setHandle fd { opened := true, mode, wiiPath := path, hostFile := some file, fileOffset := 0 })

def close (s : HostFileSystem) (fd : Nat) : ResultCode × HostFileSystem :=
  match s.getHandleFromFd fd with
  | none => (.invalid, s)
  | some (fd, _) => (.success, s.resetHandle fd)

def openHandle (s : HostFileSystem) (fd : Nat) : Option (Fin numHandles × Handle × IOFile) :=
  match s.getHandleFromFd fd with
  | none => none
  | some (fd, handle) => handle.hostFile.map fun file => (fd, handle, file)

def readBytesFromFile (s : HostFileSystem) (fd : Nat) (count : UInt32) : Except ResultCode Bytes × HostFileSystem :=
  match s.openHandle fd with
  | none => (.error .invalid, s)
  | some (fd, handle, file) =>
      if handle.mode &&& .read = 0 then (.error .accessDenied, s)
      else
        let bytes := s.host.contents file.object
        let fileSize := UInt32.ofNat bytes.length
        let count := if fileSize < count + handle.fileOffset then fileSize - handle.fileOffset else count
        let data := (bytes.drop handle.fileOffset.toNat).take count.toNat
        (.ok data, s.setHandle fd { handle with fileOffset := handle.fileOffset + UInt32.ofNat data.length })

def writeBytesToFile (s : HostFileSystem) (fd : Nat) (data : Bytes) : ResultCode × HostFileSystem :=
  match s.openHandle fd with
  | none => (.invalid, s)
  | some (fd, handle, file) =>
      if handle.mode &&& .write = 0 then (.accessDenied, s)
      else
        let bytes := Host.writeAt (s.host.contents file.object) handle.fileOffset.toNat data
        let s := { s with host := s.host.setContents file.object bytes }
        (.success, s.setHandle fd { handle with fileOffset := handle.fileOffset + UInt32.ofNat data.length })

def seekFile (s : HostFileSystem) (fd : Nat) (offset : UInt32) (mode : SeekMode) : ResultCode × HostFileSystem :=
  match s.openHandle fd with
  | none => (.invalid, s)
  | some (fd, handle, file) =>
      let size := (s.host.contents file.object).length
      let newPosition : Option UInt32 :=
        match mode with
        | .set => some offset
        | .current => some (handle.fileOffset + offset)
        | .end => some (UInt32.ofNat size + offset)
        | .other => none
      match newPosition with
      | none => (.invalid, s)
      | some position =>
          if size < position.toNat then (.invalid, s)
          else (.success, s.setHandle fd { handle with fileOffset := position })

/-! ## Calls -/

inductive Call
  | openFile (path : Bytes) (mode : Mode)
  | close (fd : Nat)
  | readBytesFromFile (fd : Nat) (count : UInt32)
  | writeBytesToFile (fd : Nat) (data : Bytes)
  | seekFile (fd : Nat) (offset : UInt32) (mode : SeekMode)
  | createFile (uid : UInt32) (gid : UInt16) (path : Bytes) (attr : UInt8) (modes : Modes)
  | createDirectory (uid : UInt32) (gid : UInt16) (path : Bytes) (attr : UInt8) (modes : Modes)
  | delete (uid : UInt32) (gid : UInt16) (path : Bytes)
  | rename (uid : UInt32) (gid : UInt16) (oldPath newPath : Bytes)
  | setMetadata (callerUid : UInt32) (path : Bytes) (uid : UInt32) (gid : UInt16) (attr : UInt8) (modes : Modes)

def resultCode {α : Type} : Except ResultCode α → ResultCode
  | .ok _ => .success
  | .error code => code

def call (s : HostFileSystem) : Call → ResultCode × HostFileSystem
  | .openFile path mode => ((s.openFile path mode).1 |> resultCode, (s.openFile path mode).2)
  | .close fd => s.close fd
  | .readBytesFromFile fd count => ((s.readBytesFromFile fd count).1 |> resultCode, (s.readBytesFromFile fd count).2)
  | .writeBytesToFile fd data => s.writeBytesToFile fd data
  | .seekFile fd offset mode => s.seekFile fd offset mode
  | .createFile uid gid path attr modes => s.createFile uid gid path attr modes
  | .createDirectory uid gid path attr modes => s.createDirectory uid gid path attr modes
  | .delete uid gid path => s.delete uid gid path
  | .rename uid gid oldPath newPath => s.rename uid gid oldPath newPath
  | .setMetadata callerUid path uid gid attr modes => s.setMetadata callerUid path uid gid attr modes

/-! ## A new file system -/

def fresh : HostFileSystem := construct [[0x77]] [] { tree := .bare, contents := fun _ => [] }

def filePath : Bytes := [slash, 0x66]
def dirPath : Bytes := [slash, 0x61]

def anyone : Modes := ⟨.readWrite, .readWrite, .readWrite⟩

end HostFileSystem

end Karphin.IOS.FS
