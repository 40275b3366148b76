import Karphin.IOS.FS.HostBackend.Lemmas.Calls
import Karphin.Lib.Transition

/-!
# The table of the open files

A file that is opened is the one that its path names, as long as nothing that is open is removed, moved or replaced.
-/

namespace Karphin.IOS.FS.HostFileSystem

open Karphin.Lib FstEntry

variable {s s' s'' : HostFileSystem} {p : FstPointer} {path oldPath newPath : Bytes} {uid : UInt32} {gid : UInt16}

def Current (s : HostFileSystem) : Prop :=
  ∀ k file, s.openFiles k = some file → s.host.node k = some (.file file.object)

def NoneBelow (s : HostFileSystem) (hostPath : HostPath) : Prop :=
  ∀ k file, s.openFiles k = some file → ¬hostPath.resolve <+: k.resolve

def NoneAt (s : HostFileSystem) (hostPath : HostPath) : Prop :=
  ∀ k file, s.openFiles k = some file → k.resolve ≠ hostPath.resolve

theorem Current.of_nodes (h : s.Current) (hopen : ∀ k file, s'.openFiles k = some file → s.openFiles k = some file)
    (hnode : ∀ k file, s.openFiles k = some file → s.host.node k = some (.file file.object) →
      s'.host.node k = some (.file file.object)) : s'.Current :=
  fun k file hk => hnode k file (hopen k file hk) (h k file (hopen k file hk))

theorem Current.sameFiles (h : s.Current) (hfiles : SameFiles s s') : s'.Current := by
  apply h.of_nodes
  · rw [hfiles.openFiles]
    exact fun _ _ hk => hk
  · rw [hfiles.host]
    exact fun _ _ _ hnode => hnode

theorem Current.modifyEntry (h : s.Current) (p : FstPointer) (f : FstEntry → FstEntry) : (s.modifyEntry p f).Current :=
  h.sameFiles (sameFiles_modifyEntry s p f)

theorem Current.host {host : Host} (h : s.Current) (hnode : ∀ k file, s.openFiles k = some file →
    s.host.node k = some (.file file.object) → host.node k = some (.file file.object)) : { s with host }.Current :=
  fun k file hk => hnode k file hk (h k file hk)

/-! ## Saving -/

/-- The files that a save replaces are not open. -/
structure CanSave (s : HostFileSystem) : Prop where
  temp : s.NoneAt s.getTempFilename
  fst : s.NoneAt s.getFstFilePath

theorem CanSave.of_eq (h : s.CanSave) (hopen : s'.openFiles = s.openFiles) (hroot : s'.rootPath = s.rootPath) :
    s'.CanSave := by
  obtain ⟨htemp, hfst⟩ := h
  rw [NoneAt, getTempFilename] at htemp
  rw [NoneAt, getFstFilePath] at hfst
  constructor
  · rw [NoneAt, getTempFilename, hopen, hroot]
    exact htemp
  · rw [NoneAt, getFstFilePath, hopen, hroot]
    exact hfst

theorem Current.saveFst (h : s.Current) (hs : s.CanSave) : s.saveFst.Current := by
  rw [HostFileSystem.saveFst]
  split
  · exact h.host fun k file _ hnode => Host.node_writeFile hnode
  next hwritten =>
  apply h.host
  intro k file hk hnode
  have hnode' : (s.host.writeFile s.getTempFilename s.rootEntry.collectEntries).2.node k = some (.file file.object) :=
    Host.node_writeFile hnode
  obtain ⟨object, hobject⟩ := Host.writeFile_file (by simpa using hwritten)
  rw [Host.rename]
  split
  · next tree hrename =>
      have hsame := FileTree.node_rename_file hrename hobject (by rw [← Host.node, hnode']; simp) (hs.temp k file hk)
        (hs.fst k file hk)
      exact hsame.trans hnode'
  · exact hnode'

/-! ## Files and directories -/

theorem Current.created {attr : UInt8} {modes : Modes} {isFile : Bool} (h : s.Current) (hs : s.CanSave)
    (hcreated : Created s uid gid path attr modes isFile s') : s'.Current := by
  obtain ⟨parent, s₁, host, child, s₂, hparent, -, hhost, hchild, rfl⟩ := hcreated.done
  have hfiles₁ := getFstEntryForPath_sameFiles hparent
  have hfiles₂ := getFstEntryForPath_sameFiles hchild
  have hmade : { s₁ with host }.Current := by
    apply (h.sameFiles hfiles₁).host
    intro k file _ hnode
    rw [hfiles₁.host] at hnode
    cases isFile with
    | true =>
        rw [if_pos rfl] at hhost
        rw [show host = (s.host.createEmptyFile (s.buildFilename path).hostPath).2 by rw [hhost]]
        exact Host.node_writeFile hnode
    | false =>
        rw [if_neg (by simp)] at hhost
        rw [show host = (s.host.createDir (s.buildFilename path).hostPath).2 by rw [hhost]]
        exact Host.node_createDir hnode
  apply ((hmade.sameFiles hfiles₂).modifyEntry child _).saveFst
  have hentry := sameFiles_modifyEntry s₂ child fun _ =>
    { name := (splitPathAndBasename path).fileName, data := { uid, gid, attr, modes, isFile } }
  exact hs.of_eq (hentry.openFiles.trans (hfiles₂.openFiles.trans hfiles₁.openFiles))
    (hentry.rootPath.trans (hfiles₂.rootPath.trans hfiles₁.rootPath))

theorem Current.deleted (h : s.Current) (hs : s.CanSave) (hbelow : s.NoneBelow (s.buildFilename path).hostPath)
    (hdeleted : Deleted s path s') : s'.Current := by
  obtain ⟨parent, s₁, hparent, rfl⟩ := hdeleted.done
  have hfiles := getFstEntryForPath_sameFiles hparent
  have hgone : { s₁ with host := { s.host with
      tree := s.host.tree.remove (s.buildFilename path).hostPath.resolve } }.Current := by
    apply (h.sameFiles hfiles).host
    intro k file hk hnode
    rw [hfiles.host] at hnode
    rw [hfiles.openFiles] at hk
    exact (FileTree.node_remove_of_not (hbelow k file hk)).trans hnode
  apply (hgone.modifyEntry parent _).saveFst
  have hentry := sameFiles_modifyEntry { s₁ with host := { s.host with
      tree := s.host.tree.remove (s.buildFilename path).hostPath.resolve } } parent
    (eraseChild (splitPathAndBasename path).fileName)
  exact hs.of_eq (hentry.openFiles.trans hfiles.openFiles) (hentry.rootPath.trans hfiles.rootPath)

theorem Current.metadataSet {attr : UInt8} {modes : Modes} (h : s.Current) (hs : s.CanSave)
    (hset : MetadataSet s path uid gid attr modes s') : s'.Current := by
  obtain ⟨p, s₁, hlookup, ⟨-, -, -, -, rfl⟩ | rfl⟩ := hset.done
  · exact h.sameFiles (getFstEntryForPath_sameFiles hlookup)
  · have hfiles := getFstEntryForPath_sameFiles hlookup
    apply ((h.sameFiles hfiles).modifyEntry p _).saveFst
    have hentry := sameFiles_modifyEntry s₁ p fun e => { e with data := { e.data with gid, uid, attr, modes } }
    exact hs.of_eq (hentry.openFiles.trans hfiles.openFiles) (hentry.rootPath.trans hfiles.rootPath)

/-! ## Renaming -/

theorem node_moved {h host : Host} {old new k : HostPath} {tree : FileTree Bytes} {n : Node}
    (hclear : clearTarget h old new = some host) (hrename : host.tree.rename old.resolve new.resolve = some tree)
    (hold : ¬old.resolve <+: k.resolve) (hnew : ¬new.resolve <+: k.resolve) (hnode : h.node k = some n) :
    tree.node k.resolve = some n := by
  have hkept : host.node k = some n := by
    rcases (clearTarget_some hclear).2 with ⟨-, rfl⟩ | ⟨-, -, rfl⟩
    · exact hnode
    · exact (FileTree.node_remove_of_not hnew).trans hnode
  exact (FileTree.node_rename_of_not hrename hold hnew).trans hkept

theorem Current.renamed {oldParent : FstPointer} {s₁ : HostFileSystem} (h : s.Current) (hs : s.CanSave) (hold : s.NoneBelow (s.buildFilename oldPath).hostPath)
    (hnew : s.NoneBelow (s.buildFilename newPath).hostPath) (hrenamed : Renamed s oldPath newPath oldParent s₁ s') :
    s'.Current := by
  obtain ⟨host, tree, newEntry, s₂, hclear, hrename, hentry, rfl⟩ := hrenamed.done
  have hfiles₁ := hrenamed.checked.lookups.sameFiles
  have hfiles₂ := getFstEntryForPath_sameFiles hentry
  have hmoved : { s₁ with host := { host with tree } }.Current := by
    apply (h.sameFiles hfiles₁).host
    intro k file hk hnode
    rw [hfiles₁.openFiles] at hk
    rw [hfiles₁.host] at hnode
    exact node_moved hclear hrename (hold k file hk) (hnew k file hk) hnode
  have hmove := sameFiles_moveEntry s₂ oldParent newEntry (splitPathAndBasename oldPath).fileName
    (splitPathAndBasename newPath).fileName
  apply ((hmoved.sameFiles hfiles₂).sameFiles hmove).saveFst
  exact hs.of_eq (hmove.openFiles.trans (hfiles₂.openFiles.trans hfiles₁.openFiles))
    (hmove.rootPath.trans (hfiles₂.rootPath.trans hfiles₁.rootPath))

theorem Current.cleared {oldParent : FstPointer} {s₁ : HostFileSystem} (h : s.Current)
    (hnew : s.NoneBelow (s.buildFilename newPath).hostPath) (hcleared : Cleared s oldPath newPath oldParent s₁ s') :
    s'.Current := by
  obtain ⟨host, hclear, -, rfl⟩ := hcleared.done
  have hfiles := hcleared.checked.lookups.sameFiles
  apply (h.sameFiles hfiles).host
  intro k file hk hnode
  rw [hfiles.openFiles] at hk
  rw [hfiles.host] at hnode
  rcases (clearTarget_some hclear).2 with ⟨-, rfl⟩ | ⟨-, -, rfl⟩
  · exact hnode
  · exact (FileTree.node_remove_of_not (hnew k file hk)).trans hnode

/-! ## Handles -/

theorem Current.resetHandle (h : s.Current) (fd : Fin numHandles) : (s.resetHandle fd).Current := by
  rw [HostFileSystem.resetHandle]
  split
  · exact h
  split
  · exact h
  · next file _ _ =>
      intro k file' hk
      simp only at hk
      by_cases heq : k = file.hostPath
      · subst heq
        rw [Function.update_self] at hk
        cases hk
      · rw [Function.update_of_ne heq] at hk
        exact h k file' hk

theorem openHostFile_some {hostPath : HostPath} {file : IOFile} (h : s.Current)
    (hopen : s.openHostFile hostPath = (some file, s')) :
    s'.Current ∧ s'.host = s.host ∧ s'.handles = s.handles ∧ s.host.node hostPath = some (.file file.object) := by
  rw [openHostFile] at hopen
  split at hopen
  · next file' hfile =>
      cases hopen
      exact ⟨h, rfl, rfl, h hostPath file hfile⟩
  · split at hopen
    · next object hnode =>
        cases hopen
        refine ⟨?_, rfl, rfl, hnode⟩
        intro k file' hk
        simp only at hk
        by_cases heq : k = hostPath
        · subst heq
          rw [Function.update_self] at hk
          cases hk
          exact hnode
        · rw [Function.update_of_ne heq] at hk
          exact h k file' hk
    · cases hopen

theorem assignFreeHandle_some {fd : Fin numHandles} (h : s.Current) (hassign : s.assignFreeHandle = some (fd, s')) :
    s'.Current ∧ s'.host = s.host ∧ ∀ path, s'.buildFilename path = s.buildFilename path := by
  rw [assignFreeHandle, Option.map_eq_some_iff] at hassign
  obtain ⟨fd, -, heq⟩ := hassign
  cases heq
  have hreset := h.resetHandle fd
  refine ⟨hreset, ?_, ?_⟩
  · rw [HostFileSystem.resetHandle]
    split
    · rfl
    · split <;> rfl
  · intro path
    rw [HostFileSystem.resetHandle]
    split
    · rfl
    · split <;> rfl

structure Opened (s : HostFileSystem) (path : Bytes) (mode : Mode) (fd : Nat) (s' : HostFileSystem) : Prop where
  host : s'.host = s.host
  done : ∃ (file : IOFile) (i : Fin numHandles), i = fd ∧
    s.host.node (s.buildFilename path).hostPath = some (.file file.object) ∧
    s'.openHandle fd = some (i, { opened := true, mode, wiiPath := path, hostFile := some file, fileOffset := 0 }, file)

theorem openFile_cases {mode : Mode} {r : Except ResultCode Nat × HostFileSystem} (h : s.Current)
    (hr : s.openFile path mode = r) : r.2.Current ∧ ∀ fd, r.1 = .ok fd → Opened s path mode fd r.2 := by
  rw [openFile] at hr
  cases hassign : s.assignFreeHandle with
  | none =>
      rw [hassign] at hr
      subst hr
      exact ⟨h, nofun⟩
  | some assigned =>
      obtain ⟨i, s₁⟩ := assigned
      obtain ⟨h₁, hhost₁, hbuild₁⟩ := assignFreeHandle_some h hassign
      simp only [hassign] at hr
      split at hr
      · subst hr
        exact ⟨h₁.resetHandle i, nofun⟩
      split at hr
      · subst hr
        exact ⟨h₁.resetHandle i, nofun⟩
      cases hopen : s₁.openHostFile (s₁.buildFilename path).hostPath with
      | mk file s₂ =>
          rw [hopen] at hr
          cases file with
          | none =>
              simp only at hr
              subst hr
              rw [openHostFile_none hopen]
              exact ⟨h₁.resetHandle i, nofun⟩
          | some file =>
              obtain ⟨h₂, hhost₂, -, hnode⟩ := openHostFile_some h₁ hopen
              simp only at hr
              subst hr
              refine ⟨h₂, ?_⟩
              intro fd hfd
              cases hfd
              rw [hhost₁, hbuild₁] at hnode
              exact ⟨hhost₂.trans hhost₁, file, i, rfl, hnode, openHandle_setHandle rfl rfl⟩

/-! ## Runs -/

def step (s : HostFileSystem) (c : Call) : Option HostFileSystem := some (s.call c).2

/-- The handles that the file system looks for before it removes a path do not show that it is in use. -/
def Unseen (s : HostFileSystem) (path : Bytes) : Prop :=
  if s.host.isFile (s.buildFilename path).hostPath then s.isFileOpened path = false else s.isDirectoryInUse path = false

def Keeps (s : HostFileSystem) : Call → Prop
  | .createFile .. => s.CanSave
  | .createDirectory .. => s.CanSave
  | .setMetadata .. => s.CanSave
  | .delete _ _ path => s.CanSave ∧ (s.Unseen path → s.NoneBelow (s.buildFilename path).hostPath)
  | .rename uid gid oldPath newPath => s.CanSave ∧
      ((∃ oldParent, (s.renameChecks uid gid oldPath newPath).1 = .ok oldParent) →
        s.host.isFile (s.buildFilename oldPath).hostPath = s.host.isFile (s.buildFilename newPath).hostPath ∨
          s.host.exists (s.buildFilename newPath).hostPath = false →
        s.NoneBelow (s.buildFilename oldPath).hostPath ∧ s.NoneBelow (s.buildFilename newPath).hostPath)
  | _ => True

theorem Deleted.unseen (h : Deleted s path s') : s.Unseen path := by
  rw [Unseen]
  rcases h.unused with ⟨hfile, hopened⟩ | ⟨hdir, huse⟩
  · rw [if_pos hfile]
    exact hopened
  · rw [if_neg]
    · exact huse
    · intro hfile
      rw [Host.isDirectory_of_isFile hfile] at hdir
      cases hdir

theorem Current.delete (h : s.Current) (hs : s.Keeps (.delete uid gid path)) : (s.delete uid gid path).2.Current := by
  rcases delete_cases rfl with ⟨-, hlooked⟩ | ⟨-, hdeleted⟩
  · exact h.sameFiles hlooked.sameFiles
  · exact h.deleted hs.1 (hs.2 hdeleted.unseen) hdeleted

theorem clearTarget_type {h host : Host} {old new : HostPath} (hclear : clearTarget h old new = some host) :
    h.isFile old = h.isFile new ∨ h.exists new = false := by
  rcases (clearTarget_some hclear).2 with ⟨hnone, -⟩ | ⟨-, hsame, -⟩
  · exact .inr (Host.exists_eq_false.mpr hnone)
  · exact .inl hsame

theorem Current.rename (h : s.Current) (hs : s.Keeps (.rename uid gid oldPath newPath)) :
    (s.rename uid gid oldPath newPath).2.Current := by
  rcases rename_cases rfl with ⟨-, hlooked⟩ | ⟨oldParent, s₁, hchecks, hdone⟩
  · exact h.sameFiles hlooked.sameFiles
  have hok : ∃ oldParent, (s.renameChecks uid gid oldPath newPath).1 = .ok oldParent := ⟨oldParent, by rw [hchecks]⟩
  rcases hdone with ⟨-, hcleared⟩ | ⟨-, hrenamed⟩
  · obtain ⟨_, hclear, -, -⟩ := hcleared.done
    exact h.cleared (hs.2 hok (clearTarget_type hclear)).2 hcleared
  · obtain ⟨_, _, _, _, hclear, -, -, -⟩ := hrenamed.done
    obtain ⟨hold, hnew⟩ := hs.2 hok (clearTarget_type hclear)
    exact h.renamed hs.1 hold hnew hrenamed

theorem Current.createFileOrDirectory {attr : UInt8} {modes : Modes} {isFile : Bool} (h : s.Current) (hs : s.CanSave) :
    (s.createFileOrDirectory uid gid path attr modes isFile).2.Current := by
  rcases createFileOrDirectory_cases rfl with ⟨-, hlooked⟩ | ⟨-, hcreated⟩
  · exact h.sameFiles hlooked.sameFiles
  · exact h.created hs hcreated

theorem Current.call {c : Call} (h : s.Current) (hs : s.Keeps c) : (s.call c).2.Current := by
  cases c with
  | openFile path mode => exact (openFile_cases h rfl).1
  | close fd =>
      rw [HostFileSystem.call, close]
      split
      · exact h
      · exact h.resetHandle _
  | readBytesFromFile fd count =>
      rw [HostFileSystem.call, readBytesFromFile]
      split
      · exact h
      · split
        · exact h
        · exact h
  | writeBytesToFile fd data =>
      rw [HostFileSystem.call, writeBytesToFile]
      split
      · exact h
      · split
        · exact h
        · exact h
  | seekFile fd offset mode =>
      rw [HostFileSystem.call, seekFile]
      split
      · exact h
      · simp only
        split
        · exact h
        · split
          · exact h
          · exact h
  | createFile uid gid path attr modes => exact h.createFileOrDirectory hs
  | createDirectory uid gid path attr modes => exact h.createFileOrDirectory hs
  | delete uid gid path => exact h.delete hs
  | rename uid gid oldPath newPath => exact h.rename hs
  | setMetadata callerUid path uid gid attr modes =>
      rcases setMetadata_cases rfl with ⟨-, hlooked⟩ | ⟨-, hset⟩
      · exact h.sameFiles hlooked.sameFiles
      · exact h.metadataSet hs hset

theorem construct_openFiles (rootPath : HostPath) (nandRedirects : List NandRedirect) (host : Host) :
    (construct rootPath nandRedirects host).openFiles = fun _ => none := by
  rw [construct, loadFst]
  split
  · split <;> rfl
  · rfl

theorem noneOpen_construct {rootPath : HostPath} {nandRedirects : List NandRedirect} {host : Host} {k : HostPath}
    {file : IOFile} : (construct rootPath nandRedirects host).openFiles k ≠ some file := by
  rw [construct_openFiles]
  nofun

theorem current_construct (rootPath : HostPath) (nandRedirects : List NandRedirect) (host : Host) :
    (construct rootPath nandRedirects host).Current := fun _ _ hk => absurd hk noneOpen_construct

theorem canSave_construct (rootPath : HostPath) (nandRedirects : List NandRedirect) (host : Host) :
    (construct rootPath nandRedirects host).CanSave where
  temp _ _ hk := absurd hk noneOpen_construct
  fst _ _ hk := absurd hk noneOpen_construct

theorem Opened.read {mode : Mode} {fd : Nat} (h : Opened s path mode fd s') (hmode : mode &&& .read ≠ 0) :
    ∃ object, s.host.node (s.buildFilename path).hostPath = some (.file object) ∧
      ∀ count, (s.host.contents object).length < 2 ^ 32 →
        (s'.readBytesFromFile fd count).1 = .ok ((s.host.contents object).take count.toNat) := by
  obtain ⟨file, i, -, hnode, hopen⟩ := h.done
  refine ⟨file.object, hnode, ?_⟩
  intro count hlength
  simp only [readBytesFromFile, hopen, if_neg hmode, h.host, Except.ok.injEq]
  have hsize : (UInt32.ofNat (s.host.contents file.object).length).toNat = (s.host.contents file.object).length := by
    rw [UInt32.toNat_ofNat', Nat.mod_eq_of_lt hlength]
  split
  · next hlong =>
      rw [UInt32.lt_iff_toNat_lt, hsize] at hlong
      simp only [UInt32.add_zero] at hlong
      simp only [UInt32.toNat_zero, List.drop_zero, UInt32.sub_zero, hsize]
      rw [List.take_length, List.take_of_length_le (Nat.le_of_lt hlong)]
  · simp

/-! ## Main result -/

/-- As long as nothing that is open is removed, moved or replaced, a file that is opened is the one at its path. -/
theorem openFile_current {rootPath : HostPath} {nandRedirects : List NandRedirect} {host : Host}
    (hreach : Reach step Keeps (construct rootPath nandRedirects host) s) :
    s.Current ∧ ∀ path mode fd s', s.openFile path mode = (.ok fd, s') → Opened s path mode fd s' ∧
      (mode &&& .read ≠ 0 → ∃ object, s.host.node (s.buildFilename path).hostPath = some (.file object) ∧
        ∀ count, (s.host.contents object).length < 2 ^ 32 →
          (s'.readBytesFromFile fd count).1 = .ok ((s.host.contents object).take count.toNat)) := by
  have hcurrent : s.Current := by
    refine Reach.invariant Current (current_construct rootPath nandRedirects host) ?_ hreach
    intro s c s' h hkeeps hstep
    cases hstep
    exact h.call hkeeps
  refine ⟨hcurrent, ?_⟩
  intro path mode fd s' hopen
  have hopened := (openFile_cases hcurrent hopen).2 fd rfl
  exact ⟨hopened, hopened.read⟩

/-! ## One file -/

/-- A file is made, written, closed, and opened again. -/
theorem read_written : ∃ s, Reach step Keeps fresh s ∧ Opened s filePath .read 0 (s.openFile filePath .read).2 := by
  obtain ⟨s₁, hs₁⟩ : ∃ s₁, s₁ = (fresh.call (.createFile 0 0 filePath 0 anyone)).2 := ⟨_, rfl⟩
  obtain ⟨s₂, hs₂⟩ : ∃ s₂, s₂ = (s₁.call (.openFile filePath .readWrite)).2 := ⟨_, rfl⟩
  obtain ⟨s₃, hs₃⟩ : ∃ s₃, s₃ = (s₂.call (.writeBytesToFile 0 [1])).2 := ⟨_, rfl⟩
  obtain ⟨s₄, hs₄⟩ : ∃ s₄, s₄ = (s₃.call (.close 0)).2 := ⟨_, rfl⟩
  have hsave : fresh.Keeps (.createFile 0 0 filePath 0 anyone) := canSave_construct _ _ _
  have hreach : Reach step Keeps fresh s₄ := by
    apply Reach.tail _ trivial (congrArg some hs₄.symm)
    apply Reach.tail _ trivial (congrArg some hs₃.symm)
    apply Reach.tail _ trivial (congrArg some hs₂.symm)
    exact Reach.refl.tail hsave (congrArg some hs₁.symm)
  have hopen : (s₄.openFile filePath .read).1 = .ok 0 := by
    rw [hs₄, hs₃, hs₂, hs₁]
    decide +kernel
  exact ⟨s₄, hreach, ((openFile_current hreach).2 filePath .read 0 _ (Prod.ext hopen rfl)).1⟩

def otherPath : Bytes := dirPath ++ filePath

def renameOntoOpen : List Call :=
  [.createDirectory 0 0 dirPath 0 anyone, .createFile 0 0 otherPath 0 anyone, .createFile 0 0 filePath 0 anyone,
    .openFile otherPath .readWrite, .writeBytesToFile 0 [1], .close 0, .openFile filePath .read,
    .rename 0 0 otherPath filePath]

/-- What is opened then is the file that was replaced: it is empty, and the file at the path is not. -/
theorem rename_onto_open : ∃ s, run step fresh renameOntoOpen = some s ∧ ¬s.Current ∧
    (s.openFile filePath .read).1 = .ok 1 ∧ ((s.openFile filePath .read).2.readBytesFromFile 1 1).1 = .ok [] ∧
    s.host.getSize (s.buildFilename filePath).hostPath = 1 := by
  refine ⟨_, rfl, ?_, by decide +kernel, by decide +kernel, by decide +kernel⟩
  intro hcurrent
  have hfile := hcurrent [[0x77], [], [0x66]] { hostPath := [[0x77], [], [0x66]], object := 3 } (by decide +kernel)
  revert hfile
  decide +kernel

end Karphin.IOS.FS.HostFileSystem
