import Karphin.IOS.FS.HostBackend.Lemmas.Lookup

/-!
# Operations of the host
-/

namespace Karphin.IOS.FS.Host

open Karphin.Lib

variable {h : Host} {hostPath src dest : HostPath} {bytes : Bytes}

theorem writeFile_failed (hfailed : (h.writeFile hostPath bytes).1 = false) :
    (h.writeFile hostPath bytes).2 = h := by
  rw [Host.writeFile] at hfailed ⊢
  cases hnode : h.node hostPath with
  | some k =>
      rw [hnode] at hfailed
      cases k with
      | dir => rfl
      | file object => cases hfailed
  | none =>
      rw [hnode] at hfailed
      cases hcreated : h.tree.createFile hostPath.resolve with
      | none => rfl
      | some tree =>
          simp only [hcreated] at hfailed
          cases hfailed

theorem writeFile_file (hok : (h.writeFile hostPath bytes).1 = true) :
    ∃ object, (h.writeFile hostPath bytes).2.node hostPath = some (.file object) := by
  rw [writeFile] at hok ⊢
  cases hnode : h.node hostPath with
  | some k =>
      rw [hnode] at hok
      cases k with
      | dir => cases hok
      | file object => exact ⟨object, hnode⟩
  | none =>
      rw [hnode] at hok
      cases hcreated : h.tree.createFile hostPath.resolve with
      | none =>
          simp only [hcreated] at hok
          cases hok
      | some tree =>
          have hnew := (FileTree.createFile_some hcreated).2.2 hostPath.resolve
          rw [if_pos rfl] at hnew
          exact ⟨h.tree.next, hnew⟩

theorem writeFile_exists (hok : (h.writeFile hostPath bytes).1 = true) :
    (h.writeFile hostPath bytes).2.exists hostPath = true := by
  obtain ⟨object, hfile⟩ := writeFile_file hok
  rw [«exists», hfile]
  rfl

theorem createDir_failed (hfailed : (h.createDir hostPath).1 = false) :
    (h.createDir hostPath).2 = h := by
  rw [Host.createDir] at hfailed ⊢
  split at hfailed
  · cases hfailed
  · rfl

theorem createDir_exists (hok : (h.createDir hostPath).1 = true) :
    (h.createDir hostPath).2.exists hostPath = true := by
  rw [Host.createDir] at hok ⊢
  cases hcreated : h.tree.createDir hostPath.resolve with
  | some tree =>
      have hnew := (FileTree.createDir_some hcreated).2 hostPath.resolve
      rw [if_pos rfl] at hnew
      simp [Host.exists, Host.node, hnew]
  | none =>
      simp only [hcreated, Host.isDirectory] at hok
      exact Option.isSome_of_any hok

/-! ## Paths that exist stay -/

theorem node_setContents (h : Host) (object : Nat) (bytes : Bytes) (k : HostPath) :
    (h.setContents object bytes).node k = h.node k := rfl

theorem node_writeFile {k : HostPath} {n : Node} (hnode : h.node k = some n) :
    (h.writeFile hostPath bytes).2.node k = some n := by
  rw [writeFile]
  cases hpath : h.node hostPath with
  | some m =>
      cases m with
      | dir => exact hnode
      | file object => exact hnode
  | none =>
      cases hcreated : h.tree.createFile hostPath.resolve with
      | none => exact hnode
      | some tree =>
          have hne : k.resolve ≠ hostPath.resolve := by
            intro heq
            rw [node, heq] at hnode
            rw [node, hnode] at hpath
            cases hpath
          have hother := (FileTree.createFile_some hcreated).2.2 k.resolve
          rw [if_neg hne] at hother
          exact hother.trans hnode

theorem node_createDir {k : HostPath} {n : Node} (hnode : h.node k = some n) :
    (h.createDir hostPath).2.node k = some n := by
  rw [createDir]
  cases hcreated : h.tree.createDir hostPath.resolve with
  | none => exact hnode
  | some tree =>
      obtain ⟨hfree, hnodes⟩ := FileTree.createDir_some hcreated
      have hne : k.resolve ≠ hostPath.resolve := by
        intro heq
        rw [node, heq, hfree.1] at hnode
        cases hnode
      have hother := hnodes k.resolve
      rw [if_neg hne] at hother
      exact hother.trans hnode

/-! ## Directories that are new -/

theorem dir_of_writeFile {k : HostPath} (hdir : (h.writeFile hostPath bytes).2.node k = some .dir) :
    h.node k = some .dir := by
  rw [writeFile] at hdir
  cases hpath : h.node hostPath with
  | some n =>
      rw [hpath] at hdir
      cases n with
      | dir => exact hdir
      | file object => exact hdir
  | none =>
      rw [hpath] at hdir
      cases hcreated : h.tree.createFile hostPath.resolve with
      | none =>
          simp only [hcreated] at hdir
          exact hdir
      | some tree =>
          simp only [hcreated] at hdir
          have hnodes := (FileTree.createFile_some hcreated).2.2 k.resolve
          rw [node_setContents, node, hnodes] at hdir
          split at hdir
          · cases hdir
          · exact hdir

theorem dir_of_createDir {k : HostPath} (hdir : (h.createDir hostPath).2.node k = some .dir) :
    h.node k = some .dir ∨ k.resolve = hostPath.resolve := by
  rw [createDir] at hdir
  cases hcreated : h.tree.createDir hostPath.resolve with
  | none =>
      simp only [hcreated] at hdir
      exact .inl hdir
  | some tree =>
      simp only [hcreated] at hdir
      have hnodes := (FileTree.createDir_some hcreated).2 k.resolve
      rw [node, hnodes] at hdir
      split at hdir
      · next heq => exact .inr heq
      · exact .inl hdir

theorem exists_of_isFile (hfile : h.isFile hostPath = true) : h.exists hostPath = true := Option.isSome_of_any hfile

theorem isDirectory_of_isFile (hfile : h.isFile hostPath = true) : h.isDirectory hostPath = false := by
  rw [isFile] at hfile
  rw [isDirectory]
  cases hnode : h.node hostPath with
  | none => rfl
  | some k =>
      rw [hnode] at hfile
      simpa using hfile

theorem delete_file (hfile : h.isFile hostPath = true) :
    h.delete hostPath = (true, { h with tree := h.tree.remove hostPath.resolve }) := by
  simp [delete, exists_of_isFile hfile, isDirectory_of_isFile hfile]

theorem exists_eq_false : h.exists hostPath = false ↔ h.node hostPath = none := by
  rw [«exists», Option.isSome_eq_false_iff, Option.isNone_iff_eq_none]

/-! ## Moving to a path where nothing is -/

theorem copyRegularFile_of_rename (hdest : h.node dest = none) (hrename : h.tree.rename src.resolve dest.resolve = none) :
    h.copyRegularFile src dest = (false, h) := by
  rw [copyRegularFile]
  cases hsrc : h.node src with
  | none => rfl
  | some k =>
      cases k with
      | dir => rfl
      | file object =>
          simp only
          split
          · rfl
          next hne =>
          have hcreate : h.tree.createFile dest.resolve = none := by
            rw [FileTree.createFile, dif_neg]
            rintro ⟨-, hroot, hdir⟩
            -- only a move below the source itself is left, but the source is a file
            have hbelow : src.resolve <+: dest.resolve := by
              by_contra hpre
              obtain ⟨tree, htree, -⟩ := FileTree.rename_of_movable
                (⟨by rw [← node, hsrc]; simp, hpre, hroot, hdir, .inl hdest⟩ : h.tree.Movable src.resolve dest.resolve)
              rw [hrename] at htree
              cases htree
            have hparent : src.resolve <+: dest.resolve.dropLast := by
              rw [← List.dropLast_append_getLast hroot] at hbelow hne
              exact FileTree.prefix_append_singleton hbelow hne
            have hfile : h.tree.node src.resolve = some (.file object) := hsrc
            by_cases heq : dest.resolve.dropLast = src.resolve
            · rw [heq, hfile] at hdir
              cases hdir
            · have habove := FileTree.above (by rw [hdir]; simp) hparent heq
              rw [hfile] at habove
              cases habove
          simp only [writeFile, hdest, hcreate]

end Karphin.IOS.FS.Host

namespace Karphin.IOS.FS.HostFileSystem

open Karphin.Lib

variable {h h' : Host} {oldPath newPath : HostPath} {oldInfo newInfo : HostFilename}

theorem clearTarget_some (hclear : clearTarget h oldPath newPath = some h') : h'.node newPath = none ∧
    ((h.node newPath = none ∧ h' = h) ∨
      (h.node newPath ≠ none ∧ h.isFile oldPath = h.isFile newPath ∧
        h' = { h with tree := h.tree.remove newPath.resolve })) := by
  rw [clearTarget] at hclear
  split at hclear
  · next hfree =>
      cases hclear
      have hnone : h.node newPath = none := Host.exists_eq_false.mp (by simpa using hfree)
      exact ⟨hnone, .inl ⟨hnone, rfl⟩⟩
  · next hpresent =>
      have hsome : h.node newPath ≠ none := by
        intro hnone
        rw [Host.exists_eq_false.mpr hnone] at hpresent
        exact hpresent rfl
      simp only at hclear
      split at hclear
      · next hfiles =>
          cases hclear
          have hfiles' : h.isFile oldPath = true ∧ h.isFile newPath = true := by simpa using hfiles
          rw [Host.delete_file hfiles'.2]
          exact ⟨FileTree.node_remove_self _ _, .inr ⟨hsome, hfiles'.1.trans hfiles'.2.symm, rfl⟩⟩
      · split at hclear
        · next hdirs =>
            cases hclear
            have hdirs' : h.isFile oldPath = false ∧ h.isFile newPath = false := by simpa using hdirs
            exact ⟨FileTree.node_remove_self _ _, .inr ⟨hsome, hdirs'.1.trans hdirs'.2.symm, rfl⟩⟩
        · cases hclear

theorem moveOnHost_of_absent (hnone : h.node newInfo.hostPath = none) : moveOnHost h oldInfo newInfo =
    match h.tree.rename oldInfo.hostPath.resolve newInfo.hostPath.resolve with
    | some tree => (.success, { h with tree })
    | none => (.notFound, h) := by
  rw [moveOnHost, Host.rename]
  cases hrename : h.tree.rename oldInfo.hostPath.resolve newInfo.hostPath.resolve with
  | some tree => rfl
  | none =>
      simp only [Bool.false_eq_true, if_false, Host.copyRegularFile_of_rename hnone hrename, Bool.not_false, if_true,
        ite_self]

end Karphin.IOS.FS.HostFileSystem

/-!
# What the calls do

A call fails after lookups alone, or it changes the host and the tree, which is then saved.
-/

namespace Karphin.IOS.FS.HostFileSystem

open Karphin.Lib FstEntry

variable {s s' s'' : HostFileSystem} {p : FstPointer} {path oldPath newPath : Bytes} {uid callerUid : UInt32}
  {gid : UInt16} {attr : UInt8} {modes : Modes} {isFile : Bool} {r : ResultCode × HostFileSystem}

inductive Lookups (s : HostFileSystem) : HostFileSystem → Prop
  | refl : Lookups s s
  | tail {s' s'' : HostFileSystem} {path : Bytes} {p : FstPointer} : Lookups s s' → s'.getFstEntryForPath path = some (p, s'') → Lookups s s''

theorem Lookups.single (h : s.getFstEntryForPath path = some (p, s')) : Lookups s s' := Lookups.refl.tail h

theorem Lookups.sameFiles (h : Lookups s s') : SameFiles s s' := by
  induction h with
  | refl => exact .rfl' s
  | tail _ hlookup ih => exact ih.trans (getFstEntryForPath_sameFiles hlookup)

/-! ## Creation -/

structure Created (s : HostFileSystem) (uid : UInt32) (gid : UInt16) (path : Bytes) (attr : UInt8) (modes : Modes)
    (isFile : Bool) (s' : HostFileSystem) : Prop where
  valid : isValidNonRootPath path = true
  printable : path.all isPrintableCharacter = true
  depth : isFile = false → path.count slash ≤ maxPathDepth
  done : ∃ parent s₁ host child s₂, s.getFstEntryForPath (splitPathAndBasename path).parent = some (parent, s₁) ∧
    s.host.exists (s.buildFilename path).hostPath = false ∧
    (if isFile then s.host.createEmptyFile (s.buildFilename path).hostPath
      else s.host.createDir (s.buildFilename path).hostPath) = (true, host) ∧
    { s₁ with host }.getFstEntryForPath path = some (child, s₂) ∧
    s' = (s₂.modifyEntry child fun _ =>
      { name := (splitPathAndBasename path).fileName, data := { uid, gid, attr, modes, isFile } }).saveFst

theorem created_failed {h : Host} {hostPath : HostPath}
    (hfailed : (if isFile then h.createEmptyFile hostPath else h.createDir hostPath).1 = false) :
    (if isFile then h.createEmptyFile hostPath else h.createDir hostPath).2 = h := by
  cases isFile with
  | true => exact Host.writeFile_failed hfailed
  | false => exact Host.createDir_failed hfailed

theorem created_exists {h host : Host} {hostPath : HostPath}
    (hok : (if isFile then h.createEmptyFile hostPath else h.createDir hostPath) = (true, host)) :
    host.exists hostPath = true := by
  cases isFile with
  | true =>
      have hfile := Host.writeFile_exists (congrArg Prod.fst hok)
      rwa [show (h.writeFile hostPath []).2 = host from congrArg Prod.snd hok] at hfile
  | false =>
      have hdir := Host.createDir_exists (congrArg Prod.fst hok)
      rwa [show (h.createDir hostPath).2 = host from congrArg Prod.snd hok] at hdir

theorem createFileOrDirectory_cases (h : s.createFileOrDirectory uid gid path attr modes isFile = r) :
    (r.1 ≠ .success ∧ Lookups s r.2) ∨ (r.1 = .success ∧ Created s uid gid path attr modes isFile r.2) := by
  rw [createFileOrDirectory] at h
  split at h
  · subst h
    exact .inl ⟨nofun, .refl⟩
  next hvalid =>
  split at h
  · subst h
    exact .inl ⟨nofun, .refl⟩
  next hdepth =>
  cases hparent : s.getFstEntryForPath (splitPathAndBasename path).parent with
  | none =>
      simp only [hparent] at h
      subst h
      exact .inl ⟨nofun, .refl⟩
  | some parent =>
      obtain ⟨parent, s₁⟩ := parent
      have hfiles := getFstEntryForPath_sameFiles hparent
      have hlooked := Lookups.single hparent
      simp only [hparent] at h
      split at h
      · subst h
        exact .inl ⟨nofun, hlooked⟩
      split at h
      · subst h
        exact .inl ⟨nofun, hlooked⟩
      next hexists =>
      cases hcreated : (if isFile then s₁.host.createEmptyFile (s.buildFilename path).hostPath
          else s₁.host.createDir (s.buildFilename path).hostPath) with
      | mk ok host =>
          rw [hcreated] at h
          cases ok with
          | false =>
              have hhost := created_failed (congrArg Prod.fst hcreated)
              rw [hcreated] at hhost
              simp only [Bool.not_false, if_true] at h
              subst h
              refine .inl ⟨nofun, ?_⟩
              rw [show host = s₁.host from hhost]
              exact hlooked
          | true =>
              simp only [Bool.not_true, Bool.false_eq_true, if_false] at h
              have hvalid' : isValidNonRootPath path = true ∧ path.all isPrintableCharacter = true := by
                simpa using hvalid
              have hnow : host.exists (s.buildFilename path).hostPath = true := created_exists hcreated
              have hbuild : { s₁ with host }.buildFilename path = s.buildFilename path := hfiles.buildFilename path
              have hsome : ({ s₁ with host }.getFstEntryForPath path).isSome :=
                getFstEntryForPath_isSome hvalid'.1 (by rw [hbuild]; exact hnow)
              obtain ⟨⟨child, s₂⟩, hchild⟩ := Option.isSome_iff_exists.mp hsome
              rw [hchild] at h
              subst h
              rw [hfiles.host] at hexists hcreated
              refine .inr ⟨rfl, hvalid'.1, hvalid'.2, ?_, parent, s₁, host, child, s₂, hparent, ?_, hcreated, hchild, rfl⟩
              · rintro rfl
                simpa using hdepth
              · simpa using hexists

/-! ## Deletion -/

/-- What was at the path is gone from the host, and its entry is erased. -/
structure Deleted (s : HostFileSystem) (path : Bytes) (s' : HostFileSystem) : Prop where
  valid : isValidNonRootPath path = true
  present : s.host.exists (s.buildFilename path).hostPath = true
  unused : (s.host.isFile (s.buildFilename path).hostPath = true ∧ s.isFileOpened path = false) ∨
    (s.host.isDirectory (s.buildFilename path).hostPath = true ∧ s.isDirectoryInUse path = false)
  done : ∃ parent s₁, s.getFstEntryForPath (splitPathAndBasename path).parent = some (parent, s₁) ∧
    s' = ({ s₁ with host := { s.host with tree := s.host.tree.remove (s.buildFilename path).hostPath.resolve } }.modifyEntry
      parent (eraseChild (splitPathAndBasename path).fileName)).saveFst

theorem SameFiles.isFileOpened (h : SameFiles s s') (path : Bytes) : s'.isFileOpened path = s.isFileOpened path := by
  rw [HostFileSystem.isFileOpened, h.handles]
  rfl

theorem SameFiles.isDirectoryInUse (h : SameFiles s s') (path : Bytes) :
    s'.isDirectoryInUse path = s.isDirectoryInUse path := by
  rw [HostFileSystem.isDirectoryInUse, h.handles]
  rfl

theorem delete_cases (h : s.delete uid gid path = r) :
    (r.1 ≠ .success ∧ Lookups s r.2) ∨ (r.1 = .success ∧ Deleted s path r.2) := by
  rw [delete] at h
  split at h
  · subst h
    exact .inl ⟨nofun, .refl⟩
  next hvalid =>
  have hvalid' : isValidNonRootPath path = true := by simpa using hvalid
  cases hparent : s.getFstEntryForPath (splitPathAndBasename path).parent with
  | none =>
      simp only [hparent] at h
      subst h
      exact .inl ⟨nofun, .refl⟩
  | some parent =>
      obtain ⟨parent, s₁⟩ := parent
      have hfiles := getFstEntryForPath_sameFiles hparent
      have hlooked := Lookups.single hparent
      simp only [hparent] at h
      split at h
      · subst h
        exact .inl ⟨nofun, hlooked⟩
      split at h
      · subst h
        exact .inl ⟨nofun, hlooked⟩
      next hmissing =>
      have hpresent : s.host.exists (s.buildFilename path).hostPath = true := by simpa [hfiles.host] using hmissing
      split at h
      · next hfile =>
          rw [hfiles.host, hfiles.isFileOpened] at hfile
          have hfile' : s.host.isFile (s.buildFilename path).hostPath = true ∧ s.isFileOpened path = false := by
            simpa using hfile
          subst h
          refine .inr ⟨rfl, hvalid', hpresent, .inl hfile', parent, s₁, hparent, ?_⟩
          rw [hfiles.host, Host.delete_file hfile'.1]
      · split at h
        · next hdir =>
            rw [hfiles.host, hfiles.isDirectoryInUse] at hdir
            have hdir' : s.host.isDirectory (s.buildFilename path).hostPath = true ∧ s.isDirectoryInUse path = false := by
              simpa using hdir
            subst h
            refine .inr ⟨rfl, hvalid', hpresent, .inr hdir', parent, s₁, hparent, ?_⟩
            rw [hfiles.host, Host.deleteDirRecursively]
        · subst h
          exact .inl ⟨nofun, hlooked⟩

/-! ## Metadata -/

/-- The entry of a path takes the new metadata, and the tree is saved, unless nothing changes. -/
structure MetadataSet (s : HostFileSystem) (path : Bytes) (uid : UInt32) (gid : UInt16) (attr : UInt8) (modes : Modes)
    (s' : HostFileSystem) : Prop where
  valid : isValidPath path = true
  done : ∃ p s₁, s.getFstEntryForPath path = some (p, s₁) ∧
    (((s₁.entry p).data.gid = gid ∧ (s₁.entry p).data.uid = uid ∧ (s₁.entry p).data.attr = attr ∧
        (s₁.entry p).data.modes = modes ∧ s' = s₁) ∨
      s' = (s₁.modifyEntry p fun e => { e with data := { e.data with gid, uid, attr, modes } }).saveFst)

theorem setMetadata_cases (h : s.setMetadata callerUid path uid gid attr modes = r) :
    (r.1 ≠ .success ∧ Lookups s r.2) ∨ (r.1 = .success ∧ MetadataSet s path uid gid attr modes r.2) := by
  rw [setMetadata] at h
  split at h
  · subst h
    exact .inl ⟨nofun, .refl⟩
  next hvalid =>
  cases hlookup : s.getFstEntryForPath path with
  | none =>
      simp only [hlookup] at h
      subst h
      exact .inl ⟨nofun, .refl⟩
  | some found =>
      obtain ⟨p, s₁⟩ := found
      have hlooked := Lookups.single hlookup
      simp only [hlookup] at h
      split at h
      · subst h
        exact .inl ⟨nofun, hlooked⟩
      split at h
      · subst h
        exact .inl ⟨nofun, hlooked⟩
      split at h
      · subst h
        exact .inl ⟨nofun, hlooked⟩
      split at h
      · subst h
        exact .inr ⟨rfl, by simpa using hvalid, p, s₁, hlookup, .inr rfl⟩
      · next hsame =>
          simp only [not_or, not_not] at hsame
          obtain ⟨hgid, huid, hattr, hmodes⟩ := hsame
          subst h
          exact .inr ⟨rfl, by simpa using hvalid, p, s₁, hlookup, .inl ⟨hgid, huid, hattr, hmodes, rfl⟩⟩

/-! ## Renaming -/

/-- The checks of a rename have passed, after lookups of the parents and of the old path. -/
structure Checked (s : HostFileSystem) (oldPath newPath : Bytes) (oldParent : FstPointer) (s' : HostFileSystem) : Prop where
  validOld : isValidNonRootPath oldPath = true
  validNew : isValidNonRootPath newPath = true
  present : s.host.exists (s.buildFilename oldPath).hostPath = true
  sameName : s.host.isFile (s.buildFilename oldPath).hostPath = true →
    (splitPathAndBasename oldPath).fileName = (splitPathAndBasename newPath).fileName
  unused : if s.host.isFile (s.buildFilename oldPath).hostPath then s.isFileOpened oldPath = false
    else s.isDirectoryInUse oldPath = false
  done : ∃ s₁ newParent s₂ entry, s.getFstEntryForPath (splitPathAndBasename oldPath).parent = some (oldParent, s₁) ∧
    s₁.getFstEntryForPath (splitPathAndBasename newPath).parent = some (newParent, s₂) ∧
    s₂.getFstEntryForPath oldPath = some (entry, s')

theorem Checked.lookups {oldParent : FstPointer} (h : Checked s oldPath newPath oldParent s') : Lookups s s' := by
  obtain ⟨s₁, newParent, s₂, entry, hold, hnew, hentry⟩ := h.done
  exact ((Lookups.single hold).tail hnew).tail hentry

theorem valid_ne_root (h : isValidNonRootPath path = true) : path ≠ [slash] := by
  rintro rfl
  cases h

theorem entry_isFile (hvalid : isValidNonRootPath path = true) (h : s.getFstEntryForPath path = some (p, s')) :
    (s'.entry p).data.isFile = s.host.isFile (s.buildFilename path).hostPath ∧
      s.host.exists (s.buildFilename path).hostPath = true := by
  rcases getFstEntryForPath_some h with ⟨hroot, -, -⟩ | ⟨-, -, hexists, rfl, rfl⟩
  · exact absurd hroot (valid_ne_root hvalid)
  · obtain ⟨e', he', -⟩ := entryAt?_alter_self (keepsName_refresh (s.host.isFile (s.buildFilename path).hostPath))
      (components path) (s.fst (s.buildFilename path).isRedirect)
    rw [entry, modifyEntry, fst_setFst_self, he']
    exact ⟨rfl, hexists⟩

theorem renameChecks_cases {c : Except ResultCode FstPointer × HostFileSystem}
    (h : s.renameChecks uid gid oldPath newPath = c) :
    (∃ code, c.1 = .error code ∧ code ≠ .success ∧ Lookups s c.2) ∨
      ∃ oldParent, c.1 = .ok oldParent ∧ Checked s oldPath newPath oldParent c.2 := by
  rw [renameChecks] at h
  split at h
  · subst h
    exact .inl ⟨_, rfl, nofun, .refl⟩
  next hvalid =>
  have hvalid' : isValidNonRootPath oldPath = true ∧ isValidNonRootPath newPath = true := by simpa using hvalid
  cases hold : s.getFstEntryForPath (splitPathAndBasename oldPath).parent with
  | none =>
      simp only [hold] at h
      cases hnew : s.getFstEntryForPath (splitPathAndBasename newPath).parent with
      | none =>
          simp only [hnew] at h
          subst h
          exact .inl ⟨_, rfl, nofun, .refl⟩
      | some newParent =>
          simp only [hnew] at h
          subst h
          exact .inl ⟨_, rfl, nofun, .single hnew⟩
  | some oldParent =>
      obtain ⟨oldParent, s₁⟩ := oldParent
      have hlooked₁ := Lookups.single hold
      simp only [hold] at h
      cases hnew : s₁.getFstEntryForPath (splitPathAndBasename newPath).parent with
      | none =>
          simp only [hnew] at h
          subst h
          exact .inl ⟨_, rfl, nofun, hlooked₁⟩
      | some newParent =>
          obtain ⟨newParent, s₂⟩ := newParent
          have hlooked₂ := hlooked₁.tail hnew
          simp only [hnew] at h
          split at h
          · subst h
            exact .inl ⟨_, rfl, nofun, hlooked₂⟩
          cases hentry : s₂.getFstEntryForPath oldPath with
          | none =>
              simp only [hentry] at h
              subst h
              exact .inl ⟨_, rfl, nofun, hlooked₂⟩
          | some entry =>
              obtain ⟨entry, s₃⟩ := entry
              have hlooked₃ := hlooked₂.tail hentry
              have hfiles₂ := hlooked₂.sameFiles
              have hfiles₃ := hlooked₃.sameFiles
              obtain ⟨hisFile, hpresent⟩ := entry_isFile hvalid'.1 hentry
              rw [hfiles₂.host, hfiles₂.buildFilename] at hisFile hpresent
              simp only [hentry, hisFile, hfiles₃.isFileOpened, hfiles₃.isDirectoryInUse] at h
              split at h
              · subst h
                exact .inl ⟨_, rfl, nofun, hlooked₃⟩
              next hname =>
              split at h
              · subst h
                exact .inl ⟨_, rfl, nofun, hlooked₃⟩
              next huse =>
              subst h
              refine .inr ⟨oldParent, rfl, hvalid'.1, hvalid'.2, hpresent, ?_, ?_, s₁, newParent, s₂, entry, hold, hnew,
                hentry⟩
              · intro hfile
                simpa [hfile] using hname
              · cases hfile : s.host.isFile (s.buildFilename oldPath).hostPath with
                | true => simpa [hfile] using huse
                | false => simpa [hfile] using huse

theorem sameFiles_moveEntry (s : HostFileSystem) (oldParent newEntry : FstPointer) (oldName newName : Bytes) :
    SameFiles s (s.moveEntry oldParent newEntry oldName newName) := by
  have hname := sameFiles_modifyEntry s newEntry fun e => { e with name := newName }
  rw [moveEntry]
  split
  · exact hname
  · exact (hname.trans (sameFiles_modifyEntry _ _ _)).trans (sameFiles_modifyEntry _ _ _)

/-- The target was cleared, the path was renamed, and its entry moved. -/
structure Renamed (s : HostFileSystem) (oldPath newPath : Bytes) (oldParent : FstPointer) (s₁ s' : HostFileSystem) :
    Prop where
  checked : Checked s oldPath newPath oldParent s₁
  done : ∃ host tree newEntry s₂,
    clearTarget s.host (s.buildFilename oldPath).hostPath (s.buildFilename newPath).hostPath = some host ∧
    host.tree.rename (s.buildFilename oldPath).hostPath.resolve (s.buildFilename newPath).hostPath.resolve = some tree ∧
    { s₁ with host := { host with tree } }.getFstEntryForPath newPath = some (newEntry, s₂) ∧
    s' = (s₂.moveEntry oldParent newEntry (splitPathAndBasename oldPath).fileName
      (splitPathAndBasename newPath).fileName).saveFst

structure Cleared (s : HostFileSystem) (oldPath newPath : Bytes) (oldParent : FstPointer) (s₁ s' : HostFileSystem) :
    Prop where
  checked : Checked s oldPath newPath oldParent s₁
  done : ∃ host,
    clearTarget s.host (s.buildFilename oldPath).hostPath (s.buildFilename newPath).hostPath = some host ∧
    host.tree.rename (s.buildFilename oldPath).hostPath.resolve (s.buildFilename newPath).hostPath.resolve = none ∧
    s' = { s₁ with host }

theorem rename_cases (h : s.rename uid gid oldPath newPath = r) :
    (r.1 ≠ .success ∧ Lookups s r.2) ∨
      ∃ oldParent s₁, s.renameChecks uid gid oldPath newPath = (.ok oldParent, s₁) ∧
        ((r.1 ≠ .success ∧ Cleared s oldPath newPath oldParent s₁ r.2) ∨
          (r.1 = .success ∧ Renamed s oldPath newPath oldParent s₁ r.2)) := by
  rw [rename] at h
  cases hchecks : s.renameChecks uid gid oldPath newPath with
  | mk c s₁ =>
      rw [hchecks] at h
      rcases renameChecks_cases hchecks with ⟨code, hcode, hne, hlooked⟩ | ⟨oldParent, hok, hchecked⟩
      · simp only at hcode
        subst hcode
        subst h
        exact .inl ⟨hne, hlooked⟩
      simp only at hok
      subst hok
      have hlooked : Lookups s s₁ := hchecked.lookups
      have hfiles := hlooked.sameFiles
      simp only [hfiles.host, hfiles.buildFilename] at h
      cases hclear : clearTarget s.host (s.buildFilename oldPath).hostPath (s.buildFilename newPath).hostPath with
      | none =>
          simp only [hclear] at h
          subst h
          exact .inl ⟨nofun, hlooked⟩
      | some host =>
          simp only [hclear, moveOnHost_of_absent (clearTarget_some hclear).1] at h
          cases hrename : host.tree.rename (s.buildFilename oldPath).hostPath.resolve
              (s.buildFilename newPath).hostPath.resolve with
          | none =>
              simp only [hrename] at h
              subst h
              exact .inr ⟨oldParent, s₁, rfl, .inl ⟨nofun, hchecked, host, hclear, hrename, rfl⟩⟩
          | some tree =>
              simp only [hrename, ne_eq, not_true_eq_false, if_false] at h
              have hbuild : { s₁ with host := { host with tree } }.buildFilename newPath = s.buildFilename newPath :=
                hfiles.buildFilename newPath
              have hsome : ({ s₁ with host := { host with tree } }.getFstEntryForPath newPath).isSome := by
                apply getFstEntryForPath_isSome hchecked.validNew
                rw [hbuild, Host.exists, Option.isSome_iff_ne_none]
                exact FileTree.node_rename hrename
              obtain ⟨⟨newEntry, s₂⟩, hentry⟩ := Option.isSome_iff_exists.mp hsome
              rw [hentry] at h
              subst h
              exact .inr ⟨oldParent, s₁, rfl, .inr ⟨rfl, hchecked, host, tree, newEntry, s₂, hclear, hrename, hentry, rfl⟩⟩

end Karphin.IOS.FS.HostFileSystem

/-!
## Handles and open files
-/

namespace Karphin.IOS.FS.HostFileSystem

open Karphin.Lib

variable {s s' : HostFileSystem} {hostPath : HostPath} {handle : Handle} {file : IOFile}

theorem openHostFile_none (h : s.openHostFile hostPath = (none, s')) : s' = s := by
  rw [openHostFile] at h
  split at h
  · cases h
  · split at h
    · cases h
    · cases h
      rfl

theorem openHandle_setHandle {i : Fin numHandles} (hopened : handle.opened = true) (hfile : handle.hostFile = some file) :
    (s.setHandle i handle).openHandle i = some (i, handle, file) := by
  have hget : (s.setHandle i handle).handles.get i = handle := Vector.getElem_set_self i.2
  simp only [openHandle, getHandleFromFd, i.2, dif_pos, Fin.eta, hget, hopened, if_true, hfile, Option.map_some]

end Karphin.IOS.FS.HostFileSystem
