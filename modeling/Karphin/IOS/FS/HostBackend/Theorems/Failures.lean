import Karphin.IOS.FS.HostBackend.Lemmas.Calls

/-!
# Failed calls

A call that fails leaves the files of the host and the metadata as they are, except for a rename that has already
deleted what was at the new path.
-/

namespace Karphin.IOS.FS.HostFileSystem

open Karphin.Lib FstEntry

variable {s s' s'' : HostFileSystem} {p : FstPointer} {path oldPath newPath : Bytes} {uid : UInt32} {gid : UInt16}

/-- The files of the host and the metadata of every path are the same. -/
structure Unchanged (s s' : HostFileSystem) : Prop where
  host : s'.host = s.host
  metadata : ∀ q, s'.metadataAt q = s.metadataAt q

theorem Unchanged.rfl' (s : HostFileSystem) : Unchanged s s := ⟨rfl, fun _ => rfl⟩

/-- What lookups do: the trees may differ, the metadata that is found does not. -/
structure Looked (s s' : HostFileSystem) : Prop extends SameFiles s s', Unchanged s s'

theorem Looked.rfl' (s : HostFileSystem) : Looked s s := ⟨.rfl' s, fun _ => rfl⟩

theorem Looked.trans (h : Looked s s') (h' : Looked s' s'') : Looked s s'' :=
  ⟨h.toSameFiles.trans h'.toSameFiles, fun q => (h'.metadata q).trans (h.metadata q)⟩

theorem Looked.filesAreLeaves (h : Looked s s') (hs : s.FilesAreLeaves) : s'.FilesAreLeaves := by
  intro path q
  simp only [h.buildFilename, h.host]
  exact hs path q

theorem Looked.lookup (hs : s.FilesAreLeaves) (h : s.getFstEntryForPath path = some (p, s')) : Looked s s' :=
  ⟨getFstEntryForPath_sameFiles h, lookup_metadataAt hs h⟩

theorem Looked.of_lookups (hs : s.FilesAreLeaves) (h : Lookups s s') : Looked s s' := by
  induction h with
  | refl => exact .rfl' s
  | tail _ hlookup ih => exact ih.trans (.lookup (ih.filesAreLeaves hs) hlookup)

theorem Unchanged.of_lookups (hs : s.FilesAreLeaves) (h : Lookups s s') : Unchanged s s' :=
  (Looked.of_lookups hs h).toUnchanged

theorem Unchanged.handles (s : HostFileSystem) (handles : Vector Handle numHandles)
    (openFiles : HostPath → Option IOFile) : Unchanged s { s with handles, openFiles } where
  host := rfl
  metadata q := by
    by_cases hroot : q = [slash]
    · subst hroot
      rfl
    by_cases hq : isValidNonRootPath q = true ∧ s.host.exists (s.buildFilename q).hostPath = true
    · rw [metadataAt_of_exists hroot hq.1 hq.2]
      exact metadataAt_of_exists hroot hq.1 hq.2
    · rw [metadataAt_of_missing hroot hq]
      exact metadataAt_of_missing hroot hq

theorem Unchanged.trans (h : Unchanged s s') (h' : Unchanged s' s'') : Unchanged s s'' :=
  ⟨h'.host.trans h.host, fun q => (h'.metadata q).trans (h.metadata q)⟩

theorem unchanged_resetHandle (s : HostFileSystem) (fd : Fin numHandles) : Unchanged s (s.resetHandle fd) := by
  rw [resetHandle]
  split
  · exact .handles s _ s.openFiles
  · split
    · exact .handles s _ s.openFiles
    · exact .handles s _ _

theorem openFile_failed {mode : Mode} (hcode : resultCode (s.openFile path mode).1 ≠ .success) :
    Unchanged s (s.openFile path mode).2 := by
  cases hassign : s.assignFreeHandle with
  | none =>
      rw [openFile, hassign]
      exact .rfl' s
  | some assigned =>
      obtain ⟨fd, s₁⟩ := assigned
      have hassigned : Unchanged s s₁ := by
        rw [assignFreeHandle, Option.map_eq_some_iff] at hassign
        obtain ⟨fd', -, heq⟩ := hassign
        cases heq
        exact (unchanged_resetHandle s fd).trans (.handles _ _ _)
      have hreset := hassigned.trans (unchanged_resetHandle s₁ fd)
      rw [openFile, hassign] at hcode ⊢
      simp only at hcode ⊢
      split at hcode
      · next hdir =>
          rw [if_pos hdir]
          exact hreset
      next hdir =>
      rw [if_neg hdir]
      split at hcode
      · next hfile =>
          rw [if_pos hfile]
          exact hreset
      next hfile =>
      rw [if_neg hfile]
      cases hopen : s₁.openHostFile (s₁.buildFilename path).hostPath with
      | mk file s₂ =>
          simp only [hopen] at hcode ⊢
          cases file with
          | none =>
              rw [openHostFile_none hopen]
              exact hreset
          | some file => exact absurd rfl hcode

theorem readBytesFromFile_failed {fd : Nat} {count : UInt32}
    (hcode : resultCode (s.readBytesFromFile fd count).1 ≠ .success) : (s.readBytesFromFile fd count).2 = s := by
  rw [readBytesFromFile] at hcode ⊢
  cases hopen : s.openHandle fd with
  | none => rfl
  | some found =>
      simp only [hopen] at hcode ⊢
      split
      · rfl
      · next hmode =>
          rw [if_neg hmode] at hcode
          exact absurd rfl hcode

theorem writeBytesToFile_failed {fd : Nat} {data : Bytes} (hcode : (s.writeBytesToFile fd data).1 ≠ .success) :
    (s.writeBytesToFile fd data).2 = s := by
  rw [writeBytesToFile] at hcode ⊢
  cases hopen : s.openHandle fd with
  | none => rfl
  | some found =>
      simp only [hopen] at hcode ⊢
      split
      · rfl
      · next hmode =>
          rw [if_neg hmode] at hcode
          exact absurd rfl hcode

theorem unchanged_seekFile {fd : Nat} {offset : UInt32} {mode : SeekMode} :
    Unchanged s (s.seekFile fd offset mode).2 := by
  rw [seekFile]
  cases s.openHandle fd with
  | none => exact .rfl' s
  | some found =>
      simp only
      split
      · exact .rfl' s
      · split
        · exact .rfl' s
        · exact .handles s _ s.openFiles

/-! ## Main result -/

/-- A rename whose checks pass deletes what is at the new path, but cannot rename then: one of the paths is the other
one, or above it. -/
def Clobbers (s : HostFileSystem) : Call → Prop
  | .rename uid gid oldPath newPath =>
      (∃ oldParent, (s.renameChecks uid gid oldPath newPath).1 = .ok oldParent) ∧
        s.host.exists (s.buildFilename newPath).hostPath = true ∧
        s.host.isFile (s.buildFilename oldPath).hostPath = s.host.isFile (s.buildFilename newPath).hostPath ∧
        ((s.buildFilename oldPath).hostPath.resolve <+: (s.buildFilename newPath).hostPath.resolve ∨
          (s.buildFilename newPath).hostPath.resolve <+: (s.buildFilename oldPath).hostPath.resolve)
  | _ => False

/-! ### The rename that clobbers -/

theorem clearTarget_of_same {h : Host} {old new : HostPath} (hpresent : h.exists new = true)
    (hsame : h.isFile old = h.isFile new) :
    clearTarget h old new = some { h with tree := h.tree.remove new.resolve } := by
  rw [clearTarget, hpresent, hsame]
  cases hfile : h.isFile new with
  | true => simp [Host.delete_file hfile]
  | false => simp [Host.deleteDirRecursively]

theorem rename_remove_comparable {t : FileTree Bytes} {old new : List Bytes} (h : old <+: new ∨ new <+: old) :
    (t.remove new).rename old new = none := by
  by_cases hnew : new <+: old
  · exact FileTree.rename_none_of_missing (if_pos hnew)
  · apply FileTree.rename_none_of_below (h.resolve_right hnew)
    rintro rfl
    exact hnew List.prefix_rfl

theorem movable_remove {t : FileTree Bytes} {old new : List Bytes} (hold : t.node old ≠ none) (hnew : t.node new ≠ none)
    (hbelow : ¬old <+: new) (habove : ¬new <+: old) : (t.remove new).Movable old new := by
  have hroot : new ≠ [] := by
    rintro rfl
    exact habove List.nil_prefix
  have hdrop : ¬new <+: new.dropLast := by
    intro hpre
    have hlength := hpre.length_le
    rw [List.length_dropLast] at hlength
    have hpos := List.length_pos_iff.mpr hroot
    omega
  refine ⟨?_, hbelow, hroot, ?_, .inl (FileTree.node_remove_self t new)⟩
  · rw [FileTree.node_remove_of_not habove]
    exact hold
  · rw [FileTree.node_remove_of_not hdrop]
    exact FileTree.dropLast_dir hnew hroot

theorem rename_of_clobbers (hs : s.Clobbers (.rename uid gid oldPath newPath)) :
    (s.rename uid gid oldPath newPath).1 ≠ .success ∧ (s.rename uid gid oldPath newPath).2.host ≠ s.host := by
  obtain ⟨⟨oldParent, hok⟩, hpresent, hsame, hcomparable⟩ := hs
  rw [rename]
  cases hchecks : s.renameChecks uid gid oldPath newPath with
  | mk c s₁ =>
      rw [hchecks] at hok
      simp only at hok
      subst hok
      rcases renameChecks_cases hchecks with ⟨code, hcode, -, -⟩ | ⟨oldParent, -, hchecked⟩
      · cases hcode
      have hfiles : SameFiles s s₁ := hchecked.lookups.sameFiles
      have hclear := clearTarget_of_same hpresent hsame
      have hmove := @moveOnHost_of_absent _ (s.buildFilename oldPath) _ (clearTarget_some hclear).1
      simp only [rename_remove_comparable hcomparable] at hmove
      simp only [hfiles.host, hfiles.buildFilename, hclear, hmove]
      refine ⟨by simp, ?_⟩
      -- the target is gone
      intro hhost
      have hsamehost : { s.host with tree := s.host.tree.remove (s.buildFilename newPath).hostPath.resolve } = s.host :=
        hhost
      have hgone := (clearTarget_some hclear).1
      rw [hsamehost] at hgone
      rw [Host.exists_eq_false.mpr hgone] at hpresent
      cases hpresent

theorem rename_failed (hs : s.FilesAreLeaves) (hclobbers : ¬s.Clobbers (.rename uid gid oldPath newPath))
    (hcode : (s.rename uid gid oldPath newPath).1 ≠ .success) : Unchanged s (s.rename uid gid oldPath newPath).2 := by
  rcases rename_cases rfl with ⟨-, hlooked⟩ | ⟨oldParent, s₁, hchecks, ⟨-, hcleared⟩ | ⟨hsuccess, -⟩⟩
  · exact .of_lookups hs hlooked
  · have hchecked := hcleared.checked
    obtain ⟨host, hclear, hrename, heq⟩ := hcleared.done
    have hok : ∃ oldParent, (s.renameChecks uid gid oldPath newPath).1 = .ok oldParent := ⟨oldParent, by rw [hchecks]⟩
    rw [heq]
    rcases (clearTarget_some hclear).2 with ⟨-, hhost⟩ | ⟨hpresent, hsame, hhost⟩
    · rw [hhost, ← hchecked.lookups.sameFiles.host]
      exact .of_lookups hs hchecked.lookups
    · by_contra
      apply hclobbers
      refine ⟨hok, Option.isSome_iff_ne_none.mpr hpresent, hsame, ?_⟩
      by_contra hcomparable
      rw [not_or] at hcomparable
      obtain ⟨tree, htree, -⟩ := FileTree.rename_of_movable
        (movable_remove (Option.isSome_iff_ne_none.mp hchecked.present) hpresent hcomparable.1 hcomparable.2)
      rw [hhost, htree] at hrename
      cases hrename
  · exact absurd hsuccess hcode

/-- Exactly the calls that clobber fail with a change. -/
theorem failed_unchanged_iff (hs : s.FilesAreLeaves) (c : Call) :
    ((s.call c).1 ≠ .success → Unchanged s (s.call c).2) ↔ ¬s.Clobbers c := by
  constructor
  · intro hunchanged hclobbers
    cases c with
    | rename uid gid oldPath newPath =>
        obtain ⟨hcode, hhost⟩ := rename_of_clobbers hclobbers
        exact hhost (hunchanged hcode).host
    | _ => exact hclobbers
  · intro hclobbers hcode
    cases c with
    | openFile path mode => exact openFile_failed hcode
    | close fd =>
        rw [call, close] at hcode ⊢
        split
        · exact .rfl' s
        · next hfd =>
            rw [hfd] at hcode
            exact absurd rfl hcode
    | readBytesFromFile fd count =>
        rw [call, readBytesFromFile_failed hcode]
        exact .rfl' s
    | writeBytesToFile fd data =>
        rw [call, writeBytesToFile_failed hcode]
        exact .rfl' s
    | seekFile fd offset mode => exact unchanged_seekFile
    | createFile uid gid path attr modes =>
        rcases createFileOrDirectory_cases rfl with ⟨-, hlooked⟩ | ⟨hsuccess, -⟩
        · exact .of_lookups hs hlooked
        · exact absurd hsuccess hcode
    | createDirectory uid gid path attr modes =>
        rcases createFileOrDirectory_cases rfl with ⟨-, hlooked⟩ | ⟨hsuccess, -⟩
        · exact .of_lookups hs hlooked
        · exact absurd hsuccess hcode
    | delete uid gid path =>
        rcases delete_cases rfl with ⟨-, hlooked⟩ | ⟨hsuccess, -⟩
        · exact .of_lookups hs hlooked
        · exact absurd hsuccess hcode
    | rename uid gid oldPath newPath => exact rename_failed hs hclobbers hcode
    | setMetadata callerUid path uid gid attr modes =>
        rcases setMetadata_cases rfl with ⟨-, hlooked⟩ | ⟨hsuccess, -⟩
        · exact .of_lookups hs hlooked
        · exact absurd hsuccess hcode

/-! ## One file -/

def oneFile : HostFileSystem := (fresh.createFile 0 0 filePath 0 ⟨.readWrite, .readWrite, .readWrite⟩).2

theorem delete_missing : (fresh.call (.delete 0 0 filePath)).1 = .notFound ∧
    Unchanged fresh (fresh.call (.delete 0 0 filePath)).2 := by
  have hcode : (fresh.call (.delete 0 0 filePath)).1 = .notFound := by decide
  refine ⟨hcode, ?_⟩
  have hunnested : fresh.Unnested := by
    intro r hr
    cases hr
  apply (failed_unchanged_iff hunnested.filesAreLeaves (.delete 0 0 filePath)).mpr id
  rw [hcode]
  nofun

/-- A file that is renamed to its own name is lost. -/
theorem rename_to_itself : (oneFile.call (.rename 0 0 filePath filePath)).1 = .notFound ∧
    ¬Unchanged oneFile (oneFile.call (.rename 0 0 filePath filePath)).2 := by
  refine ⟨by decide, ?_⟩
  intro hunchanged
  have hbefore : oneFile.host.exists (oneFile.buildFilename filePath).hostPath = true := by decide
  have hafter : (oneFile.call (.rename 0 0 filePath filePath)).2.host.exists
      (oneFile.buildFilename filePath).hostPath = false := by decide
  rw [hunchanged.host, hbefore] at hafter
  cases hafter

end Karphin.IOS.FS.HostFileSystem
