import Karphin.IOS.FS.HostBackend.Lemmas.Calls

/-!
# Paths in use

A file or a directory is neither deleted nor renamed while a handle is open on it or on something below it. The code
compares the paths of the handles with its own, as a whole for a file and by their beginning for a directory.
-/

namespace Karphin.IOS.FS.HostFileSystem

open Karphin.Lib FstEntry

variable {s s₁ s₂ : HostFileSystem} {path newPath : Bytes} {uid : UInt32} {gid : UInt16}

def HasOpen (s : HostFileSystem) (holds : Bytes → Prop) : Prop :=
  ∃ handle ∈ s.handles.toList, handle.opened = true ∧ holds handle.wiiPath

def Below (path other : Bytes) : Prop := path ++ [slash] <+: other

def Continues (path other : Bytes) : Prop := path <+: other ∧ other ≠ path ∧ ¬ Below path other

def InUse (s : HostFileSystem) (path : Bytes) : Prop := s.HasOpen fun other => other = path ∨ Below path other

def DeletePermitted (s : HostFileSystem) (uid : UInt32) (gid : UInt16) (path : Bytes) : Prop :=
  isValidNonRootPath path = true ∧ ∃ parent s₁,
    s.getFstEntryForPath (splitPathAndBasename path).parent = some (parent, s₁) ∧
    (s₁.entry parent).checkPermission uid gid .write = true

def RenamePermitted (s : HostFileSystem) (uid : UInt32) (gid : UInt16) (oldPath newPath : Bytes) : Prop :=
  isValidNonRootPath oldPath = true ∧ isValidNonRootPath newPath = true ∧ ∃ oldParent s₁ newParent s₂,
    s.getFstEntryForPath (splitPathAndBasename oldPath).parent = some (oldParent, s₁) ∧
    s₁.getFstEntryForPath (splitPathAndBasename newPath).parent = some (newParent, s₂) ∧
    (s₂.entry oldParent).checkPermission uid gid .write = true ∧
    (s₂.entry newParent).checkPermission uid gid .write = true

/-- For a file, no handle is open below it unless one is open on it. For a directory, no handle is open on a path that
continues it without a separator, unless one is open on it or below it. -/
def JudgedRight (s : HostFileSystem) (path : Bytes) : Prop :=
  if s.host.isFile (s.buildFilename path).hostPath then s.HasOpen (Below path) → s.HasOpen (· = path)
  else s.HasOpen (Continues path) → s.InUse path

def ChangesFileName (s : HostFileSystem) (oldPath newPath : Bytes) : Prop :=
  s.host.isFile (s.buildFilename oldPath).hostPath = true ∧
    (splitPathAndBasename oldPath).fileName ≠ (splitPathAndBasename newPath).fileName

instance {oldPath : Bytes} : Decidable (s.ChangesFileName oldPath newPath) := inferInstanceAs (Decidable (_ ∧ _))

/-! ## What the code compares -/

theorem hasOpen_or {p q : Bytes → Prop} : s.HasOpen (fun other => p other ∨ q other) ↔ s.HasOpen p ∨ s.HasOpen q := by
  simp only [HasOpen, and_or_left, exists_or]

theorem hasOpen_congr {p q : Bytes → Prop} (h : ∀ other, p other ↔ q other) : s.HasOpen p ↔ s.HasOpen q := by
  simp only [HasOpen, h]

theorem isFileOpened_iff : s.isFileOpened path = true ↔ s.HasOpen (· = path) := by
  simp only [isFileOpened, HasOpen, List.any_eq_true, Bool.and_eq_true, decide_eq_true_eq]

theorem prefix_iff {other : Bytes} : path <+: other ↔ (other = path ∨ Below path other) ∨ Continues path other := by
  have hbelow : Below path other → path <+: other := fun h => (List.prefix_append path [slash]).trans h
  rw [Continues]
  constructor
  · intro h
    by_cases heq : other = path
    · exact .inl (.inl heq)
    · by_cases hb : Below path other
      · exact .inl (.inr hb)
      · exact .inr ⟨h, heq, hb⟩
  · rintro ((rfl | h) | ⟨h, -, -⟩)
    · exact List.prefix_rfl
    · exact hbelow h
    · exact h

theorem isDirectoryInUse_iff : s.isDirectoryInUse path = true ↔ s.InUse path ∨ s.HasOpen (Continues path) := by
  rw [InUse, ← hasOpen_or, ← hasOpen_congr fun _ => prefix_iff]
  simp only [isDirectoryInUse, HasOpen, List.any_eq_true, Bool.and_eq_true, List.isPrefixOf_iff_prefix]

def usedAsItIs (s : HostFileSystem) (path : Bytes) : Bool :=
  if s.host.isFile (s.buildFilename path).hostPath then s.isFileOpened path else s.isDirectoryInUse path

theorem usedAsItIs_iff : (s.usedAsItIs path = true ↔ s.InUse path) ↔ s.JudgedRight path := by
  rw [usedAsItIs, JudgedRight]
  cases s.host.isFile (s.buildFilename path).hostPath with
  | true =>
      simp only [if_true]
      rw [isFileOpened_iff, InUse, hasOpen_or]
      tauto
  | false =>
      simp only [Bool.false_eq_true, if_false]
      rw [isDirectoryInUse_iff]
      tauto

/-! ## The calls -/

theorem isDirectory_eq {h : Host} {hostPath : HostPath} (hexists : h.exists hostPath = true) :
    h.isDirectory hostPath = !h.isFile hostPath := by
  rw [Host.exists] at hexists
  rw [Host.isDirectory, Host.isFile]
  cases hnode : h.node hostPath with
  | none =>
      rw [hnode] at hexists
      cases hexists
  | some node => simp

theorem delete_inUse_iff (hpermitted : s.DeletePermitted uid gid path)
    (hexists : s.host.exists (s.buildFilename path).hostPath = true) :
    (s.delete uid gid path).1 = .inUse ↔ s.usedAsItIs path = true := by
  obtain ⟨hvalid, parent, s₁, hparent, hwrite⟩ := hpermitted
  have hfiles := getFstEntryForPath_sameFiles hparent
  rw [delete, usedAsItIs]
  simp only [hvalid, Bool.not_true, Bool.false_eq_true, if_false, hparent, hwrite, hfiles.host, hexists,
    hfiles.isFileOpened, hfiles.isDirectoryInUse]
  have hdir := isDirectory_eq hexists
  cases hfile : s.host.isFile (s.buildFilename path).hostPath with
  | true =>
      rw [hfile] at hdir
      cases s.isFileOpened path <;> simp [hdir]
  | false =>
      rw [hfile] at hdir
      cases s.isDirectoryInUse path <;> simp [hdir]

theorem renameChecks_inUse_iff (hpermitted : s.RenamePermitted uid gid path newPath)
    (hexists : s.host.exists (s.buildFilename path).hostPath = true) :
    (s.renameChecks uid gid path newPath).1 = .error .inUse ↔
      ¬ s.ChangesFileName path newPath ∧ s.usedAsItIs path = true := by
  obtain ⟨hvalid, hvalidNew, oldParent, s₁, newParent, s₂, hold, hnew, hwrite, hwriteNew⟩ := hpermitted
  have hlooked := (Lookups.single hold).tail hnew
  have hfiles := hlooked.sameFiles
  have hsome : (s₂.getFstEntryForPath path).isSome :=
    getFstEntryForPath_isSome hvalid (by rw [hfiles.buildFilename, hfiles.host]; exact hexists)
  obtain ⟨⟨entry, s₃⟩, hentry⟩ := Option.isSome_iff_exists.mp hsome
  have hfiles₃ := (hlooked.tail hentry).sameFiles
  have hisFile := (entry_isFile hvalid hentry).1
  rw [hfiles.buildFilename, hfiles.host] at hisFile
  rw [renameChecks, usedAsItIs, ChangesFileName]
  simp only [hvalid, hvalidNew, Bool.not_true, Bool.or_self, Bool.false_eq_true, if_false, hold, hnew, hwrite, hwriteNew,
    hentry, hisFile, hfiles₃.isFileOpened, hfiles₃.isDirectoryInUse]
  cases s.host.isFile (s.buildFilename path).hostPath with
  | true =>
      by_cases hname : (splitPathAndBasename path).fileName = (splitPathAndBasename newPath).fileName
      · cases s.isFileOpened path <;> simp [hname]
      · simp [hname]
  | false => cases s.isDirectoryInUse path <;> simp

theorem moveOnHost_ne_inUse (h : Host) (oldInfo newInfo : HostFilename) : (moveOnHost h oldInfo newInfo).1 ≠ .inUse := by
  simp only [moveOnHost]
  split
  · simp
  split
  · split
    · simp
    split <;> simp
  · simp

theorem rename_inUse_iff : (s.rename uid gid path newPath).1 = .inUse ↔
    (s.renameChecks uid gid path newPath).1 = .error .inUse := by
  rw [rename]
  rcases s.renameChecks uid gid path newPath with ⟨code | oldParent, s₁⟩
  · simp
  · simp only [reduceCtorEq, iff_false]
    split
    · simp
    next host _ =>
      have hmoved := moveOnHost_ne_inUse host (s₁.buildFilename path) (s₁.buildFilename newPath)
      split
      · exact hmoved
      · split <;> simp

/-- A path in use is refused as it should be unless handles on paths that are not at it or below it are counted, or
handles below it are not, or a file gets a new name, which is refused before. -/
theorem inUse_iff (hexists : s.host.exists (s.buildFilename path).hostPath = true) :
    (s.DeletePermitted uid gid path →
      (((s.delete uid gid path).1 = .inUse ↔ s.InUse path) ↔ s.JudgedRight path)) ∧
    ∀ newPath, s.RenamePermitted uid gid path newPath →
      (((s.rename uid gid path newPath).1 = .inUse ↔ s.InUse path) ↔
        if s.ChangesFileName path newPath then ¬ s.InUse path else s.JudgedRight path) := by
  constructor
  · intro hpermitted
    rw [delete_inUse_iff hpermitted hexists]
    exact usedAsItIs_iff
  · intro newPath hpermitted
    rw [rename_inUse_iff, renameChecks_inUse_iff hpermitted hexists]
    split
    next hname => simp [hname]
    next hname =>
      simp only [hname, not_false_eq_true, true_and]
      exact usedAsItIs_iff

/-! ## A directory and a file beside it -/

def besidePath : Bytes := dirPath ++ [0x62]

def openBeside : HostFileSystem :=
  (((fresh.createDirectory 0 0 dirPath 0 anyone).2.createFile 0 0 besidePath 0 anyone).2.openFile besidePath .read).2

theorem openBeside_permitted {path : Bytes} (hvalid : isValidNonRootPath path = true)
    (hparent : (splitPathAndBasename path).parent = [slash]) : openBeside.DeletePermitted 0 0 path :=
  ⟨hvalid, ⟨false, []⟩, openBeside, by rw [hparent, getFstEntryForPath, if_pos rfl], rfl⟩

/-- The directory is empty and not open, but cannot be deleted. -/
theorem openBeside_refused : openBeside.host.exists (openBeside.buildFilename dirPath).hostPath = true ∧
    openBeside.DeletePermitted 0 0 dirPath ∧ (openBeside.delete 0 0 dirPath).1 = .inUse ∧ ¬ openBeside.InUse dirPath := by
  refine ⟨by decide, openBeside_permitted (by decide) (by decide), by decide, ?_⟩
  simp only [InUse, HasOpen, Below]
  decide

/-- The file beside it is open, and is refused. -/
theorem inUse_iff_openBeside : ((openBeside.delete 0 0 besidePath).1 = .inUse ↔ openBeside.InUse besidePath) ∧
    openBeside.InUse besidePath := by
  have hopen : openBeside.HasOpen (· = besidePath) := by
    simp only [HasOpen]
    decide
  have hright : openBeside.JudgedRight besidePath := by
    rw [JudgedRight, if_pos (by decide)]
    exact fun _ => hopen
  have hpermitted : openBeside.DeletePermitted 0 0 besidePath := openBeside_permitted (by decide) (by decide)
  exact ⟨((inUse_iff (by decide)).1 hpermitted).mpr hright, hasOpen_or.mpr (.inl hopen)⟩

end Karphin.IOS.FS.HostFileSystem
