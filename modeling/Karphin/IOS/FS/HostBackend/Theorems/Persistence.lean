import Karphin.IOS.FS.HostBackend.Lemmas.Calls
import Karphin.IOS.FS.HostBackend.Lemmas.Storage
import Karphin.Lib.Transition

/-!
# The tree after a restart

A new file system on the same root has the tree of the old one, as long as the tree fits the file and can be saved.
-/

namespace Karphin.IOS.FS.HostFileSystem

open Karphin.Lib FstEntry

variable {s s' s'' : HostFileSystem} {p : FstPointer} {path oldPath newPath : Bytes} {uid : UInt32} {gid : UInt16}
  {rootPath : HostPath} {room : Nat}

/-! ## Paths that fit -/

/-- The names and the depth of a path fit, unless it is redirected: the tree of the redirects is not saved. -/
def pathFits (s : HostFileSystem) (path : Bytes) : Bool :=
  path = [slash] || (s.buildFilename path).isRedirect ||
    ((components path).all nameFits && (components path).length ≤ maxPathDepth)

def PointerFits (p : FstPointer) : Prop :=
  p.isRedirect = false → (∀ name ∈ p.path, nameFits name = true) ∧ p.path.length ≤ maxPathDepth

theorem SameFiles.pathFits (h : SameFiles s s') (path : Bytes) : s'.pathFits path = s.pathFits path := by
  rw [HostFileSystem.pathFits, HostFileSystem.pathFits, h.buildFilename]

theorem lookup_pointer (h : s.getFstEntryForPath path = some (p, s')) (hpath : s.pathFits path = true) :
    PointerFits p := by
  intro hredirect
  simp only [HostFileSystem.pathFits, Bool.or_eq_true, Bool.and_eq_true, decide_eq_true_eq, List.all_eq_true] at hpath
  rcases getFstEntryForPath_some h with ⟨-, rfl, -⟩ | ⟨hne, -, -, rfl, -⟩
  · exact ⟨nofun, Nat.zero_le _⟩
  · rcases hpath with (hroot | hredirected) | hfits
    · exact absurd hroot hne
    · simp only at hredirect
      rw [hredirect] at hredirected
      cases hredirected
    · exact hfits

theorem nameFits_fileName (hvalid : isValidNonRootPath path = true) (hpath : s.pathFits path = true)
    (hredirect : (s.buildFilename path).isRedirect = false) : nameFits (splitPathAndBasename path).fileName = true := by
  simp only [HostFileSystem.pathFits, Bool.or_eq_true, Bool.and_eq_true, decide_eq_true_eq, List.all_eq_true] at hpath
  rcases hpath with (hroot | hredirected) | hfits
  · exact absurd hroot (valid_ne_root hvalid)
  · rw [hredirect] at hredirected
    cases hredirected
  · exact hfits.1 _ (components_split hvalid).1

/-! ## Trees that fit -/

def RootFits (s : HostFileSystem) (room : Nat) : Prop := s.rootEntry.fits room (maxPathDepth + 1) = true

theorem RootFits.mono (h : s.RootFits (room + 1)) : s.RootFits room := fits_mono h

theorem RootFits.modifyEntry {f : FstEntry → FstEntry} (h : s.RootFits (room + 1)) (hroom : room + 1 < 2 ^ 32)
    (hp : PointerFits p)
    (hf : p.isRedirect = false → ∀ e : FstEntry, e.fits (room + 1) (maxPathDepth - p.path.length + 1) = true →
      (f e).fits room (maxPathDepth - p.path.length + 1) = true) : (s.modifyEntry p f).RootFits room := by
  rw [HostFileSystem.modifyEntry]
  cases hredirect : p.isRedirect with
  | true => exact h.mono
  | false =>
      obtain ⟨hnames, hdepth⟩ := hp hredirect
      have hdepths : maxPathDepth + 1 = p.path.length + (maxPathDepth - p.path.length + 1) := by omega
      rw [RootFits, hdepths] at h ⊢
      exact fits_alter hroom (hf hredirect) hnames h

theorem RootFits.lookup (hfits : s.RootFits (room + 1)) (hroom : room + 1 < 2 ^ 32)
    (h : s.getFstEntryForPath path = some (p, s')) (hpath : s.pathFits path = true) : s'.RootFits room := by
  have hp := lookup_pointer h hpath
  rcases getFstEntryForPath_some h with ⟨-, -, rfl⟩ | ⟨-, -, -, -, rfl⟩
  · exact hfits.mono
  · exact hfits.modifyEntry hroom hp fun _ _ he => fits_mono (fits_refresh _ he)

theorem RootFits.erase (h : s.RootFits (room + 1)) (hroom : room + 1 < 2 ^ 32) (hp : PointerFits p) (name : Bytes) :
    (s.modifyEntry p (eraseChild name)).RootFits room :=
  h.modifyEntry hroom hp fun _ _ he => fits_mono (fits_eraseChild he)

/-! ## Where the tree is saved -/

def IsStore (s : HostFileSystem) (k : HostPath) : Prop :=
  k.resolve = s.getFstFilePath.resolve ∨ k.resolve = s.getTempFilename.resolve

def RootStays (s : HostFileSystem) (k : HostPath) : Prop := ¬k.resolve <+: s.rootPath.resolve

theorem CanStore.change {host : Host} (h : s.CanStore) (hroot : s'.rootPath = s.rootPath) (hhost : s'.host = host)
    (hdir : host.node s.rootPath = some .dir)
    (hdirs : ∀ k, s.IsStore k → host.node k = some .dir → s.host.node k = some .dir) : s'.CanStore := by
  constructor
  · rw [hhost, hroot]
    exact hdir
  · rw [hhost, getFstFilePath, hroot]
    intro hfst
    exact h.fst (hdirs _ (.inl rfl) hfst)
  · rw [hhost, getTempFilename, hroot]
    intro htemp
    exact h.temp (hdirs _ (.inr rfl) htemp)

theorem IsStore.of_prefix {k : HostPath} {p rest : List Bytes} (hk : s.IsStore k) (hp : ¬p <+: s.rootPath.resolve)
    (heq : k.resolve = p ++ rest) : rest = [] := by
  have hpre : ∀ name : Bytes, k.resolve = s.rootPath.resolve ++ [name] → rest = [] := by
    intro name hname
    rw [heq] at hname
    have hbelow : p <+: s.rootPath.resolve ++ [name] := ⟨rest, hname⟩
    rcases List.prefix_concat_iff.mp hbelow with hwhole | hroot
    · rw [hwhole] at hname
      simpa using hname
    · exact absurd hroot hp
  rcases hk with hfst | htemp
  · exact hpre _ (hfst.trans (resolve_fst s))
  · exact hpre _ (htemp.trans (resolve_temp s))

theorem node_remove_root {h : Host} {k : HostPath} (hroot : s.RootStays k) (hdir : h.node s.rootPath = some .dir) :
    ({ h with tree := h.tree.remove k.resolve } : Host).node s.rootPath = some .dir :=
  (FileTree.node_remove_of_not hroot).trans hdir

theorem dir_of_remove {h : Host} {k q : HostPath}
    (hdir : ({ h with tree := h.tree.remove k.resolve } : Host).node q = some .dir) : h.node q = some .dir := by
  rw [Host.node, FileTree.node_remove] at hdir
  split at hdir
  · cases hdir
  · exact hdir

theorem clearTarget_nodes {h host : Host} {old new : HostPath} (hnew : s.RootStays new)
    (hclear : clearTarget h old new = some host) :
    (h.node s.rootPath = some .dir → host.node s.rootPath = some .dir) ∧
      ∀ k, host.node k = some .dir → h.node k = some .dir := by
  rcases (clearTarget_some hclear).2 with ⟨-, rfl⟩ | ⟨-, -, rfl⟩
  · exact ⟨id, fun _ => id⟩
  · exact ⟨node_remove_root hnew, fun _ => dir_of_remove⟩

/-! ## The entry that a rename moves -/

def entryPath (path : Bytes) : List Bytes :=
  (if (splitPathAndBasename path).parent = [slash] then [] else components (splitPathAndBasename path).parent) ++
    [(splitPathAndBasename path).fileName]

theorem parent_pointer (h : s.getFstEntryForPath (splitPathAndBasename path).parent = some (p, s')) :
    p.path ++ [(splitPathAndBasename path).fileName] = entryPath path := by
  rw [entryPath]
  rcases getFstEntryForPath_some h with ⟨hroot, rfl, -⟩ | ⟨hne, -, -, rfl, -⟩
  · rw [if_pos hroot]
  · rw [if_neg hne]

theorem entryPath_prefix (hvalid : isValidNonRootPath path = true)
    (h : s.getFstEntryForPath (splitPathAndBasename path).parent = some (p, s'))
    (hpre : entryPath path <+: components path) : entryPath path = components path := by
  obtain ⟨v, file, hpath, hfile, hne, hsplit⟩ := split_valid hvalid
  obtain ⟨-, -, hparent⟩ := components_split hvalid
  rcases getFstEntryForPath_some h with ⟨hroot, -, -⟩ | ⟨hne', hvalid', -, -, -⟩
  · rw [entryPath, if_pos hroot, hsplit] at hpre ⊢
    simp only [hsplit] at hroot
    have hjoin : components path = splitString slash ((v ++ slash :: file).drop 1) := by rw [components, hpath]
    cases v with
    | nil =>
        rw [hjoin]
        exact (splitString_of_not_mem hne hfile).symm
    | cons c v =>
        rw [if_neg (List.cons_ne_nil c v)] at hroot
        cases hroot
        rw [hjoin] at hpre
        simp only [List.cons_append, List.nil_append, List.drop_one, List.tail_cons, splitString_cons_slash,
          List.cons_prefix_cons] at hpre
        exact absurd hpre.1 hne
  · rw [entryPath, if_neg hne']
    exact (hparent.resolve_left hne' hvalid').symm

def ChildrenFit (s : HostFileSystem) (names : List Bytes) (room depths : Nat) : Prop :=
  ∀ redirected e, (s.fst redirected).entryAt? names = some e → e.childrenFit room depths = true

theorem ChildrenFit.modifyEntry {names : List Bytes} {depths : Nat} {f : FstEntry → FstEntry}
    (h : s.ChildrenFit names room depths) (hname : KeepsName f) (hf : Shrinks f) (hfar : ¬names <+: p.path) :
    (s.modifyEntry p f).ChildrenFit names room depths := by
  intro redirected e he
  rw [HostFileSystem.modifyEntry] at he
  by_cases hsame : redirected = p.isRedirect
  · subst hsame
    rw [fst_setFst_self] at he
    exact h p.isRedirect e (entryAt?_alter hname hf hfar he)
  · rw [fst_setFst_ne hsame] at he
    exact h redirected e he

theorem shrinks_refresh (isFile : Bool) : Shrinks (refresh isFile) := by
  intro e
  cases isFile with
  | true => exact .inr rfl
  | false => exact .inl rfl

theorem ChildrenFit.lookup {names : List Bytes} {depths : Nat} (h : s.ChildrenFit names room depths)
    (hroom : room < 2 ^ 32) (hlookup : s.getFstEntryForPath path = some (p, s'))
    (hfar : path ≠ [slash] → names <+: components path → names = components path) :
    s'.ChildrenFit names room depths := by
  rcases getFstEntryForPath_some hlookup with ⟨-, -, rfl⟩ | ⟨hne, hvalid, -, rfl, rfl⟩
  · exact h
  by_cases hpre : names <+: components path
  · intro redirected e he
    have hnames := hfar hne hpre
    rw [HostFileSystem.modifyEntry] at he
    by_cases hsame : redirected = (s.buildFilename path).isRedirect
    · subst hsame
      rw [fst_setFst_self] at he
      obtain ⟨e', hfound, horigin⟩ := entryAt?_alter_end
        (keepsName_refresh (s.host.isFile (s.buildFilename path).hostPath)) (components path)
        (s.fst (s.buildFilename path).isRedirect) (components_ne_nil hvalid)
      rw [hnames] at he
      simp only [hfound, Option.some.injEq] at he
      subst he
      apply childrenFit_refresh
      rcases horigin with hbefore | ⟨name, -, rfl⟩
      · rw [← hnames] at hbefore
        exact h _ e' hbefore
      · exact childrenFit_leaf rfl hroom
    · rw [fst_setFst_ne hsame] at he
      exact h redirected e he
  · exact h.modifyEntry (keepsName_refresh _) (shrinks_refresh _) hpre

/-! ## Calls -/

/-- The tree can be saved, and each entry has room for what a call adds. -/
structure Ready (s : HostFileSystem) : Prop extends CanStore s where
  room : s.rootEntry.hasRoom 8 (maxPathDepth + 1) = true

theorem Persisted.rootFits (h : s.Persisted rootPath) (hs : s.Ready) : s.RootFits 8 := fits_of_room h.fits hs.room

theorem persisted_saveFst (hroot : s.rootPath = rootPath) (hstore : s.CanStore) (hfits : s.RootFits room) :
    s.saveFst.Persisted rootPath := by
  have hfits₀ : s.RootFits 0 := fits_of_le (Nat.zero_le room) hfits
  have hkept : s.saveFst.rootPath = s.rootPath ∧ s.saveFst.rootEntry = s.rootEntry := by
    rw [saveFst]
    split
    · exact ⟨rfl, rfl⟩
    · exact ⟨rfl, rfl⟩
  constructor
  · exact hkept.1.trans hroot
  · rw [← hroot, hkept.2]
    exact storedRoot_saveFst hstore hfits₀
  · rw [hkept.2]
    exact hfits₀

theorem lookup_valid (hvalid : isValidNonRootPath path = true) (h : s.getFstEntryForPath path = some (p, s')) :
    p = ⟨(s.buildFilename path).isRedirect, components path⟩ := by
  rcases getFstEntryForPath_some h with ⟨hroot, -, -⟩ | ⟨-, -, -, hp, -⟩
  · exact absurd hroot (valid_ne_root hvalid)
  · exact hp

theorem Persisted.created {attr : UInt8} {modes : Modes} {isFile : Bool} (h : s.Persisted rootPath) (hs : s.Ready)
    (hparent : s.pathFits (splitPathAndBasename path).parent = true) (hpath : s.pathFits path = true)
    (hstore : isFile = false → ¬s.IsStore (s.buildFilename path).hostPath)
    (hcreated : Created s uid gid path attr modes isFile s') : s'.Persisted rootPath := by
  obtain ⟨parent, s₁, host, child, s₂, hlookup, -, hhost, hchild, rfl⟩ := hcreated.done
  have hfiles₁ := getFstEntryForPath_sameFiles hlookup
  have hfiles₂ := getFstEntryForPath_sameFiles hchild
  have hbuild : { s₁ with host }.buildFilename path = s.buildFilename path := hfiles₁.buildFilename path
  have hpath₁ : { s₁ with host }.pathFits path = true := (hfiles₁.pathFits path).trans hpath
  have hp := lookup_valid hcreated.valid hchild
  rw [hbuild] at hp
  have h₁ : s₁.RootFits 7 := (h.rootFits hs).lookup (by decide) hlookup hparent
  have hmade : { s₁ with host }.RootFits 7 := h₁
  have h₂ : s₂.RootFits 6 := hmade.lookup (by decide) hchild hpath₁
  have hentry := sameFiles_modifyEntry s₂ child fun _ =>
    { name := (splitPathAndBasename path).fileName, data := { uid, gid, attr, modes, isFile } }
  have hroot := hentry.rootPath.trans (hfiles₂.rootPath.trans hfiles₁.rootPath)
  apply persisted_saveFst (hroot.trans h.root)
  · apply hs.toCanStore.change hroot (hentry.host.trans hfiles₂.host)
    · cases isFile with
      | true =>
          rw [show host = (s.host.createEmptyFile (s.buildFilename path).hostPath).2 from (congrArg Prod.snd hhost).symm]
          exact Host.node_writeFile hs.root
      | false =>
          rw [show host = (s.host.createDir (s.buildFilename path).hostPath).2 from (congrArg Prod.snd hhost).symm]
          exact Host.node_createDir hs.root
    · intro k hk hdir
      cases isFile with
      | true =>
          rw [show host = (s.host.createEmptyFile (s.buildFilename path).hostPath).2 from
            (congrArg Prod.snd hhost).symm] at hdir
          exact Host.dir_of_writeFile hdir
      | false =>
          rw [show host = (s.host.createDir (s.buildFilename path).hostPath).2 from
            (congrArg Prod.snd hhost).symm] at hdir
          apply (Host.dir_of_createDir hdir).resolve_right
          intro heq
          rw [IsStore, heq] at hk
          exact hstore rfl hk
  · apply RootFits.modifyEntry h₂ (by decide) (lookup_pointer hchild hpath₁)
    intro hredirect e _
    rw [hp] at hredirect
    apply fits_succ.mpr
    exact ⟨nameFits_fileName hcreated.valid hpath hredirect, by simp, nofun⟩

theorem Persisted.deleted (h : s.Persisted rootPath) (hs : s.Ready)
    (hparent : s.pathFits (splitPathAndBasename path).parent = true)
    (hroot : s.RootStays (s.buildFilename path).hostPath) (hdeleted : Deleted s path s') : s'.Persisted rootPath := by
  obtain ⟨parent, s₁, hlookup, rfl⟩ := hdeleted.done
  have hfiles := getFstEntryForPath_sameFiles hlookup
  have hentry := sameFiles_modifyEntry
    { s₁ with host := { s.host with tree := s.host.tree.remove (s.buildFilename path).hostPath.resolve } } parent
    (eraseChild (splitPathAndBasename path).fileName)
  have h₁ : s₁.RootFits 7 := (h.rootFits hs).lookup (by decide) hlookup hparent
  have hgone : { s₁ with host := { s.host with
      tree := s.host.tree.remove (s.buildFilename path).hostPath.resolve } }.RootFits 7 := h₁
  have hpath := hentry.rootPath.trans hfiles.rootPath
  apply persisted_saveFst (hpath.trans h.root)
  · apply hs.toCanStore.change hpath hentry.host
    · exact node_remove_root hroot hs.root
    · intro k _ hdir
      exact dir_of_remove hdir
  · exact hgone.erase (by decide) (lookup_pointer hlookup hparent) _

/-! ## Metadata -/

def Recorded (s : HostFileSystem) (path : Bytes) : Prop :=
  path = [slash] ∨ (s.buildFilename path).isRedirect = true ∨ ∃ e, s.rootEntry.entryAt? (components path) = some e ∧
    refresh (s.host.isFile (s.buildFilename path).hostPath) e = e

def recordedData (s : HostFileSystem) (path : Bytes) : Metadata :=
  if path = [slash] then s.rootEntry.data else (s.fst (s.buildFilename path).isRedirect).dataAt (components path)

theorem lookup_recorded (hrecorded : s.Recorded path) (h : s.getFstEntryForPath path = some (p, s')) :
    s'.rootEntry = s.rootEntry := by
  rcases getFstEntryForPath_some h with ⟨-, -, rfl⟩ | ⟨hne, -, -, rfl, rfl⟩
  · rfl
  rw [modifyEntry]
  rcases hrecorded with hroot | hredirect | ⟨e, hentry, hsame⟩
  · exact absurd hroot hne
  · rw [hredirect]
    rfl
  · cases hredirect : (s.buildFilename path).isRedirect with
    | true => rfl
    | false => exact alter_eq_self hentry hsame

theorem lookup_data (h : s.getFstEntryForPath path = some (p, s')) :
    (s'.entry p).data = { s.recordedData path with isFile := (s'.entry p).data.isFile } := by
  rcases getFstEntryForPath_some h with ⟨rfl, rfl, rfl⟩ | ⟨hne, -, -, rfl, rfl⟩
  · rfl
  · obtain ⟨e', hfound, hdata⟩ := entryAt?_alter_self
      (keepsName_refresh (s.host.isFile (s.buildFilename path).hostPath)) (components path)
      (s.fst (s.buildFilename path).isRedirect)
    rw [recordedData, if_neg hne, entry, modifyEntry, fst_setFst_self, hfound, Option.getD_some, ← hdata]
    rfl

def Changes (s : HostFileSystem) (path : Bytes) (uid : UInt32) (gid : UInt16) (attr : UInt8) (modes : Modes) : Prop :=
  let data := s.recordedData path
  data.gid ≠ gid ∨ data.uid ≠ uid ∨ data.attr ≠ attr ∨ data.modes ≠ modes

theorem Persisted.metadataSet {attr : UInt8} {modes : Modes} (h : s.Persisted rootPath) (hs : s.Ready)
    (hpath : s.pathFits path = true) (hkept : s.Recorded path ∨ s.Changes path uid gid attr modes)
    (hset : MetadataSet s path uid gid attr modes s') : s'.Persisted rootPath := by
  obtain ⟨p, s₁, hlookup, ⟨hgid, huid, hattr, hmodes, rfl⟩ | rfl⟩ := hset.done
  · have hfiles := getFstEntryForPath_sameFiles hlookup
    have hdata := lookup_data hlookup
    rw [hdata] at hgid huid hattr hmodes
    have hsame : s'.rootEntry = s.rootEntry := by
      rcases hkept with hrecorded | hgid' | huid' | hattr' | hmodes'
      · exact lookup_recorded hrecorded hlookup
      · exact absurd hgid hgid'
      · exact absurd huid huid'
      · exact absurd hattr hattr'
      · exact absurd hmodes hmodes'
    constructor
    · exact hfiles.rootPath.trans h.root
    · rw [hfiles.host, hsame]
      exact h.stored
    · rw [hsame]
      exact h.fits
  · have hfiles := getFstEntryForPath_sameFiles hlookup
    have hentry := sameFiles_modifyEntry s₁ p fun e => { e with data := { e.data with gid, uid, attr, modes } }
    have h₁ : s₁.RootFits 7 := (h.rootFits hs).lookup (by decide) hlookup hpath
    have hroot := hentry.rootPath.trans hfiles.rootPath
    apply persisted_saveFst (hroot.trans h.root)
    · exact hs.toCanStore.change hroot (hentry.host.trans hfiles.host) hs.root fun _ _ hdir => hdir
    · apply h₁.modifyEntry (by decide) (lookup_pointer hlookup hpath)
      intro _ e he
      obtain ⟨hname, hcount, hchildren⟩ := fits_succ.mp (fits_mono he)
      exact fits_succ.mpr ⟨hname, hcount, hchildren⟩

/-! ## Renaming -/

/-- The paths of a rename fit, and so does what is moved; no directory is moved to where the tree is saved. -/
structure MoveFits (s : HostFileSystem) (oldPath newPath : Bytes) : Prop where
  oldParent : s.pathFits (splitPathAndBasename oldPath).parent = true
  newParent : s.pathFits (splitPathAndBasename newPath).parent = true
  old : s.pathFits oldPath = true
  new : s.pathFits newPath = true
  oldRoot : s.RootStays (s.buildFilename oldPath).hostPath
  newRoot : s.RootStays (s.buildFilename newPath).hostPath
  store : s.host.isFile (s.buildFilename oldPath).hostPath = false → ¬s.IsStore (s.buildFilename newPath).hostPath
  below : (s.buildFilename newPath).isRedirect = false → ¬entryPath oldPath <+: components newPath
  moved : (s.buildFilename newPath).isRedirect = false →
    s.ChildrenFit (entryPath oldPath) 8 (maxPathDepth - (components newPath).length)

theorem parent_prefix (hvalid : isValidNonRootPath path = true)
    (h : s.getFstEntryForPath (splitPathAndBasename path).parent = some (p, s')) : p.path <+: components path := by
  obtain ⟨-, -, hparent⟩ := components_split hvalid
  rcases getFstEntryForPath_some h with ⟨-, rfl, -⟩ | ⟨hne, hvalid', -, rfl, -⟩
  · exact List.nil_prefix
  · exact ⟨_, (hparent.resolve_left hne hvalid').symm⟩

theorem Checked.childrenFit {oldParent : FstPointer} {depths : Nat} (h : Checked s oldPath newPath oldParent s')
    (hroom : room < 2 ^ 32) (hbelow : ¬entryPath oldPath <+: components newPath)
    (hfits : s.ChildrenFit (entryPath oldPath) room depths) : s'.ChildrenFit (entryPath oldPath) room depths := by
  obtain ⟨s₁, newParent, s₂, entry, hold, hnew, hentry⟩ := h.done
  have h₁ : s₁.ChildrenFit (entryPath oldPath) room depths := by
    apply hfits.lookup hroom hold
    intro hne hpre
    have hlonger := hpre.length_le
    rw [entryPath, if_neg hne, List.length_append, List.length_singleton] at hlonger
    omega
  have h₂ : s₂.ChildrenFit (entryPath oldPath) room depths := by
    apply h₁.lookup hroom hnew
    intro hne hpre
    rcases getFstEntryForPath_some hnew with ⟨hroot, -, -⟩ | ⟨-, -, -, hp, -⟩
    · exact absurd hroot hne
    · have hparent := parent_prefix h.validNew hnew
      rw [hp] at hparent
      exact absurd (hpre.trans hparent) hbelow
  exact h₂.lookup hroom hentry fun _ hpre => entryPath_prefix h.validOld hold hpre

theorem entryAt?_of_child {oldParent : FstPointer} {oldName : Bytes} {it : FstEntry}
    (h : (s.entry oldParent).child? oldName = some it) :
    (s.fst oldParent.isRedirect).entryAt? (oldParent.path ++ [oldName]) = some it := by
  rw [entry] at h
  rw [entryAt?_concat]
  cases hparent : (s.fst oldParent.isRedirect).entryAt? oldParent.path with
  | none =>
      rw [hparent] at h
      cases h
  | some e =>
      rw [hparent] at h
      exact h

theorem modifyEntry_name {newName : Bytes} (h : ∃ names, p.path = names ++ [newName]) :
    s.modifyEntry p (fun e => { e with name := newName }) = s.modifyEntry p id := by
  obtain ⟨names, hnames⟩ := h
  rw [modifyEntry, modifyEntry, hnames]
  congr 1
  apply alter_congr
  intro e he
  cases e
  cases he
  rfl

theorem RootFits.moveEntry {oldParent newEntry : FstPointer} {oldName newName : Bytes} (h : s.RootFits 4)
    (hold : PointerFits oldParent) (hnew : PointerFits newEntry) (hlast : ∃ names, newEntry.path = names ++ [newName])
    (hfar : newEntry.isRedirect = false → ¬oldParent.path ++ [oldName] <+: newEntry.path)
    (hmoved : newEntry.isRedirect = false →
      s.ChildrenFit (oldParent.path ++ [oldName]) 8 (maxPathDepth - newEntry.path.length)) :
    (s.moveEntry oldParent newEntry oldName newName).RootFits 1 := by
  have h₁ : (s.modifyEntry newEntry id).RootFits 3 := h.modifyEntry (by decide) hnew fun _ _ he => fits_mono he
  rw [HostFileSystem.moveEntry, modifyEntry_name hlast]
  split
  · exact fits_of_le (by decide) h₁
  next it hit =>
  apply RootFits.erase _ (by decide) hold
  apply h₁.modifyEntry (by decide) hnew
  intro hredirect e he
  have hkept := (hmoved hredirect).modifyEntry (fun _ => rfl : KeepsName id) (fun _ => .inl rfl)
    (hfar hredirect)
  obtain ⟨hcount, hchildren⟩ := childrenFit_iff.mp (hkept _ it (entryAt?_of_child hit))
  apply fits_succ.mpr
  refine ⟨(fits_succ.mp he).1, ?_, fun c hc => fits_of_le (by decide) (hchildren c hc)⟩
  simp only
  omega

theorem components_last (h : isValidNonRootPath path = true) :
    ∃ names, components path = names ++ [(splitPathAndBasename path).fileName] := by
  obtain ⟨v, file, hpath, hfile, hne, hsplit⟩ := split_valid h
  rw [hsplit, components, hpath]
  cases v with
  | nil => exact ⟨[], splitString_of_not_mem hne hfile⟩
  | cons c v =>
      obtain ⟨p, ps, hlast⟩ := splitString_last hne hfile v
      exact ⟨p :: ps, hlast⟩

theorem CanStore.renamed {host : Host} {tree : FileTree Bytes} {old new : HostPath} (h : s.CanStore)
    (hold : s.RootStays old) (hnew : s.RootStays new) (hstore : s.host.isFile old = false → ¬s.IsStore new)
    (hclear : clearTarget s.host old new = some host) (hrename : host.tree.rename old.resolve new.resolve = some tree)
    (hroot : s'.rootPath = s.rootPath) (hhost : s'.host = { host with tree }) : s'.CanStore := by
  obtain ⟨hkeeps, hdirs⟩ := clearTarget_nodes hnew hclear
  apply h.change hroot hhost
  · exact (FileTree.node_rename_of_not hrename hold hnew).trans (hkeeps h.root)
  · intro k hk hdir
    rcases FileTree.dir_of_rename hrename hdir with hbefore | ⟨rest, hrest, hsource⟩
    · exact hdirs k hbefore
    · have hnil := hk.of_prefix hnew hrest
      subst hnil
      rw [List.append_nil] at hrest hsource
      have hdir' : s.host.isFile old = false := by
        rw [Host.isFile, hdirs old hsource]
        rfl
      rw [IsStore, hrest] at hk
      exact absurd hk (hstore hdir')

theorem Persisted.renamed {oldParent : FstPointer} {s₁ : HostFileSystem} (h : s.Persisted rootPath) (hs : s.Ready)
    (hfits : s.MoveFits oldPath newPath) (hrenamed : Renamed s oldPath newPath oldParent s₁ s') : s'.Persisted rootPath := by
  obtain ⟨host, tree, newEntry, s₂, hclear, hrename, hentry, rfl⟩ := hrenamed.done
  have hchecked := hrenamed.checked
  have hfiles₁ := hchecked.lookups.sameFiles
  have hfiles₂ := getFstEntryForPath_sameFiles hentry
  have hmove := sameFiles_moveEntry s₂ oldParent newEntry (splitPathAndBasename oldPath).fileName
    (splitPathAndBasename newPath).fileName
  obtain ⟨t₁, newParent, t₂, entry, hold, hnew, holdEntry⟩ := hchecked.done
  have hbuild : { s₁ with host := { host with tree } }.buildFilename newPath = s.buildFilename newPath :=
    hfiles₁.buildFilename newPath
  have hpath : { s₁ with host := { host with tree } }.pathFits newPath = true :=
    (hfiles₁.pathFits newPath).trans hfits.new
  have hp := lookup_valid hchecked.validNew hentry
  rw [hbuild] at hp
  have hsource : oldParent.path ++ [(splitPathAndBasename oldPath).fileName] = entryPath oldPath := parent_pointer hold
  have hlooked₁ := getFstEntryForPath_sameFiles hold
  have hlooked₂ := hlooked₁.trans (getFstEntryForPath_sameFiles hnew)
  have hfits₁ : t₁.RootFits 7 := (h.rootFits hs).lookup (by decide) hold hfits.oldParent
  have hfits₂ : t₂.RootFits 6 := hfits₁.lookup (by decide) hnew ((hlooked₁.pathFits _).trans hfits.newParent)
  have hfits₃ : s₁.RootFits 5 := hfits₂.lookup (by decide) holdEntry ((hlooked₂.pathFits _).trans hfits.old)
  have hmoved : { s₁ with host := { host with tree } }.RootFits 5 := hfits₃
  have hfits₄ : s₂.RootFits 4 := hmoved.lookup (by decide) hentry hpath
  have hpointer : PointerFits oldParent := lookup_pointer hold hfits.oldParent
  have hroot := hmove.rootPath.trans (hfiles₂.rootPath.trans hfiles₁.rootPath)
  have hstore := hs.toCanStore.renamed hfits.oldRoot hfits.newRoot hfits.store hclear hrename hroot
    (hmove.host.trans hfiles₂.host)
  apply persisted_saveFst (hroot.trans h.root) hstore
  apply hfits₄.moveEntry hpointer (lookup_pointer hentry hpath)
  · rw [hp]
    exact components_last hchecked.validNew
  · intro hredirect
    rw [hsource]
    rw [hp] at hredirect ⊢
    exact hfits.below hredirect
  · intro hredirect
    rw [hsource]
    rw [hp] at hredirect ⊢
    have hbelow := hfits.below hredirect
    have hchildren := hchecked.childrenFit (by decide) hbelow (hfits.moved hredirect)
    have hhere : { s₁ with host := { host with tree } }.ChildrenFit (entryPath oldPath) 8
        (maxPathDepth - (components newPath).length) := hchildren
    exact hhere.lookup (by decide) hentry fun _ hpre => absurd hpre hbelow

/-! ## Runs -/

def changesTree : Call → Bool
  | .createFile .. => true
  | .createDirectory .. => true
  | .delete .. => true
  | .rename .. => true
  | .setMetadata .. => true
  | _ => false

def treeStep (s : HostFileSystem) (c : Call) : Option HostFileSystem :=
  if changesTree c ∧ (s.call c).1 = .success then some (s.call c).2 else none

def CallFits (s : HostFileSystem) : Call → Prop
  | .createFile _ _ path _ _ => s.pathFits (splitPathAndBasename path).parent = true ∧ s.pathFits path = true
  | .createDirectory _ _ path _ _ => s.pathFits (splitPathAndBasename path).parent = true ∧ s.pathFits path = true ∧
      ¬s.IsStore (s.buildFilename path).hostPath
  | .delete _ _ path => s.pathFits (splitPathAndBasename path).parent = true ∧
      s.RootStays (s.buildFilename path).hostPath
  | .rename _ _ oldPath newPath => s.MoveFits oldPath newPath
  | .setMetadata _ path uid gid attr modes => s.pathFits path = true ∧
      (s.Recorded path ∨ s.Changes path uid gid attr modes)
  | _ => True

def Stores (s : HostFileSystem) (c : Call) : Prop := s.Ready ∧ s.CallFits c

theorem Persisted.createFileOrDirectory {attr : UInt8} {modes : Modes} {isFile : Bool} (h : s.Persisted rootPath)
    (hs : s.Ready) (hparent : s.pathFits (splitPathAndBasename path).parent = true) (hpath : s.pathFits path = true)
    (hstore : isFile = false → ¬s.IsStore (s.buildFilename path).hostPath)
    (hok : (s.createFileOrDirectory uid gid path attr modes isFile).1 = .success) :
    (s.createFileOrDirectory uid gid path attr modes isFile).2.Persisted rootPath := by
  rcases createFileOrDirectory_cases rfl with ⟨hfailed, -⟩ | ⟨-, hcreated⟩
  · exact absurd hok hfailed
  · exact h.created hs hparent hpath hstore hcreated

theorem Persisted.step {c : Call} (h : s.Persisted rootPath) (hs : s.Stores c) (hstep : s.treeStep c = some s') :
    s'.Persisted rootPath := by
  obtain ⟨hready, hfits⟩ := hs
  rw [treeStep, Option.ite_none_right_eq_some] at hstep
  obtain ⟨⟨hchanges, hok⟩, hdone⟩ := hstep
  cases hdone
  cases c with
  | createFile uid gid path attr modes => exact h.createFileOrDirectory hready hfits.1 hfits.2 nofun hok
  | createDirectory uid gid path attr modes =>
      obtain ⟨hparent, hpath, hstore⟩ := hfits
      exact h.createFileOrDirectory hready hparent hpath (fun _ => hstore) hok
  | delete uid gid path =>
      rcases delete_cases rfl with ⟨hfailed, -⟩ | ⟨-, hdeleted⟩
      · exact absurd hok hfailed
      · exact h.deleted hready hfits.1 hfits.2 hdeleted
  | rename uid gid oldPath newPath =>
      rcases rename_cases rfl with ⟨hfailed, -⟩ | ⟨oldParent, s₁, -, ⟨hfailed, -⟩ | ⟨-, hrenamed⟩⟩
      · exact absurd hok hfailed
      · exact absurd hok hfailed
      · exact h.renamed hready hfits hrenamed
  | setMetadata callerUid path uid gid attr modes =>
      rcases setMetadata_cases rfl with ⟨hfailed, -⟩ | ⟨-, hset⟩
      · exact absurd hok hfailed
      · exact h.metadataSet hready hfits.1 hfits.2 hset
  | openFile path mode => cases hchanges
  | close fd => cases hchanges
  | readBytesFromFile fd count => cases hchanges
  | writeBytesToFile fd data => cases hchanges
  | seekFile fd offset mode => cases hchanges

/-! ## Main result -/

def nestedPath (depth : Nat) : Bytes := (List.replicate depth dirPath).flatten

def nestedFile : List Call :=
  ((List.range maxPathDepth).map fun i => .createDirectory 0 0 (nestedPath (i + 1)) 0 anyone) ++
    [.createFile 0 0 (nestedPath (maxPathDepth + 1)) 0 anyone]

def longPath : Bytes := slash :: List.replicate (maxFilenameLength + 1) 0x61

def namesAndFound (s : HostFileSystem) : List Bytes × List Bytes :=
  (s.rootEntry.children.map (·.name), (construct [[0x77]] [] s.host).rootEntry.children.map (·.name))

theorem lost_of_names {calls : List Call} {names found : List Bytes} (hne : names ≠ found)
    (h : (run treeStep fresh calls).map namesAndFound = some (names, found)) :
    ∃ s, run treeStep fresh calls = some s ∧ (construct [[0x77]] [] s.host).rootEntry ≠ s.rootEntry ∧
      s.namesAndFound = (names, found) := by
  obtain ⟨s, hrun, hnames⟩ := Option.map_eq_some_iff.mp h
  refine ⟨s, hrun, ?_, hnames⟩
  intro heq
  rw [namesAndFound, heq] at hnames
  cases hnames
  exact hne rfl

end Karphin.IOS.FS.HostFileSystem
