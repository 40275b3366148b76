import Karphin.IOS.FS.HostBackend.Lemmas.Paths

/-!
# Lookups in the file system table

A lookup makes the entries that are missing, which changes no metadata that is found afterwards.
-/

namespace Karphin.IOS.FS

namespace FstEntry

variable {f : FstEntry → FstEntry} {name m : Bytes} {e : FstEntry} {p q : List Bytes}

@[simp]
theorem fallback_name (name : Bytes) : (fallback name).name = name := rfl

def KeepsName (f : FstEntry → FstEntry) : Prop := ∀ e, (f e).name = e.name

theorem KeepsName.alter (hf : KeepsName f) : ∀ (path : List Bytes), KeepsName (alter f path)
  | [] => hf
  | _ :: _ => fun _ => rfl

theorem alterChild_nil : alterChild name f [] = [f (fallback name)] := rfl

theorem alterChild_cons {es : List FstEntry} :
    alterChild name f (e :: es) = if e.name = name then f e :: es else e :: alterChild name f es := rfl

theorem find_alterChild_self (hf : KeepsName f) (name : Bytes) : ∀ (es : List FstEntry),
    (alterChild name f es).find? (·.name = name) = some (f ((es.find? (·.name = name)).getD (fallback name)))
  | [] => by simp [alterChild_nil, hf (fallback name)]
  | e :: es => by
      rw [alterChild_cons]
      by_cases he : e.name = name
      · simp [he, hf e]
      · simp [he, find_alterChild_self hf name es]

theorem find_alterChild_ne (hf : KeepsName f) (hm : m ≠ name) : ∀ (es : List FstEntry),
    (alterChild name f es).find? (·.name = m) = es.find? (·.name = m)
  | [] => by simp [alterChild_nil, hf (fallback name), hm.symm]
  | e :: es => by
      rw [alterChild_cons]
      by_cases he : e.name = name
      · simp [he, hf e, hm.symm]
      · simp [he, List.find?_cons, find_alterChild_ne hf hm es]

theorem child?_alter_self (hf : KeepsName f) : (alter f (name :: p) e).child? name =
    some (alter f p ((e.child? name).getD (fallback name))) :=
  find_alterChild_self (hf.alter p) name e.children

theorem child?_alter_ne (hf : KeepsName f) (hm : m ≠ name) : (alter f (name :: p) e).child? m = e.child? m :=
  find_alterChild_ne (hf.alter p) hm e.children

def dataAt (e : FstEntry) (path : List Bytes) : Metadata := ((e.entryAt? path).getD (fallback [])).data

theorem dataAt_nil (e : FstEntry) : e.dataAt [] = e.data := rfl

theorem entryAt?_cons : e.entryAt? (name :: p) = (e.child? name).bind (entryAt? p) := rfl

theorem dataAt_of_leaf (h : e.children = []) (name : Bytes) (q : List Bytes) :
    e.dataAt (name :: q) = (fallback []).data := by
  simp [dataAt, entryAt?_cons, child?, h]

theorem dataAt_cons (e : FstEntry) (name : Bytes) (q : List Bytes) :
    e.dataAt (name :: q) = ((e.child? name).getD (fallback name)).dataAt q := by
  cases hchild : e.child? name with
  | some e' => simp [dataAt, entryAt?_cons, hchild]
  | none =>
      have hleft : e.dataAt (name :: q) = (fallback []).data := by simp [dataAt, entryAt?_cons, hchild]
      rw [hleft]
      cases q with
      | nil => rfl
      | cons n q => exact (dataAt_of_leaf rfl n q).symm

theorem keepsName_refresh (isFile : Bool) : KeepsName (HostFileSystem.refresh isFile) := fun _ => rfl

theorem dataAt_alter_refresh (isFile : Bool) : ∀ (p q : List Bytes) (e : FstEntry),
    (alter (HostFileSystem.refresh isFile) p e).dataAt q =
      if q = p then { e.dataAt p with isFile }
      else if isFile = true ∧ p <+: q then (fallback []).data
      else e.dataAt q
  | [], [], e => rfl
  | [], n :: q, e => by
      cases isFile with
      | true => simpa using dataAt_of_leaf rfl n q
      | false => rfl
  | name :: p, [], e => by simp [dataAt_nil, alter]
  | name :: p, m :: q, e => by
      by_cases hm : m = name
      · subst hm
        rw [dataAt_cons, child?_alter_self (keepsName_refresh isFile), Option.getD_some,
          dataAt_alter_refresh isFile p q, dataAt_cons e m p, dataAt_cons e m q]
        simp [List.cons_prefix_cons]
      · rw [dataAt_cons, child?_alter_ne (keepsName_refresh isFile) hm, ← dataAt_cons, if_neg, if_neg]
        · rintro ⟨-, hpre⟩
          exact hm (List.cons_prefix_cons.mp hpre).1.symm
        · intro heq
          exact hm (List.cons.inj heq).1

theorem entryAt?_alter_self (hf : KeepsName f) : ∀ (p : List Bytes) (e : FstEntry),
    ∃ e', (alter f p e).entryAt? p = some (f e') ∧ e'.data = e.dataAt p
  | [], e => ⟨e, rfl, rfl⟩
  | name :: p, e => by
      obtain ⟨e', he', hdata⟩ := entryAt?_alter_self hf p ((e.child? name).getD (fallback name))
      refine ⟨e', ?_, hdata.trans (dataAt_cons e name p).symm⟩
      rw [entryAt?_cons, child?_alter_self hf]
      exact he'

end FstEntry

end Karphin.IOS.FS

/-!
## What a lookup leaves alone
-/

namespace Karphin.IOS.FS.HostFileSystem

open Karphin.Lib FstEntry

variable {s s' s'' : HostFileSystem} {p : FstPointer} {path q : Bytes}

/-! ## The trees -/

@[simp] theorem setFst_host (b : Bool) (e : FstEntry) : (s.setFst b e).host = s.host := by cases b <;> rfl
@[simp] theorem setFst_rootPath (b : Bool) (e : FstEntry) : (s.setFst b e).rootPath = s.rootPath := by cases b <;> rfl
@[simp] theorem setFst_nandRedirects (b : Bool) (e : FstEntry) : (s.setFst b e).nandRedirects = s.nandRedirects := by
  cases b <;> rfl
@[simp] theorem setFst_handles (b : Bool) (e : FstEntry) : (s.setFst b e).handles = s.handles := by cases b <;> rfl
@[simp] theorem setFst_openFiles (b : Bool) (e : FstEntry) : (s.setFst b e).openFiles = s.openFiles := by
  cases b <;> rfl

@[simp] theorem fst_setFst_self (b : Bool) (e : FstEntry) : (s.setFst b e).fst b = e := by cases b <;> rfl

theorem fst_setFst_ne {b b' : Bool} (h : b' ≠ b) (e : FstEntry) : (s.setFst b e).fst b' = s.fst b' := by
  cases b <;> cases b' <;> first | rfl | exact absurd rfl h

structure SameFiles (s s' : HostFileSystem) : Prop where
  rootPath : s'.rootPath = s.rootPath
  nandRedirects : s'.nandRedirects = s.nandRedirects
  host : s'.host = s.host
  handles : s'.handles = s.handles
  openFiles : s'.openFiles = s.openFiles

theorem SameFiles.rfl' (s : HostFileSystem) : SameFiles s s := ⟨rfl, rfl, rfl, rfl, rfl⟩

theorem SameFiles.trans (h : SameFiles s s') (h' : SameFiles s' s'') : SameFiles s s'' where
  rootPath := h'.rootPath.trans h.rootPath
  nandRedirects := h'.nandRedirects.trans h.nandRedirects
  host := h'.host.trans h.host
  handles := h'.handles.trans h.handles
  openFiles := h'.openFiles.trans h.openFiles

theorem sameFiles_modifyEntry (s : HostFileSystem) (p : FstPointer) (f : FstEntry → FstEntry) :
    SameFiles s (s.modifyEntry p f) := by
  constructor <;> simp [modifyEntry]

theorem SameFiles.buildFilename (h : SameFiles s s') (path : Bytes) : s'.buildFilename path = s.buildFilename path := by
  simp only [HostFileSystem.buildFilename, h.nandRedirects, h.rootPath]

/-! ## The lookup -/

theorem getFstEntryForPath_some (h : s.getFstEntryForPath path = some (p, s')) :
    (path = [slash] ∧ p = ⟨false, []⟩ ∧ s' = s) ∨
      (path ≠ [slash] ∧ isValidNonRootPath path = true ∧ s.host.exists (s.buildFilename path).hostPath = true ∧
        p = ⟨(s.buildFilename path).isRedirect, components path⟩ ∧
        s' = s.modifyEntry p (refresh (s.host.isFile (s.buildFilename path).hostPath))) := by
  rw [getFstEntryForPath] at h
  split at h
  · next hroot =>
      cases h
      exact .inl ⟨hroot, rfl, rfl⟩
  · next hroot =>
      split at h
      · cases h
      · next hvalid =>
          simp only at h
          split at h
          · cases h
          · next hexists =>
              cases h
              exact .inr ⟨hroot, by simpa using hvalid, by simpa using hexists, rfl, rfl⟩

theorem getFstEntryForPath_isSome (hvalid : isValidNonRootPath path = true)
    (hexists : s.host.exists (s.buildFilename path).hostPath = true) : (s.getFstEntryForPath path).isSome := by
  rw [getFstEntryForPath]
  split
  · rfl
  · simp [hvalid, hexists]

theorem getFstEntryForPath_sameFiles (h : s.getFstEntryForPath path = some (p, s')) : SameFiles s s' := by
  rcases getFstEntryForPath_some h with ⟨-, -, rfl⟩ | ⟨-, -, -, -, rfl⟩
  · exact .rfl' _
  · exact sameFiles_modifyEntry s p _

/-! ## Metadata -/

def metadataAt (s : HostFileSystem) (path : Bytes) : Option Metadata :=
  (s.getFstEntryForPath path).map fun r => (r.2.entry r.1).data

theorem metadataAt_root (s : HostFileSystem) : s.metadataAt [slash] = some s.rootEntry.data := rfl

theorem metadataAt_of_missing (hne : path ≠ [slash])
    (h : ¬(isValidNonRootPath path = true ∧ s.host.exists (s.buildFilename path).hostPath = true)) :
    s.metadataAt path = none := by
  rw [metadataAt, getFstEntryForPath, if_neg hne]
  by_cases hvalid : isValidNonRootPath path = true
  · have hexists : s.host.exists (s.buildFilename path).hostPath = false := by simpa [hvalid] using h
    simp [hvalid, hexists]
  · simp [hvalid]

theorem metadataAt_of_exists (hne : path ≠ [slash]) (hvalid : isValidNonRootPath path = true)
    (hexists : s.host.exists (s.buildFilename path).hostPath = true) :
    s.metadataAt path = some { (s.fst (s.buildFilename path).isRedirect).dataAt (components path) with
      isFile := s.host.isFile (s.buildFilename path).hostPath } := by
  obtain ⟨e', he', hdata⟩ := entryAt?_alter_self (keepsName_refresh (s.host.isFile (s.buildFilename path).hostPath))
    (components path) (s.fst (s.buildFilename path).isRedirect)
  rw [metadataAt, getFstEntryForPath, if_neg hne]
  simp only [hvalid, hexists, Bool.not_true, Bool.false_eq_true, if_false, Option.map_some]
  rw [entry, modifyEntry, fst_setFst_self]
  have hentry := he'
  rw [components] at hentry
  rw [hentry, Option.getD_some, ← hdata]
  rfl

theorem components_ne_nil (h : isValidNonRootPath path = true) : components path ≠ [] := by
  obtain ⟨w, rfl, hw, -⟩ := valid_cons h
  exact splitString_ne_nil hw

/-- A lookup clears the entries below a file: no path that exists is found there. -/
def FilesAreLeaves (s : HostFileSystem) : Prop :=
  ∀ path q, isValidNonRootPath path = true → isValidNonRootPath q = true →
    (s.buildFilename q).isRedirect = (s.buildFilename path).isRedirect →
    s.host.isFile (s.buildFilename path).hostPath = true → s.host.exists (s.buildFilename q).hostPath = true →
    components path <+: components q → components path = components q

theorem Unnested.filesAreLeaves (hs : s.Unnested) : s.FilesAreLeaves := by
  intro path q hpath hq hsame hfile hexists hpre
  by_contra hne
  obtain ⟨y, rfl, hy, hlast⟩ := exists_of_components hpath hq hpre hne
  have hhost := buildFilename_append hs (valid_getLast? hpath) (valid_head? hpath) hsame
  have hnone : s.host.node (s.buildFilename (path ++ slash :: y)).hostPath = none := by
    rw [Host.node, hhost]
    apply FileTree.below
    · intro hdir
      rw [Host.isFile, Host.node, hdir] at hfile
      cases hfile
    · exact List.prefix_append _ _
    · simpa using names_ne_nil hy hlast
  rw [Host.exists, hnone] at hexists
  cases hexists

theorem lookup_metadataAt (hs : s.FilesAreLeaves) (h : s.getFstEntryForPath path = some (p, s')) (q : Bytes) :
    s'.metadataAt q = s.metadataAt q := by
  rcases getFstEntryForPath_some h with ⟨-, -, rfl⟩ | ⟨-, hvalid, -, rfl, rfl⟩
  · rfl
  have hfiles := sameFiles_modifyEntry s ⟨(s.buildFilename path).isRedirect, components path⟩
    (refresh (s.host.isFile (s.buildFilename path).hostPath))
  by_cases hroot : q = [slash]
  · subst hroot
    rw [metadataAt_root, metadataAt_root, modifyEntry]
    cases (s.buildFilename path).isRedirect with
    | true => rfl
    | false =>
        cases hcomponents : components path with
        | nil => exact absurd hcomponents (components_ne_nil hvalid)
        | cons name rest => rfl
  by_cases hq : isValidNonRootPath q = true ∧ s.host.exists (s.buildFilename q).hostPath = true
  · rw [metadataAt_of_exists hroot hq.1 hq.2, metadataAt_of_exists hroot hq.1
      (by rw [hfiles.host, hfiles.buildFilename]; exact hq.2), hfiles.host, hfiles.buildFilename]
    by_cases hsame : (s.buildFilename q).isRedirect = (s.buildFilename path).isRedirect
    · rw [modifyEntry, hsame, fst_setFst_self, dataAt_alter_refresh]
      by_cases heq : components q = components path
      · rw [if_pos heq, heq]
      · rw [if_neg heq, if_neg]
        rintro ⟨hfile, hpre⟩
        exact heq (hs path q hvalid hq.1 hsame hfile hq.2 hpre).symm
    · rw [modifyEntry, fst_setFst_ne hsame]
  · rw [metadataAt_of_missing hroot hq, metadataAt_of_missing hroot]
    rw [hfiles.host, hfiles.buildFilename]
    exact hq

end Karphin.IOS.FS.HostFileSystem
