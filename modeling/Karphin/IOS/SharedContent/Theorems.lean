import Karphin.Lib.FinNumerals

/-!
# The map of shared contents

`SharedContentMap` gives an ID to the SHA-1 hash of each content that is shared between titles, and keeps the IDs in a
file.
-/

namespace Karphin.IOS

abbrev Sha1 := Vector UInt8 20

/-- `SharedContentMap::Entry`: the ID is a string. -/
structure SharedContent where
  id : Vector UInt8 8
  sha1 : Sha1
  deriving DecidableEq

namespace SharedContent

def bytes (e : SharedContent) : List UInt8 := e.id.toList ++ e.sha1.toList

def ofBytes (bytes : List UInt8) : SharedContent where
  id := Vector.ofFn fun i => bytes.getD i 0
  sha1 := Vector.ofFn fun i => bytes.getD (8 + i) 0

def size : Nat := 28

/-- The entries of a file, up to the first that is not complete. -/
def readAll (file : List UInt8) : List SharedContent :=
  if size ≤ file.length then ofBytes (file.take size) :: readAll (file.drop size) else []
termination_by file.length
decreasing_by
  rw [List.length_drop]
  simp only [size] at *
  omega

def writeAll (entries : List SharedContent) : List UInt8 := entries.flatMap bytes

end SharedContent

structure SharedContentMap where
  lastId : Nat := 0
  entries : List SharedContent := []

namespace SharedContentMap

open SharedContent (readAll writeAll)

def hexDigit (n : Nat) : UInt8 := if n < 10 then UInt8.ofNat (48 + n) else UInt8.ofNat (87 + n)

/-- `{:08x}` of a 32-bit number. -/
def idString (n : Nat) : Vector UInt8 8 := Vector.ofFn fun i => hexDigit (n / 16 ^ (7 - i.1) % 16)

def filename (id : Vector UInt8 8) : List UInt8 := "/shared1/".toUTF8.toList ++ (id.toList ++ ".app".toUTF8.toList)

def construct (file : Option (List UInt8)) : SharedContentMap :=
  match file with
  | none => {}
  | some file => { lastId := (readAll file).length % 2 ^ 32, entries := readAll file }

def getFilenameFromSHA1 (m : SharedContentMap) (sha1 : Sha1) : Option (List UInt8) :=
  (m.entries.find? (·.sha1 = sha1)).map (filename ·.id)

structure State where
  map : SharedContentMap := {}
  file : Option (List UInt8) := none

def writeEntries (written : Bool) (s : State) : State :=
  if written then { s with file := some (writeAll s.map.entries) } else s

def addSharedContent (sha1 : Sha1) (written : Bool) (s : State) : List UInt8 × State :=
  match s.map.getFilenameFromSHA1 sha1 with
  | some filename => (filename, s)
  | none =>
      let id := idString s.map.lastId
      let s := writeEntries written { s with map.entries := s.map.entries ++ [⟨id, sha1⟩] }
      (filename id, { s with map.lastId := (s.map.lastId + 1) % 2 ^ 32 })

def deleteSharedContent (sha1 : Sha1) (written : Bool) (s : State) : State :=
  writeEntries written { s with map.entries := s.map.entries.filter (·.sha1 ≠ sha1) }

/-! ## Runs -/

inductive Op
  | add (sha1 : Sha1) (written : Bool)
  | delete (sha1 : Sha1) (written : Bool)
  | construct

def step (s : State) : Op → State
  | .add sha1 written => (addSharedContent sha1 written s).2
  | .delete sha1 written => deleteSharedContent sha1 written s
  | .construct => { s with map := construct s.file }

def run (ops : List Op) : State := ops.foldl step {}

end SharedContentMap

end Karphin.IOS

/-!
# The IDs of shared contents
-/

namespace Karphin.IOS

namespace SharedContent

@[simp]
theorem length_bytes (e : SharedContent) : e.bytes.length = size := by simp [bytes, size]

theorem ofBytes_bytes (e : SharedContent) : ofBytes e.bytes = e := by
  obtain ⟨id, sha1⟩ := e
  simp only [ofBytes, bytes, mk.injEq]
  constructor
  · ext i hi
    simp [List.getElem?_append_left, hi]
  · ext i hi
    simp [List.getElem?_append_right, hi]

theorem readAll_writeAll : ∀ (entries : List SharedContent), readAll (writeAll entries) = entries
  | [] => by
      rw [readAll]
      rfl
  | e :: entries => by
      have hwrite : writeAll (e :: entries) = e.bytes ++ writeAll entries := List.flatMap_cons
      have htake : (e.bytes ++ writeAll entries).take size = e.bytes := List.take_left' e.length_bytes
      have hdrop : (e.bytes ++ writeAll entries).drop size = writeAll entries := List.drop_left' e.length_bytes
      rw [readAll, hwrite, if_pos (by simp), htake, hdrop, ofBytes_bytes, readAll_writeAll entries]

end SharedContent

namespace SharedContentMap

open SharedContent (readAll writeAll readAll_writeAll)

def Distinct (entries : List SharedContent) : Prop := entries.Pairwise fun e e' => e.sha1 ≠ e'.sha1 ∧ e.id ≠ e'.id

structure State.Good (s : State) : Prop where
  entries : Distinct s.map.entries
  file : ∀ file, s.file = some file → Distinct (readAll file)

def NoSharedId (m : SharedContentMap) : Prop :=
  ∀ e ∈ m.entries, ∀ e' ∈ m.entries, e.sha1 ≠ e'.sha1 → e.id ≠ e'.id

variable {s : State} {m : SharedContentMap} {h h' : Sha1} {f : List UInt8}

theorem filename_injective {id id' : Vector UInt8 8} (h : filename id = filename id') : id = id' := by
  rw [filename, filename, List.append_right_inj, List.append_left_inj] at h
  exact Vector.toList_inj.mp h

theorem getFilename_some (h : m.getFilenameFromSHA1 h' = some f) : ∃ e ∈ m.entries, e.sha1 = h' ∧ f = filename e.id := by
  rw [getFilenameFromSHA1, Option.map_eq_some_iff] at h
  obtain ⟨e, hfind, hf⟩ := h
  exact ⟨e, List.mem_of_find?_eq_some hfind, by simpa using List.find?_some hfind, hf.symm⟩

theorem getFilename_none (h : m.getFilenameFromSHA1 h' = none) : ∀ e ∈ m.entries, e.sha1 ≠ h' := by
  rw [getFilenameFromSHA1, Option.map_eq_none_iff, List.find?_eq_none] at h
  intro e he
  simpa using h e he

theorem NoSharedId.injective (hm : NoSharedId m) (hf : m.getFilenameFromSHA1 h = some f)
    (hf' : m.getFilenameFromSHA1 h' = some f) : h = h' := by
  obtain ⟨e, he, hsha1, hname⟩ := getFilename_some hf
  obtain ⟨e', he', hsha1', hname'⟩ := getFilename_some hf'
  by_contra hne
  rw [← hsha1, ← hsha1'] at hne
  exact hm e he e' he' hne (filename_injective (hname.symm.trans hname'))

theorem Distinct.noSharedId (hd : Distinct m.entries) : NoSharedId m := by
  intro e he e' he' hne
  have hsymm : Std.Symm fun e e' : SharedContent => e.sha1 ≠ e'.sha1 ∧ e.id ≠ e'.id :=
    ⟨fun _ _ h => ⟨h.1.symm, h.2.symm⟩⟩
  exact (List.Pairwise.forall hd he he' fun heq => hne (congrArg (·.sha1) heq)).2

theorem good_writeEntries (hs : s.Good) (written : Bool) : (writeEntries written s).Good := by
  cases written with
  | false => exact hs
  | true =>
      refine ⟨hs.entries, fun file hfile => ?_⟩
      simp only [writeEntries, if_true, Option.some.injEq] at hfile
      rw [← hfile, readAll_writeAll]
      exact hs.entries

theorem entries_writeEntries (written : Bool) (s : State) : (writeEntries written s).map = s.map := by
  cases written <;> rfl

theorem State.Good.delete (hs : s.Good) (h : Sha1) (written : Bool) : (deleteSharedContent h written s).Good := by
  apply good_writeEntries
  exact ⟨hs.entries.filter _, hs.file⟩

theorem State.Good.construct (hs : s.Good) : State.Good { s with map := construct s.file } := by
  refine ⟨?_, hs.file⟩
  cases hfile : s.file with
  | none => exact .nil
  | some file => exact hs.file file hfile

theorem addSharedContent_new (hnew : s.map.getFilenameFromSHA1 h = none) (written : Bool) :
    (addSharedContent h written s).1 = filename (idString s.map.lastId) ∧
      (addSharedContent h written s).2.map.entries = s.map.entries ++ [⟨idString s.map.lastId, h⟩] := by
  rw [addSharedContent]
  simp only [hnew, entries_writeEntries, and_self]

theorem State.Good.add (hs : s.Good) (written : Bool) (hfree : s.map.getFilenameFromSHA1 h = none →
    ∀ e ∈ s.map.entries, e.id ≠ idString s.map.lastId) : (addSharedContent h written s).2.Good := by
  cases hname : s.map.getFilenameFromSHA1 h with
  | some f =>
      rw [addSharedContent]
      simp only [hname]
      exact hs
  | none =>
      have hgood : State.Good { s with map.entries := s.map.entries ++ [⟨idString s.map.lastId, h⟩] } := by
        refine ⟨List.pairwise_append.mpr ⟨hs.entries, List.pairwise_singleton .., ?_⟩, hs.file⟩
        intro e he e' he'
        rw [List.mem_singleton.mp he']
        exact ⟨getFilename_none hname e he, hfree hname e he⟩
      have hwritten := good_writeEntries hgood written
      rw [addSharedContent]
      simp only [hname]
      exact ⟨hwritten.entries, hwritten.file⟩

/-! ## Runs -/

theorem run_append (ops : List Op) (op : Op) : run (ops ++ [op]) = step (run ops) op := by
  rw [run, List.foldl_append]
  rfl

/-- Whenever a new hash is added, no entry has the ID that the counter stands at: the number of the entries that were
last loaded, and of the hashes that were added since. -/
def CounterFree (ops : List Op) : Prop :=
  ∀ before h written, before ++ [.add h written] <+: ops → (run before).map.getFilenameFromSHA1 h = none →
    ∀ e ∈ (run before).map.entries, e.id ≠ idString (run before).map.lastId

theorem good_run : ∀ {ops : List Op}, CounterFree ops → (run ops).Good := by
  intro ops
  induction ops using List.reverseRecOn with
  | nil => exact fun _ => ⟨.nil, fun file hfile => nomatch hfile⟩
  | append_singleton ops op ih =>
      intro hfree
      have hs := ih fun before h written hbefore => hfree before h written (hbefore.trans (List.prefix_append ..))
      rw [run_append]
      cases op with
      | add h written => exact hs.add written (hfree ops h written (List.prefix_refl _))
      | delete h written => exact hs.delete h written
      | construct => exact hs.construct

/-- No two contents share an ID, the name of a file belongs to one hash, and the content that is installed next is not
written to the file of another one. -/
def Separate (m : SharedContentMap) : Prop :=
  NoSharedId m ∧ (∀ h h' f, m.getFilenameFromSHA1 h = some f → m.getFilenameFromSHA1 h' = some f → h = h')

def InstallsSeparate (s : State) (h : Sha1) (written : Bool) : Prop :=
  ∀ h' f, h' ≠ h → s.map.getFilenameFromSHA1 h' = some f → (addSharedContent h written s).1 ≠ f

theorem State.Good.installsSeparate (hs : s.Good) (written : Bool) (hfree : s.map.getFilenameFromSHA1 h = none →
    ∀ e ∈ s.map.entries, e.id ≠ idString s.map.lastId) : InstallsSeparate s h written := by
  intro h' f hne hf heq
  cases hname : s.map.getFilenameFromSHA1 h with
  | some f' =>
      rw [addSharedContent] at heq
      simp only [hname] at heq
      rw [heq] at hname
      exact hne (hs.entries.noSharedId.injective hf hname)
  | none =>
      obtain ⟨e, he, -, hfile⟩ := getFilename_some hf
      rw [(addSharedContent_new hname written).1, hfile] at heq
      exact hfree hname e he (filename_injective heq).symm

def RunSeparate (ops : List Op) : Prop :=
  (∀ before, before <+: ops → Separate (run before).map) ∧
    ∀ before h written, before ++ [.add h written] <+: ops → InstallsSeparate (run before) h written

theorem runSeparate_iff (ops : List Op) : RunSeparate ops ↔ CounterFree ops := by
  constructor
  · intro hsep before h written hbefore hnew e he heq
    obtain ⟨-, hentries⟩ := addSharedContent_new hnew written
    have hafter := (hsep.1 _ hbefore).1
    rw [run_append] at hafter
    refine hafter e ?_ ⟨idString (run before).map.lastId, h⟩ ?_ (getFilename_none hnew e he) heq
    · rw [step, hentries]
      exact List.mem_append_left _ he
    · rw [step, hentries]
      exact List.mem_append_right _ (List.mem_singleton.mpr rfl)
  · intro hfree
    have hgood : ∀ before, before <+: ops → (run before).Good := fun before hbefore =>
      good_run fun before' h written hmore => hfree before' h written (hmore.trans hbefore)
    constructor
    · intro before hbefore
      have hno := (hgood before hbefore).entries.noSharedId
      exact ⟨hno, fun h h' f => hno.injective⟩
    · intro before h written hbefore
      exact (hgood before ((List.prefix_append ..).trans hbefore)).installsSeparate written
        (hfree before h written hbefore)

def constantSha1 (x : UInt8) : Sha1 := Vector.replicate 20 x

/-- The first of two contents is deleted, and the map is loaded: the next content gets the ID of the second one. -/
theorem reload_shares : ¬ RunSeparate [.add (constantSha1 1) true, .add (constantSha1 2) true,
    .delete (constantSha1 1) true, .construct, .add (constantSha1 3) true] := by
  intro h
  have hlast := (h.1 _ (List.prefix_refl _)).1
  have hentries : (run [.add (constantSha1 1) true, .add (constantSha1 2) true, .delete (constantSha1 1) true,
      .construct, .add (constantSha1 3) true]).map.entries =
      [⟨idString 1, constantSha1 2⟩, ⟨idString 1, constantSha1 3⟩] := by
    decide +kernel
  rw [NoSharedId, hentries] at hlast
  exact hlast _ (List.mem_cons_self ..) _ (List.mem_cons_of_mem _ (List.mem_cons_self ..)) (by decide) rfl

end SharedContentMap

end Karphin.IOS
