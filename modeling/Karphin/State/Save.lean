import Karphin.State.Theorems

/-!
# Saving a state

A state is written to a temporary file, which replaces the old file. The old file becomes the backup of the last state. The
failures of the file operations are reported and no more, but for the first.
-/

namespace Karphin.State

open Lib

abbrev Path := List Char

abbrev FileSystem := Path → Option (List UInt8)

/-- Which operations fail. A write and `Close` may leave this many of the bytes. -/
structure Failures where
  create : Bool := false
  writes : Nat → Option Nat := fun _ => none
  deleteLast : Bool := false
  deleteLastDtm : Bool := false
  renameLast : Bool := false
  renameLastDtm : Bool := false
  deleteDtm : Bool := false
  close : Option Nat := none
  renameTemp : Bool := false

/-- Without a movie, at the start of a recording from a saved state, and else. -/
inductive MovieState where
  | inactive
  | starting
  | active (saveRecording : FileSystem → FileSystem)

structure Call where
  lz4 : Lz4
  session : Session
  buffer : List UInt8
  filename : Path
  stateSaves : Path
  threadId : Nat
  movie : MovieState
  failures : Failures

def kept (outcome : Option Nat) (bytes : List UInt8) : List UInt8 :=
  match outcome with
  | none => bytes
  | some n => bytes.take n

def written (outcomes : Nat → Option Nat) : (number : Nat) → List (List UInt8) → List UInt8
  | _, [] => []
  | k, bytes :: more => kept (outcomes k) bytes ++ written outcomes (k + 1) more

def delete (fails : Bool) (path : Path) (fs : FileSystem) : FileSystem :=
  if (fs path).isSome && !fails then Function.update fs path none else fs

def rename (fails : Bool) (source target : Path) (fs : FileSystem) : FileSystem × Bool :=
  match fs source with
  | none => (fs, false)
  | some content =>
      if fails then (fs, false) else (Function.update (Function.update fs source none) target (some content), true)

def dtm (path : Path) : Path := path ++ ['.', 'd', 't', 'm']

def tempName (filename : Path) (counter : Nat) : Path := filename ++ (toString counter).toList ++ ['.', 't', 'm', 'p']

/-- The loop that looks for a free name, for `fuel` rounds at most. -/
def tempFilename (fs : FileSystem) (filename : Path) : (fuel counter : Nat) → Option Path
  | 0, _ => none
  | fuel + 1, counter =>
      let temp := tempName filename counter
      if (fs temp).isSome then tempFilename fs filename fuel (counter + 1) else some temp

namespace Call

def lastStateFilename (c : Call) : Path := c.stateSaves ++ ['l', 'a', 's', 't', 'S', 't', 'a', 't', 'e', '.', 's', 'a', 'v']

def backup (c : Call) (fs : FileSystem) : FileSystem :=
  if (fs c.filename).isSome then
    let fs := delete c.failures.deleteLast c.lastStateFilename fs
    let fs := delete c.failures.deleteLastDtm (dtm c.lastStateFilename) fs
    let (fs, moved) := rename c.failures.renameLast c.filename c.lastStateFilename fs
    if moved then (rename c.failures.renameLastDtm (dtm c.filename) (dtm c.lastStateFilename) fs).1 else fs
  else fs

def saveMovie (c : Call) (fs : FileSystem) : FileSystem :=
  match c.movie with
  | .inactive => delete c.failures.deleteDtm (dtm c.filename) fs
  | .starting => fs
  | .active saveRecording => saveRecording fs

def writes (c : Call) : List (List UInt8) := stateWrites c.lz4 c.session c.buffer

def tempContent (c : Call) : List UInt8 := kept c.failures.close (written c.failures.writes 0 c.writes)

def dump (c : Call) (temp : Path) (fs : FileSystem) : FileSystem :=
  if c.failures.create then fs
  else
    let fs := Function.update fs temp (some (written c.failures.writes 0 c.writes))
    let fs := c.saveMovie (c.backup fs)
    let fs := Function.update fs temp (some c.tempContent)
    (rename c.failures.renameTemp temp c.filename fs).1

/-- None where no name is free in `fuel` rounds. -/
def compressAndDumpState (c : Call) (fuel : Nat) (fs : FileSystem) : Option FileSystem :=
  (tempFilename fs c.filename fuel c.threadId).map fun temp => c.dump temp fs

end Call

/-! ## The content of the temporary file -/

def Kept (outcome : Option Nat) (bytes : List UInt8) : Prop := ∀ n, outcome = some n → bytes.length ≤ n

theorem kept_length_le (outcome : Option Nat) (bytes : List UInt8) : (kept outcome bytes).length ≤ bytes.length := by
  cases outcome with
  | none => exact Nat.le_refl _
  | some n => exact List.length_take_le' ..

theorem kept_length_iff {outcome : Option Nat} {bytes : List UInt8} :
    (kept outcome bytes).length = bytes.length ↔ Kept outcome bytes := by
  cases outcome with
  | none => simp [kept, Kept]
  | some n => simp [kept, Kept]

theorem kept_eq {outcome : Option Nat} {bytes : List UInt8} (h : Kept outcome bytes) : kept outcome bytes = bytes := by
  cases outcome with
  | none => rfl
  | some n => exact List.take_of_length_le (h n rfl)

def AllKept (outcomes : Nat → Option Nat) : (number : Nat) → List (List UInt8) → Prop
  | _, [] => True
  | k, bytes :: more => Kept (outcomes k) bytes ∧ AllKept outcomes (k + 1) more

theorem written_length (outcomes : Nat → Option Nat) : ∀ (k : Nat) (writes : List (List UInt8)),
    (written outcomes k writes).length ≤ writes.flatten.length ∧
      ((written outcomes k writes).length = writes.flatten.length ↔ AllKept outcomes k writes)
  | _, [] => ⟨Nat.le_refl _, iff_of_true rfl trivial⟩
  | k, bytes :: more => by
      obtain ⟨hle, hiff⟩ := written_length outcomes (k + 1) more
      have hkept := kept_length_le (outcomes k) bytes
      rw [written, List.flatten_cons, List.length_append, List.length_append, AllKept, ← kept_length_iff, ← hiff]
      omega

theorem written_eq {outcomes : Nat → Option Nat} : ∀ {k : Nat} {writes : List (List UInt8)}, AllKept outcomes k writes →
    written outcomes k writes = writes.flatten
  | _, [], _ => rfl
  | k, bytes :: more, h => by rw [written, kept_eq h.1, written_eq h.2, List.flatten_cons]

def Failures.Complete (f : Failures) (writes : List (List UInt8)) : Prop :=
  AllKept f.writes 0 writes ∧ Kept f.close writes.flatten

theorem tempContent_eq_iff (c : Call) :
    c.tempContent = stateFile c.lz4 c.session c.buffer ↔ c.failures.Complete c.writes := by
  have hkept := kept_length_le c.failures.close (written c.failures.writes 0 c.writes)
  obtain ⟨hle, hiff⟩ := written_length c.failures.writes 0 c.writes
  show c.tempContent = c.writes.flatten ↔ _
  constructor
  · intro h
    have hlength : (kept c.failures.close (written c.failures.writes 0 c.writes)).length = c.writes.flatten.length :=
      congrArg List.length h
    have hall := hiff.mp (by omega)
    refine ⟨hall, ?_⟩
    rw [← written_eq hall]
    exact kept_length_iff.mp (by omega)
  · rintro ⟨hall, hclose⟩
    rw [Call.tempContent, written_eq hall, kept_eq hclose]

/-! ## The path -/

theorem tempName_ne (filename : Path) (counter : Nat) : tempName filename counter ≠ filename := by
  intro h
  have hlen := congrArg List.length h
  simp only [tempName, List.length_append, List.length_cons] at hlen
  omega

theorem tempName_ne_append (filename path : Path) (counter : Nat) {ending : Path} (h : ending.getLast? ≠ some 'p')
    (hne : ending ≠ []) : tempName filename counter ≠ path ++ ending := by
  intro heq
  have hlast := congrArg List.getLast? heq
  rw [tempName, List.getLast?_append_of_ne_nil _ hne, List.getLast?_append_of_ne_nil _ (List.cons_ne_nil _ _)] at hlast
  exact h hlast.symm

theorem dtm_ne (path : Path) : dtm path ≠ path := by simp [dtm]

theorem dtm_ne_last (path : Path) (c : Call) : dtm path ≠ c.lastStateFilename := by
  intro heq
  have hlast := congrArg List.getLast? heq
  rw [dtm, Call.lastStateFilename, List.getLast?_append_of_ne_nil _ (List.cons_ne_nil _ _),
    List.getLast?_append_of_ne_nil _ (List.cons_ne_nil _ _)] at hlast
  exact absurd hlast (by decide)

theorem tempFilename_some {fs : FileSystem} {filename temp : Path} : ∀ {fuel counter : Nat},
    tempFilename fs filename fuel counter = some temp → ∃ k, temp = tempName filename k
  | fuel + 1, counter, h => by
      rw [tempFilename] at h
      split at h
      next => exact tempFilename_some h
      next => exact ⟨counter, (Option.some.inj h).symm⟩

section

variable {fs : FileSystem} {p q source target : Path} {fails : Bool}

theorem delete_of_ne (h : q ≠ p) : delete fails p fs q = fs q := by
  rw [delete]
  split
  next => exact Function.update_of_ne h _ _
  next => rfl

theorem delete_self : delete fails p fs p = if fails then fs p else none := by
  rw [delete]
  cases fails <;> cases h : fs p <;> simp [h]

theorem rename_of_ne (hs : q ≠ source) (ht : q ≠ target) : (rename fails source target fs).1 q = fs q := by
  rw [rename]
  split
  next => rfl
  next =>
    split
    next => rfl
    next => exact (Function.update_of_ne ht _ _).trans (Function.update_of_ne hs _ _)

theorem rename_none (h : fs source = none) : rename fails source target fs = (fs, false) := by rw [rename, h]

theorem rename_some {content : List UInt8} (h : fs source = some content) : rename fails source target fs =
    if fails then (fs, false) else (Function.update (Function.update fs source none) target (some content), true) := by
  rw [rename, h]

end

namespace Call

variable {c : Call} {fs : FileSystem} {temp : Path}

/-- `SaveRecording` writes the movie, and the state that it begins at. -/
def Confined (c : Call) : Prop := ∀ saveRecording, c.movie = .active saveRecording → ∀ fs q, q ≠ dtm c.filename →
  q ≠ dtm c.filename ++ ['.', 's', 'a', 'v'] → saveRecording fs q = fs q

theorem saveMovie_of_ne (h : c.Confined) {q : Path} (hq : q ≠ dtm c.filename)
    (hq' : q ≠ dtm c.filename ++ ['.', 's', 'a', 'v']) : c.saveMovie fs q = fs q := by
  rw [saveMovie]
  cases hmovie : c.movie with
  | inactive => exact delete_of_ne hq
  | starting => rfl
  | active saveRecording => exact h saveRecording hmovie fs q hq hq'

/-- The backup leaves the old file where it is, or the file of a movie with the right content comes there. -/
def Spares (c : Call) (fs : FileSystem) : Prop :=
  fs c.filename = none ∨
  (c.filename ≠ c.lastStateFilename ∧ c.filename ≠ dtm c.lastStateFilename ∧ c.failures.renameLast = true) ∨
  (c.filename = c.lastStateFilename ∧ c.failures.deleteLast = true) ∨
  (c.filename = dtm c.lastStateFilename ∧ c.failures.deleteLastDtm = true ∧ (c.failures.renameLast = true ∨
    (c.failures.renameLastDtm = false ∧ (fs (dtm c.filename) = fs c.filename ∨
      fs (dtm c.filename) = some (stateFile c.lz4 c.session c.buffer)))))

def moveOld (c : Call) (fs : FileSystem) : FileSystem :=
  let (fs, moved) := rename c.failures.renameLast c.filename c.lastStateFilename fs
  if moved then (rename c.failures.renameLastDtm (dtm c.filename) (dtm c.lastStateFilename) fs).1 else fs

theorem backup_some {content : List UInt8} (h : fs c.filename = some content) : c.backup fs =
    c.moveOld (delete c.failures.deleteLastDtm (dtm c.lastStateFilename)
      (delete c.failures.deleteLast c.lastStateFilename fs)) := by
  rw [backup, h]
  rfl

theorem moveOld_none (h : fs c.filename = none) : c.moveOld fs = fs := by
  rw [moveOld, rename_none h]
  rfl

theorem moveOld_some {content : List UInt8} (h : fs c.filename = some content) : c.moveOld fs =
    if c.failures.renameLast then fs
    else (rename c.failures.renameLastDtm (dtm c.filename) (dtm c.lastStateFilename)
      (Function.update (Function.update fs c.filename none) c.lastStateFilename (some content))).1 := by
  rw [moveOld, rename_some h]
  cases c.failures.renameLast <;> rfl

theorem moveOld_of_ne {content : List UInt8} (h : fs c.filename = some content) (hlast : c.filename ≠ c.lastStateFilename)
    (hdtm : c.filename ≠ dtm c.lastStateFilename) :
    c.moveOld fs c.filename = if c.failures.renameLast then some content else none := by
  rw [moveOld_some h]
  split
  next => exact h
  next => rw [rename_of_ne (dtm_ne _).symm hdtm, Function.update_of_ne hlast, Function.update_self]

theorem moveOld_last {content : List UInt8} (h : fs c.filename = some content) (hlast : c.filename = c.lastStateFilename) :
    c.moveOld fs c.filename = some content := by
  rw [moveOld_some h]
  split
  next => exact h
  next => rw [rename_of_ne (dtm_ne _).symm (hlast ▸ (dtm_ne _).symm), ← hlast, Function.update_self]

theorem moveOld_dtm {content : List UInt8} (h : fs c.filename = some content) (hdtm : c.filename = dtm c.lastStateFilename) :
    c.moveOld fs c.filename = if c.failures.renameLast then some content
      else if c.failures.renameLastDtm then none else fs (dtm c.filename) := by
  have hlast : c.filename ≠ c.lastStateFilename := hdtm ▸ dtm_ne _
  rw [moveOld_some h]
  split
  next => exact h
  next =>
    have hmoved : Function.update (Function.update fs c.filename none) c.lastStateFilename (some content) (dtm c.filename) =
        fs (dtm c.filename) := by
      rw [Function.update_of_ne (dtm_ne_last _ c), Function.update_of_ne (dtm_ne _)]
    have htaken : Function.update (Function.update fs c.filename none) c.lastStateFilename (some content) c.filename = none := by
      rw [Function.update_of_ne hlast, Function.update_self]
    rw [← hdtm]
    cases hold : fs (dtm c.filename) with
    | none =>
        rw [rename_none (hmoved.trans hold), ite_self]
        exact htaken
    | some movie =>
        rw [rename_some (hmoved.trans hold)]
        cases c.failures.renameLastDtm with
        | true => exact htaken
        | false => exact Function.update_self ..

theorem backup_filename (c : Call) (fs : FileSystem) :
    (c.backup fs c.filename = some (stateFile c.lz4 c.session c.buffer) ∨ c.backup fs c.filename = fs c.filename) ↔
      c.Spares fs := by
  cases hold : fs c.filename with
  | none =>
      have hsame : c.backup fs = fs := by
        rw [backup, hold]
        rfl
      rw [hsame, hold]
      exact iff_of_true (.inr rfl) (.inl hold)
  | some content =>
      rw [backup_some hold, Spares, hold]
      by_cases hlast : c.filename = c.lastStateFilename
      · have hne : c.filename ≠ dtm c.lastStateFilename := hlast ▸ (dtm_ne _).symm
        have hdeleted : delete c.failures.deleteLastDtm (dtm c.lastStateFilename)
            (delete c.failures.deleteLast c.lastStateFilename fs) c.filename =
              if c.failures.deleteLast then some content else none := by
          rw [delete_of_ne hne, ← hlast, delete_self, hold]
        cases hfails : c.failures.deleteLast with
        | true =>
            rw [hfails] at hdeleted
            rw [moveOld_last hdeleted hlast]
            simp [hlast]
        | false =>
            rw [hfails] at hdeleted
            rw [moveOld_none hdeleted, hdeleted]
            simp [hlast, (dtm_ne c.lastStateFilename).symm]
      · by_cases hdtm : c.filename = dtm c.lastStateFilename
        · have hdeleted : delete c.failures.deleteLastDtm (dtm c.lastStateFilename)
              (delete c.failures.deleteLast c.lastStateFilename fs) c.filename =
                if c.failures.deleteLastDtm then some content else none := by
            rw [← hdtm, delete_self, delete_of_ne hlast, hold]
          have hmovie : delete c.failures.deleteLastDtm (dtm c.lastStateFilename)
              (delete c.failures.deleteLast c.lastStateFilename fs) (dtm c.filename) = fs (dtm c.filename) := by
            rw [← hdtm, delete_of_ne (dtm_ne _), delete_of_ne (dtm_ne_last _ c)]
          cases hfails : c.failures.deleteLastDtm with
          | true =>
              rw [hfails] at hdeleted hmovie
              rw [moveOld_dtm hdeleted hdtm, hmovie]
              cases c.failures.renameLast <;> cases c.failures.renameLastDtm <;> simp [hdtm, dtm_ne, or_comm]
          | false =>
              rw [hfails] at hdeleted
              rw [moveOld_none hdeleted, hdeleted]
              simp [hdtm, dtm_ne]
        · have hdeleted : delete c.failures.deleteLastDtm (dtm c.lastStateFilename)
              (delete c.failures.deleteLast c.lastStateFilename fs) c.filename = some content := by
            rw [delete_of_ne hdtm, delete_of_ne hlast, hold]
          rw [moveOld_of_ne hdeleted hlast hdtm]
          cases c.failures.renameLast <;> simp [hlast, hdtm]

theorem backup_temp (c : Call) (fs : FileSystem) (k : Nat) :
    c.backup fs (tempName c.filename k) = fs (tempName c.filename k) := by
  have hlast : tempName c.filename k ≠ c.lastStateFilename := tempName_ne_append _ _ _ (by decide) (List.cons_ne_nil _ _)
  have hdtm : ∀ p, tempName c.filename k ≠ dtm p := fun p => tempName_ne_append _ _ _ (by decide) (List.cons_ne_nil _ _)
  have hdeleted : delete c.failures.deleteLastDtm (dtm c.lastStateFilename)
      (delete c.failures.deleteLast c.lastStateFilename fs) (tempName c.filename k) = fs (tempName c.filename k) := by
    rw [delete_of_ne (hdtm _), delete_of_ne hlast]
  rw [backup]
  split
  next =>
    dsimp only
    split
    next => rw [rename_of_ne (hdtm _) (hdtm _), rename_of_ne (tempName_ne _ _) hlast, hdeleted]
    next => rw [rename_of_ne (tempName_ne _ _) hlast, hdeleted]
  next => rfl

/-- The path holds the new state, or what it held, and the temporary file has not been moved there. -/
def Safe (c : Call) (temp : Path) (fs fs' : FileSystem) : Prop :=
  fs' c.filename = some (stateFile c.lz4 c.session c.buffer) ∨
    (fs' c.filename = fs c.filename ∧ (fs' temp = none → c.failures.create = true))

/-- The path is safe when there is no temporary file, when all of that file has been written and it is moved, and when it is
not moved and the old file has not been moved away. -/
theorem save_safe_iff (hconfined : c.Confined) {fuel : Nat} (htemp : tempFilename fs c.filename fuel c.threadId = some temp) :
    ∃ fs', c.compressAndDumpState fuel fs = some fs' ∧
      (c.Safe temp fs fs' ↔ c.failures.create = true ∨ (c.failures.renameTemp = true ∧ c.Spares fs) ∨
        (c.failures.renameTemp = false ∧ c.failures.Complete c.writes)) := by
  obtain ⟨k, rfl⟩ := tempFilename_some htemp
  refine ⟨c.dump (tempName c.filename k) fs, by rw [compressAndDumpState, htemp]; rfl, ?_⟩
  have hne := tempName_ne c.filename k
  cases hcreate : c.failures.create with
  | true =>
      rw [dump, if_pos hcreate]
      exact iff_of_true (.inr ⟨rfl, fun _ => hcreate⟩) (.inl rfl)
  | false =>
      let fs₁ := Function.update fs (tempName c.filename k) (some (written c.failures.writes 0 c.writes))
      have hother : ∀ q, q ≠ tempName c.filename k → fs₁ q = fs q := fun q hq => Function.update_of_ne hq _ _
      have hdump : c.dump (tempName c.filename k) fs = (rename c.failures.renameTemp (tempName c.filename k) c.filename
          (Function.update (c.saveMovie (c.backup fs₁)) (tempName c.filename k) (some c.tempContent))).1 := by
        rw [dump, hcreate]
        rfl
      rw [hdump, rename_some (Function.update_self ..), Safe]
      cases hrename : c.failures.renameTemp with
      | true =>
          have hpath : Function.update (c.saveMovie (c.backup fs₁)) (tempName c.filename k) (some c.tempContent) c.filename =
              c.backup fs₁ c.filename := by
            rw [Function.update_of_ne hne.symm]
            apply saveMovie_of_ne hconfined (dtm_ne _).symm
            simp [dtm]
          have hspares : c.Spares fs₁ ↔ c.Spares fs := by
            rw [Spares, Spares, hother _ hne.symm, hother]
            exact (tempName_ne_append _ _ _ (by decide) (List.cons_ne_nil _ _)).symm
          rw [if_pos rfl]
          dsimp only
          rw [hpath, Function.update_self, ← hspares, ← backup_filename, hother _ hne.symm]
          simp
      | false =>
          rw [← tempContent_eq_iff]
          simp [Function.update_of_ne hne, hcreate]

end Call

def saveAs (failures : Failures) : Call where
  lz4 := literals
  session := session false
  buffer := [1, 2]
  filename := ['s']
  stateSaves := []
  threadId := 0
  movie := .inactive
  failures := failures

def oldState : FileSystem := fun path => if path = ['s'] then some [9] else none

theorem save_safe_closed : ∃ fs', (saveAs {}).compressAndDumpState 1 oldState = some fs' ∧
    (saveAs {}).Safe (tempName ['s'] 0) oldState fs' := by
  have hconfined : (saveAs {}).Confined := nofun
  obtain ⟨fs', hsave, hiff⟩ := @Call.save_safe_iff (saveAs {}) oldState (tempName ['s'] 0) hconfined 1
    (by decide)
  exact ⟨fs', hsave, hiff.mpr (.inr (.inr ⟨rfl, ⟨⟨nofun, nofun, nofun, nofun, nofun, trivial⟩, nofun⟩⟩))⟩

/-- The payload does not fit on the disk. The old file is the backup then, and the new one has no payload. -/
theorem save_disk_full : ((saveAs { writes := fun k => if k = 4 then some 0 else none }).compressAndDumpState 1 oldState).map
    (fun fs' => (fs' ['s'], fs' (saveAs {}).lastStateFilename)) = some (some (headerBytes (session false) 2), some [9]) ∧
      headerBytes (session false) 2 ≠ stateFile literals (session false) [1, 2] := by
  decide

end Karphin.State
