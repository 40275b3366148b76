import Karphin.Lib.FinNumerals
import Karphin.Lib.FlatTree
import Karphin.Lib.LittleEndian
import Karphin.Lib.Text

/-!
# File systems of discs

The file system table (FST) has an entry of three numbers for each file and directory, in front of their names. A directory
has the index of the first entry that is not in it. The table is checked once, and then read without further checks.
-/

namespace Karphin.DiscIO.FileSystem

open Lib

def fstEntrySize : Nat := 4 * 3

def u32 (n : Nat) : Nat := n % 2 ^ 32

inductive EntryProperty
  | nameOffset
  | fileOffset
  | fileSize

def EntryProperty.toNat : EntryProperty → Nat
  | nameOffset => 0
  | fileOffset => 1
  | fileSize => 2

structure Table where
  fst : List UInt8
  totalFileInfos : Nat

/-! ## File infos

A file info is given by its index. What is read from outside the table is `none`. -/

namespace Table

variable (table : Table)

def get (i : Nat) (entryProperty : EntryProperty) : Option Nat :=
  let position := u32 (fstEntrySize * i) + 4 * entryProperty.toNat
  if position + 4 ≤ table.fst.length then some (ofLeBytes ((table.fst.drop position).take 4).reverse) else none

def getSize (i : Nat) : Option Nat := table.get i .fileSize

def isDirectory (i : Nat) : Option Bool := (table.get i .nameOffset).map fun value => value &&& 0xFF000000 ≠ 0

def getNextIndex (i : Nat) : Option Nat :=
  (table.isDirectory i).bind fun directory => if directory then table.getSize i else some (u32 (i + 1))

def getNameOffset (i : Nat) : Option Nat :=
  (table.get i .nameOffset).map fun value => fstEntrySize * table.totalFileInfos + (value &&& 0xFFFFFF)

def address (i : Nat) : Nat := u32 (fstEntrySize * i)

def forEach {α : Type} (body : Nat → Option (Option α)) : (fuel : Nat) → (i stop : Nat) → Option (Option α)
  | 0, _, _ => none
  | fuel + 1, i, stop =>
      if address i = address stop then some none
      else
        (body i).bind fun result =>
          match result with
          | some value => some (some value)
          | none => (table.getNextIndex i).bind fun next => forEach body fuel next stop

/-- A loop over the children of a file info, from `begin` to `end`. -/
def forChildren {α : Type} (i : Nat) (body : Nat → Option (Option α)) : Option (Option α) :=
  (table.getNextIndex i).bind fun stop => table.forEach body table.fst.length (u32 (i + 1)) stop

def iterate : (fuel : Nat) → (i stop : Nat) → Option (List Nat)
  | 0, _, _ => none
  | fuel + 1, i, stop =>
      if address i = address stop then some []
      else (table.getNextIndex i).bind fun next => (iterate fuel next stop).map (i :: ·)

def children (i : Nat) : Option (List Nat) :=
  (table.getNextIndex i).bind fun stop => table.iterate table.fst.length (u32 (i + 1)) stop

def visit : (fuel : Nat) → (i : Nat) → Option (List Nat)
  | 0, _ => none
  | fuel + 1, i => (table.children i).bind fun children =>
      (children.mapM fun child => (visit fuel child).map (child :: ·)).map List.flatten

def cString (position : Nat) : Option (List UInt8) :=
  let bytes := table.fst.drop position
  if 0 ∈ bytes then some (bytes.takeWhile (· ≠ 0)) else none

/-! ## Names -/

def toLower (c : UInt8) : UInt8 := if 0x41 ≤ c ∧ c ≤ 0x5a then c + 0x20 else c

variable (shiftJisToUtf8 : List UInt8 → List UInt8)

def getName (i : Nat) : Option (List UInt8) :=
  (table.getNameOffset i).bind fun offset => (table.cString offset).map shiftJisToUtf8

def nameEqualsAt (position : Nat) : List UInt8 → Option Bool
  | [] => table.fst[position]?.map fun c => c = 0
  | other :: others =>
      table.fst[position]?.bind fun c =>
        if c = 0 then some false
        else if c ≥ 0x80 ∧ other ≥ 0x80 then
          (table.cString position).map fun name =>
            (shiftJisToUtf8 name).map toLower = (other :: others).map toLower
        else if toLower c ≠ toLower other then some false
        else nameEqualsAt (position + 1) others

def nameCaseInsensitiveEquals (i : Nat) (other : List UInt8) : Option Bool :=
  (table.getNameOffset i).bind fun offset => table.nameEqualsAt shiftJisToUtf8 offset other

def searchParent (i : Nat) : (fuel : Nat) → (potentialParent : Nat) → Option Nat
  | 0, _ => none
  | fuel + 1, potentialParent =>
      (table.isDirectory potentialParent).bind fun directory =>
        (if directory then (table.getSize potentialParent).map fun size => decide (size > i) else some false).bind
          fun found =>
            if found then some potentialParent
            else searchParent i fuel (u32 (potentialParent + (2 ^ 32 - 1)))

def slash : UInt8 := 0x2f

def getPath : (fuel : Nat) → (i : Nat) → Option (List UInt8)
  | 0, _ => none
  | fuel + 1, i =>
      if i = 0 then some []
      else
        (table.isDirectory i).bind fun directory =>
          if directory then
            (table.get i .fileOffset).bind fun parent =>
              (getPath fuel parent).bind fun path =>
                (table.getName shiftJisToUtf8 i).map fun name => path ++ name ++ [slash]
          else
            (table.searchParent i table.fst.length (u32 (i + (2 ^ 32 - 1)))).bind fun parent =>
              (getPath fuel parent).bind fun path => (table.getName shiftJisToUtf8 i).map fun name => path ++ name

/-! ## Validity -/

def isValid : (fuel : Nat) → (i parent : Nat) → Option Bool
  | 0, _, _ => none
  | fuel + 1, i, parent =>
      (table.getNameOffset i).bind fun nameOffset =>
        if nameOffset ≥ table.fst.length then some false
        else
          (table.isDirectory i).bind fun directory =>
            if directory then
              (table.get i .fileOffset).bind fun offset =>
                if offset ≠ parent then some false
                else
                  (table.get i .fileSize).bind fun size =>
                    if size ≤ i then some false
                    else
                      (table.get parent .fileSize).bind fun parentSize =>
                        if size > parentSize then some false
                        else
                          (table.forChildren i fun child =>
                            (isValid fuel child i).map fun valid => if valid then none else some false).map
                            fun result => result.getD true
            else some true

end Table

/-! ## File systems -/

def arbitraryFileSystemSizeLimit : Nat := 128 * 1024 * 1024

def rootOf (fst : List UInt8) : Option Table := (Table.getSize ⟨fst, 0⟩ 0).map fun size => ⟨fst, size⟩

def isValidFst (fst : List UInt8) : Option Bool :=
  if fst.length < fstEntrySize then some false
  else if fst.length > arbitraryFileSystemSizeLimit then some false
  else
    (rootOf fst).bind fun table =>
      (table.isDirectory 0).bind fun directory =>
        if directory then
          if u32 (fstEntrySize * table.totalFileInfos) > fst.length then some false
          else if fst.getLast? ≠ some 0 then some false
          else table.isValid fst.length 0 0
        else some false

namespace Table

variable (table : Table) (shiftJisToUtf8 : List UInt8 → List UInt8)

def findFileInfo : (fuel : Nat) → (path : List UInt8) → (i : Nat) → Option (Option Nat)
  | 0, _, _ => none
  | fuel + 1, path, i =>
      match path.dropWhile (· = slash) with
      | [] => some (some i)
      | c :: cs =>
          let name := (c :: cs).takeWhile (· ≠ slash)
          let restOfPath := ((c :: cs).dropWhile (· ≠ slash)).drop 1
          table.forChildren i fun child =>
            (table.nameCaseInsensitiveEquals shiftJisToUtf8 child name).bind fun equal =>
              if equal then findFileInfo fuel restOfPath child else some none

end Table

/-- `FileSystemGCWii::FindFileInfo` of a path -/
def findFileInfo (shiftJisToUtf8 : List UInt8 → List UInt8) (fst path : List UInt8) : Option (Option Nat) :=
  (isValidFst fst).bind fun valid =>
    if valid then (rootOf fst).bind fun table => table.findFileInfo shiftJisToUtf8 (path.length + 1) path 0
    else some none

namespace Table

/-! ## Reads within the table -/

variable {table : Table} {i stop : Nat}

def field (table : Table) (i : Nat) (entryProperty : EntryProperty) : Nat :=
  ofLeBytes ((table.fst.drop (fstEntrySize * i + 4 * entryProperty.toNat)).take 4).reverse

def directory (table : Table) (i : Nat) : Bool := table.field i .nameOffset &&& 0xFF000000 ≠ 0

def next (table : Table) (i : Nat) : Nat := if table.directory i then table.field i .fileSize else i + 1

def nameOffset (table : Table) (i : Nat) : Nat :=
  fstEntrySize * table.totalFileInfos + (table.field i .nameOffset &&& 0xFFFFFF)

structure Sound (table : Table) : Prop where
  entries : fstEntrySize * table.totalFileInfos < table.fst.length
  limit : table.fst.length ≤ arbitraryFileSystemSizeLimit

def Inside (table : Table) (i : Nat) : Prop :=
  fstEntrySize * i + fstEntrySize ≤ table.fst.length ∧ table.fst.length ≤ arbitraryFileSystemSizeLimit

theorem Sound.inside (h : table.Sound) (hi : i < table.totalFileInfos) : table.Inside i := by
  have hentries := h.entries
  refine ⟨?_, h.limit⟩
  rw [fstEntrySize] at *
  omega

theorem Inside.u32_succ (h : table.Inside i) : u32 (i + 1) = i + 1 := by
  obtain ⟨hfit, hlimit⟩ := h
  rw [fstEntrySize] at hfit
  rw [arbitraryFileSystemSizeLimit] at hlimit
  exact Nat.mod_eq_of_lt (by omega)

theorem Inside.get (h : table.Inside i) (entryProperty : EntryProperty) :
    table.get i entryProperty = some (table.field i entryProperty) := by
  obtain ⟨hfit, hlimit⟩ := h
  rw [fstEntrySize] at hfit
  rw [arbitraryFileSystemSizeLimit] at hlimit
  have hposition : u32 (fstEntrySize * i) = fstEntrySize * i :=
    Nat.mod_eq_of_lt (by rw [fstEntrySize]; omega)
  have hproperty : entryProperty.toNat ≤ 2 := by cases entryProperty <;> decide
  rw [Table.get, hposition, if_pos (by rw [fstEntrySize]; omega), field]

theorem Inside.isDirectory (h : table.Inside i) : table.isDirectory i = some (table.directory i) := by
  rw [Table.isDirectory, h.get, Option.map_some, directory]

theorem Inside.getNextIndex (h : table.Inside i) : table.getNextIndex i = some (table.next i) := by
  rw [Table.getNextIndex, h.isDirectory, Option.bind_some, getSize, h.get, next, h.u32_succ]
  cases table.directory i <;> rfl

theorem Inside.getNameOffset (h : table.Inside i) : table.getNameOffset i = some (table.nameOffset i) := by
  rw [Table.getNameOffset, h.get, Option.map_some, nameOffset]

theorem Sound.address_inj (h : table.Sound) (hi : i ≤ table.totalFileInfos) (hstop : stop ≤ table.totalFileInfos) :
    address i = address stop ↔ i = stop := by
  have hentries := h.entries
  have hlimit := h.limit
  rw [fstEntrySize] at hentries
  rw [arbitraryFileSystemSizeLimit] at hlimit
  rw [address, address, u32, u32, fstEntrySize, Nat.mod_eq_of_lt (by omega), Nat.mod_eq_of_lt (by omega)]
  omega

theorem forEach_stop {α : Type} (body : Nat → Option (Option α)) (fuel : Nat) :
    table.forEach body (fuel + 1) stop stop = some none := by
  rw [forEach, if_pos rfl]

theorem Sound.forEach_lt (h : table.Sound) {α : Type} (body : Nat → Option (Option α)) (fuel : Nat) (hlt : i < stop)
    (hstop : stop ≤ table.totalFileInfos) :
    table.forEach body (fuel + 1) i stop = (body i).bind fun result =>
      match result with
      | some value => some (some value)
      | none => table.forEach body fuel (table.next i) stop := by
  have hne : address i ≠ address stop := mt (h.address_inj (hlt.le.trans hstop) hstop).mp hlt.ne
  rw [forEach, if_neg hne, (h.inside (hlt.trans_le hstop)).getNextIndex]
  rfl

/-! ## The check -/

def Checked (table : Table) (parent i : Nat) : Prop :=
  table.nameOffset i < table.fst.length ∧ (table.directory i = true → table.field i .fileOffset = parent)

abbrev Entries (table : Table) : Nat → Nat → Nat → Prop := Forest table.next table.Checked

theorem forEach_check (hsound : table.Sound) {parent fuel : Nat} {body : Nat → Option (Option Bool)} (hi : i ≤ stop)
    (hstop : stop ≤ table.totalFileInfos) (hfuel : stop - i < fuel)
    (hbody : ∀ child, i ≤ child → child < stop → ∃ valid : Bool, body child = some (if valid then none else some false) ∧
      (valid = true → table.Checked parent child ∧ table.Entries child (child + 1) (table.next child) ∧
        table.next child ≤ stop)) :
    ∃ valid : Bool, table.forEach body fuel i stop = some (if valid then none else some false) ∧
      (valid = true → table.Entries parent i stop) := by
  induction fuel generalizing i with
  | zero => exact absurd hfuel (Nat.not_lt_zero _)
  | succ fuel ih =>
      rcases hi.eq_or_lt with rfl | hlt
      · exact ⟨true, forEach_stop _ _, fun _ => .nil _ _⟩
      obtain ⟨valid, hchild, hentry⟩ := hbody i le_rfl hlt
      rw [hsound.forEach_lt body fuel hlt hstop, hchild, Option.bind_some]
      cases valid with
      | false => exact ⟨false, rfl, fun hfalse => absurd hfalse (by decide)⟩
      | true =>
          obtain ⟨hchecked, hbelow, hend⟩ := hentry rfl
          have hbegin := hbelow.le
          obtain ⟨valid, hrest, hentries⟩ := ih hend (by omega)
            fun child hlower hupper => hbody child (by omega) hupper
          exact ⟨valid, hrest, fun hvalid => .cons hchecked hbelow (hentries hvalid)⟩

theorem isValid_check (hsound : table.Sound) {fuel parent : Nat} (hi : table.Inside i) (hparent : table.Inside parent)
    (hsize : table.field parent .fileSize ≤ table.totalFileInfos)
    (hlt : table.directory i = false → i < table.field parent .fileSize) (hfuel : table.totalFileInfos - i < fuel) :
    ∃ valid, table.isValid fuel i parent = some valid ∧ (valid = true → table.Checked parent i ∧
      table.Entries i (i + 1) (table.next i) ∧ table.next i ≤ table.field parent .fileSize) := by
  induction fuel generalizing i parent with
  | zero => exact absurd hfuel (Nat.not_lt_zero _)
  | succ fuel ih =>
      rw [isValid, hi.getNameOffset, Option.bind_some]
      by_cases hname : table.nameOffset i ≥ table.fst.length
      · rw [if_pos hname]
        exact ⟨false, rfl, fun hfalse => absurd hfalse (by decide)⟩
      rw [if_neg hname, hi.isDirectory, Option.bind_some]
      cases hdirectory : table.directory i with
      | false =>
          have hnext : table.next i = i + 1 := by rw [next, hdirectory, if_neg (by decide)]
          rw [if_neg (by decide), hnext]
          refine ⟨true, rfl, fun _ => ⟨⟨Nat.not_le.mp hname, fun h => ?_⟩, .nil _ _, hlt hdirectory⟩⟩
          exact absurd (hdirectory.symm.trans h) (by decide)
      | true =>
          have hnext : table.next i = table.field i .fileSize := by rw [next, hdirectory, if_pos rfl]
          rw [if_pos rfl, hi.get, Option.bind_some]
          by_cases hoffset : table.field i .fileOffset ≠ parent
          · rw [if_pos hoffset]
            exact ⟨false, rfl, fun hfalse => absurd hfalse (by decide)⟩
          rw [if_neg hoffset, hi.get, Option.bind_some]
          by_cases hsmall : table.field i .fileSize ≤ i
          · rw [if_pos hsmall]
            exact ⟨false, rfl, fun hfalse => absurd hfalse (by decide)⟩
          rw [if_neg hsmall, hparent.get, Option.bind_some]
          by_cases hlarge : table.field i .fileSize > table.field parent .fileSize
          · rw [if_pos hlarge]
            exact ⟨false, rfl, fun hfalse => absurd hfalse (by decide)⟩
          have hin : table.field i .fileSize ≤ table.totalFileInfos := (Nat.not_lt.mp hlarge).trans hsize
          have hentries := hsound.entries
          rw [fstEntrySize] at hentries
          rw [if_neg hlarge, forChildren, hi.getNextIndex, Option.bind_some, hi.u32_succ, hnext]
          obtain ⟨valid, hloop, hchildren⟩ := @forEach_check table (i + 1) (table.field i .fileSize) hsound i
            table.fst.length (fun child => (table.isValid fuel child i).map fun valid => if valid then none else some false)
            (Nat.not_le.mp hsmall) hin (by omega) fun child hlower hupper => by
              obtain ⟨valid, hvalid, hchild⟩ := @ih child i (hsound.inside (hupper.trans_le hin)) hi hin
                (fun _ => hupper) (by omega)
              exact ⟨valid, by rw [hvalid, Option.map_some], hchild⟩
          refine ⟨valid, ?_, fun hvalid => ⟨⟨Nat.not_le.mp hname, fun _ => not_not.mp hoffset⟩, hchildren hvalid,
            Nat.not_lt.mp hlarge⟩⟩
          rw [hloop, Option.map_some]
          cases valid <;> rfl

structure Tree (table : Table) : Prop where
  sound : table.Sound
  last : table.fst.getLast? = some 0
  pos : 0 < table.totalFileInfos
  root : table.next 0 = table.totalFileInfos
  directory : table.directory 0 = true
  checked : table.Checked 0 0
  entries : table.Entries 0 1 table.totalFileInfos

end Table

theorem rootOf_eq {fst : List UInt8} (h : fstEntrySize ≤ fst.length) (hlimit : fst.length ≤ arbitraryFileSystemSizeLimit) :
    ∃ table, rootOf fst = some table ∧ table.fst = fst ∧ table.Inside 0 ∧
      table.field 0 .fileSize = table.totalFileInfos := by
  have hinside : (⟨fst, 0⟩ : Table).Inside 0 := ⟨h, hlimit⟩
  refine ⟨⟨fst, (⟨fst, 0⟩ : Table).field 0 .fileSize⟩, ?_, rfl, hinside, rfl⟩
  rw [rootOf, Table.getSize, hinside.get, Option.map_some]

theorem isValidFst_check (fst : List UInt8) : ∃ valid, isValidFst fst = some valid ∧
    (valid = true → ∃ table, rootOf fst = some table ∧ table.fst = fst ∧ table.Tree) := by
  rw [isValidFst]
  by_cases hsmall : fst.length < fstEntrySize
  · rw [if_pos hsmall]
    exact ⟨false, rfl, fun hfalse => absurd hfalse (by decide)⟩
  rw [if_neg hsmall]
  by_cases hlarge : fst.length > arbitraryFileSystemSizeLimit
  · rw [if_pos hlarge]
    exact ⟨false, rfl, fun hfalse => absurd hfalse (by decide)⟩
  obtain ⟨table, hroot, rfl, hinside, htotal⟩ := rootOf_eq (Nat.not_lt.mp hsmall) (Nat.not_lt.mp hlarge)
  rw [if_neg hlarge, hroot, Option.bind_some, hinside.isDirectory, Option.bind_some]
  cases hdirectory : table.directory 0 with
  | false => exact ⟨false, rfl, fun hfalse => absurd hfalse (by decide)⟩
  | true =>
      rw [if_pos rfl]
      by_cases hmany : u32 (fstEntrySize * table.totalFileInfos) > table.fst.length
      · rw [if_pos hmany]
        exact ⟨false, rfl, fun hfalse => absurd hfalse (by decide)⟩
      rw [if_neg hmany]
      by_cases hlast : table.fst.getLast? ≠ some 0
      · rw [if_pos hlast]
        exact ⟨false, rfl, fun hfalse => absurd hfalse (by decide)⟩
      rw [if_neg hlast]
      by_cases hentries : fstEntrySize * table.totalFileInfos < table.fst.length
      · have hsound : table.Sound := ⟨hentries, hinside.2⟩
        have hfuel : table.totalFileInfos - 0 < table.fst.length := by
          rw [fstEntrySize] at hentries
          omega
        obtain ⟨valid, hvalid, hchecked⟩ := Table.isValid_check hsound hinside hinside htotal.le
          (fun h => absurd (hdirectory.symm.trans h) (by decide)) hfuel
        refine ⟨valid, hvalid, fun h => ⟨table, rfl, rfl, ?_⟩⟩
        obtain ⟨hroot, hbelow, -⟩ := hchecked h
        have hnext : table.next 0 = table.totalFileInfos := by rw [Table.next, hdirectory, if_pos rfl, htotal]
        rw [hnext] at hbelow
        exact ⟨hsound, not_not.mp hlast, hbelow.le, hnext, hdirectory, hroot, hbelow⟩
      · -- the product of 32 bits has wrapped around, but the name of the root is too far behind
        have hname : table.nameOffset 0 ≥ table.fst.length :=
          (Nat.not_lt.mp hentries).trans (Nat.le_add_right _ _)
        have hne : table.fst.length ≠ 0 := by
          rw [fstEntrySize] at hsmall
          omega
        obtain ⟨fuel, hfuel⟩ := Nat.exists_eq_succ_of_ne_zero hne
        have hvalid : table.isValid table.fst.length 0 0 = some false := by
          rw [hfuel, Table.isValid, hinside.getNameOffset, Option.bind_some, if_pos hname]
        exact ⟨false, hvalid, fun hfalse => absurd hfalse (by decide)⟩

/-! ## Iteration -/

namespace Table

variable {table : Table} {i stop : Nat}

theorem Sound.iterate_roots (h : table.Sound) {roots : List Nat} (hroots : Roots table.next i stop roots)
    (hmem : ∀ j ∈ roots, j < stop) (hstop : stop ≤ table.totalFileInfos) {fuel : Nat} (hfuel : roots.length < fuel) :
    table.iterate fuel i stop = some roots := by
  induction hroots generalizing fuel with
  | nil =>
      obtain ⟨fuel, rfl⟩ := Nat.exists_eq_succ_of_ne_zero (Nat.ne_of_gt hfuel)
      rw [iterate, if_pos rfl]
  | @cons i stop roots hne hroots ih =>
      obtain ⟨fuel, rfl⟩ := Nat.exists_eq_succ_of_ne_zero (Nat.ne_zero_of_lt hfuel)
      have hi := hmem i List.mem_cons_self
      have haddress : address i ≠ address stop := mt (h.address_inj (hi.le.trans hstop) hstop).mp hne
      have hrest := ih (fun j hj => hmem j (List.mem_cons_of_mem _ hj)) hstop (Nat.lt_of_succ_lt_succ hfuel)
      rw [iterate, if_neg haddress, (h.inside (hi.trans_le hstop)).getNextIndex, Option.bind_some, hrest,
        Option.map_some]

def firstResult {α : Type} (body : Nat → Option (Option α)) : List Nat → Option (Option α)
  | [] => some none
  | i :: roots =>
      (body i).bind fun result =>
        match result with
        | some value => some (some value)
        | none => firstResult body roots

theorem Sound.forEach_roots (h : table.Sound) {α : Type} (body : Nat → Option (Option α)) {roots : List Nat}
    (hroots : Roots table.next i stop roots) (hmem : ∀ j ∈ roots, j < stop) (hstop : stop ≤ table.totalFileInfos)
    {fuel : Nat} (hfuel : roots.length < fuel) : table.forEach body fuel i stop = firstResult body roots := by
  induction hroots generalizing fuel with
  | nil =>
      obtain ⟨fuel, rfl⟩ := Nat.exists_eq_succ_of_ne_zero (Nat.ne_of_gt hfuel)
      exact forEach_stop _ _
  | @cons i stop roots hne hroots ih =>
      obtain ⟨fuel, rfl⟩ := Nat.exists_eq_succ_of_ne_zero (Nat.ne_zero_of_lt hfuel)
      have hrest := ih (fun j hj => hmem j (List.mem_cons_of_mem _ hj)) hstop (Nat.lt_of_succ_lt_succ hfuel)
      rw [h.forEach_lt body fuel (hmem i List.mem_cons_self) hstop, hrest, firstResult]

structure Kids (table : Table) (i : Nat) (kids : List Nat) : Prop where
  roots : Roots table.next (i + 1) (table.next i) kids
  entries : Forest table.next table.Checked i (i + 1) (table.next i)
  bounds : ∀ j ∈ kids, i < j ∧ j < table.next i
  within : table.next i ≤ table.totalFileInfos

theorem Tree.below (h : table.Tree) (hi : i < table.totalFileInfos) :
    table.Entries i (i + 1) (table.next i) ∧ table.next i ≤ table.totalFileInfos := by
  rcases Nat.eq_zero_or_pos i with rfl | hpos
  · rw [h.root]
    exact ⟨h.entries, le_rfl⟩
  · exact h.entries.tree hpos hi

theorem Tree.kids (h : table.Tree) (hi : i < table.totalFileInfos) : ∃ kids, table.Kids i kids ∧
    table.children i = some kids ∧ ∀ {α : Type} (body : Nat → Option (Option α)),
      table.forChildren i body = firstResult body kids := by
  obtain ⟨hentries, hwithin⟩ := h.below hi
  obtain ⟨kids, hroots, hlength, hmem⟩ := hentries.exists_roots
  have hinside := h.sound.inside hi
  have hsize := h.sound.entries
  rw [fstEntrySize] at hsize
  have hfuel : kids.length < table.fst.length := by omega
  refine ⟨kids, ⟨hroots, hentries, fun j hj => ⟨(hmem j hj).1, (hmem j hj).2.1⟩, hwithin⟩, ?_, fun body => ?_⟩
  · rw [children, hinside.getNextIndex, Option.bind_some, hinside.u32_succ,
      h.sound.iterate_roots hroots (fun j hj => (hmem j hj).2.1) hwithin hfuel]
  · rw [forChildren, hinside.getNextIndex, Option.bind_some, hinside.u32_succ,
      h.sound.forEach_roots body hroots (fun j hj => (hmem j hj).2.1) hwithin hfuel]

theorem Tree.visit (h : table.Tree) (hi : i < table.totalFileInfos) {fuel : Nat}
    (hfuel : table.totalFileInfos - i ≤ fuel) :
    table.visit fuel i = some (List.range' (i + 1) (table.next i - (i + 1))) := by
  induction fuel generalizing i with
  | zero => omega
  | succ fuel ih =>
      obtain ⟨kids, hkids, hchildren, -⟩ := h.kids hi
      have hbelow : ∀ child ∈ kids, (table.visit fuel child).map (child :: ·) =
          some (List.range' child (table.next child - child)) := by
        intro child hchild
        obtain ⟨hlower, hupper⟩ := hkids.bounds child hchild
        have hin := hupper.trans_le hkids.within
        obtain ⟨hentries, -⟩ := h.below hin
        have hnext : table.next child - child = table.next child - (child + 1) + 1 := by
          have hbegin := hentries.le
          omega
        rw [ih hin (by omega), Option.map_some, hnext, List.range'_succ]
      rw [Table.visit, hchildren, Option.bind_some, mapM_some hbelow, Option.map_some, ← List.flatMap_def,
        hkids.roots.flatMap hkids.entries]

/-! ## Names and paths of entries -/

variable {shiftJisToUtf8 : List UInt8 → List UInt8}

theorem Tree.property (h : table.Tree) (hi : i < table.totalFileInfos) : ∃ above, (i ≠ 0 → above < i) ∧
    table.Checked above i := by
  rcases Nat.eq_zero_or_pos i with rfl | hpos
  · exact ⟨0, fun hne => absurd rfl hne, h.checked⟩
  · obtain ⟨above, habove, hchecked⟩ := h.entries.property Nat.one_pos hpos hi
    exact ⟨above, fun _ => habove, hchecked⟩

theorem exists_cString (h : table.fst.getLast? = some 0) {position : Nat} (hposition : position < table.fst.length) :
    ∃ name, table.cString position = some name := by
  have hmem : 0 ∈ table.fst.drop position := by
    apply List.mem_of_getLast?
    rw [List.getLast?_drop, if_neg (Nat.not_le.mpr hposition), h]
  exact ⟨_, if_pos hmem⟩

theorem Tree.name (h : table.Tree) (hi : i < table.totalFileInfos) : table.nameOffset i < table.fst.length ∧
    ∃ name, table.cString (table.nameOffset i) = some name ∧
      table.getName shiftJisToUtf8 i = some (shiftJisToUtf8 name) := by
  obtain ⟨above, -, hname, -⟩ := h.property hi
  obtain ⟨name, hstring⟩ := exists_cString h.last hname
  refine ⟨hname, name, hstring, ?_⟩
  rw [getName, (h.sound.inside hi).getNameOffset, Option.bind_some, hstring, Option.map_some]

theorem Tree.searchParent (h : table.Tree) (hi : i < table.totalFileInfos) {fuel k : Nat} (hk : k < i)
    (hfuel : k < fuel) : ∃ parent < i, table.searchParent i fuel k = some parent := by
  induction fuel generalizing k with
  | zero => exact absurd hfuel (Nat.not_lt_zero _)
  | succ fuel ih =>
      have hinside := h.sound.inside (hk.trans hi)
      have hfound : (if table.directory k then (table.getSize k).map fun size => decide (size > i) else some false) =
          some (table.directory k && decide (table.field k .fileSize > i)) := by
        rw [getSize, hinside.get]
        cases table.directory k <;> rfl
      rw [Table.searchParent, hinside.isDirectory, Option.bind_some, hfound, Option.bind_some]
      cases hresult : table.directory k && decide (table.field k .fileSize > i) with
      | true => exact ⟨k, hk, if_pos rfl⟩
      | false =>
          rw [if_neg (by decide)]
          have hne : k ≠ 0 := by
            rintro rfl
            have hroot := h.root
            rw [next, h.directory, if_pos rfl] at hroot
            rw [h.directory, hroot, decide_eq_true hi] at hresult
            exact absurd hresult (by decide)
          have hlimit := h.sound.limit
          have hentries := h.sound.entries
          rw [fstEntrySize] at hentries
          rw [arbitraryFileSystemSizeLimit] at hlimit
          have hpred : u32 (k + (2 ^ 32 - 1)) = k - 1 := by
            rw [u32]
            omega
          rw [hpred]
          exact ih (by omega) (by omega)

theorem Tree.getPath (h : table.Tree) (hi : i < table.totalFileInfos) {fuel : Nat} (hfuel : i < fuel) :
    ∃ path, table.getPath shiftJisToUtf8 fuel i = some path := by
  induction fuel generalizing i with
  | zero => exact absurd hfuel (Nat.not_lt_zero _)
  | succ fuel ih =>
      rw [Table.getPath]
      by_cases hzero : i = 0
      · exact ⟨[], if_pos hzero⟩
      obtain ⟨-, name, -, hname⟩ := @Tree.name table i shiftJisToUtf8 h hi
      have hinside := h.sound.inside hi
      rw [if_neg hzero, hinside.isDirectory, Option.bind_some, hname]
      cases hdirectory : table.directory i with
      | true =>
          obtain ⟨above, habove, -, hoffset⟩ := h.property hi
          have hlt := habove hzero
          obtain ⟨path, hpath⟩ := ih (hlt.trans hi) (by omega)
          rw [if_pos rfl, hinside.get, Option.bind_some, hoffset hdirectory, hpath]
          exact ⟨_, rfl⟩
      | false =>
          have hlimit := h.sound.limit
          have hentries := h.sound.entries
          rw [fstEntrySize] at hentries
          rw [arbitraryFileSystemSizeLimit] at hlimit
          have hpred : u32 (i + (2 ^ 32 - 1)) = i - 1 := by
            rw [u32]
            omega
          obtain ⟨parent, hparent, hsearch⟩ := h.searchParent hi (by omega : i - 1 < i)
            (by omega : i - 1 < table.fst.length)
          obtain ⟨path, hpath⟩ := ih (hparent.trans hi) (by omega)
          rw [if_neg (by decide), hpred, hsearch, Option.bind_some, hpath]
          exact ⟨_, rfl⟩

/-! ## Comparison of names -/

/-- A name with the bytes before the first that is not ASCII as they stand. -/
def decoded (shiftJisToUtf8 : List UInt8 → List UInt8) (name : List UInt8) : List UInt8 :=
  match name.dropWhile (· < 0x80) with
  | [] => name
  | c :: cs => name.takeWhile (· < 0x80) ++ shiftJisToUtf8 (c :: cs)

theorem decoded_cons {c : UInt8} (h : c < 0x80) (cs : List UInt8) :
    decoded shiftJisToUtf8 (c :: cs) = c :: decoded shiftJisToUtf8 cs := by
  rw [decoded, decoded, List.dropWhile_cons_of_pos (by simpa using h), List.takeWhile_cons_of_pos (by simpa using h)]
  split <;> rfl

theorem toLower_lt_iff (c : UInt8) : toLower c < 0x80 ↔ c < 0x80 := by
  rw [toLower]
  split
  next h =>
    obtain ⟨hlower, hupper⟩ := h
    rw [UInt8.le_iff_toNat_le] at hlower hupper
    rw [UInt8.lt_iff_toNat_lt, UInt8.lt_iff_toNat_lt, UInt8.toNat_add]
    simp only [UInt8.reduceToNat] at *
    omega
  · rfl

theorem cString_cases {position : Nat} {name : List UInt8} (h : table.cString position = some name) :
    (table.fst[position]? = some 0 ∧ name = []) ∨
      ∃ c cs, table.fst[position]? = some c ∧ c ≠ 0 ∧ name = c :: cs ∧ table.cString (position + 1) = some cs := by
  rw [cString] at h
  split at h
  next hmem =>
    have hlt : position < table.fst.length := by
      by_contra hge
      rw [List.drop_eq_nil_of_le (Nat.not_lt.mp hge)] at hmem
      cases hmem
    have hget := List.getElem?_eq_getElem hlt
    rw [List.drop_eq_getElem_cons hlt] at hmem h
    rw [hget]
    by_cases hzero : table.fst[position] = 0
    · rw [List.takeWhile_cons_of_neg (by simpa using hzero)] at h
      exact .inl ⟨congrArg some hzero, (Option.some.inj h).symm⟩
    · rw [List.takeWhile_cons_of_pos (by simpa using hzero)] at h
      have htail : 0 ∈ table.fst.drop (position + 1) :=
        (List.mem_cons.mp hmem).resolve_left fun heq => hzero heq.symm
      refine .inr ⟨_, _, rfl, hzero, (Option.some.inj h).symm, ?_⟩
      rw [cString]
      exact if_pos htail
  · cases h

theorem nameEqualsAt_spec {position : Nat} {name : List UInt8} (h : table.cString position = some name)
    (other : List UInt8) : ∃ equal, table.nameEqualsAt shiftJisToUtf8 position other = some equal ∧
      (equal = true → (decoded shiftJisToUtf8 name).map toLower = other.map toLower) := by
  induction other generalizing position name with
  | nil =>
      rcases cString_cases h with ⟨hget, rfl⟩ | ⟨c, cs, hget, hne, rfl, -⟩
      · exact ⟨true, by rw [nameEqualsAt, hget]; rfl, fun _ => rfl⟩
      · refine ⟨false, ?_, fun hfalse => absurd hfalse (by decide)⟩
        rw [nameEqualsAt, hget, Option.map_some, decide_eq_false hne]
  | cons other others ih =>
      rcases cString_cases h with ⟨hget, rfl⟩ | ⟨c, cs, hget, hne, rfl, htail⟩
      · refine ⟨false, ?_, fun hfalse => absurd hfalse (by decide)⟩
        rw [nameEqualsAt, hget, Option.bind_some, if_pos rfl]
      rw [nameEqualsAt, hget, Option.bind_some, if_neg hne]
      by_cases hwide : c ≥ 0x80 ∧ other ≥ 0x80
      · rw [if_pos hwide, h, Option.map_some]
        refine ⟨_, rfl, fun hequal => ?_⟩
        have hdrop : (c :: cs).dropWhile (· < 0x80) = c :: cs := by
          rw [List.dropWhile_cons_of_neg]
          simpa using hwide.1
        have htake : (c :: cs).takeWhile (· < 0x80) = [] := by
          rw [List.takeWhile_cons_of_neg]
          simpa using hwide.1
        rw [decoded, hdrop]
        dsimp only
        rw [htake, List.nil_append]
        exact of_decide_eq_true hequal
      rw [if_neg hwide]
      by_cases hother : toLower c ≠ toLower other
      · rw [if_pos hother]
        exact ⟨false, rfl, fun hfalse => absurd hfalse (by decide)⟩
      rw [if_neg hother]
      obtain ⟨equal, hrest, hspec⟩ := ih htail
      refine ⟨equal, hrest, fun hequal => ?_⟩
      have hsame := not_not.mp hother
      have hascii : c < 0x80 := by
        by_contra hc
        have hlower := (toLower_lt_iff c).not.mpr hc
        rw [hsame, toLower_lt_iff, UInt8.not_lt] at hlower
        exact hwide ⟨UInt8.not_lt.mp hc, hlower⟩
      rw [decoded_cons hascii, List.map_cons, List.map_cons, hspec hequal, hsame]

/-! ## Lookup -/

def components (path : List UInt8) : List (List UInt8) := (pieces slash path).filter (· ≠ [])

theorem components_slash (path : List UInt8) : components (slash :: path) = components path := by
  rw [components, pieces, if_pos rfl]
  rfl

theorem components_dropWhile (path : List UInt8) : components (path.dropWhile (· = slash)) = components path := by
  induction path with
  | nil => rfl
  | cons c path ih =>
      by_cases hc : c = slash
      · subst hc
        rw [List.dropWhile_cons_of_pos (by simp), ih, components_slash]
      · rw [List.dropWhile_cons_of_neg (by simpa using hc)]

theorem components_cons {path : List UInt8} {c : UInt8} {cs : List UInt8} (h : path.dropWhile (· = slash) = c :: cs) :
    components path = (c :: cs).takeWhile (· ≠ slash) :: components (((c :: cs).dropWhile (· ≠ slash)).drop 1) := by
  have hc : c ≠ slash := by
    have hhead := head?_dropWhile_not (h ▸ rfl : (path.dropWhile (· = slash)).head? = some c)
    simpa using hhead
  have hname : (c :: cs).takeWhile (· ≠ slash) ≠ [] := by
    rw [List.takeWhile_cons_of_pos (by simpa using hc)]
    exact List.cons_ne_nil _ _
  have hslash : slash ∉ (c :: cs).takeWhile (· ≠ slash) := fun hmem => by
    have hne := List.mem_takeWhile_imp hmem
    simp at hne
  have hfirst : (decide ((c :: cs).takeWhile (· ≠ slash) ≠ [])) = true := decide_eq_true hname
  have hsplit := List.takeWhile_append_dropWhile (p := (· ≠ slash)) (l := c :: cs)
  rw [← components_dropWhile, h]
  cases hrest : (c :: cs).dropWhile (· ≠ slash) with
  | nil =>
      rw [hrest, List.append_nil] at hsplit
      rw [hsplit] at hslash ⊢
      rw [components, pieces_of_not_mem hslash]
      rfl
  | cons d rest =>
      have hd : d = slash := by
        have hhead := head?_dropWhile_not (hrest ▸ rfl : ((c :: cs).dropWhile (· ≠ slash)).head? = some d)
        simpa using hhead
      rw [hrest, hd] at hsplit
      rw [List.drop_one, List.tail_cons, components, components, ← hsplit, pieces_append hslash,
        List.filter_cons_of_pos (by exact hfirst), hsplit]

inductive Leads (table : Table) (shiftJisToUtf8 : List UInt8 → List UInt8) : Nat → List (List UInt8) → Nat → Prop
  | nil (i : Nat) : Leads table shiftJisToUtf8 i [] i
  | cons {i j child : Nat} {name : List UInt8} {names : List (List UInt8)} {children : List Nat} :
      table.children i = some children → child ∈ children →
      table.nameCaseInsensitiveEquals shiftJisToUtf8 child name = some true →
      Leads table shiftJisToUtf8 child names j → Leads table shiftJisToUtf8 i (name :: names) j

def nameEquals (table : Table) (shiftJisToUtf8 : List UInt8 → List UInt8) (i : Nat) (name : List UInt8) : Bool :=
  table.nameCaseInsensitiveEquals shiftJisToUtf8 i name = some true

def search (table : Table) (shiftJisToUtf8 : List UInt8 → List UInt8) : List (List UInt8) → Nat → Option Nat
  | [], i => some i
  | name :: names, i =>
      ((table.children i).getD []).findSome? fun child =>
        if table.nameEquals shiftJisToUtf8 child name then search table shiftJisToUtf8 names child else none

theorem firstResult_eq {α : Type} {body : Nat → Option (Option α)} {g : Nat → Option α} {l : List Nat}
    (h : ∀ i ∈ l, body i = some (g i)) : firstResult body l = some (l.findSome? g) := by
  induction l with
  | nil => rfl
  | cons i l ih =>
      rw [firstResult, h i List.mem_cons_self, ih fun j hj => h j (List.mem_cons_of_mem _ hj), List.findSome?_cons,
        Option.bind_some]
      cases g i <;> rfl

theorem Tree.nameEquals (h : table.Tree) (hi : i < table.totalFileInfos) (other : List UInt8) :
    table.nameCaseInsensitiveEquals shiftJisToUtf8 i other = some (table.nameEquals shiftJisToUtf8 i other) := by
  obtain ⟨-, name, hstring, -⟩ := @Tree.name table i shiftJisToUtf8 h hi
  obtain ⟨equal, hequal, -⟩ := @nameEqualsAt_spec table shiftJisToUtf8 _ name hstring other
  rw [Table.nameEquals, nameCaseInsensitiveEquals, (h.sound.inside hi).getNameOffset, Option.bind_some, hequal]
  cases equal <;> rfl

theorem Tree.findFileInfo (h : table.Tree) {path : List UInt8} {fuel : Nat} (hfuel : (components path).length < fuel)
    (hi : i < table.totalFileInfos) :
    table.findFileInfo shiftJisToUtf8 fuel path i = some (table.search shiftJisToUtf8 (components path) i) := by
  induction fuel generalizing path i with
  | zero => exact absurd hfuel (Nat.not_lt_zero _)
  | succ fuel ih =>
      rw [Table.findFileInfo]
      cases hpath : path.dropWhile (· = slash) with
      | nil =>
          have hcomponents : components path = [] := by
            rw [← components_dropWhile, hpath]
            rfl
          rw [hcomponents]
          rfl
      | cons c cs =>
          obtain ⟨kids, hkids, hchildren, hloop⟩ := h.kids hi
          rw [components_cons hpath, List.length_cons] at hfuel
          rw [components_cons hpath, search, hchildren, Option.getD_some]
          dsimp only
          rw [hloop]
          apply firstResult_eq
          intro child hchild
          have hin := (hkids.bounds child hchild).2.trans_le hkids.within
          rw [h.nameEquals hin, Option.bind_some, ih (Nat.lt_of_succ_lt_succ hfuel) hin]
          cases table.nameEquals shiftJisToUtf8 child ((c :: cs).takeWhile (· ≠ slash)) <;> rfl

theorem leads_of_search {names : List (List UInt8)} {j : Nat} (h : table.search shiftJisToUtf8 names i = some j) :
    Leads table shiftJisToUtf8 i names j := by
  induction names generalizing i with
  | nil =>
      cases h
      exact .nil _
  | cons name names ih =>
      rw [search, List.findSome?_eq_some_iff] at h
      obtain ⟨before, child, after, hsplit, hchild, -⟩ := h
      split at hchild
      next hequal =>
        cases hchildren : table.children i with
        | none => simp [hchildren] at hsplit
        | some children =>
            rw [hchildren, Option.getD_some] at hsplit
            exact .cons hchildren (hsplit ▸ List.mem_append_right _ List.mem_cons_self) (of_decide_eq_true hequal)
              (ih hchild)
      · cases hchild

theorem search_of_leads {names : List (List UInt8)} {j : Nat} (h : Leads table shiftJisToUtf8 i names j) :
    ∃ j', table.search shiftJisToUtf8 names i = some j' := by
  induction h with
  | nil i => exact ⟨i, rfl⟩
  | @cons i j child name names children hchildren hchild hequal _ ih =>
      obtain ⟨j', hj'⟩ := ih
      have hsome : ((children.findSome? fun child =>
          if table.nameEquals shiftJisToUtf8 child name then table.search shiftJisToUtf8 names child
          else none)).isSome := by
        rw [List.findSome?_isSome_iff]
        refine ⟨child, hchild, ?_⟩
        have hname : table.nameEquals shiftJisToUtf8 child name = true := decide_eq_true hequal
        rw [if_pos hname, hj']
        rfl
      rw [search, hchildren, Option.getD_some]
      exact Option.isSome_iff_exists.mp hsome

theorem leads_concat {names : List (List UInt8)} {name : List UInt8} {j : Nat}
    (h : Leads table shiftJisToUtf8 i (names ++ [name]) j) : ∃ parent children,
      Leads table shiftJisToUtf8 i names parent ∧ table.children parent = some children ∧ j ∈ children ∧
        table.nameCaseInsensitiveEquals shiftJisToUtf8 j name = some true := by
  induction names generalizing i with
  | nil =>
      cases h with
      | cons hchildren hchild hequal hrest =>
          cases hrest
          exact ⟨i, _, .nil i, hchildren, hchild, hequal⟩
  | cons first names ih =>
      cases h with
      | cons hchildren hchild hequal hrest =>
          obtain ⟨parent, children, hlead, hfound⟩ := ih hrest
          exact ⟨parent, children, .cons hchildren hchild hequal hlead, hfound⟩

theorem search_concat {names : List (List UInt8)} {name : List UInt8} {parent child : Nat} {children : List Nat}
    (h : table.search shiftJisToUtf8 names i = some parent) (hchildren : table.children parent = some children)
    (hchild : child ∈ children) (hequal : table.nameCaseInsensitiveEquals shiftJisToUtf8 child name = some true) :
    ∃ j ∈ children, table.search shiftJisToUtf8 (names ++ [name]) i = some j := by
  induction names generalizing i with
  | nil =>
      cases h
      obtain ⟨j, hj⟩ := search_of_leads (.cons hchildren hchild hequal (.nil child))
      have hmem := hj
      rw [search, List.findSome?_eq_some_iff] at hmem
      obtain ⟨before, found, after, hsplit, hfound, -⟩ := hmem
      split at hfound
      · cases hfound
        rw [hchildren, Option.getD_some] at hsplit
        exact ⟨j, hsplit ▸ List.mem_append_right _ List.mem_cons_self, hj⟩
      · cases hfound
  | cons first names ih =>
      rw [search, List.findSome?_eq_some_iff] at h
      obtain ⟨before, found, after, hsplit, hfound, hbefore⟩ := h
      split at hfound
      next hsame =>
        obtain ⟨j, hj, hrest⟩ := ih hfound
        refine ⟨j, hj, ?_⟩
        rw [List.cons_append, search, List.findSome?_eq_some_iff]
        refine ⟨before, found, after, hsplit, by rw [if_pos hsame, hrest], fun other hother => ?_⟩
        have hnone := hbefore other hother
        split at hnone
        next hother' =>
          rw [if_pos hother']
          cases hresult : table.search shiftJisToUtf8 (names ++ [name]) other with
          | none => rfl
          | some k =>
              obtain ⟨parent', -, hlead, -⟩ := leads_concat (leads_of_search hresult)
              obtain ⟨k', hk'⟩ := search_of_leads hlead
              rw [hnone] at hk'
              cases hk'
        next hother' => rw [if_neg hother']
      · cases hfound

/-! ## What holds of a valid file system -/

def IsChild (table : Table) (i child : Nat) : Prop := ∃ children, table.children i = some children ∧ child ∈ children

/-- The name of an entry is the same as another but for the case of letters. Bytes of ASCII in front stand as they are, as they
do in the converted name where the conversion keeps ASCII. -/
structure SameName (table : Table) (shiftJisToUtf8 : List UInt8 → List UInt8) (i : Nat) (other : List UInt8) : Prop where
  decoded : ∃ offset name, table.getNameOffset i = some offset ∧ table.cString offset = some name ∧
    (decoded shiftJisToUtf8 name).map toLower = other.map toLower
  converted : (∀ c < 0x80, ∀ cs, shiftJisToUtf8 (c :: cs) = c :: shiftJisToUtf8 cs) → shiftJisToUtf8 [] = [] →
    ∃ name, table.getName shiftJisToUtf8 i = some name ∧ name.map toLower = other.map toLower

/-- An entry that is found by a path, and what is found by the components before the last one. -/
structure FoundBy (table : Table) (shiftJisToUtf8 : List UInt8 → List UInt8) (path : List UInt8) (i : Nat) : Prop where
  inside : i < table.totalFileInfos
  leads : table.Leads shiftJisToUtf8 0 (components path) i
  last : i ≠ 0 → ∃ preceding last parent, components path = preceding ++ [last] ∧ table.SameName shiftJisToUtf8 i last ∧
    (∀ p < table.totalFileInfos, table.IsChild p i ↔ p = parent) ∧ table.Leads shiftJisToUtf8 0 preceding parent ∧
    ∀ path', components path' = preceding →
      ∃ result, FileSystem.findFileInfo shiftJisToUtf8 table.fst path' = some (some result) ∧
        (result = parent ∨ ∀ child, table.IsChild result child →
          table.nameCaseInsensitiveEquals shiftJisToUtf8 child last = some false)

structure WellFormed (table : Table) (shiftJisToUtf8 : List UInt8 → List UInt8) : Prop where
  visit : table.visit table.fst.length 0 = some (List.range' 1 (table.totalFileInfos - 1))
  reads : ∀ i < table.totalFileInfos, ∀ entryProperty, ∃ value, table.get i entryProperty = some value
  names : ∀ i < table.totalFileInfos, ∃ offset name, table.getNameOffset i = some offset ∧ offset < table.fst.length ∧
    table.cString offset = some name
  paths : ∀ i < table.totalFileInfos, ∃ path, table.getPath shiftJisToUtf8 table.fst.length i = some path
  lookup : ∀ path, ∃ result, FileSystem.findFileInfo shiftJisToUtf8 table.fst path = some result ∧
    ((∃ i, table.Leads shiftJisToUtf8 0 (components path) i) → result ≠ none) ∧
    ∀ i, result = some i → table.FoundBy shiftJisToUtf8 path i

theorem decoded_eq (hascii : ∀ c < 0x80, ∀ cs, shiftJisToUtf8 (c :: cs) = c :: shiftJisToUtf8 cs)
    (hnil : shiftJisToUtf8 [] = []) (name : List UInt8) : decoded shiftJisToUtf8 name = shiftJisToUtf8 name := by
  induction name with
  | nil => exact hnil.symm
  | cons c cs ih =>
      by_cases hc : c < 0x80
      · rw [decoded_cons hc, hascii c hc, ih]
      · rw [decoded, List.dropWhile_cons_of_neg (by simpa using hc), List.takeWhile_cons_of_neg (by simpa using hc)]
        rfl

theorem Tree.sameName (h : table.Tree) (hi : i < table.totalFileInfos) {other : List UInt8}
    (hequal : table.nameCaseInsensitiveEquals shiftJisToUtf8 i other = some true) :
    table.SameName shiftJisToUtf8 i other := by
  obtain ⟨-, name, hstring, hname⟩ := @Tree.name table i shiftJisToUtf8 h hi
  have hoffset := (h.sound.inside hi).getNameOffset
  obtain ⟨equal, hresult, hspec⟩ := @nameEqualsAt_spec table shiftJisToUtf8 _ name hstring other
  rw [nameCaseInsensitiveEquals, hoffset, Option.bind_some, hresult] at hequal
  have hsame := hspec (Option.some.inj hequal)
  refine ⟨⟨_, name, hoffset, hstring, hsame⟩, fun hascii hnil => ⟨_, hname, ?_⟩⟩
  rw [← decoded_eq hascii hnil]
  exact hsame

theorem Tree.isChild (h : table.Tree) (hi : i < table.totalFileInfos) {child : Nat} (hchild : table.IsChild i child) :
    ∃ kids, table.Kids i kids ∧ child ∈ kids ∧ child < table.totalFileInfos := by
  obtain ⟨kids, hkids, hchildren, -⟩ := h.kids hi
  obtain ⟨children, hchildren', hmem⟩ := hchild
  obtain rfl := Option.some.inj (hchildren.symm.trans hchildren')
  exact ⟨kids, hkids, hmem, (hkids.bounds child hmem).2.trans_le hkids.within⟩

theorem Tree.leads_lt (h : table.Tree) {names : List (List UInt8)} {j : Nat}
    (hleads : table.Leads shiftJisToUtf8 i names j) (hi : i < table.totalFileInfos) : j < table.totalFileInfos := by
  induction hleads with
  | nil => exact hi
  | cons hchildren hchild _ _ ih =>
      obtain ⟨-, -, -, hlt⟩ := h.isChild hi ⟨_, hchildren, hchild⟩
      exact ih hlt

theorem Tree.parent_unique (h : table.Tree) {p p' child : Nat} (hp : p < table.totalFileInfos)
    (hp' : p' < table.totalFileInfos) (hchild : table.IsChild p child) (hchild' : table.IsChild p' child) : p = p' := by
  obtain ⟨kids, hkids, hmem, -⟩ := h.isChild hp hchild
  obtain ⟨kids', hkids', hmem', -⟩ := h.isChild hp' hchild'
  exact hkids.roots.parent_unique hkids'.roots hkids.entries hkids'.entries hmem hmem'

theorem length_components_le (path : List UInt8) : (components path).length ≤ path.length :=
  (List.length_filter_le _ _).trans (length_pieces_le path)

theorem Tree.lookup (h : table.Tree) (hvalid : isValidFst table.fst = some true) (hroot : rootOf table.fst = some table)
    (path : List UInt8) : FileSystem.findFileInfo shiftJisToUtf8 table.fst path =
      some (table.search shiftJisToUtf8 (components path) 0) := by
  rw [FileSystem.findFileInfo, hvalid, Option.bind_some, if_pos rfl, hroot, Option.bind_some,
    h.findFileInfo (Nat.lt_succ_of_le (length_components_le path)) h.pos]

theorem Tree.foundBy (h : table.Tree) (hvalid : isValidFst table.fst = some true) (hroot : rootOf table.fst = some table)
    {path : List UInt8} (hfound : table.search shiftJisToUtf8 (components path) 0 = some i) :
    table.FoundBy shiftJisToUtf8 path i := by
  have hleads := leads_of_search hfound
  refine ⟨h.leads_lt hleads h.pos, hleads, fun hne => ?_⟩
  rcases List.eq_nil_or_concat (components path) with hnil | ⟨preceding, last, hsplit⟩
  · rw [hnil] at hleads
    cases hleads
    exact absurd rfl hne
  rw [List.concat_eq_append] at hsplit
  rw [hsplit] at hleads
  obtain ⟨parent, children, hpreceding, hchildren, hchild, hequal⟩ := leads_concat hleads
  have hparent := h.leads_lt hpreceding h.pos
  have hin : table.IsChild parent i := ⟨children, hchildren, hchild⟩
  refine ⟨preceding, last, parent, hsplit, h.sameName (h.leads_lt hleads h.pos) hequal,
    fun p hp => ⟨fun hp' => h.parent_unique hp hparent hp' hin, fun heq => heq ▸ hin⟩, hpreceding, ?_⟩
  intro path' hpath'
  obtain ⟨result, hresult⟩ := search_of_leads hpreceding
  refine ⟨result, by rw [h.lookup hvalid hroot, hpath', hresult], ?_⟩
  by_cases hsame : result = parent
  · exact .inl hsame
  refine .inr fun child hbelow => ?_
  have hresultIn := h.leads_lt (leads_of_search hresult) h.pos
  obtain ⟨-, -, -, hchildIn⟩ := h.isChild hresultIn hbelow
  have hname := @Tree.nameEquals table child shiftJisToUtf8 h hchildIn last
  rw [hname]
  by_contra htrue
  -- the search would have found a child of the first result
  rw [Option.some.injEq, Bool.not_eq_false] at htrue
  rw [htrue] at hname
  obtain ⟨children', hchildren', hmem⟩ := hbelow
  obtain ⟨j, hj, hsearch⟩ := search_concat hresult hchildren' hmem hname
  rw [← hsplit, hfound] at hsearch
  cases hsearch
  exact hsame (h.parent_unique hresultIn hparent ⟨children', hchildren', hj⟩ hin)

end Table

/-- What is relied on after the check of a file system: its entries are a tree, which is read within the table, and lookups
come to an end and find what their path leads to. -/
theorem valid_wellFormed (shiftJisToUtf8 : List UInt8 → List UInt8) {fst : List UInt8} (h : isValidFst fst = some true) :
    ∃ table, rootOf fst = some table ∧ table.fst = fst ∧ table.WellFormed shiftJisToUtf8 := by
  obtain ⟨valid, hvalid, hexists⟩ := isValidFst_check fst
  obtain rfl := Option.some.inj (hvalid.symm.trans h)
  obtain ⟨table, hroot, rfl, htree⟩ := hexists rfl
  have hentries := htree.sound.entries
  rw [fstEntrySize] at hentries
  refine ⟨table, hroot, rfl, ?_, fun i hi entryProperty => ?_, fun i hi => ?_, fun i hi => ?_, fun path => ?_⟩
  · rw [htree.visit htree.pos (by omega), htree.root]
  · exact ⟨_, (htree.sound.inside hi).get entryProperty⟩
  · obtain ⟨hlt, name, hstring, -⟩ := @Table.Tree.name table i shiftJisToUtf8 htree hi
    exact ⟨_, name, (htree.sound.inside hi).getNameOffset, hlt, hstring⟩
  · exact htree.getPath hi (by omega)
  · refine ⟨_, htree.lookup hvalid hroot path, fun ⟨i, hleads⟩ hnone => ?_, fun i hi => htree.foundBy hvalid hroot hi⟩
    obtain ⟨j, hj⟩ := Table.search_of_leads hleads
    rw [hnone] at hj
    cases hj

def twoDirectories : List UInt8 :=
  [1, 0, 0, 0, 0, 0, 0, 0, 0, 0, 0, 4] ++ [1, 0, 0, 0, 0, 0, 0, 0, 0, 0, 0, 2] ++ [1, 0, 0, 0, 0, 0, 0, 0, 0, 0, 0, 4] ++
    [0, 0, 0, 2, 0, 0, 0, 0, 0, 0, 0, 0] ++ [0x61, 0, 0x62, 0]

theorem valid_wellFormed_twoDirectories : ∃ table, rootOf twoDirectories = some table ∧ table.fst = twoDirectories ∧
    table.WellFormed id :=
  valid_wellFormed id (by decide)

/-- `a/b` is found in the second directory, while `a` is the first. -/
theorem twoDirectories_parent : isValidFst twoDirectories = some true ∧
    Table.components [0x61, 0x2f, 0x62] = Table.components [0x61] ++ [[0x62]] ∧
    findFileInfo id twoDirectories [0x61, 0x2f, 0x62] = some (some 3) ∧
    ¬∃ table parent, rootOf twoDirectories = some table ∧
      findFileInfo id twoDirectories [0x61] = some (some parent) ∧ table.IsChild parent 3 := by
  refine ⟨by decide, by decide, by decide, ?_⟩
  rintro ⟨table, parent, hroot, hparent, children, hchildren, hmem⟩
  have hfirst : findFileInfo id twoDirectories [0x61] = some (some 1) := by decide
  have hnone : (rootOf twoDirectories).bind (·.children 1) = some [] := by decide
  cases hparent.symm.trans hfirst
  rw [hroot, Option.bind_some, hchildren] at hnone
  cases hnone
  cases hmem

end Karphin.DiscIO.FileSystem
