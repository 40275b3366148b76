import Karphin.DiscIO.Riivolution.Paths
import Karphin.Lib.Tiling

/-!
# File patches

The sources that a file's content is made of, and what patches make of them.
-/

namespace Karphin.DiscIO.Riivolution

open Lib

inductive ContentSource where
  | file (filename : Str) (offset : Nat)
  | memory (bytes : List UInt8)
  | partition (offset partitionDataOffset : Nat)
  | volume (offset part : Nat)
  | fixedByte (byte : UInt8)

structure BuilderContentSource extends Extent where
  source : ContentSource

structure FSTBuilderNode where
  size : Nat
  content : List BuilderContentSource

structure FileDataLoader where
  host : Host
  sdRoot : Str
  patchRoot : Str
  fileSize : Str → Option Nat

structure File where
  external : Str
  resize : Bool
  offset : UInt32
  fileoffset : UInt32
  length : UInt32

namespace FileDataLoader

variable (loader : FileDataLoader) (external : Str)

def path : Option Str := makeAbsoluteFromRelative loader.host loader.sdRoot loader.patchRoot external

def getExternalFileSize : Option Nat := (loader.path external).bind loader.fileSize

def makeContentSource (externalOffset externalSize discOffset : Nat) : BuilderContentSource :=
  ⟨⟨discOffset, externalSize⟩, match loader.path external with
    | none => .fixedByte 0
    | some path => .file path externalOffset⟩

end FileDataLoader

def ContentSource.skip (n : Nat) : ContentSource → ContentSource
  | .file filename offset => .file filename (offset + n)
  | .memory bytes => .memory (bytes.drop n)
  | .partition offset partitionDataOffset => .partition (offset + n) partitionDataOffset
  | .volume offset part => .volume (offset + n) part
  | .fixedByte byte => .fixedByte byte

abbrev Content := List BuilderContentSource

namespace BuilderContentSource

variable (s : BuilderContentSource) (p : Nat)

def finish : Nat := s.offset + s.size

abbrev Inside : Prop := s.offset < p ∧ p < s.finish

def before : BuilderContentSource := ⟨⟨s.offset, p - s.offset⟩, s.source⟩

def after : BuilderContentSource :=
  ⟨⟨s.offset + (p - s.offset), s.finish - p⟩, s.source.skip (p - s.offset)⟩

end BuilderContentSource

def splitsLeft (start stop : Nat) : Content → Nat
  | [] => 0
  | s :: _ => (if s.Inside start then 1 else 0) + if s.Inside stop then 1 else 0

def split (start stop : Nat) : Content → Content
  | [] => []
  | s :: rest =>
      if s.Inside start then s.before start :: split start stop (s.after start :: rest)
      else if s.Inside stop then s.before stop :: split start stop (s.after stop :: rest)
      else s :: split start stop rest
termination_by content => (content.length, splitsLeft start stop content)
decreasing_by
  all_goals simp_wf
  all_goals simp only [splitsLeft, BuilderContentSource.Inside, BuilderContentSource.after, BuilderContentSource.finish] at *
  all_goals grind

/-- The sources that overlap are discarded, and the others come in two parts between which one can insert. -/
def discard (start stop : Nat) (content : Content) : Content × Content :=
  match content.dropWhile (·.offset ≠ start) with
  | [] => ([], content)
  | back => (content.takeWhile (·.offset ≠ start), back.dropWhile (·.finish ≤ stop))

def makeRoom (node : FSTBuilderNode) (start stop : Nat) : Content × Content :=
  if node.size ≤ start then
    (if node.size < start then node.content ++ [⟨⟨node.size, start - node.size⟩, .fixedByte 0⟩] else node.content, [])
  else discard start stop (split start stop node.content)

def applyPatchToFile (loader : FileDataLoader) (node : FSTBuilderNode) (external : Str)
    (filePatchOffset rawExternalFileOffset filePatchLength : Nat) (resize : Bool) : FSTBuilderNode :=
  match loader.getExternalFileSize external with
  | none => node
  | some rawExternalFilesize =>
      let externalFileOffset := min rawExternalFileOffset rawExternalFilesize
      let externalFilesize := rawExternalFilesize - externalFileOffset
      let patchStart := filePatchOffset
      let patchSize := if filePatchLength = 0 then externalFilesize else filePatchLength
      let patchEnd := patchStart + patchSize
      let targetFilesize := if resize then patchEnd else max node.size patchEnd
      let room := makeRoom node patchStart patchEnd
      let data := if 0 < patchSize ∧ 0 < externalFilesize then
        [loader.makeContentSource external externalFileOffset (min patchSize externalFilesize) patchStart] else []
      let padding := if externalFilesize < patchSize then
        [⟨⟨patchStart + externalFilesize, patchSize - externalFilesize⟩, .fixedByte 0⟩] else []
      ⟨targetFilesize, (room.1 ++ data ++ padding ++ room.2).rdropWhile (targetFilesize ≤ ·.offset)⟩

def File.patchStart (patch : File) : Nat := (patch.offset.toUInt64 &&& ~~~3).toNat

def applyFile (node : FSTBuilderNode) (patch : FileDataLoader × File) : FSTBuilderNode :=
  applyPatchToFile patch.1 node patch.2.external patch.2.patchStart patch.2.fileoffset.toNat patch.2.length.toNat
    patch.2.resize

/-! ## The bytes of a node -/

structure Readers where
  file : Str → Nat → UInt8
  partition : (partitionDataOffset offset : Nat) → UInt8
  volume : (part offset : Nat) → UInt8

variable (r : Readers)

def ContentSource.byteAt (source : ContentSource) (i : Nat) : UInt8 :=
  match source with
  | .file filename offset => r.file filename (offset + i)
  | .memory bytes => bytes.getD i 0
  | .partition offset partitionDataOffset => r.partition partitionDataOffset (offset + i)
  | .volume offset part => r.volume part (offset + i)
  | .fixedByte byte => byte

def BuilderContentSource.bytes (s : BuilderContentSource) : List UInt8 :=
  (List.range s.size).map (s.source.byteAt r)

def bytes (content : Content) : List UInt8 := content.flatMap (·.bytes r)

def Covers (finish position : Nat) (content : Content) : Prop := Tiles finish position (content.map (·.toExtent))

def FSTBuilderNode.Tiled (node : FSTBuilderNode) : Prop := Covers node.size 0 node.content

variable {r} {start stop finish position : Nat} {s : BuilderContentSource} {content rest : Content}

theorem byteAt_skip (n i : Nat) (source : ContentSource) :
    (source.skip n).byteAt r i = source.byteAt r (n + i) := by
  cases source <;> simp [ContentSource.skip, ContentSource.byteAt, Nat.add_assoc, List.getD_eq_getElem?_getD]

@[simp]
theorem bytes_cons : bytes r (s :: rest) = s.bytes r ++ bytes r rest := by
  simp [bytes]

@[simp]
theorem bytes_append : bytes r (content ++ rest) = bytes r content ++ bytes r rest := by
  simp [bytes]

theorem bytes_fixedByte {offset size : Nat} {byte : UInt8} :
    BuilderContentSource.bytes r ⟨⟨offset, size⟩, .fixedByte byte⟩ = List.replicate size byte := by
  simp [BuilderContentSource.bytes, List.eq_replicate_iff, ContentSource.byteAt]

theorem bytes_split (h : s.Inside start) : (s.before start).bytes r ++ (s.after start).bytes r = s.bytes r := by
  have hsize : s.size = (start - s.offset) + (s.finish - start) := by
    have := h.1
    have := h.2
    simp only [BuilderContentSource.finish] at *
    omega
  simp only [BuilderContentSource.bytes, BuilderContentSource.before, BuilderContentSource.after, hsize,
    List.range_add, List.map_append, List.map_map]
  congr 1
  exact List.map_congr_left fun i _ => byteAt_skip _ i s.source

theorem Covers.bytes_length (h : Covers finish position content) :
    (bytes r content).length = finish - position := by
  induction content generalizing position with
  | nil =>
      have hend : position = finish := h
      simp [bytes, hend]
  | cons s rest ih =>
      have hle : position + s.size ≤ finish := Tiles.le h.2
      rw [bytes_cons, List.length_append, ih h.2]
      simp only [BuilderContentSource.bytes, List.length_map, List.length_range]
      omega

theorem Covers.append {middle : Nat} (h : Covers middle position content) (hrest : Covers finish middle rest) :
    Covers finish position (content ++ rest) := by
  rw [Covers, List.map_append]
  exact Tiles.append h hrest

theorem covers_singleton {size : Nat} {source : ContentSource} (h : position + size = finish) :
    Covers finish position [⟨⟨position, size⟩, source⟩] := ⟨rfl, h⟩

/-! ## Splitting -/

def Separated (p : Nat) (content : Content) : Prop := ∀ s ∈ content, ¬ s.Inside p

theorem Covers.split_at (h : Covers finish position (s :: rest)) (hinside : s.Inside start) :
    Covers finish (position + (s.before start).size) (s.after start :: rest) ∧ (s.before start).offset = position := by
  obtain ⟨hoffset, hrest⟩ := h
  have hstart := hinside.1
  have hstop := hinside.2
  replace hoffset : s.offset = position := hoffset
  have hend : position + (s.before start).size + (s.after start).size = position + s.size := by
    simp only [BuilderContentSource.before, BuilderContentSource.after, BuilderContentSource.finish] at *
    omega
  refine ⟨⟨by rw [← hoffset]; rfl, ?_⟩, hoffset⟩
  exact hend.symm ▸ hrest

structure SplitOf (r : Readers) (start stop finish position : Nat) (content pieces : Content) : Prop where
  covers : Covers finish position pieces
  bytes_eq : bytes r pieces = bytes r content
  at_start : Separated start pieces
  at_stop : Separated stop pieces

theorem SplitOf.cons {p : Nat} {pieces : Content} (h : Covers finish position (s :: rest)) (hinside : s.Inside p)
    (hstart : ¬ (s.before p).Inside start) (hstop : ¬ (s.before p).Inside stop)
    (ih : ∀ {position : Nat}, Covers finish position (s.after p :: rest) →
      SplitOf r start stop finish position (s.after p :: rest) pieces) :
    SplitOf r start stop finish position (s :: rest) (s.before p :: pieces) := by
  obtain ⟨hafter, hoffset⟩ := h.split_at hinside
  obtain ⟨hcovers, hbytes, hstarts, hstops⟩ := ih hafter
  refine ⟨⟨hoffset, hcovers⟩, ?_, List.forall_mem_cons.mpr ⟨hstart, hstarts⟩, List.forall_mem_cons.mpr ⟨hstop, hstops⟩⟩
  rw [bytes_cons, hbytes, bytes_cons, ← List.append_assoc, bytes_split hinside, bytes_cons]

theorem split_spec (hle : start ≤ stop) : ∀ {position : Nat}, Covers finish position content →
    SplitOf r start stop finish position content (split start stop content) := by
  fun_induction split start stop content with
  | case1 => exact fun h => ⟨h, rfl, nofun, nofun⟩
  | case2 s rest hinside ih =>
      intro position h
      refine .cons h hinside ?_ ?_ ih
      all_goals
        simp only [BuilderContentSource.Inside, BuilderContentSource.before, BuilderContentSource.finish] at *
        omega
  | case3 s rest hout hinside ih =>
      intro position h
      refine .cons h hinside ?_ ?_ ih
      all_goals
        simp only [BuilderContentSource.Inside, BuilderContentSource.before, BuilderContentSource.finish] at *
        omega
  | case4 s rest hstart hstop ih =>
      intro position h
      obtain ⟨hcovers, hbytes, hstarts, hstops⟩ := ih h.2
      refine ⟨⟨h.1, hcovers⟩, ?_, List.forall_mem_cons.mpr ⟨hstart, hstarts⟩, List.forall_mem_cons.mpr ⟨hstop, hstops⟩⟩
      rw [bytes_cons, hbytes, bytes_cons]

/-! ## Discarding -/

theorem Covers.front (h : Covers finish position content) (hsep : Separated start content) (hle : position ≤ start)
    (hlt : start < finish) : Covers start position (content.takeWhile (·.offset ≠ start)) ∧
      Covers finish start (content.dropWhile (·.offset ≠ start)) := by
  induction content generalizing position with
  | nil =>
      have hend : position = finish := h
      omega
  | cons s rest ih =>
      have hoffset : s.offset = position := h.1
      by_cases hhere : s.offset = start
      · subst hhere
        rw [List.takeWhile_cons_of_neg (by simp), List.dropWhile_cons_of_neg (by simp)]
        exact ⟨hoffset.symm, hoffset ▸ h⟩
      · have hbeyond : position + s.size ≤ start := by
          have hout := hsep s List.mem_cons_self
          simp only [BuilderContentSource.Inside, BuilderContentSource.finish] at hout
          omega
        obtain ⟨hfront, hback⟩ := ih h.2 (fun t ht => hsep t (List.mem_cons_of_mem _ ht)) hbeyond
        rw [List.takeWhile_cons_of_pos (by simpa using hhere), List.dropWhile_cons_of_pos (by simpa using hhere)]
        exact ⟨⟨h.1, hfront⟩, hback⟩

/-- What is left behind the bound is the end of the file, or nothing. -/
theorem Covers.back (h : Covers finish position content) (hsep : Separated stop content) (hle : position ≤ stop) :
    bytes r (content.dropWhile (·.finish ≤ stop)) = (bytes r content).drop (stop - position) ∧
      if finish ≤ stop then content.dropWhile (·.finish ≤ stop) = []
      else Covers finish stop (content.dropWhile (·.finish ≤ stop)) := by
  induction content generalizing position with
  | nil =>
      have hend : position = finish := h
      simp [bytes, hend, hend ▸ hle]
  | cons s rest ih =>
      have hoffset : s.offset = position := h.1
      have hrest : position + s.size ≤ finish := Tiles.le h.2
      by_cases hover : s.finish ≤ stop
      · have hbound : position + s.size ≤ stop := by
          simpa only [BuilderContentSource.finish, hoffset] using hover
        obtain ⟨hbytes, hcovers⟩ := ih h.2 (fun t ht => hsep t (List.mem_cons_of_mem _ ht)) hbound
        rw [List.dropWhile_cons_of_pos (by simpa using hover), bytes_cons, List.drop_append]
        have hlen : (s.bytes r).length = s.size := by simp [BuilderContentSource.bytes]
        refine ⟨?_, hcovers⟩
        rw [List.drop_eq_nil_of_le (by omega), List.nil_append, hbytes, hlen, Nat.sub_sub]
      · have hhere : position = stop := by
          have hout := hsep s List.mem_cons_self
          simp only [BuilderContentSource.Inside, BuilderContentSource.finish] at hout hover
          omega
        have hbefore : ¬ finish ≤ stop := by
          simp only [BuilderContentSource.finish] at hover
          omega
        rw [List.dropWhile_cons_of_neg (by simpa using hover), if_neg hbefore, hhere, Nat.sub_self, List.drop_zero]
        exact ⟨rfl, hhere ▸ h⟩

theorem makeRoom_spec {node : FSTBuilderNode} (h : node.Tiled) (hle : start ≤ stop) :
    Covers start 0 (makeRoom node start stop).1 ∧
    bytes r (makeRoom node start stop).1 =
      (bytes r node.content).take start ++ List.replicate (start - node.size) 0 ∧
    bytes r (makeRoom node start stop).2 = (bytes r node.content).drop stop ∧
    if node.size ≤ stop then (makeRoom node start stop).2 = [] else Covers node.size stop (makeRoom node start stop).2 := by
  have hlength : (bytes r node.content).length = node.size := Covers.bytes_length h
  rw [makeRoom]
  split
  next hpast =>
    -- nothing of the file is at the patch or behind it
    rw [List.take_of_length_le (by omega), List.drop_of_length_le (by omega),
      if_pos (show node.size ≤ stop by omega)]
    refine ⟨?_, ?_, rfl, rfl⟩
    · split
      next hgap => exact Covers.append h (covers_singleton (by omega))
      next hgap =>
        have hend : start = node.size := by omega
        exact hend ▸ h
    · split
      next hgap =>
        rw [bytes_append, bytes_cons, bytes_fixedByte]
        simp [bytes]
      next hgap => rw [Nat.sub_eq_zero_of_le (by omega), List.replicate_zero, List.append_nil]
  next hin =>
    obtain ⟨hcovers, hbytes, hstart, hstop⟩ := @split_spec r _ _ _ _ hle _ h
    generalize split start stop node.content = pieces at hcovers hbytes hstart hstop ⊢
    obtain ⟨hfront, hback⟩ := hcovers.front hstart (Nat.zero_le _) (by omega)
    have hsep : Separated stop (pieces.dropWhile (·.offset ≠ start)) := fun s hs =>
      hstop s (List.dropWhile_subset _ hs)
    obtain ⟨hrest, hleft⟩ := @Covers.back r _ _ _ _ hback hsep hle
    have hdiscard : discard start stop pieces =
        (pieces.takeWhile (·.offset ≠ start), (pieces.dropWhile (·.offset ≠ start)).dropWhile (·.finish ≤ stop)) := by
      rw [discard]
      split
      next hnone =>
        rw [hnone] at hback
        have hend : start = node.size := hback
        omega
      next => rfl
    have hwhole : bytes r node.content = bytes r (pieces.takeWhile (·.offset ≠ start)) ++
        bytes r (pieces.dropWhile (·.offset ≠ start)) := by
      rw [← bytes_append, List.takeWhile_append_dropWhile, hbytes]
    have hlen : (bytes r (pieces.takeWhile (·.offset ≠ start))).length = start := hfront.bytes_length
    rw [hdiscard]
    refine ⟨hfront, ?_, ?_, hleft⟩
    · rw [hwhole, List.take_left' hlen, Nat.sub_eq_zero_of_le (by omega), List.replicate_zero, List.append_nil]
    · rw [hrest, hwhole, List.drop_append, List.drop_of_length_le (hlen.trans_le hle), List.nil_append, hlen]

/-! ## The end of the file -/

theorem Covers.pop (h : Covers finish 0 content) (hrest : ∀ s ∈ rest, finish ≤ s.offset) :
    Covers finish 0 ((content ++ rest).rdropWhile (finish ≤ ·.offset)) ∧
      bytes r ((content ++ rest).rdropWhile (finish ≤ ·.offset)) = bytes r content := by
  induction rest using List.reverseRecOn with
  | nil =>
      rw [List.append_nil]
      induction content using List.reverseRecOn with
      | nil => exact ⟨h, rfl⟩
      | append_singleton content s ih =>
          by_cases hpast : finish ≤ s.offset
          · -- the source is empty
            rw [Covers, List.map_append, tiles_append] at h
            have hoffset : s.offset = endOf 0 (content.map (·.toExtent)) := h.2.1
            have hend : endOf 0 (content.map (·.toExtent)) + s.size = finish := h.2.2
            have hsize : s.size = 0 := by omega
            have hfront : Covers finish 0 content := by
              have hsame : endOf 0 (content.map (·.toExtent)) = finish := by omega
              exact hsame ▸ h.1
            rw [List.rdropWhile_concat_pos _ _ _ (by simpa using hpast), bytes_append]
            simpa [bytes, BuilderContentSource.bytes, hsize] using ih hfront
          · rw [List.rdropWhile_concat_neg _ _ _ (by simpa using hpast)]
            exact ⟨h, rfl⟩
  | append_singleton rest s ih =>
      rw [← List.append_assoc, List.rdropWhile_concat_pos _ _ _ (by simpa using hrest s (by simp))]
      exact ih fun t ht => hrest t (List.mem_append_left _ ht)

theorem Covers.le_offset (h : Covers finish position content) : ∀ s ∈ content, position ≤ s.offset := by
  induction content generalizing position with
  | nil => exact nofun
  | cons s rest ih =>
      have hoffset : s.offset = position := h.1
      refine List.forall_mem_cons.mpr ⟨hoffset.ge, fun t ht => ?_⟩
      exact (Nat.le_add_right _ _).trans (ih h.2 t ht)

theorem Covers.close {size : Nat} {resize : Bool} (h : Covers stop 0 content)
    (hrest : if size ≤ stop then rest = [] else Covers size stop rest) :
    let target := if resize then stop else max size stop
    Covers target 0 ((content ++ rest).rdropWhile (target ≤ ·.offset)) ∧
      bytes r ((content ++ rest).rdropWhile (target ≤ ·.offset)) =
        bytes r content ++ if resize then [] else bytes r rest := by
  cases resize with
  | true =>
      have hbehind : ∀ s ∈ rest, stop ≤ s.offset := by
        split at hrest
        next => simp [hrest]
        next => exact hrest.le_offset
      simpa only [if_true, List.append_nil] using h.pop hbehind
  | false =>
      simp only [Bool.false_eq_true, if_false]
      split at hrest
      next hle =>
        rw [hrest, Nat.max_eq_right hle]
        simpa [bytes] using @Covers.pop r _ _ [] h nofun
      next hlt =>
        rw [Nat.max_eq_left (by omega), ← bytes_append]
        simpa only [List.append_nil] using @Covers.pop r _ _ [] (h.append hrest) nofun

/-! ## A patch -/

variable (patch : File) (rawSize : Nat)

def File.externalOffset : Nat := min patch.fileoffset.toNat rawSize

def File.available : Nat := rawSize - patch.externalOffset rawSize

def File.patchSize : Nat := if patch.length.toNat = 0 then patch.available rawSize else patch.length.toNat

def File.patchEnd : Nat := patch.patchStart + patch.patchSize rawSize

def File.data (r : Readers) (path : Str) : List UInt8 :=
  (List.range (min (patch.patchSize rawSize) (patch.available rawSize))).map
    (fun i => r.file path (patch.externalOffset rawSize + i)) ++
    List.replicate (patch.patchSize rawSize - patch.available rawSize) 0

/-- What a patch makes of a node, when the external file is this long. -/
structure Patched (r : Readers) (path : Str) (rawSize : Nat) (patch : File) (old new : FSTBuilderNode) : Prop where
  size : new.size = if patch.resize then patch.patchEnd rawSize else max old.size (patch.patchEnd rawSize)
  bytes : bytes r new.content =
    (bytes r old.content).take patch.patchStart ++ List.replicate (patch.patchStart - old.size) 0 ++ patch.data rawSize r path ++
      if patch.resize then [] else (bytes r old.content).drop (patch.patchEnd rawSize)

theorem data_spec {available patchSize offset : Nat} {path : Str} :
    let content : Content :=
      if 0 < patchSize ∧ 0 < available then [⟨⟨start, min patchSize available⟩, .file path offset⟩] else []
    Covers (start + min patchSize available) start content ∧
      bytes r content = (List.range (min patchSize available)).map fun i => r.file path (offset + i) := by
  dsimp only
  split
  next => exact ⟨covers_singleton rfl, by simp [bytes, BuilderContentSource.bytes, ContentSource.byteAt]⟩
  next hnone =>
    have hzero : min patchSize available = 0 := by omega
    rw [hzero]
    exact ⟨rfl, rfl⟩

theorem padding_spec {available patchSize : Nat} :
    let content : Content :=
      if available < patchSize then [⟨⟨start + available, patchSize - available⟩, .fixedByte 0⟩] else []
    Covers (start + patchSize) (start + min patchSize available) content ∧
      bytes r content = List.replicate (patchSize - available) 0 := by
  dsimp only
  split
  next hshort =>
    rw [Nat.min_eq_right hshort.le]
    exact ⟨covers_singleton (by omega), by simp [bytes, bytes_fixedByte]⟩
  next hlong =>
    rw [Nat.min_eq_left (by omega), Nat.sub_eq_zero_of_le (by omega)]
    exact ⟨rfl, rfl⟩

variable {loader : FileDataLoader} {patch : File} {node : FSTBuilderNode} {rawSize : Nat} {path : Str}

theorem applyFile_spec (h : node.Tiled) (hpath : loader.path patch.external = some path)
    (hsize : loader.fileSize path = some rawSize) :
    (applyFile node (loader, patch)).Tiled ∧ Patched r path rawSize patch node (applyFile node (loader, patch)) := by
  have hloader : loader.getExternalFileSize patch.external = some rawSize := by
    rw [FileDataLoader.getExternalFileSize, hpath, Option.bind_some, hsize]
  have havailable : rawSize - min patch.fileoffset.toNat rawSize = patch.available rawSize := rfl
  simp only [applyFile, applyPatchToFile, hloader, havailable, FileDataLoader.makeContentSource, hpath]
  obtain ⟨hfront, hfrontBytes, hback, hleft⟩ := @makeRoom_spec r _ (patch.patchEnd rawSize) _ h
    (Nat.le_add_right patch.patchStart (patch.patchSize rawSize))
  obtain ⟨hdata, hdataBytes⟩ := @data_spec r patch.patchStart (patch.available rawSize) (patch.patchSize rawSize)
    (patch.externalOffset rawSize) path
  obtain ⟨hpadding, hpaddingBytes⟩ := @padding_spec r patch.patchStart (patch.available rawSize) (patch.patchSize rawSize)
  have hcovers := (hfront.append hdata).append hpadding
  have hbytes := congrArg₂ (· ++ ·) (congrArg₂ (· ++ ·) hfrontBytes hdataBytes) hpaddingBytes
  simp only [← bytes_append] at hbytes
  obtain ⟨htiled, hbytesNew⟩ := @Covers.close r _ _ _ _ patch.resize hcovers hleft
  exact ⟨htiled, rfl, hbytesNew.trans (by rw [hbytes, hback, File.data, ← List.append_assoc])⟩

theorem applyFile_none (h : loader.getExternalFileSize patch.external = none) : applyFile node (loader, patch) = node := by
  simp only [applyFile, applyPatchToFile, h]

theorem applyFile_tiled (h : node.Tiled) : (applyFile node (loader, patch)).Tiled := by
  cases hloader : loader.getExternalFileSize patch.external with
  | none => rwa [applyFile_none hloader]
  | some rawSize =>
      obtain ⟨path, hpath, hsize⟩ := Option.bind_eq_some_iff.mp hloader
      exact (@applyFile_spec ⟨fun _ _ => 0, fun _ _ => 0, fun _ _ => 0⟩ _ _ _ _ _ h hpath hsize).1

theorem applyFiles_tiled (h : node.Tiled) (patches : List (FileDataLoader × File)) :
    (patches.foldl applyFile node).Tiled := by
  induction patches generalizing node with
  | nil => exact h
  | cons patch patches ih => exact ih (applyFile_tiled h)

/-- After any patches the sources tile the file, and one more patch changes its bytes as it says. -/
theorem patches_tile (node : FSTBuilderNode) (h : node.Tiled) (patches : List (FileDataLoader × File)) :
    let old := patches.foldl applyFile node
    old.Tiled ∧ ∀ (loader : FileDataLoader) (patch : File),
      let new := applyFile old (loader, patch)
      new.Tiled ∧
      (loader.getExternalFileSize patch.external = none → new = old) ∧
      ∀ (r : Readers) (path : Str) (rawSize : Nat), loader.path patch.external = some path →
        loader.fileSize path = some rawSize → Patched r path rawSize patch old new := by
  intro old
  have hold : old.Tiled := applyFiles_tiled h patches
  exact ⟨hold, fun _ _ => ⟨applyFile_tiled hold, applyFile_none, fun _ _ _ hpath hsize => (applyFile_spec hold hpath hsize).2⟩⟩

theorem patches_tile_memory :
    let node : FSTBuilderNode := ⟨4, [⟨⟨0, 1⟩, .fixedByte 7⟩, ⟨⟨1, 3⟩, .memory [1, 2, 3]⟩]⟩
    ∀ patches : List (FileDataLoader × File), (patches.foldl applyFile node).Tiled :=
  fun patches => (patches_tile ⟨4, [⟨⟨0, 1⟩, .fixedByte 7⟩, ⟨⟨1, 3⟩, .memory [1, 2, 3]⟩]⟩ (by simp [FSTBuilderNode.Tiled, Covers, Tiles])
    patches).1

end Karphin.DiscIO.Riivolution
