import Karphin.Lib.Packet
import Karphin.DiscIO.Sector.Lemmas.Cache
import Karphin.Lib.Tiling

/-!
# Purge

`PurgeCompressor` leaves out the zeros of its data, and `PurgeDecompressor` puts them back. A decompressor can be called
with any part of its input and any room for its output.
-/

namespace Karphin.DiscIO

open Karphin.Lib

def digestLen : Nat := 20

abbrev Digest := { digest : List UInt8 // digest.length = digestLen }

/-- `sizeof(PurgeSegment)`: an offset and a size. -/
def segmentSize : Nat := 8

variable (sha1 : List UInt8 → Digest)

/-! ## Compressing -/

/-- The first `m_bytes_written` bytes of the buffer, the size of the buffer, and the bytes that were hashed. -/
structure PurgeCompressor where
  written : List UInt8 := []
  bufferSize : Nat := 0
  hashed : List UInt8 := []

namespace PurgeCompressor

def start : PurgeCompressor := {}

def addPrecedingDataOnlyForPurgeHashing (c : PurgeCompressor) (data : List UInt8) : PurgeCompressor :=
  { c with hashed := c.hashed ++ data }

def write (c : PurgeCompressor) (bytes : List UInt8) : Option PurgeCompressor :=
  if c.written.length + bytes.length ≤ c.bufferSize then some { c with written := c.written ++ bytes } else none

def firstNonZero (data : List UInt8) (bytesRead : Nat) : Nat :=
  bytesRead + (data.drop bytesRead).findIdx (· ≠ 0)

/-- The loop that looks for the end of the data to be written, from the `i`th byte on. -/
def nonZeroDataEnd : (rest : List UInt8) → (i end_ sequenceLength : Nat) → Nat
  | [], _, end_, _ => end_
  | x :: rest, i, end_, sequenceLength =>
      let (end_, sequenceLength) := if x = 0 then (end_, sequenceLength + 1) else (i + 1, 0)
      -- to avoid wasting space, only count runs of zeroes that are of a certain length
      if sequenceLength > segmentSize then end_ else nonZeroDataEnd rest (i + 1) end_ sequenceLength

/-- The loop of `Compress`, for `fuel` rounds at most. -/
def compressLoop (data : List UInt8) : (fuel bytesRead : Nat) → PurgeCompressor → Option PurgeCompressor
  | 0, _, _ => none
  | fuel + 1, bytesRead, c =>
      let start := firstNonZero data bytesRead % u32Max
      if start = data.length then some c
      else
        let end_ := nonZeroDataEnd (data.drop start) start start 0
        let length := (end_ - start) % u32Max
        match c.write (beBytes 4 start ++ beBytes 4 length) with
        | none => none
        | some c =>
            match c.write ((data.drop start).take length) with
            | none => none
            | some c => compressLoop data fuel end_ c

/-- `Compress`. What an assertion says is not enforced. -/
def compress (c : PurgeCompressor) (data : List UInt8) : Option PurgeCompressor :=
  compressLoop data (data.length + 1) 0 { c with bufferSize := data.length + segmentSize + digestLen }

def end_ (c : PurgeCompressor) : Option PurgeCompressor :=
  let c := { c with hashed := c.hashed ++ c.written }
  c.write (sha1 c.hashed)

end PurgeCompressor

/-- `Start`, the data that is only hashed, `Compress` for each part, and `End`. -/
def purge (preceding : List UInt8) (parts : List (List UInt8)) : Option (List UInt8) :=
  match parts.foldlM PurgeCompressor.compress
    (PurgeCompressor.start.addPrecedingDataOnlyForPurgeHashing preceding) with
  | none => none
  | some c => (c.end_ sha1).map (·.written)

/-! ## Decompressing -/

/-- `segment` has the first `m_segment_bytes_written` bytes of the header that is being read. -/
structure PurgeDecompressor where
  segment : List UInt8 := []
  outBytesWritten : Nat := 0
  started : Bool := false
  done : Bool := false
  hashed : List UInt8 := []

namespace PurgeDecompressor

/-- The decompressor and the arguments of a call: how much of the input was read, and what was written to the output. -/
structure Call where
  d : PurgeDecompressor
  inBytesRead : Nat
  out : List UInt8 := []

section Decompress

variable (decompressedSize : Nat) (inData : List UInt8) (inBytesWritten space : Nat)

def writeZeroes (c : Call) (count : Nat) : Call :=
  { c with out := c.out ++ List.replicate count 0
           d := { c.d with outBytesWritten := c.d.outBytesWritten + count } }

def input (c : Call) (count : Nat) : List UInt8 := (inData.drop c.inBytesRead).take count

/-- What follows the last segment: zeros, and the hash when the input has it. -/
def decompressEnd (c : Call) : Bool × Call :=
  let c := writeZeroes c
    (min ((decompressedSize + u64Max - c.d.outBytesWritten) % u64Max) (space - c.out.length))
  if c.d.outBytesWritten = decompressedSize ∧ inBytesWritten = inData.length then
    ((sha1 c.d.hashed).val == input inData c digestLen,
      { c with inBytesRead := c.inBytesRead + digestLen, d := { c.d with done := true } })
  else (true, c)

def readSegment (c : Call) : Call :=
  if c.d.segment.length < segmentSize then
    let bytesToCopy := min (inBytesWritten - c.inBytesRead) (segmentSize - c.d.segment.length)
    let bytes := input inData c bytesToCopy
    { c with inBytesRead := c.inBytesRead + bytesToCopy
             d := { c.d with segment := c.d.segment ++ bytes, hashed := c.d.hashed ++ bytes } }
  else c

def segmentOffset (d : PurgeDecompressor) : Nat := ofBeBytes (d.segment.take 4)

def segmentDataSize (d : PurgeDecompressor) : Nat := ofBeBytes (d.segment.drop 4)

def writeGap (c : Call) (offset : Nat) : Call :=
  if c.d.outBytesWritten < offset then
    writeZeroes c (min (offset - c.d.outBytesWritten) (space - c.out.length))
  else c

def writeSegment (c : Call) (offset size : Nat) : Call :=
  if c.d.outBytesWritten ≥ offset ∧ c.d.outBytesWritten < offset + size then
    let bytesToCopy :=
      min (min (offset + size - c.d.outBytesWritten) (space - c.out.length)) (inBytesWritten - c.inBytesRead)
    let bytes := input inData c bytesToCopy
    { inBytesRead := c.inBytesRead + bytesToCopy
      out := c.out ++ bytes
      d := { c.d with outBytesWritten := c.d.outBytesWritten + bytesToCopy, hashed := c.d.hashed ++ bytes } }
  else c

def endSegment (c : Call) (offset size : Nat) : Call :=
  if c.d.outBytesWritten ≥ offset + size then { c with d := { c.d with segment := [] } } else c

def copySegment (c : Call) : Call :=
  let offset := segmentOffset c.d
  let size := segmentDataSize c.d
  endSegment (writeSegment inData inBytesWritten space (writeGap space c offset) offset size) offset size

/-- The loop of `Decompress`, for `fuel` rounds at most. -/
def decompressLoop : (fuel : Nat) → Call → Option (Bool × Call)
  | 0, _ => none
  | fuel + 1, c =>
      if c.d.done ∨ inBytesWritten = c.inBytesRead ∨ (¬ c.d.segment.length < segmentSize ∧ space = c.out.length) then
        some (true, c)
      else if c.d.segment.length = 0 ∧ c.inBytesRead + digestLen = inData.length then
        some (decompressEnd sha1 decompressedSize inData inBytesWritten space c)
      else
        let c := readSegment inData inBytesWritten c
        if c.d.segment.length < segmentSize then some (true, c)
        else decompressLoop fuel (copySegment inData inBytesWritten space c)

/-- `Decompress`, with `inBytesWritten` bytes of the input and room for `space` bytes. -/
def decompress (d : PurgeDecompressor) (inBytesRead : Nat) : Option (Bool × Call) :=
  let d := if d.started then d else { d with hashed := inData.take inBytesRead, started := true }
  decompressLoop sha1 decompressedSize inData inBytesWritten space
    (2 * (inBytesWritten - inBytesRead) + 2 * space + 2) { d, inBytesRead }

end Decompress

/-! ## Runs -/

/-- A decompressor between two calls, how much of its input has arrived and was read, and what each call has written. -/
structure Run where
  d : PurgeDecompressor := {}
  inBytesWritten : Nat
  inBytesRead : Nat
  outs : List (List UInt8) := []

/-- A call after `added` more bytes of the input have arrived, with room for `space` bytes. -/
def Run.call (decompressedSize : Nat) (inData : List UInt8) (r : Run) (added space : Nat) : Option Run :=
  let inBytesWritten := min (r.inBytesWritten + added) inData.length
  match decompress sha1 decompressedSize inData inBytesWritten space r.d r.inBytesRead with
  | some (true, c) => some ⟨c.d, inBytesWritten, c.inBytesRead, r.outs ++ [c.out]⟩
  | _ => none

def decompressAll (decompressedSize : Nat) (preceding compressed : List UInt8) (calls : List (Nat × Nat)) : Option Run :=
  calls.foldlM (fun r (added, space) => r.call sha1 decompressedSize (preceding ++ compressed) added space)
    { inBytesWritten := preceding.length, inBytesRead := preceding.length }

end PurgeDecompressor

end Karphin.DiscIO

/-!
# What is compressed

The compressed data are segments, between which there are zeros, and a hash.
-/

namespace Karphin.DiscIO

open Karphin.Lib

def encode (segments : List (Segment UInt8)) : List UInt8 :=
  segments.flatMap fun s => beBytes 4 s.offset ++ beBytes 4 s.data.length ++ s.data

@[simp]
theorem encode_nil : encode [] = [] := rfl

theorem encode_cons (s : Segment UInt8) (segments : List (Segment UInt8)) :
    encode (s :: segments) = beBytes 4 s.offset ++ beBytes 4 s.data.length ++ (s.data ++ encode segments) := by
  simp [encode]

namespace PurgeCompressor

variable {data : List UInt8}

/-! ## Zeros -/

/-- There are only zeros from one position to another, or to the end. -/
abbrev Zeros (data : List UInt8) (start stop : Nat) : Prop := ∀ j, start ≤ j → j < stop → data.getD j 0 = 0

theorem firstNonZero_spec {p : Nat} (h : p ≤ data.length) :
    p ≤ firstNonZero data p ∧ firstNonZero data p ≤ data.length ∧ Zeros data p (firstNonZero data p) ∧
      (firstNonZero data p < data.length → data.getD (firstNonZero data p) 0 ≠ 0) := by
  have hle : (data.drop p).findIdx (· ≠ 0) ≤ (data.drop p).length := List.findIdx_le_length
  rw [List.length_drop] at hle
  rw [firstNonZero]
  refine ⟨Nat.le_add_right _ _, by omega, fun j hj hjlt => ?_, fun hlt => ?_⟩
  · have hidx : j - p < (data.drop p).findIdx (· ≠ 0) := by omega
    have hzero := List.not_of_lt_findIdx hidx
    rw [List.getElem_drop] at hzero
    rw [List.getD_eq_getElem?_getD, List.getElem?_eq_getElem (by omega), Option.getD_some]
    simpa [Nat.add_sub_cancel' hj] using hzero
  · have hwithin : (data.drop p).findIdx (· ≠ 0) < (data.drop p).length := by
      rw [List.length_drop]
      omega
    have hnonzero := @List.findIdx_getElem _ (· ≠ 0) (data.drop p) hwithin
    rw [List.getElem_drop] at hnonzero
    rw [List.getD_eq_getElem?_getD, List.getElem?_eq_getElem hlt, Option.getD_some]
    simpa using hnonzero

theorem Zeros.drop_eq {p b : Nat} (h : Zeros data p b) (hpb : p ≤ b) (hb : b ≤ data.length) :
    data.drop p = List.replicate (b - p) 0 ++ data.drop b := by
  apply List.ext_getElem
  · simp only [List.length_drop, List.length_append, List.length_replicate]
    omega
  · intro i h1 h2
    rw [List.length_drop] at h1
    by_cases hi : i < b - p
    · have hzero := h (p + i) (by omega) (by omega)
      rw [List.getD_eq_getElem?_getD, List.getElem?_eq_getElem (by omega), Option.getD_some] at hzero
      rw [List.getElem_append_left (by simpa using hi), List.getElem_drop, List.getElem_replicate, hzero]
    · rw [List.getElem_append_right (by simp only [List.length_replicate]; omega), List.getElem_drop,
        List.getElem_drop]
      congr 1
      simp only [List.length_replicate]
      omega

theorem nonZeroDataEnd_spec : ∀ {rest : List UInt8} {i stop sequenceLength : Nat}, rest = data.drop i →
    stop + sequenceLength = i → sequenceLength ≤ segmentSize → Zeros data stop i → stop ≤ data.length →
    stop ≤ nonZeroDataEnd rest i stop sequenceLength ∧ nonZeroDataEnd rest i stop sequenceLength ≤ data.length ∧
      Zeros data (nonZeroDataEnd rest i stop sequenceLength) (nonZeroDataEnd rest i stop sequenceLength + segmentSize + 1)
  | [], i, stop, sequenceLength, hrest, hi, hlen, hzeros, hstop => by
      have hend : data.length ≤ i := List.drop_eq_nil_iff.mp hrest.symm
      refine ⟨le_refl _, hstop, fun j hj _ => ?_⟩
      by_cases hji : j < i
      · exact hzeros j hj hji
      · rw [List.getD_eq_getElem?_getD, List.getElem?_eq_none (by omega)]
        rfl
  | x :: rest, i, stop, sequenceLength, hrest, hi, hlen, hzeros, hstop => by
      have hlt : i < data.length := by
        have := congrArg List.length hrest
        rw [List.length_cons, List.length_drop] at this
        omega
      rw [List.drop_eq_getElem_cons hlt, List.cons.injEq] at hrest
      obtain ⟨rfl, hrest⟩ := hrest
      have hget : data.getD i 0 = data[i] := by
        rw [List.getD_eq_getElem?_getD, List.getElem?_eq_getElem hlt, Option.getD_some]
      rw [nonZeroDataEnd]
      by_cases hx : data[i] = 0
      · have hzeros' : Zeros data stop (i + 1) := by
          intro j hj hjlt
          by_cases hji : j < i
          · exact hzeros j hj hji
          · rw [show j = i by omega, hget, hx]
        rw [if_pos hx]
        by_cases hlong : sequenceLength + 1 > segmentSize
        · simp only [if_pos hlong]
          refine ⟨le_refl _, hstop, fun j hj hjlt => hzeros' j hj (by omega)⟩
        · simp only [if_neg hlong]
          exact nonZeroDataEnd_spec hrest (by omega) (by omega) hzeros' hstop
      · have hnext := @nonZeroDataEnd_spec rest (i + 1) (i + 1) 0 hrest (by omega) (Nat.zero_le _)
          (fun j hj hjlt => by omega) hlt
        rw [if_neg hx]
        simp only [if_neg (show ¬ 0 > segmentSize by decide)]
        exact ⟨by omega, hnext.2⟩

/-! ## The loop -/

theorem write_ok {c : PurgeCompressor} {bytes : List UInt8} (h : c.written.length + bytes.length ≤ c.bufferSize) :
    c.write bytes = some { c with written := c.written ++ bytes } := by
  rw [write, if_pos h]

theorem compressLoop_ok (hlt : data.length < u32Max) : ∀ {fuel bytesRead : Nat} {c : PurgeCompressor},
    bytesRead ≤ data.length → data.length < fuel + bytesRead → c.bufferSize = data.length + segmentSize + digestLen →
    (c.written = [] ∨
      c.written.length ≤ bytesRead + segmentSize ∧ Zeros data bytesRead (bytesRead + segmentSize + 1)) →
    ∃ segments, compressLoop data fuel bytesRead c = some { c with written := c.written ++ encode segments } ∧
      Laid data.length bytesRead segments ∧ expand 0 data.length bytesRead segments = data.drop bytesRead ∧
      (c.written ++ encode segments).length ≤ data.length + segmentSize
  | 0, bytesRead, c, hread, hfuel, _, _ => by omega
  | fuel + 1, bytesRead, c, hread, hfuel, hsize, hwritten => by
      obtain ⟨hle, hstop, hzeros, hnonzero⟩ := firstNonZero_spec hread
      rw [compressLoop]
      have hmod : firstNonZero data bytesRead % u32Max = firstNonZero data bytesRead := Nat.mod_eq_of_lt (by omega)
      simp only [hmod]
      generalize firstNonZero data bytesRead = start at hle hstop hzeros hnonzero
      by_cases hend : start = data.length
      · refine ⟨[], ?_, hread, ?_, ?_⟩
        · rw [if_pos hend, encode_nil, List.append_nil]
        · rw [expand, hzeros.drop_eq hle hstop, hend, List.drop_length, List.append_nil]
        · rw [encode_nil, List.append_nil]
          cases hwritten with
          | inl h => rw [h]; exact Nat.zero_le _
          | inr h => omega
      · have hstart : start < data.length := by omega
        have hroom : c.written.length ≤ start := by
          cases hwritten with
          | inl h => rw [h]; exact Nat.zero_le _
          | inr h =>
              by_contra hnear
              exact hnonzero hstart (h.2 start hle (by omega))
        -- the first byte is no zero, so the end is behind it
        have hfirst : data.drop start = data[start] :: data.drop (start + 1) := List.drop_eq_getElem_cons hstart
        have hget : data[start] ≠ 0 := by
          have := hnonzero hstart
          rwa [List.getD_eq_getElem?_getD, List.getElem?_eq_getElem hstart, Option.getD_some] at this
        have hendeq : nonZeroDataEnd (data.drop start) start start 0 =
            nonZeroDataEnd (data.drop (start + 1)) (start + 1) (start + 1) 0 := by
          rw [hfirst, nonZeroDataEnd, if_neg hget]
          rfl
        obtain ⟨hafter, hendle, hgap⟩ := @nonZeroDataEnd_spec data _ (start + 1) (start + 1) 0 rfl (Nat.add_zero _)
          (Nat.zero_le _) (fun j hj hjlt => by omega) hstart
        rw [← hendeq] at hafter hendle hgap
        rw [if_neg hend]
        generalize nonZeroDataEnd (data.drop start) start start 0 = stop at hafter hendle hgap
        have hlenmod : (stop - start) % u32Max = stop - start := Nat.mod_eq_of_lt (by omega)
        have hslice : ((data.drop start).take (stop - start)).length = stop - start := by
          rw [List.length_take, List.length_drop]
          omega
        have hheader : (beBytes 4 start ++ beBytes 4 (stop - start)).length = segmentSize := by simp [segmentSize]
        simp only [segmentSize, digestLen] at hsize hwritten hgap hheader ⊢
        rw [hlenmod, write_ok (by rw [hheader]; omega)]
        simp only
        rw [write_ok (by simp only [List.length_append, hslice, beBytes_length]; omega)]
        simp only
        obtain ⟨segments, hloop, hlaid, hexpand, hfits⟩ := @compressLoop_ok hlt fuel stop
          { c with written := c.written ++ (beBytes 4 start ++ beBytes 4 (stop - start)) ++
                      (data.drop start).take (stop - start) }
          hendle (by omega) hsize (.inr ⟨by
            simp only [List.length_append, hslice, beBytes_length, segmentSize]
            omega, hgap⟩)
        let s : Segment UInt8 := ⟨start, (data.drop start).take (stop - start)⟩
        have hbytes : c.written ++ (beBytes 4 start ++ beBytes 4 (stop - start)) ++
            (data.drop start).take (stop - start) ++ encode segments = c.written ++ encode (s :: segments) := by
          rw [encode_cons]
          simp only [s, hslice, List.append_assoc]
        have hslicestop : s.offset + s.data.length = stop := by
          simp only [s, hslice]
          omega
        refine ⟨s :: segments, ?_, ⟨hle, ?_, ?_⟩, ?_, ?_⟩
        · rw [hloop]
          simp only [hbytes]
        · intro hnil
          have hzero : stop - start = 0 := by
            rw [← hslice]
            exact congrArg List.length hnil
          omega
        · rw [hslicestop]
          exact hlaid
        · rw [expand, hslicestop, hexpand, hzeros.drop_eq hle hstop, List.append_assoc]
          congr 1
          have hdrop : data.drop stop = (data.drop start).drop (stop - start) := by
            rw [List.drop_drop, Nat.add_sub_cancel' (by omega)]
          simp only [s, hdrop, List.take_append_drop]
        · rw [← hbytes]
          simpa only [segmentSize] using hfits

end PurgeCompressor

open PurgeCompressor

theorem purge_ok {sha1 : List UInt8 → Digest} (preceding : List UInt8) {data : List UInt8} (hlt : data.length < u32Max) :
    ∃ segments, purge sha1 preceding [data] = some (encode segments ++ sha1 (preceding ++ encode segments)) ∧
      Laid data.length 0 segments ∧ expand 0 data.length 0 segments = data := by
  obtain ⟨segments, hloop, hlaid, hexpand, hfits⟩ := @compressLoop_ok data hlt (data.length + 1) 0
    { start.addPrecedingDataOnlyForPurgeHashing preceding with bufferSize := data.length + segmentSize + digestLen }
    (Nat.zero_le _) (by omega) rfl (.inl rfl)
  have hwritten : (start.addPrecedingDataOnlyForPurgeHashing preceding).written ++ encode segments = encode segments := rfl
  have hhashed : (start.addPrecedingDataOnlyForPurgeHashing preceding).hashed = preceding := rfl
  refine ⟨segments, ?_, hlaid, by rwa [List.drop_zero] at hexpand⟩
  rw [purge, List.foldlM_cons, PurgeCompressor.compress, hloop]
  simp only [hwritten] at hfits ⊢
  simp only [List.foldlM_nil, Option.bind_eq_bind, Option.bind_some, Option.pure_def, end_, hhashed]
  rw [write_ok (by have := (sha1 (preceding ++ encode segments)).2; simp only; omega)]
  rfl

end Karphin.DiscIO
