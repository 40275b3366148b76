import Karphin.DiscIO.Purge.Lemmas.Compress

/-!
# What is decompressed

Wherever a call is interrupted, what is still to be written is given by the header that was read so far and by the input
that remains.
-/

namespace Karphin.DiscIO

open Karphin.Lib

namespace PurgeDecompressor

/-- The input that is still to be read, and what is left to be written. -/
inductive Coming (size : Nat) (digest : List UInt8) (d : PurgeDecompressor) (input left : List UInt8) : Prop
  /-- between two segments, or in the header of the next one -/
  | header (segments : List (Segment UInt8)) (hdone : d.done = false) (hlen : d.segment.length < segmentSize)
      (hnil : segments = [] → d.segment = []) (hlaid : Laid size d.outBytesWritten segments)
      (hinput : d.segment ++ input = encode segments ++ digest) (hleft : left = expand 0 size d.outBytesWritten segments)
  /-- in the gap before a segment or in its data, of which `s` is what remains -/
  | body (s : Segment UInt8) (segments : List (Segment UInt8)) (offset : Nat) (hdone : d.done = false)
      (hoffset : s.offset = max offset d.outBytesWritten)
      (hsegment : d.segment = beBytes 4 offset ++ beBytes 4 (s.offset + s.data.length - offset))
      (hlaid : Laid size d.outBytesWritten (s :: segments)) (hinput : input = s.data ++ (encode segments ++ digest))
      (hleft : left = expand 0 size d.outBytesWritten (s :: segments))
  | done (hdone : d.done = true) (hout : d.outBytesWritten = size) (hinput : input = []) (hleft : left = [])

theorem Coming.left_length {size : Nat} {digest input left : List UInt8} {d : PurgeDecompressor}
    (h : Coming size digest d input left) : left.length = size - d.outBytesWritten ∧ d.outBytesWritten ≤ size := by
  cases h with
  | header segments _ _ _ hlaid _ hleft =>
      rw [hleft]
      exact ⟨expand_length hlaid, hlaid.le⟩
  | body s segments _ _ _ _ hlaid _ hleft =>
      rw [hleft]
      exact ⟨expand_length hlaid, hlaid.le⟩
  | done _ hout _ hleft =>
      rw [hleft, hout, Nat.sub_self]
      exact ⟨rfl, le_refl _⟩

/-- In a call. `target` is what was left to be written when it began. -/
structure Good (size inBytesWritten space : Nat) (hashedData digest target : List UInt8) (c : Call) : Prop where
  read_le : c.inBytesRead ≤ inBytesWritten
  room : c.out.length ≤ space
  hashed : c.d.done = false → c.d.hashed = (hashedData ++ digest).take c.inBytesRead
  coming : ∃ left, target = c.out ++ left ∧
    Coming size digest c.d ((hashedData ++ digest).drop c.inBytesRead) left

section Steps

variable {size inBytesWritten space : Nat} {hashedData digest target : List UInt8} {c : Call}

theorem input_append (inData : List UInt8) (c : Call) (n : Nat) :
    input inData c n ++ inData.drop (c.inBytesRead + n) = inData.drop c.inBytesRead := by
  rw [input, ← List.drop_drop, List.take_append_drop]

theorem take_input (inData : List UInt8) (c : Call) (n : Nat) :
    inData.take c.inBytesRead ++ input inData c n = inData.take (c.inBytesRead + n) := by
  rw [input, List.take_add]

theorem input_length {inData : List UInt8} {c : Call} {n : Nat} (h : c.inBytesRead + n ≤ inData.length) :
    (input inData c n).length = n := by
  rw [input, List.length_take, List.length_drop]
  omega

/-! ## The end of the data -/

theorem decompressEnd_spec {sha1 : List UInt8 → Digest} (hdigest : (sha1 hashedData).val = digest)
    (hsize : size < u32Max) (hg : Good size inBytesWritten space hashedData digest target c)
    (hw : inBytesWritten ≤ (hashedData ++ digest).length) (hdone : c.d.done = false) (hsegment : c.d.segment.length = 0)
    (hend : c.inBytesRead + digestLen = (hashedData ++ digest).length) :
    ∃ c', decompressEnd sha1 size (hashedData ++ digest) inBytesWritten space c = (true, c') ∧
      Good size inBytesWritten space hashedData digest target c' ∧
      (inBytesWritten = (hashedData ++ digest).length →
        c'.d.done = true ∨ (c'.out.length = space ∧ c'.d.outBytesWritten < size)) := by
  have hlen : digest.length = digestLen := by
    rw [← hdigest]
    exact (sha1 hashedData).2
  have hread : c.inBytesRead = hashedData.length := by
    rw [List.length_append, hlen] at hend
    omega
  obtain ⟨left, htarget, hcoming⟩ := hg.coming
  have hout := hcoming.left_length
  have hroom := hg.room
  have hnil : c.d.segment = [] := List.eq_nil_of_length_eq_zero hsegment
  have hinput : (hashedData ++ digest).drop c.inBytesRead = digest := by rw [hread, List.drop_left]
  -- nothing but zeros is left
  have hleft : left = expand 0 size c.d.outBytesWritten [] := by
    cases hcoming with
    | header segments _ _ _ _ hin hl =>
        rw [hnil, List.nil_append, hinput] at hin
        cases segments with
        | nil => exact hl
        | cons s segments =>
            have := congrArg List.length hin
            rw [List.length_append, encode_cons] at this
            simp only [List.length_append, beBytes_length] at this
            omega
    | body s segments offset _ _ hs _ _ _ =>
        rw [hnil] at hs
        have := congrArg List.length hs
        simp at this
    | done hd _ _ _ => rw [hdone] at hd; cases hd
  have hmod : (size + u64Max - c.d.outBytesWritten) % u64Max = size - c.d.outBytesWritten := by
    simp only [u32Max, u64Max] at hsize ⊢
    omega
  rw [decompressEnd, hmod]
  generalize hn : min (size - c.d.outBytesWritten) (space - c.out.length) = n
  have htarget' : target = c.out ++ List.replicate n 0 ++ expand 0 size (c.d.outBytesWritten + n) [] := by
    rw [List.append_assoc, ← expand_nil (by omega), ← hleft]
    exact htarget
  have hlaid : Laid size (c.d.outBytesWritten + n) ([] : List (Segment UInt8)) := by
    rw [Laid]
    omega
  simp only
  by_cases hlast : (writeZeroes c n).d.outBytesWritten = size ∧ inBytesWritten = (hashedData ++ digest).length
  · have hhash : c.d.hashed = hashedData := by rw [hg.hashed hdone, hread, List.take_left]
    have hexpected : (hashedData ++ digest).drop hashedData.length = digest := List.drop_left
    rw [if_pos hlast]
    simp only [writeZeroes] at hlast ⊢
    refine ⟨_, Prod.ext_iff.mpr ⟨?_, rfl⟩, ?_, fun _ => .inl rfl⟩
    · simp only [hhash, hdigest, input, hread, hexpected, beq_iff_eq]
      rw [List.take_of_length_le (by omega)]
    · constructor
      · simp only [hend, ← hlast.2, le_refl]
      · simp only [List.length_append, List.length_replicate]
        omega
      · intro hd
        cases hd
      · refine ⟨[], ?_, .done rfl hlast.1 ?_ rfl⟩
        · rw [List.append_nil]
          rw [hlast.1, expand, Nat.sub_self, List.replicate_zero, List.append_nil] at htarget'
          exact htarget'
        · simp only [hend, List.drop_length]
  · rw [if_neg hlast]
    simp only [writeZeroes] at hlast ⊢
    refine ⟨_, rfl, ?_, fun hall => ?_⟩
    · constructor
      · exact hg.read_le
      · simp only [List.length_append, List.length_replicate]
        omega
      · exact hg.hashed
      · refine ⟨_, htarget', .header [] hdone ?_ (fun _ => hnil) hlaid ?_ rfl⟩
        · simp only [hsegment]
          decide
        · simp only [hnil, hinput, List.nil_append, encode_nil]
    · simp only [not_and_or, hall, not_true_eq_false, or_false] at hlast
      simp only [List.length_append, List.length_replicate]
      exact .inr ⟨by omega, by omega⟩

/-! ## The header of a segment -/

theorem header_length (offset length : Nat) : (beBytes 4 offset ++ beBytes 4 length).length = segmentSize := by
  simp [segmentSize]

theorem readSegment_spec (hlen : digest.length = digestLen)
    (hg : Good size inBytesWritten space hashedData digest target c)
    (hw : inBytesWritten ≤ (hashedData ++ digest).length) (hdone : c.d.done = false)
    (hsegment : c.d.segment.length < segmentSize)
    (hmore : ¬ (c.d.segment.length = 0 ∧ c.inBytesRead + digestLen = (hashedData ++ digest).length)) :
    Good size inBytesWritten space hashedData digest target (readSegment (hashedData ++ digest) inBytesWritten c) ∧
      (readSegment (hashedData ++ digest) inBytesWritten c).out = c.out ∧
      (readSegment (hashedData ++ digest) inBytesWritten c).d.done = false ∧
      (c.inBytesRead < inBytesWritten →
        c.inBytesRead < (readSegment (hashedData ++ digest) inBytesWritten c).inBytesRead) ∧
      ((readSegment (hashedData ++ digest) inBytesWritten c).d.segment.length < segmentSize →
        inBytesWritten < (hashedData ++ digest).length) := by
  obtain ⟨left, htarget, hcoming⟩ := hg.coming
  have hread := hg.read_le
  rw [readSegment, if_pos hsegment]
  generalize hn : min (inBytesWritten - c.inBytesRead) (segmentSize - c.d.segment.length) = n
  have hbytes := @input_length (hashedData ++ digest) c n (by omega)
  have hrest := input_append (hashedData ++ digest) c n
  cases hcoming with
  | header segments _ _ hnil hlaid hinput hleft =>
      cases segments with
      | nil =>
          rw [hnil rfl, List.nil_append, encode_nil, List.nil_append] at hinput
          have hlength := congrArg List.length hinput
          rw [List.length_drop] at hlength
          refine absurd ⟨by rw [hnil rfl]; rfl, ?_⟩ hmore
          rw [digestLen] at hlen ⊢
          omega
      | cons s segments =>
          have hsplit : c.d.segment ++ input (hashedData ++ digest) c n ++ (hashedData ++ digest).drop (c.inBytesRead + n) =
              beBytes 4 s.offset ++ beBytes 4 s.data.length ++ (s.data ++ encode segments ++ digest) := by
            rw [List.append_assoc, hrest, hinput, encode_cons, List.append_assoc]
          have hlength := congrArg List.length hsplit
          rw [List.length_append, List.length_append, hbytes,
            @List.length_append _ (beBytes 4 s.offset ++ beBytes 4 s.data.length), header_length, List.length_append,
            List.length_drop, hlen] at hlength
          refine ⟨⟨by simp only; omega, hg.room, fun _ => ?_, left, htarget, ?_⟩, rfl, hdone,
            fun hmoreInput => by simp only; omega, fun hshort => ?_⟩
          · simp only [hg.hashed hdone, take_input]
          · by_cases hfull : (c.d.segment ++ input (hashedData ++ digest) c n).length < segmentSize
            · refine .header (s :: segments) hdone hfull (by simp) hlaid ?_ hleft
              rw [encode_cons, @List.append_assoc _ _ (s.data ++ encode segments)]
              exact hsplit
            · have hall : (c.d.segment ++ input (hashedData ++ digest) c n).length =
                  (beBytes 4 s.offset ++ beBytes 4 s.data.length).length := by
                rw [header_length]
                rw [List.length_append, hbytes] at hfull ⊢
                omega
              obtain ⟨hheader, hdata⟩ := List.append_inj hsplit hall
              refine .body s segments s.offset hdone (Nat.max_eq_left hlaid.1).symm ?_ hlaid ?_ hleft
              · rw [Nat.add_sub_cancel_left]
                exact hheader
              · rw [← List.append_assoc]
                exact hdata
          · simp only [List.length_append, hbytes] at hshort ⊢
            simp only [digestLen, List.length_append] at hlength hlen hw ⊢
            omega
  | body s segments offset _ _ hs _ _ _ =>
      rw [hs, header_length] at hsegment
      exact absurd hsegment (Nat.lt_irrefl _)
  | done hd _ _ _ => rw [hdone] at hd; cases hd

/-! ## The data of a segment -/

structure InSegment (size inBytesWritten space : Nat) (hashedData digest target : List UInt8) (s : Segment UInt8)
    (segments : List (Segment UInt8)) (offset : Nat) (c : Call) : Prop where
  read_le : c.inBytesRead ≤ inBytesWritten
  room : c.out.length ≤ space
  done : c.d.done = false
  hashed : c.d.hashed = (hashedData ++ digest).take c.inBytesRead
  position : s.offset = max offset c.d.outBytesWritten
  segment : c.d.segment = beBytes 4 offset ++ beBytes 4 (s.offset + s.data.length - offset)
  gap : c.d.outBytesWritten < s.offset → s.data ≠ []
  laid : Laid size (s.offset + s.data.length) segments
  input : (hashedData ++ digest).drop c.inBytesRead = s.data ++ (encode segments ++ digest)
  target : target = c.out ++ expand 0 size c.d.outBytesWritten (s :: segments)

variable {s : Segment UInt8} {segments : List (Segment UInt8)} {offset : Nat}

theorem InSegment.segmentOffset_eq (h : InSegment size inBytesWritten space hashedData digest target s segments offset c)
    (hsize : size < u32Max) : segmentOffset c.d = offset := by
  have hle := h.laid.le
  have hoffset := h.position
  have htake : (beBytes 4 offset ++ beBytes 4 (s.offset + s.data.length - offset)).take 4 = beBytes 4 offset :=
    List.take_left' (beBytes_length ..)
  rw [segmentOffset, h.segment, htake, ofBeBytes_beBytes]
  simp only [u32Max] at hsize
  exact Nat.mod_eq_of_lt (by omega)

theorem InSegment.segmentDataSize_eq
    (h : InSegment size inBytesWritten space hashedData digest target s segments offset c) (hsize : size < u32Max) :
    segmentDataSize c.d = s.offset + s.data.length - offset := by
  have hle := h.laid.le
  have hdrop : (beBytes 4 offset ++ beBytes 4 (s.offset + s.data.length - offset)).drop 4 =
      beBytes 4 (s.offset + s.data.length - offset) := List.drop_left' (beBytes_length ..)
  rw [segmentDataSize, h.segment, hdrop, ofBeBytes_beBytes]
  simp only [u32Max] at hsize
  exact Nat.mod_eq_of_lt (by omega)

theorem writeGap_spec (h : InSegment size inBytesWritten space hashedData digest target s segments offset c) :
    InSegment size inBytesWritten space hashedData digest target s segments offset (writeGap space c offset) ∧
      (writeGap space c offset).inBytesRead = c.inBytesRead ∧ c.out.length ≤ (writeGap space c offset).out.length ∧
      (c.out.length < space → c.d.outBytesWritten < s.offset → c.out.length < (writeGap space c offset).out.length) := by
  have hoffset := h.position
  have hroom := h.room
  rw [writeGap]
  by_cases hgap : c.d.outBytesWritten < offset
  · rw [if_pos hgap]
    generalize hn : min (offset - c.d.outBytesWritten) (space - c.out.length) = n
    refine ⟨⟨h.read_le, ?_, h.done, h.hashed, ?_, h.segment, fun _ => h.gap (by omega), h.laid, h.input, ?_⟩, rfl, ?_,
      fun _ _ => ?_⟩
    · simp only [writeZeroes, List.length_append, List.length_replicate]
      omega
    · simp only [writeZeroes]
      omega
    · simp only [writeZeroes]
      rw [List.append_assoc, ← expand_gap (by omega)]
      exact h.target
    · simp only [writeZeroes, List.length_append]
      exact Nat.le_add_right _ _
    · simp only [writeZeroes, List.length_append, List.length_replicate]
      omega
  · rw [if_neg hgap]
    exact ⟨h, rfl, le_refl _, fun _ hlt => by omega⟩

theorem writeSegment_spec (h : InSegment size inBytesWritten space hashedData digest target s segments offset c)
    {length : Nat}
    (hlength : length = s.offset + s.data.length - offset) :
    ∃ s', InSegment size inBytesWritten space hashedData digest target s' segments offset
        (writeSegment (hashedData ++ digest) inBytesWritten space c offset length) ∧
      s'.offset + s'.data.length = s.offset + s.data.length ∧
      c.inBytesRead ≤ (writeSegment (hashedData ++ digest) inBytesWritten space c offset length).inBytesRead ∧
      c.out.length ≤ (writeSegment (hashedData ++ digest) inBytesWritten space c offset length).out.length ∧
      (c.out.length < space → c.inBytesRead < inBytesWritten → c.d.outBytesWritten = s.offset → s.data ≠ [] →
        c.inBytesRead < (writeSegment (hashedData ++ digest) inBytesWritten space c offset length).inBytesRead) := by
  have hoffset := h.position
  have hroom := h.room
  have hread := h.read_le
  rw [writeSegment]
  by_cases hwithin : c.d.outBytesWritten ≥ offset ∧ c.d.outBytesWritten < offset + length
  · rw [if_pos hwithin]
    have hpos : c.d.outBytesWritten = s.offset := by omega
    generalize hn : min (min (offset + length - c.d.outBytesWritten) (space - c.out.length))
      (inBytesWritten - c.inBytesRead) = n
    have hnle : n ≤ s.data.length := by omega
    have hbytes : input (hashedData ++ digest) c n = s.data.take n := by
      rw [input, h.input, List.take_append_of_le_length hnle]
    have hrest : (hashedData ++ digest).drop (c.inBytesRead + n) = s.data.drop n ++ (encode segments ++ digest) := by
      rw [← List.drop_drop, h.input, List.drop_append_of_le_length hnle]
    have hend : s.offset + n + (s.data.drop n).length = s.offset + s.data.length := by
      rw [List.length_drop]
      omega
    refine ⟨⟨s.offset + n, s.data.drop n⟩, ⟨?_, ?_, h.done, ?_, ?_, ?_, fun hgap => ?_, ?_, hrest, ?_⟩, hend, ?_, ?_,
      fun _ _ _ hne => ?_⟩
    · simp only
      omega
    · simp only [hbytes, List.length_append, List.length_take]
      omega
    · simp only [h.hashed, take_input]
    · simp only
      omega
    · simp only [hend]
      exact h.segment
    · simp only at hgap
      omega
    · simp only [hend]
      exact h.laid
    · simp only [hbytes, hpos]
      rw [List.append_assoc, ← expand_data hnle, ← hpos]
      exact h.target
    · exact Nat.le_add_right _ _
    · simp only [List.length_append]
      exact Nat.le_add_right _ _
    · have hdata := List.length_pos_of_ne_nil hne
      simp only
      omega
  · rw [if_neg hwithin]
    refine ⟨s, h, rfl, le_refl _, le_refl _, fun _ _ hpos hne => ?_⟩
    have hdata := List.length_pos_of_ne_nil hne
    omega

theorem endSegment_spec (h : InSegment size inBytesWritten space hashedData digest target s segments offset c)
    {length : Nat} (hlength : length = s.offset + s.data.length - offset) :
    Good size inBytesWritten space hashedData digest target (endSegment c offset length) ∧
      (endSegment c offset length).d.done = false ∧ (endSegment c offset length).inBytesRead = c.inBytesRead ∧
      (endSegment c offset length).out = c.out := by
  have hoffset := h.position
  rw [endSegment]
  by_cases hend : c.d.outBytesWritten ≥ offset + length
  · have hdata : s.data = [] := List.eq_nil_of_length_eq_zero (by omega)
    have hpos : s.offset = c.d.outBytesWritten := by omega
    have hs : s = ⟨c.d.outBytesWritten, []⟩ := by
      rw [← hpos, ← hdata]
    have hlaid := h.laid
    have hinput := h.input
    have htarget := h.target
    rw [hs] at hlaid hinput htarget
    rw [if_pos hend]
    refine ⟨⟨h.read_le, h.room, fun _ => h.hashed, _, htarget, ?_⟩, h.done, rfl, rfl⟩
    exact .header segments h.done (Nat.zero_lt_succ 7) (fun _ => rfl) hlaid hinput expand_end
  · rw [if_neg hend]
    refine ⟨⟨h.read_le, h.room, fun _ => h.hashed, _, h.target, ?_⟩, h.done, rfl, rfl⟩
    refine .body s segments offset h.done hoffset h.segment ⟨by omega, fun hnil => ?_, h.laid⟩ h.input rfl
    have hgap : ¬ c.d.outBytesWritten < s.offset := fun hlt => h.gap hlt hnil
    rw [hnil, List.length_nil] at hlength
    omega

/-! ## The loop -/

theorem copySegment_spec (hsize : size < u32Max) (hg : Good size inBytesWritten space hashedData digest target c)
    (hdone : c.d.done = false) (hsegment : ¬ c.d.segment.length < segmentSize) :
    Good size inBytesWritten space hashedData digest target
        (copySegment (hashedData ++ digest) inBytesWritten space c) ∧
      (copySegment (hashedData ++ digest) inBytesWritten space c).d.done = false ∧
      c.inBytesRead ≤ (copySegment (hashedData ++ digest) inBytesWritten space c).inBytesRead ∧
      c.out.length ≤ (copySegment (hashedData ++ digest) inBytesWritten space c).out.length ∧
      (c.out.length < space → c.inBytesRead < inBytesWritten →
        c.inBytesRead < (copySegment (hashedData ++ digest) inBytesWritten space c).inBytesRead ∨
          c.out.length < (copySegment (hashedData ++ digest) inBytesWritten space c).out.length) := by
  obtain ⟨left, htarget, hcoming⟩ := hg.coming
  cases hcoming with
  | header segments _ hlen _ _ _ _ => exact absurd hlen hsegment
  | done hd _ _ _ => rw [hdone] at hd; cases hd
  | body s segments offset _ hoffset hheader hlaid hinput hleft =>
      rw [hleft] at htarget
      have h : InSegment size inBytesWritten space hashedData digest target s segments offset c :=
        ⟨hg.read_le, hg.room, hdone, hg.hashed hdone, hoffset, hheader, fun _ => hlaid.2.1, hlaid.2.2, hinput, htarget⟩
      rw [copySegment, h.segmentOffset_eq hsize, h.segmentDataSize_eq hsize]
      obtain ⟨hgap, hgapRead, hgapOut, hgapMore⟩ := writeGap_spec h
      obtain ⟨s', hcopy, hend, hcopyRead, hcopyOut, hcopyMore⟩ := writeSegment_spec hgap rfl
      obtain ⟨hgood, hdone', hread, hout⟩ := endSegment_spec hcopy (congrArg (· - offset) hend).symm
      refine ⟨hgood, hdone', ?_, ?_, fun hspace harrived => ?_⟩
      · rw [hread, ← hgapRead]
        exact hcopyRead
      · rw [hout]
        exact hgapOut.trans hcopyOut
      · rw [hread, hout]
        by_cases hwaiting : c.d.outBytesWritten < s.offset
        · exact .inr ((hgapMore hspace hwaiting).trans_le hcopyOut)
        · -- there is no gap left
          have hpos : c.d.outBytesWritten = s.offset := by omega
          have hsame : writeGap space c offset = c := by
            rw [writeGap, if_neg (by omega)]
          rw [hsame] at hcopyMore ⊢
          exact .inl (hcopyMore hspace harrived hpos hlaid.2.1)

theorem Coming.input_ne_nil {d : PurgeDecompressor} {input left : List UInt8} (hlen : digest.length = digestLen)
    (h : Coming size digest d input left) (hdone : d.done = false) : input ≠ [] := by
  intro hnil
  cases h with
  | header segments _ hseg _ _ hinput _ =>
      have := congrArg List.length hinput
      rw [hnil, List.append_nil, List.length_append, hlen] at this
      simp only [digestLen, segmentSize] at this hseg
      omega
  | body s segments offset _ _ _ _ hinput _ =>
      have := congrArg List.length hinput
      rw [hnil, List.length_append, List.length_append, hlen] at this
      simp only [digestLen, List.length_nil] at this
      omega
  | done hd _ _ _ => rw [hdone] at hd; cases hd

theorem decompressLoop_spec {sha1 : List UInt8 → Digest} (hdigest : (sha1 hashedData).val = digest)
    (hsize : size < u32Max) (hw : inBytesWritten ≤ (hashedData ++ digest).length) : ∀ {fuel : Nat} {c : Call},
    Good size inBytesWritten space hashedData digest target c →
    inBytesWritten - c.inBytesRead + (space - c.out.length) < fuel →
    ∃ c', decompressLoop sha1 size (hashedData ++ digest) inBytesWritten space fuel c = some (true, c') ∧
      Good size inBytesWritten space hashedData digest target c' ∧
      (inBytesWritten = (hashedData ++ digest).length →
        c'.d.done = true ∨ (c'.out.length = space ∧ c'.d.outBytesWritten < size))
  | 0, c, _, hfuel => absurd hfuel (Nat.not_lt_zero _)
  | fuel + 1, c, hg, hfuel => by
      have hlen : digest.length = digestLen := by
        rw [← hdigest]
        exact (sha1 hashedData).2
      obtain ⟨left, htarget, hcoming⟩ := hg.coming
      have hread := hg.read_le
      have hroom := hg.room
      rw [decompressLoop]
      by_cases hstop : c.d.done ∨ inBytesWritten = c.inBytesRead ∨
          (¬ c.d.segment.length < segmentSize ∧ space = c.out.length)
      · rw [if_pos hstop]
        refine ⟨c, rfl, hg, fun hall => ?_⟩
        cases hd : c.d.done with
        | true => exact .inl rfl
        | false =>
            have hmore := hcoming.input_ne_nil hlen hd
            rw [hd] at hstop
            simp only [Bool.false_eq_true, false_or] at hstop
            cases hstop with
            | inl hempty =>
                rw [← hempty, hall, List.drop_length] at hmore
                exact absurd rfl hmore
            | inr hfull =>
                cases hcoming with
                | header segments _ hseg _ _ _ _ => exact absurd hseg hfull.1
                | done hd' _ _ _ => rw [hd] at hd'; cases hd'
                | body s segments offset _ _ _ hlaid _ _ =>
                    have hdata := List.length_pos_of_ne_nil hlaid.2.1
                    have hstart := hlaid.1
                    have hle := hlaid.2.2.le
                    exact .inr ⟨hfull.2.symm, by omega⟩
      · rw [if_neg hstop]
        simp only [not_or, not_and, Bool.not_eq_true] at hstop
        obtain ⟨hdone, harrived, hspace⟩ := hstop
        by_cases hend : c.d.segment.length = 0 ∧ c.inBytesRead + digestLen = (hashedData ++ digest).length
        · rw [if_pos hend]
          obtain ⟨c', hc', hgood, hlast⟩ := decompressEnd_spec hdigest hsize hg hw hdone hend.1 hend.2
          exact ⟨c', congrArg some hc', hgood, hlast⟩
        · rw [if_neg hend]
          by_cases hsegment : c.d.segment.length < segmentSize
          · obtain ⟨hgood, hout, hdone', hmore, hshort⟩ := readSegment_spec hlen hg hw hdone hsegment hend
            have hprogress := hmore (by omega)
            generalize readSegment (hashedData ++ digest) inBytesWritten c = c1 at hgood hout hdone' hshort hprogress
            by_cases hpart : c1.d.segment.length < segmentSize
            · simp only [if_pos hpart]
              exact ⟨c1, rfl, hgood, fun hall => by have := hshort hpart; omega⟩
            · simp only [if_neg hpart]
              have hread1 := hgood.read_le
              obtain ⟨hcopy, -, hcopyRead, hcopyOut, -⟩ := copySegment_spec hsize hgood hdone' hpart
              exact decompressLoop_spec hdigest hsize hw hcopy (by rw [hout] at hcopyOut; omega)
          · have hsame : readSegment (hashedData ++ digest) inBytesWritten c = c := by
              rw [readSegment, if_neg hsegment]
            have hfree := hspace hsegment
            obtain ⟨hcopy, -, hcopyRead, hcopyOut, hcopyMore⟩ := copySegment_spec hsize hg hdone hsegment
            have hprogress := hcopyMore (by omega) (by omega)
            have hread1 := hcopy.read_le
            have hroom1 := hcopy.room
            simp only [hsame, if_neg hsegment]
            exact decompressLoop_spec hdigest hsize hw hcopy (by omega)

end Steps

end PurgeDecompressor

end Karphin.DiscIO

/-!
# The round trip
-/

namespace Karphin.DiscIO

open Karphin.Lib

namespace PurgeDecompressor

variable {sha1 : List UInt8 → Digest} {hashedData digest data : List UInt8}

structure Between (hashedData digest data : List UInt8) (r : Run) : Prop where
  read_le : r.inBytesRead ≤ r.inBytesWritten
  written_le : r.inBytesWritten ≤ (hashedData ++ digest).length
  hashed : r.d.started = true → r.d.done = false → r.d.hashed = (hashedData ++ digest).take r.inBytesRead
  coming : ∃ left, data = r.outs.flatten ++ left ∧
    Coming data.length digest r.d ((hashedData ++ digest).drop r.inBytesRead) left

theorem Coming.start {d : PurgeDecompressor} {input left hashed : List UInt8} {size : Nat} (started : Bool)
    (h : Coming size digest d input left) : Coming size digest { d with hashed, started } input left := by
  cases h with
  | header segments hdone hlen hnil hlaid hinput hleft => exact .header segments hdone hlen hnil hlaid hinput hleft
  | body s segments offset hdone hoffset hsegment hlaid hinput hleft =>
      exact .body s segments offset hdone hoffset hsegment hlaid hinput hleft
  | done hdone hout hinput hleft => exact .done hdone hout hinput hleft

theorem decompress_spec (hdigest : (sha1 hashedData).val = digest) {left : List UInt8}
    {size inBytesWritten inBytesRead : Nat} (hsize : size < u32Max) {d : PurgeDecompressor}
    (hread : inBytesRead ≤ inBytesWritten) (hw : inBytesWritten ≤ (hashedData ++ digest).length)
    (hhashed : d.started = true → d.done = false → d.hashed = (hashedData ++ digest).take inBytesRead)
    (hcoming : Coming size digest d ((hashedData ++ digest).drop inBytesRead) left) (space : Nat) :
    ∃ c, decompress sha1 size (hashedData ++ digest) inBytesWritten space d inBytesRead = some (true, c) ∧
      Good size inBytesWritten space hashedData digest left c ∧
      (inBytesWritten = (hashedData ++ digest).length →
        c.d.done = true ∨ (c.out.length = space ∧ c.d.outBytesWritten < size)) := by
  rw [decompress]
  apply decompressLoop_spec hdigest hsize hw
  · cases hstarted : d.started with
    | true => exact ⟨hread, Nat.zero_le _, hhashed hstarted, left, rfl, hcoming⟩
    | false => exact ⟨hread, Nat.zero_le _, fun _ => rfl, left, rfl, hcoming.start true⟩
  · simp only [List.length_nil]
    omega

theorem call_spec (hdigest : (sha1 hashedData).val = digest) (hsize : data.length < u32Max) {r : Run}
    (h : Between hashedData digest data r) (added space : Nat) :
    ∃ r' out, r.call sha1 data.length (hashedData ++ digest) added space = some r' ∧ r'.outs = r.outs ++ [out] ∧
      out.length ≤ space ∧ r'.inBytesWritten = min (r.inBytesWritten + added) (hashedData ++ digest).length ∧
      Between hashedData digest data r' ∧ (r'.inBytesWritten = (hashedData ++ digest).length →
        r'.d.done = true ∨ (out.length = space ∧ r'.d.outBytesWritten < data.length)) := by
  obtain ⟨left, hdata, hcoming⟩ := h.coming
  have hread := h.read_le
  have hwritten := h.written_le
  obtain ⟨c, hc, hgood, hlast⟩ := @decompress_spec sha1 hashedData digest hdigest left data.length
    (min (r.inBytesWritten + added) (hashedData ++ digest).length) r.inBytesRead hsize r.d (by omega)
    (Nat.min_le_right _ _) h.hashed hcoming space
  rw [Run.call]
  simp only [hc]
  refine ⟨_, c.out, rfl, rfl, hgood.room, rfl, ?_, hlast⟩
  obtain ⟨left', hleft, hcoming'⟩ := hgood.coming
  refine ⟨hgood.read_le, Nat.min_le_right _ _, fun _ => hgood.hashed, left', ?_, hcoming'⟩
  rw [List.flatten_append, List.append_assoc]
  simp only [List.flatten_cons, List.flatten_nil, List.append_nil]
  rw [← hleft]
  exact hdata

theorem calls_spec (hdigest : (sha1 hashedData).val = digest) (hsize : data.length < u32Max) :
    ∀ (calls : List (Nat × Nat)) {r : Run}, Between hashedData digest data r →
    ∃ r' outs, calls.foldlM (fun r (added, space) => r.call sha1 data.length (hashedData ++ digest) added space) r =
        some r' ∧ r'.outs = r.outs ++ outs ∧ List.Forall₂ (fun out call => out.length ≤ call.2) outs calls ∧
      r.inBytesWritten ≤ r'.inBytesWritten ∧ Between hashedData digest data r'
  | [], r, h => ⟨r, [], rfl, (List.append_nil _).symm, .nil, le_refl _, h⟩
  | (added, space) :: calls, r, h => by
      obtain ⟨r1, out, hcall, hout, hroom, hwritten, h1, -⟩ := call_spec hdigest hsize h added space
      obtain ⟨r', outs, hcalls, houts, hrooms, hmore, h'⟩ := calls_spec hdigest hsize calls h1
      have hle := h.written_le
      refine ⟨r', out :: outs, ?_, ?_, .cons hroom hrooms, by omega, h'⟩
      · rw [List.foldlM_cons]
        simp only [hcall]
        exact hcalls
      · rw [houts, hout, List.append_assoc]
        rfl

theorem Between.done_iff (hdigest : (sha1 hashedData).val = digest) {r : Run} (h : Between hashedData digest data r) :
    r.d.done = true ↔ r.outs.flatten = data ∧ r.inBytesRead = (hashedData ++ digest).length := by
  have hlen : digest.length = digestLen := by
    rw [← hdigest]
    exact (sha1 hashedData).2
  obtain ⟨left, hdata, hcoming⟩ := h.coming
  have hread := h.read_le.trans h.written_le
  constructor
  · intro hdone
    cases hcoming with
    | header _ hd _ _ _ _ _ => rw [hdone] at hd; cases hd
    | body _ _ _ hd _ _ _ _ _ => rw [hdone] at hd; cases hd
    | done _ _ hinput hleft =>
        rw [hleft, List.append_nil] at hdata
        exact ⟨hdata.symm, by have := List.drop_eq_nil_iff.mp hinput; omega⟩
  · rintro ⟨-, hend⟩
    by_contra hdone
    have hmore := hcoming.input_ne_nil hlen (by simpa using hdone)
    rw [hend, List.drop_length] at hmore
    exact hmore rfl

theorem Between.outs_eq {r : Run} (h : Between hashedData digest data r) :
    r.outs.flatten = data.take r.outs.flatten.length ∧ r.d.outBytesWritten = r.outs.flatten.length := by
  obtain ⟨left, hdata, hcoming⟩ := h.coming
  have hleft := hcoming.left_length
  have hlen := congrArg List.length hdata
  rw [List.length_append] at hlen
  constructor
  · conv_rhs => rw [hdata]
    rw [List.take_left]
  · omega

theorem between_start {preceding : List UInt8} {segments : List (Segment UInt8)}
    (hlaid : Laid data.length 0 segments) (hexpand : expand 0 data.length 0 segments = data) :
    Between (preceding ++ encode segments) digest data
      { inBytesWritten := preceding.length, inBytesRead := preceding.length } where
  read_le := le_refl _
  written_le := by
    simp only [List.length_append]
    omega
  hashed h := nomatch h
  coming := by
    refine ⟨data, rfl, .header segments rfl (Nat.zero_lt_succ 7) (fun _ => rfl) hlaid ?_ hexpand.symm⟩
    rw [List.append_assoc, List.drop_left]
    rfl

theorem decompressAll_append (preceding compressed : List UInt8) (size : Nat) (calls : List (Nat × Nat))
    (added space : Nat) : decompressAll sha1 size preceding compressed (calls ++ [(added, space)]) =
      (decompressAll sha1 size preceding compressed calls).bind fun r =>
        r.call sha1 size (preceding ++ compressed) added space := by
  simp only [decompressAll, List.foldlM_append, List.foldlM_cons, List.foldlM_nil, Option.bind_eq_bind,
    Option.pure_def, Option.bind_fun_some]

end PurgeDecompressor

open PurgeDecompressor

/-- The data are given back by every sequence of calls: what was written, which is never more than there was room for,
are the first of them, the decompressor is done when all were written and the hash was read, and only then, and a call
that has all of the input writes as much as there is room for. -/
def RoundTrips (sha1 : List UInt8 → Digest) (preceding data : List UInt8) : Prop :=
  ∃ compressed, purge sha1 preceding [data] = some compressed ∧ ∀ calls : List (Nat × Nat),
    ∃ r, decompressAll sha1 data.length preceding compressed calls = some r ∧
      r.outs.flatten = data.take r.outs.flatten.length ∧
      List.Forall₂ (fun out call => out.length ≤ call.2) r.outs calls ∧
      (r.d.done = true ↔ r.outs.flatten = data ∧ r.inBytesRead = (preceding ++ compressed).length) ∧
      ∀ space, ∃ r', decompressAll sha1 data.length preceding compressed (calls ++ [(compressed.length, space)]) =
          some r' ∧
        r'.outs.flatten = data.take (r.outs.flatten.length + space) ∧
        (r'.d.done = true ↔ data.length ≤ r.outs.flatten.length + space)

/-- Data whose length fits in 32 bits and that are compressed in one call. -/
theorem purge_roundTrips (sha1 : List UInt8 → Digest) (preceding : List UInt8) {data : List UInt8}
    (hdata : data.length < 2 ^ 32) : RoundTrips sha1 preceding data := by
  obtain ⟨segments, hpurge, hlaid, hexpand⟩ := @purge_ok sha1 preceding data hdata
  refine ⟨_, hpurge, fun calls => ?_⟩
  have hstart := @between_start (sha1 (preceding ++ encode segments)).val data preceding segments hlaid hexpand
  obtain ⟨r, outs, hcalls, houts, hrooms, hread, hr⟩ := calls_spec rfl hdata calls hstart
  rw [List.append_assoc] at hcalls
  have hall : decompressAll sha1 data.length preceding
      (encode segments ++ (sha1 (preceding ++ encode segments)).val) calls = some r := hcalls
  have hdone := hr.done_iff rfl
  rw [List.append_assoc] at hdone
  have hrooms' : List.Forall₂ (fun out call => out.length ≤ call.2) r.outs calls := by
    rw [houts]
    exact hrooms
  refine ⟨r, hall, hr.outs_eq.1, hrooms', hdone, fun space => ?_⟩
  -- a call with all of the input
  obtain ⟨r', out, hcall, hout, hroom, hwritten, hr', hlast⟩ := call_spec rfl hdata hr
    (encode segments ++ (sha1 (preceding ++ encode segments)).val).length space
  rw [List.append_assoc] at hcall
  have hfull : r'.inBytesWritten =
      (preceding ++ encode segments ++ (sha1 (preceding ++ encode segments)).val).length := by
    rw [hwritten]
    simp only [List.length_append] at hread ⊢
    omega
  have hlen : r'.outs.flatten.length = r.outs.flatten.length + out.length := by
    rw [hout, List.flatten_append, List.length_append, List.flatten_singleton]
  obtain ⟨hfirst, hposition⟩ := hr'.outs_eq
  have hle := congrArg List.length hfirst
  rw [List.length_take] at hle
  have hdone' := hr'.done_iff rfl
  refine ⟨r', ?_, ?_⟩
  · rw [decompressAll_append, hall]
    exact hcall
  · cases hlast hfull with
    | inl hd =>
        have hflat := (hdone'.mp hd).1
        have hmany : data.length ≤ r.outs.flatten.length + space := by
          rw [← congrArg List.length hflat, hlen]
          omega
        exact ⟨by rw [hflat, List.take_of_length_le hmany], fun _ => hmany, fun _ => hd⟩
    | inr hspace =>
        have hshort : ¬ data.length ≤ r.outs.flatten.length + space := by omega
        refine ⟨by rw [← hspace.1, ← hlen]; exact hfirst, fun hd => ?_, fun hmany => absurd hmany hshort⟩
        have hflat := congrArg List.length (hdone'.mp hd).1
        omega

/-! ## Other calls -/

def zeroDigest : List UInt8 → Digest := fun _ => ⟨List.replicate digestLen 0, by simp⟩

theorem gap_roundTrips : RoundTrips zeroDigest [7] [1, 0, 0, 2, 0] := purge_roundTrips zeroDigest [7] (by decide)

theorem compressLoop_zeros : ∀ (fuel : Nat) (c : PurgeCompressor),
    PurgeCompressor.compressLoop (List.replicate (2 ^ 32) 0) fuel 0 c = none
  | 0, _ => rfl
  | fuel + 1, c => by
      have hfirst : PurgeCompressor.firstNonZero (List.replicate (2 ^ 32) 0) 0 % u32Max = 0 := by
        have hidx : (List.replicate (2 ^ 32) (0 : UInt8)).findIdx (· ≠ 0) = (List.replicate (2 ^ 32) (0 : UInt8)).length :=
          List.findIdx_eq_length_of_false fun x hx => by simp [(List.mem_replicate.mp hx).2]
        rw [PurgeCompressor.firstNonZero, List.drop_zero, hidx, List.length_replicate]
        rfl
      have hend : PurgeCompressor.nonZeroDataEnd (List.replicate (2 ^ 32) 0) 0 0 0 = 0 := by
        have hzeros : ∀ m, PurgeCompressor.nonZeroDataEnd (List.replicate (m + 9) 0) 0 0 0 = 0 := fun _ => rfl
        rw [show 2 ^ 32 = 4294967287 + 9 from rfl]
        exact hzeros _
      have hne : ¬ 0 = (List.replicate (2 ^ 32) (0 : UInt8)).length := by
        rw [List.length_replicate]
        decide
      rw [PurgeCompressor.compressLoop, hfirst]
      simp only [if_neg hne, List.drop_zero, hend]
      split
      · rfl
      · split
        · rfl
        · exact compressLoop_zeros fuel _

/-- A second call writes segments with wrong offsets, no call leaves no room for the hash, and the offsets of data of
2^32 bytes do not fit in the header of a segment. -/
theorem otherCalls_lost :
    (∃ compressed, purge zeroDigest [] [[1], 2 :: List.replicate 9 0] = some compressed ∧
      ∃ r, decompressAll zeroDigest 11 [] compressed [(compressed.length, 11)] = some r ∧
        r.outs.flatten ≠ 1 :: 2 :: List.replicate 9 0) ∧
      purge zeroDigest [] [] = none ∧ purge zeroDigest [] [List.replicate (2 ^ 32) 0] = none := by
  refine ⟨⟨_, rfl, _, rfl, by decide⟩, rfl, ?_⟩
  rw [purge, List.foldlM_cons, PurgeCompressor.compress, compressLoop_zeros]
  rfl

end Karphin.DiscIO
