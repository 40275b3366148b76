import Karphin.VideoCommon.OpcodeDecoding.Defs

/-!
# A command at a time

Each command but the NOPs has a header that says how long it is, and does the same whatever follows it.
-/

namespace Karphin.VideoCommon.OpcodeDecoder

open Lib

variable {σ : Type}

/-! ## Commands with a header -/

/-- What a command needs to know its size, and what it does when it is all there. -/
structure Frame (σ : Type) where
  header : Nat
  prepare : σ → σ
  size : List (BitVec 8) → σ → Nat
  act : List (BitVec 8) → σ → σ

def Frame.step (frame : Frame σ) (data : List (BitVec 8)) (s : σ) : Nat × σ :=
  if data.length < frame.header then (0, s)
  else if data.length < frame.size data s then (0, frame.prepare s)
  else (frame.size data s, frame.act data s)

def Frame.fixed (size : Nat) (act : List (BitVec 8) → σ → σ) : Frame σ := ⟨size, id, fun _ _ => size, act⟩

variable (callback : Callback σ)

def frame (cmd : BitVec 8) : Frame σ :=
  if cmd = GX_LOAD_CP_REG then .fixed 6 fun data => callback.onCP (byteAt data 1) (swap32 data 2)
  else if cmd = GX_LOAD_XF_REG then
    let streamSize (data : List (BitVec 8)) : BitVec 8 := (((swap32 data 1) >>> 16).setWidth 16 &&& 0xf).setWidth 8 + 1
    { header := 5
      prepare := id
      size := fun data _ => 5 + (streamSize data).toNat * 4
      act := fun data => callback.onXF ((swap32 data 1).setWidth 16) (streamSize data)
        ((data.drop 5).take ((streamSize data).toNat * 4)) }
  else if cmd = GX_LOAD_INDX_A ∨ cmd = GX_LOAD_INDX_B ∨ cmd = GX_LOAD_INDX_C ∨ cmd = GX_LOAD_INDX_D then
    .fixed 5 fun data => callback.onIndexedLoad (arrayIndex (cmd / 8 + 8)) (swap32 data 1 >>> 16)
      ((swap32 data 1).setWidth 16 &&& 0xfff) (((swap32 data 1 >>> 12) &&& 0xf).setWidth 8 + 1)
  else if cmd = GX_CMD_CALL_DL then .fixed 9 fun data => callback.onDisplayList (swap32 data 1) (swap32 data 5)
  else if cmd = GX_LOAD_BP_REG then .fixed 5 fun data => callback.onBP (byteAt data 1) (swap24 data 2)
  else if GX_PRIMITIVE_START ≤ cmd ∧ cmd ≤ GX_PRIMITIVE_END then
    { header := 3
      prepare := fun s => (callback.getVertexSize (vatIndex cmd) s).2
      size := fun data s =>
        (3 + (swap16 data 1).setWidth 32 * (callback.getVertexSize (vatIndex cmd) s).1 : BitVec 32).toNat
      act := fun data s =>
        let vertexSize := (callback.getVertexSize (vatIndex cmd) s).1
        callback.onPrimitiveCommand (primitiveOf cmd) (vatIndex cmd) vertexSize (swap16 data 1)
          ((data.drop 3).take ((swap16 data 1).toNat * vertexSize.toNat)) (callback.getVertexSize (vatIndex cmd) s).2 }
  else .fixed 1 fun data => callback.onUnknown cmd (data.take 1)

theorem Frame.step_fixed (size : Nat) (act : List (BitVec 8) → σ → σ) (data : List (BitVec 8)) (s : σ) :
    (Frame.fixed size act).step data s = if data.length < size then (0, s) else (size, act data s) := by
  change (if data.length < size then (0, s) else if data.length < size then (0, s) else (size, act data s)) = _
  by_cases h : data.length < size
  · rw [if_pos h, if_pos h]
  · rw [if_neg h, if_neg h]

theorem detailRunCommand_frame {cmd : BitVec 8} (hcmd : cmd ≠ GX_NOP) (rest : List (BitVec 8)) (s : σ) :
    detailRunCommand callback (cmd :: rest) s = (frame callback cmd).step (cmd :: rest) s := by
  have hlength : ¬ (cmd :: rest).length < 1 := by simp
  simp only [detailRunCommand, frame, if_neg hcmd]
  split
  · rw [Frame.step_fixed]
  · split
    · rfl
    · split
      · rw [Frame.step_fixed]
      · split
        · rw [Frame.step_fixed]
        · split
          · rw [Frame.step_fixed]
          · split
            · rfl
            · rw [Frame.step_fixed, if_neg hlength]

/-! ## Data with more behind it -/

section

variable {data : List (BitVec 8)} (more : List (BitVec 8))

theorem byteAt_append {i : Nat} (h : i < data.length) : byteAt (data ++ more) i = byteAt data i := by
  rw [byteAt, byteAt, List.getD_eq_getElem?_getD, List.getD_eq_getElem?_getD, List.getElem?_append_left h]

theorem swap16_append {i : Nat} (h : i + 2 ≤ data.length) : swap16 (data ++ more) i = swap16 data i := by
  rw [swap16, swap16, byteAt_append more (by omega), byteAt_append more (by omega)]

theorem swap24_append {i : Nat} (h : i + 3 ≤ data.length) : swap24 (data ++ more) i = swap24 data i := by
  rw [swap24, swap24, byteAt_append more (by omega), byteAt_append more (by omega), byteAt_append more (by omega)]

theorem swap32_append {i : Nat} (h : i + 4 ≤ data.length) : swap32 (data ++ more) i = swap32 data i := by
  rw [swap32, swap32, byteAt_append more (by omega), byteAt_append more (by omega), byteAt_append more (by omega),
    byteAt_append more (by omega)]

theorem take_drop_append {i n : Nat} (h : i + n ≤ data.length) :
    ((data ++ more).drop i).take n = (data.drop i).take n := by
  rw [List.drop_append_of_le_length (by omega), List.take_append_of_le_length (by rw [List.length_drop]; omega)]

end

/-! ## What a callback has to keep -/

/-- What callbacks may differ in is a relation that all of them keep; a second look at the size of a vertex does nothing. -/
structure Callback.Laws (callback : Callback σ) (R : σ → σ → Prop) : Prop where
  equiv : Equivalence R
  onXF : ∀ address count data s t, R s t → R (callback.onXF address count data s) (callback.onXF address count data t)
  onCP : ∀ command value s t, R s t → R (callback.onCP command value s) (callback.onCP command value t)
  onBP : ∀ command value s t, R s t → R (callback.onBP command value s) (callback.onBP command value t)
  onIndexedLoad : ∀ array index address size s t, R s t →
    R (callback.onIndexedLoad array index address size s) (callback.onIndexedLoad array index address size t)
  onPrimitiveCommand : ∀ primitive vat vertexSize numVertices data s t, R s t →
    R (callback.onPrimitiveCommand primitive vat vertexSize numVertices data s)
      (callback.onPrimitiveCommand primitive vat vertexSize numVertices data t)
  onDisplayList : ∀ address size s t, R s t → R (callback.onDisplayList address size s) (callback.onDisplayList address size t)
  onNop : ∀ count s t, R s t → R (callback.onNop count s) (callback.onNop count t)
  onUnknown : ∀ opcode data s t, R s t → R (callback.onUnknown opcode data s) (callback.onUnknown opcode data t)
  onCommand : ∀ data s t, R s t → R (callback.onCommand data s) (callback.onCommand data t)
  getVertexSize : ∀ vat s t, R s t → (callback.getVertexSize vat s).1 = (callback.getVertexSize vat t).1 ∧
    R (callback.getVertexSize vat s).2 (callback.getVertexSize vat t).2
  again : ∀ vat s, callback.getVertexSize vat (callback.getVertexSize vat s).2 = callback.getVertexSize vat s
  vertexSize_le : ∀ vat s, (callback.getVertexSize vat s).1.toNat ≤ 129
  /-- NOPs may be split. -/
  nops : ∀ first second s, R (callback.onCommand (first ++ second) (callback.onNop (first.length + second.length) s))
    (callback.onCommand second (callback.onNop second.length (callback.onCommand first (callback.onNop first.length s))))

structure Frame.Laws (frame : Frame σ) (R : σ → σ → Prop) : Prop where
  header_pos : 0 < frame.header
  header_le : ∀ data s, frame.header ≤ frame.size data s
  size_append : ∀ data more s, frame.header ≤ data.length → frame.size (data ++ more) s = frame.size data s
  act_append : ∀ data more s, frame.size data s ≤ data.length → frame.act (data ++ more) s = frame.act data s
  prepare_prepare : ∀ s, frame.prepare (frame.prepare s) = frame.prepare s
  size_prepare : ∀ data s, frame.size data (frame.prepare s) = frame.size data s
  act_prepare : ∀ data s, frame.act data (frame.prepare s) = frame.act data s
  congr_size : ∀ data s t, R s t → frame.size data s = frame.size data t
  congr_prepare : ∀ s t, R s t → R (frame.prepare s) (frame.prepare t)
  congr_act : ∀ data s t, R s t → R (frame.act data s) (frame.act data t)

variable {callback} {R : σ → σ → Prop}

theorem Frame.Laws.fixed {size : Nat} {act : List (BitVec 8) → σ → σ} (hsize : 0 < size)
    (happend : ∀ data more s, size ≤ data.length → act (data ++ more) s = act data s)
    (hcongr : ∀ data s t, R s t → R (act data s) (act data t)) : (Frame.fixed size act).Laws R where
  header_pos := hsize
  header_le _ _ := Nat.le_refl _
  size_append _ _ _ _ := rfl
  act_append := happend
  prepare_prepare _ := rfl
  size_prepare _ _ := rfl
  act_prepare _ _ := rfl
  congr_size _ _ _ _ := rfl
  congr_prepare _ _ h := h
  congr_act := hcongr

theorem primitive_size (numVertices : BitVec 16) {vertexSize : BitVec 32} (h : vertexSize.toNat ≤ 129) :
    (3 + numVertices.setWidth 32 * vertexSize : BitVec 32).toNat = 3 + numVertices.toNat * vertexSize.toNat := by
  have hn := numVertices.isLt
  have hprod : numVertices.toNat * vertexSize.toNat ≤ 65535 * 129 := Nat.mul_le_mul (by omega) h
  rw [BitVec.toNat_add, BitVec.toNat_mul, BitVec.toNat_setWidth, Nat.mod_eq_of_lt (by omega : numVertices.toNat < 2 ^ 32),
    Nat.mod_eq_of_lt (by omega : numVertices.toNat * vertexSize.toNat < 2 ^ 32)]
  exact Nat.mod_eq_of_lt (by change 3 + _ < _; omega)

theorem frame_laws (h : callback.Laws R) (cmd : BitVec 8) : (frame callback cmd).Laws R := by
  unfold frame
  split
  · apply Frame.Laws.fixed (by decide)
    · intro data more s hle
      rw [byteAt_append more (by omega), swap32_append more (by omega)]
    · exact fun data => h.onCP _ _
  · split
    · exact {
        header_pos := Nat.succ_pos 4
        header_le := fun data s => Nat.le_add_right _ _
        size_append := fun data more s hle => by
          dsimp only at hle ⊢
          rw [swap32_append more (by omega)]
        act_append := fun data more s hle => by
          dsimp only at hle ⊢
          rw [swap32_append more (by omega), take_drop_append more hle]
        prepare_prepare := fun _ => rfl
        size_prepare := fun _ _ => rfl
        act_prepare := fun _ _ => rfl
        congr_size := fun _ _ _ _ => rfl
        congr_prepare := fun _ _ hst => hst
        congr_act := fun data => h.onXF _ _ _ }
    · split
      · apply Frame.Laws.fixed (by decide)
        · intro data more s hle
          rw [swap32_append more (by omega)]
        · exact fun data => h.onIndexedLoad _ _ _ _
      · split
        · apply Frame.Laws.fixed (by decide)
          · intro data more s hle
            rw [swap32_append more (by omega), swap32_append more (by omega)]
          · exact fun data => h.onDisplayList _ _
        · split
          · apply Frame.Laws.fixed (by decide)
            · intro data more s hle
              rw [byteAt_append more (by omega), swap24_append more (by omega)]
            · exact fun data => h.onBP _ _
          · split
            · have hsize (data : List (BitVec 8)) (s : σ) := primitive_size (swap16 data 1)
                (h.vertexSize_le (vatIndex cmd) s)
              exact {
                header_pos := Nat.succ_pos 2
                header_le := fun data s => by
                  dsimp only
                  rw [hsize]
                  exact Nat.le_add_right _ _
                size_append := fun data more s hle => by
                  dsimp only at hle ⊢
                  rw [swap16_append more (by omega)]
                act_append := fun data more s hle => by
                  dsimp only at hle ⊢
                  rw [hsize] at hle
                  rw [swap16_append more (by omega), take_drop_append more hle]
                prepare_prepare := fun s => congrArg Prod.snd (h.again _ s)
                size_prepare := fun data s => by
                  dsimp only
                  rw [h.again]
                act_prepare := fun data s => by
                  dsimp only
                  rw [h.again]
                congr_size := fun data s t hst => by
                  dsimp only
                  rw [(h.getVertexSize _ s t hst).1]
                congr_prepare := fun s t hst => (h.getVertexSize _ s t hst).2
                congr_act := fun data s t hst => by
                  dsimp only
                  rw [(h.getVertexSize _ s t hst).1]
                  exact h.onPrimitiveCommand _ _ _ _ _ _ _ (h.getVertexSize _ s t hst).2 }
            · apply Frame.Laws.fixed (by decide)
              · intro data more s hle
                rw [List.take_append_of_le_length hle]
              · exact fun data => h.onUnknown _ _

/-! ## One step of a frame -/

theorem Frame.step_le (f : Frame σ) (data : List (BitVec 8)) (s : σ) : (f.step data s).1 ≤ data.length := by
  rw [Frame.step]
  split
  · exact Nat.zero_le _
  · split
    · exact Nat.zero_le _
    · next hsize => exact Nat.le_of_not_lt hsize

section

variable {f : Frame σ}

theorem Frame.Laws.size_pos (h : f.Laws R) (data : List (BitVec 8)) (s : σ) : 0 < f.size data s :=
  Nat.lt_of_lt_of_le h.header_pos (h.header_le data s)

theorem Frame.Laws.step_append (h : f.Laws R) {data : List (BitVec 8)} {s : σ} (hsize : (f.step data s).1 ≠ 0)
    (more : List (BitVec 8)) : f.step (data ++ more) s = f.step data s := by
  rw [Frame.step] at hsize
  split at hsize
  · exact absurd rfl hsize
  · next hheader =>
      split at hsize
      · exact absurd rfl hsize
      · next hlength =>
          have hsame := h.size_append data more s (Nat.le_of_not_lt hheader)
          rw [Frame.step, Frame.step, if_neg hheader, if_neg hlength, hsame, h.act_append data more s (Nat.le_of_not_lt hlength),
            if_neg, if_neg]
          · rw [List.length_append]
            omega
          · rw [List.length_append]
            omega

theorem Frame.Laws.step_again (h : f.Laws R) {data : List (BitVec 8)} {s : σ} (hsize : (f.step data s).1 = 0)
    (more : List (BitVec 8)) : f.step (data ++ more) (f.step data s).2 = f.step (data ++ more) s := by
  by_cases hheader : data.length < f.header
  · have hstep : f.step data s = (0, s) := by rw [Frame.step, if_pos hheader]
    rw [hstep]
  · by_cases hlength : data.length < f.size data s
    · have hstep : f.step data s = (0, f.prepare s) := by rw [Frame.step, if_neg hheader, if_pos hlength]
      have hmore : ¬ (data ++ more).length < f.header := by
        rw [List.length_append]
        omega
      rw [hstep, Frame.step, Frame.step, if_neg hmore, if_neg hmore, h.size_prepare, h.act_prepare, h.prepare_prepare]
    · have hstep : f.step data s = (f.size data s, f.act data s) := by
        rw [Frame.step, if_neg hheader, if_neg hlength]
      rw [hstep] at hsize
      exact absurd hsize (Nat.ne_of_gt (h.size_pos data s))

theorem Frame.Laws.step_congr (h : f.Laws R) (data : List (BitVec 8)) {s t : σ} (hst : R s t) :
    (f.step data s).1 = (f.step data t).1 ∧ R (f.step data s).2 (f.step data t).2 := by
  rw [Frame.step, Frame.step, h.congr_size data s t hst]
  split
  · exact ⟨rfl, hst⟩
  · split
    · exact ⟨rfl, h.congr_prepare s t hst⟩
    · exact ⟨rfl, h.congr_act data s t hst⟩

end

/-! ## `RunCommand` -/

variable (callback)

def leadingNops (data : List (BitVec 8)) : List (BitVec 8) := data.takeWhile fun byte => byte = GX_NOP

theorem take_nops (data : List (BitVec 8)) : data.take (leadingNops data).length = leadingNops data :=
  (List.prefix_iff_eq_take.mp (List.takeWhile_prefix _)).symm

theorem leadingNops_pos (rest : List (BitVec 8)) : 0 < (leadingNops (GX_NOP :: rest)).length := by simp [leadingNops]

theorem RunCommand_nop (rest : List (BitVec 8)) (s : σ) : RunCommand callback (GX_NOP :: rest) s =
    ((leadingNops (GX_NOP :: rest)).length,
      callback.onCommand (leadingNops (GX_NOP :: rest)) (callback.onNop (leadingNops (GX_NOP :: rest)).length s)) := by
  have hpos : (leadingNops (GX_NOP :: rest)).length > 0 := leadingNops_pos rest
  have hdetail : detailRunCommand callback (GX_NOP :: rest) s =
      ((leadingNops (GX_NOP :: rest)).length, callback.onNop (leadingNops (GX_NOP :: rest)).length s) := by
    simp only [detailRunCommand, if_pos]
    rfl
  rw [RunCommand, hdetail]
  simp only [hpos, ↓reduceIte, take_nops]

theorem RunCommand_frame {cmd : BitVec 8} (hcmd : cmd ≠ GX_NOP) (rest : List (BitVec 8)) (s : σ) :
    RunCommand callback (cmd :: rest) s =
      (((frame callback cmd).step (cmd :: rest) s).1,
        if ((frame callback cmd).step (cmd :: rest) s).1 = 0 then ((frame callback cmd).step (cmd :: rest) s).2
        else callback.onCommand ((cmd :: rest).take ((frame callback cmd).step (cmd :: rest) s).1)
          ((frame callback cmd).step (cmd :: rest) s).2) := by
  rw [RunCommand, detailRunCommand_frame callback hcmd]
  dsimp only
  split
  · next hpos => rw [if_neg (Nat.ne_of_gt hpos)]
  · next hzero => rw [if_pos (Nat.eq_zero_of_not_pos hzero)]

variable {callback}

theorem RunCommand_le (data : List (BitVec 8)) (s : σ) : (RunCommand callback data s).1 ≤ data.length := by
  cases data with
  | nil => exact Nat.le_refl 0
  | cons cmd rest =>
      by_cases hcmd : cmd = GX_NOP
      · subst hcmd
        rw [RunCommand_nop]
        exact List.Sublist.length_le (List.takeWhile_sublist _)
      · rw [RunCommand_frame callback hcmd]
        exact Frame.step_le _ _ _

theorem Callback.Laws.RunCommand_congr (h : callback.Laws R) (data : List (BitVec 8)) (s t : σ) (hst : R s t) :
    (RunCommand callback data s).1 = (RunCommand callback data t).1 ∧
      R (RunCommand callback data s).2 (RunCommand callback data t).2 := by
  cases data with
  | nil => exact ⟨rfl, hst⟩
  | cons cmd rest =>
      by_cases hcmd : cmd = GX_NOP
      · subst hcmd
        rw [RunCommand_nop, RunCommand_nop]
        exact ⟨rfl, h.onCommand _ _ _ (h.onNop _ _ _ hst)⟩
      · obtain ⟨hsize, hstate⟩ := (frame_laws h cmd).step_congr (cmd :: rest) hst
        rw [RunCommand_frame callback hcmd, RunCommand_frame callback hcmd, hsize]
        refine ⟨rfl, ?_⟩
        dsimp only
        split
        · exact hstate
        · exact h.onCommand _ _ _ hstate

theorem Callback.Laws.RunCommand_retry (h : callback.Laws R) (data more : List (BitVec 8)) (s : σ)
    (hsize : (RunCommand callback data s).1 = 0) :
    RunCommand callback (data ++ more) (RunCommand callback data s).2 = RunCommand callback (data ++ more) s := by
  cases data with
  | nil => rfl
  | cons cmd rest =>
      by_cases hcmd : cmd = GX_NOP
      · subst hcmd
        rw [RunCommand_nop] at hsize
        exact absurd hsize (Nat.ne_of_gt (leadingNops_pos rest))
      · rw [RunCommand_frame callback hcmd] at hsize
        have hagain := (frame_laws h cmd).step_again hsize more
        rw [List.cons_append] at hagain
        rw [RunCommand_frame callback hcmd rest s, if_pos hsize, List.cons_append, RunCommand_frame callback hcmd,
          RunCommand_frame callback hcmd, hagain]

theorem leadingNops_append (data more : List (BitVec 8)) :
    leadingNops (data ++ more) = if (leadingNops data).length = data.length then data ++ leadingNops more else leadingNops data := by
  split
  · next hall =>
      have hnops : leadingNops data = data := (List.takeWhile_sublist _).eq_of_length hall
      rw [leadingNops, List.takeWhile_append, if_pos]
      · rfl
      · exact hall
  · next hall =>
      rw [leadingNops, List.takeWhile_append, if_neg]
      · rfl
      · exact hall

theorem Callback.Laws.RunCommand_append (h : callback.Laws R) {cmd : BitVec 8} (hcmd : cmd ≠ GX_NOP)
    {rest : List (BitVec 8)} {s : σ} (hsize : (RunCommand callback (cmd :: rest) s).1 ≠ 0) (more : List (BitVec 8)) :
    RunCommand callback (cmd :: rest ++ more) s = RunCommand callback (cmd :: rest) s := by
  rw [RunCommand_frame callback hcmd] at hsize
  have happend := (frame_laws h cmd).step_append hsize more
  have htake : (cmd :: rest ++ more).take ((frame callback cmd).step (cmd :: rest) s).1 =
      (cmd :: rest).take ((frame callback cmd).step (cmd :: rest) s).1 :=
    List.take_append_of_le_length ((frame callback cmd).step_le (cmd :: rest) s)
  rw [List.cons_append] at happend htake
  rw [List.cons_append, RunCommand_frame callback hcmd, RunCommand_frame callback hcmd, happend, htake]

theorem Callback.Laws.RunCommand_stable (h : callback.Laws R) (data more : List (BitVec 8)) (s : σ)
    (hsize : (RunCommand callback data s).1 ≠ 0) (hlt : (RunCommand callback data s).1 < data.length) :
    RunCommand callback (data ++ more) s = RunCommand callback data s := by
  cases data with
  | nil => exact absurd hlt (Nat.not_lt_zero _)
  | cons cmd rest =>
      by_cases hcmd : cmd = GX_NOP
      · subst hcmd
        rw [RunCommand_nop] at hlt
        have hnops := leadingNops_append (GX_NOP :: rest) more
        rw [if_neg (Nat.ne_of_lt hlt), List.cons_append] at hnops
        rw [List.cons_append, RunCommand_nop, RunCommand_nop, hnops]
      · exact h.RunCommand_append hcmd hsize more

theorem Callback.Laws.RunCommand_seam (h : callback.Laws R) (data more : List (BitVec 8)) (s : σ)
    (hsize : (RunCommand callback data s).1 ≠ 0) (hlength : (RunCommand callback data s).1 = data.length) :
    RunCommand callback (data ++ more) s = RunCommand callback data s ∨
      more ≠ [] ∧ (RunCommand callback more (RunCommand callback data s).2).1 ≠ 0 ∧
        (RunCommand callback (data ++ more) s).1 =
          data.length + (RunCommand callback more (RunCommand callback data s).2).1 ∧
        R (RunCommand callback (data ++ more) s).2 (RunCommand callback more (RunCommand callback data s).2).2 := by
  cases data with
  | nil => exact absurd rfl hsize
  | cons cmd rest =>
      by_cases hcmd : cmd = GX_NOP
      · subst hcmd
        rw [RunCommand_nop] at hlength
        have hall : leadingNops (GX_NOP :: rest) = GX_NOP :: rest := (List.takeWhile_sublist _).eq_of_length hlength
        have hnops := leadingNops_append (GX_NOP :: rest) more
        rw [if_pos hlength, List.cons_append] at hnops
        rw [List.cons_append, RunCommand_nop, RunCommand_nop, hnops, hall]
        cases more with
        | nil =>
            left
            rw [leadingNops, List.takeWhile_nil, List.append_nil]
        | cons next more =>
            by_cases hnext : next = GX_NOP
            · right
              subst hnext
              rw [RunCommand_nop]
              refine ⟨List.cons_ne_nil _ _, Nat.ne_of_gt (leadingNops_pos more), List.length_append, ?_⟩
              rw [List.length_append]
              exact h.nops _ _ s
            · left
              have hnone : leadingNops (next :: more) = [] := by
                rw [leadingNops, List.takeWhile_cons_of_neg]
                simpa using hnext
              rw [hnone, List.append_nil]
      · exact Or.inl (h.RunCommand_append hcmd hsize more)

theorem Callback.Laws.frames (h : callback.Laws R) : Frames.Laws (RunCommand callback) R where
  equiv := h.equiv
  congr := h.RunCommand_congr
  size_le := RunCommand_le
  retry := h.RunCommand_retry
  stable := h.RunCommand_stable
  seam := h.RunCommand_seam

end Karphin.VideoCommon.OpcodeDecoder
