import Karphin.Lib.TriangleStrip
import Karphin.VideoCommon.IndexGenerator.Defs

/-!
# With and without primitive restart

The strips that are written with primitive restart have the triangles that are written without it. No index is the restart
value, and each is below the number of vertices.
-/

namespace Karphin.VideoCommon

open Lib

def ix (v : Nat) : UInt16 := UInt16.ofNat v

@[simp]
theorem stored_index (v : Nat) : (Write.index v).stored = ix v := rfl

theorem ix_ne_restart {v : Nat} (h : v < 0xffff) : sPrimitiveRestart ≠ ix v := by
  intro heq
  have hvalue := congrArg UInt16.toNat heq
  rw [ix, UInt16.toNat_ofNat', Nat.mod_eq_of_lt (by omega)] at hvalue
  have hmarker : sPrimitiveRestart.toNat = 0xffff := rfl
  omega

abbrev Agree (strips list : List Write) : Prop :=
  Pieces sPrimitiveRestart (strips.map Write.stored) (list.map Write.stored)

theorem Agree.nil : Agree [] [] := Pieces.nil

theorem Agree.strip {strip : List Nat} {triangles : List (Triangle Nat)} {strips list : List Write}
    (hstrip : ∀ v ∈ strip, v < 0xffff) (hsame : List.Forall₂ Triangle.Same (stripTriangles false strip) triangles)
    (h : Agree strips list) :
    Agree (strip.map Write.index ++ .restart :: strips)
      (triangles.flatMap (fun t => writeTriangle false t.a t.b t.c) ++ list) := by
  have hmarker : sPrimitiveRestart ∉ strip.map ix := by
    intro hmem
    obtain ⟨v, hv, heq⟩ := List.mem_map.mp hmem
    exact ix_ne_restart (hstrip v hv) heq.symm
  have hsame' : List.Forall₂ Triangle.Same (stripTriangles false (strip.map ix)) (triangles.map (Triangle.map ix)) := by
    rw [stripTriangles_map, List.forall₂_map_left_iff, List.forall₂_map_right_iff]
    exact hsame.imp fun _ _ ht => ht.map ix
  have hlist : (triangles.flatMap fun t => writeTriangle false t.a t.b t.c).map Write.stored =
      (triangles.map (Triangle.map ix)).flatMap Triangle.vertices := by
    rw [List.map_flatMap, List.flatMap_map]
    rfl
  have hpiece := Pieces.strip hmarker hsame' h
  rw [Agree, List.map_append, List.map_map, List.map_append, hlist]
  exact hpiece

theorem forall_lt_of_le {n : Nat} {vs : List Nat} (hn : n ≤ 0xffff) (h : ∀ v ∈ vs, v < n) : ∀ v ∈ vs, v < 0xffff :=
  fun v hv => Nat.lt_of_lt_of_le (h v hv) hn

/-! ## The five generators -/

section

variable {numVerts index : Nat} (hbound : index + numVerts ≤ 0xffff)

include hbound

theorem writeTriangle_agree {a b c : Nat} {strips list : List Write} (ha : a < index + numVerts)
    (hb : b < index + numVerts) (hc : c < index + numVerts) (h : Agree strips list) :
    Agree (writeTriangle true a b c ++ strips) (writeTriangle false a b c ++ list) := by
  have hstrip : ∀ v ∈ [a, b, c], v < 0xffff := forall_lt_of_le hbound (by simp [ha, hb, hc])
  exact Agree.strip hstrip (List.Forall₂.cons (Triangle.Same.refl ⟨a, b, c⟩) .nil) h

theorem addListLoop_agree (i : Nat) (hi : 2 ≤ i) :
    Agree (addListLoop true numVerts index i) (addListLoop false numVerts index i) := by
  fun_induction addListLoop false numVerts index i with
  | case1 i hlt ih =>
      rw [addListLoop, if_pos hlt]
      exact writeTriangle_agree hbound (by omega) (by omega) (by omega) (ih (by omega))
  | case2 i hge =>
      rw [addListLoop, if_neg hge]
      exact .nil

theorem addFanRest_agree (i : Nat) (hi : 2 ≤ i) :
    Agree (addFanRest true numVerts index i) (addFanRest false numVerts index i) := by
  fun_induction addFanRest false numVerts index i with
  | case1 i hlt ih =>
      rw [addFanRest, if_pos hlt]
      exact writeTriangle_agree hbound (by omega) (by omega) (by omega) (ih (by omega))
  | case2 i hge =>
      rw [addFanRest, if_neg hge]
      exact .nil

omit hbound in
theorem addFanRest_of_lt {i : Nat} (h : i < numVerts) : addFanRest false numVerts index i =
    writeTriangle false index (index + i - 1) (index + i) ++ addFanRest false numVerts index (i + 1) := by
  rw [addFanRest, if_pos h]

theorem addFanTwo_agree (i : Nat) (hi : 2 ≤ i) :
    Agree (addFanTwo numVerts index i) (addFanRest false numVerts index i) := by
  fun_induction addFanTwo numVerts index i with
  | case1 i hle ih =>
      have hstrip : ∀ v ∈ [index + i - 1, index + i, index, index + i + 1], v < 0xffff :=
        forall_lt_of_le hbound (by simp; omega)
      have hsame : List.Forall₂ Triangle.Same
          (stripTriangles false [index + i - 1, index + i, index, index + i + 1])
          [⟨index, index + i - 1, index + i⟩, ⟨index, index + i, index + i + 1⟩] :=
        .cons (Or.inr (Or.inr rfl)) (.cons (Or.inr (Or.inr rfl)) .nil)
      rw [addFanRest_of_lt (by omega), addFanRest_of_lt (by omega)]
      exact Agree.strip hstrip hsame (ih (by omega))
  | case2 i hgt => exact addFanRest_agree hbound i hi

theorem addFanThree_agree (i : Nat) (hi : 2 ≤ i) :
    Agree (addFanThree numVerts index i) (addFanRest false numVerts index i) := by
  fun_induction addFanThree numVerts index i with
  | case1 i hle ih =>
      have hstrip : ∀ v ∈ [index + i - 1, index + i, index, index + i + 1, index + i + 2], v < 0xffff :=
        forall_lt_of_le hbound (by simp; omega)
      have hsame : List.Forall₂ Triangle.Same
          (stripTriangles false [index + i - 1, index + i, index, index + i + 1, index + i + 2])
          [⟨index, index + i - 1, index + i⟩, ⟨index, index + i, index + i + 1⟩, ⟨index, index + i + 1, index + i + 2⟩] :=
        .cons (Or.inr (Or.inr rfl)) (.cons (Or.inr (Or.inr rfl)) (.cons (Or.inl rfl) .nil))
      rw [addFanRest_of_lt (by omega), addFanRest_of_lt (by omega), addFanRest_of_lt (by omega)]
      exact Agree.strip hstrip hsame (ih (by omega))
  | case2 i hgt => exact addFanTwo_agree hbound i hi

theorem addQuadsLoop_agree (i : Nat) (hi : 3 ≤ i) :
    Agree (addQuadsLoop true numVerts index i) (addQuadsLoop false numVerts index i) := by
  fun_induction addQuadsLoop false numVerts index i with
  | case1 i hlt ih =>
      have hstrip : ∀ v ∈ [index + i - 2, index + i - 1, index + i - 3, index + i], v < 0xffff :=
        forall_lt_of_le hbound (by simp; omega)
      have hsame : List.Forall₂ Triangle.Same
          (stripTriangles false [index + i - 2, index + i - 1, index + i - 3, index + i])
          [⟨index + i - 3, index + i - 2, index + i - 1⟩, ⟨index + i - 3, index + i - 1, index + i⟩] :=
        .cons (Or.inr (Or.inr rfl)) (.cons (Or.inr (Or.inr rfl)) .nil)
      rw [addQuadsLoop, if_pos hlt]
      exact Agree.strip hstrip hsame (ih (by omega))
  | case2 hnot =>
      rw [addQuadsLoop, if_neg hnot, if_pos rfl]
      have hpiece := writeTriangle_agree hbound (a := index + numVerts - 3) (b := index + numVerts - 2)
        (c := index + numVerts - 1) (by omega) (by omega) (by omega) Agree.nil
      rwa [List.append_nil, List.append_nil] at hpiece
  | case3 i hge hne =>
      rw [addQuadsLoop, if_neg hge, if_neg hne]
      exact .nil

omit hbound in
theorem addStripLoop_eq (wind : Bool) (i : Nat) (hi : 2 ≤ i) : addStripLoop numVerts index wind i =
    (stripTriangles wind (List.range' (index + i - 2) (numVerts + 2 - i))).flatMap
      fun t => writeTriangle false t.a t.b t.c := by
  fun_induction addStripLoop numVerts index wind i with
  | case1 wind i hlt ih =>
      have hverts : List.range' (index + i - 2) (numVerts + 2 - i) = (index + i - 2) ::
          List.range' (index + (i + 1) - 2) (numVerts + 2 - (i + 1)) := by
        have hcount : numVerts + 2 - i = numVerts + 2 - (i + 1) + 1 := by omega
        have hnext : index + i - 2 + 1 = index + (i + 1) - 2 := by omega
        rw [hcount, List.range'_succ, hnext]
      have htail : List.range' (index + (i + 1) - 2) (numVerts + 2 - (i + 1)) = (index + i - 1) :: (index + i) ::
          List.range' (index + i + 1) (numVerts - i - 1) := by
        have hcount : numVerts + 2 - (i + 1) = numVerts - i - 1 + 1 + 1 := by omega
        have hfirst : index + (i + 1) - 2 = index + i - 1 := by omega
        have hnext : index + i - 1 + 1 = index + i := by omega
        rw [hcount, hfirst, List.range'_succ, hnext, List.range'_succ]
      rw [ih (by omega), hverts, htail, stripTriangles, List.flatMap_cons]
      cases wind <;> rfl
  | case2 wind i hge =>
      have hshort : ∀ n s, n < 3 → stripTriangles wind (List.range' s n) = [] := by
        intro n s hn
        interval_cases n <;> rfl
      rw [hshort _ _ (by omega), List.flatMap_nil]

theorem addStrip_agree : Agree (addStrip true numVerts index) (addStrip false numVerts index) := by
  have hstrip : ∀ v ∈ List.range' index numVerts, v < 0xffff := by
    apply forall_lt_of_le hbound
    intro v hv
    exact (List.mem_range'_1.mp hv).2
  have hsame : List.Forall₂ Triangle.Same (stripTriangles false (List.range' index numVerts))
      (stripTriangles false (List.range' index numVerts)) := List.forall₂_same.mpr fun t _ => Triangle.Same.refl t
  have hpiece := Agree.strip hstrip hsame Agree.nil
  have hwrites : (List.range numVerts).map (fun i => Write.index (index + i)) =
      (List.range' index numVerts).map Write.index := by
    rw [List.range'_eq_map_range, List.map_map]
    rfl
  have hloop := @addStripLoop_eq numVerts index false 2 (Nat.le_refl 2)
  rw [List.append_nil] at hpiece
  rw [addStrip, if_pos rfl, addStrip, if_neg Bool.false_ne_true, hloop, hwrites]
  exact hpiece

end

/-! ## Indices -/

def InRange (n : Nat) (writes : List Write) : Prop := ∀ v, Write.index v ∈ writes → v < n

section

variable {n v : Nat} {writes writes' : List Write}

@[simp]
theorem inRange_nil : InRange n [] := fun _ h => absurd h List.not_mem_nil

@[simp]
theorem inRange_index : InRange n (.index v :: writes) ↔ v < n ∧ InRange n writes := by
  simp [InRange]

@[simp]
theorem inRange_restart : InRange n (.restart :: writes) ↔ InRange n writes := by
  simp [InRange]

@[simp]
theorem inRange_append : InRange n (writes ++ writes') ↔ InRange n writes ∧ InRange n writes' := by
  simp only [InRange, List.mem_append]
  constructor
  · intro h
    exact ⟨fun v hv => h v (Or.inl hv), fun v hv => h v (Or.inr hv)⟩
  · rintro ⟨h, h'⟩ v (hv | hv)
    · exact h v hv
    · exact h' v hv

@[simp]
theorem inRange_writeTriangle {pr : Bool} {a b c : Nat} :
    InRange n (writeTriangle pr a b c) ↔ a < n ∧ b < n ∧ c < n := by
  cases pr <;> simp [writeTriangle]

end

section

variable {pr : Bool} {numVerts index : Nat}

theorem addListLoop_inRange (i : Nat) (hi : 2 ≤ i) :
    InRange (index + numVerts) (addListLoop pr numVerts index i) := by
  fun_induction addListLoop pr numVerts index i with
  | case1 i hlt ih => simp [ih (by omega)]; omega
  | case2 => exact inRange_nil

theorem addStripLoop_inRange (wind : Bool) (i : Nat) (hi : 2 ≤ i) :
    InRange (index + numVerts) (addStripLoop numVerts index wind i) := by
  fun_induction addStripLoop numVerts index wind i with
  | case1 wind i hlt ih => simp [ih (by omega)]; omega
  | case2 => exact inRange_nil

theorem addFanRest_inRange (i : Nat) (hi : 2 ≤ i) :
    InRange (index + numVerts) (addFanRest pr numVerts index i) := by
  fun_induction addFanRest pr numVerts index i with
  | case1 i hlt ih => simp [ih (by omega)]; omega
  | case2 => exact inRange_nil

theorem addFanTwo_inRange (i : Nat) (hi : 2 ≤ i) : InRange (index + numVerts) (addFanTwo numVerts index i) := by
  fun_induction addFanTwo numVerts index i with
  | case1 i hle ih => simp [ih (by omega)]; omega
  | case2 i hgt => exact addFanRest_inRange i hi

theorem addFanThree_inRange (i : Nat) (hi : 2 ≤ i) : InRange (index + numVerts) (addFanThree numVerts index i) := by
  fun_induction addFanThree numVerts index i with
  | case1 i hle ih => simp [ih (by omega)]; omega
  | case2 i hgt => exact addFanTwo_inRange i hi

theorem addQuadsLoop_inRange (i : Nat) (hi : 3 ≤ i) :
    InRange (index + numVerts) (addQuadsLoop pr numVerts index i) := by
  fun_induction addQuadsLoop pr numVerts index i with
  | case1 i hlt ih => cases pr <;> simp [ih (by omega)] <;> omega
  | case2 hnot => simp; omega
  | case3 => exact inRange_nil

theorem addPoints_inRange : InRange (index + numVerts) (addPoints numVerts index) := by
  intro v hv
  obtain ⟨i, hi, heq⟩ := List.mem_map.mp hv
  cases heq
  have hlt := List.mem_range.mp hi
  omega

theorem addLineLoop_inRange (advance i : Nat) (hi : 1 ≤ i) :
    InRange (index + numVerts) (addLineLoop advance numVerts index i) := by
  fun_induction addLineLoop advance numVerts index i with
  | case1 i hlt ih => simp [ih (by omega)]; omega
  | case2 => exact inRange_nil

theorem addLinesVSExpandLoop_inRange (advance i : Nat) (hi : 1 ≤ i) :
    InRange (4 * (index + numVerts)) (addLinesVSExpandLoop pr advance numVerts index i) := by
  fun_induction addLinesVSExpandLoop pr advance numVerts index i with
  | case1 i hlt p0 p1 ih =>
      have hp0 : p0 = (index + i - 1) * 4 := Nat.shiftLeft_eq _ 2
      have hp1 : p1 = (index + i) * 4 := Nat.shiftLeft_eq _ 2
      cases pr <;> simp [ih (by omega)] <;> omega
  | case2 => exact inRange_nil

theorem addPointsVSExpand_inRange : InRange (4 * (index + numVerts)) (addPointsVSExpand pr numVerts index) := by
  intro v hv
  obtain ⟨i, hi, hmem⟩ := List.mem_flatMap.mp hv
  have hlt := List.mem_range.mp hi
  have hbase : (index + i) <<< 2 = (index + i) * 4 := Nat.shiftLeft_eq _ 2
  cases pr <;> simp at hmem <;> omega

end

/-! ## Sequences of calls -/

def Primitive.isTriangles (primitive : Primitive) : Bool := !primitive.isLineOrPoint

theorem primitiveTable_agree {primitive : Primitive} (h : primitive.isTriangles = true) (vs : Bool)
    {numVerts index : Nat} (hbound : index + numVerts ≤ 0xffff) :
    Agree (primitiveTable ⟨true, vs⟩ primitive numVerts index) (primitiveTable ⟨false, vs⟩ primitive numVerts index) := by
  cases primitive with
  | quads => exact addQuadsLoop_agree hbound 3 (Nat.le_refl 3)
  | quads2 => exact addQuadsLoop_agree hbound 3 (Nat.le_refl 3)
  | triangles => exact addListLoop_agree hbound 2 (Nat.le_refl 2)
  | triangleStrip => exact addStrip_agree hbound
  | triangleFan => exact addFanThree_agree hbound 2 (Nat.le_refl 2)
  | lines => cases h
  | lineStrip => cases h
  | points => cases h

theorem primitiveTable_inRange (config : Config) (primitive : Primitive) (numVerts index : Nat) :
    InRange (if config.useVSForLinePointExpand && primitive.isLineOrPoint then 4 * (index + numVerts)
      else index + numVerts) (primitiveTable config primitive numVerts index) := by
  obtain ⟨pr, vs⟩ := config
  cases primitive with
  | quads => cases vs <;> exact addQuadsLoop_inRange 3 (Nat.le_refl 3)
  | quads2 => cases vs <;> exact addQuadsLoop_inRange 3 (Nat.le_refl 3)
  | triangles => cases vs <;> exact addListLoop_inRange 2 (Nat.le_refl 2)
  | triangleStrip =>
      cases pr with
      | true =>
          have hstrip : primitiveTable ⟨true, vs⟩ .triangleStrip numVerts index =
              addPoints numVerts index ++ [.restart] := rfl
          simp [Primitive.isLineOrPoint, hstrip, addPoints_inRange]
      | false => cases vs <;> exact addStripLoop_inRange false 2 (Nat.le_refl 2)
  | triangleFan =>
      cases pr with
      | true => cases vs <;> exact addFanThree_inRange 2 (Nat.le_refl 2)
      | false => cases vs <;> exact addFanRest_inRange 2 (Nat.le_refl 2)
  | lines =>
      cases vs with
      | true => exact addLinesVSExpandLoop_inRange 2 1 (Nat.le_refl 1)
      | false => exact addLineLoop_inRange 2 1 (Nat.le_refl 1)
  | lineStrip =>
      cases vs with
      | true => exact addLinesVSExpandLoop_inRange 1 1 (Nat.le_refl 1)
      | false => exact addLineLoop_inRange 1 1 (Nat.le_refl 1)
  | points =>
      cases vs with
      | true => exact addPointsVSExpand_inRange
      | false => exact addPoints_inRange

theorem primitiveTable_zero {config : Config} {primitive : Primitive} (index : Nat)
    (hexpanded : (config.useVSForLinePointExpand && primitive.isLineOrPoint) = true) :
    primitiveTable config primitive 0 index = [] := by
  obtain ⟨hvs, hprimitive⟩ := Bool.and_eq_true_iff.mp hexpanded
  have hlines : ∀ advance, addLinesVSExpandLoop config.primitiveRestart advance 0 index 1 = [] := by
    intro advance
    rw [addLinesVSExpandLoop, if_neg (by omega)]
  cases primitive with
  | lines =>
      rw [primitiveTable, if_pos hvs]
      exact hlines 2
  | lineStrip =>
      rw [primitiveTable, if_pos hvs]
      exact hlines 1
  | points =>
      rw [primitiveTable, if_pos hvs]
      rfl
  | quads => cases hprimitive
  | quads2 => cases hprimitive
  | triangles => cases hprimitive
  | triangleStrip => cases hprimitive
  | triangleFan => cases hprimitive

namespace IndexGenerator

variable {config : Config} {g : IndexGenerator} {call : Primitive × Nat} {calls : List (Primitive × Nat)}

theorem addIndices_le (hg : g.baseIndex ≤ 0xffff) (h : call.2 ≤ g.getRemainingIndices config call.1) :
    g.baseIndex + call.2 ≤ 0xffff ∧
      ((config.useVSForLinePointExpand && call.1.isLineOrPoint) = true → call.2 ≠ 0 →
        g.baseIndex + call.2 ≤ 0x3fff) := by
  have hshift : 0xffff >>> 2 = 0x3fff := rfl
  rw [getRemainingIndices, hshift] at h
  by_cases hvs : (config.useVSForLinePointExpand && call.1.isLineOrPoint) = true
  · rw [if_pos hvs] at h
    split at h
    next hover => exact ⟨by omega, fun _ hne => absurd (Nat.le_zero.mp h) hne⟩
    next hunder => exact ⟨by omega, fun _ _ => by omega⟩
  · rw [if_neg hvs] at h
    split at h
    next hover => exact ⟨by omega, fun hvs' => absurd hvs' hvs⟩
    next hunder => exact ⟨by omega, fun hvs' => absurd hvs' hvs⟩

theorem Allowed.split {before after : List (Primitive × Nat)} (h : Allowed config g (before ++ call :: after)) :
    Allowed config g before ∧ call.2 ≤ (run config g before).getRemainingIndices config call.1 := by
  induction before generalizing g with
  | nil => exact ⟨trivial, h.1⟩
  | cons first before ih =>
      obtain ⟨hbefore, hcall⟩ := ih h.2
      exact ⟨⟨h.1, hbefore⟩, hcall⟩

theorem run_baseIndex_le (hg : g.baseIndex ≤ 0xffff) (h : Allowed config g calls) :
    (run config g calls).baseIndex ≤ 0xffff := by
  induction calls generalizing g with
  | nil => exact hg
  | cons call calls ih => exact ih (addIndices_le hg h.1).1 h.2

theorem run_baseIndex (pr pr' vs : Bool) {g' : IndexGenerator} (hg : g.baseIndex = g'.baseIndex) :
    (run ⟨pr, vs⟩ g calls).baseIndex = (run ⟨pr', vs⟩ g' calls).baseIndex := by
  induction calls generalizing g g' with
  | nil => exact hg
  | cons call calls ih => exact ih (congrArg (· + call.2) hg)

theorem getRemainingIndices_congr (pr pr' vs : Bool) {g' : IndexGenerator} (hg : g.baseIndex = g'.baseIndex)
    (primitive : Primitive) :
    getRemainingIndices ⟨pr, vs⟩ g primitive = getRemainingIndices ⟨pr', vs⟩ g' primitive := by
  rw [getRemainingIndices, getRemainingIndices, hg]

theorem run_concat (config : Config) (g : IndexGenerator) (calls : List (Primitive × Nat)) (call : Primitive × Nat) :
    run config g (calls ++ [call]) = (run config g calls).addIndices config call.1 call.2 :=
  List.foldl_concat ..

theorem run_agree {vs : Bool} {g g' : IndexGenerator} (hindex : g.baseIndex = g'.baseIndex) (hg : g.baseIndex ≤ 0xffff)
    (hagree : Agree g.writes g'.writes) (hallowed : Allowed ⟨true, vs⟩ g calls)
    (htriangles : ∀ call ∈ calls, call.1.isTriangles = true) :
    Agree (run ⟨true, vs⟩ g calls).writes (run ⟨false, vs⟩ g' calls).writes := by
  induction calls generalizing g g' with
  | nil => exact hagree
  | cons call calls ih =>
      have hbound := (addIndices_le hg hallowed.1).1
      have hcall := primitiveTable_agree (htriangles call List.mem_cons_self) vs (hindex ▸ hbound)
      apply ih (congrArg (· + call.2) hindex) hbound _ hallowed.2
        (fun other hother => htriangles other (List.mem_cons_of_mem _ hother))
      have happend := Pieces.append hagree hcall
      rw [← List.map_append, ← List.map_append] at happend
      rw [addIndices, hindex]
      exact happend

theorem primitiveTable_lt (hg : g.baseIndex ≤ 0xffff) (h : call.2 ≤ g.getRemainingIndices config call.1) {v : Nat}
    (hv : Write.index v ∈ primitiveTable config call.1 call.2 g.baseIndex) :
    v < 0xffff ∧ (if config.useVSForLinePointExpand && call.1.isLineOrPoint then v / 4 else v) < g.baseIndex + call.2 := by
  obtain ⟨hplain, hexpanded⟩ := addIndices_le hg h
  have hrange := primitiveTable_inRange config call.1 call.2 g.baseIndex v hv
  by_cases hvs : (config.useVSForLinePointExpand && call.1.isLineOrPoint) = true
  · rw [if_pos hvs] at hrange ⊢
    by_cases hnone : call.2 = 0
    · rw [hnone, primitiveTable_zero _ hvs] at hv
      cases hv
    · have hquarter := hexpanded hvs hnone
      omega
  · rw [if_neg hvs] at hrange ⊢
    omega

/-- With restart and without it the same oriented triangles are drawn, and every index names a vertex that was added, by
itself or, where lines and points are expanded, with the corner in its two low bits. -/
theorem restart_agrees {vs : Bool} {calls : List (Primitive × Nat)} (hallowed : Allowed ⟨true, vs⟩ start calls) :
    ((∀ call ∈ calls, call.1.isTriangles = true) →
      List.Forall₂ Triangle.Same (restartTriangles sPrimitiveRestart [] (run ⟨true, vs⟩ start calls).buffer)
        (listTriangles (run ⟨false, vs⟩ start calls).buffer)) ∧
    ∀ (pr : Bool) (before : List (Primitive × Nat)) (call : Primitive × Nat) (after : List (Primitive × Nat)) (v : Nat),
      calls = before ++ call :: after →
      Write.index v ∈ primitiveTable ⟨pr, vs⟩ call.1 call.2 (run ⟨pr, vs⟩ start before).baseIndex →
      (Write.index v).stored ≠ sPrimitiveRestart ∧ (Write.index v).stored.toNat = v ∧
        (if vs && call.1.isLineOrPoint then v / 4 else v) < (run ⟨pr, vs⟩ start (before ++ [call])).baseIndex := by
  constructor
  · intro htriangles
    exact (run_agree rfl (Nat.zero_le _) Agree.nil hallowed htriangles).triangles
  · rintro pr before call after v rfl hv
    obtain ⟨hbefore, hcall⟩ := hallowed.split
    have hbase : (run ⟨true, vs⟩ start before).baseIndex = (run ⟨pr, vs⟩ start before).baseIndex :=
      run_baseIndex true pr vs rfl
    have hle : (run ⟨pr, vs⟩ start before).baseIndex ≤ 0xffff := hbase ▸ run_baseIndex_le (Nat.zero_le _) hbefore
    rw [getRemainingIndices_congr true pr vs hbase] at hcall
    obtain ⟨hlt, hvertex⟩ := primitiveTable_lt hle hcall hv
    rw [run_concat]
    refine ⟨(ix_ne_restart hlt).symm, ?_, hvertex⟩
    rw [stored_index, ix, UInt16.toNat_ofNat', Nat.mod_eq_of_lt (by omega)]

/-- Seven vertices of quads leave a triangle over. -/
theorem restart_agrees_mixed : Allowed ⟨true, true⟩ start [(.quads, 7), (.triangleFan, 6), (.triangleStrip, 4)] ∧
    List.Forall₂ Triangle.Same
      (restartTriangles sPrimitiveRestart []
        (run ⟨true, true⟩ start [(.quads, 7), (.triangleFan, 6), (.triangleStrip, 4)]).buffer)
      (listTriangles (run ⟨false, true⟩ start [(.quads, 7), (.triangleFan, 6), (.triangleStrip, 4)]).buffer) := by
  have hallowed : Allowed ⟨true, true⟩ start [(.quads, 7), (.triangleFan, 6), (.triangleStrip, 4)] := by
    simp [Allowed, getRemainingIndices, addIndices, start, Primitive.isLineOrPoint]
  exact ⟨hallowed, (restart_agrees hallowed).1 (by decide)⟩

/-- A point that is expanded has four indices, though only one vertex was added. -/
theorem expanded_point : ∃ (config : Config) (calls : List (Primitive × Nat)), Allowed config start calls ∧
    ∃ v, Write.index v ∈ (run config start calls).writes ∧ (run config start calls).baseIndex ≤ v := by
  refine ⟨⟨true, true⟩, [(.points, 1)], ?_, 3, by decide, by decide⟩
  simp [Allowed, getRemainingIndices, start, Primitive.isLineOrPoint]

end IndexGenerator

end Karphin.VideoCommon
