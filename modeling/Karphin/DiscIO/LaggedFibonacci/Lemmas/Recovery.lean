import Karphin.DiscIO.LaggedFibonacci.Lemmas.Words

/-!
# The output of the generator

All functions that give output or skip it move along one stream.
-/

namespace Karphin.DiscIO.LaggedFibonacciGenerator

open Lib (Cursor)
open Lib.Cursor (ext')

abbrev skip (g : LaggedFibonacciGenerator) (n : Nat) : LaggedFibonacciGenerator := g.advance Buffer.forward n

abbrev bytes (g : LaggedFibonacciGenerator) (n : Nat) : List UInt8 := g.take Buffer.forward Buffer.byteAt n

variable {g : LaggedFibonacciGenerator}

theorem moveTo_eq {n : Nat} (h : g.position + n ≤ lfgBytes) : g.moveTo (g.position + n) = g.skip n := by
  rw [moveTo]
  split
  · next hlt => exact (g.advance_within hlt).symm
  · next hge => exact (g.advance_end (by omega)).symm

theorem getBytes_eq (count : Nat) (g : LaggedFibonacciGenerator) : getBytes count g = (g.bytes count, g.skip count) := by
  induction count, g using getBytes.induct with
  | case1 g => simp [getBytes]
  | case2 count g hcount length rest g' _ ih =>
      have hpos := g.position.2
      have hle : g.position + length ≤ lfgBytes := by omega
      have hsplit : length + (count - length) = count := by omega
      have hout : (List.range length).map (fun i => g.block.byteAt (g.position + i)) = g.bytes length :=
        (g.take_within hle).symm
      have hnext : getBytes (count - length) (g.skip length) =
          ((g.skip length).bytes (count - length), g.skip count) := by
        rw [← moveTo_eq hle, ih, moveTo_eq hle, skip, skip, Cursor.advance_advance, hsplit]
      have htake : g.bytes count = g.bytes length ++ (g.skip length).bytes (count - length) := by
        rw [bytes, bytes, bytes, ← Cursor.take_add, hsplit]
      rw [getBytes, if_neg hcount]
      simp only
      rw [moveTo_eq hle, hnext, hout, htake]

theorem getByte_eq : g.getByte = (g.read Buffer.forward Buffer.byteAt 0, g.skip 1) := by
  have hpos := g.position.2
  rw [getByte, moveTo_eq (by omega), Cursor.read_eq, Cursor.advance_zero]

theorem forwardFrom_eq (position : Nat) (b : Buffer) :
    forwardFrom position b = Cursor.advance Buffer.forward ⟨b, ⟨0, by decide⟩⟩ position := by
  induction position, b using forwardFrom.induct with
  | case1 position b h =>
      have hzero : (0 : Nat) + position < lfgBytes := by omega
      rw [forwardFrom, dif_pos h, Cursor.advance_within _ hzero]
      simp
  | case2 position b h ih =>
      have hsplit : lfgBytes + (position - lfgBytes) = position := by omega
      let start : LaggedFibonacciGenerator := ⟨b, ⟨0, by decide⟩⟩
      have hend : start.advance Buffer.forward lfgBytes = ⟨b.forward, ⟨0, by decide⟩⟩ :=
        start.advance_end (Nat.zero_add lfgBytes)
      rw [forwardFrom, dif_neg h, ih, ← hend, Cursor.advance_advance, hsplit]

theorem forward_eq {count : Nat} (h : g.position + count < sizeMax) : forward count g = g.skip count := by
  rw [forward, Nat.mod_eq_of_lt h, forwardFrom_eq]
  apply ext'
  · simp only [Cursor.advance, Nat.zero_add]
  · simp only [Cursor.advance, Nat.zero_add]

theorem reconstructed_spec : ∀ {data : List UInt8} {g : LaggedFibonacciGenerator},
    reconstructed data g ≤ data.length ∧ g.bytes (reconstructed data g) = data.take (reconstructed data g)
  | [], g => ⟨le_refl _, rfl⟩
  | x :: data, g => by
      rw [reconstructed]
      split
      · next hx =>
          obtain ⟨hle, heq⟩ := @reconstructed_spec data g.getByte.2
          refine ⟨Nat.succ_le_succ hle, ?_⟩
          simp only [getByte_eq] at hx heq ⊢
          rw [List.take_succ_cons, ← heq, bytes, Cursor.take_succ, hx]
      · exact ⟨Nat.zero_le _, rfl⟩

end Karphin.DiscIO.LaggedFibonacciGenerator

/-!
## The recurrence

`Initialize` computes the whole buffer from the first 17 words, whether or not it checks what stood there before.
-/

namespace Karphin.DiscIO

open Lib

def Buffer.Agree (n : Nat) (b b' : Buffer) : Prop := ∀ k < n, b k = b' k

namespace Buffer

variable {b b' : Buffer}

theorem Agree.symm {n : Nat} (h : Agree n b b') : Agree n b' b := fun k hk => (h k hk).symm

theorem Agree.trans {n : Nat} {b'' : Buffer} (h : Agree n b b') (h' : Agree n b' b'') : Agree n b b'' :=
  fun k hk => (h k hk).trans (h' k hk)

theorem Agree.forward (h : Agree lfgK b b') : Agree lfgK b.forward b'.forward := by
  intro k
  induction k using Nat.strong_induction_on with
  | _ k ih =>
      intro hk
      rw [forward_apply b, forward_apply b']
      by_cases hlow : k < lfgJ
      · rw [if_pos hlow, if_pos hlow, h k hk, h _ (by simp only [lfgK, lfgJ] at hlow ⊢; omega)]
      · rw [if_neg hlow, if_neg hlow, if_pos hk, if_pos hk, h k hk,
          ih (k - lfgJ) (by simp only [lfgJ] at hlow ⊢; omega) (by omega)]

theorem Agree.forward_iterate (h : Agree lfgK b b') : ∀ n, Agree lfgK (Buffer.forward^[n] b) (Buffer.forward^[n] b')
  | 0 => h
  | n + 1 => by
      rw [Function.iterate_succ_apply', Function.iterate_succ_apply']
      exact (h.forward_iterate n).forward

theorem Agree.backward (h : Agree lfgK b b') : Agree lfgK (Buffer.backward 0 lfgK b) (Buffer.backward 0 lfgK b') := by
  have hhigh : ∀ k < lfgK, ¬ k < lfgJ → Buffer.backward 0 lfgK b k = Buffer.backward 0 lfgK b' k := by
    intro k hk hlow
    rw [backward_apply b, backward_apply b', if_neg hlow, if_neg hlow, if_pos hk, if_pos hk, h k hk, h _ (by omega)]
  intro k hk
  by_cases hlow : k < lfgJ
  · rw [backward_apply b, backward_apply b', if_pos hlow, if_pos hlow, h k hk]
    rw [hhigh (k + (lfgK - lfgJ)) (by simp only [lfgK, lfgJ] at hlow ⊢; omega)
      (by simp only [lfgK, lfgJ]; omega)]
  · exact hhigh k hk hlow

theorem Agree.backward_iterate (h : Agree lfgK b b') : ∀ n,
    Agree lfgK ((Buffer.backward 0 lfgK)^[n] b) ((Buffer.backward 0 lfgK)^[n] b')
  | 0 => h
  | n + 1 => by
      rw [Function.iterate_succ_apply', Function.iterate_succ_apply']
      exact (h.backward_iterate n).backward

theorem Agree.map {n : Nat} (h : Agree n b b') (f : UInt32 → UInt32) : Agree n (fun k => f (b k)) (fun k => f (b' k)) :=
  fun k hk => congrArg f (h k hk)

/-! ## `Initialize` -/

theorem Agree.calculated {n : Nat} (h : Agree n b b') (hn : seedSize ≤ n) : b.calculated n = b'.calculated n := by
  simp only [seedSize] at hn
  rw [Buffer.calculated, Buffer.calculated, h _ (by omega), h _ (by omega), h _ (by omega)]

theorem Agree.update {n : Nat} {x : UInt32} (h : Agree n b b') :
    Agree (n + 1) (Function.update b n x) (Function.update b' n x) := by
  intro k hk
  by_cases hkn : k = n
  · subst hkn
    rw [Function.update_self, Function.update_self]
  · rw [Function.update_of_ne hkn, Function.update_of_ne hkn]
    exact h k (by omega)

theorem foldlM_initializeStep : ∀ {m n : Nat} {b b' r : Buffer}, seedSize ≤ n → Agree n b b' →
    (List.range' n m).foldlM (initializeStep true) b = some r →
      ∃ r', (List.range' n m).foldlM (initializeStep false) b' = some r' ∧ Agree (n + m) r r'
  | 0, n, b, b', r, _, h, hr => by
      simp only [List.range'_zero, List.foldlM_nil, Option.pure_def, Option.some.injEq] at hr
      subst hr
      exact ⟨b', rfl, h⟩
  | m + 1, n, b, b', r, hn, h, hr => by
      simp only [List.range'_succ, List.foldlM_cons, Option.bind_eq_bind, Option.bind_eq_some_iff] at hr ⊢
      obtain ⟨c, hc, hr⟩ := hr
      simp only [initializeStep, Option.ite_none_left_eq_some, Option.some.injEq] at hc
      obtain ⟨-, rfl⟩ := hc
      have hnext : Agree (n + 1) (Function.update b n (b.calculated n)) (Function.update b' n (b'.calculated n)) := by
        rw [h.calculated hn]
        exact h.update
      obtain ⟨r', hr', hagree⟩ := foldlM_initializeStep (by omega) hnext hr
      rw [Nat.add_assoc, Nat.add_comm 1 m] at hagree
      exact ⟨r', ⟨_, rfl, hr'⟩, hagree⟩

theorem initializeBuffer_agree {r : Buffer} (h : Agree seedSize b b') (hr : initializeBuffer true b = some r) :
    ∃ r', initializeBuffer false b' = some r' ∧ Agree lfgK r r' := by
  rw [initializeBuffer, Option.map_eq_some_iff] at hr
  obtain ⟨c, hc, rfl⟩ := hr
  obtain ⟨c', hc', hagree⟩ := foldlM_initializeStep (le_refl _) h hc
  refine ⟨_, ?_, (hagree.map fun x => swap32 (output x)).forward_iterate 4⟩
  rw [initializeBuffer, hc']
  rfl

end Buffer

/-! ## `SetSeed` -/

namespace LaggedFibonacciGenerator

open Buffer (Agree)

variable {g : LaggedFibonacciGenerator} {seed : Seed}

theorem readLe32_seedBytes (seed : Seed) (i : Fin seedSize) : readLe32 (seedBytes seed) (i.1 * 4) = seed[i] := by
  have hi : i.1 < seed.toList.length := by simp
  rw [seedBytes, readLe32_flatMap hi]
  simp

theorem foldl_setSeed (b : Buffer) (f : Nat → UInt32) : ∀ n k,
    ((List.range n).foldl (fun b i => Function.update b i (f i)) b) k = if k < n then f k else b k
  | 0, k => rfl
  | n + 1, k => by
      rw [List.range_succ, List.foldl_append, List.foldl_cons, List.foldl_nil]
      by_cases hk : k = n
      · subst hk
        rw [Function.update_self, if_pos (Nat.lt_succ_self k)]
      · rw [Function.update_of_ne hk, foldl_setSeed b f n k]
        exact if_congr (by omega) rfl rfl

theorem setSeed_agree {b r : Buffer} (hseed : ∀ i : Fin seedSize, b i = swap32 seed[i])
    (hr : Buffer.initializeBuffer true b = some r) :
    Agree lfgK r (g.setSeed seed).block ∧ (g.setSeed seed).position.1 = 0 := by
  have hfirst : Agree seedSize b ((List.range seedSize).foldl
      (fun b i => Function.update b i (swap32 (readLe32 (seedBytes seed) (i * 4)))) g.block) := by
    intro k hk
    rw [foldl_setSeed, if_pos hk, readLe32_seedBytes seed ⟨k, hk⟩]
    exact hseed ⟨k, hk⟩
  obtain ⟨r', hr', hagree⟩ := Buffer.initializeBuffer_agree hfirst hr
  rw [setSeed, setSeedBytes]
  simp only [hr', Option.getD_some]
  exact ⟨hagree, trivial⟩

/-! ## Generators with the same words -/

theorem bytes_agree {b b' : Buffer} (h : Agree lfgK b b') (position : Fin lfgBytes) (n : Nat) :
    bytes ⟨b, position⟩ n = bytes ⟨b', position⟩ n := by
  apply List.map_congr_left
  intro i _
  have hlt : (position + i) % lfgBytes / 4 < lfgK :=
    Nat.div_lt_of_lt_mul ((Nat.mod_lt _ (by decide)).trans_le (by decide))
  simp only [Cursor.read, Buffer.byteAt]
  rw [h.forward_iterate _ _ hlt]

theorem getSeedFromWords_some {words : List UInt32} {dataOffset : Nat} {seedOut : Seed} {b : Buffer}
    (h : getSeedFromWords words dataOffset seedOut = (seed, some b)) :
    Agree lfgK b (Buffer.forward^[dataOffset / lfgK] (g.setSeed seed).block) ∧ (g.setSeed seed).position.1 = 0 := by
  rw [getSeedFromWords] at h
  split at h
  · cases h
  · simp only [Prod.mk.injEq, Option.map_eq_some_iff] at h
    obtain ⟨hseed, r, hr, rfl⟩ := h
    rw [Buffer.reinitializeBuffer] at hseed hr
    simp only at hseed hr
    obtain ⟨hagree, hposition⟩ := @setSeed_agree g seed _ _ (fun i => by rw [← hseed]; simp) hr
    exact ⟨hagree.forward_iterate _, hposition⟩

end LaggedFibonacciGenerator

end Karphin.DiscIO

/-!
## Seeds are found

From a whole block of output `Reinitialize` gets back the words of the recurrence, but for two bits of the first one
that have no influence on the output.
-/

namespace Karphin.DiscIO

open Lib

namespace Buffer

variable {b w : Buffer}

def Recurrent (w : Buffer) : Prop := ∀ k, seedSize ≤ k → k < lfgK → w k = w.calculated k

theorem foldlM_recurrent : ∀ {m n : Nat} {b r : Buffer}, seedSize ≤ n →
    (List.range' n m).foldlM (initializeStep false) b = some r →
      Agree n b r ∧ ∀ k, n ≤ k → k < n + m → r k = r.calculated k
  | 0, n, b, r, _, hr => by
      simp only [List.range'_zero, List.foldlM_nil, Option.pure_def, Option.some.injEq] at hr
      subst hr
      exact ⟨fun _ _ => rfl, fun k h1 h2 => absurd h2 (by omega)⟩
  | m + 1, n, b, r, hn, hr => by
      simp only [List.range'_succ, List.foldlM_cons, Option.bind_eq_bind, Option.bind_eq_some_iff] at hr
      obtain ⟨c, hc, hr⟩ := hr
      simp only [initializeStep, Bool.false_and, Bool.false_eq_true, if_false, Option.some.injEq] at hc
      subst hc
      obtain ⟨hagree, hrec⟩ := foldlM_recurrent (by omega) hr
      have hfirst : Agree n b r := by
        intro k hk
        rw [← hagree k (by omega), Function.update_of_ne (by omega)]
      refine ⟨hfirst, fun k h1 h2 => ?_⟩
      by_cases hk : k = n
      · subst hk
        rw [← hagree k (by omega), Function.update_self, hfirst.calculated hn]
      · exact hrec k (by omega) (by omega)

theorem initializeBuffer_false (b : Buffer) : ∃ w, Recurrent w ∧ Agree seedSize b w ∧
    initializeBuffer false b = some (forward^[4] fun i => swap32 (output (w i))) := by
  have hsome : ∀ (l : List Nat) (b : Buffer), ∃ r, l.foldlM (initializeStep false) b = some r := by
    intro l
    induction l with
    | nil => exact fun b => ⟨b, rfl⟩
    | cons n l ih =>
        intro b
        obtain ⟨r, hr⟩ := ih (Function.update b n (b.calculated n))
        exact ⟨r, hr⟩
  obtain ⟨w, hw⟩ := hsome (List.range' seedSize (lfgK - seedSize)) b
  obtain ⟨hagree, hrec⟩ := foldlM_recurrent (le_refl _) hw
  refine ⟨w, fun k h1 h2 => hrec k h1 h2, hagree, ?_⟩
  rw [initializeBuffer, hw]
  rfl

/-! ## The words are checked -/

/-- Words that stand where the recurrence puts them, and the first one as far as it matters. -/
structure Restored (w : Buffer) (n : Nat) (b : Buffer) : Prop where
  first : ∀ i < 32, ¬ (16 ≤ i ∧ i < 18) → bit (b 0) i = bit (w 0) i
  done : ∀ k, 0 < k → k < n → b k = w k
  rest : ∀ k, n ≤ k → k < lfgK → b k = output (w k)

theorem Restored.calculated {n : Nat} (h : Restored w n b) (hn : seedSize ≤ n) :
    b.calculated n = w.calculated n := by
  have h17 : 17 ≤ n := hn
  have h16 : b (n - 16) = w (n - 16) := h.done _ (by omega) (by omega)
  have h1 : b (n - 1) = w (n - 1) := h.done _ (by omega) (by omega)
  apply bit_ext
  intro i hi
  rw [bit_calculated hi, bit_calculated hi, h16, h1]
  by_cases hfirst : n = 17
  · subst hfirst
    have := h.first (i - 23) (by omega) (by omega)
    simp only [Nat.sub_self, this]
  · rw [h.done (n - 17) (by omega) (by omega)]

theorem Restored.step {n : Nat} (h : Restored w n b) (hw : Recurrent w) (hn : seedSize ≤ n) (hlt : n < lfgK) :
    ∃ b', initializeStep true b n = some b' ∧ Restored w (n + 1) b' := by
  have hcalc : b.calculated n = w n := by rw [h.calculated hn, ← hw n hn hlt]
  have hpos : 0 < n := Nat.lt_of_lt_of_le (by decide) hn
  refine ⟨Function.update b n (w n), ?_, ?_, ?_, ?_⟩
  · rw [initializeStep, hcalc, h.rest n (le_refl n) hlt, restored_output]
    simp
  · rw [Function.update_of_ne (by omega)]
    exact h.first
  · intro k hk hkn
    by_cases heq : k = n
    · rw [heq, Function.update_self]
    · rw [Function.update_of_ne heq]
      exact h.done k hk (by omega)
  · intro k hk hkK
    rw [Function.update_of_ne (by omega)]
    exact h.rest k (by omega) hkK

theorem Restored.loop (hw : Recurrent w) : ∀ {m n : Nat} {b : Buffer}, Restored w n b → seedSize ≤ n → n + m ≤ lfgK →
    ∃ b', (List.range' n m).foldlM (initializeStep true) b = some b' ∧ Restored w (n + m) b'
  | 0, n, b, h, _, _ => ⟨b, rfl, h⟩
  | m + 1, n, b, h, hn, hle => by
      obtain ⟨c, hc, hnext⟩ := h.step hw hn (by omega)
      obtain ⟨b', hb', hend⟩ := Restored.loop (m := m) hw hnext (by omega) (by omega)
      rw [Nat.add_assoc, Nat.add_comm 1 m] at hend
      refine ⟨b', ?_, hend⟩
      rw [List.range'_succ, List.foldlM_cons, hc]
      exact hb'

theorem Restored.output (h : Restored w lfgK b) : Agree lfgK (fun k => output (b k)) (fun k => output (w k)) := by
  intro k hk
  by_cases h0 : k = 0
  · subst h0
    apply bit_ext
    intro i hi
    rw [bit_output hi, bit_output hi]
    split_ifs
    · exact h.first i hi (by omega)
    · by_cases hlt : 2 + i < 32
      · exact h.first (2 + i) hlt (by omega)
      · rw [bit_of_ge (by omega), bit_of_ge (by omega)]
  · simp only [h.done k (by omega) hk]

/-! ## `Reinitialize` -/

theorem foldl_restored (b : Buffer) : ∀ n ≤ seedSize, ∀ k, ((List.range n).foldl (fun b i =>
    Function.update b i (restored (b i) ||| (((b (i + 16) ^^^ b (i + 15)) <<< (9 : UInt32)) &&& 0x00030000))) b) k =
      if k < n then restored (b k) ||| (((b (k + 16) ^^^ b (k + 15)) <<< (9 : UInt32)) &&& 0x00030000) else b k
  | 0, _, k => rfl
  | n + 1, hn, k => by
      have ih := foldl_restored b n (by omega)
      simp only [seedSize] at hn
      rw [List.range_succ, List.foldl_append, List.foldl_cons, List.foldl_nil]
      by_cases hk : k = n
      · subst hk
        rw [Function.update_self, ih k, ih (k + 16), ih (k + 15), if_neg (by omega), if_neg (by omega),
          if_neg (by omega), if_pos (by omega)]
      · rw [Function.update_of_ne hk, ih k]
        exact if_congr (by omega) rfl rfl

theorem restored_start (hw : Recurrent w) (hb : Agree lfgK b fun k => output (w k)) :
    Restored w seedSize ((List.range seedSize).foldl (fun b i =>
      Function.update b i (restored (b i) ||| (((b (i + 16) ^^^ b (i + 15)) <<< (9 : UInt32)) &&& 0x00030000))) b) := by
  have hword : ∀ k < seedSize, b k = output (w k) ∧ b (k + 16) = output (w (k + 16)) ∧
      b (k + 15) = output (w (k + 15)) := by
    intro k hk
    simp only [seedSize] at hk
    exact ⟨hb k (by simp only [lfgK]; omega), hb _ (by simp only [lfgK]; omega), hb _ (by simp only [lfgK]; omega)⟩
  constructor
  · intro i hi hkept
    obtain ⟨h0, -, -⟩ := hword 0 (by decide)
    rw [foldl_restored b seedSize (le_refl _), if_pos (by decide), h0, restored_output, bit_or, bit_and, bit_and,
      bit_mask_kept i hi, bit_mask_lost i hi]
    grind
  · intro k hk hlt
    obtain ⟨h0, h16, h15⟩ := hword k hlt
    rw [foldl_restored b seedSize (le_refl _), if_pos hlt, h0, h16, h15]
    -- the recurrence for the word 16 places on
    have hrec := hw (k + 16) (by simp only [seedSize]; omega) (by simp only [seedSize] at hlt; simp only [lfgK]; omega)
    have h17 : k + 16 - 17 = k - 1 := by omega
    rw [calculated, h17, Nat.add_sub_cancel, show k + 16 - 1 = k + 15 by omega] at hrec
    exact restored_eq hrec
  · intro k hk hlt
    rw [foldl_restored b seedSize (le_refl _), if_neg (by omega)]
    exact hb k hlt

def SameBits (seed : Seed) (w : Buffer) : Prop :=
  ∀ i : Fin seedSize, ∀ k < 32, ¬ (i.1 = 0 ∧ 16 ≤ k ∧ k < 18) → bit (swap32 seed[i]) k = bit (w i) k

theorem reinitializeBuffer_output (hw : Recurrent w) (hb : Agree lfgK b (forward^[4] fun k => swap32 (output (w k)))) :
    ∃ r, (reinitializeBuffer b).2 = some r ∧ Agree lfgK r (forward^[4] fun k => swap32 (output (w k))) ∧
      SameBits (reinitializeBuffer b).1 w := by
  have hback := hb.backward_iterate 4
  rw [backward_forward_iterate] at hback
  have hwords : Agree lfgK (fun k => swap32 ((backward 0 lfgK)^[4] b k)) fun k => output (w k) := by
    intro k hk
    simp only [hback k hk, swap32_swap32]
  have hstart := restored_start hw hwords
  obtain ⟨c, hc, hend⟩ := hstart.loop hw (m := lfgK - seedSize) (le_refl _) (le_refl _)
  refine ⟨_, ?_, (hend.output.map swap32).forward_iterate 4, ?_⟩
  · rw [reinitializeBuffer]
    simp only
    rw [initializeBuffer, hc]
    rfl
  · intro i k hk hlost
    rw [reinitializeBuffer]
    simp only [Fin.getElem_fin, Vector.getElem_ofFn, swap32_swap32]
    by_cases hi : i.1 = 0
    · rw [hi]
      exact hstart.first k hk fun hkept => hlost ⟨hi, hkept⟩
    · rw [hstart.done i.1 (by omega) i.2]

/-! ## Part of a block -/

theorem backward_partial {m : Nat} (hm : m ≤ lfgK) (hb : ∀ k < lfgK, b k = if k < m then w.forward k else w k) :
    Agree lfgK (backward 0 m b) w := by
  have hloopEnd : max lfgJ 0 = lfgJ := rfl
  have hminK : min m lfgK = m := Nat.min_eq_left hm
  have hsum : ∀ i, i + lfgK - lfgJ = i + (lfgK - lfgJ) := fun i => Nat.add_sub_assoc (by decide) i
  -- the first loop puts back the words from `lfgJ` on
  let b1 : Buffer := fun k => if lfgJ ≤ k ∧ k < m then b k ^^^ b (k - lfgJ) else b k
  have hfirst : (List.range' lfgJ (m - lfgJ)).reverse.foldl (fun b i => b.xorWord i (i - lfgJ)) b = b1 := by
    funext k
    rw [foldl_xor_down (d := lfgJ) (by decide) lfgJ (le_refl _) (m - lfgJ) b k]
    exact if_congr (by omega) rfl rfl
  have hhigh : ∀ k < lfgK, ¬ k < lfgJ → b1 k = w k := by
    intro k hk hlow
    by_cases hkm : k < m
    · have hif : b1 k = b k ^^^ b (k - lfgJ) := if_pos ⟨by omega, hkm⟩
      rw [hif, hb k hk, if_pos hkm, hb (k - lfgJ) (by omega), if_pos (by omega), forward_apply w k, if_neg hlow, if_pos hk,
        UInt32.xor_assoc, UInt32.xor_self, UInt32.xor_zero]
    · have hif : b1 k = b k := if_neg fun h => hkm h.2
      rw [hif, hb k hk, if_neg hkm]
  have hlowWord : ∀ k < lfgJ, b1 k = if k < m then w k ^^^ w (k + (lfgK - lfgJ)) else w k := by
    intro k hk
    have hif : b1 k = b k := if_neg fun h => absurd h.1 (by omega)
    rw [hif, hb k (by simp only [lfgK, lfgJ] at hk ⊢; omega)]
    split
    · rw [forward_apply, if_pos hk]
    · rfl
  intro k hk
  rw [backward]
  simp only [hloopEnd, hminK, hfirst, hsum, Nat.sub_zero]
  rw [foldl_xor_down_above 0 (min m lfgJ) (le_trans (Nat.min_le_right m lfgJ) (by decide))]
  by_cases hlow : k < lfgJ
  · rw [hlowWord k hlow]
    by_cases hkm : k < m
    · rw [if_pos (by omega), if_pos hkm, hhigh _ (by simp only [lfgK, lfgJ] at hlow ⊢; omega)
        (by simp only [lfgK, lfgJ]; omega), UInt32.xor_assoc, UInt32.xor_self, UInt32.xor_zero]
    · rw [if_neg (by omega), if_neg hkm]
  · rw [if_neg (by omega), hhigh k hk hlow]

end Buffer

end Karphin.DiscIO
