import Karphin.DiscIO.LaggedFibonacci.Lemmas.Recovery

/-!
# Seeds reproduce the data

`GetSeed` compares the data with what the generator gives that it has reconstructed, and that generator is the one of
the seed, moved forward by the whole data offset.
-/

namespace Karphin.DiscIO.LaggedFibonacciGenerator

open Lib
open Buffer (Agree)

variable {g : LaggedFibonacciGenerator} {address dataOffset : Nat} {data : List UInt8} {seedOut seed : Seed}

/-! ## Reading the words -/

theorem mapM_wordAt {p : Nat} (h : p + lfgBytes ≤ data.length) :
    (List.range lfgK).mapM (fun i => wordAt data (p + 4 * i)) =
      some ((List.range lfgK).map fun i => readLe32 data (p + 4 * i)) := by
  apply mapM_some
  intro i hi
  have hlt := List.mem_range.mp hi
  simp only [lfgBytes] at h
  rw [wordAt, if_pos (by omega)]

/-! ## Every seed is right -/

theorem blocks_eq {skip : Nat} (hskip : skip = (4 - dataOffset % 4) % 4) (h : dataOffset % lfgBytes + 4 ≤ lfgBytes) :
    (dataOffset + skip) / 4 / lfgK = dataOffset / lfgBytes := by
  rw [Nat.div_div_eq_div_mul]
  simp only [lfgBytes, lfgK] at h ⊢
  omega

theorem alignUp_sub (h : dataOffset + 4 ≤ sizeMax) :
    (alignUp dataOffset 4 + sizeMax - dataOffset) % sizeMax = (4 - dataOffset % 4) % 4 := by
  simp only [alignUp, sizeMax] at h ⊢
  omega

theorem forward_setSeed (h : dataOffset < sizeMax) (hposition : (g.setSeed seed).position.1 = 0) :
    forward dataOffset (g.setSeed seed) =
      ⟨Buffer.forward^[dataOffset / lfgBytes] (g.setSeed seed).block,
        ⟨dataOffset % lfgBytes, Nat.mod_lt _ (by decide)⟩⟩ := by
  rw [forward_eq (by omega), skip, Cursor.advance]
  simp only [hposition, Nat.zero_add]

theorem getSeed_cases (hsize : data.length < sizeMax) (hoffset : dataOffset + 4 ≤ sizeMax)
    (hskip : (4 - dataOffset % 4) % 4 ≤ data.length) (hblock : dataOffset % lfgBytes + 4 ≤ lfgBytes) :
    (∃ seed, getSeed address data dataOffset seedOut = some (0, seed)) ∨
      ∃ seed, ∃ g' : LaggedFibonacciGenerator, getSeed address data dataOffset seedOut =
        some (reconstructed data g', seed) ∧
        ∀ g n, g'.bytes n = (getBytes n (forward dataOffset (setSeed g seed))).1 := by
  have hu32Size : (data.length + sizeMax - (4 - dataOffset % 4) % 4) % sizeMax =
      data.length - (4 - dataOffset % 4) % 4 := by
    simp only [sizeMax] at hsize ⊢
    omega
  have hu32Offset : (dataOffset + (4 - dataOffset % 4) % 4) % sizeMax =
      dataOffset + (4 - dataOffset % 4) % 4 := by
    simp only [sizeMax] at hoffset ⊢
    omega
  rw [getSeed]
  split
  · exact .inl ⟨seedOut, rfl⟩
  simp only [alignUp_sub hoffset, hu32Size, hu32Offset]
  split
  · exact .inl ⟨seedOut, rfl⟩
  next henough =>
  have hwords : (4 - dataOffset % 4) % 4 + lfgBytes ≤ data.length := by
    simp only [lfgBytes, lfgK] at henough ⊢
    omega
  rw [mapM_wordAt hwords, Option.map_some]
  split
  · next seed _ => exact .inl ⟨seed, rfl⟩
  · next seed b hfound =>
      refine .inr ⟨seed, _, rfl, fun g n => ?_⟩
      obtain ⟨hagree, hposition⟩ := @getSeedFromWords_some g seed _ _ _ _ hfound
      rw [blocks_eq rfl hblock] at hagree
      rw [getBytes_eq, forward_setSeed (by omega) hposition]
      exact bytes_agree hagree _ n

/-- All reads are within the data, and the bytes that are said to be reproduced are. -/
theorem getSeed_reproduces (hsize : data.length < sizeMax) (hoffset : dataOffset + 4 ≤ sizeMax)
    (hskip : (4 - dataOffset % 4) % 4 ≤ data.length) (hblock : dataOffset % lfgBytes + 4 ≤ lfgBytes) :
    ∃ n seed, getSeed address data dataOffset seedOut = some (n, seed) ∧ n ≤ data.length ∧
      (0 < n → ∀ g, (getBytes n (forward dataOffset (setSeed g seed))).1 = data.take n) := by
  obtain ⟨seed, hnone⟩ | ⟨seed, g', hsome, hbytes⟩ :=
    @getSeed_cases address dataOffset data seedOut hsize hoffset hskip hblock
  · exact ⟨0, seed, hnone, Nat.zero_le _, fun h => absurd h (Nat.lt_irrefl 0)⟩
  · obtain ⟨hle, htake⟩ := @reconstructed_spec data g'
    exact ⟨_, seed, hsome, hle, fun _ g => (hbytes g _).symm.trans htake⟩

/-! ## Every seed is found -/

theorem reconstructed_bytes : ∀ {data : List UInt8} {g : LaggedFibonacciGenerator},
    g.bytes data.length = data → reconstructed data g = data.length
  | [], g, _ => rfl
  | x :: data, g, h => by
      rw [List.length_cons, bytes, Cursor.take_succ] at h
      injection h with hhead htail
      rw [reconstructed, getByte_eq, if_pos hhead, reconstructed_bytes htail, List.length_cons]

def streamWord (r : Buffer) (n : Nat) : UInt32 := Buffer.forward^[n / lfgK] r (n % lfgK)

theorem readLe32_stream {r : Buffer} {p n v : Nat} (hp : p + 4 ≤ n) (hv : dataOffset + p = 4 * v) :
    readLe32 (bytes (skip ⟨r, ⟨0, by decide⟩⟩ dataOffset) n) p = streamWord r v := by
  apply readLe32_eq
  intro j hj
  have hdiv : (4 * v + j) / lfgBytes = v / lfgK := by simp only [lfgBytes, lfgK]; omega
  have hmod : (4 * v + j) % lfgBytes = 4 * (v % lfgK) + j := by simp only [lfgBytes, lfgK]; omega
  have hword : (4 * (v % lfgK) + j) / 4 = v % lfgK := by omega
  have hbyte : (4 * (v % lfgK) + j) % 4 = j := by omega
  have hget : (bytes (skip ⟨r, ⟨0, by decide⟩⟩ dataOffset) n).getD (p + j) 0 =
      (Buffer.forward^[v / lfgK] r).byteAt (4 * (v % lfgK) + j) := by
    rw [List.getD_eq_getElem?_getD, bytes, Cursor.take, List.getElem?_map, List.getElem?_range (by omega)]
    simp only [Option.map_some, Option.getD_some]
    rw [Cursor.read_advance, Cursor.read, Nat.zero_add, ← Nat.add_assoc, hv, hdiv, hmod]
  rw [hget, Buffer.byteAt, hword, hbyte, streamWord]
  interval_cases j
  · simp [le32]
  · rfl
  · rfl
  · rfl

theorem readLe32_bytes {b : Buffer} {n k : Nat} (hk : k < lfgK) (hn : lfgBytes ≤ n) :
    readLe32 (bytes ⟨b, ⟨0, by decide⟩⟩ n) (0 + 4 * k) = b k := by
  have hstart : skip ⟨b, ⟨0, by decide⟩⟩ 0 = (⟨b, ⟨0, by decide⟩⟩ : LaggedFibonacciGenerator) := Cursor.advance_zero _
  have hword := @readLe32_stream 0 b (0 + 4 * k) n k (by simp only [lfgBytes] at hn; omega) (by omega)
  rw [hstart, streamWord, Nat.div_eq_of_lt hk, Nat.mod_eq_of_lt hk] at hword
  exact hword

theorem looksGenerated_forward {b : Buffer} (h : ∀ k < lfgK, looksGenerated (b k) = true) :
    ∀ k < lfgK, looksGenerated (b.forward k) = true := by
  intro k
  induction k using Nat.strong_induction_on with
  | _ k ih =>
      intro hk
      rw [Buffer.forward_apply]
      by_cases hlow : k < lfgJ
      · rw [if_pos hlow]
        exact looksGenerated_xor (h k hk) (h _ (by simp only [lfgK, lfgJ] at hlow ⊢; omega))
      · rw [if_neg hlow, if_pos hk]
        exact looksGenerated_xor (h k hk) (ih _ (by simp only [lfgJ] at hlow ⊢; omega) (by omega))

theorem looksGenerated_iterate {b : Buffer} (h : ∀ k < lfgK, looksGenerated (b k) = true) (n : Nat) :
    ∀ k < lfgK, looksGenerated (Buffer.forward^[n] b k) = true := by
  induction n with
  | zero => exact h
  | succ n ih =>
      rw [Function.iterate_succ_apply']
      exact looksGenerated_forward ih

theorem setSeed_recurrent (g : LaggedFibonacciGenerator) (seed : Seed) : ∃ w, Buffer.Recurrent w ∧
    (∀ i : Fin seedSize, w i = swap32 (getElem seed i i.isLt)) ∧
    g.setSeed seed = ⟨Buffer.forward^[4] fun i => swap32 (Buffer.output (w i)), ⟨0, lfgBytes_pos⟩⟩ := by
  rw [setSeed, setSeedBytes]
  obtain ⟨w, hw, hagree, heq⟩ := Buffer.initializeBuffer_false ((List.range seedSize).foldl
    (fun b i => Function.update b i (swap32 (readLe32 (seedBytes seed) (i * 4)))) g.block)
  refine ⟨w, hw, fun i => ?_, ?_⟩
  · rw [← hagree i i.2, foldl_setSeed, if_pos i.2, readLe32_seedBytes]
  · simp only [heq, Option.getD_some]

theorem getSeedFromWords_complete {w : Buffer} (hw : Buffer.Recurrent w) (u : Nat) {r : Buffer}
    (hr : r = Buffer.forward^[4] fun i => swap32 (Buffer.output (w i))) :
    ∃ seed b, getSeedFromWords ((List.range lfgK).map fun k => streamWord r (u + k)) u seedOut = (seed, some b) ∧
      Agree lfgK b (Buffer.forward^[u / lfgK] r) ∧ Buffer.SameBits seed w := by
  have hK : 0 < lfgK := by decide
  have hlooks : ∀ n, looksGenerated (streamWord r n) = true := by
    intro n
    rw [streamWord, hr]
    exact looksGenerated_iterate (looksGenerated_iterate (fun k _ => looksGenerated_output _) 4) _ _ (Nat.mod_lt n hK)
  have hall : ((List.range lfgK).map fun k => streamWord r (u + k)).all looksGenerated = true := by
    rw [List.all_eq_true]
    intro x hx
    obtain ⟨k, -, rfl⟩ := List.mem_map.mp hx
    exact hlooks (u + k)
  have hm := Nat.mod_lt u hK
  have hu := Nat.div_add_mod u lfgK
  have hget : ∀ i < lfgK, ((List.range lfgK).map fun k => streamWord r (u + k)).getD i 0 = streamWord r (u + i) := by
    intro i hi
    rw [List.getD_eq_getElem?_getD, List.getElem?_map, List.getElem?_range hi]
    rfl
  let b : Buffer := fun i =>
    if i < u % lfgK then ((List.range lfgK).map fun k => streamWord r (u + k)).getD (i + lfgK - u % lfgK) 0
    else if i < lfgK then ((List.range lfgK).map fun k => streamWord r (u + k)).getD (i - u % lfgK) 0
    else 0
  -- the words before the first one are those of the next block
  have hb : ∀ k < lfgK, b k = if k < u % lfgK then (Buffer.forward^[u / lfgK] r).forward k else Buffer.forward^[u / lfgK] r k := by
    intro k hk
    by_cases hlow : k < u % lfgK
    · have hindex : u + (k + lfgK - u % lfgK) = k + lfgK * (u / lfgK + 1) := by
        rw [Nat.mul_add, Nat.mul_one]
        omega
      have hif : b k = _ := if_pos hlow
      rw [hif, hget _ (by omega), streamWord, hindex, Nat.add_mul_div_left _ _ hK, Nat.add_mul_mod_self_left,
        Nat.div_eq_of_lt hk, Nat.mod_eq_of_lt hk, Nat.zero_add, if_pos hlow, Function.iterate_succ_apply']
    · have hindex : u + (k - u % lfgK) = k + lfgK * (u / lfgK) := by omega
      have hif : b k = _ := (if_neg hlow).trans (if_pos hk)
      rw [hif, hget _ (by omega), streamWord, hindex, Nat.add_mul_div_left _ _ hK, Nat.add_mul_mod_self_left,
        Nat.div_eq_of_lt hk, Nat.mod_eq_of_lt hk, Nat.zero_add, if_neg hlow]
  have hback := (Buffer.backward_partial hm.le hb).backward_iterate (u / lfgK)
  rw [Buffer.backward_forward_iterate, hr] at hback
  obtain ⟨r', hr', hagree, hseed⟩ := Buffer.reinitializeBuffer_output hw hback
  rw [← hr] at hagree
  rw [getSeedFromWords, hall]
  simp only [Bool.not_true, Bool.false_eq_true, if_false]
  refine ⟨_, Buffer.forward^[u / lfgK] r', Prod.ext rfl ?_, hagree.forward_iterate (u / lfgK), hseed⟩
  exact congrArg (Option.map Buffer.forward^[u / lfgK]) hr'

theorem agree_of_forward {b b' : Buffer} (m : Nat) (h : Agree lfgK (Buffer.forward^[m] b) (Buffer.forward^[m] b')) :
    Agree lfgK b b' := by
  have hback := h.backward_iterate m
  rwa [Buffer.backward_forward_iterate, Buffer.backward_forward_iterate] at hback

theorem getSeed_stream {n : Nat} {w r : Buffer} (hw : Buffer.Recurrent w)
    (hr : r = Buffer.forward^[4] fun i => swap32 (Buffer.output (w i)))
    (haddress : (address + sizeMax - dataOffset) % sizeMax % 4 = 0) (hsize : n < sizeMax) (hoffset : dataOffset + 4 ≤ sizeMax)
    (hwords : (4 - dataOffset % 4) % 4 + lfgBytes ≤ n) :
    ∃ seed' b, getSeed address (bytes (skip ⟨r, ⟨0, by decide⟩⟩ dataOffset) n) dataOffset seedOut =
        some (reconstructed (bytes (skip ⟨r, ⟨0, by decide⟩⟩ dataOffset) n)
          ⟨b, ⟨dataOffset % lfgBytes, Nat.mod_lt _ (by decide)⟩⟩, seed') ∧
      Agree lfgK b (Buffer.forward^[(dataOffset + (4 - dataOffset % 4) % 4) / 4 / lfgK] r) ∧
      (∀ g' : LaggedFibonacciGenerator, Agree lfgK r (g'.setSeed seed').block ∧ (g'.setSeed seed').position.1 = 0) ∧
      Buffer.SameBits seed' w := by
  have hu32Size : (n + sizeMax - (4 - dataOffset % 4) % 4) % sizeMax = n - (4 - dataOffset % 4) % 4 := by
    simp only [sizeMax] at hsize ⊢
    omega
  have hu32Offset : (dataOffset + (4 - dataOffset % 4) % 4) % sizeMax = dataOffset + (4 - dataOffset % 4) % 4 := by
    simp only [sizeMax] at hoffset ⊢
    omega
  have hread : (List.range lfgK).map (fun i =>
      readLe32 (bytes (skip ⟨r, ⟨0, by decide⟩⟩ dataOffset) n) ((4 - dataOffset % 4) % 4 + 4 * i)) =
        (List.range lfgK).map fun k => streamWord r ((dataOffset + (4 - dataOffset % 4) % 4) / 4 + k) := by
    apply List.map_congr_left
    intro k hk
    have hlt := List.mem_range.mp hk
    simp only [lfgBytes] at hwords
    exact readLe32_stream (by omega) (by omega)
  obtain ⟨seed', b, hfound, hagree, hbits⟩ :=
    @getSeedFromWords_complete seedOut w hw ((dataOffset + (4 - dataOffset % 4) % 4) / 4) r hr
  refine ⟨seed', b, ?_, hagree, fun g' => ?_, hbits⟩
  rotate_left
  · obtain ⟨hsame, hposition⟩ := @getSeedFromWords_some g' seed' _ _ _ _ hfound
    exact ⟨agree_of_forward _ (hagree.symm.trans hsame), hposition⟩
  rw [getSeed, if_neg (by rw [haddress]; decide)]
  simp only [alignUp_sub hoffset, Cursor.length_take, hu32Size, hu32Offset]
  rw [if_neg (by simp only [lfgBytes] at hwords; omega), mapM_wordAt (by rw [Cursor.length_take]; exact hwords), hread,
    Option.map_some, hfound]

theorem getSeed_complete {m n : Nat} (haddress : address % 4 = 0) (hn : lfgBytes ≤ n) (hsize : n < sizeMax)
    (hoffset : m * lfgBytes < sizeMax) (g : LaggedFibonacciGenerator) (seed : Seed) :
    ∃ seed', getSeed address ((forward (m * lfgBytes) (g.setSeed seed)).bytes n) (m * lfgBytes) seedOut =
      some (n, seed') := by
  obtain ⟨w, hw, -, hset⟩ := setSeed_recurrent g seed
  generalize hr : (Buffer.forward^[4] fun i => swap32 (Buffer.output (w i))) = r at hset
  have hmod : m * lfgBytes % lfgBytes = 0 := Nat.mul_mod_left m lfgBytes
  have hwordOffset : m * lfgBytes = m * lfgK * 4 := (Nat.mul_assoc ..).symm
  have hmod4 : m * lfgBytes % 4 = 0 := by rw [hwordOffset, Nat.mul_mod_left]
  have hblock : (m * lfgBytes + (4 - m * lfgBytes % 4) % 4) / 4 / lfgK = m := by
    rw [hmod4, Nat.add_zero, hwordOffset, Nat.mul_div_cancel _ (by decide), Nat.mul_div_cancel _ (by decide)]
  obtain ⟨seed', b, hget, hagree, -, -⟩ := @getSeed_stream address (m * lfgBytes) seedOut n w r hw hr.symm
    (by simp only [sizeMax] at hoffset ⊢; omega) hsize (by simp only [sizeMax] at hoffset ⊢; omega) (by rw [hmod4]; omega)
  have hforward : forward (m * lfgBytes) (g.setSeed seed) = skip ⟨r, ⟨0, by decide⟩⟩ (m * lfgBytes) := by
    rw [forward_eq (by rw [hset]; exact (Nat.zero_add _).trans_lt hoffset), hset]
  have hskip : skip ⟨r, ⟨0, by decide⟩⟩ (m * lfgBytes) = ⟨Buffer.forward^[m] r, ⟨0, by decide⟩⟩ := by
    apply Cursor.ext'
    · simp only [Cursor.advance, Nat.zero_add, Nat.mul_div_cancel m (by decide : 0 < lfgBytes)]
    · simp only [Cursor.advance, Nat.zero_add, hmod]
  rw [hblock] at hagree
  have hall := @reconstructed_bytes (bytes ⟨Buffer.forward^[m] r, ⟨0, by decide⟩⟩ n) ⟨b, ⟨0, by decide⟩⟩
    (by rw [Cursor.length_take]; exact bytes_agree hagree ⟨0, by decide⟩ n)
  rw [Cursor.length_take] at hall
  refine ⟨seed', ?_⟩
  rw [hforward, hget]
  simp only [hmod, hskip, hall]

/-! ## Offsets in later blocks -/

def emptyGenerator : LaggedFibonacciGenerator := ⟨fun _ => 0, ⟨0, lfgBytes_pos⟩⟩

def oneSeed : Seed := Vector.ofFn fun i => if i.1 = 0 then swap32 1 else 0

def secondBlock : List UInt8 := (forward lfgBytes (emptyGenerator.setSeed oneSeed)).bytes lfgBytes

theorem secondBlock_ne : ∃ k < lfgK, readLe32 secondBlock (0 + 4 * k) ≠ 0 := by
  by_contra hnone
  have hall : ∀ k < lfgK, readLe32 secondBlock (0 + 4 * k) = 0 := by
    intro k hk
    by_contra hne
    exact hnone ⟨k, hk, hne⟩
  obtain ⟨w, -, hfirst, hset⟩ := setSeed_recurrent emptyGenerator oneSeed
  have hforward : forward lfgBytes (emptyGenerator.setSeed oneSeed) =
      ⟨Buffer.forward^[1 + 4] fun i => swap32 (Buffer.output (w i)), ⟨0, by decide⟩⟩ := by
    have hdiv : lfgBytes / lfgBytes = 1 := by decide
    have hmod : lfgBytes % lfgBytes = 0 := by decide
    rw [forward_setSeed (by decide) (by rw [hset]), hset, Function.iterate_add_apply]
    simp only [hdiv, hmod]
  have hzero : ∀ k < lfgK, Buffer.forward^[1 + 4] (fun i => swap32 (Buffer.output (w i))) k = 0 := by
    intro k hk
    rw [← hall k hk, secondBlock, hforward, readLe32_bytes hk (le_refl _)]
  have hword := Buffer.eq_zero_of_iterate_zero _ hzero 0 (by decide)
  have hone := hfirst ⟨0, by decide⟩
  have hseed : oneSeed[(⟨0, by decide⟩ : Fin seedSize)] = swap32 1 := by decide
  rw [hseed, swap32_swap32] at hone
  simp only [hone] at hword
  revert hword
  decide

set_option maxRecDepth 4000 in
/-- With a data offset in the second block the generator must be moved forward by all of it. Where fewer bytes are
there than are skipped, words behind the data are read. -/
theorem secondBlock_lost : getSeed 1 [] 1 oneSeed = none ∧
    ∃ n seed, getSeed 0 secondBlock lfgBytes oneSeed = some (n, seed) ∧ 0 < n ∧
      (getBytes n (forward (lfgBytes % lfgBytes) (emptyGenerator.setSeed seed))).1 ≠ secondBlock.take n := by
  constructor
  · decide
  have hlen : secondBlock.length = lfgBytes := Cursor.length_take _ _
  obtain ⟨seed, hget⟩ := @getSeed_complete 0 oneSeed 1 lfgBytes rfl (le_refl _) (by decide) (by decide)
    emptyGenerator oneSeed
  rw [Nat.one_mul, ← secondBlock.eq_1] at hget
  refine ⟨lfgBytes, seed, hget, by decide, ?_⟩
  obtain ⟨seed', hnone⟩ | ⟨seed', g', hsome, hbytes⟩ := @getSeed_cases 0 lfgBytes secondBlock oneSeed
    (by rw [hlen]; decide) (by decide) (Nat.zero_le _) (by decide)
  · rw [hnone] at hget
    cases hget
  rw [hsome, Option.some.injEq, Prod.mk.injEq] at hget
  obtain ⟨hcount, rfl⟩ := hget
  have htake : secondBlock.take lfgBytes = secondBlock := List.take_of_length_le (le_of_eq hlen)
  have hsecond := (@reconstructed_spec secondBlock g').2
  rw [hcount, hbytes emptyGenerator, htake] at hsecond
  rw [htake]
  intro hfirst
  obtain ⟨w, -, -, hset⟩ := setSeed_recurrent emptyGenerator seed'
  generalize (Buffer.forward^[4] fun i => swap32 (Buffer.output (w i))) = r at hset
  have hdiv : lfgBytes % lfgBytes / lfgBytes = 0 ∧ lfgBytes / lfgBytes = 1 := by decide
  have hmod : lfgBytes % lfgBytes % lfgBytes = 0 ∧ lfgBytes % lfgBytes = 0 := by decide
  rw [getBytes_eq, forward_setSeed (by decide) (by rw [hset]), hset] at hfirst hsecond
  simp only [hdiv.1, hmod.1, Function.iterate_zero, id] at hfirst
  simp only [hdiv.2, hmod.2, Function.iterate_one] at hsecond
  -- both blocks would be the same, and only an empty block is followed by itself
  have hr : ∀ k < lfgK, r k = readLe32 secondBlock (0 + 4 * k) := by
    intro k hk
    rw [← hfirst]
    exact (readLe32_bytes hk (le_refl _)).symm
  have hnext : ∀ k < lfgK, r.forward k = readLe32 secondBlock (0 + 4 * k) := by
    intro k hk
    rw [← hsecond]
    exact (readLe32_bytes hk (le_refl _)).symm
  obtain ⟨k, hk, hne⟩ := secondBlock_ne
  apply hne
  rw [← hr k hk]
  exact Buffer.eq_zero_of_forward (fun j hj => (hnext j hj).trans (hr j hj).symm) hk

/-- The whole second block is reproduced when the generator is moved to it. -/
theorem secondBlock_reproduced : ∃ seed, getSeed 0 secondBlock lfgBytes oneSeed = some (lfgBytes, seed) ∧
    (getBytes lfgBytes (forward lfgBytes (emptyGenerator.setSeed seed))).1 = secondBlock.take lfgBytes := by
  have hlen : secondBlock.length = lfgBytes := Cursor.length_take _ _
  obtain ⟨seed, hget⟩ := @getSeed_complete 0 oneSeed 1 lfgBytes rfl (le_refl _) (by decide) (by decide)
    emptyGenerator oneSeed
  rw [Nat.one_mul, ← secondBlock.eq_1] at hget
  obtain ⟨n, seed', hsome, -, hbytes⟩ := @getSeed_reproduces 0 lfgBytes secondBlock oneSeed (by rw [hlen]; decide)
    (by decide) (Nat.zero_le _) (by decide)
  rw [hget, Option.some.injEq, Prod.mk.injEq] at hsome
  obtain ⟨rfl, rfl⟩ := hsome
  exact ⟨seed, hget, hbytes (by decide) emptyGenerator⟩

/-! ## When the seed is recovered -/

def Recovers (seed seed' : Seed) : Prop :=
  (∀ (g : LaggedFibonacciGenerator) n, (getBytes n (g.setSeed seed')).1 = (getBytes n (g.setSeed seed)).1) ∧
    Buffer.SameBits seed' fun i => if h : i < seedSize then swap32 seed[i] else 0

theorem recurrent_agree {w w' : Buffer} (hw : Buffer.Recurrent w) (hw' : Buffer.Recurrent w') (h : Agree seedSize w w') :
    Agree lfgK w w' := by
  intro k
  induction k using Nat.strong_induction_on with
  | _ k ih =>
      intro hk
      by_cases hfirst : k < seedSize
      · exact h k hfirst
      · have hbefore : Agree k w w' := fun j hj => ih j hj (by omega)
        rw [hw k (by omega) hk, hw' k (by omega) hk, hbefore.calculated (by omega)]

theorem setSeed_block_agree (g g' : LaggedFibonacciGenerator) (seed : Seed) :
    Agree lfgK (g.setSeed seed).block (g'.setSeed seed).block := by
  obtain ⟨w, hw, hfirst, hset⟩ := setSeed_recurrent g seed
  obtain ⟨w', hw', hfirst', hset'⟩ := setSeed_recurrent g' seed
  have hwords : Agree seedSize w w' := by
    intro k hk
    have hk' := hfirst ⟨k, hk⟩
    rw [← hfirst' ⟨k, hk⟩] at hk'
    exact hk'
  have hmap : Agree lfgK (fun i => swap32 (Buffer.output (w i))) fun i => swap32 (Buffer.output (w' i)) :=
    (recurrent_agree hw hw' hwords).map fun x => swap32 (Buffer.output x)
  have hblock := hmap.forward_iterate 4
  rw [hset, hset']
  generalize Buffer.forward^[4] (fun i => swap32 (Buffer.output (w i))) = r at hblock ⊢
  generalize Buffer.forward^[4] (fun i => swap32 (Buffer.output (w' i))) = r' at hblock ⊢
  exact hblock

theorem bytes_of_agree {g g' : LaggedFibonacciGenerator} (h : Agree lfgK g.block g'.block) (hp : g.position = g'.position)
    (n : Nat) : g.bytes n = g'.bytes n := by
  obtain ⟨b, position⟩ := g
  obtain ⟨b', position'⟩ := g'
  cases hp
  exact bytes_agree h position n

theorem bytes_zero {b : Buffer} (h : ∀ k < lfgK, b k = 0) (position : Fin lfgBytes) (n : Nat) :
    ∀ x ∈ bytes ⟨b, position⟩ n, x = 0 := by
  have hforward : Buffer.forward (fun _ => 0) = fun _ => 0 := by
    funext k
    induction k using Nat.strong_induction_on with
    | _ k ih =>
        rw [Buffer.forward_apply]
        split
        · rfl
        · split
          · rw [ih (k - lfgJ) (by simp only [lfgJ] at *; omega)]
            rfl
          · rfl
  have hzero : Agree lfgK b fun _ => 0 := h
  rw [bytes_agree hzero position n]
  intro x hx
  obtain ⟨i, -, rfl⟩ := List.mem_map.mp hx
  rw [Cursor.read, Function.iterate_fixed hforward, Buffer.byteAt]
  simp

theorem readLe32_zero {p : Nat} (h : ∀ x ∈ data, x = 0) : readLe32 data p = 0 := by
  apply readLe32_eq
  intro j hj
  have hzero : ∀ q, data.getD q 0 = 0 := by
    intro q
    rw [List.getD_eq_getElem?_getD]
    cases hget : data[q]? with
    | none => rfl
    | some x => exact h x (List.mem_of_getElem? hget)
  rw [hzero]
  match j, hj with
  | 0, _ | 1, _ | 2, _ | 3, _ => rfl

theorem getSeed_stream_iff {n : Nat} (g : LaggedFibonacciGenerator) (seed seedOut : Seed)
    (haddress : (address + sizeMax - dataOffset) % sizeMax % 4 = 0) (hsize : n < sizeMax) (hoffset : dataOffset + 4 ≤ sizeMax)
    (hwords : (4 - dataOffset % 4) % 4 + lfgBytes ≤ n) :
    let data := (getBytes n (forward dataOffset (g.setSeed seed))).1
    (∃ seed', getSeed address data dataOffset seedOut = some (n, seed') ∧ Recovers seed seed') ↔
      dataOffset % lfgBytes + 4 ≤ lfgBytes ∨ ∀ x ∈ data, x = 0 := by
  intro data
  obtain ⟨w, hw, hfirst, hset⟩ := setSeed_recurrent g seed
  generalize hr : (Buffer.forward^[4] fun i => swap32 (Buffer.output (w i))) = r at hset
  obtain ⟨seed', b, hget, hagree, hsame, hbits⟩ :=
    @getSeed_stream address dataOffset seedOut n w r hw hr.symm haddress hsize hoffset hwords
  have hdata : data = bytes (skip ⟨r, ⟨0, by decide⟩⟩ dataOffset) n := by
    simp only [data]
    rw [getBytes_eq, forward_eq (by rw [hset]; exact (Nat.zero_add _).trans_lt (by omega)), hset]
  have hlength : data.length = n := by rw [hdata, Cursor.length_take]
  have hposition : skip ⟨r, ⟨0, by decide⟩⟩ dataOffset =
      ⟨Buffer.forward^[dataOffset / lfgBytes] r, ⟨dataOffset % lfgBytes, Nat.mod_lt _ (by decide)⟩⟩ := by
    apply Cursor.ext'
    · simp only [Cursor.advance, Nat.zero_add]
    · simp only [Cursor.advance, Nat.zero_add]
  have hrecovers : Recovers seed seed' := by
    refine ⟨fun g' m => ?_, fun i k hk hlost => ?_⟩
    · have hblock : Agree lfgK (g'.setSeed seed').block (g'.setSeed seed).block := by
        have hown := setSeed_block_agree g g' seed
        rw [hset] at hown
        exact (hsame g').1.symm.trans hown
      have hstart : (g'.setSeed seed).position.1 = 0 := by
        obtain ⟨w', -, -, hset'⟩ := setSeed_recurrent g' seed
        rw [hset']
      rw [getBytes_eq, getBytes_eq]
      exact bytes_of_agree hblock (Fin.ext ((hsame g').2.trans hstart.symm)) m
    · have hword : (if h : i.1 < seedSize then swap32 seed[i.1] else 0) = w i := by
        rw [dif_pos i.2, hfirst i]
        rfl
      rw [hbits i k hk hlost]
      exact congrArg (bit · k) hword.symm
  rw [← hdata] at hget
  -- the seed is recovered when the comparison goes to the end
  have hiff : (∃ seed', getSeed address data dataOffset seedOut = some (n, seed') ∧ Recovers seed seed') ↔
      bytes ⟨b, ⟨dataOffset % lfgBytes, Nat.mod_lt _ (by decide)⟩⟩ n = data := by
    constructor
    · rintro ⟨seed'', hsome, -⟩
      rw [hget, Option.some.injEq, Prod.mk.injEq] at hsome
      have hspec := (@reconstructed_spec data ⟨b, ⟨dataOffset % lfgBytes, Nat.mod_lt _ (by decide)⟩⟩).2
      rwa [hsome.1, List.take_of_length_le (by rw [hlength])] at hspec
    · intro hall
      refine ⟨seed', ?_, hrecovers⟩
      rw [hget, reconstructed_bytes (by rw [hlength]; exact hall), hlength]
  rw [hiff]
  by_cases hblock : dataOffset % lfgBytes + 4 ≤ lfgBytes
  · rw [blocks_eq rfl hblock] at hagree
    rw [hdata, hposition]
    exact ⟨fun _ => .inl hblock, fun _ => bytes_agree hagree _ n⟩
  · -- the first word begins the next block
    have hnext : (dataOffset + (4 - dataOffset % 4) % 4) / 4 / lfgK = dataOffset / lfgBytes + 1 := by
      rw [Nat.div_div_eq_div_mul]
      simp only [lfgBytes, lfgK] at hblock ⊢
      omega
    rw [hnext] at hagree
    generalize hX : Buffer.forward^[dataOffset / lfgBytes + 1] r = X at hagree
    -- the words of the data, whichever block the output begins with
    have hread : ∀ r', ∀ k < lfgK, readLe32 (bytes (skip ⟨r', ⟨0, by decide⟩⟩ dataOffset) n) ((4 - dataOffset % 4) % 4 + 4 * k) =
        Buffer.forward^[dataOffset / lfgBytes + 1] r' k := by
      intro r' k hk
      have hv : dataOffset + ((4 - dataOffset % 4) % 4 + 4 * k) = 4 * ((dataOffset + (4 - dataOffset % 4) % 4) / 4 + k) := by
        omega
      have hindex : (dataOffset + (4 - dataOffset % 4) % 4) / 4 + k = k + lfgK * (dataOffset / lfgBytes + 1) := by
        simp only [lfgBytes, lfgK] at hblock ⊢
        omega
      rw [readLe32_stream (by simp only [lfgBytes] at hwords; omega) hv, hindex, streamWord,
        Nat.add_mul_div_left _ _ (by decide), Nat.add_mul_mod_self_left, Nat.div_eq_of_lt hk, Nat.mod_eq_of_lt hk,
        Nat.zero_add]
    have hword : ∀ k < lfgK, readLe32 data ((4 - dataOffset % 4) % 4 + 4 * k) = X k := by
      intro k hk
      rw [hdata, hread r k hk, hX]
    have hempty : (∀ k < lfgK, X k = 0) → ∀ x ∈ data, x = 0 := by
      intro hzero
      rw [hdata, hposition]
      rw [← hX] at hzero
      have hblocks := Buffer.eq_zero_of_forward_zero
        (fun k hk => (congrFun (Function.iterate_succ_apply' Buffer.forward (dataOffset / lfgBytes) r) k).symm.trans (hzero k hk))
      exact bytes_zero hblocks _ n
    constructor
    · intro hall
      right
      apply hempty
      -- the next block and the one after it are the same
      have hshifted : data = bytes (skip ⟨r.forward, ⟨0, by decide⟩⟩ dataOffset) n := by
        have hskip : skip ⟨r.forward, ⟨0, by decide⟩⟩ dataOffset =
            ⟨X, ⟨dataOffset % lfgBytes, Nat.mod_lt _ (by decide)⟩⟩ := by
          apply Cursor.ext'
          · simp only [Cursor.advance, Nat.zero_add]
            rw [← hX, Function.iterate_succ_apply]
          · simp only [Cursor.advance, Nat.zero_add]
        rw [hskip, ← hall]
        exact bytes_agree hagree _ n
      have hsame : ∀ k < lfgK, X.forward k = X k := by
        intro k hk
        have hnextWord := hread r.forward k hk
        rw [← hshifted, hword k hk, ← Function.iterate_succ_apply, Function.iterate_succ_apply', hX] at hnextWord
        exact hnextWord.symm
      exact fun k hk => Buffer.eq_zero_of_forward hsame hk
    · rintro (hin | hzero)
      · exact absurd hin hblock
      · have hX0 : ∀ k < lfgK, X k = 0 := fun k hk => (hword k hk).symm.trans (readLe32_zero hzero)
        have hblocks : ∀ k < lfgK, Buffer.forward^[dataOffset / lfgBytes] r k = 0 :=
          Buffer.eq_zero_of_forward_zero fun k hk =>
            (congrFun ((Function.iterate_succ_apply' Buffer.forward (dataOffset / lfgBytes) r).symm.trans hX) k).trans (hX0 k hk)
        have hboth : Agree lfgK b (Buffer.forward^[dataOffset / lfgBytes] r) := fun k hk =>
          ((hagree k hk).trans (hX0 k hk)).trans (hblocks k hk).symm
        rw [hdata, hposition]
        exact bytes_agree hboth _ n

/-- `Backward` undoes `Forward`, and `GetSeed` recovers the seed of data that holds a whole block of words, unless the data
begins in the last three bytes of a block and is not empty. -/
theorem getSeed_recovers_iff (b : Buffer) (address dataOffset n : Nat) (g : LaggedFibonacciGenerator) (seed seedOut : Seed) :
    Buffer.backward 0 lfgK b.forward = b ∧
    ((address + sizeMax - dataOffset) % sizeMax % 4 = 0 → n < sizeMax → dataOffset + 4 ≤ sizeMax →
      (4 - dataOffset % 4) % 4 + lfgBytes ≤ n →
      let data := (getBytes n (forward dataOffset (g.setSeed seed))).1
      ((∃ seed', getSeed address data dataOffset seedOut = some (n, seed') ∧ Recovers seed seed') ↔
        dataOffset % lfgBytes + 4 ≤ lfgBytes ∨ ∀ x ∈ data, x = 0)) :=
  ⟨Buffer.backward_forward b, fun haddress hsize hoffset hwords =>
    getSeed_stream_iff g seed seedOut haddress hsize hoffset hwords⟩

/-- The last byte of the first block and the second block. -/
theorem last_byte_lost : ¬ ∃ seed', getSeed 3 (getBytes (1 + lfgBytes) (forward 2083 (emptyGenerator.setSeed oneSeed))).1 2083
    oneSeed = some (1 + lfgBytes, seed') ∧ Recovers oneSeed seed' := by
  intro h
  obtain ⟨w, -, -, hset⟩ := setSeed_recurrent emptyGenerator oneSeed
  have hposition : (emptyGenerator.setSeed oneSeed).position.1 = 0 := by rw [hset]
  rcases (getSeed_stream_iff emptyGenerator oneSeed oneSeed (by decide) (by decide) (by decide) (by decide)).mp h with
    hblock | hzero
  · revert hblock
    decide
  · have hsecond : secondBlock = bytes (skip (skip (emptyGenerator.setSeed oneSeed) 2083) 1) lfgBytes := by
      rw [secondBlock, forward_eq (by rw [hposition]; decide), skip, skip, skip, Cursor.advance_advance]
      rfl
    have hmem : ∀ x ∈ secondBlock, x = 0 := by
      intro x hx
      apply hzero x
      rw [hsecond] at hx
      rw [getBytes_eq, forward_eq (by rw [hposition]; decide), bytes, Cursor.take_add]
      exact List.mem_append_right _ hx
    obtain ⟨k, -, hne⟩ := secondBlock_ne
    exact hne (readLe32_zero hmem)

theorem second_block_recovered : ∃ seed', getSeed 0 (getBytes lfgBytes (forward lfgBytes (emptyGenerator.setSeed oneSeed))).1
    lfgBytes oneSeed = some (lfgBytes, seed') ∧ Recovers oneSeed seed' :=
  ((getSeed_recovers_iff (fun _ => 0) 0 lfgBytes lfgBytes emptyGenerator oneSeed oneSeed).2 (by decide) (by decide)
    (by decide) (by decide)).mpr (.inl (by decide))

end Karphin.DiscIO.LaggedFibonacciGenerator
