import Karphin.Lib.FinNumerals
import Karphin.Lib.BlockStream
import Karphin.Lib.LittleEndian

/-!
# The lagged Fibonacci generator

The generator of the padding data of GameCube and Wii discs, and the reconstruction of its seed from its output. The
words of the buffer lie in memory in little endian.
-/

namespace Karphin.DiscIO

open Lib (Cursor)

def seedSize : Nat := 17
def lfgK : Nat := 521
def lfgJ : Nat := 32

def lfgBytes : Nat := lfgK * 4

theorem lfgBytes_pos : 0 < lfgBytes := by decide

def sizeMax : Nat := 2 ^ 64

def swap32 (x : UInt32) : UInt32 :=
  (x <<< (24 : UInt32)) ||| ((x <<< (8 : UInt32)) &&& 0x00FF0000) ||| ((x >>> (8 : UInt32)) &&& 0x0000FF00) |||
    (x >>> (24 : UInt32))

/-- `m_buffer`; only the indexes below `lfgK` are used. -/
abbrev Buffer := Nat → UInt32

abbrev Seed := Vector UInt32 seedSize

abbrev LaggedFibonacciGenerator := Cursor Buffer lfgBytes

/-! ## Words in memory -/

def le32 (x : UInt32) : List UInt8 := [x.toUInt8, (x >>> 8).toUInt8, (x >>> 16).toUInt8, (x >>> 24).toUInt8]

def readLe32 (bytes : List UInt8) (p : Nat) : UInt32 :=
  (bytes.getD p 0).toUInt32 ||| ((bytes.getD (p + 1) 0).toUInt32 <<< 8) |||
    ((bytes.getD (p + 2) 0).toUInt32 <<< 16) ||| ((bytes.getD (p + 3) 0).toUInt32 <<< 24)

/-- A word of an array of bytes; `none` when it does not lie in the array. -/
def wordAt (bytes : List UInt8) (p : Nat) : Option UInt32 :=
  if p + 4 ≤ bytes.length then some (readLe32 bytes p) else none

namespace Buffer

def byteAt (b : Buffer) (p : Nat) : UInt8 := (b (p / 4) >>> (8 * (p % 4)).toUInt32).toUInt8

def xorWord (b : Buffer) (i j : Nat) : Buffer := Function.update b i (b i ^^^ b j)

def forward (b : Buffer) : Buffer :=
  let b := (List.range lfgJ).foldl (fun b i => b.xorWord i (i + lfgK - lfgJ)) b
  (List.range' lfgJ (lfgK - lfgJ)).foldl (fun b i => b.xorWord i (i - lfgJ)) b

def backward (startWord endWord : Nat) (b : Buffer) : Buffer :=
  let loopEnd := max lfgJ startWord
  let b := (List.range' loopEnd (min endWord lfgK - loopEnd)).reverse.foldl (fun b i => b.xorWord i (i - lfgJ)) b
  (List.range' startWord (min endWord lfgJ - startWord)).reverse.foldl
    (fun b i => b.xorWord i (i + lfgK - lfgJ)) b

def calculated (b : Buffer) (i : Nat) : UInt32 := (b (i - 17) <<< 23) ^^^ (b (i - 16) >>> 9) ^^^ b (i - 1)

/-- What is left of a word in the output: bits 18 to 23 are where bits 16 to 21 should be. -/
def output (x : UInt32) : UInt32 := (x &&& 0xFF00FFFF) ||| ((x >>> (2 : UInt32)) &&& 0x00FF0000)

def restored (x : UInt32) : UInt32 := (x &&& 0xFF00FFFF) ||| ((x <<< (2 : UInt32)) &&& 0x00FC0000)

def initializeStep (checkExistingData : Bool) (b : Buffer) (i : Nat) : Option Buffer :=
  if checkExistingData && (b.calculated i &&& 0xFFFCFFFF) ≠ restored (b i) then none
  else some (Function.update b i (b.calculated i))

/-- `Initialize`; `none` is `false`. -/
def initializeBuffer (checkExistingData : Bool) (b : Buffer) : Option Buffer :=
  ((List.range' seedSize (lfgK - seedSize)).foldlM (initializeStep checkExistingData) b).map fun b =>
    forward^[4] fun i => swap32 (output (b i))

def reinitializeBuffer (b : Buffer) : Seed × Option Buffer :=
  let b := (backward 0 lfgK)^[4] b
  let b : Buffer := fun i => swap32 (b i)
  let b := (List.range seedSize).foldl (fun b i =>
    Function.update b i (restored (b i) ||| (((b (i + 16) ^^^ b (i + 15)) <<< (9 : UInt32)) &&& 0x00030000))) b
  (Vector.ofFn fun i : Fin seedSize => swap32 (b i), initializeBuffer true b)

end Buffer

namespace LaggedFibonacciGenerator

/-! ## Output -/

def setSeedBytes (g : LaggedFibonacciGenerator) (seed : List UInt8) : LaggedFibonacciGenerator :=
  let b := (List.range seedSize).foldl (fun b i => Function.update b i (swap32 (readLe32 seed (i * 4)))) g.block
  ⟨(Buffer.initializeBuffer false b).getD b, ⟨0, by decide⟩⟩

def seedBytes (seed : Seed) : List UInt8 := seed.toList.flatMap le32

def setSeed (g : LaggedFibonacciGenerator) (seed : Seed) : LaggedFibonacciGenerator := g.setSeedBytes (seedBytes seed)

def moveTo (g : LaggedFibonacciGenerator) (position : Nat) : LaggedFibonacciGenerator :=
  if h : position < lfgBytes then ⟨g.block, ⟨position, h⟩⟩ else ⟨g.block.forward, ⟨0, by decide⟩⟩

def getBytes (count : Nat) (g : LaggedFibonacciGenerator) : List UInt8 × LaggedFibonacciGenerator :=
  if count = 0 then ([], g)
  else
    let length := min count (lfgBytes - g.position)
    let out := (List.range length).map fun i => g.block.byteAt (g.position + i)
    let (rest, g) := getBytes (count - length) (g.moveTo (g.position + length))
    (out ++ rest, g)
termination_by count
decreasing_by
  have := g.position.2
  omega

def getByte (g : LaggedFibonacciGenerator) : UInt8 × LaggedFibonacciGenerator :=
  (g.block.byteAt g.position, g.moveTo (g.position + 1))

def forwardFrom (position : Nat) (b : Buffer) : LaggedFibonacciGenerator :=
  if h : position < lfgBytes then ⟨b, ⟨position, h⟩⟩ else forwardFrom (position - lfgBytes) b.forward
termination_by position
decreasing_by
  simp only [lfgBytes, lfgK] at h ⊢
  omega

def forward (count : Nat) (g : LaggedFibonacciGenerator) : LaggedFibonacciGenerator :=
  forwardFrom ((g.position + count) % sizeMax) g.block

/-! ## `GetSeed` -/

def alignUp (value size : Nat) : Nat :=
  let value := (value + (size - 1)) % sizeMax
  value - value % size

def looksGenerated (x : UInt32) : Bool := swap32 x &&& 0x00C00000 = (swap32 x >>> (2 : UInt32)) &&& 0x00C00000

/-- The second `GetSeed`, for the words that it copies; without a generator it is `false`. -/
def getSeedFromWords (words : List UInt32) (dataOffset : Nat) (seedOut : Seed) : Seed × Option Buffer :=
  if !words.all looksGenerated then (seedOut, none)
  else
    let offsetModK := dataOffset % lfgK
    let offsetDivK := dataOffset / lfgK
    let b : Buffer := fun i =>
      if i < offsetModK then words.getD (i + lfgK - offsetModK) 0
      else if i < lfgK then words.getD (i - offsetModK) 0
      else 0
    let b := Buffer.backward 0 offsetModK b
    let (seed, result) := ((Buffer.backward 0 lfgK)^[offsetDivK] b).reinitializeBuffer
    (seed, result.map Buffer.forward^[offsetDivK])

def reconstructed : List UInt8 → LaggedFibonacciGenerator → Nat
  | [], _ => 0
  | x :: data, g => if g.getByte.1 = x then reconstructed data g.getByte.2 + 1 else 0

/-- `GetSeed` for an array at an address: the number of bytes and the seed; `none` when a word outside of the array is
read. -/
def getSeed (address : Nat) (data : List UInt8) (dataOffset : Nat) (seedOut : Seed) : Option (Nat × Seed) :=
  if (address + sizeMax - dataOffset) % sizeMax % 4 ≠ 0 then some (0, seedOut)
  else
    let bytesToSkip := (alignUp dataOffset 4 + sizeMax - dataOffset) % sizeMax
    let u32Size := (data.length + sizeMax - bytesToSkip) % sizeMax / 4
    let u32DataOffset := (dataOffset + bytesToSkip) % sizeMax / 4
    if u32Size < lfgK then some (0, seedOut)
    else
      ((List.range lfgK).mapM fun i => wordAt data (bytesToSkip + 4 * i)).map fun words =>
        match getSeedFromWords words u32DataOffset seedOut with
        | (seed, none) => (0, seed)
        | (seed, some b) =>
            (reconstructed data ⟨b, ⟨dataOffset % lfgBytes, Nat.mod_lt _ (by decide)⟩⟩, seed)

end LaggedFibonacciGenerator

end Karphin.DiscIO

/-!
# Words of the generator

Which bits of a word are output, and which of them come back when a word that was output is moved back.
-/

namespace Karphin.DiscIO

open Lib

variable {x y : UInt32} {i : Nat}

/-! ## Masks -/

theorem bit_mask_byte2 : ∀ i < 32, bit 0x00FF0000 i = (decide (16 ≤ i) && decide (i < 24)) := by decide

theorem bit_mask_byte1 : ∀ i < 32, bit 0x0000FF00 i = (decide (8 ≤ i) && decide (i < 16)) := by decide

theorem bit_mask_rest : ∀ i < 32, bit 0xFF00FFFF i = (decide (i < 16) || decide (24 ≤ i)) := by decide

theorem bit_mask_moved : ∀ i < 32, bit 0x00FC0000 i = (decide (18 ≤ i) && decide (i < 24)) := by decide

theorem bit_mask_lost : ∀ i < 32, bit 0x00030000 i = (decide (16 ≤ i) && decide (i < 18)) := by decide

theorem bit_mask_kept : ∀ i < 32, bit 0xFFFCFFFF i = (decide (i < 16) || decide (18 ≤ i)) := by decide

theorem bit_mask_double : ∀ i < 32, bit 0x00C00000 i = (decide (22 ≤ i) && decide (i < 24)) := by decide

/-! ## Byte order -/

theorem bit_swap32 (hi : i < 32) : bit (swap32 x) i =
    if i < 8 then bit x (24 + i) else if i < 16 then bit x (8 + i) else if i < 24 then bit x (i - 8)
    else bit x (i - 24) := by
  have h24 : (24 : UInt32).toNat = 24 := rfl
  have h8 : (8 : UInt32).toNat = 8 := rfl
  have hhigh := @bit_of_ge x (24 + i)
  have hlow := @bit_of_ge x (8 + i)
  simp only [swap32, bit_or, bit_and, bit_mask_byte2 i hi, bit_mask_byte1 i hi]
  rw [bit_shiftLeft (by decide) hi, bit_shiftLeft (by decide) hi, bit_shiftRight (by decide),
    bit_shiftRight (by decide), h24, h8]
  grind

@[simp]
theorem swap32_swap32 (x : UInt32) : swap32 (swap32 x) = x := by
  apply bit_ext
  intro i hi
  rw [bit_swap32 hi]
  split_ifs
  all_goals
    rw [bit_swap32 (by omega)]
    grind

theorem swap32_xor (x y : UInt32) : swap32 (x ^^^ y) = swap32 x ^^^ swap32 y := by
  apply bit_ext
  intro i hi
  rw [bit_xor, bit_swap32 hi, bit_swap32 hi, bit_swap32 hi]
  split_ifs
  all_goals exact bit_xor

/-! ## Words in memory -/

theorem bit_low (hi : i < 32) : bit x.toUInt8.toUInt32 i = (decide (i < 8) && bit x i) := by
  rw [bit, UInt8.toBitVec_toUInt32, UInt32.toBitVec_toUInt8, BitVec.getLsbD_setWidth, BitVec.getLsbD_setWidth]
  simp [bit, hi]

theorem readLe32_le32 (x : UInt32) : readLe32 (le32 x) 0 = x := by
  have h24 : (24 : UInt32).toNat = 24 := rfl
  have h16 : (16 : UInt32).toNat = 16 := rfl
  have h8 : (8 : UInt32).toNat = 8 := rfl
  apply bit_ext
  intro i hi
  simp only [readLe32, le32, List.getD_cons_zero, List.getD_cons_succ, Nat.zero_add, bit_or]
  rw [bit_shiftLeft (by decide) hi, bit_shiftLeft (by decide) hi, bit_shiftLeft (by decide) hi, bit_low hi,
    bit_low (by omega), bit_low (by omega), bit_low (by omega), bit_shiftRight (by decide),
    bit_shiftRight (by decide), bit_shiftRight (by decide), h8, h16, h24]
  grind

theorem readLe32_eq {bytes : List UInt8} {p : Nat} (h : ∀ j < 4, bytes.getD (p + j) 0 = (le32 x).getD j 0) :
    readLe32 bytes p = x := by
  have h0 := h 0 (by decide)
  rw [Nat.add_zero] at h0
  rw [readLe32, h0, h 1 (by decide), h 2 (by decide), h 3 (by decide)]
  exact readLe32_le32 x

theorem drop_flatMap_le32 : ∀ (words : List UInt32) (i : Nat),
    (words.flatMap le32).drop (i * 4) = (words.drop i).flatMap le32
  | words, 0 => by simp
  | [], i + 1 => by simp
  | w :: words, i + 1 => by
      have hlen : (i + 1) * 4 = (le32 w).length + i * 4 := by
        simp only [le32, List.length_cons, List.length_nil]
        omega
      rw [List.flatMap_cons, hlen, List.drop_append, List.drop_succ_cons, ← drop_flatMap_le32 words i]
      simp

theorem readLe32_flatMap {words : List UInt32} (hi : i < words.length) :
    readLe32 (words.flatMap le32) (i * 4) = words[i] := by
  apply readLe32_eq
  intro j hj
  rw [List.getD_eq_getElem?_getD, ← List.getElem?_drop, drop_flatMap_le32, List.drop_eq_getElem_cons hi,
    List.flatMap_cons, List.getElem?_append_left hj, List.getD_eq_getElem?_getD]

/-! ## Output -/

namespace Buffer

theorem bit_output (hi : i < 32) :
    bit (output x) i = if i < 16 ∨ 24 ≤ i then bit x i else bit x (2 + i) := by
  have h2 : (2 : UInt32).toNat = 2 := rfl
  simp only [output, bit_or, bit_and, bit_mask_rest i hi, bit_mask_byte2 i hi]
  rw [bit_shiftRight (by decide), h2]
  grind

theorem bit_restored (hi : i < 32) :
    bit (restored x) i = if i < 16 ∨ 24 ≤ i then bit x i else if i < 18 then false else bit x (i - 2) := by
  have h2 : (2 : UInt32).toNat = 2 := rfl
  simp only [restored, bit_or, bit_and, bit_mask_rest i hi, bit_mask_moved i hi]
  rw [bit_shiftLeft (by decide) hi, h2]
  grind

theorem restored_output (x : UInt32) : restored (output x) = x &&& 0xFFFCFFFF := by
  apply bit_ext
  intro i hi
  rw [bit_restored hi, bit_and, bit_mask_kept i hi]
  split_ifs
  · rw [bit_output hi]
    grind
  · grind
  · rw [bit_output (by omega)]
    grind

theorem bit_calculated {b : Buffer} {k : Nat} (hi : i < 32) : bit (b.calculated k) i =
    ((decide (23 ≤ i) && bit (b (k - 17)) (i - 23)) ^^ bit (b (k - 16)) (9 + i) ^^ bit (b (k - 1)) i) := by
  have h23 : (23 : UInt32).toNat = 23 := rfl
  have h9 : (9 : UInt32).toNat = 9 := rfl
  rw [calculated, bit_xor, bit_xor, bit_shiftLeft (by decide) hi, bit_shiftRight (by decide), h23, h9]

theorem restored_eq {w0 w1 w16 w17 : UInt32} (h : w17 = (w0 <<< 23) ^^^ (w1 >>> 9) ^^^ w16) :
    restored (output w1) ||| (((output w17 ^^^ output w16) <<< (9 : UInt32)) &&& 0x00030000) = w1 := by
  have h23 : (23 : UInt32).toNat = 23 := rfl
  have h9 : (9 : UInt32).toNat = 9 := rfl
  apply bit_ext
  intro i hi
  rw [restored_output, bit_or, bit_and, bit_and, bit_mask_kept i hi, bit_mask_lost i hi,
    bit_shiftLeft (by decide) hi, h9]
  by_cases hlost : 16 ≤ i ∧ i < 18
  · rw [bit_xor, bit_output (by omega), bit_output (by omega), if_pos (by omega), if_pos (by omega), h, bit_xor,
      bit_xor, bit_shiftLeft (by decide) (by omega), bit_shiftRight (by decide), h23, h9]
    grind
  · grind

end Buffer

/-! ## Words that look like output -/

namespace LaggedFibonacciGenerator

theorem looksGenerated_iff : looksGenerated x = true ↔
    bit (swap32 x) 22 = bit (swap32 x) 24 ∧ bit (swap32 x) 23 = bit (swap32 x) 25 := by
  have h2 : (2 : UInt32).toNat = 2 := rfl
  have hmask : ∀ i < 32, (bit (swap32 x &&& 0x00C00000) i = bit (swap32 x >>> (2 : UInt32) &&& 0x00C00000) i ↔
      (22 ≤ i ∧ i < 24 → bit (swap32 x) i = bit (swap32 x) (2 + i))) := by
    intro i hi
    rw [bit_and, bit_and, bit_mask_double i hi, bit_shiftRight (by decide), h2]
    grind
  rw [looksGenerated, decide_eq_true_eq]
  constructor
  · intro heq
    have h22 := (hmask 22 (by decide)).mp (congrArg (bit · 22) heq) (by decide)
    have h23 := (hmask 23 (by decide)).mp (congrArg (bit · 23) heq) (by decide)
    exact ⟨h22, h23⟩
  · rintro ⟨h22, h23⟩
    apply bit_ext
    intro i hi
    rw [hmask i hi]
    intro hrange
    obtain rfl | rfl : i = 22 ∨ i = 23 := by omega
    · exact h22
    · exact h23

theorem looksGenerated_xor (hx : looksGenerated x = true) (hy : looksGenerated y = true) :
    looksGenerated (x ^^^ y) = true := by
  rw [looksGenerated_iff] at hx hy ⊢
  simp only [swap32_xor, bit_xor, hx.1, hx.2, hy.1, hy.2, and_self]

theorem looksGenerated_output (x : UInt32) : looksGenerated (swap32 (Buffer.output x)) = true := by
  rw [looksGenerated_iff, swap32_swap32, Buffer.bit_output (by decide), Buffer.bit_output (by decide),
    Buffer.bit_output (by decide), Buffer.bit_output (by decide)]
  exact ⟨rfl, rfl⟩

end LaggedFibonacciGenerator

end Karphin.DiscIO

/-!
## Blocks forward and backward

`Forward` runs up through the buffer, so that a word is changed by one that has been changed already; `Backward` runs
down and undoes it.
-/

namespace Karphin.DiscIO.Buffer

variable {b : Buffer}

theorem xorWord_self (i j : Nat) : b.xorWord i j i = b i ^^^ b j := by simp [xorWord]

theorem xorWord_ne {i j k : Nat} (h : k ≠ i) : b.xorWord i j k = b k := by simp [xorWord, h]

/-! ## Loops -/

theorem foldl_xor_above {d : Nat} (b : Buffer) (s : Nat) : ∀ n ≤ d, ∀ k,
    ((List.range' s n).foldl (fun b i => b.xorWord i (i + d)) b) k =
      if s ≤ k ∧ k < s + n then b k ^^^ b (k + d) else b k
  | 0, _, k => by
      rw [if_neg (by omega)]
      rfl
  | n + 1, hn, k => by
      have ih := foldl_xor_above (d := d) b s n (by omega)
      rw [List.range'_concat, List.foldl_append, Nat.one_mul]
      simp only [List.foldl_cons, List.foldl_nil]
      by_cases hk : k = s + n
      · subst hk
        rw [xorWord_self, ih (s + n), ih (s + n + d), if_neg (by omega), if_neg (by omega), if_pos (by omega)]
      · rw [xorWord_ne hk, ih]
        exact if_congr (by omega) rfl rfl

theorem foldl_xor_up {d : Nat} (hd : 0 < d) (b : Buffer) (s : Nat) (hs : d ≤ s) : ∀ n k,
    ((List.range' s n).foldl (fun b i => b.xorWord i (i - d)) b) k =
      if s ≤ k ∧ k < s + n then b k ^^^ ((List.range' s n).foldl (fun b i => b.xorWord i (i - d)) b) (k - d) else b k
  | 0, k => by
      rw [if_neg (by omega)]
      rfl
  | n + 1, k => by
      have ih := foldl_xor_up hd b s hs n
      rw [List.range'_concat, List.foldl_append, Nat.one_mul]
      simp only [List.foldl_cons, List.foldl_nil]
      generalize (List.range' s n).foldl (fun b i => b.xorWord i (i - d)) b = r at ih
      by_cases hk : k = s + n
      · subst hk
        rw [xorWord_self, xorWord_ne (by omega), if_pos (by omega), ih (s + n), if_neg (by omega)]
      · rw [xorWord_ne hk, ih k]
        by_cases hrange : s ≤ k ∧ k < s + n
        · rw [if_pos hrange, if_pos (by omega), xorWord_ne (by omega)]
        · rw [if_neg hrange, if_neg (by omega)]

theorem foldl_xor_down {d : Nat} (hd : 0 < d) (s : Nat) (hs : d ≤ s) : ∀ (n : Nat) (b : Buffer) (k : Nat),
    ((List.range' s n).reverse.foldl (fun b i => b.xorWord i (i - d)) b) k =
      if s ≤ k ∧ k < s + n then b k ^^^ b (k - d) else b k
  | 0, b, k => by
      rw [if_neg (by omega)]
      rfl
  | n + 1, b, k => by
      rw [List.range'_concat, List.reverse_append, Nat.one_mul]
      simp only [List.reverse_singleton, List.singleton_append, List.foldl_cons]
      rw [foldl_xor_down hd s hs n]
      by_cases hk : k = s + n
      · subst hk
        rw [if_neg (by omega), if_pos (by omega), xorWord_self]
      · rw [xorWord_ne hk]
        by_cases hrange : s ≤ k ∧ k < s + n
        · rw [if_pos hrange, if_pos (by omega), xorWord_ne (by omega)]
        · rw [if_neg hrange, if_neg (by omega)]

theorem foldl_xor_down_above {d : Nat} (s : Nat) : ∀ n ≤ d, ∀ (b : Buffer) (k : Nat),
    ((List.range' s n).reverse.foldl (fun b i => b.xorWord i (i + d)) b) k =
      if s ≤ k ∧ k < s + n then b k ^^^ b (k + d) else b k
  | 0, _, b, k => by
      rw [if_neg (by omega)]
      rfl
  | n + 1, hn, b, k => by
      rw [List.range'_concat, List.reverse_append, Nat.one_mul]
      simp only [List.reverse_singleton, List.singleton_append, List.foldl_cons]
      rw [foldl_xor_down_above s n (by omega)]
      by_cases hk : k = s + n
      · subst hk
        rw [if_neg (by omega), if_pos (by omega), xorWord_self]
      · rw [xorWord_ne hk]
        by_cases hrange : s ≤ k ∧ k < s + n
        · rw [if_pos hrange, if_pos (by omega), xorWord_ne (by omega)]
        · rw [if_neg hrange, if_neg (by omega)]

/-! ## What the loops compute -/

theorem forward_apply (b : Buffer) (k : Nat) : b.forward k =
    if k < lfgJ then b k ^^^ b (k + (lfgK - lfgJ)) else if k < lfgK then b k ^^^ b.forward (k - lfgJ) else b k := by
  let b1 : Buffer := fun k => if k < lfgJ then b k ^^^ b (k + (lfgK - lfgJ)) else b k
  have hfirst : (List.range lfgJ).foldl (fun b i => b.xorWord i (i + lfgK - lfgJ)) b = b1 := by
    funext k
    rw [List.range_eq_range']
    refine (foldl_xor_above (d := lfgK - lfgJ) b 0 lfgJ (by decide) k).trans ?_
    exact if_congr (by omega) rfl rfl
  have hforward : b.forward = (List.range' lfgJ (lfgK - lfgJ)).foldl (fun b i => b.xorWord i (i - lfgJ)) b1 := by
    rw [← hfirst]
    rfl
  have hup := foldl_xor_up (d := lfgJ) (by decide) b1 lfgJ (le_refl _) (lfgK - lfgJ) k
  have hJK : lfgJ + (lfgK - lfgJ) = lfgK := rfl
  rw [← hforward, hJK] at hup
  rw [hup]
  by_cases hlow : k < lfgJ
  · rw [if_neg (by omega), if_pos hlow]
    exact if_pos hlow
  · have hb1 : b1 k = b k := if_neg hlow
    rw [if_neg hlow, hb1]
    exact if_congr (by omega) rfl rfl

theorem backward_apply (b : Buffer) (k : Nat) : backward 0 lfgK b k =
    if k < lfgJ then b k ^^^ backward 0 lfgK b (k + (lfgK - lfgJ))
    else if k < lfgK then b k ^^^ b (k - lfgJ) else b k := by
  let b1 : Buffer := fun k => if lfgJ ≤ k ∧ k < lfgK then b k ^^^ b (k - lfgJ) else b k
  have hfirst : (List.range' lfgJ (lfgK - lfgJ)).reverse.foldl (fun b i => b.xorWord i (i - lfgJ)) b = b1 := by
    funext k
    exact foldl_xor_down (d := lfgJ) (by decide) lfgJ (le_refl _) (lfgK - lfgJ) b k
  have hbackward : ∀ k, backward 0 lfgK b k = if k < lfgJ then b1 k ^^^ b1 (k + (lfgK - lfgJ)) else b1 k := by
    intro k
    have hsum : ∀ i, i + lfgK - lfgJ = i + (lfgK - lfgJ) := fun i => Nat.add_sub_assoc (by decide) i
    have hmax : max lfgJ 0 = lfgJ := rfl
    have hminK : min lfgK lfgK = lfgK := rfl
    have hminJ : min lfgK lfgJ = lfgJ := rfl
    rw [backward]
    simp only [hmax, hminK, hminJ, hfirst, hsum, Nat.sub_zero]
    rw [foldl_xor_down_above 0 lfgJ (by decide)]
    exact if_congr (by omega) rfl rfl
  rw [hbackward k]
  by_cases hlow : k < lfgJ
  · have hhigh : ¬ k + (lfgK - lfgJ) < lfgJ := by
      simp only [lfgK, lfgJ] at hlow ⊢
      omega
    have hb1 : b1 k = b k := if_neg (by omega)
    rw [if_pos hlow, if_pos hlow, hbackward, if_neg hhigh, hb1]
  · rw [if_neg hlow, if_neg hlow]
    exact if_congr (by omega) rfl rfl

theorem backward_forward (b : Buffer) : backward 0 lfgK b.forward = b := by
  have hhigh : ∀ k, lfgJ ≤ k → backward 0 lfgK b.forward k = b k := by
    intro k hk
    rw [backward_apply, if_neg (by omega)]
    split
    · next hlt => rw [forward_apply b k, if_neg (by omega), if_pos hlt, UInt32.xor_assoc, UInt32.xor_self, UInt32.xor_zero]
    · next hge => rw [forward_apply, if_neg (by omega), if_neg hge]
  funext k
  by_cases hk : k < lfgJ
  · rw [backward_apply, if_pos hk, hhigh _ (by simp only [lfgK, lfgJ]; omega), forward_apply, if_pos hk,
      UInt32.xor_assoc, UInt32.xor_self, UInt32.xor_zero]
  · exact hhigh k (by omega)

theorem backward_forward_iterate (b : Buffer) : ∀ n, (backward 0 lfgK)^[n] (forward^[n] b) = b
  | 0 => rfl
  | n + 1 => by
      rw [Function.iterate_succ_apply, Function.iterate_succ_apply', backward_forward, backward_forward_iterate b n]

theorem eq_zero_of_forward {k : Nat} (h : ∀ k < lfgK, b.forward k = b k) (hk : k < lfgK) : b k = 0 := by
  have hxor : ∀ x y : UInt32, x ^^^ y = x → y = 0 := by
    intro x y hxy
    rw [← UInt32.zero_xor (a := y), ← UInt32.xor_self (a := x), UInt32.xor_assoc, hxy]
  by_cases hhigh : k + lfgJ < lfgK
  · have hnext := h (k + lfgJ) hhigh
    rw [forward_apply, if_neg (by omega), if_pos hhigh, Nat.add_sub_cancel, h k hk] at hnext
    exact hxor _ _ hnext
  · -- one of the last words, which are added to the first ones
    have hfirst := h (k - (lfgK - lfgJ)) (by omega)
    rw [forward_apply, if_pos (by simp only [lfgK, lfgJ] at hk ⊢; omega)] at hfirst
    have heq : k - (lfgK - lfgJ) + (lfgK - lfgJ) = k := by omega
    rw [heq] at hfirst
    exact hxor _ _ hfirst

theorem eq_zero_of_forward_zero (h : ∀ k < lfgK, b.forward k = 0) : ∀ k < lfgK, b k = 0 := by
  have hhigh : ∀ k < lfgK, ¬ k < lfgJ → b k = 0 := by
    intro k hk hlow
    have hword := h k hk
    rw [forward_apply, if_neg hlow, if_pos hk, h (k - lfgJ) (by omega), UInt32.xor_zero] at hword
    exact hword
  intro k hk
  by_cases hlow : k < lfgJ
  · have hword := h k hk
    have hlast := hhigh (k + (lfgK - lfgJ)) (by simp only [lfgK, lfgJ] at hlow ⊢; omega)
      (by simp only [lfgK, lfgJ]; omega)
    rw [forward_apply, if_pos hlow, hlast, UInt32.xor_zero] at hword
    exact hword
  · exact hhigh k hk hlow

theorem eq_zero_of_iterate_zero : ∀ (n : Nat) {b : Buffer}, (∀ k < lfgK, forward^[n] b k = 0) → ∀ k < lfgK, b k = 0
  | 0, _, h => h
  | n + 1, b, h => by
      rw [Function.iterate_succ_apply] at h
      exact eq_zero_of_forward_zero (eq_zero_of_iterate_zero n h)

end Karphin.DiscIO.Buffer
