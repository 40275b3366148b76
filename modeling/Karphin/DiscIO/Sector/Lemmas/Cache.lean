import Karphin.Lib.FinNumerals

/-!
# Reading a disc image in sectors

`SectorReader`: byte ranges are read from a cache of 32 lines, each of which holds a chunk of blocks.
-/

namespace Karphin.DiscIO

def u32Max : Nat := 2 ^ 32
def u64Max : Nat := 2 ^ 64

def store (buffer : List UInt8) (offset : Nat) (bytes : List UInt8) : List UInt8 :=
  buffer.take offset ++ bytes ++ buffer.drop (offset + bytes.length)

/-! ## Cache lines -/

structure CacheLine where
  data : List UInt8
  blockIdx : Nat := 0
  numBlocks : Nat := 0
  lruSreg : UInt32 := 0

namespace CacheLine

def reset (line : CacheLine) : CacheLine := { line with blockIdx := 0, numBlocks := 0, lruSreg := 0 }

def markUsed (line : CacheLine) : CacheLine := { line with lruSreg := line.lruSreg ||| 0x80000000 }

def fill (line : CacheLine) (block count : Nat) : CacheLine :=
  { line with blockIdx := block, numBlocks := count }.markUsed

def contains (line : CacheLine) (block : Nat) : Bool := block ≥ line.blockIdx && block - line.blockIdx < line.numBlocks

def shiftLru (line : CacheLine) : CacheLine := { line with lruSreg := line.lruSreg >>> 1 }

def isLessRecentlyUsedThan (line other : CacheLine) : Bool := line.lruSreg < other.lruSreg

end CacheLine

def cacheLines : Nat := 32

abbrev Lines := Fin cacheLines → CacheLine

/-! ## The reader -/

/-- The sizes and the virtual functions. What a `GetBlock` that fails leaves in the buffer is not modelled: the line it
was to fill counts as empty. -/
structure SectorReader where
  dataSize : Nat
  blockSize : Nat
  chunkBlocks : Nat := 1
  getBlock : Nat → Option (List UInt8)

namespace SectorReader

variable (r : SectorReader)

def emptyLines : Lines := fun _ => { data := List.replicate (r.chunkBlocks * r.blockSize % u32Max) 0 }

def findCacheLine (lines : Lines) (blockNum : Nat) : Option (Fin cacheLines × Lines) :=
  match (List.finRange cacheLines).find? fun i => (lines i).contains blockNum with
  | none => none
  | some i => some (i, Function.update lines i (lines i).markUsed)

/-- The loop body of `GetEmptyCacheLine`: the oldest line so far, and the lines. -/
def compareWithOldest (state : Fin cacheLines × Lines) (i : Fin cacheLines) : Fin cacheLines × Lines :=
  let (oldest, lines) := state
  if (lines i).isLessRecentlyUsedThan (lines oldest) then (i, Function.update lines oldest (lines oldest).shiftLru)
  else (oldest, Function.update lines i (lines i).shiftLru)

def oldestLine (lines : Lines) : Fin cacheLines × Lines :=
  (List.finRange cacheLines).tail.foldl compareWithOldest (⟨0, by decide⟩, lines)

def getEmptyCacheLine (lines : Lines) : Fin cacheLines × Lines :=
  let (oldest, lines) := oldestLine lines
  (oldest, Function.update lines oldest (lines oldest).reset)

def readMultipleAlignedBlocks : (cntBlocks blockNum offset : Nat) → List UInt8 → List UInt8 × Bool
  | 0, _, _, buffer => (buffer, true)
  | cntBlocks + 1, blockNum, offset, buffer =>
      match r.getBlock blockNum with
      | none => (buffer, false)
      | some block =>
          readMultipleAlignedBlocks cntBlocks (blockNum + 1) (offset + r.blockSize) (store buffer offset block)

/-- The loop of `ReadChunk` for a disc whose size is not known: as many blocks as there are. -/
def probeBlocks : (cntBlocks blockNum offset : Nat) → List UInt8 → List UInt8 × Nat
  | 0, _, _, buffer => (buffer, 0)
  | cntBlocks + 1, blockNum, offset, buffer =>
      match r.getBlock blockNum with
      | none => (store buffer offset (List.replicate ((cntBlocks + 1) * r.blockSize) 0), 0)
      | some block =>
          let (buffer, i) := probeBlocks cntBlocks (blockNum + 1) (offset + r.blockSize) (store buffer offset block)
          (buffer, i + 1)

def readChunk (buffer : List UInt8) (chunkNum : Nat) : List UInt8 × Nat :=
  let blockNum := chunkNum * r.chunkBlocks
  let endBlock := (r.dataSize + r.blockSize - 1) % u64Max / r.blockSize
  let cntBlocks :=
    if endBlock ≠ 0 then min r.chunkBlocks ((endBlock + u64Max - blockNum) % u64Max) else r.chunkBlocks
  match r.readMultipleAlignedBlocks cntBlocks blockNum 0 buffer with
  | (buffer, true) =>
      (if cntBlocks < r.chunkBlocks then
        store buffer (cntBlocks * r.blockSize) (List.replicate ((r.chunkBlocks - cntBlocks) * r.blockSize) 0)
      else buffer, cntBlocks)
  | (buffer, false) => if endBlock = 0 then r.probeBlocks cntBlocks blockNum 0 buffer else (buffer, 0)

def getCacheLine (lines : Lines) (blockNum : Nat) : Option (Fin cacheLines) × Lines :=
  match findCacheLine lines blockNum with
  | some (i, lines) => (some i, lines)
  | none =>
      let (i, lines) := getEmptyCacheLine lines
      let chunkIdx := blockNum / r.chunkBlocks
      let (data, blocksRead) := r.readChunk (lines i).data chunkIdx
      let lines := Function.update lines i { lines i with data := data }
      if blocksRead = 0 then (none, lines)
      else
        let lines := Function.update lines i ((lines i).fill (chunkIdx * r.chunkBlocks) blocksRead)
        (if (lines i).contains blockNum then some i else none, lines)

/-- The loop of `Read`, for `fuel` rounds at most. -/
def readLoop : (fuel offset positionInBlock remain : Nat) → Lines → Option (List UInt8) × Lines
  | _, _, _, 0, lines => (some [], lines)
  | 0, _, _, _ + 1, lines => (none, lines)
  | fuel + 1, offset, positionInBlock, remain + 1, lines =>
      let block := offset / r.blockSize
      match r.getCacheLine lines block with
      | (none, lines) => (none, lines)
      | (some i, lines) =>
          let line := lines i
          let readOffset := ((block - line.blockIdx) * r.blockSize + positionInBlock) % u32Max
          let canRead := (r.blockSize * line.numBlocks + u32Max - readOffset) % u32Max
          let wasRead := min canRead (remain + 1)
          let (rest, lines) := readLoop fuel (offset + wasRead) 0 (remain + 1 - wasRead) lines
          (rest.map ((line.data.drop readOffset).take wasRead ++ ·), lines)

/-- `Read`: the bytes, if it succeeds, and the cache. -/
def read (offset size : Nat) (lines : Lines) : Option (List UInt8) × Lines :=
  if (offset + size) % u64Max > r.dataSize then (none, lines)
  else r.readLoop size offset (offset % r.blockSize) size lines

def readAll : List (Nat × Nat) → Lines → List (Option (List UInt8))
  | [], _ => []
  | (offset, size) :: reads, lines =>
      (r.read offset size lines).1 :: readAll reads (r.read offset size lines).2

end SectorReader

end Karphin.DiscIO

/-!
# The cache

Whatever line is chosen to be replaced, every line holds what the disc has.
-/

namespace Karphin.DiscIO

/-! ## Buffers -/

section Store

variable {buffer bytes : List UInt8} {offset p : Nat}

theorem length_store (h : offset + bytes.length ≤ buffer.length) : (store buffer offset bytes).length = buffer.length := by
  simp only [store, List.length_append, List.length_take, List.length_drop]
  omega

theorem getD_store (h : offset + bytes.length ≤ buffer.length) : (store buffer offset bytes).getD p 0 =
    if offset ≤ p ∧ p < offset + bytes.length then bytes.getD (p - offset) 0 else buffer.getD p 0 := by
  have htake : (buffer.take offset).length = offset := by
    rw [List.length_take]
    omega
  simp only [store, List.getD_eq_getElem?_getD, List.append_assoc]
  by_cases hbefore : p < offset
  · rw [List.getElem?_append_left (by omega), List.getElem?_take_of_lt hbefore, if_neg (by omega)]
  · rw [List.getElem?_append_right (by omega), htake]
    by_cases hwithin : p < offset + bytes.length
    · rw [List.getElem?_append_left (by omega), if_pos (by omega)]
    · rw [List.getElem?_append_right (by omega), List.getElem?_drop, if_neg (by omega)]
      congr 2
      omega

end Store

namespace SectorReader

variable {r : SectorReader} {img : Nat → UInt8}

/-- The reader's blocks are those of an image, whose bytes are given by their positions. -/
structure Reads (r : SectorReader) (img : Nat → UInt8) : Prop where
  blockSize_pos : 0 < r.blockSize
  chunkBlocks_pos : 0 < r.chunkBlocks
  chunkSize_lt : r.chunkBlocks * r.blockSize < u32Max
  dataSize_lt : r.dataSize + r.blockSize < u64Max
  getBlock : ∀ k, k * r.blockSize < r.dataSize →
    r.getBlock k = some ((List.range r.blockSize).map fun i => img (k * r.blockSize + i))

structure Good (r : SectorReader) (img : Nat → UInt8) (line : CacheLine) : Prop where
  length : line.data.length = r.chunkBlocks * r.blockSize
  numBlocks : line.numBlocks ≤ r.chunkBlocks
  data : ∀ p < line.numBlocks * r.blockSize, line.data.getD p 0 = img (line.blockIdx * r.blockSize + p)

abbrev AllGood (r : SectorReader) (img : Nat → UInt8) (lines : Lines) : Prop := ∀ i, Good r img (lines i)

/-! ## Replacing lines -/

variable {lines : Lines}

theorem AllGood.update (h : AllGood r img lines) {i : Fin cacheLines} {line : CacheLine} (hline : Good r img line) :
    AllGood r img (Function.update lines i line) := by
  intro j
  by_cases hj : j = i
  · rw [hj, Function.update_self]
    exact hline
  · rw [Function.update_of_ne hj]
    exact h j

theorem Good.lru {line : CacheLine} (h : Good r img line) (lru : UInt32) : Good r img { line with lruSreg := lru } :=
  ⟨h.length, h.numBlocks, h.data⟩

theorem Good.reset {line : CacheLine} (h : Good r img line) : Good r img line.reset := by
  refine ⟨h.length, Nat.zero_le _, fun p hp => ?_⟩
  simp [CacheLine.reset] at hp

theorem allGood_emptyLines (h : Reads r img) : AllGood r img r.emptyLines := by
  intro i
  refine ⟨?_, Nat.zero_le _, fun p hp => ?_⟩
  · simp only [emptyLines, List.length_replicate]
    exact Nat.mod_eq_of_lt h.chunkSize_lt
  · simp [emptyLines] at hp

theorem findCacheLine_some (h : AllGood r img lines) {blockNum : Nat} {i : Fin cacheLines} {lines' : Lines}
    (hf : findCacheLine lines blockNum = some (i, lines')) :
    AllGood r img lines' ∧ (lines' i).contains blockNum = true := by
  rw [findCacheLine] at hf
  split at hf
  · cases hf
  · next j hj =>
      simp only [Option.some.injEq, Prod.mk.injEq] at hf
      obtain ⟨rfl, rfl⟩ := hf
      refine ⟨h.update ((h j).lru _), ?_⟩
      rw [Function.update_self]
      have hcontains := List.find?_some hj
      exact hcontains

theorem compareWithOldest_allGood {state : Fin cacheLines × Lines} (h : AllGood r img state.2) (i : Fin cacheLines) :
    AllGood r img (compareWithOldest state i).2 := by
  rw [compareWithOldest]
  split
  · exact h.update ((h state.1).lru _)
  · exact h.update ((h i).lru _)

theorem foldl_allGood : ∀ (l : List (Fin cacheLines)) (state : Fin cacheLines × Lines), AllGood r img state.2 →
    AllGood r img (l.foldl compareWithOldest state).2
  | [], _, h => h
  | i :: l, _, h => foldl_allGood l _ (compareWithOldest_allGood h i)

theorem oldestLine_allGood (h : AllGood r img lines) : AllGood r img (oldestLine lines).2 := by
  rw [oldestLine]
  exact foldl_allGood _ _ h

theorem getEmptyCacheLine_allGood (h : AllGood r img lines) : AllGood r img (getEmptyCacheLine lines).2 := by
  have hlines := oldestLine_allGood h
  rw [getEmptyCacheLine]
  generalize oldestLine lines = state at hlines
  exact hlines.update (hlines state.1).reset

/-! ## Reading a chunk -/

theorem readMultipleAlignedBlocks_spec (h : Reads r img) : ∀ {cntBlocks blockNum offset : Nat} {buffer : List UInt8},
    (0 < cntBlocks → (blockNum + cntBlocks - 1) * r.blockSize < r.dataSize) →
    offset + cntBlocks * r.blockSize ≤ buffer.length →
    ∃ buffer', r.readMultipleAlignedBlocks cntBlocks blockNum offset buffer = (buffer', true) ∧
      buffer'.length = buffer.length ∧ (∀ p < offset, buffer'.getD p 0 = buffer.getD p 0) ∧
      ∀ p < cntBlocks * r.blockSize, buffer'.getD (offset + p) 0 = img (blockNum * r.blockSize + p)
  | 0, blockNum, offset, buffer, _, _ => by
      refine ⟨buffer, rfl, rfl, fun _ _ => rfl, fun p hp => ?_⟩
      rw [Nat.zero_mul] at hp
      exact absurd hp (Nat.not_lt_zero _)
  | cntBlocks + 1, blockNum, offset, buffer, hlast, hlen => by
      have hmul : (cntBlocks + 1) * r.blockSize = r.blockSize + cntBlocks * r.blockSize := by
        rw [Nat.add_mul, Nat.one_mul, Nat.add_comm]
      rw [hmul] at hlen ⊢
      have hblock : blockNum * r.blockSize < r.dataSize :=
        (Nat.mul_le_mul_right _ (by omega)).trans_lt (hlast (Nat.succ_pos _))
      let block := (List.range r.blockSize).map fun i => img (blockNum * r.blockSize + i)
      have hblen : block.length = r.blockSize := by simp [block]
      have hfits : offset + block.length ≤ buffer.length := by omega
      obtain ⟨buffer', hread, hlength, hbefore, hafter⟩ :=
        @readMultipleAlignedBlocks_spec h cntBlocks (blockNum + 1) (offset + r.blockSize) (store buffer offset block)
          (fun hpos => by
            have := hlast (Nat.succ_pos _)
            rwa [show blockNum + 1 + cntBlocks - 1 = blockNum + (cntBlocks + 1) - 1 by omega])
          (by rw [length_store hfits]; omega)
      refine ⟨buffer', ?_, hlength.trans (length_store hfits), fun p hp => ?_, fun p hp => ?_⟩
      · rw [readMultipleAlignedBlocks, h.getBlock blockNum hblock]
        exact hread
      · rw [hbefore p (by omega), getD_store hfits, if_neg (by omega)]
      · by_cases hfirst : p < r.blockSize
        · rw [hbefore _ (by omega), getD_store hfits, if_pos (by omega), Nat.add_sub_cancel_left]
          simp [block, List.getD_eq_getElem?_getD, hfirst]
        · have hrest := hafter (p - r.blockSize) (by omega)
          rw [show offset + r.blockSize + (p - r.blockSize) = offset + p by omega, Nat.add_mul, Nat.one_mul,
            show blockNum * r.blockSize + r.blockSize + (p - r.blockSize) = blockNum * r.blockSize + p by omega] at hrest
          exact hrest

theorem endBlock_eq (h : Reads r img) (hpos : 0 < r.dataSize) {k : Nat} :
    k < (r.dataSize + r.blockSize - 1) % u64Max / r.blockSize ↔ k * r.blockSize < r.dataSize := by
  have hb := h.blockSize_pos
  have hlt := h.dataSize_lt
  rw [Nat.mod_eq_of_lt (by omega), Nat.lt_iff_add_one_le, Nat.le_div_iff_mul_le hb, Nat.add_mul, Nat.one_mul]
  omega

theorem readChunk_spec (h : Reads r img) {buffer : List UInt8} (hlen : buffer.length = r.chunkBlocks * r.blockSize)
    {blockNum chunkNum : Nat} (hchunk : chunkNum = blockNum / r.chunkBlocks)
    (hblock : blockNum * r.blockSize < r.dataSize) :
    ∃ data n, r.readChunk buffer chunkNum = (data, n) ∧ data.length = r.chunkBlocks * r.blockSize ∧
      n ≤ r.chunkBlocks ∧ chunkNum * r.chunkBlocks ≤ blockNum ∧ blockNum < chunkNum * r.chunkBlocks + n ∧
      ∀ p < n * r.blockSize, data.getD p 0 = img (chunkNum * r.chunkBlocks * r.blockSize + p) := by
  have hc := h.chunkBlocks_pos
  have hpos : 0 < r.dataSize := by omega
  have hend : blockNum < (r.dataSize + r.blockSize - 1) % u64Max / r.blockSize := (endBlock_eq h hpos).mpr hblock
  have hlast : ∀ k, k < (r.dataSize + r.blockSize - 1) % u64Max / r.blockSize → k * r.blockSize < r.dataSize :=
    fun k => (endBlock_eq h hpos).mp
  have hendlt : (r.dataSize + r.blockSize - 1) % u64Max / r.blockSize < u64Max :=
    (Nat.div_le_self _ _).trans_lt (Nat.mod_lt _ (by decide))
  have hstart : chunkNum * r.chunkBlocks ≤ blockNum := by
    rw [hchunk]
    exact Nat.div_mul_le_self _ _
  have hwithin : blockNum < chunkNum * r.chunkBlocks + r.chunkBlocks := by
    rw [hchunk, ← Nat.succ_mul, Nat.mul_comm]
    exact Nat.lt_mul_div_succ blockNum hc
  rw [readChunk]
  generalize (r.dataSize + r.blockSize - 1) % u64Max / r.blockSize = endBlock at hend hlast hendlt
  generalize chunkNum * r.chunkBlocks = start at hstart hwithin
  have hdiff : (endBlock + u64Max - start) % u64Max = endBlock - start := by
    simp only [u64Max] at hendlt ⊢
    omega
  simp only [hdiff, if_pos (show endBlock ≠ 0 by omega)]
  -- as many blocks as the chunk has before the end of the disc
  generalize hcnt : min r.chunkBlocks (endBlock - start) = cnt
  have hcntlen : cnt * r.blockSize ≤ r.chunkBlocks * r.blockSize := Nat.mul_le_mul_right _ (by omega)
  obtain ⟨buffer', hread, hlength, -, hdata⟩ := @readMultipleAlignedBlocks_spec r img h cnt start 0 buffer
    (fun _ => hlast _ (by omega)) (by omega)
  rw [hread]
  simp only [Nat.zero_add] at hdata
  by_cases hfull : cnt < r.chunkBlocks
  · have hfill : cnt * r.blockSize + (List.replicate ((r.chunkBlocks - cnt) * r.blockSize) (0 : UInt8)).length ≤
        buffer'.length := by
      rw [List.length_replicate, ← Nat.add_mul, Nat.add_sub_cancel' hfull.le, hlength, hlen]
    refine ⟨_, cnt, rfl, ?_, by omega, hstart, by omega, fun p hp => ?_⟩
    · rw [if_pos hfull, length_store hfill, hlength, hlen]
    · rw [if_pos hfull, getD_store hfill, if_neg (by omega)]
      exact hdata p hp
  · refine ⟨_, cnt, rfl, ?_, by omega, hstart, by omega, fun p hp => ?_⟩
    · rw [if_neg hfull, hlength, hlen]
    · rw [if_neg hfull]
      exact hdata p hp

/-! ## Lines and reads -/

theorem contains_iff {line : CacheLine} {blockNum : Nat} :
    line.contains blockNum = true ↔ line.blockIdx ≤ blockNum ∧ blockNum - line.blockIdx < line.numBlocks := by
  rw [CacheLine.contains, Bool.and_eq_true, decide_eq_true_eq, decide_eq_true_eq]

theorem getCacheLine_spec (h : Reads r img) (hlines : AllGood r img lines) {blockNum : Nat}
    (hblock : blockNum * r.blockSize < r.dataSize) :
    ∃ i lines', r.getCacheLine lines blockNum = (some i, lines') ∧ AllGood r img lines' ∧
      (lines' i).contains blockNum = true := by
  rw [getCacheLine]
  split
  · next i lines' hf =>
      obtain ⟨hgood, hcontains⟩ := findCacheLine_some hlines hf
      exact ⟨i, lines', rfl, hgood, hcontains⟩
  · have hempty := getEmptyCacheLine_allGood hlines
    generalize getEmptyCacheLine lines = state at hempty
    obtain ⟨i, lines'⟩ := state
    obtain ⟨data, n, hread, hlength, hn, hstart, hin, hdata⟩ := readChunk_spec h (hempty i).length rfl hblock
    have hgood : Good r img ((({ lines' i with data := data } : CacheLine)).fill
        (blockNum / r.chunkBlocks * r.chunkBlocks) n) := ⟨hlength, hn, hdata⟩
    have hcontains : ((({ lines' i with data := data } : CacheLine)).fill
        (blockNum / r.chunkBlocks * r.chunkBlocks) n).contains blockNum = true := by
      rw [contains_iff]
      simp only [CacheLine.fill, CacheLine.markUsed]
      omega
    simp only [hread]
    rw [if_neg (by omega)]
    simp only [Function.update_self, Function.update_idem, hcontains, if_true]
    refine ⟨i, _, rfl, hempty.update hgood, ?_⟩
    rw [Function.update_self]
    exact hcontains

theorem Good.bytes {line : CacheLine} (h : Good r img line) {offset start count : Nat}
    (hstart : line.blockIdx * r.blockSize + start = offset) (hend : start + count ≤ line.numBlocks * r.blockSize) :
    (line.data.drop start).take count = (List.range count).map fun i => img (offset + i) := by
  have hfits : line.numBlocks * r.blockSize ≤ line.data.length := by
    rw [h.length]
    exact Nat.mul_le_mul_right _ h.numBlocks
  apply List.ext_getElem
  · simp only [List.length_take, List.length_drop, List.length_map, List.length_range]
    omega
  · intro i h1 h2
    have hi : i < count := by simpa using h2
    have hdata := h.data (start + i) (by omega)
    rw [List.getD_eq_getElem?_getD, List.getElem?_eq_getElem (by omega), Option.getD_some] at hdata
    simp only [List.getElem_take, List.getElem_drop, List.getElem_map, List.getElem_range]
    rw [hdata]
    congr 1
    omega

theorem readLoop_spec (h : Reads r img) : ∀ {fuel offset positionInBlock remain : Nat} {lines : Lines},
    AllGood r img lines → remain ≤ fuel → offset + remain ≤ r.dataSize →
    (0 < remain → positionInBlock = offset % r.blockSize) →
    ∃ lines', r.readLoop fuel offset positionInBlock remain lines =
      (some ((List.range remain).map fun i => img (offset + i)), lines') ∧ AllGood r img lines'
  | fuel, offset, positionInBlock, 0, lines, hlines, _, _, _ => by
      refine ⟨lines, ?_, hlines⟩
      cases fuel with
      | zero => rfl
      | succ fuel => rfl
  | fuel + 1, offset, positionInBlock, remain + 1, lines, hlines, hfuel, hend, hposition => by
      have hb := h.blockSize_pos
      have hdivmod := Nat.div_add_mod offset r.blockSize
      have hmodlt := Nat.mod_lt offset hb
      rw [hposition (Nat.succ_pos _)]
      obtain ⟨i, lines', hget, hgood, hcontains⟩ := @getCacheLine_spec r img lines h hlines (offset / r.blockSize) (by
        rw [Nat.mul_comm]
        omega)
      rw [readLoop]
      simp only [hget]
      have hline := hgood i
      generalize lines' i = line at hcontains hline
      obtain ⟨hidx, hwithin⟩ := contains_iff.mp hcontains
      obtain ⟨d, hd⟩ := Nat.exists_eq_add_of_le hidx
      rw [hd, Nat.add_sub_cancel_left] at hwithin ⊢
      -- the block lies in the line, and the line in 32 bits
      have hblock : d * r.blockSize + r.blockSize ≤ line.numBlocks * r.blockSize := by
        rw [← Nat.succ_mul]
        exact Nat.mul_le_mul_right _ hwithin
      have hnum : line.numBlocks * r.blockSize < u32Max :=
        (Nat.mul_le_mul_right _ hline.numBlocks).trans_lt h.chunkSize_lt
      have hstart : line.blockIdx * r.blockSize + (d * r.blockSize + offset % r.blockSize) = offset := by
        rw [← Nat.add_assoc, ← Nat.add_mul, ← hd, Nat.mul_comm]
        exact hdivmod
      generalize hro : d * r.blockSize + offset % r.blockSize = readOffset at hstart
      have hlt : readOffset < line.numBlocks * r.blockSize := by omega
      have hmod : readOffset % u32Max = readOffset := Nat.mod_eq_of_lt (by omega)
      have hcan : (line.numBlocks * r.blockSize + u32Max - readOffset) % u32Max =
          line.numBlocks * r.blockSize - readOffset := by
        simp only [u32Max] at hnum ⊢
        omega
      simp only [hmod, Nat.mul_comm r.blockSize, hcan]
      generalize hwas : min (line.numBlocks * r.blockSize - readOffset) (remain + 1) = wasRead
      obtain ⟨lines'', hrest, hgood'⟩ := @readLoop_spec h fuel (offset + wasRead) 0 (remain + 1 - wasRead) lines' hgood
        (by omega) (by omega) (fun hmore => by
          -- the line was read to its end
          have heq : offset + wasRead = (line.blockIdx + line.numBlocks) * r.blockSize := by
            rw [Nat.add_mul]
            omega
          rw [heq, Nat.mul_mod_left])
      have hsplit : remain + 1 = wasRead + (remain + 1 - wasRead) := by omega
      refine ⟨lines'', ?_, hgood'⟩
      rw [hrest, hline.bytes hstart (by omega)]
      conv_rhs => rw [hsplit, List.range_add, List.map_append, List.map_map]
      simp only [Option.map_some, Function.comp_def, Nat.add_assoc]

theorem read_spec (h : Reads r img) (hlines : AllGood r img lines) {offset size : Nat}
    (hend : offset + size ≤ r.dataSize) :
    ∃ lines', r.read offset size lines = (some ((List.range size).map fun i => img (offset + i)), lines') ∧
      AllGood r img lines' := by
  have hlt := h.dataSize_lt
  rw [read, Nat.mod_eq_of_lt (by omega), if_neg (by omega)]
  exact readLoop_spec h hlines (le_refl _) hend (fun _ => rfl)

theorem readAll_spec (h : Reads r img) : ∀ {reads : List (Nat × Nat)} {lines : Lines}, AllGood r img lines →
    (∀ range ∈ reads, range.1 + range.2 ≤ r.dataSize) →
    r.readAll reads lines = reads.map fun range => some ((List.range range.2).map fun i => img (range.1 + i))
  | [], _, _, _ => rfl
  | (offset, size) :: reads, lines, hlines, hall => by
      obtain ⟨lines', hread, hgood⟩ := read_spec h hlines (hall _ (List.mem_cons_self ..))
      simp only at hread
      rw [readAll, hread, readAll_spec h hgood fun range hr => hall range (List.mem_cons_of_mem _ hr)]
      rfl

/-! ## A block that cannot be read -/

theorem findCacheLine_emptyLines (blockNum : Nat) : findCacheLine r.emptyLines blockNum = none := by
  have hnone : ((List.finRange cacheLines).find? fun i => (r.emptyLines i).contains blockNum) = none := by
    apply List.find?_eq_none.mpr
    intro i _
    rw [contains_iff]
    simp [emptyLines]
  rw [findCacheLine, hnone]

theorem read_first_none (hblock : r.getBlock 0 = none) (hb : 0 < r.blockSize) (hc : 0 < r.chunkBlocks)
    (hpos : 0 < r.dataSize) (hlt : r.dataSize + r.blockSize < u64Max) : (r.read 0 1 r.emptyLines).1 = none := by
  have hend : 0 < (r.dataSize + r.blockSize - 1) % u64Max / r.blockSize := by
    rw [Nat.mod_eq_of_lt (by omega)]
    exact Nat.div_pos (by omega) hb
  have hendlt : (r.dataSize + r.blockSize - 1) % u64Max / r.blockSize < u64Max :=
    (Nat.div_le_self _ _).trans_lt (Nat.mod_lt _ (by decide))
  have hchunk : ∀ buffer, (r.readChunk buffer 0).2 = 0 := by
    intro buffer
    rw [readChunk]
    generalize (r.dataSize + r.blockSize - 1) % u64Max / r.blockSize = endBlock at hend hendlt
    have hmod : (endBlock + u64Max - 0 * r.chunkBlocks) % u64Max = endBlock := by
      simp only [u64Max] at hendlt ⊢
      omega
    simp only [hmod, if_pos (show endBlock ≠ 0 by omega)]
    cases hcnt : min r.chunkBlocks endBlock with
    | zero => omega
    | succ cnt =>
        rw [Nat.zero_mul, readMultipleAlignedBlocks, hblock]
        simp only
        rw [if_neg (by omega)]
  rw [read, Nat.zero_add, Nat.mod_eq_of_lt (show 1 < u64Max by decide), if_neg (by omega), readLoop, Nat.zero_div,
    getCacheLine, findCacheLine_emptyLines]
  simp only [Nat.zero_div, hchunk, if_true]

end SectorReader

end Karphin.DiscIO
