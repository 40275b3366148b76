import Karphin.Lib.FinNumerals
import Karphin.Lib.Transition

/-!
# Reading a Wii partition

`VolumeWii::Read` keeps the data of the block that it has read last, and where on the disc that block is. Sums of offsets do
not exceed 64 bits.
-/

namespace Karphin.DiscIO.VolumeWii

open Lib

def blockHeaderSize : Nat := 0x0400

def blockDataSize : Nat := 0x7C00

def blockTotalSize : Nat := blockHeaderSize + blockDataSize

structure Partition (Key : Type) where
  offset : Nat
  dataOffset : Nat
  key : Option Key
  shifted : offset % 4 = 0 ∧ dataOffset % 4 = 0

def Partition.dataStart {Key : Type} (p : Partition Key) : Nat := p.offset + p.dataOffset

/-- A blob reader gives the bytes of the disc, or those that it decrypts itself, if it reads at all. -/
structure Volume (Key : Type) where
  partitions : List (Partition Key)
  hasHashes : Bool
  hasEncryption : Bool
  disc : Nat → UInt8
  supportsReadWiiDecrypted : (offset length dataStart : Nat) → Bool
  readWiiDecrypted : (offset length dataStart : Nat) → Option (List UInt8)
  crypt : Key → (iv data : List UInt8) → List UInt8

structure Cache where
  block : Nat := 2 ^ 64 - 1
  data : List UInt8 := List.replicate blockDataSize 0

/-- For each `Read` of the blob reader, how it changes its buffer if it fails. -/
structure Call where
  partition : Nat
  offset : Nat
  length : Nat
  failures : Nat → Option (List UInt8 → List UInt8)

variable {Key : Type}

def Volume.bytes (v : Volume Key) (address n : Nat) : List UInt8 := (List.range n).map fun i => v.disc (address + i)

def decryptBlockData (crypt : Key → (iv data : List UInt8) → List UInt8) (key : Key) (block : List UInt8) : List UInt8 :=
  crypt key ((block.drop 0x3d0).take 16) (block.drop blockHeaderSize)

def Volume.blockData (v : Volume Key) (key : Option Key) (address : Nat) : List UInt8 :=
  if v.hasEncryption then (key.map fun k => decryptBlockData v.crypt k (v.bytes address blockTotalSize)).getD []
  else v.bytes (address + blockHeaderSize) blockDataSize

def Volume.fetch (v : Volume Key) (key : Option Key) (failure : Option (List UInt8 → List UInt8)) (address : Nat)
    (s : Cache) : Cache × Bool :=
  if s.block ≠ address then
    match failure with
    | some change => (if v.hasEncryption then s else { s with data := change s.data }, false)
    | none => ({ block := address, data := v.blockData key address }, true)
  else (s, true)

/-- The loop of `Read`, before a block that has this number in the call. -/
def Volume.readLoop (v : Volume Key) (p : Partition Key) (failures : Nat → Option (List UInt8 → List UInt8))
    (number offset length : Nat) (s : Cache) : Cache × Option (List UInt8) :=
  if length = 0 then (s, some [])
  else
    let blockOffsetOnDisc := p.dataStart + offset / blockDataSize * blockTotalSize
    let dataOffsetInBlock := offset % blockDataSize
    let (s, success) := v.fetch p.key (failures number) blockOffsetOnDisc s
    if success then
      let copySize := min length (blockDataSize - dataOffsetInBlock)
      let (s', rest) := v.readLoop p failures (number + 1) (offset + copySize) (length - copySize) s
      (s', rest.map ((s.data.drop dataOffsetInBlock).take copySize ++ ·))
    else (s, none)
termination_by length
decreasing_by
  have h : offset % blockDataSize < blockDataSize := Nat.mod_lt _ (by decide)
  omega

def Volume.read (v : Volume Key) (c : Call) (s : Cache) : Cache × Option (List UInt8) :=
  match v.partitions.find? (·.offset = c.partition) with
  | none => (s, none)
  | some p =>
      if v.hasHashes && v.hasEncryption && v.supportsReadWiiDecrypted c.offset c.length p.dataStart then
        (s, v.readWiiDecrypted c.offset c.length p.dataStart)
      else if !v.hasHashes then
        (s, if (c.failures 0).isSome then none else some (v.bytes (p.dataStart + c.offset) c.length))
      else if v.hasEncryption && p.key.isNone then (s, none)
      else v.readLoop p c.failures 0 c.offset c.length s

/-! ## The partition -/

def Partition.address (p : Partition Key) (i : Nat) : Nat := p.dataStart + i * blockTotalSize

def Volume.payloadByte (v : Volume Key) (p : Partition Key) (n : Nat) : UInt8 :=
  (v.blockData p.key (p.address (n / blockDataSize))).getD (n % blockDataSize) 0

def Volume.payload (v : Volume Key) (p : Partition Key) (offset length : Nat) : List UInt8 :=
  (List.range length).map fun i => v.payloadByte p (offset + i)

def Volume.HasKey (v : Volume Key) (p : Partition Key) : Prop := v.hasEncryption = true → p.key.isSome = true

def Volume.Right (v : Volume Key) (s : Cache) : Prop :=
  ∀ p ∈ v.partitions, v.HasKey p → ∀ i, p.address i = s.block → s.data = v.blockData p.key s.block

def Volume.KeysAgree (v : Volume Key) : Prop :=
  v.hasEncryption = true → ∀ p ∈ v.partitions, ∀ q ∈ v.partitions, ∀ i j, p.address i = q.address j → p.key = q.key

def Volume.Harmless (v : Volume Key) (c : Call) : Prop :=
  v.hasEncryption = true ∨ ∀ n change, c.failures n = some change → change = id

/-- AES keeps the length, and the blob reader decrypts as `DecryptBlockData` does. -/
structure Volume.Lawful (v : Volume Key) : Prop where
  crypt_length : ∀ key iv data, (v.crypt key iv data).length = data.length
  readWiiDecrypted : ∀ p ∈ v.partitions, ∀ offset length bytes,
    v.readWiiDecrypted offset length p.dataStart = some bytes → bytes = v.payload p offset length

variable {v : Volume Key} {p : Partition Key} {s : Cache}

theorem right_init (v : Volume Key) : v.Right {} := by
  intro p _ _ i hi
  obtain ⟨hoffset, hdata⟩ := p.shifted
  simp only [Partition.address, Partition.dataStart, blockTotalSize, blockHeaderSize, blockDataSize] at hi
  omega

theorem blockData_length (hv : v.Lawful) (hkey : v.HasKey p) (address : Nat) :
    (v.blockData p.key address).length = blockDataSize := by
  rw [Volume.blockData]
  split
  next h =>
    obtain ⟨key, hk⟩ := Option.isSome_iff_exists.mp (hkey h)
    rw [hk, Option.map_some, Option.getD_some, decryptBlockData, hv.crypt_length]
    simp [Volume.bytes, blockTotalSize]
  next => simp [Volume.bytes]

theorem payload_append (v : Volume Key) (p : Partition Key) (offset n m : Nat) :
    v.payload p offset (n + m) = v.payload p offset n ++ v.payload p (offset + n) m := by
  simp [Volume.payload, List.range_add, Function.comp_def, Nat.add_assoc]

theorem payload_block (hv : v.Lawful) (hkey : v.HasKey p) {offset n : Nat} (h : offset % blockDataSize + n ≤ blockDataSize) :
    v.payload p offset n =
      ((v.blockData p.key (p.address (offset / blockDataSize))).drop (offset % blockDataSize)).take n := by
  have hlen := blockData_length hv hkey (p.address (offset / blockDataSize))
  apply List.ext_getElem
  · rw [Volume.payload, List.length_map, List.length_range, List.length_take, List.length_drop, hlen]
    omega
  · intro i hi _
    rw [Volume.payload, List.length_map, List.length_range] at hi
    have hpos : 0 < blockDataSize := by decide
    have hsplit : offset + i = blockDataSize * (offset / blockDataSize) + (offset % blockDataSize + i) := by
      rw [← Nat.add_assoc, Nat.div_add_mod]
    have hdiv : (offset + i) / blockDataSize = offset / blockDataSize := by
      rw [hsplit, Nat.mul_add_div hpos, Nat.div_eq_of_lt (a := offset % blockDataSize + i) (by omega), Nat.add_zero]
    have hmod : (offset + i) % blockDataSize = offset % blockDataSize + i := by
      rw [hsplit, Nat.mul_add_mod, Nat.mod_eq_of_lt (by omega)]
    simp only [Volume.payload, List.getElem_map, List.getElem_range, Volume.payloadByte, hdiv, hmod, List.getElem_take,
      List.getElem_drop]
    exact (List.getElem_eq_getD 0).symm

theorem fetch_cached {key : Option Key} {failure : Option (List UInt8 → List UInt8)} {address : Nat} (h : s.block = address) :
    v.fetch key failure address s = (s, true) := if_neg (not_not.mpr h)

theorem fetch_read {key : Option Key} {address : Nat} (h : s.block ≠ address) :
    v.fetch key none address s = ({ block := address, data := v.blockData key address }, true) := if_pos h

theorem fetch_failed {key : Option Key} {change : List UInt8 → List UInt8} {address : Nat} (h : s.block ≠ address) :
    v.fetch key (some change) address s = (if v.hasEncryption then s else { s with data := change s.data }, false) := if_pos h

theorem fetch_right (hagree : v.KeysAgree) (hp : p ∈ v.partitions) (hright : v.Right s)
    {failure : Option (List UInt8 → List UInt8)} (hharmless : v.hasEncryption = true ∨ ∀ change, failure = some change → change = id)
    (i : Nat) : v.Right (v.fetch p.key failure (p.address i) s).1 := by
  rcases eq_or_ne s.block (p.address i) with heq | hne
  · rwa [fetch_cached heq]
  · cases failure with
    | some change =>
        rw [fetch_failed hne]
        rcases hharmless with hencrypted | hid
        · rwa [if_pos hencrypted]
        · rwa [hid change rfl, show { s with data := id s.data } = s from rfl, ite_self]
    | none =>
        rw [fetch_read hne]
        intro q hq _ j hj
        show v.blockData p.key (p.address i) = v.blockData q.key (p.address i)
        cases hencryption : v.hasEncryption with
        | true => rw [hagree hencryption p hp q hq i j hj.symm]
        | false => simp [Volume.blockData, hencryption]

theorem fetch_data (hp : p ∈ v.partitions) (hkey : v.HasKey p) (hright : v.Right s)
    {failure : Option (List UInt8 → List UInt8)} {i : Nat} (h : (v.fetch p.key failure (p.address i) s).2 = true) :
    (v.fetch p.key failure (p.address i) s).1.data = v.blockData p.key (p.address i) := by
  rcases eq_or_ne s.block (p.address i) with heq | hne
  · rw [fetch_cached heq]
    exact heq ▸ hright p hp hkey i heq.symm
  · cases failure with
    | some change =>
        rw [fetch_failed hne] at h
        cases h
    | none => rw [fetch_read hne]

theorem readLoop_spec (hv : v.Lawful) (hagree : v.KeysAgree) (hp : p ∈ v.partitions) (hkey : v.HasKey p)
    {failures : Nat → Option (List UInt8 → List UInt8)}
    (hharmless : v.hasEncryption = true ∨ ∀ n change, failures n = some change → change = id) :
    ∀ (length number offset : Nat) {s : Cache}, v.Right s → v.Right (v.readLoop p failures number offset length s).1 ∧
      ∀ bytes, (v.readLoop p failures number offset length s).2 = some bytes → bytes = v.payload p offset length := by
  intro length
  induction length using Nat.strong_induction_on with
  | h length ih =>
      intro number offset s hright
      rw [Volume.readLoop]
      by_cases hzero : length = 0
      · rw [if_pos hzero, hzero]
        exact ⟨hright, fun bytes h => (Option.some.inj h).symm⟩
      · rw [if_neg hzero]
        have hfetched := @fetch_right _ v p s hagree hp hright (failures number) (hharmless.imp_right fun h => h number)
          (offset / blockDataSize)
        have hdata := @fetch_data _ v p s hp hkey hright (failures number) (offset / blockDataSize)
        rw [Partition.address] at hfetched hdata
        dsimp only
        split
        next hsuccess =>
          have hmod : offset % blockDataSize < blockDataSize := Nat.mod_lt _ (by decide)
          obtain ⟨hrest, hbytes⟩ := ih (length - min length (blockDataSize - offset % blockDataSize)) (by omega) (number + 1)
            (offset + min length (blockDataSize - offset % blockDataSize)) hfetched
          refine ⟨hrest, fun bytes h => ?_⟩
          obtain ⟨more, hmore, rfl⟩ := Option.map_eq_some_iff.mp h
          have hlen : length = min length (blockDataSize - offset % blockDataSize) +
              (length - min length (blockDataSize - offset % blockDataSize)) := by omega
          rw [hbytes more hmore, hdata hsuccess, ← Partition.address, ← payload_block hv hkey (by omega), ← payload_append,
            ← hlen]
        next => exact ⟨hfetched, nofun⟩

theorem read_spec (hv : v.Lawful) (hashes : v.hasHashes = true) (hagree : v.KeysAgree) {c : Call} (hharmless : v.Harmless c)
    (hright : v.Right s) : v.Right (v.read c s).1 ∧ ∀ bytes, (v.read c s).2 = some bytes →
      ∃ p ∈ v.partitions, p.offset = c.partition ∧ bytes = v.payload p c.offset c.length := by
  rw [Volume.read]
  cases hfind : v.partitions.find? (·.offset = c.partition) with
  | none => exact ⟨hright, nofun⟩
  | some p =>
      have hp := List.mem_of_find?_eq_some hfind
      have hoffset : p.offset = c.partition := by simpa using List.find?_some hfind
      dsimp only
      split
      next => exact ⟨hright, fun bytes h => ⟨p, hp, hoffset, hv.readWiiDecrypted p hp _ _ _ h⟩⟩
      next =>
        rw [if_neg (by simp [hashes])]
        split
        next => exact ⟨hright, nofun⟩
        next hkey =>
          have hkey' : v.HasKey p := by
            intro h
            exact Option.isSome_iff_ne_none.mpr (by simpa [h] using hkey)
          obtain ⟨hright', hbytes⟩ := readLoop_spec hv hagree hp hkey' hharmless c.length 0 c.offset hright
          exact ⟨hright', fun bytes h => ⟨p, hp, hoffset, hbytes bytes h⟩⟩

/-- In a run of calls that are all harmless, the cache stays right and what is read is right. -/
theorem reads_right (hv : v.Lawful) (hashes : v.hasHashes = true) (hagree : v.KeysAgree) {s : Cache}
    (h : Reach (fun s c => some (v.read c s).1) (fun _ c => v.Harmless c) {} s) :
    v.Right s ∧ ∀ c, v.Harmless c → ∀ bytes, (v.read c s).2 = some bytes →
      ∃ p ∈ v.partitions, p.offset = c.partition ∧ bytes = v.payload p c.offset c.length := by
  have hright : v.Right s := by
    apply h.invariant v.Right (right_init v)
    intro s c s' hs hc hstep
    rw [← Option.some.inj hstep]
    exact (read_spec hv hashes hagree hc hs).1
  exact ⟨hright, fun c hc bytes h => (read_spec hv hashes hagree hc hright).2 bytes h⟩

def plainVolume : Volume Unit where
  partitions := [⟨0, 0, none, rfl, rfl⟩]
  hasHashes := true
  hasEncryption := false
  disc _ := 1
  supportsReadWiiDecrypted _ _ _ := false
  readWiiDecrypted _ _ _ := none
  crypt _ _ data := data

def readByte (offset : Nat) (failure : Option (List UInt8 → List UInt8)) : Call := ⟨0, offset, 1, fun _ => failure⟩

theorem plainVolume_right : plainVolume.Right (plainVolume.read (readByte 0 none) {}).1 := by
  have hlawful : plainVolume.Lawful := ⟨fun _ _ _ => rfl, fun _ _ _ _ _ h => by cases h⟩
  have hagree : plainVolume.KeysAgree := fun h => by cases h
  exact (reads_right hlawful rfl hagree (Reach.refl.tail (.inr (fun _ _ h => by cases h) : plainVolume.Harmless (readByte 0 none))
    rfl)).1

theorem plainVolume_read (offset : Nat) (failure : Option (List UInt8 → List UInt8)) (s : Cache) :
    plainVolume.read (readByte offset failure) s =
      if (plainVolume.fetch none failure (0 + offset / blockDataSize * blockTotalSize) s).2 then
        ((plainVolume.fetch none failure (0 + offset / blockDataSize * blockTotalSize) s).1,
          some (((plainVolume.fetch none failure (0 + offset / blockDataSize * blockTotalSize) s).1.data.drop
            (offset % blockDataSize)).take 1))
      else ((plainVolume.fetch none failure (0 + offset / blockDataSize * blockTotalSize) s).1, none) := by
  have hread : plainVolume.read (readByte offset failure) s =
      plainVolume.readLoop ⟨0, 0, none, rfl, rfl⟩ (fun _ => failure) 0 offset 1 s := rfl
  have hmod : offset % blockDataSize < blockDataSize := Nat.mod_lt _ (by decide)
  have hmin : min 1 (blockDataSize - offset % blockDataSize) = 1 := by omega
  rw [hread, Volume.readLoop, if_neg Nat.one_ne_zero]
  dsimp only [Partition.dataStart]
  rw [hmin, Nat.sub_self, Volume.readLoop, if_pos rfl]
  simp

/-- The second read fails and changes the first byte of its buffer. The third one finds it in the cache. -/
theorem stale_block :
    (plainVolume.read (readByte 0 none) (plainVolume.read (readByte 0x7C00 (some fun data => 0 :: data.drop 1))
      (plainVolume.read (readByte 0 none) {}).1).1).2 = some [0] ∧ plainVolume.payload ⟨0, 0, none, rfl, rfl⟩ 0 1 = [1] := by
  have hfirst : (plainVolume.read (readByte 0 none) {}).1 = { block := 0, data := plainVolume.blockData none 0 } := by
    rw [plainVolume_read, fetch_read (by decide)]
    rfl
  have hfailed : ∀ data : List UInt8, (plainVolume.read (readByte 0x7C00 (some fun data => 0 :: data.drop 1))
      { block := 0, data := data }).1 = { block := 0, data := 0 :: data.drop 1 } := by
    intro data
    rw [plainVolume_read, fetch_failed (show 0 ≠ 0 + 0x7C00 / blockDataSize * blockTotalSize by decide)]
    rfl
  have hcached : ∀ data : List UInt8, (plainVolume.read (readByte 0 none) { block := 0, data := 0 :: data }).2 = some [0] := by
    intro data
    rw [plainVolume_read, fetch_cached (show 0 = 0 + 0 / blockDataSize * blockTotalSize by decide)]
    rfl
  rw [hfirst, hfailed, hcached]
  refine ⟨rfl, ?_⟩
  have hbytes : plainVolume.bytes (0 + 0 / blockDataSize * blockTotalSize + blockHeaderSize) blockDataSize =
      List.replicate blockDataSize 1 := by
    simp [Volume.bytes, plainVolume]
  show [(plainVolume.bytes (0 + 0 / blockDataSize * blockTotalSize + blockHeaderSize) blockDataSize).getD
    (0 % blockDataSize) 0] = [1]
  rw [hbytes]
  rfl

end Karphin.DiscIO.VolumeWii
