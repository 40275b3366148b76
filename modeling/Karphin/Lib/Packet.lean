import Mathlib

/-!
# Packets of bytes

Numbers are written in big endian, strings with their length in front. A read that does not find its bytes takes none,
leaves the variable as it was and makes every later read fail.
-/

namespace Karphin.Lib

/-! ## Numbers -/

def beBytes : (w : Nat) → Nat → List UInt8
  | 0, _ => []
  | w + 1, v => UInt8.ofNat (v / 256 ^ w) :: beBytes w v

def ofBeBytes (bytes : List UInt8) : Nat := bytes.foldl (fun v b => v * 256 + b.toNat) 0

@[simp]
theorem beBytes_length (v : Nat) : ∀ (w : Nat), (beBytes w v).length = w
  | 0 => rfl
  | w + 1 => congrArg (· + 1) (beBytes_length v w)

theorem foldl_beBytes (v : Nat) : ∀ (w acc : Nat),
    (beBytes w v).foldl (fun v b => v * 256 + b.toNat) acc = acc * 256 ^ w + v % 256 ^ w
  | 0, acc => by simp [beBytes, Nat.mod_one]
  | w + 1, acc => by
      have hbyte : (UInt8.ofNat (v / 256 ^ w)).toNat = v / 256 ^ w % 256 := by simp
      have hmod : v % 256 ^ (w + 1) = 256 ^ w * (v / 256 ^ w % 256) + v % 256 ^ w := by
        rw [Nat.pow_succ, Nat.mod_mul]
        omega
      rw [beBytes, List.foldl_cons, foldl_beBytes v w, hbyte, hmod]
      ring

theorem ofBeBytes_beBytes (w v : Nat) : ofBeBytes (beBytes w v) = v % 256 ^ w := by
  rw [ofBeBytes, foldl_beBytes]
  simp

/-! ## Reading -/

/-- The bytes that are left to read, and whether no read has failed. -/
structure Packet where
  data : List UInt8
  valid : Bool := true
  deriving DecidableEq, Repr

namespace Packet

def endOfPacket (p : Packet) : Bool := p.data.isEmpty

def take (p : Packet) (n : Nat) : Option (List UInt8) × Packet :=
  if p.valid && n ≤ p.data.length then (some (p.data.take n), { p with data := p.data.drop n })
  else (none, { p with valid := false })

/-- A number of `w` bytes, read into a variable that holds `old`. -/
def readNat (p : Packet) (w old : Nat) : Nat × Packet :=
  match p.take w with
  | (some bytes, p) => (ofBeBytes bytes, p)
  | (none, p) => (old, p)

def readByte (p : Packet) (old : UInt8) : UInt8 × Packet :=
  match p.take 1 with
  | (some bytes, p) => (bytes.headD 0, p)
  | (none, p) => (old, p)

def readBool (p : Packet) (old : Bool) : Bool × Packet :=
  match p.take 1 with
  | (some bytes, p) => (bytes.headD 0 ≠ 0, p)
  | (none, p) => (old, p)

def readString (p : Packet) : List UInt8 × Packet :=
  let (length, p) := p.readNat 4 0
  if length > 0 then
    match p.take length with
    | (some bytes, p) => (bytes, p)
    | (none, p) => ([], p)
  else ([], p)

def readBytes : (old : List UInt8) → Nat → Packet → List UInt8 × Packet
  | _, 0, p => ([], p)
  | old, n + 1, p =>
      let (b, p) := p.readByte (old.headD 0)
      let (bs, p) := readBytes old.tail n p
      (b :: bs, p)

/-! ## Writing -/

def putString (s : List UInt8) : List UInt8 := beBytes 4 s.length ++ s

def putBool (b : Bool) : List UInt8 := [if b then 1 else 0]

/-! ## What was written is read -/

theorem take_append (bytes rest : List UInt8) :
    take ⟨bytes ++ rest, true⟩ bytes.length = (some bytes, ⟨rest, true⟩) := by
  simp [take]

theorem readNat_beBytes {w v : Nat} (h : v < 256 ^ w) (old : Nat) (rest : List UInt8) :
    readNat ⟨beBytes w v ++ rest, true⟩ w old = (v, ⟨rest, true⟩) := by
  have htake := take_append (beBytes w v) rest
  rw [beBytes_length] at htake
  rw [readNat, htake]
  simp only [ofBeBytes_beBytes, Nat.mod_eq_of_lt h]

theorem readByte_cons (b old : UInt8) (rest : List UInt8) : readByte ⟨b :: rest, true⟩ old = (b, ⟨rest, true⟩) := by
  simp [readByte, take]

theorem readBool_putBool (b old : Bool) (rest : List UInt8) :
    readBool ⟨putBool b ++ rest, true⟩ old = (b, ⟨rest, true⟩) := by
  cases b
  · simp [readBool, putBool, take]
  · simp [readBool, putBool, take]

theorem readString_putString {s : List UInt8} (h : s.length < 256 ^ 4) (rest : List UInt8) :
    readString ⟨putString s ++ rest, true⟩ = (s, ⟨rest, true⟩) := by
  rw [readString, putString, List.append_assoc, readNat_beBytes h]
  simp only [take_append]
  split
  · rfl
  · next hlen =>
      have hs : s = [] := List.length_eq_zero_iff.1 (by omega)
      simp [hs]

theorem readBytes_append : ∀ (bytes rest old : List UInt8),
    readBytes old bytes.length ⟨bytes ++ rest, true⟩ = (bytes, ⟨rest, true⟩)
  | [], _, _ => rfl
  | b :: bytes, rest, old => by
      rw [List.length_cons, readBytes, List.cons_append, readByte_cons]
      simp only [readBytes_append bytes rest old.tail]

/-! ## What a read takes -/

theorem take_length_le (p : Packet) (n : Nat) : (p.take n).2.data.length ≤ p.data.length := by
  unfold take
  split
  · simp
  · exact Nat.le_refl _

theorem take_fails {p : Packet} {n : Nat} (h : ¬ (p.valid && n ≤ p.data.length) = true) :
    p.take n = (none, { p with valid := false }) := by
  rw [take, if_neg h]

theorem readNat_length_lt {p : Packet} {w old : Nat} (hw : 0 < w) (h : (p.readNat w old).1 ≠ old) :
    (p.readNat w old).2.data.length < p.data.length := by
  by_cases hsize : (p.valid && w ≤ p.data.length) = true
  · have htake : p.take w = (some (p.data.take w), { p with data := p.data.drop w }) := by
      rw [take, if_pos hsize]
    rw [readNat, htake]
    simp only [Bool.and_eq_true, decide_eq_true_eq] at hsize
    simp only [List.length_drop]
    omega
  · rw [readNat, take_fails hsize] at h
    exact absurd rfl h

theorem readByte_length_le (p : Packet) (old : UInt8) : (p.readByte old).2.data.length ≤ p.data.length := by
  have h := p.take_length_le 1
  unfold readByte
  split
  · next heq => rwa [heq] at h
  · next heq => rwa [heq] at h

theorem readBytes_length_le : ∀ (old : List UInt8) (n : Nat) (p : Packet),
    (readBytes old n p).2.data.length ≤ p.data.length
  | _, 0, _ => Nat.le_refl _
  | old, n + 1, p => by
      have h1 := p.readByte_length_le (old.headD 0)
      have h2 := readBytes_length_le old.tail n (p.readByte (old.headD 0)).2
      exact Nat.le_trans h2 h1

/-! ## Packets that end in the middle of a field -/

def Whole (p : Packet) : Prop := p.valid = true ∨ p.data = []

theorem take_one {p : Packet} (h : p.Whole) : (p.take 1).2.data = p.data.drop 1 ∧ (p.take 1).2.Whole := by
  unfold take
  split
  · next hsize =>
      simp only [Bool.and_eq_true] at hsize
      exact ⟨rfl, .inl hsize.1⟩
  · next hsize =>
      have hnil : p.data = [] := by
        obtain hv | hnil := h
        · simpa [hv] using hsize
        · exact hnil
      simp [hnil, Whole]

theorem readByte_whole {p : Packet} (h : p.Whole) (old : UInt8) :
    (p.readByte old).2.data = p.data.drop 1 ∧ (p.readByte old).2.Whole := by
  have ht := take_one h
  unfold readByte
  split
  · next heq => rwa [heq] at ht
  · next heq => rwa [heq] at ht

theorem readBool_whole {p : Packet} (h : p.Whole) (old : Bool) :
    (p.readBool old).2.data = p.data.drop 1 ∧ (p.readBool old).2.Whole := by
  have ht := take_one h
  unfold readBool
  split
  · next heq => rwa [heq] at ht
  · next heq => rwa [heq] at ht

theorem readBytes_whole : ∀ (old : List UInt8) (n : Nat) {p : Packet}, p.Whole →
    (readBytes old n p).2.data = p.data.drop n ∧ (readBytes old n p).2.Whole
  | _, 0, _, h => ⟨rfl, h⟩
  | old, n + 1, p, h => by
      obtain ⟨hdata, hwhole⟩ := readByte_whole h (old.headD 0)
      obtain ⟨hdata', hwhole'⟩ := readBytes_whole old.tail n hwhole
      simp only [readBytes]
      rw [hdata', hdata, List.drop_drop]
      exact ⟨congrArg (p.data.drop ·) (Nat.add_comm 1 n), hwhole'⟩

theorem readByte_invalid {p : Packet} (h : p.valid = false) (old : UInt8) : p.readByte old = (old, p) := by
  have ht : p.take 1 = (none, p) := by
    rw [take_fails (by simp [h]), ← h]
  rw [readByte, ht]

theorem readBool_invalid {p : Packet} (h : p.valid = false) (old : Bool) : p.readBool old = (old, p) := by
  have ht : p.take 1 = (none, p) := by
    rw [take_fails (by simp [h]), ← h]
  rw [readBool, ht]

theorem readBytes_invalid {p : Packet} (h : p.valid = false) : ∀ (old : List UInt8) (n : Nat),
    (readBytes old n p).2 = p
  | _, 0 => rfl
  | old, n + 1 => by
      simp only [readBytes, readByte_invalid h, readBytes_invalid h old.tail n]

end Packet

end Karphin.Lib
