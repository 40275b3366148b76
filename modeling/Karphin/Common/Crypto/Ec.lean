import Karphin.Lib.FinNumerals
import Karphin.Lib.BinaryMethod

/-!
# Big numbers

Numbers of `n` bytes, the highest byte first, modulo a number of as many bytes. What a function writes to its buffer `d`
is its result.
-/

namespace Karphin.Common

open Lib

def bnZero (n : Nat) : List UInt8 := List.replicate n 0

def bnByte (n : Nat) (v : UInt8) : List UInt8 := List.replicate (n - 1) 0 ++ [v]

def bnCompare : (a b : List UInt8) → Ordering
  | x :: a, y :: b => (compare x.toNat y.toNat).then (bnCompare a b)
  | _, _ => .eq

/-- What the loop of `bn_sub_modulus`, which starts at the last byte, leaves in `a`, and the borrow. -/
def bnSubLoop : (a N : List UInt8) → List UInt8 × Nat
  | x :: a, y :: N =>
      let rest := bnSubLoop a N
      let dig := y.toNat + rest.2
      ((x - UInt8.ofNat dig) :: rest.1, if x.toNat < dig then 1 else 0)
  | _, _ => ([], 0)

def bnSubModulus (a N : List UInt8) : List UInt8 := (bnSubLoop a N).1

def bnAddLoop : (a b : List UInt8) → List UInt8 × Nat
  | x :: a, y :: b =>
      let rest := bnAddLoop a b
      let dig := x.toNat + y.toNat + rest.2
      (UInt8.ofNat dig :: rest.1, if dig ≥ 0x100 then 1 else 0)
  | _, _ => ([], 0)

def bnReduce (d N : List UInt8) : List UInt8 := if bnCompare d N ≠ .lt then bnSubModulus d N else d

def bnAdd (a b N : List UInt8) : List UInt8 :=
  let sum := bnAddLoop a b
  bnReduce (if sum.2 ≠ 0 then bnSubModulus sum.1 N else sum.1) N

def bnMul (a b N : List UInt8) : List UInt8 :=
  binaryMethod (fun d => bnAdd d d N) (fun d => bnAdd d b N) (bnZero N.length) (bytesBits a)

def bnExp (a N e : List UInt8) : List UInt8 :=
  binaryMethod (fun d => bnMul d d N) (fun t => bnMul t a N) (bnByte N.length 1) (bytesBits e)

@[simp]
theorem bnZero_length (n : Nat) : (bnZero n).length = n := List.length_replicate

theorem bnByte_length {n : Nat} (h : 0 < n) (v : UInt8) : (bnByte n v).length = n := by
  rw [bnByte, List.length_append, List.length_replicate, List.length_singleton]
  exact Nat.sub_add_cancel h

theorem bnSubModulus_length {a N : List UInt8} (h : a.length = N.length) : (bnSubModulus a N).length = N.length := by
  induction a generalizing N with
  | nil =>
      cases N with
      | nil => rfl
      | cons y N => cases h
  | cons x a ih =>
      cases N with
      | nil => cases h
      | cons y N => exact congrArg (· + 1) (ih (Nat.succ.inj h))

theorem bnAddLoop_length {a b : List UInt8} (h : a.length = b.length) : (bnAddLoop a b).1.length = a.length := by
  induction a generalizing b with
  | nil => rfl
  | cons x a ih =>
      cases b with
      | nil => cases h
      | cons y b => exact congrArg (· + 1) (ih (Nat.succ.inj h))

theorem bnReduce_length {d N : List UInt8} (h : d.length = N.length) : (bnReduce d N).length = N.length := by
  rw [bnReduce]
  split
  next => exact bnSubModulus_length h
  next => exact h

theorem bnAdd_length {a b N : List UInt8} (ha : a.length = N.length) (hb : b.length = N.length) :
    (bnAdd a b N).length = N.length := by
  have hsum : (bnAddLoop a b).1.length = N.length := by rw [bnAddLoop_length (ha.trans hb.symm), ha]
  apply bnReduce_length
  split
  next => exact bnSubModulus_length hsum
  next => exact hsum

theorem bnMul_length (a : List UInt8) {b N : List UInt8} (hb : b.length = N.length) :
    (bnMul a b N).length = N.length := by
  have hdouble : ∀ d : List UInt8, d.length = N.length → (bnAdd d d N).length = N.length :=
    fun d hd => bnAdd_length hd hd
  have hadd : ∀ d : List UInt8, d.length = N.length → (bnAdd d b N).length = N.length :=
    fun d hd => bnAdd_length hd hb
  exact binaryMethod_keeps (fun d : List UInt8 => d.length = N.length) hdouble hadd (bnZero_length _) _

def bnInv (a N : List UInt8) : List UInt8 := bnExp a N (bnSubModulus N (bnByte N.length 2))

theorem bnInv_length {a N : List UInt8} (hpos : 0 < N.length) (ha : a.length = N.length) :
    (bnInv a N).length = N.length := by
  have hdouble : ∀ d : List UInt8, d.length = N.length → (bnMul d d N).length = N.length :=
    fun d hd => bnMul_length d hd
  have hadd : ∀ d : List UInt8, d.length = N.length → (bnMul d a N).length = N.length :=
    fun d _ => bnMul_length d ha
  exact binaryMethod_keeps (fun d : List UInt8 => d.length = N.length) hdouble hadd (bnByte_length hpos 1) _

end Karphin.Common

/-!
## The elliptic curve of the console

The field of 233 bits, the points of the curve, signatures.
-/

namespace Karphin.Common.Ec

open Lib

/-! ## Field elements -/

structure Elt where
  data : List UInt8
  size : data.length = 30
  deriving DecidableEq

def Elt.zero : Elt := ⟨bnZero 30, List.length_replicate⟩

def Elt.value (a : Elt) : Nat := beValue a.data

def Elt.isZero (a : Elt) : Bool := a.data.all fun b => b = 0

/-- The loop of `MulX`, with `x` for what was shifted out of the byte before and `ys` for the bytes that follow; then the
last byte. -/
def mulXLoop (carry : UInt8) : (x : UInt8) → (ys : List UInt8) → List UInt8
  | x, [] => [x ^^^ carry]
  | x, y :: ys => (x ^^^ (y >>> 7)) :: mulXLoop carry (y <<< 1) ys

theorem mulXLoop_length (carry : UInt8) : ∀ (x : UInt8) (ys : List UInt8), (mulXLoop carry x ys).length = ys.length + 1
  | _, [] => rfl
  | _, y :: ys => congrArg (· + 1) (mulXLoop_length carry (y <<< 1) ys)

def Elt.mulX (a : Elt) : Elt where
  data :=
    let carry := a.data.headD 0 &&& 1
    (mulXLoop carry 0 a.data.tail).modify 20 (· ^^^ (carry <<< 2))
  size := by rw [List.length_modify, mulXLoop_length, List.length_tail, a.size]

def squareTable (i : UInt8) : UInt8 :=
  [0x00, 0x01, 0x04, 0x05, 0x10, 0x11, 0x14, 0x15, 0x40, 0x41, 0x44, 0x45, 0x50, 0x51, 0x54, 0x55].getD i.toNat 0

def squareWide (data : List UInt8) : List UInt8 := data.flatMap fun (b : UInt8) =>
  [squareTable (b >>> 4), squareTable (b &&& 15)]

def squareReduce (wide : List UInt8) (i : Nat) : List UInt8 :=
  let x := wide.getD i 0
  let wide := wide.modify (i + 19) (· ^^^ (x >>> 7))
  let wide := wide.modify (i + 20) (· ^^^ (x <<< 1))
  let wide := wide.modify (i + 29) (· ^^^ (x >>> 1))
  wide.modify (i + 30) (· ^^^ (x <<< 7))

/-- What `Square` does after its loops, to the bits above the lowest in byte 30. -/
def squareFinish (wide : List UInt8) : List UInt8 :=
  let x := wide.getD 30 0 &&& 0xfe
  let wide := wide.modify 49 (· ^^^ (x >>> 7))
  let wide := wide.modify 50 (· ^^^ (x <<< 1))
  let wide := wide.modify 59 (· ^^^ (x >>> 1))
  wide.modify 30 (· &&& 1)

theorem squareWide_length (data : List UInt8) : (squareWide data).length = 2 * data.length := by
  induction data with
  | nil => rfl
  | cons b data ih =>
      rw [squareWide, List.flatMap_cons, List.length_append, ← squareWide, ih, List.length_cons, List.length_cons,
        List.length_cons, List.length_nil]
      omega

theorem squareReduce_length (wide : List UInt8) (i : Nat) : (squareReduce wide i).length = wide.length := by
  simp only [squareReduce, List.length_modify]

theorem squareFinish_length (wide : List UInt8) : (squareFinish wide).length = wide.length := by
  simp only [squareFinish, List.length_modify]

theorem foldl_squareReduce_length : ∀ (rounds : List Nat) (wide : List UInt8),
    (rounds.foldl squareReduce wide).length = wide.length
  | [], _ => rfl
  | i :: rounds, wide => by rw [List.foldl_cons, foldl_squareReduce_length rounds, squareReduce_length]

def Elt.square (a : Elt) : Elt where
  data := (squareFinish ((List.range 30).foldl squareReduce (squareWide a.data))).drop 30
  size := by rw [List.length_drop, squareFinish_length, foldl_squareReduce_length, squareWide_length, a.size]

def Elt.add (a b : Elt) : Elt where
  data := a.data.zipWith (· ^^^ ·) b.data
  size := by rw [List.length_zipWith, a.size, b.size, Nat.min_self]

def mulLoop (a b : Elt) : (n i : Nat) → (mask : UInt8) → (d : Elt) → Elt
  | 0, _, _, d => d
  | n + 1, i, mask, d =>
      let d := d.mulX
      let d := if a.data.getD i 0 &&& mask ≠ 0 then d.add b else d
      let mask := mask >>> 1
      if mask = 0 then mulLoop a b n (i + 1) 0x80 d else mulLoop a b n i mask d

def Elt.mul (a b : Elt) : Elt := mulLoop a b 233 0 1 Elt.zero

def Elt.itohTsujii (a b : Elt) (j : Nat) : Elt := (Elt.square^[j] a).mul b

def Elt.inv (a : Elt) : Elt :=
  let t := a.itohTsujii a 1
  let s := t.itohTsujii a 1
  let t := s.itohTsujii s 3
  let s := t.itohTsujii a 1
  let t := s.itohTsujii s 7
  let s := t.itohTsujii t 14
  let t := s.itohTsujii a 1
  let s := t.itohTsujii t 29
  let t := s.itohTsujii s 58
  let s := t.itohTsujii t 116
  s.square

def Elt.div (dividend divisor : Elt) : Elt := dividend.mul divisor.inv

def Elt.flipLast (a : Elt) : Elt where
  data := a.data.modify 29 (· ^^^ 1)
  size := by rw [List.length_modify, a.size]

/-! ## Points -/

structure Point where
  x : Elt
  y : Elt
  deriving DecidableEq

def Point.zero : Point := ⟨.zero, .zero⟩

def Point.isZero (p : Point) : Bool := p.x.isZero && p.y.isZero

def Point.double (p : Point) : Point :=
  if p.x.isZero then Point.zero
  else
    let s := (p.y.div p.x).add p.x
    let rx := (s.square.add s).flipLast
    ⟨rx, ((s.mul rx).add rx).add p.x.square⟩

def Point.add (a b : Point) : Point :=
  if a.isZero then b
  else if b.isZero then a
  else
    let u := a.x.add b.x
    if u.isZero then
      if (a.y.add b.y).isZero then a.double else Point.zero
    else
      let s := (a.y.add b.y).div u
      let t := ((s.square.add s).add b.x).flipLast
      let rx := t.add a.x
      ⟨rx, ((s.mul t).add a.y).add rx⟩

def Point.smul (a : Elt) (b : Point) : Point := binaryMethod Point.double (·.add b) Point.zero (bytesBits a.data)

/-! ## Constants -/

def ecN : Elt where
  data := [
    0x01, 0x00, 0x00, 0x00, 0x00, 0x00, 0x00, 0x00, 0x00, 0x00,
    0x00, 0x00, 0x00, 0x00, 0x00, 0x13, 0xe9, 0x74, 0xe7, 0x2f,
    0x8a, 0x69, 0x22, 0x03, 0x1d, 0x26, 0x03, 0xcf, 0xe0, 0xd7]
  size := rfl

/-- `ec_b`, which the code does not use. -/
def ecB : Elt where
  data := [
    0x00, 0x66, 0x64, 0x7e, 0xde, 0x6c, 0x33, 0x2c, 0x7f, 0x8c, 0x09, 0x23, 0xbb, 0x58, 0x21,
    0x3b, 0x33, 0x3b, 0x20, 0xe9, 0xce, 0x42, 0x81, 0xfe, 0x11, 0x5f, 0x7d, 0x8f, 0x90, 0xad]
  size := rfl

def ecG : Point where
  x := {
    data := [
      0x00, 0xfa, 0xc9, 0xdf, 0xcb, 0xac, 0x83, 0x13, 0xbb, 0x21, 0x39, 0xf1, 0xbb, 0x75, 0x5f,
      0xef, 0x65, 0xbc, 0x39, 0x1f, 0x8b, 0x36, 0xf8, 0xf8, 0xeb, 0x73, 0x71, 0xfd, 0x55, 0x8b]
    size := rfl }
  y := {
    data := [
      0x01, 0x00, 0x6a, 0x08, 0xa4, 0x19, 0x03, 0x35, 0x06, 0x78, 0xe5, 0x85, 0x28, 0xbe, 0xbf,
      0x8a, 0x0b, 0xef, 0xf8, 0x67, 0xa7, 0xca, 0x36, 0x71, 0x6f, 0x7e, 0x01, 0xf8, 0x10, 0x52]
    size := rfl }

/-! ## Signatures -/

structure Signature where
  r : Elt
  s : Elt
  deriving DecidableEq

structure Hash where
  data : List UInt8
  size : data.length = 20

def Hash.e (hash : Hash) : Elt := ⟨bnZero 10 ++ hash.data, by rw [List.length_append, bnZero_length, hash.size]⟩

def Elt.bnMul (a b : Elt) : Elt := ⟨Common.bnMul a.data b.data ecN.data, by rw [bnMul_length _ b.size]; rfl⟩

def Elt.bnAdd (a b : Elt) : Elt := ⟨Common.bnAdd a.data b.data ecN.data, by rw [bnAdd_length a.size b.size]; rfl⟩

def Elt.bnInv (a : Elt) : Elt := ⟨Common.bnInv a.data ecN.data, by rw [bnInv_length (by decide) a.size]; rfl⟩

/-- The subtraction of the order when it is not above the number. -/
def Elt.subOrder (a : Elt) : Elt := ⟨bnReduce a.data ecN.data, by rw [bnReduce_length a.size]; rfl⟩

def Elt.maskNonce (m : Elt) : Elt := ⟨m.data.modify 0 (· &&& 1), by rw [List.length_modify, m.size]⟩

def drawNonce : (draws : List Elt) → Option Elt
  | [] => none
  | draw :: draws =>
      let m := draw.maskNonce
      if bnCompare m.data ecN.data ≠ .lt then drawNonce draws else some m

def signWith (key : Elt) (hash : Hash) (m : Elt) : Signature :=
  let r := (Point.smul m ecG).x.subOrder
  let kk := key.subOrder
  let s := r.bnMul kk
  let kk := s.bnAdd hash.e
  let minv := m.bnInv
  ⟨r, minv.bnMul kk⟩

def sign (key : Elt) (hash : Hash) (draws : List Elt) : Option Signature := (drawNonce draws).map (signWith key hash)

def verifySignature (publicKey : Point) (signature : Signature) (hash : Hash) : Bool :=
  let sinv := signature.s.bnInv
  let w1 := hash.e.bnMul sinv
  let w2 := signature.r.bnMul sinv
  let r1 := (Point.smul w1 ecG).add (Point.smul w2 publicKey)
  bnCompare r1.x.subOrder.data signature.r.data = .eq

def privToPub (key : Elt) : Point := Point.smul key ecG

end Karphin.Common.Ec
