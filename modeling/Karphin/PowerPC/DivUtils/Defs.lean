import Karphin.Lib.FinNumerals

/-!
# Constants for divisions

The multipliers and shifts with which a division by a constant becomes a multiplication.
-/

namespace Karphin.PowerPC

structure SignedMagic where
  multiplier : BitVec 32
  shift : BitVec 8
  deriving DecidableEq

structure UnsignedMagic where
  multiplier : BitVec 32
  shift : BitVec 8
  fast : Bool
  deriving DecidableEq

/-! ## Signed -/

namespace SignedDivision

def two31 : BitVec 32 := 2147483648

def ad (divisor : BitVec 32) : BitVec 32 := divisor.abs

def anc (divisor : BitVec 32) : BitVec 32 :=
  let t := two31 - (if divisor.slt 0 then 1 else 0)
  t - 1 - t % ad divisor

structure Loop where
  q1 : BitVec 32
  r1 : BitVec 32
  q2 : BitVec 32
  r2 : BitVec 32
  p : Nat

def start (ad anc : BitVec 32) : Loop where
  q1 := two31 / anc
  r1 := two31 - two31 / anc * anc
  q2 := two31 / ad
  r2 := two31 - two31 / ad * ad
  p := 31

def double (divisor q r : BitVec 32) : BitVec 32 × BitVec 32 :=
  let q := q * 2
  let r := r * 2
  if divisor.ule r then (q + 1, r - divisor) else (q, r)

def body (ad anc : BitVec 32) (s : Loop) : Loop :=
  let (q1, r1) := double anc s.q1 s.r1
  let (q2, r2) := double ad s.q2 s.r2
  ⟨q1, r1, q2, r2, s.p + 1⟩

def again (ad : BitVec 32) (s : Loop) : Bool :=
  let delta := ad - s.r2
  s.q1.ult delta || s.q1 == delta && s.r1 == 0

def loop (ad anc : BitVec 32) : Nat → Loop → Option Loop
  | 0, _ => none
  | rounds + 1, s =>
      let s := body ad anc s
      if again ad s then loop ad anc rounds s else some s

end SignedDivision

open SignedDivision in
def SignedDivisionConstants (divisor : BitVec 32) : Option SignedMagic :=
  (loop (ad divisor) (anc divisor) 31 (start (ad divisor) (anc divisor))).map fun s =>
    { multiplier := if divisor.slt 0 then -(s.q2 + 1) else s.q2 + 1
      shift := BitVec.ofNat 8 (s.p - 32) }

/-! ## Unsigned -/

namespace UnsignedDivision

def shift (divisor : BitVec 32) : BitVec 32 := 31 - divisor.clz

def magicDividend (divisor : BitVec 32) : BitVec 64 := 0x100000000#64 <<< (shift divisor).toNat

def multiplier (divisor : BitVec 32) : BitVec 32 := (magicDividend divisor / divisor.setWidth 64).setWidth 32

def maxQuotient (divisor : BitVec 32) : BitVec 32 := multiplier divisor >>> (shift divisor).toNat

def product (divisor : BitVec 32) : BitVec 64 :=
  (multiplier divisor + 1).setWidth 64 * (maxQuotient divisor * divisor - 1).setWidth 64

def roundUp (divisor : BitVec 32) : BitVec 32 := (product divisor >>> (shift divisor + 32).toNat).setWidth 32

def fast (divisor : BitVec 32) : Bool := roundUp divisor == maxQuotient divisor - 1

end UnsignedDivision

open UnsignedDivision in
def UnsignedDivisionConstants (divisor : BitVec 32) : UnsignedMagic :=
  let shift := shift divisor
  let multiplier := multiplier divisor
  if fast divisor then
    let multiplier := multiplier + 1
    -- the smallest multiplier and shift
    let trailingZeroes := if multiplier.ctz.ult shift then multiplier.ctz else shift
    ⟨multiplier >>> trailingZeroes.toNat, (shift - trailingZeroes).setWidth 8, true⟩
  else ⟨multiplier, shift.setWidth 8, false⟩

end Karphin.PowerPC
