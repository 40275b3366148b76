import Mathlib

/-!
# A part of x86-64

The instructions on 32-bit and 64-bit registers that short sequences of integer code use, with the flags that conditions
read. Memory is a table of named words and bytes.
-/

namespace Karphin.Lib.X64

inductive X64Reg
  | rax | rcx | rdx | rbx | rsp | rbp | rsi | rdi | r8 | r9 | r10 | r11 | r12 | r13 | r14 | r15
  deriving DecidableEq

inductive Source (α : Type)
  | reg (r : X64Reg)
  | mem (address : α)
  | imm (value : BitVec 32)

inductive CCFlags
  | s | ns | o | no

inductive Size
  | w32 | w64

inductive Arithmetic
  | add | sub

inductive Shift
  | shr | sar

inductive Instr (α : Type)
  | mov32 (dst : X64Reg) (src : Source α)
  | mov64 (dst src : X64Reg)
  /-- A word is sign-extended. -/
  | movsx (dst : X64Reg) (src : Source α)
  | arithmetic (op : Arithmetic) (size : Size) (dst src : X64Reg)
  | neg32 (dst : X64Reg)
  | imul64 (dst src : X64Reg)
  /-- The immediate is sign-extended. -/
  | imul64Imm (dst src : X64Reg) (value : BitVec 32)
  | shift (op : Shift) (size : Size) (dst : X64Reg) (count : Nat)
  | test32 (left right : X64Reg)
  /-- The sum of a register and a displacement. -/
  | lea32 (dst base : X64Reg) (displacement : BitVec 32)
  | cmov32 (cond : CCFlags) (dst src : X64Reg)
  | mov8 (dst : α) (value : BitVec 8)
  | and8 (dst : α) (value : BitVec 8)
  /-- A jump over as many instructions. -/
  | jcc (cond : CCFlags) (skip : Nat)
  | jmp (skip : Nat)

structure Flags where
  sign : Bool
  overflow : Bool

/-- There are no flags after an instruction that leaves one of them undefined. -/
structure State (α : Type) where
  regs : X64Reg → BitVec 64
  flags : Option Flags
  words : α → BitVec 32
  bytes : α → BitVec 8

namespace State

variable {α : Type}

def read32 (s : State α) (r : X64Reg) : BitVec 32 := (s.regs r).setWidth 32

def write64 (s : State α) (r : X64Reg) (value : BitVec 64) : State α := { s with regs := Function.update s.regs r value }

def write32 (s : State α) (r : X64Reg) (value : BitVec 32) : State α := s.write64 r (value.setWidth 64)

def source (s : State α) : Source α → BitVec 32
  | .reg r => s.read32 r
  | .mem address => s.words address
  | .imm value => value

def setFlags (s : State α) (flags : Option Flags) : State α := { s with flags := flags }

def holds (flags : Flags) : CCFlags → Bool
  | .s => flags.sign
  | .ns => !flags.sign
  | .o => flags.overflow
  | .no => !flags.overflow

end State

section

variable {α : Type} {w : Nat}

def Arithmetic.value (op : Arithmetic) (x y : BitVec w) : BitVec w :=
  match op with
  | add => x + y
  | sub => x - y

def Arithmetic.flags (op : Arithmetic) (x y : BitVec w) : Flags :=
  match op with
  | add => ⟨(x + y).msb, x.saddOverflow y⟩
  | sub => ⟨(x - y).msb, x.ssubOverflow y⟩

def Shift.value (op : Shift) (x : BitVec w) (count : Nat) : BitVec w :=
  match op with
  | shr => x >>> count
  | sar => x.sshiftRight count

/-- One instruction, and how many of the next ones are skipped; none where a condition reads undefined flags. -/
def step [DecidableEq α] (s : State α) : Instr α → Option (State α × Nat)
  | .mov32 dst src => some (s.write32 dst (s.source src), 0)
  | .mov64 dst src => some (s.write64 dst (s.regs src), 0)
  | .movsx dst src => some (s.write64 dst ((s.source src).signExtend 64), 0)
  | .arithmetic op .w32 dst src =>
      some ((s.write32 dst (op.value (s.read32 dst) (s.read32 src))).setFlags
        (some (op.flags (s.read32 dst) (s.read32 src))), 0)
  | .arithmetic op .w64 dst src =>
      some ((s.write64 dst (op.value (s.regs dst) (s.regs src))).setFlags (some (op.flags (s.regs dst) (s.regs src))), 0)
  | .neg32 dst =>
      some ((s.write32 dst (-s.read32 dst)).setFlags (some ⟨(-s.read32 dst).msb, (s.read32 dst).negOverflow⟩), 0)
  | .imul64 dst src => some ((s.write64 dst (s.regs dst * s.regs src)).setFlags none, 0)
  | .imul64Imm dst src value => some ((s.write64 dst (s.regs src * value.signExtend 64)).setFlags none, 0)
  | .shift op .w32 dst count => some ((s.write32 dst (op.value (s.read32 dst) (count % 32))).setFlags none, 0)
  | .shift op .w64 dst count => some ((s.write64 dst (op.value (s.regs dst) (count % 64))).setFlags none, 0)
  | .test32 left right => some (s.setFlags (some ⟨(s.read32 left &&& s.read32 right).msb, false⟩), 0)
  | .lea32 dst base displacement =>
      some (s.write32 dst ((s.regs base + displacement.signExtend 64).setWidth 32), 0)
  | .cmov32 cond dst src =>
      s.flags.map fun flags => (s.write32 dst (if State.holds flags cond then s.read32 src else s.read32 dst), 0)
  | .mov8 dst value => some ({ s with bytes := Function.update s.bytes dst value }, 0)
  | .and8 dst value =>
      some ({ s with bytes := Function.update s.bytes dst (s.bytes dst &&& value) }.setFlags
        (some ⟨(s.bytes dst &&& value).msb, false⟩), 0)
  | .jcc cond skip => s.flags.map fun flags => (s, if State.holds flags cond then skip else 0)
  | .jmp skip => some (s, skip)

def runFrom [DecidableEq α] : List (Instr α) → Nat → State α → Option (State α)
  | [], _, s => some s
  | _ :: code, skip + 1, s => runFrom code skip s
  | instr :: code, 0, s => (step s instr).bind fun (s, skip) => runFrom code skip s

def run [DecidableEq α] (code : List (Instr α)) (s : State α) : Option (State α) := runFrom code 0 s

end

/-! ## Code without jumps -/

def Instr.isJump {α : Type} : Instr α → Bool
  | .jcc _ _ => true
  | .jmp _ => true
  | _ => false

section

variable {α : Type} [DecidableEq α]

theorem step_of_not_isJump {instr : Instr α} (h : instr.isJump = false) {s s' : State α} {skip : Nat}
    (hstep : step s instr = some (s', skip)) : skip = 0 := by
  cases instr with
  | jcc cond skip => cases h
  | jmp skip => cases h
  | arithmetic op size dst src => cases size <;> (cases hstep; rfl)
  | shift op size dst count => cases size <;> (cases hstep; rfl)
  | cmov32 cond dst src =>
      obtain ⟨flags, -, hflags⟩ := Option.map_eq_some_iff.mp hstep
      cases hflags
      rfl
  | _ =>
      cases hstep
      rfl

theorem run_append {code : List (Instr α)} (hcode : code.all (!·.isJump) = true) (rest : List (Instr α)) (s : State α) :
    run (code ++ rest) s = (run code s).bind (run rest) := by
  induction code generalizing s with
  | nil => rfl
  | cons instr code ih =>
      rw [List.all_cons, Bool.and_eq_true, Bool.not_eq_true'] at hcode
      simp only [run, List.cons_append, runFrom]
      cases hstep : step s instr with
      | none => rfl
      | some result =>
          obtain ⟨s', skip⟩ := result
          obtain rfl := step_of_not_isJump hcode.1 hstep
          exact ih hcode.2 s'

end

/-! ## Reading registers -/

namespace State

variable {α : Type} {s : State α} {r r' : X64Reg}

@[simp]
theorem regs_write64_self (value : BitVec 64) : (s.write64 r value).regs r = value := Function.update_self _ _ _

@[simp]
theorem regs_write64_of_ne (h : r' ≠ r) (value : BitVec 64) : (s.write64 r value).regs r' = s.regs r' :=
  Function.update_of_ne h _ _

@[simp]
theorem regs_write32_self (value : BitVec 32) : (s.write32 r value).regs r = value.setWidth 64 := regs_write64_self _

@[simp]
theorem regs_write32_of_ne (h : r' ≠ r) (value : BitVec 32) : (s.write32 r value).regs r' = s.regs r' :=
  regs_write64_of_ne h _

@[simp]
theorem read32_write32_self (value : BitVec 32) : (s.write32 r value).read32 r = value := by
  rw [read32, regs_write32_self, BitVec.setWidth_setWidth_of_le _ (by decide), BitVec.setWidth_eq]

@[simp]
theorem read32_write32_of_ne (h : r' ≠ r) (value : BitVec 32) : (s.write32 r value).read32 r' = s.read32 r' := by
  rw [read32, regs_write32_of_ne h, read32]

@[simp]
theorem read32_write64_self (value : BitVec 64) : (s.write64 r value).read32 r = value.setWidth 32 := by
  rw [read32, regs_write64_self]

@[simp]
theorem read32_write64_of_ne (h : r' ≠ r) (value : BitVec 64) : (s.write64 r value).read32 r' = s.read32 r' := by
  rw [read32, regs_write64_of_ne h, read32]

@[simp]
theorem source_imm (value : BitVec 32) : s.source (.imm value) = value := rfl

@[simp]
theorem source_reg : s.source (.reg r) = s.read32 r := rfl

@[simp]
theorem regs_setFlags (flags : Option Flags) : (s.setFlags flags).regs = s.regs := rfl

@[simp]
theorem read32_setFlags (flags : Option Flags) : (s.setFlags flags).read32 r = s.read32 r := rfl

@[simp]
theorem flags_setFlags (flags : Option Flags) : (s.setFlags flags).flags = flags := rfl

@[simp]
theorem flags_write32 (value : BitVec 32) : (s.write32 r value).flags = s.flags := rfl

end State

/-! ## Words of signed numbers -/

theorem sshiftRight_eq_div {w : Nat} (x : BitVec w) (count : Nat) :
    x.sshiftRight count = BitVec.ofInt w (x.toInt / 2 ^ count) := by
  rw [BitVec.sshiftRight_eq, Int.shiftRight_eq_div_pow]
  rfl

theorem sshiftRight_ofInt {w : Nat} (hw : 0 < w) {z : Int} (hlow : -2 ^ (w - 1) ≤ z) (hhigh : z < 2 ^ (w - 1)) (count : Nat) :
    (BitVec.ofInt w z).sshiftRight count = BitVec.ofInt w (z / 2 ^ count) := by
  rw [sshiftRight_eq_div, BitVec.toInt_ofInt_eq_self hw hlow hhigh]

theorem setWidth_ofInt {v w : Nat} (h : v ≤ w) (z : Int) : (BitVec.ofInt w z).setWidth v = BitVec.ofInt v z := by
  apply BitVec.eq_of_toNat_eq
  have hdvd : ((2 ^ v : Nat) : Int) ∣ (2 ^ w : Nat) := Int.natCast_dvd_natCast.mpr (Nat.pow_dvd_pow 2 h)
  have hnonneg := Int.emod_nonneg z (Int.natCast_ne_zero.mpr (Nat.ne_of_gt (Nat.two_pow_pos w)))
  rw [BitVec.toNat_setWidth, BitVec.toNat_ofInt, BitVec.toNat_ofInt, ← Int.toNat_natCast (2 ^ v), ← Int.toNat_emod hnonneg
    (Int.natCast_nonneg _), Int.toNat_natCast, Int.emod_emod_of_dvd _ hdvd]

theorem setWidth_signExtend {v w : Nat} (h : v ≤ w) (x : BitVec v) : (x.signExtend w).setWidth v = x :=
  (setWidth_ofInt h x.toInt).trans BitVec.ofInt_toInt

theorem signExtend_mul_signExtend {v w : Nat} (x y : BitVec v) :
    x.signExtend w * y.signExtend w = BitVec.ofInt w (x.toInt * y.toInt) := (BitVec.ofInt_mul _ _).symm

theorem setWidth_ushiftRight_ofInt (z : Int) : (BitVec.ofInt 64 z >>> 32).setWidth 32 = BitVec.ofInt 32 (z / 2 ^ 32) := by
  apply BitVec.eq_of_toNat_eq
  rw [BitVec.toNat_setWidth, BitVec.toNat_ushiftRight, BitVec.toNat_ofInt, BitVec.toNat_ofInt, Nat.shiftRight_eq_div_pow]
  omega

theorem ushiftRight_31 (x : BitVec 32) : x >>> 31 = BitVec.ofInt 32 (if x.toInt < 0 then 1 else 0) := by
  apply BitVec.eq_of_toNat_eq
  have hlt := x.isLt
  rw [BitVec.toNat_ushiftRight, BitVec.toInt_eq_toNat_cond, Nat.shiftRight_eq_div_pow, BitVec.toNat_ofInt]
  split <;> split <;> omega

theorem ushiftRight_63 (x : BitVec 64) : (x >>> 63).setWidth 32 = BitVec.ofInt 32 (if x.toInt < 0 then 1 else 0) := by
  apply BitVec.eq_of_toNat_eq
  have hlt := x.isLt
  rw [BitVec.toNat_setWidth, BitVec.toNat_ushiftRight, BitVec.toInt_eq_toNat_cond, Nat.shiftRight_eq_div_pow,
    BitVec.toNat_ofInt]
  split <;> split <;> omega

theorem ofInt_inj {w : Nat} (hw : 0 < w) {x y : Int} (hx : -2 ^ (w - 1) ≤ x ∧ x < 2 ^ (w - 1))
    (hy : -2 ^ (w - 1) ≤ y ∧ y < 2 ^ (w - 1)) : BitVec.ofInt w x = BitVec.ofInt w y ↔ x = y := by
  constructor
  · intro heq
    rw [← BitVec.toInt_ofInt_eq_self hw hx.1 hx.2, heq, BitVec.toInt_ofInt_eq_self hw hy.1 hy.2]
  · exact congrArg _

end Karphin.Lib.X64
