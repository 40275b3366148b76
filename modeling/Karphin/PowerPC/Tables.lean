import Karphin.Lib.FinNumerals

/-!
# Instruction words

The bit fields of `UGeckoInstruction`. Fields that select a register have that register's index as their
value; a field that the source declares several times under numbered names appears once.
-/

namespace Karphin.PowerPC

structure UGeckoInstruction where
  hex : BitVec 32
  deriving DecidableEq, Repr

namespace UGeckoInstruction

variable (inst : UGeckoInstruction)

def Rc : Bool := inst.hex.getLsbD 0
def SUBOP10 : BitVec 10 := inst.hex.extractLsb' 1 10
def SUBOP5 : BitVec 5 := inst.hex.extractLsb' 1 5
def OPCD : BitVec 6 := inst.hex.extractLsb' 26 6
def OE : Bool := inst.hex.getLsbD 10
def RA : Fin 32 := (inst.hex.extractLsb' 16 5).toFin
def RB : Fin 32 := (inst.hex.extractLsb' 11 5).toFin
def RC : Fin 32 := (inst.hex.extractLsb' 6 5).toFin
def RD : Fin 32 := (inst.hex.extractLsb' 21 5).toFin
def RS : Fin 32 := (inst.hex.extractLsb' 21 5).toFin
def SIMM_16 : BitVec 32 := (inst.hex.extractLsb' 0 16).signExtend 32
def UIMM : BitVec 32 := (inst.hex.extractLsb' 0 16).setWidth 32
def BI : BitVec 5 := inst.hex.extractLsb' 16 5
def CRFD : Fin 8 := (inst.hex.extractLsb' 23 3).toFin
def CRFS : Fin 8 := (inst.hex.extractLsb' 18 3).toFin
def CRBA : BitVec 5 := inst.hex.extractLsb' 16 5
def CRBB : BitVec 5 := inst.hex.extractLsb' 11 5
def CRBD : BitVec 5 := inst.hex.extractLsb' 21 5
def CRM : BitVec 8 := inst.hex.extractLsb' 12 8
def ME : Nat := (inst.hex.extractLsb' 1 5).toNat
def MB : Nat := (inst.hex.extractLsb' 6 5).toNat
def SH : Nat := (inst.hex.extractLsb' 11 5).toNat
def SPRU : BitVec 5 := inst.hex.extractLsb' 11 5
def SPRL : BitVec 5 := inst.hex.extractLsb' 16 5

end UGeckoInstruction

theorem UGeckoInstruction.OE_eq (inst : UGeckoInstruction) :
    inst.OE = decide (512 ≤ inst.SUBOP10.toNat) := by
  have hmsb : inst.SUBOP10.msb = inst.OE := by
    simp [BitVec.msb_eq_getLsbD_last, UGeckoInstruction.SUBOP10, UGeckoInstruction.OE]
  rw [← hmsb, BitVec.msb_eq_decide]

def MakeRotationMask (mb me : Nat) : BitVec 32 :=
  let begin : BitVec 32 := 0xFFFFFFFF#32 >>> mb
  let fin : BitVec 32 := 0x7FFFFFFF#32 >>> me
  let mask := begin ^^^ fin
  if me < mb then ~~~mask else mask

end Karphin.PowerPC

/-!
## Opcode tables

The rows of `PPCTables.cpp`: the type of each instruction and what it can do (`opInfo`), and the opcode it
is found under. The flags about floating point registers and the FPRF bits, and the cycle counts, are left
out.
-/

namespace Karphin.PowerPC

inductive Op
  | unknown_instruction | bcx | bx | twi | sc | mulli | subfic | cmpli | cmpi | addic | addic_rc | addi
  | addis | rlwimix | rlwinmx | rlwnmx | ori | oris | xori | xoris | andi_rc | andis_rc | lwz | lwzu | lbz
  | lbzu | lhz | lhzu | lha | lhau | sth | sthu | stw | stwu | stb | stbu | lmw | stmw | lfs | lfsu | lfd
  | lfdu | stfs | stfsu | stfd | stfdu | psq_l | psq_lu | psq_st | psq_stu | ps_cmpu0 | ps_cmpo0 | ps_neg
  | ps_nabs | ps_abs | ps_cmpu1 | ps_mr | ps_cmpo1 | ps_merge00 | ps_merge01 | ps_merge10 | ps_merge11
  | dcbz_l | ps_sum0 | ps_sum1 | ps_muls0 | ps_muls1 | ps_madds0 | ps_madds1 | ps_div | ps_sub | ps_add
  | ps_sel | ps_res | ps_mul | ps_rsqrte | ps_msub | ps_madd | ps_nmsub | ps_nmadd | psq_lx | psq_stx
  | psq_lux | psq_stux | bcctrx | bclrx | crand | crandc | creqv | crnand | crnor | cror | crorc | crxor
  | isync | mcrf | rfi | addx | addox | addcx | addcox | addex | addeox | addmex | addmeox | addzex
  | addzeox | divwx | divwox | divwux | divwuox | mulhwx | mulhwux | mullwx | mullwox | negx | negox
  | subfx | subfox | subfcx | subfcox | subfex | subfeox | subfmex | subfmeox | subfzex | subfzeox | andx
  | andcx | orx | norx | xorx | orcx | nandx | eqvx | cmp | cmpl | cntlzwx | extshx | extsbx | srwx | srawx
  | srawix | slwx | dcbst | dcbf | dcbtst | dcbt | dcbi | dcba | dcbz | lwzx | lwzux | lhzx | lhzux | lhax
  | lhaux | lbzx | lbzux | lwbrx | lhbrx | stwcxd | lwarx | lswx | lswi | stwx | stwux | sthx | sthux
  | stbx | stbux | stwbrx | sthbrx | stswx | stswi | lfsx | lfsux | lfdx | lfdux | stfsx | stfsux | stfdx
  | stfdux | stfiwx | mfcr | mfmsr | mtcrf | mtmsr | mtsr | mtsrin | mfspr | mtspr | mftb | mcrxr | mfsr
  | mfsrin | tw | sync | icbi | eciwx | ecowx | eieio | tlbie | tlbsync | fdivsx | fsubsx | faddsx | fresx
  | fmulsx | fmsubsx | fmaddsx | fnmsubsx | fnmaddsx | fabsx | fcmpo | fcmpu | fctiwx | fctiwzx | fmrx
  | fnabsx | fnegx | frspx | mcrfs | mffsx | mtfsb0x | mtfsb1x | mtfsfix | mtfsfx | fdivx | fsubx | faddx
  | fselx | fmulx | frsqrtex | fmsubx | fmaddx | fnmsubx | fnmaddx
  deriving DecidableEq, Repr

/-- Flags that indicate what an instruction can do (`InstructionFlags`). -/
inductive Flag
  | setCR0 | setCR1 | setCRn | setCA | readCA | rcBit | rcBitF | endBlock | inA | inA0 | inB | inC | inS
  | outD | outA | timer | noReorder | useFPU | loadStore | setOE | programException | floatException
  | floatDiv | setAllCR | readCRn | readCRBI | readAllCR
  deriving DecidableEq, Repr

inductive OpType
  | integer | cr | spr | system | systemFP | load | store | loadFP | storeFP | doubleFP | singleFP | loadPS
  | storePS | ps | dataCache | instructionCache | branch | unknown
  deriving DecidableEq, Repr

structure GekkoOPInfo where
  type : OpType
  flags : List Flag
  deriving DecidableEq, Repr

def opInfo : Op → GekkoOPInfo
  | .unknown_instruction => ⟨.unknown, [.endBlock]⟩
  -- the primary table
  | .bcx => ⟨.branch, [.endBlock, .readCRBI]⟩
  | .bx => ⟨.branch, [.endBlock]⟩
  | .twi => ⟨.system, [.inA, .endBlock]⟩
  | .sc => ⟨.system, [.endBlock]⟩
  | .mulli => ⟨.integer, [.outD, .inA]⟩
  | .subfic => ⟨.integer, [.outD, .inA, .setCA]⟩
  | .cmpli => ⟨.integer, [.inA, .setCRn]⟩
  | .cmpi => ⟨.integer, [.inA, .setCRn]⟩
  | .addic => ⟨.integer, [.outD, .inA, .setCA]⟩
  | .addic_rc => ⟨.integer, [.outD, .inA, .setCA, .setCR0]⟩
  | .addi => ⟨.integer, [.outD, .inA0]⟩
  | .addis => ⟨.integer, [.outD, .inA0]⟩
  | .rlwimix => ⟨.integer, [.outA, .inA, .inS, .rcBit]⟩
  | .rlwinmx => ⟨.integer, [.outA, .inS, .rcBit]⟩
  | .rlwnmx => ⟨.integer, [.outA, .inS, .inB, .rcBit]⟩
  | .ori => ⟨.integer, [.outA, .inS]⟩
  | .oris => ⟨.integer, [.outA, .inS]⟩
  | .xori => ⟨.integer, [.outA, .inS]⟩
  | .xoris => ⟨.integer, [.outA, .inS]⟩
  | .andi_rc => ⟨.integer, [.outA, .inS, .setCR0]⟩
  | .andis_rc => ⟨.integer, [.outA, .inS, .setCR0]⟩
  | .lwz => ⟨.load, [.outD, .inA0, .loadStore]⟩
  | .lwzu => ⟨.load, [.outD, .outA, .inA, .loadStore]⟩
  | .lbz => ⟨.load, [.outD, .inA0, .loadStore]⟩
  | .lbzu => ⟨.load, [.outD, .outA, .inA, .loadStore]⟩
  | .lhz => ⟨.load, [.outD, .inA0, .loadStore]⟩
  | .lhzu => ⟨.load, [.outD, .outA, .inA, .loadStore]⟩
  | .lha => ⟨.load, [.outD, .inA0, .loadStore]⟩
  | .lhau => ⟨.load, [.outD, .outA, .inA, .loadStore]⟩
  | .sth => ⟨.store, [.inA0, .inS, .loadStore]⟩
  | .sthu => ⟨.store, [.outA, .inA, .inS, .loadStore]⟩
  | .stw => ⟨.store, [.inA0, .inS, .loadStore]⟩
  | .stwu => ⟨.store, [.outA, .inA, .inS, .loadStore]⟩
  | .stb => ⟨.store, [.inA0, .inS, .loadStore]⟩
  | .stbu => ⟨.store, [.outA, .inA, .inS, .loadStore]⟩
  | .lmw => ⟨.system, [.inA0, .loadStore]⟩
  | .stmw => ⟨.system, [.inA0, .loadStore]⟩
  | .lfs => ⟨.loadFP, [.inA, .useFPU, .loadStore]⟩
  | .lfsu => ⟨.loadFP, [.outA, .inA, .useFPU, .loadStore]⟩
  | .lfd => ⟨.loadFP, [.inA, .useFPU, .loadStore]⟩
  | .lfdu => ⟨.loadFP, [.outA, .inA, .useFPU, .loadStore]⟩
  | .stfs => ⟨.storeFP, [.inA0, .useFPU, .loadStore]⟩
  | .stfsu => ⟨.storeFP, [.outA, .inA, .useFPU, .loadStore]⟩
  | .stfd => ⟨.storeFP, [.inA0, .useFPU, .loadStore]⟩
  | .stfdu => ⟨.storeFP, [.outA, .inA, .useFPU, .loadStore]⟩
  | .psq_l => ⟨.loadPS, [.inA0, .useFPU, .loadStore, .programException]⟩
  | .psq_lu => ⟨.loadPS, [.outA, .inA, .useFPU, .loadStore, .programException]⟩
  | .psq_st => ⟨.storePS, [.inA0, .useFPU, .loadStore, .programException]⟩
  | .psq_stu => ⟨.storePS, [.outA, .inA, .useFPU, .loadStore, .programException]⟩
  -- table 4
  | .ps_cmpu0 => ⟨.ps, [.setCRn, .useFPU, .programException, .floatException]⟩
  | .ps_cmpo0 => ⟨.ps, [.setCRn, .useFPU, .programException, .floatException]⟩
  | .ps_neg => ⟨.ps, [.rcBitF, .useFPU, .programException]⟩
  | .ps_nabs => ⟨.ps, [.rcBitF, .useFPU, .programException]⟩
  | .ps_abs => ⟨.ps, [.rcBitF, .useFPU, .programException]⟩
  | .ps_cmpu1 => ⟨.ps, [.setCRn, .useFPU, .programException, .floatException]⟩
  | .ps_mr => ⟨.ps, [.rcBitF, .useFPU, .programException]⟩
  | .ps_cmpo1 => ⟨.ps, [.setCRn, .useFPU, .programException, .floatException]⟩
  | .ps_merge00 => ⟨.ps, [.rcBitF, .useFPU, .programException]⟩
  | .ps_merge01 => ⟨.ps, [.rcBitF, .useFPU, .programException]⟩
  | .ps_merge10 => ⟨.ps, [.rcBitF, .useFPU, .programException]⟩
  | .ps_merge11 => ⟨.ps, [.rcBitF, .useFPU, .programException]⟩
  | .dcbz_l => ⟨.system, [.inA0, .inB, .loadStore, .programException]⟩
  -- table 4, lower five bits
  | .ps_sum0 => ⟨.ps, [.rcBitF, .useFPU, .programException, .floatException]⟩
  | .ps_sum1 => ⟨.ps, [.rcBitF, .useFPU, .programException, .floatException]⟩
  | .ps_muls0 => ⟨.ps, [.rcBitF, .useFPU, .programException, .floatException]⟩
  | .ps_muls1 => ⟨.ps, [.rcBitF, .useFPU, .programException, .floatException]⟩
  | .ps_madds0 => ⟨.ps, [.rcBitF, .useFPU, .programException, .floatException]⟩
  | .ps_madds1 => ⟨.ps, [.rcBitF, .useFPU, .programException, .floatException]⟩
  | .ps_div => ⟨.ps, [.rcBitF, .useFPU, .programException, .floatException, .floatDiv]⟩
  | .ps_sub => ⟨.ps, [.rcBitF, .useFPU, .programException, .floatException]⟩
  | .ps_add => ⟨.ps, [.rcBitF, .useFPU, .programException, .floatException]⟩
  | .ps_sel => ⟨.ps, [.rcBitF, .useFPU, .programException]⟩
  | .ps_res => ⟨.ps, [.rcBitF, .useFPU, .programException, .floatException, .floatDiv]⟩
  | .ps_mul => ⟨.ps, [.rcBitF, .useFPU, .programException, .floatException]⟩
  | .ps_rsqrte => ⟨.ps, [.rcBitF, .useFPU, .programException, .floatException, .floatDiv]⟩
  | .ps_msub => ⟨.ps, [.rcBitF, .useFPU, .programException, .floatException]⟩
  | .ps_madd => ⟨.ps, [.rcBitF, .useFPU, .programException, .floatException]⟩
  | .ps_nmsub => ⟨.ps, [.rcBitF, .useFPU, .programException, .floatException]⟩
  | .ps_nmadd => ⟨.ps, [.rcBitF, .useFPU, .programException, .floatException]⟩
  -- table 4, lower six bits
  | .psq_lx => ⟨.loadPS, [.inA0, .inB, .useFPU, .loadStore]⟩
  | .psq_stx => ⟨.storePS, [.inA0, .inB, .useFPU, .loadStore]⟩
  | .psq_lux => ⟨.loadPS, [.outA, .inA, .inB, .useFPU, .loadStore]⟩
  | .psq_stux => ⟨.storePS, [.outA, .inA, .inB, .useFPU, .loadStore]⟩
  -- table 19
  | .bcctrx => ⟨.branch, [.endBlock, .readCRBI]⟩
  | .bclrx => ⟨.branch, [.endBlock, .readCRBI]⟩
  | .crand => ⟨.cr, []⟩
  | .crandc => ⟨.cr, []⟩
  | .creqv => ⟨.cr, []⟩
  | .crnand => ⟨.cr, []⟩
  | .crnor => ⟨.cr, []⟩
  | .cror => ⟨.cr, []⟩
  | .crorc => ⟨.cr, []⟩
  | .crxor => ⟨.cr, []⟩
  | .isync => ⟨.instructionCache, [.noReorder]⟩
  | .mcrf => ⟨.system, [.setCRn, .readCRn]⟩
  | .rfi => ⟨.system, [.endBlock, .programException]⟩
  -- table 31
  | .addx => ⟨.integer, [.outD, .inA, .inB, .rcBit]⟩
  | .addox => ⟨.integer, [.outD, .inA, .inB, .rcBit, .setOE]⟩
  | .addcx => ⟨.integer, [.outD, .inA, .inB, .setCA, .rcBit]⟩
  | .addcox => ⟨.integer, [.outD, .inA, .inB, .setCA, .rcBit, .setOE]⟩
  | .addex => ⟨.integer, [.outD, .inA, .inB, .readCA, .setCA, .rcBit]⟩
  | .addeox => ⟨.integer, [.outD, .inA, .inB, .readCA, .setCA, .rcBit, .setOE]⟩
  | .addmex => ⟨.integer, [.outD, .inA, .readCA, .setCA, .rcBit]⟩
  | .addmeox => ⟨.integer, [.outD, .inA, .readCA, .setCA, .rcBit, .setOE]⟩
  | .addzex => ⟨.integer, [.outD, .inA, .readCA, .setCA, .rcBit]⟩
  | .addzeox => ⟨.integer, [.outD, .inA, .readCA, .setCA, .rcBit, .setOE]⟩
  | .divwx => ⟨.integer, [.outD, .inA, .inB, .rcBit]⟩
  | .divwox => ⟨.integer, [.outD, .inA, .inB, .rcBit, .setOE]⟩
  | .divwux => ⟨.integer, [.outD, .inA, .inB, .rcBit]⟩
  | .divwuox => ⟨.integer, [.outD, .inA, .inB, .rcBit, .setOE]⟩
  | .mulhwx => ⟨.integer, [.outD, .inA, .inB, .rcBit]⟩
  | .mulhwux => ⟨.integer, [.outD, .inA, .inB, .rcBit]⟩
  | .mullwx => ⟨.integer, [.outD, .inA, .inB, .rcBit]⟩
  | .mullwox => ⟨.integer, [.outD, .inA, .inB, .rcBit, .setOE]⟩
  | .negx => ⟨.integer, [.outD, .inA, .rcBit]⟩
  | .negox => ⟨.integer, [.outD, .inA, .rcBit, .setOE]⟩
  | .subfx => ⟨.integer, [.outD, .inA, .inB, .rcBit]⟩
  | .subfox => ⟨.integer, [.outD, .inA, .inB, .rcBit, .setOE]⟩
  | .subfcx => ⟨.integer, [.outD, .inA, .inB, .setCA, .rcBit]⟩
  | .subfcox => ⟨.integer, [.outD, .inA, .inB, .setCA, .rcBit, .setOE]⟩
  | .subfex => ⟨.integer, [.outD, .inA, .inB, .readCA, .setCA, .rcBit]⟩
  | .subfeox => ⟨.integer, [.outD, .inA, .inB, .readCA, .setCA, .rcBit, .setOE]⟩
  | .subfmex => ⟨.integer, [.outD, .inA, .readCA, .setCA, .rcBit]⟩
  | .subfmeox => ⟨.integer, [.outD, .inA, .readCA, .setCA, .rcBit, .setOE]⟩
  | .subfzex => ⟨.integer, [.outD, .inA, .readCA, .setCA, .rcBit]⟩
  | .subfzeox => ⟨.integer, [.outD, .inA, .readCA, .setCA, .rcBit, .setOE]⟩
  | .andx => ⟨.integer, [.outA, .inS, .inB, .rcBit]⟩
  | .andcx => ⟨.integer, [.outA, .inS, .inB, .rcBit]⟩
  | .orx => ⟨.integer, [.outA, .inS, .inB, .rcBit]⟩
  | .norx => ⟨.integer, [.outA, .inS, .inB, .rcBit]⟩
  | .xorx => ⟨.integer, [.outA, .inS, .inB, .rcBit]⟩
  | .orcx => ⟨.integer, [.outA, .inS, .inB, .rcBit]⟩
  | .nandx => ⟨.integer, [.outA, .inS, .inB, .rcBit]⟩
  | .eqvx => ⟨.integer, [.outA, .inS, .inB, .rcBit]⟩
  | .cmp => ⟨.integer, [.inA, .inB, .setCRn]⟩
  | .cmpl => ⟨.integer, [.inA, .inB, .setCRn]⟩
  | .cntlzwx => ⟨.integer, [.outA, .inS, .rcBit]⟩
  | .extshx => ⟨.integer, [.outA, .inS, .rcBit]⟩
  | .extsbx => ⟨.integer, [.outA, .inS, .rcBit]⟩
  | .srwx => ⟨.integer, [.outA, .inS, .inB, .rcBit]⟩
  | .srawx => ⟨.integer, [.outA, .inS, .inB, .setCA, .rcBit]⟩
  | .srawix => ⟨.integer, [.outA, .inS, .setCA, .rcBit]⟩
  | .slwx => ⟨.integer, [.outA, .inS, .inB, .rcBit]⟩
  | .dcbst => ⟨.dataCache, [.inA0, .inB, .loadStore]⟩
  | .dcbf => ⟨.dataCache, [.inA0, .inB, .loadStore]⟩
  | .dcbtst => ⟨.dataCache, []⟩
  | .dcbt => ⟨.dataCache, []⟩
  | .dcbi => ⟨.dataCache, [.inA0, .inB, .loadStore, .programException]⟩
  | .dcba => ⟨.dataCache, []⟩
  | .dcbz => ⟨.dataCache, [.inA0, .inB, .loadStore]⟩
  | .lwzx => ⟨.load, [.outD, .inA0, .inB, .loadStore]⟩
  | .lwzux => ⟨.load, [.outD, .outA, .inA, .inB, .loadStore]⟩
  | .lhzx => ⟨.load, [.outD, .inA0, .inB, .loadStore]⟩
  | .lhzux => ⟨.load, [.outD, .outA, .inA, .inB, .loadStore]⟩
  | .lhax => ⟨.load, [.outD, .inA0, .inB, .loadStore]⟩
  | .lhaux => ⟨.load, [.outD, .outA, .inA, .inB, .loadStore]⟩
  | .lbzx => ⟨.load, [.outD, .inA0, .inB, .loadStore]⟩
  | .lbzux => ⟨.load, [.outD, .outA, .inA, .inB, .loadStore]⟩
  | .lwbrx => ⟨.load, [.outD, .inA0, .inB, .loadStore]⟩
  | .lhbrx => ⟨.load, [.outD, .inA0, .inB, .loadStore]⟩
  | .stwcxd => ⟨.store, [.inS, .inA0, .inB, .setCR0, .loadStore]⟩
  | .lwarx => ⟨.load, [.outD, .inA0, .inB, .setCR0, .loadStore]⟩
  | .lswx => ⟨.load, [.inA0, .inB, .outD, .loadStore]⟩
  | .lswi => ⟨.load, [.inA0, .outD, .loadStore]⟩
  | .stwx => ⟨.store, [.inS, .inA0, .inB, .loadStore]⟩
  | .stwux => ⟨.store, [.inS, .outA, .inA, .inB, .loadStore]⟩
  | .sthx => ⟨.store, [.inS, .inA0, .inB, .loadStore]⟩
  | .sthux => ⟨.store, [.inS, .outA, .inA, .inB, .loadStore]⟩
  | .stbx => ⟨.store, [.inS, .inA0, .inB, .loadStore]⟩
  | .stbux => ⟨.store, [.inS, .outA, .inA, .inB, .loadStore]⟩
  | .stwbrx => ⟨.store, [.inS, .inA0, .inB, .loadStore]⟩
  | .sthbrx => ⟨.store, [.inS, .inA0, .inB, .loadStore]⟩
  | .stswx => ⟨.store, [.inA0, .inB, .loadStore]⟩
  | .stswi => ⟨.store, [.inA0, .loadStore]⟩
  | .lfsx => ⟨.loadFP, [.inA0, .inB, .useFPU, .loadStore]⟩
  | .lfsux => ⟨.loadFP, [.inA, .inB, .outA, .useFPU, .loadStore]⟩
  | .lfdx => ⟨.loadFP, [.inA0, .inB, .useFPU, .loadStore]⟩
  | .lfdux => ⟨.loadFP, [.inA, .inB, .outA, .useFPU, .loadStore]⟩
  | .stfsx => ⟨.storeFP, [.inA0, .inB, .useFPU, .loadStore]⟩
  | .stfsux => ⟨.storeFP, [.inA, .inB, .outA, .useFPU, .loadStore]⟩
  | .stfdx => ⟨.storeFP, [.inA0, .inB, .useFPU, .loadStore]⟩
  | .stfdux => ⟨.storeFP, [.inA, .inB, .outA, .useFPU, .loadStore]⟩
  | .stfiwx => ⟨.storeFP, [.inA0, .inB, .useFPU, .loadStore]⟩
  | .mfcr => ⟨.system, [.outD, .readAllCR]⟩
  | .mfmsr => ⟨.system, [.outD, .programException]⟩
  | .mtcrf => ⟨.system, [.inS, .setAllCR, .readAllCR]⟩
  | .mtmsr => ⟨.system, [.inS, .endBlock, .programException, .floatException]⟩
  | .mtsr => ⟨.system, [.inS, .programException]⟩
  | .mtsrin => ⟨.system, [.inS, .inB, .programException]⟩
  | .mfspr => ⟨.spr, [.outD, .programException]⟩
  | .mtspr => ⟨.spr, [.inS, .endBlock, .programException]⟩
  | .mftb => ⟨.system, [.outD, .timer, .programException]⟩
  | .mcrxr => ⟨.system, [.setCRn, .readCA, .setCA]⟩
  | .mfsr => ⟨.system, [.outD, .programException]⟩
  | .mfsrin => ⟨.system, [.outD, .inB, .programException]⟩
  | .tw => ⟨.system, [.inA, .inB, .endBlock]⟩
  | .sync => ⟨.system, []⟩
  | .icbi => ⟨.system, [.inA0, .inB, .endBlock, .loadStore]⟩
  | .eciwx => ⟨.system, [.inA0, .inB, .outD, .loadStore]⟩
  | .ecowx => ⟨.system, [.inA0, .inB, .inS, .loadStore]⟩
  | .eieio => ⟨.system, []⟩
  | .tlbie => ⟨.system, [.inB, .programException]⟩
  | .tlbsync => ⟨.system, [.programException]⟩
  -- table 59
  | .fdivsx => ⟨.singleFP, [.rcBitF, .useFPU, .floatException, .floatDiv]⟩
  | .fsubsx => ⟨.singleFP, [.rcBitF, .useFPU, .floatException]⟩
  | .faddsx => ⟨.singleFP, [.rcBitF, .useFPU, .floatException]⟩
  | .fresx => ⟨.singleFP, [.rcBitF, .useFPU, .floatException, .floatDiv]⟩
  | .fmulsx => ⟨.singleFP, [.rcBitF, .useFPU, .floatException]⟩
  | .fmsubsx => ⟨.singleFP, [.rcBitF, .useFPU, .floatException]⟩
  | .fmaddsx => ⟨.singleFP, [.rcBitF, .useFPU, .floatException]⟩
  | .fnmsubsx => ⟨.singleFP, [.rcBitF, .useFPU, .floatException]⟩
  | .fnmaddsx => ⟨.singleFP, [.rcBitF, .useFPU, .floatException]⟩
  -- table 63
  | .fabsx => ⟨.doubleFP, [.rcBitF, .useFPU]⟩
  | .fcmpo => ⟨.doubleFP, [.setCRn, .useFPU, .floatException]⟩
  | .fcmpu => ⟨.doubleFP, [.setCRn, .useFPU, .floatException]⟩
  | .fctiwx => ⟨.doubleFP, [.rcBitF, .useFPU, .floatException]⟩
  | .fctiwzx => ⟨.doubleFP, [.rcBitF, .useFPU, .floatException]⟩
  | .fmrx => ⟨.doubleFP, [.rcBitF, .useFPU]⟩
  | .fnabsx => ⟨.doubleFP, [.rcBitF, .useFPU]⟩
  | .fnegx => ⟨.doubleFP, [.rcBitF, .useFPU]⟩
  | .frspx => ⟨.doubleFP, [.rcBitF, .useFPU, .floatException]⟩
  | .mcrfs => ⟨.systemFP, [.setCRn, .useFPU]⟩
  | .mffsx => ⟨.systemFP, [.rcBitF, .useFPU]⟩
  | .mtfsb0x => ⟨.systemFP, [.rcBitF, .useFPU]⟩
  | .mtfsb1x => ⟨.systemFP, [.rcBitF, .useFPU, .floatException]⟩
  | .mtfsfix => ⟨.systemFP, [.rcBitF, .useFPU, .floatException]⟩
  | .mtfsfx => ⟨.systemFP, [.rcBitF, .useFPU, .floatException]⟩
  -- table 63, lower five bits
  | .fdivx => ⟨.doubleFP, [.rcBitF, .useFPU, .floatException, .floatDiv]⟩
  | .fsubx => ⟨.doubleFP, [.rcBitF, .useFPU, .floatException]⟩
  | .faddx => ⟨.doubleFP, [.rcBitF, .useFPU, .floatException]⟩
  | .fselx => ⟨.doubleFP, [.rcBitF, .useFPU]⟩
  | .fmulx => ⟨.doubleFP, [.rcBitF, .useFPU, .floatException]⟩
  | .frsqrtex => ⟨.doubleFP, [.rcBitF, .useFPU, .floatException, .floatDiv]⟩
  | .fmsubx => ⟨.doubleFP, [.rcBitF, .useFPU, .floatException]⟩
  | .fmaddx => ⟨.doubleFP, [.rcBitF, .useFPU, .floatException]⟩
  | .fnmsubx => ⟨.doubleFP, [.rcBitF, .useFPU, .floatException]⟩
  | .fnmaddx => ⟨.doubleFP, [.rcBitF, .useFPU, .floatException]⟩

namespace Op

def type (op : Op) : OpType := (opInfo op).type

def has (op : Op) (flag : Flag) : Bool := (opInfo op).flags.contains flag

end Op

/-! ## Opcodes -/

def primaryTable : List (Nat × Op) :=
  [(16, .bcx), (18, .bx), (3, .twi), (17, .sc), (7, .mulli), (8, .subfic), (10, .cmpli), (11, .cmpi),
   (12, .addic), (13, .addic_rc), (14, .addi), (15, .addis), (20, .rlwimix), (21, .rlwinmx), (23, .rlwnmx),
   (24, .ori), (25, .oris), (26, .xori), (27, .xoris), (28, .andi_rc), (29, .andis_rc), (32, .lwz),
   (33, .lwzu), (34, .lbz), (35, .lbzu), (40, .lhz), (41, .lhzu), (42, .lha), (43, .lhau), (44, .sth),
   (45, .sthu), (36, .stw), (37, .stwu), (38, .stb), (39, .stbu), (46, .lmw), (47, .stmw), (48, .lfs),
   (49, .lfsu), (50, .lfd), (51, .lfdu), (52, .stfs), (53, .stfsu), (54, .stfd), (55, .stfdu), (56, .psq_l),
   (57, .psq_lu), (60, .psq_st), (61, .psq_stu)]

def table4 : List (Nat × Op) :=
  [(0, .ps_cmpu0), (32, .ps_cmpo0), (40, .ps_neg), (136, .ps_nabs), (264, .ps_abs), (64, .ps_cmpu1),
   (72, .ps_mr), (96, .ps_cmpo1), (528, .ps_merge00), (560, .ps_merge01), (592, .ps_merge10),
   (624, .ps_merge11), (1014, .dcbz_l)]

def table4_2 : List (Nat × Op) :=
  [(10, .ps_sum0), (11, .ps_sum1), (12, .ps_muls0), (13, .ps_muls1), (14, .ps_madds0), (15, .ps_madds1),
   (18, .ps_div), (20, .ps_sub), (21, .ps_add), (23, .ps_sel), (24, .ps_res), (25, .ps_mul),
   (26, .ps_rsqrte), (28, .ps_msub), (29, .ps_madd), (30, .ps_nmsub), (31, .ps_nmadd)]

def table4_3 : List (Nat × Op) :=
  [(6, .psq_lx), (7, .psq_stx), (38, .psq_lux), (39, .psq_stux)]

def table19 : List (Nat × Op) :=
  [(528, .bcctrx), (16, .bclrx), (257, .crand), (129, .crandc), (289, .creqv), (225, .crnand),
   (33, .crnor), (449, .cror), (417, .crorc), (193, .crxor), (150, .isync), (0, .mcrf), (50, .rfi)]

def table31 : List (Nat × Op) :=
  [(266, .addx), (778, .addox), (10, .addcx), (522, .addcox), (138, .addex), (650, .addeox),
   (234, .addmex), (746, .addmeox), (202, .addzex), (714, .addzeox), (491, .divwx), (1003, .divwox),
   (459, .divwux), (971, .divwuox), (75, .mulhwx), (11, .mulhwux), (235, .mullwx), (747, .mullwox),
   (104, .negx), (616, .negox), (40, .subfx), (552, .subfox), (8, .subfcx), (520, .subfcox), (136, .subfex),
   (648, .subfeox), (232, .subfmex), (744, .subfmeox), (200, .subfzex), (712, .subfzeox), (28, .andx),
   (60, .andcx), (444, .orx), (124, .norx), (316, .xorx), (412, .orcx), (476, .nandx), (284, .eqvx),
   (0, .cmp), (32, .cmpl), (26, .cntlzwx), (922, .extshx), (954, .extsbx), (536, .srwx), (792, .srawx),
   (824, .srawix), (24, .slwx), (54, .dcbst), (86, .dcbf), (246, .dcbtst), (278, .dcbt), (470, .dcbi),
   (758, .dcba), (1014, .dcbz), (23, .lwzx), (55, .lwzux), (279, .lhzx), (311, .lhzux), (343, .lhax),
   (375, .lhaux), (87, .lbzx), (119, .lbzux), (534, .lwbrx), (790, .lhbrx), (150, .stwcxd), (20, .lwarx),
   (533, .lswx), (597, .lswi), (151, .stwx), (183, .stwux), (407, .sthx), (439, .sthux), (215, .stbx),
   (247, .stbux), (662, .stwbrx), (918, .sthbrx), (661, .stswx), (725, .stswi), (535, .lfsx), (567, .lfsux),
   (599, .lfdx), (631, .lfdux), (663, .stfsx), (695, .stfsux), (727, .stfdx), (759, .stfdux),
   (983, .stfiwx), (19, .mfcr), (83, .mfmsr), (144, .mtcrf), (146, .mtmsr), (210, .mtsr), (242, .mtsrin),
   (339, .mfspr), (467, .mtspr), (371, .mftb), (512, .mcrxr), (595, .mfsr), (659, .mfsrin), (4, .tw),
   (598, .sync), (982, .icbi), (310, .eciwx), (438, .ecowx), (854, .eieio), (306, .tlbie), (566, .tlbsync)]

def table59 : List (Nat × Op) :=
  [(18, .fdivsx), (20, .fsubsx), (21, .faddsx), (24, .fresx), (25, .fmulsx), (28, .fmsubsx),
   (29, .fmaddsx), (30, .fnmsubsx), (31, .fnmaddsx)]

def table63 : List (Nat × Op) :=
  [(264, .fabsx), (32, .fcmpo), (0, .fcmpu), (14, .fctiwx), (15, .fctiwzx), (72, .fmrx), (136, .fnabsx),
   (40, .fnegx), (12, .frspx), (64, .mcrfs), (583, .mffsx), (70, .mtfsb0x), (38, .mtfsb1x), (134, .mtfsfix),
   (711, .mtfsfx)]

def table63_2 : List (Nat × Op) :=
  [(18, .fdivx), (20, .fsubx), (21, .faddx), (23, .fselx), (25, .fmulx), (26, .frsqrtex), (28, .fmsubx),
   (29, .fmaddx), (30, .fnmsubx), (31, .fnmaddx)]

def lookup (table : List (Nat × Op)) (opcode : Nat) : Option Op :=
  (table.find? fun row => row.1 = opcode).map Prod.snd

/-- The instruction of a word (`GetOpInfo`). In the tables 4 and 63 some rows are filled in for every value
of the upper opcode bits. -/
def GetOpInfo (inst : UGeckoInstruction) : Op :=
  let subop10 := inst.SUBOP10.toNat
  let found := match inst.OPCD.toNat with
    | 4 => (lookup table4_2 (subop10 % 32)).or ((lookup table4_3 (subop10 % 64)).or (lookup table4 subop10))
    | 19 => lookup table19 subop10
    | 31 => lookup table31 subop10
    | 59 => lookup table59 inst.SUBOP5.toNat
    | 63 => (lookup table63_2 (subop10 % 32)).or (lookup table63 subop10)
    | opcode => lookup primaryTable opcode
  found.getD .unknown_instruction

theorem lookup_mem {table : List (Nat × Op)} {opcode : Nat} {op : Op} (h : lookup table opcode = some op) :
    (opcode, op) ∈ table := by
  obtain ⟨row, hrow, rfl⟩ := Option.map_eq_some_iff.mp h
  have hop := List.find?_some hrow
  simp only [decide_eq_true_eq] at hop
  subst hop
  exact List.mem_of_find?_eq_some hrow

end Karphin.PowerPC
