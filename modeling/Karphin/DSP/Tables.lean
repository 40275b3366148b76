import Karphin.DSP.Interpreter.Defs

/-!
# The tables of the instructions

The templates that the assembler, the disassembler and the interpreter look the instructions up in, and how the operands
of an instruction are decoded.
-/

namespace Karphin.DSP

/-! ## Parameters -/

/-- `partype_t`: for a register, the number of the first one is above the lowest eight bits, and `0x80` is for the opposite
one. -/
def pReg : Nat := 0x8000
def pRegsMask : Nat := 0x03f80

inductive ParType
  | val
  | imm
  | mem
  | addrI
  | reg
  | reg04
  | reg18
  | regM18
  | reg19
  | regM19
  | reg1A
  | accL
  | reg1C
  | accM
  | accMD
  | acc
  | accH
  | accD
  | ax
  | prg
  deriving DecidableEq

def ParType.toNat : ParType → Nat
  | .val => 0x0001
  | .imm => 0x0002
  | .mem => 0x0003
  | .addrI => 0x0005
  | .reg => pReg
  | .reg04 => pReg ||| dspRegIX0 <<< 8
  | .reg18 => pReg ||| dspRegAXL0 <<< 8
  | .regM18 => pReg ||| dspRegAXL0 <<< 8 ||| 0x10
  | .reg19 => pReg ||| dspRegAXL1 <<< 8
  | .regM19 => pReg ||| dspRegAXL1 <<< 8 ||| 0x10
  | .reg1A => pReg ||| dspRegAXH0 <<< 8 ||| 0x80
  | .accL => pReg ||| dspRegACL0 <<< 8
  | .reg1C => pReg ||| dspRegACL0 <<< 8 ||| 0x10
  | .accM => pReg ||| dspRegACM0 <<< 8
  | .accMD => pReg ||| dspRegACM0 <<< 8 ||| 0x80
  | .acc => pReg ||| dspRegACC0Full <<< 8
  | .accH => pReg ||| dspRegACH0 <<< 8
  | .accD => pReg ||| dspRegACC0Full <<< 8 ||| 0x80
  | .ax => pReg ||| dspRegAX0Full <<< 8
  | .prg => pReg ||| 0x4000

/-- `param2_t`: no parameter in the tables is shifted to the left. -/
structure Param where
  type : ParType
  size : Nat
  loc : Nat
  lshift : Nat
  mask : Word
  deriving DecidableEq

structure OpcTemplate where
  name : String
  opcode : Word
  opcodeMask : Word
  size : Nat
  params : List Param
  extended : Bool
  deriving DecidableEq

/-! ## Tables -/

def sOpcodes : List OpcTemplate := [
  ⟨"NOP", 0x0000, 0xfffc, 1, [], false⟩,
  ⟨"DAR", 0x0004, 0xfffc, 1, [⟨.reg, 1, 0, 0, 0x0003⟩], false⟩,
  ⟨"IAR", 0x0008, 0xfffc, 1, [⟨.reg, 1, 0, 0, 0x0003⟩], false⟩,
  ⟨"SUBARN", 0x000c, 0xfffc, 1, [⟨.reg, 1, 0, 0, 0x0003⟩], false⟩,
  ⟨"ADDARN", 0x0010, 0xfff0, 1, [⟨.reg, 1, 0, 0, 0x0003⟩, ⟨.reg04, 1, 0, 2, 0x000c⟩], false⟩,
  ⟨"HALT", 0x0021, 0xffff, 1, [], false⟩,
  ⟨"RETGE", 0x02d0, 0xffff, 1, [], false⟩,
  ⟨"RETL", 0x02d1, 0xffff, 1, [], false⟩,
  ⟨"RETG", 0x02d2, 0xffff, 1, [], false⟩,
  ⟨"RETLE", 0x02d3, 0xffff, 1, [], false⟩,
  ⟨"RETNZ", 0x02d4, 0xffff, 1, [], false⟩,
  ⟨"RETZ", 0x02d5, 0xffff, 1, [], false⟩,
  ⟨"RETNC", 0x02d6, 0xffff, 1, [], false⟩,
  ⟨"RETC", 0x02d7, 0xffff, 1, [], false⟩,
  ⟨"RETX8", 0x02d8, 0xffff, 1, [], false⟩,
  ⟨"RETX9", 0x02d9, 0xffff, 1, [], false⟩,
  ⟨"RETXA", 0x02da, 0xffff, 1, [], false⟩,
  ⟨"RETXB", 0x02db, 0xffff, 1, [], false⟩,
  ⟨"RETLNZ", 0x02dc, 0xffff, 1, [], false⟩,
  ⟨"RETLZ", 0x02dd, 0xffff, 1, [], false⟩,
  ⟨"RETO", 0x02de, 0xffff, 1, [], false⟩,
  ⟨"RET", 0x02df, 0xffff, 1, [], false⟩,
  ⟨"RTIGE", 0x02f0, 0xffff, 1, [], false⟩,
  ⟨"RTIL", 0x02f1, 0xffff, 1, [], false⟩,
  ⟨"RTIG", 0x02f2, 0xffff, 1, [], false⟩,
  ⟨"RTILE", 0x02f3, 0xffff, 1, [], false⟩,
  ⟨"RTINZ", 0x02f4, 0xffff, 1, [], false⟩,
  ⟨"RTIZ", 0x02f5, 0xffff, 1, [], false⟩,
  ⟨"RTINC", 0x02f6, 0xffff, 1, [], false⟩,
  ⟨"RTIC", 0x02f7, 0xffff, 1, [], false⟩,
  ⟨"RTIX8", 0x02f8, 0xffff, 1, [], false⟩,
  ⟨"RTIX9", 0x02f9, 0xffff, 1, [], false⟩,
  ⟨"RTIXA", 0x02fa, 0xffff, 1, [], false⟩,
  ⟨"RTIXB", 0x02fb, 0xffff, 1, [], false⟩,
  ⟨"RTILNZ", 0x02fc, 0xffff, 1, [], false⟩,
  ⟨"RTILZ", 0x02fd, 0xffff, 1, [], false⟩,
  ⟨"RTIO", 0x02fe, 0xffff, 1, [], false⟩,
  ⟨"RTI", 0x02ff, 0xffff, 1, [], false⟩,
  ⟨"CALLGE", 0x02b0, 0xffff, 2, [⟨.addrI, 2, 1, 0, 0xffff⟩], false⟩,
  ⟨"CALLL", 0x02b1, 0xffff, 2, [⟨.addrI, 2, 1, 0, 0xffff⟩], false⟩,
  ⟨"CALLG", 0x02b2, 0xffff, 2, [⟨.addrI, 2, 1, 0, 0xffff⟩], false⟩,
  ⟨"CALLLE", 0x02b3, 0xffff, 2, [⟨.addrI, 2, 1, 0, 0xffff⟩], false⟩,
  ⟨"CALLNZ", 0x02b4, 0xffff, 2, [⟨.addrI, 2, 1, 0, 0xffff⟩], false⟩,
  ⟨"CALLZ", 0x02b5, 0xffff, 2, [⟨.addrI, 2, 1, 0, 0xffff⟩], false⟩,
  ⟨"CALLNC", 0x02b6, 0xffff, 2, [⟨.addrI, 2, 1, 0, 0xffff⟩], false⟩,
  ⟨"CALLC", 0x02b7, 0xffff, 2, [⟨.addrI, 2, 1, 0, 0xffff⟩], false⟩,
  ⟨"CALLX8", 0x02b8, 0xffff, 2, [⟨.addrI, 2, 1, 0, 0xffff⟩], false⟩,
  ⟨"CALLX9", 0x02b9, 0xffff, 2, [⟨.addrI, 2, 1, 0, 0xffff⟩], false⟩,
  ⟨"CALLXA", 0x02ba, 0xffff, 2, [⟨.addrI, 2, 1, 0, 0xffff⟩], false⟩,
  ⟨"CALLXB", 0x02bb, 0xffff, 2, [⟨.addrI, 2, 1, 0, 0xffff⟩], false⟩,
  ⟨"CALLLNZ", 0x02bc, 0xffff, 2, [⟨.addrI, 2, 1, 0, 0xffff⟩], false⟩,
  ⟨"CALLLZ", 0x02bd, 0xffff, 2, [⟨.addrI, 2, 1, 0, 0xffff⟩], false⟩,
  ⟨"CALLO", 0x02be, 0xffff, 2, [⟨.addrI, 2, 1, 0, 0xffff⟩], false⟩,
  ⟨"CALL", 0x02bf, 0xffff, 2, [⟨.addrI, 2, 1, 0, 0xffff⟩], false⟩,
  ⟨"IFGE", 0x0270, 0xffff, 1, [], false⟩,
  ⟨"IFL", 0x0271, 0xffff, 1, [], false⟩,
  ⟨"IFG", 0x0272, 0xffff, 1, [], false⟩,
  ⟨"IFLE", 0x0273, 0xffff, 1, [], false⟩,
  ⟨"IFNZ", 0x0274, 0xffff, 1, [], false⟩,
  ⟨"IFZ", 0x0275, 0xffff, 1, [], false⟩,
  ⟨"IFNC", 0x0276, 0xffff, 1, [], false⟩,
  ⟨"IFC", 0x0277, 0xffff, 1, [], false⟩,
  ⟨"IFX8", 0x0278, 0xffff, 1, [], false⟩,
  ⟨"IFX9", 0x0279, 0xffff, 1, [], false⟩,
  ⟨"IFXA", 0x027a, 0xffff, 1, [], false⟩,
  ⟨"IFXB", 0x027b, 0xffff, 1, [], false⟩,
  ⟨"IFLNZ", 0x027c, 0xffff, 1, [], false⟩,
  ⟨"IFLZ", 0x027d, 0xffff, 1, [], false⟩,
  ⟨"IFO", 0x027e, 0xffff, 1, [], false⟩,
  ⟨"IF", 0x027f, 0xffff, 1, [], false⟩,
  ⟨"JGE", 0x0290, 0xffff, 2, [⟨.addrI, 2, 1, 0, 0xffff⟩], false⟩,
  ⟨"JL", 0x0291, 0xffff, 2, [⟨.addrI, 2, 1, 0, 0xffff⟩], false⟩,
  ⟨"JG", 0x0292, 0xffff, 2, [⟨.addrI, 2, 1, 0, 0xffff⟩], false⟩,
  ⟨"JLE", 0x0293, 0xffff, 2, [⟨.addrI, 2, 1, 0, 0xffff⟩], false⟩,
  ⟨"JNZ", 0x0294, 0xffff, 2, [⟨.addrI, 2, 1, 0, 0xffff⟩], false⟩,
  ⟨"JZ", 0x0295, 0xffff, 2, [⟨.addrI, 2, 1, 0, 0xffff⟩], false⟩,
  ⟨"JNC", 0x0296, 0xffff, 2, [⟨.addrI, 2, 1, 0, 0xffff⟩], false⟩,
  ⟨"JC", 0x0297, 0xffff, 2, [⟨.addrI, 2, 1, 0, 0xffff⟩], false⟩,
  ⟨"JMPX8", 0x0298, 0xffff, 2, [⟨.addrI, 2, 1, 0, 0xffff⟩], false⟩,
  ⟨"JMPX9", 0x0299, 0xffff, 2, [⟨.addrI, 2, 1, 0, 0xffff⟩], false⟩,
  ⟨"JMPXA", 0x029a, 0xffff, 2, [⟨.addrI, 2, 1, 0, 0xffff⟩], false⟩,
  ⟨"JMPXB", 0x029b, 0xffff, 2, [⟨.addrI, 2, 1, 0, 0xffff⟩], false⟩,
  ⟨"JLNZ", 0x029c, 0xffff, 2, [⟨.addrI, 2, 1, 0, 0xffff⟩], false⟩,
  ⟨"JLZ", 0x029d, 0xffff, 2, [⟨.addrI, 2, 1, 0, 0xffff⟩], false⟩,
  ⟨"JO", 0x029e, 0xffff, 2, [⟨.addrI, 2, 1, 0, 0xffff⟩], false⟩,
  ⟨"JMP", 0x029f, 0xffff, 2, [⟨.addrI, 2, 1, 0, 0xffff⟩], false⟩,
  ⟨"JRGE", 0x1700, 0xff1f, 1, [⟨.reg, 1, 0, 5, 0x00e0⟩], false⟩,
  ⟨"JRL", 0x1701, 0xff1f, 1, [⟨.reg, 1, 0, 5, 0x00e0⟩], false⟩,
  ⟨"JRG", 0x1702, 0xff1f, 1, [⟨.reg, 1, 0, 5, 0x00e0⟩], false⟩,
  ⟨"JRLE", 0x1703, 0xff1f, 1, [⟨.reg, 1, 0, 5, 0x00e0⟩], false⟩,
  ⟨"JRNZ", 0x1704, 0xff1f, 1, [⟨.reg, 1, 0, 5, 0x00e0⟩], false⟩,
  ⟨"JRZ", 0x1705, 0xff1f, 1, [⟨.reg, 1, 0, 5, 0x00e0⟩], false⟩,
  ⟨"JRNC", 0x1706, 0xff1f, 1, [⟨.reg, 1, 0, 5, 0x00e0⟩], false⟩,
  ⟨"JRC", 0x1707, 0xff1f, 1, [⟨.reg, 1, 0, 5, 0x00e0⟩], false⟩,
  ⟨"JMPRX8", 0x1708, 0xff1f, 1, [⟨.reg, 1, 0, 5, 0x00e0⟩], false⟩,
  ⟨"JMPRX9", 0x1709, 0xff1f, 1, [⟨.reg, 1, 0, 5, 0x00e0⟩], false⟩,
  ⟨"JMPRXA", 0x170a, 0xff1f, 1, [⟨.reg, 1, 0, 5, 0x00e0⟩], false⟩,
  ⟨"JMPRXB", 0x170b, 0xff1f, 1, [⟨.reg, 1, 0, 5, 0x00e0⟩], false⟩,
  ⟨"JRLNZ", 0x170c, 0xff1f, 1, [⟨.reg, 1, 0, 5, 0x00e0⟩], false⟩,
  ⟨"JRLZ", 0x170d, 0xff1f, 1, [⟨.reg, 1, 0, 5, 0x00e0⟩], false⟩,
  ⟨"JRO", 0x170e, 0xff1f, 1, [⟨.reg, 1, 0, 5, 0x00e0⟩], false⟩,
  ⟨"JMPR", 0x170f, 0xff1f, 1, [⟨.reg, 1, 0, 5, 0x00e0⟩], false⟩,
  ⟨"CALLRGE", 0x1710, 0xff1f, 1, [⟨.reg, 1, 0, 5, 0x00e0⟩], false⟩,
  ⟨"CALLRL", 0x1711, 0xff1f, 1, [⟨.reg, 1, 0, 5, 0x00e0⟩], false⟩,
  ⟨"CALLRG", 0x1712, 0xff1f, 1, [⟨.reg, 1, 0, 5, 0x00e0⟩], false⟩,
  ⟨"CALLRLE", 0x1713, 0xff1f, 1, [⟨.reg, 1, 0, 5, 0x00e0⟩], false⟩,
  ⟨"CALLRNZ", 0x1714, 0xff1f, 1, [⟨.reg, 1, 0, 5, 0x00e0⟩], false⟩,
  ⟨"CALLRZ", 0x1715, 0xff1f, 1, [⟨.reg, 1, 0, 5, 0x00e0⟩], false⟩,
  ⟨"CALLRNC", 0x1716, 0xff1f, 1, [⟨.reg, 1, 0, 5, 0x00e0⟩], false⟩,
  ⟨"CALLRC", 0x1717, 0xff1f, 1, [⟨.reg, 1, 0, 5, 0x00e0⟩], false⟩,
  ⟨"CALLRX8", 0x1718, 0xff1f, 1, [⟨.reg, 1, 0, 5, 0x00e0⟩], false⟩,
  ⟨"CALLRX9", 0x1719, 0xff1f, 1, [⟨.reg, 1, 0, 5, 0x00e0⟩], false⟩,
  ⟨"CALLRXA", 0x171a, 0xff1f, 1, [⟨.reg, 1, 0, 5, 0x00e0⟩], false⟩,
  ⟨"CALLRXB", 0x171b, 0xff1f, 1, [⟨.reg, 1, 0, 5, 0x00e0⟩], false⟩,
  ⟨"CALLRLNZ", 0x171c, 0xff1f, 1, [⟨.reg, 1, 0, 5, 0x00e0⟩], false⟩,
  ⟨"CALLRLZ", 0x171d, 0xff1f, 1, [⟨.reg, 1, 0, 5, 0x00e0⟩], false⟩,
  ⟨"CALLRO", 0x171e, 0xff1f, 1, [⟨.reg, 1, 0, 5, 0x00e0⟩], false⟩,
  ⟨"CALLR", 0x171f, 0xff1f, 1, [⟨.reg, 1, 0, 5, 0x00e0⟩], false⟩,
  ⟨"SBCLR", 0x1200, 0xff00, 1, [⟨.imm, 1, 0, 0, 0x0007⟩], false⟩,
  ⟨"SBSET", 0x1300, 0xff00, 1, [⟨.imm, 1, 0, 0, 0x0007⟩], false⟩,
  ⟨"LSL", 0x1400, 0xfec0, 1, [⟨.acc, 1, 0, 8, 0x0100⟩, ⟨.imm, 1, 0, 0, 0x003f⟩], false⟩,
  ⟨"LSR", 0x1440, 0xfec0, 1, [⟨.acc, 1, 0, 8, 0x0100⟩, ⟨.imm, 1, 0, 0, 0x003f⟩], false⟩,
  ⟨"ASL", 0x1480, 0xfec0, 1, [⟨.acc, 1, 0, 8, 0x0100⟩, ⟨.imm, 1, 0, 0, 0x003f⟩], false⟩,
  ⟨"ASR", 0x14c0, 0xfec0, 1, [⟨.acc, 1, 0, 8, 0x0100⟩, ⟨.imm, 1, 0, 0, 0x003f⟩], false⟩,
  ⟨"LSRN", 0x02ca, 0xffff, 1, [], false⟩,
  ⟨"ASRN", 0x02cb, 0xffff, 1, [], false⟩,
  ⟨"LRI", 0x0080, 0xffe0, 2, [⟨.reg, 1, 0, 0, 0x001f⟩, ⟨.imm, 2, 1, 0, 0xffff⟩], false⟩,
  ⟨"LR", 0x00c0, 0xffe0, 2, [⟨.reg, 1, 0, 0, 0x001f⟩, ⟨.mem, 2, 1, 0, 0xffff⟩], false⟩,
  ⟨"SR", 0x00e0, 0xffe0, 2, [⟨.mem, 2, 1, 0, 0xffff⟩, ⟨.reg, 1, 0, 0, 0x001f⟩], false⟩,
  ⟨"MRR", 0x1c00, 0xfc00, 1, [⟨.reg, 1, 0, 5, 0x03e0⟩, ⟨.reg, 1, 0, 0, 0x001f⟩], false⟩,
  ⟨"SI", 0x1600, 0xff00, 2, [⟨.mem, 1, 0, 0, 0x00ff⟩, ⟨.imm, 2, 1, 0, 0xffff⟩], false⟩,
  ⟨"ADDIS", 0x0400, 0xfe00, 1, [⟨.accM, 1, 0, 8, 0x0100⟩, ⟨.imm, 1, 0, 0, 0x00ff⟩], false⟩,
  ⟨"CMPIS", 0x0600, 0xfe00, 1, [⟨.accM, 1, 0, 8, 0x0100⟩, ⟨.imm, 1, 0, 0, 0x00ff⟩], false⟩,
  ⟨"LRIS", 0x0800, 0xf800, 1, [⟨.reg18, 1, 0, 8, 0x0700⟩, ⟨.imm, 1, 0, 0, 0x00ff⟩], false⟩,
  ⟨"ADDI", 0x0200, 0xfeff, 2, [⟨.accM, 1, 0, 8, 0x0100⟩, ⟨.imm, 2, 1, 0, 0xffff⟩], false⟩,
  ⟨"XORI", 0x0220, 0xfeff, 2, [⟨.accM, 1, 0, 8, 0x0100⟩, ⟨.imm, 2, 1, 0, 0xffff⟩], false⟩,
  ⟨"ANDI", 0x0240, 0xfeff, 2, [⟨.accM, 1, 0, 8, 0x0100⟩, ⟨.imm, 2, 1, 0, 0xffff⟩], false⟩,
  ⟨"ORI", 0x0260, 0xfeff, 2, [⟨.accM, 1, 0, 8, 0x0100⟩, ⟨.imm, 2, 1, 0, 0xffff⟩], false⟩,
  ⟨"CMPI", 0x0280, 0xfeff, 2, [⟨.accM, 1, 0, 8, 0x0100⟩, ⟨.imm, 2, 1, 0, 0xffff⟩], false⟩,
  ⟨"ANDF", 0x02a0, 0xfeff, 2, [⟨.accM, 1, 0, 8, 0x0100⟩, ⟨.imm, 2, 1, 0, 0xffff⟩], false⟩,
  ⟨"ANDCF", 0x02c0, 0xfeff, 2, [⟨.accM, 1, 0, 8, 0x0100⟩, ⟨.imm, 2, 1, 0, 0xffff⟩], false⟩,
  ⟨"ILRR", 0x0210, 0xfefc, 1, [⟨.accM, 1, 0, 8, 0x0100⟩, ⟨.prg, 1, 0, 0, 0x0003⟩], false⟩,
  ⟨"ILRRD", 0x0214, 0xfefc, 1, [⟨.accM, 1, 0, 8, 0x0100⟩, ⟨.prg, 1, 0, 0, 0x0003⟩], false⟩,
  ⟨"ILRRI", 0x0218, 0xfefc, 1, [⟨.accM, 1, 0, 8, 0x0100⟩, ⟨.prg, 1, 0, 0, 0x0003⟩], false⟩,
  ⟨"ILRRN", 0x021c, 0xfefc, 1, [⟨.accM, 1, 0, 8, 0x0100⟩, ⟨.prg, 1, 0, 0, 0x0003⟩], false⟩,
  ⟨"LOOP", 0x0040, 0xffe0, 1, [⟨.reg, 1, 0, 0, 0x001f⟩], false⟩,
  ⟨"BLOOP", 0x0060, 0xffe0, 2, [⟨.reg, 1, 0, 0, 0x001f⟩, ⟨.addrI, 2, 1, 0, 0xffff⟩], false⟩,
  ⟨"LOOPI", 0x1000, 0xff00, 1, [⟨.imm, 1, 0, 0, 0x00ff⟩], false⟩,
  ⟨"BLOOPI", 0x1100, 0xff00, 2, [⟨.imm, 1, 0, 0, 0x00ff⟩, ⟨.addrI, 2, 1, 0, 0xffff⟩], false⟩,
  ⟨"LRR", 0x1800, 0xff80, 1, [⟨.reg, 1, 0, 0, 0x001f⟩, ⟨.prg, 1, 0, 5, 0x0060⟩], false⟩,
  ⟨"LRRD", 0x1880, 0xff80, 1, [⟨.reg, 1, 0, 0, 0x001f⟩, ⟨.prg, 1, 0, 5, 0x0060⟩], false⟩,
  ⟨"LRRI", 0x1900, 0xff80, 1, [⟨.reg, 1, 0, 0, 0x001f⟩, ⟨.prg, 1, 0, 5, 0x0060⟩], false⟩,
  ⟨"LRRN", 0x1980, 0xff80, 1, [⟨.reg, 1, 0, 0, 0x001f⟩, ⟨.prg, 1, 0, 5, 0x0060⟩], false⟩,
  ⟨"SRR", 0x1a00, 0xff80, 1, [⟨.prg, 1, 0, 5, 0x0060⟩, ⟨.reg, 1, 0, 0, 0x001f⟩], false⟩,
  ⟨"SRRD", 0x1a80, 0xff80, 1, [⟨.prg, 1, 0, 5, 0x0060⟩, ⟨.reg, 1, 0, 0, 0x001f⟩], false⟩,
  ⟨"SRRI", 0x1b00, 0xff80, 1, [⟨.prg, 1, 0, 5, 0x0060⟩, ⟨.reg, 1, 0, 0, 0x001f⟩], false⟩,
  ⟨"SRRN", 0x1b80, 0xff80, 1, [⟨.prg, 1, 0, 5, 0x0060⟩, ⟨.reg, 1, 0, 0, 0x001f⟩], false⟩,
  ⟨"LRS", 0x2000, 0xf800, 1, [⟨.reg18, 1, 0, 8, 0x0700⟩, ⟨.mem, 1, 0, 0, 0x00ff⟩], false⟩,
  ⟨"SRSH", 0x2800, 0xfe00, 1, [⟨.mem, 1, 0, 0, 0x00ff⟩, ⟨.accH, 1, 0, 8, 0x0100⟩], false⟩,
  ⟨"SRS", 0x2c00, 0xfc00, 1, [⟨.mem, 1, 0, 0, 0x00ff⟩, ⟨.reg1C, 1, 0, 8, 0x0300⟩], false⟩,
  ⟨"XORR", 0x3000, 0xfc80, 1, [⟨.accM, 1, 0, 8, 0x0100⟩, ⟨.reg1A, 1, 0, 9, 0x0200⟩], true⟩,
  ⟨"ANDR", 0x3400, 0xfc80, 1, [⟨.accM, 1, 0, 8, 0x0100⟩, ⟨.reg1A, 1, 0, 9, 0x0200⟩], true⟩,
  ⟨"ORR", 0x3800, 0xfc80, 1, [⟨.accM, 1, 0, 8, 0x0100⟩, ⟨.reg1A, 1, 0, 9, 0x0200⟩], true⟩,
  ⟨"ANDC", 0x3c00, 0xfe80, 1, [⟨.accM, 1, 0, 8, 0x0100⟩, ⟨.accMD, 1, 0, 8, 0x0100⟩], true⟩,
  ⟨"ORC", 0x3e00, 0xfe80, 1, [⟨.accM, 1, 0, 8, 0x0100⟩, ⟨.accMD, 1, 0, 8, 0x0100⟩], true⟩,
  ⟨"XORC", 0x3080, 0xfe80, 1, [⟨.accM, 1, 0, 8, 0x0100⟩, ⟨.accMD, 1, 0, 8, 0x0100⟩], true⟩,
  ⟨"NOT", 0x3280, 0xfe80, 1, [⟨.accM, 1, 0, 8, 0x0100⟩], true⟩,
  ⟨"LSRNRX", 0x3480, 0xfc80, 1, [⟨.acc, 1, 0, 8, 0x0100⟩, ⟨.reg1A, 1, 0, 9, 0x0200⟩], true⟩,
  ⟨"ASRNRX", 0x3880, 0xfc80, 1, [⟨.acc, 1, 0, 8, 0x0100⟩, ⟨.reg1A, 1, 0, 9, 0x0200⟩], true⟩,
  ⟨"LSRNR", 0x3c80, 0xfe80, 1, [⟨.acc, 1, 0, 8, 0x0100⟩, ⟨.accMD, 1, 0, 8, 0x0100⟩], true⟩,
  ⟨"ASRNR", 0x3e80, 0xfe80, 1, [⟨.acc, 1, 0, 8, 0x0100⟩, ⟨.accMD, 1, 0, 8, 0x0100⟩], true⟩,
  ⟨"ADDR", 0x4000, 0xf800, 1, [⟨.acc, 1, 0, 8, 0x0100⟩, ⟨.reg18, 1, 0, 9, 0x0600⟩], true⟩,
  ⟨"ADDAX", 0x4800, 0xfc00, 1, [⟨.acc, 1, 0, 8, 0x0100⟩, ⟨.ax, 1, 0, 9, 0x0200⟩], true⟩,
  ⟨"ADD", 0x4c00, 0xfe00, 1, [⟨.acc, 1, 0, 8, 0x0100⟩, ⟨.accD, 1, 0, 8, 0x0100⟩], true⟩,
  ⟨"ADDP", 0x4e00, 0xfe00, 1, [⟨.acc, 1, 0, 8, 0x0100⟩], true⟩,
  ⟨"SUBR", 0x5000, 0xf800, 1, [⟨.acc, 1, 0, 8, 0x0100⟩, ⟨.reg18, 1, 0, 9, 0x0600⟩], true⟩,
  ⟨"SUBAX", 0x5800, 0xfc00, 1, [⟨.acc, 1, 0, 8, 0x0100⟩, ⟨.ax, 1, 0, 9, 0x0200⟩], true⟩,
  ⟨"SUB", 0x5c00, 0xfe00, 1, [⟨.acc, 1, 0, 8, 0x0100⟩, ⟨.accD, 1, 0, 8, 0x0100⟩], true⟩,
  ⟨"SUBP", 0x5e00, 0xfe00, 1, [⟨.acc, 1, 0, 8, 0x0100⟩], true⟩,
  ⟨"MOVR", 0x6000, 0xf800, 1, [⟨.acc, 1, 0, 8, 0x0100⟩, ⟨.reg18, 1, 0, 9, 0x0600⟩], true⟩,
  ⟨"MOVAX", 0x6800, 0xfc00, 1, [⟨.acc, 1, 0, 8, 0x0100⟩, ⟨.ax, 1, 0, 9, 0x0200⟩], true⟩,
  ⟨"MOV", 0x6c00, 0xfe00, 1, [⟨.acc, 1, 0, 8, 0x0100⟩, ⟨.accD, 1, 0, 8, 0x0100⟩], true⟩,
  ⟨"MOVP", 0x6e00, 0xfe00, 1, [⟨.acc, 1, 0, 8, 0x0100⟩], true⟩,
  ⟨"ADDAXL", 0x7000, 0xfc00, 1, [⟨.acc, 1, 0, 8, 0x0100⟩, ⟨.reg18, 1, 0, 9, 0x0200⟩], true⟩,
  ⟨"INCM", 0x7400, 0xfe00, 1, [⟨.accM, 1, 0, 8, 0x0100⟩], true⟩,
  ⟨"INC", 0x7600, 0xfe00, 1, [⟨.acc, 1, 0, 8, 0x0100⟩], true⟩,
  ⟨"DECM", 0x7800, 0xfe00, 1, [⟨.accM, 1, 0, 8, 0x0100⟩], true⟩,
  ⟨"DEC", 0x7a00, 0xfe00, 1, [⟨.acc, 1, 0, 8, 0x0100⟩], true⟩,
  ⟨"NEG", 0x7c00, 0xfe00, 1, [⟨.acc, 1, 0, 8, 0x0100⟩], true⟩,
  ⟨"MOVNP", 0x7e00, 0xfe00, 1, [⟨.acc, 1, 0, 8, 0x0100⟩], true⟩,
  ⟨"NX", 0x8000, 0xf700, 1, [], true⟩,
  ⟨"CLR", 0x8100, 0xf700, 1, [⟨.acc, 1, 0, 11, 0x0800⟩], true⟩,
  ⟨"CMP", 0x8200, 0xff00, 1, [], true⟩,
  ⟨"MULAXH", 0x8300, 0xff00, 1, [], true⟩,
  ⟨"CLRP", 0x8400, 0xff00, 1, [], true⟩,
  ⟨"TSTPROD", 0x8500, 0xff00, 1, [], true⟩,
  ⟨"TSTAXH", 0x8600, 0xfe00, 1, [⟨.reg1A, 1, 0, 8, 0x0100⟩], true⟩,
  ⟨"M2", 0x8a00, 0xff00, 1, [], true⟩,
  ⟨"M0", 0x8b00, 0xff00, 1, [], true⟩,
  ⟨"CLR15", 0x8c00, 0xff00, 1, [], true⟩,
  ⟨"SET15", 0x8d00, 0xff00, 1, [], true⟩,
  ⟨"SET16", 0x8e00, 0xff00, 1, [], true⟩,
  ⟨"SET40", 0x8f00, 0xff00, 1, [], true⟩,
  ⟨"MUL", 0x9000, 0xf700, 1, [⟨.reg18, 1, 0, 11, 0x0800⟩, ⟨.reg1A, 1, 0, 11, 0x0800⟩], true⟩,
  ⟨"ASR16", 0x9100, 0xf700, 1, [⟨.acc, 1, 0, 11, 0x0800⟩], true⟩,
  ⟨"MULMVZ", 0x9200, 0xf600, 1, [⟨.reg18, 1, 0, 11, 0x0800⟩, ⟨.reg1A, 1, 0, 11, 0x0800⟩, ⟨.acc, 1, 0, 8, 0x0100⟩], true⟩,
  ⟨"MULAC", 0x9400, 0xf600, 1, [⟨.reg18, 1, 0, 11, 0x0800⟩, ⟨.reg1A, 1, 0, 11, 0x0800⟩, ⟨.acc, 1, 0, 8, 0x0100⟩], true⟩,
  ⟨"MULMV", 0x9600, 0xf600, 1, [⟨.reg18, 1, 0, 11, 0x0800⟩, ⟨.reg1A, 1, 0, 11, 0x0800⟩, ⟨.acc, 1, 0, 8, 0x0100⟩], true⟩,
  ⟨"MULX", 0xa000, 0xe700, 1, [⟨.regM18, 1, 0, 11, 0x1000⟩, ⟨.regM19, 1, 0, 10, 0x0800⟩], true⟩,
  ⟨"ABS", 0xa100, 0xf700, 1, [⟨.acc, 1, 0, 11, 0x0800⟩], true⟩,
  ⟨"MULXMVZ", 0xa200, 0xe600, 1, [⟨.regM18, 1, 0, 11, 0x1000⟩, ⟨.regM19, 1, 0, 10, 0x0800⟩, ⟨.acc, 1, 0, 8, 0x0100⟩], true⟩,
  ⟨"MULXAC", 0xa400, 0xe600, 1, [⟨.regM18, 1, 0, 11, 0x1000⟩, ⟨.regM19, 1, 0, 10, 0x0800⟩, ⟨.acc, 1, 0, 8, 0x0100⟩], true⟩,
  ⟨"MULXMV", 0xa600, 0xe600, 1, [⟨.regM18, 1, 0, 11, 0x1000⟩, ⟨.regM19, 1, 0, 10, 0x0800⟩, ⟨.acc, 1, 0, 8, 0x0100⟩], true⟩,
  ⟨"TST", 0xb100, 0xf700, 1, [⟨.acc, 1, 0, 11, 0x0800⟩], true⟩,
  ⟨"MULC", 0xc000, 0xe700, 1, [⟨.accM, 1, 0, 12, 0x1000⟩, ⟨.reg1A, 1, 0, 11, 0x0800⟩], true⟩,
  ⟨"CMPAXH", 0xc100, 0xe700, 1, [⟨.acc, 1, 0, 11, 0x0800⟩, ⟨.reg1A, 1, 0, 12, 0x1000⟩], true⟩,
  ⟨"MULCMVZ", 0xc200, 0xe600, 1, [⟨.accM, 1, 0, 12, 0x1000⟩, ⟨.reg1A, 1, 0, 11, 0x0800⟩, ⟨.acc, 1, 0, 8, 0x0100⟩], true⟩,
  ⟨"MULCAC", 0xc400, 0xe600, 1, [⟨.accM, 1, 0, 12, 0x1000⟩, ⟨.reg1A, 1, 0, 11, 0x0800⟩, ⟨.acc, 1, 0, 8, 0x0100⟩], true⟩,
  ⟨"MULCMV", 0xc600, 0xe600, 1, [⟨.accM, 1, 0, 12, 0x1000⟩, ⟨.reg1A, 1, 0, 11, 0x0800⟩, ⟨.acc, 1, 0, 8, 0x0100⟩], true⟩,
  ⟨"MADDX", 0xe000, 0xfc00, 1, [⟨.regM18, 1, 0, 8, 0x0200⟩, ⟨.regM19, 1, 0, 7, 0x0100⟩], true⟩,
  ⟨"MSUBX", 0xe400, 0xfc00, 1, [⟨.regM18, 1, 0, 8, 0x0200⟩, ⟨.regM19, 1, 0, 7, 0x0100⟩], true⟩,
  ⟨"MADDC", 0xe800, 0xfc00, 1, [⟨.accM, 1, 0, 9, 0x0200⟩, ⟨.reg19, 1, 0, 7, 0x0100⟩], true⟩,
  ⟨"MSUBC", 0xec00, 0xfc00, 1, [⟨.accM, 1, 0, 9, 0x0200⟩, ⟨.reg19, 1, 0, 7, 0x0100⟩], true⟩,
  ⟨"LSL16", 0xf000, 0xfe00, 1, [⟨.acc, 1, 0, 8, 0x0100⟩], true⟩,
  ⟨"MADD", 0xf200, 0xfe00, 1, [⟨.reg18, 1, 0, 8, 0x0100⟩, ⟨.reg1A, 1, 0, 8, 0x0100⟩], true⟩,
  ⟨"LSR16", 0xf400, 0xfe00, 1, [⟨.acc, 1, 0, 8, 0x0100⟩], true⟩,
  ⟨"MSUB", 0xf600, 0xfe00, 1, [⟨.reg18, 1, 0, 8, 0x0100⟩, ⟨.reg1A, 1, 0, 8, 0x0100⟩], true⟩,
  ⟨"ADDPAXZ", 0xf800, 0xfc00, 1, [⟨.acc, 1, 0, 9, 0x0200⟩, ⟨.ax, 1, 0, 8, 0x0100⟩], true⟩,
  ⟨"CLRL", 0xfc00, 0xfe00, 1, [⟨.accL, 1, 0, 11, 0x0800⟩], true⟩,
  ⟨"MOVPZ", 0xfe00, 0xfe00, 1, [⟨.acc, 1, 0, 8, 0x0100⟩], true⟩]

def cw : OpcTemplate := ⟨"CW", 0x0000, 0x0000, 1, [⟨.val, 2, 0, 0, 0xffff⟩], false⟩

def sOpcodesExt : List OpcTemplate := [
  ⟨"XXX", 0x0000, 0x00fc, 1, [⟨.val, 1, 0, 0, 0x00ff⟩], false⟩,
  ⟨"DR", 0x0004, 0x00fc, 1, [⟨.reg, 1, 0, 0, 0x0003⟩], false⟩,
  ⟨"IR", 0x0008, 0x00fc, 1, [⟨.reg, 1, 0, 0, 0x0003⟩], false⟩,
  ⟨"NR", 0x000c, 0x00fc, 1, [⟨.reg, 1, 0, 0, 0x0003⟩], false⟩,
  ⟨"MV", 0x0010, 0x00f0, 1, [⟨.reg18, 1, 0, 2, 0x000c⟩, ⟨.reg1C, 1, 0, 0, 0x0003⟩], false⟩,
  ⟨"S", 0x0020, 0x00e4, 1, [⟨.prg, 1, 0, 0, 0x0003⟩, ⟨.reg1C, 1, 0, 3, 0x0018⟩], false⟩,
  ⟨"SN", 0x0024, 0x00e4, 1, [⟨.prg, 1, 0, 0, 0x0003⟩, ⟨.reg1C, 1, 0, 3, 0x0018⟩], false⟩,
  ⟨"L", 0x0040, 0x00c4, 1, [⟨.reg18, 1, 0, 3, 0x0038⟩, ⟨.prg, 1, 0, 0, 0x0003⟩], false⟩,
  ⟨"LN", 0x0044, 0x00c4, 1, [⟨.reg18, 1, 0, 3, 0x0038⟩, ⟨.prg, 1, 0, 0, 0x0003⟩], false⟩,
  ⟨"LS", 0x0080, 0x00ce, 1, [⟨.reg18, 1, 0, 4, 0x0030⟩, ⟨.accM, 1, 0, 0, 0x0001⟩], false⟩,
  ⟨"SL", 0x0082, 0x00ce, 1, [⟨.accM, 1, 0, 0, 0x0001⟩, ⟨.reg18, 1, 0, 4, 0x0030⟩], false⟩,
  ⟨"LSN", 0x0084, 0x00ce, 1, [⟨.reg18, 1, 0, 4, 0x0030⟩, ⟨.accM, 1, 0, 0, 0x0001⟩], false⟩,
  ⟨"SLN", 0x0086, 0x00ce, 1, [⟨.accM, 1, 0, 0, 0x0001⟩, ⟨.reg18, 1, 0, 4, 0x0030⟩], false⟩,
  ⟨"LSM", 0x0088, 0x00ce, 1, [⟨.reg18, 1, 0, 4, 0x0030⟩, ⟨.accM, 1, 0, 0, 0x0001⟩], false⟩,
  ⟨"SLM", 0x008a, 0x00ce, 1, [⟨.accM, 1, 0, 0, 0x0001⟩, ⟨.reg18, 1, 0, 4, 0x0030⟩], false⟩,
  ⟨"LSNM", 0x008c, 0x00ce, 1, [⟨.reg18, 1, 0, 4, 0x0030⟩, ⟨.accM, 1, 0, 0, 0x0001⟩], false⟩,
  ⟨"SLNM", 0x008e, 0x00ce, 1, [⟨.accM, 1, 0, 0, 0x0001⟩, ⟨.reg18, 1, 0, 4, 0x0030⟩], false⟩,
  ⟨"LDAX", 0x00c3, 0x00cf, 1, [⟨.ax, 1, 0, 4, 0x0010⟩, ⟨.prg, 1, 0, 5, 0x0020⟩], false⟩,
  ⟨"LDAXN", 0x00c7, 0x00cf, 1, [⟨.ax, 1, 0, 4, 0x0010⟩, ⟨.prg, 1, 0, 5, 0x0020⟩], false⟩,
  ⟨"LDAXM", 0x00cb, 0x00cf, 1, [⟨.ax, 1, 0, 4, 0x0010⟩, ⟨.prg, 1, 0, 5, 0x0020⟩], false⟩,
  ⟨"LDAXNM", 0x00cf, 0x00cf, 1, [⟨.ax, 1, 0, 4, 0x0010⟩, ⟨.prg, 1, 0, 5, 0x0020⟩], false⟩,
  ⟨"LD", 0x00c0, 0x00cc, 1, [⟨.regM18, 1, 0, 4, 0x0020⟩, ⟨.regM19, 1, 0, 3, 0x0010⟩, ⟨.prg, 1, 0, 0, 0x0003⟩], false⟩,
  ⟨"LDN", 0x00c4, 0x00cc, 1, [⟨.regM18, 1, 0, 4, 0x0020⟩, ⟨.regM19, 1, 0, 3, 0x0010⟩, ⟨.prg, 1, 0, 0, 0x0003⟩], false⟩,
  ⟨"LDM", 0x00c8, 0x00cc, 1, [⟨.regM18, 1, 0, 4, 0x0020⟩, ⟨.regM19, 1, 0, 3, 0x0010⟩, ⟨.prg, 1, 0, 0, 0x0003⟩], false⟩,
  ⟨"LDNM", 0x00cc, 0x00cc, 1, [⟨.regM18, 1, 0, 4, 0x0020⟩, ⟨.regM19, 1, 0, 3, 0x0010⟩, ⟨.prg, 1, 0, 0, 0x0003⟩], false⟩]

/-! ## Lookup -/

def OpcTemplate.covers (t : OpcTemplate) (opcode : Word) : Bool := opcode &&& t.opcodeMask = t.opcode

def findOpInfoByOpcode (opcode : Word) : Option OpcTemplate := sOpcodes.find? (·.covers opcode)

def findExtOpInfoByOpcode (opcode : Word) : Option OpcTemplate := sOpcodesExt.find? (·.covers opcode)

def getOpTemplate (inst : Word) : OpcTemplate := (findOpInfoByOpcode inst).getD cw

/-! ## Decoding -/

/-- What `DisassembleParameters` prints for the bits of a parameter: the kind that is left of its type, and the value. -/
def ParType.decode (parType : ParType) (val : Nat) : Nat × Nat :=
  let type := if parType.toNat &&& 0xff = 0x10 then parType.toNat &&& 0xff00 else parType.toNat
  if type &&& pReg ≠ 0 then
    let base := (type &&& pRegsMask) >>> 8
    -- a parameter with a `D` is flipped
    let val := if type = ParType.accD.toNat ∨ type = ParType.accMD.toNat then (1 - val % 2) ||| base else val ||| base
    (type - (type &&& pRegsMask), val)
  else (type, val)

def Param.decode (p : Param) (op1 op2 : Word) : Nat × Nat :=
  p.type.decode (((if 1 ≤ p.loc then op2 else op1) &&& p.mask).toNat >>> p.lshift)

end Karphin.DSP
