import Karphin.DSP.Interpreter.Control
import Karphin.DSP.Interpreter.Arithmetic

/-!
# The dispatch of the interpreter

Which handler executes an instruction, and how its extension comes in.
-/

namespace Karphin.DSP.Interpreter

open Karphin.Lib

/-! ## Handlers by name -/

inductive Op
  | nop | dar | iar | subarn | addarn | halt | ret | rti | call | ifcc
  | jcc | jmprcc | callr | sbclr | sbset | lsl | lsr | asl | asr | lsrn
  | asrn | lri | lr | sr | mrr | si | addis | cmpis | lris | addi
  | xori | andi | ori | cmpi | andf | andcf | ilrr | ilrrd | ilrri | ilrrn
  | loop | bloop | loopi | bloopi | lrr | lrrd | lrri | lrrn | srr | srrd
  | srri | srrn | lrs | srsh | srs | xorr | andr | orr | andc | orc
  | xorc | notc | lsrnrx | asrnrx | lsrnr | asrnr | addr | addax | add | addp
  | subr | subax | sub | subp | movr | movax | mov | movp | addaxl | incm
  | inc | decm | dec | neg | movnp | nx | clr | cmp | mulaxh | clrp
  | tstprod | tstaxh | srbith | mul | asr16 | mulmvz | mulac | mulmv | mulx | abs
  | mulxmvz | mulxac | mulxmv | tst | mulc | cmpaxh | mulcmvz | mulcac | mulcmv | maddx
  | msubx | maddc | msubc | lsl16 | madd | lsr16 | msub | addpaxz | clrl | movpz
  deriving DecidableEq

inductive ExtOp
  | nopExt | dr | ir | nr | mv | s | sn | l | ln | ls
  | sl | lsn | sln | lsm | slm | lsnm | slnm | ldax | ldaxn | ldaxm
  | ldaxnm | ld | ldn | ldm | ldnm
  deriving DecidableEq

variable {H : Type}

def Op.exec (hw : Hardware H) (opc : Word) : Op → Exec H Unit
  | .nop => Interpreter.nop opc
  | .dar => Interpreter.dar opc
  | .iar => Interpreter.iar opc
  | .subarn => Interpreter.subarn opc
  | .addarn => Interpreter.addarn opc
  | .halt => Interpreter.halt opc
  | .ret => Interpreter.ret opc
  | .rti => Interpreter.rti opc
  | .call => Interpreter.call opc
  | .ifcc => Interpreter.ifcc opc
  | .jcc => Interpreter.jcc opc
  | .jmprcc => Interpreter.jmprcc opc
  | .callr => Interpreter.callr opc
  | .sbclr => Interpreter.sbclr opc
  | .sbset => Interpreter.sbset opc
  | .lsl => Interpreter.lsl opc
  | .lsr => Interpreter.lsr opc
  | .asl => Interpreter.asl opc
  | .asr => Interpreter.asr opc
  | .lsrn => Interpreter.lsrn opc
  | .asrn => Interpreter.asrn opc
  | .lri => Interpreter.lri opc
  | .lr => Interpreter.lr hw opc
  | .sr => Interpreter.sr hw opc
  | .mrr => Interpreter.mrr opc
  | .si => Interpreter.si hw opc
  | .addis => Interpreter.addis opc
  | .cmpis => Interpreter.cmpis opc
  | .lris => Interpreter.lris opc
  | .addi => Interpreter.addi opc
  | .xori => Interpreter.xori opc
  | .andi => Interpreter.andi opc
  | .ori => Interpreter.ori opc
  | .cmpi => Interpreter.cmpi opc
  | .andf => Interpreter.andf opc
  | .andcf => Interpreter.andcf opc
  | .ilrr => Interpreter.ilrr opc
  | .ilrrd => Interpreter.ilrrd opc
  | .ilrri => Interpreter.ilrri opc
  | .ilrrn => Interpreter.ilrrn opc
  | .loop => Interpreter.loop opc
  | .bloop => Interpreter.bloop opc
  | .loopi => Interpreter.loopi opc
  | .bloopi => Interpreter.bloopi opc
  | .lrr => Interpreter.lrr hw opc
  | .lrrd => Interpreter.lrrd hw opc
  | .lrri => Interpreter.lrri hw opc
  | .lrrn => Interpreter.lrrn hw opc
  | .srr => Interpreter.srr hw opc
  | .srrd => Interpreter.srrd hw opc
  | .srri => Interpreter.srri hw opc
  | .srrn => Interpreter.srrn hw opc
  | .lrs => Interpreter.lrs hw opc
  | .srsh => Interpreter.srsh hw opc
  | .srs => Interpreter.srs hw opc
  | .xorr => Interpreter.xorr opc
  | .andr => Interpreter.andr opc
  | .orr => Interpreter.orr opc
  | .andc => Interpreter.andc opc
  | .orc => Interpreter.orc opc
  | .xorc => Interpreter.xorc opc
  | .notc => Interpreter.notc opc
  | .lsrnrx => Interpreter.lsrnrx opc
  | .asrnrx => Interpreter.asrnrx opc
  | .lsrnr => Interpreter.lsrnr opc
  | .asrnr => Interpreter.asrnr opc
  | .addr => Interpreter.addr opc
  | .addax => Interpreter.addax opc
  | .add => Interpreter.add opc
  | .addp => Interpreter.addp opc
  | .subr => Interpreter.subr opc
  | .subax => Interpreter.subax opc
  | .sub => Interpreter.sub opc
  | .subp => Interpreter.subp opc
  | .movr => Interpreter.movr opc
  | .movax => Interpreter.movax opc
  | .mov => Interpreter.mov opc
  | .movp => Interpreter.movp opc
  | .addaxl => Interpreter.addaxl opc
  | .incm => Interpreter.incm opc
  | .inc => Interpreter.inc opc
  | .decm => Interpreter.decm opc
  | .dec => Interpreter.dec opc
  | .neg => Interpreter.neg opc
  | .movnp => Interpreter.movnp opc
  | .nx => Interpreter.nx opc
  | .clr => Interpreter.clr opc
  | .cmp => Interpreter.cmp opc
  | .mulaxh => Interpreter.mulaxh opc
  | .clrp => Interpreter.clrp opc
  | .tstprod => Interpreter.tstprod opc
  | .tstaxh => Interpreter.tstaxh opc
  | .srbith => Interpreter.srbith opc
  | .mul => Interpreter.mul opc
  | .asr16 => Interpreter.asr16 opc
  | .mulmvz => Interpreter.mulmvz opc
  | .mulac => Interpreter.mulac opc
  | .mulmv => Interpreter.mulmv opc
  | .mulx => Interpreter.mulx opc
  | .abs => Interpreter.abs opc
  | .mulxmvz => Interpreter.mulxmvz opc
  | .mulxac => Interpreter.mulxac opc
  | .mulxmv => Interpreter.mulxmv opc
  | .tst => Interpreter.tst opc
  | .mulc => Interpreter.mulc opc
  | .cmpaxh => Interpreter.cmpaxh opc
  | .mulcmvz => Interpreter.mulcmvz opc
  | .mulcac => Interpreter.mulcac opc
  | .mulcmv => Interpreter.mulcmv opc
  | .maddx => Interpreter.maddx opc
  | .msubx => Interpreter.msubx opc
  | .maddc => Interpreter.maddc opc
  | .msubc => Interpreter.msubc opc
  | .lsl16 => Interpreter.lsl16 opc
  | .madd => Interpreter.madd opc
  | .lsr16 => Interpreter.lsr16 opc
  | .msub => Interpreter.msub opc
  | .addpaxz => Interpreter.addpaxz opc
  | .clrl => Interpreter.clrl opc
  | .movpz => Interpreter.movpz opc

def ExtOp.exec (hw : Hardware H) (opc : Word) : ExtOp → Dsp H → WriteBackLog × Dsp H
  | .nopExt => Interpreter.nopExt
  | .dr => Interpreter.dr opc
  | .ir => Interpreter.ir opc
  | .nr => Interpreter.nr opc
  | .mv => Interpreter.mv opc
  | .s => Interpreter.s hw opc
  | .sn => Interpreter.sn hw opc
  | .l => Interpreter.l hw opc
  | .ln => Interpreter.ln hw opc
  | .ls => Interpreter.ls hw opc
  | .sl => Interpreter.sl hw opc
  | .lsn => Interpreter.lsn hw opc
  | .sln => Interpreter.sln hw opc
  | .lsm => Interpreter.lsm hw opc
  | .slm => Interpreter.slm hw opc
  | .lsnm => Interpreter.lsnm hw opc
  | .slnm => Interpreter.slnm hw opc
  | .ldax => Interpreter.ldax hw opc
  | .ldaxn => Interpreter.ldaxn hw opc
  | .ldaxm => Interpreter.ldaxm hw opc
  | .ldaxnm => Interpreter.ldaxnm hw opc
  | .ld => Interpreter.ld hw opc
  | .ldn => Interpreter.ldn hw opc
  | .ldm => Interpreter.ldm hw opc
  | .ldnm => Interpreter.ldnm hw opc

/-! ## Tables -/

structure InterpreterOpInfo (F : Type) where
  opcode : Word
  opcodeMask : Word
  function : F
  deriving DecidableEq

def InterpreterOpInfo.covers {F : Type} (info : InterpreterOpInfo F) (opcode : Word) : Bool :=
  opcode &&& info.opcodeMask = info.opcode

def sOpcodes : List (InterpreterOpInfo Op) := [
  ⟨0x0000, 0xfffc, .nop⟩,
  ⟨0x0004, 0xfffc, .dar⟩,
  ⟨0x0008, 0xfffc, .iar⟩,
  ⟨0x000c, 0xfffc, .subarn⟩,
  ⟨0x0010, 0xfff0, .addarn⟩,
  ⟨0x0021, 0xffff, .halt⟩,
  ⟨0x02d0, 0xfff0, .ret⟩,
  ⟨0x02f0, 0xfff0, .rti⟩,
  ⟨0x02b0, 0xfff0, .call⟩,
  ⟨0x0270, 0xfff0, .ifcc⟩,
  ⟨0x0290, 0xfff0, .jcc⟩,
  ⟨0x1700, 0xff10, .jmprcc⟩,
  ⟨0x1710, 0xff10, .callr⟩,
  ⟨0x1200, 0xff00, .sbclr⟩,
  ⟨0x1300, 0xff00, .sbset⟩,
  ⟨0x1400, 0xfec0, .lsl⟩,
  ⟨0x1440, 0xfec0, .lsr⟩,
  ⟨0x1480, 0xfec0, .asl⟩,
  ⟨0x14c0, 0xfec0, .asr⟩,
  ⟨0x02ca, 0xffff, .lsrn⟩,
  ⟨0x02cb, 0xffff, .asrn⟩,
  ⟨0x0080, 0xffe0, .lri⟩,
  ⟨0x00c0, 0xffe0, .lr⟩,
  ⟨0x00e0, 0xffe0, .sr⟩,
  ⟨0x1c00, 0xfc00, .mrr⟩,
  ⟨0x1600, 0xff00, .si⟩,
  ⟨0x0400, 0xfe00, .addis⟩,
  ⟨0x0600, 0xfe00, .cmpis⟩,
  ⟨0x0800, 0xf800, .lris⟩,
  ⟨0x0200, 0xfeff, .addi⟩,
  ⟨0x0220, 0xfeff, .xori⟩,
  ⟨0x0240, 0xfeff, .andi⟩,
  ⟨0x0260, 0xfeff, .ori⟩,
  ⟨0x0280, 0xfeff, .cmpi⟩,
  ⟨0x02a0, 0xfeff, .andf⟩,
  ⟨0x02c0, 0xfeff, .andcf⟩,
  ⟨0x0210, 0xfefc, .ilrr⟩,
  ⟨0x0214, 0xfefc, .ilrrd⟩,
  ⟨0x0218, 0xfefc, .ilrri⟩,
  ⟨0x021c, 0xfefc, .ilrrn⟩,
  ⟨0x0040, 0xffe0, .loop⟩,
  ⟨0x0060, 0xffe0, .bloop⟩,
  ⟨0x1000, 0xff00, .loopi⟩,
  ⟨0x1100, 0xff00, .bloopi⟩,
  ⟨0x1800, 0xff80, .lrr⟩,
  ⟨0x1880, 0xff80, .lrrd⟩,
  ⟨0x1900, 0xff80, .lrri⟩,
  ⟨0x1980, 0xff80, .lrrn⟩,
  ⟨0x1a00, 0xff80, .srr⟩,
  ⟨0x1a80, 0xff80, .srrd⟩,
  ⟨0x1b00, 0xff80, .srri⟩,
  ⟨0x1b80, 0xff80, .srrn⟩,
  ⟨0x2000, 0xf800, .lrs⟩,
  ⟨0x2800, 0xfe00, .srsh⟩,
  ⟨0x2c00, 0xfc00, .srs⟩,
  ⟨0x3000, 0xfc80, .xorr⟩,
  ⟨0x3400, 0xfc80, .andr⟩,
  ⟨0x3800, 0xfc80, .orr⟩,
  ⟨0x3c00, 0xfe80, .andc⟩,
  ⟨0x3e00, 0xfe80, .orc⟩,
  ⟨0x3080, 0xfe80, .xorc⟩,
  ⟨0x3280, 0xfe80, .notc⟩,
  ⟨0x3480, 0xfc80, .lsrnrx⟩,
  ⟨0x3880, 0xfc80, .asrnrx⟩,
  ⟨0x3c80, 0xfe80, .lsrnr⟩,
  ⟨0x3e80, 0xfe80, .asrnr⟩,
  ⟨0x4000, 0xf800, .addr⟩,
  ⟨0x4800, 0xfc00, .addax⟩,
  ⟨0x4c00, 0xfe00, .add⟩,
  ⟨0x4e00, 0xfe00, .addp⟩,
  ⟨0x5000, 0xf800, .subr⟩,
  ⟨0x5800, 0xfc00, .subax⟩,
  ⟨0x5c00, 0xfe00, .sub⟩,
  ⟨0x5e00, 0xfe00, .subp⟩,
  ⟨0x6000, 0xf800, .movr⟩,
  ⟨0x6800, 0xfc00, .movax⟩,
  ⟨0x6c00, 0xfe00, .mov⟩,
  ⟨0x6e00, 0xfe00, .movp⟩,
  ⟨0x7000, 0xfc00, .addaxl⟩,
  ⟨0x7400, 0xfe00, .incm⟩,
  ⟨0x7600, 0xfe00, .inc⟩,
  ⟨0x7800, 0xfe00, .decm⟩,
  ⟨0x7a00, 0xfe00, .dec⟩,
  ⟨0x7c00, 0xfe00, .neg⟩,
  ⟨0x7e00, 0xfe00, .movnp⟩,
  ⟨0x8000, 0xf700, .nx⟩,
  ⟨0x8100, 0xf700, .clr⟩,
  ⟨0x8200, 0xff00, .cmp⟩,
  ⟨0x8300, 0xff00, .mulaxh⟩,
  ⟨0x8400, 0xff00, .clrp⟩,
  ⟨0x8500, 0xff00, .tstprod⟩,
  ⟨0x8600, 0xfe00, .tstaxh⟩,
  ⟨0x8a00, 0xff00, .srbith⟩,
  ⟨0x8b00, 0xff00, .srbith⟩,
  ⟨0x8c00, 0xff00, .srbith⟩,
  ⟨0x8d00, 0xff00, .srbith⟩,
  ⟨0x8e00, 0xff00, .srbith⟩,
  ⟨0x8f00, 0xff00, .srbith⟩,
  ⟨0x9000, 0xf700, .mul⟩,
  ⟨0x9100, 0xf700, .asr16⟩,
  ⟨0x9200, 0xf600, .mulmvz⟩,
  ⟨0x9400, 0xf600, .mulac⟩,
  ⟨0x9600, 0xf600, .mulmv⟩,
  ⟨0xa000, 0xe700, .mulx⟩,
  ⟨0xa100, 0xf700, .abs⟩,
  ⟨0xa200, 0xe600, .mulxmvz⟩,
  ⟨0xa400, 0xe600, .mulxac⟩,
  ⟨0xa600, 0xe600, .mulxmv⟩,
  ⟨0xb100, 0xf700, .tst⟩,
  ⟨0xc000, 0xe700, .mulc⟩,
  ⟨0xc100, 0xe700, .cmpaxh⟩,
  ⟨0xc200, 0xe600, .mulcmvz⟩,
  ⟨0xc400, 0xe600, .mulcac⟩,
  ⟨0xc600, 0xe600, .mulcmv⟩,
  ⟨0xe000, 0xfc00, .maddx⟩,
  ⟨0xe400, 0xfc00, .msubx⟩,
  ⟨0xe800, 0xfc00, .maddc⟩,
  ⟨0xec00, 0xfc00, .msubc⟩,
  ⟨0xf000, 0xfe00, .lsl16⟩,
  ⟨0xf200, 0xfe00, .madd⟩,
  ⟨0xf400, 0xfe00, .lsr16⟩,
  ⟨0xf600, 0xfe00, .msub⟩,
  ⟨0xf800, 0xfc00, .addpaxz⟩,
  ⟨0xfc00, 0xfe00, .clrl⟩,
  ⟨0xfe00, 0xfe00, .movpz⟩]

def sOpcodesExt : List (InterpreterOpInfo ExtOp) := [
  ⟨0x0000, 0x00fc, .nopExt⟩,
  ⟨0x0004, 0x00fc, .dr⟩,
  ⟨0x0008, 0x00fc, .ir⟩,
  ⟨0x000c, 0x00fc, .nr⟩,
  ⟨0x0010, 0x00f0, .mv⟩,
  ⟨0x0020, 0x00e4, .s⟩,
  ⟨0x0024, 0x00e4, .sn⟩,
  ⟨0x0040, 0x00c4, .l⟩,
  ⟨0x0044, 0x00c4, .ln⟩,
  ⟨0x0080, 0x00ce, .ls⟩,
  ⟨0x0082, 0x00ce, .sl⟩,
  ⟨0x0084, 0x00ce, .lsn⟩,
  ⟨0x0086, 0x00ce, .sln⟩,
  ⟨0x0088, 0x00ce, .lsm⟩,
  ⟨0x008a, 0x00ce, .slm⟩,
  ⟨0x008c, 0x00ce, .lsnm⟩,
  ⟨0x008e, 0x00ce, .slnm⟩,
  ⟨0x00c3, 0x00cf, .ldax⟩,
  ⟨0x00c7, 0x00cf, .ldaxn⟩,
  ⟨0x00cb, 0x00cf, .ldaxm⟩,
  ⟨0x00cf, 0x00cf, .ldaxnm⟩,
  ⟨0x00c0, 0x00cc, .ld⟩,
  ⟨0x00c4, 0x00cc, .ldn⟩,
  ⟨0x00c8, 0x00cc, .ldm⟩,
  ⟨0x00cc, 0x00cc, .ldnm⟩]

def getOp (inst : Word) : Op := ((sOpcodes.find? (·.covers inst)).map (·.function)).getD .nop

def getExtOp (inst : Word) : ExtOp :=
  let index := if inst >>> 12 = 0x3 then inst &&& 0x7F else inst &&& 0xFF
  ((sOpcodesExt.find? (·.covers index)).map (·.function)).getD .nopExt

/-! ## Execution -/

def applyWriteBackLog (log : WriteBackLog) (s : Dsp H) : Dsp H :=
  log.foldl (fun s entry => s.opWriteRegister entry.2 (.ofNat entry.1)) s

def executeInstruction (hw : Hardware H) (inst : Word) (s : Dsp H) : Outcome (Dsp H) Operand Unit :=
  if (getOpTemplate inst).extended then
    let (log, s) := (getExtOp inst).exec hw inst s
    let outcome := (getOp inst).exec hw inst s
    { outcome with state := applyWriteBackLog log outcome.state }
  else (getOp inst).exec hw inst s

end Karphin.DSP.Interpreter
