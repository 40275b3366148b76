import Karphin.DSP.Interpreter.Tables

/-!
# Numbers in accumulators

An accumulator that is extended from 40 bits holds what is stored in it, and the product register may hold more.
-/

namespace Karphin.DSP

variable {H : Type} {s : Dsp H} {i j : Fin 2} {v : Int}

/-! ## Forty bits -/

theorem isProperlySignExtended_iff : isProperlySignExtended v = true ↔ -2 ^ 39 ≤ v ∧ v < 2 ^ 39 := by
  rw [isProperlySignExtended, Bool.or_eq_true, decide_eq_true_eq, decide_eq_true_eq]
  omega

theorem convert_range (v : Int) : -2 ^ 39 ≤ dspConvertLongAcc v ∧ dspConvertLongAcc v < 2 ^ 39 := by
  have hlow := @Int.le_bmod v (2 ^ 40) (by decide)
  have hhigh := @Int.bmod_lt v (2 ^ 40) (by decide)
  rw [dspConvertLongAcc]
  omega

theorem convert_proper (v : Int) : isProperlySignExtended (dspConvertLongAcc v) = true :=
  isProperlySignExtended_iff.mpr (convert_range v)

theorem sameLongAcc_convert (v : Int) : sameLongAcc v (dspConvertLongAcc v) = true := by
  rw [sameLongAcc, dspConvertLongAcc, decide_eq_true_eq]
  exact (Int.bmod_emod).symm

theorem convert_eq_self (h : isProperlySignExtended v = true) : dspConvertLongAcc v = v := by
  rw [isProperlySignExtended_iff] at h
  rw [dspConvertLongAcc]
  apply Int.bmod_eq_of_le <;> omega

/-! ## Parts -/

theorem Acc.val_ofInt (hlow : -2 ^ 63 ≤ v) (hhigh : v < 2 ^ 63) : (Acc.ofInt v).val = v := by
  have hl : ((BitVec.ofInt 16 v).toNat : Int) = v % 2 ^ 16 := by
    rw [BitVec.toNat_ofInt]
    omega
  have hm : ((BitVec.ofInt 16 (v / 2 ^ 16)).toNat : Int) = v / 2 ^ 16 % 2 ^ 16 := by
    rw [BitVec.toNat_ofInt]
    omega
  have hh : (BitVec.ofInt 32 (v / 2 ^ 32)).toInt = v / 2 ^ 32 := by
    rw [BitVec.toInt_ofInt]
    apply Int.bmod_eq_of_le <;> omega
  rw [Acc.val, Acc.ofInt]
  simp only [hl, hm, hh]
  omega

theorem Acc.proper_iff (acc : Acc) : isProperlySignExtended acc.val = true ↔ -128 ≤ acc.h.toInt ∧ acc.h.toInt < 128 := by
  have hl := acc.l.isLt
  have hm := acc.m.isLt
  rw [isProperlySignExtended_iff, Acc.val]
  omega

theorem Acc.neg_iff (acc : Acc) : acc.val < 0 ↔ acc.h.toInt < 0 := by
  have hl := acc.l.isLt
  have hm := acc.m.isLt
  rw [Acc.val]
  omega

namespace Dsp

@[simp] theorem longAcc_setLongAcc (s : Dsp H) (i : Fin 2) (v : Int) :
    (s.setLongAcc i v).longAcc i = dspConvertLongAcc v := by
  have hrange := convert_range v
  simp only [longAcc, setLongAcc, setAcc, Function.update_self]
  apply Acc.val_ofInt <;> omega

def Extended (s : Dsp H) : Prop := ∀ i, isProperlySignExtended (s.longAcc i) = true

theorem Extended.of_ac {s' : Dsp H} (h : s.Extended) (hac : s'.r.ac = s.r.ac) : s'.Extended := by
  intro i
  rw [longAcc, hac]
  exact h i

end Dsp

end Karphin.DSP

/-!
## What instructions write

A handler writes at most one accumulator, in one of five ways. What these keep is kept by the instruction.
-/

namespace Karphin.DSP

open Karphin.Lib Traced

variable {H : Type} {s : Dsp H} {P : (Fin 2 → Acc) → Prop}

/-- A property of the accumulators that every write to one of them keeps. -/
structure Stable (P : (Fin 2 → Acc) → Prop) (d : Fin 2) : Prop where
  long : ∀ {ac} value, P ac → P (Function.update ac d (.ofInt (dspConvertLongAcc value)))
  low : ∀ {ac} l, P ac → P (Function.update ac d { ac d with l })
  mid : ∀ {ac} m, P ac → P (Function.update ac d { ac d with m })
  high : ∀ {ac} (val : Word), P ac → P (Function.update ac d { ac d with h := (val.setWidth 8).signExtend 32 })
  extend : ∀ {ac}, P ac →
    P (Function.update ac d { ac d with h := if (ac d).m &&& 0x8000 ≠ 0 then 0xFFFFFFFF else 0, l := 0 })

def Register.acc : Register → Option (Fin 2)
  | .ach i => some i
  | .acl i => some i
  | .acm i => some i
  | _ => none

namespace Dsp

theorem stable_opWriteRegister {reg : Register} (hreg : ∀ d, reg.acc = some d → Stable P d) (val : Word)
    (h : P s.r.ac) : P (s.opWriteRegister val reg).r.ac := by
  cases reg with
  | ach i => exact (hreg i rfl).high val h
  | acl i => exact (hreg i rfl).low val h
  | acm i => exact (hreg i rfl).mid val h
  | _ => exact h

theorem stable_conditionalExtendAccum {reg : Register} (hreg : ∀ d, reg.acc = some d → Stable P d) (h : P s.r.ac) :
    P (s.conditionalExtendAccum reg).r.ac := by
  cases reg with
  | acm i =>
      simp only [conditionalExtendAccum]
      split
      · exact (hreg i rfl).extend h
      · exact h
  | _ => exact h

/-! ## Parts of the machine that hold no accumulator -/

theorem opReadRegister_ac (reg : Register) : (s.opReadRegister reg).2.r.ac = s.r.ac := by
  cases reg <;> rfl

theorem readDMEM_r (hw : Hardware H) (address : Word) : (s.readDMEM hw address).2.r = s.r := by
  rw [readDMEM]
  split <;> rfl

theorem writeDMEM_r (hw : Hardware H) (address value : Word) : (s.writeDMEM hw address value).r = s.r := by
  rw [writeDMEM]
  split <;> rfl

end Dsp

/-! ## Families of handlers -/

namespace Interpreter
open Dsp

variable {α : Type} {x y : Exec H Int} {d : Fin 2}

def KeepsAcc (P : (Fin 2 → Acc) → Prop) (x : Exec H α) : Prop := Keeps (fun s => P s.r.ac) x

theorem keeps_of_ac {x : Exec H α} (h : ∀ s, (x s).state.r.ac = s.r.ac) : KeepsAcc P x := by
  intro s hs
  simpa only [h s] using hs

theorem keeps_axPart (reg : Fin 4) : KeepsAcc P (toMid (axPart (H := H) reg)) := by
  apply keeps_of_ac
  intro s
  match reg with
  | 0 | 1 | 2 | 3 => rfl

theorem keeps_selectAX (reg part : Fin 2) : KeepsAcc P (selectAX (H := H) reg part) := by
  rw [selectAX]
  split
  · exact keeps_of_ac fun _ => rfl
  · exact keeps_of_ac fun _ => rfl

theorem keeps_mulxProduct (sreg treg : Fin 2) : KeepsAcc P (mulxProduct (H := H) sreg treg) :=
  (keeps_selectAX 0 sreg).bind fun _ => (keeps_selectAX 1 treg).bind fun _ => .read _ _

theorem keeps_addTo (hd : Stable P d) (h : KeepsAcc P x) : KeepsAcc P (addTo d x) := fun s hs => hd.long _ (h s hs)

theorem keeps_subFrom (hd : Stable P d) (h : KeepsAcc P x) : KeepsAcc P (subFrom d x) := fun s hs => hd.long _ (h s hs)

theorem keeps_compare (h : KeepsAcc P x) : KeepsAcc P (Interpreter.compare d x) := fun s hs => h s hs

theorem keeps_moveTo (hd : Stable P d) (h : KeepsAcc P x) : KeepsAcc P (moveTo d x) := fun s hs => hd.long _ (h s hs)

theorem keeps_storeTo (hd : Stable P d) (h : KeepsAcc P x) : KeepsAcc P (storeTo d x) := fun s hs => hd.long _ (h s hs)

theorem keeps_multiplyWith (hd : Stable P d) (hx : KeepsAcc P x) (hy : KeepsAcc P y) :
    KeepsAcc P (multiplyWith d x y) := fun s hs => hd.long _ (hy _ (hx s hs))

theorem keeps_productTo (h : KeepsAcc P x) : KeepsAcc P (productTo x) := fun s hs => h s hs

theorem keeps_logicMid {x : Exec H Word} (hd : Stable P d) (f : Word → Word → Word) (h : KeepsAcc P x) :
    KeepsAcc P (logicMid d f x) := fun s hs => hd.mid _ (h s hs)

theorem keeps_load {reg : Nat} (hreg : ∀ d, (Register.ofNat reg).acc = some d → Stable P d) (val : Word) :
    KeepsAcc P (load (H := H) reg val) := fun _ h =>
  stable_conditionalExtendAccum hreg (stable_opWriteRegister hreg val h)

theorem keeps_opReadRegister (reg : Nat) : KeepsAcc P (DSP.opReadRegister (H := H) reg) :=
  keeps_of_ac fun _ => opReadRegister_ac _

theorem keeps_readDMEM (hw : Hardware H) (address : Word) : KeepsAcc P (Interpreter.readDMEM hw address) :=
  keeps_of_ac fun _ => congrArg Regs.ac (readDMEM_r hw address)

theorem keeps_writeDMEM (hw : Hardware H) (address value : Word) : KeepsAcc P (Interpreter.writeDMEM hw address value) :=
  keeps_of_ac fun _ => congrArg Regs.ac (writeDMEM_r hw address value)

theorem keeps_startLoop (cnt loopPC : Word) {skip : Exec H Unit} (h : KeepsAcc P skip) :
    KeepsAcc P (startLoop cnt loopPC skip) := by
  rw [startLoop]
  split
  · exact keeps_of_ac fun _ => rfl
  · exact h

theorem keeps_loadThrough (hw : Hardware H) {opc : Word} {after : Fin 4 → Exec H Unit}
    (hreg : ∀ d, (Register.ofNat (field opc 0 5)).acc = some d → Stable P d) (h : ∀ i, KeepsAcc P (after i)) :
    KeepsAcc P (loadThrough hw opc after) :=
  (keeps_opReadRegister _).bind fun _ => (keeps_readDMEM hw _).bind fun _ => (keeps_load hreg _).bind fun _ => h _

theorem keeps_storeThrough (hw : Hardware H) (opc : Word) {after : Fin 4 → Exec H Unit}
    (h : ∀ i, KeepsAcc P (after i)) : KeepsAcc P (storeThrough hw opc after) :=
  .bind (.read _ _) fun _ => (keeps_opReadRegister _).bind fun _ => (keeps_writeDMEM hw _ _).bind fun _ => h _

theorem acc_ofNat_acm (d : Fin 2) : (Register.ofNat (dspRegACM0 + d)).acc = some d := by
  match d with
  | 0 | 1 => rfl

theorem keeps_loadInstruction {opc : Word} {after : Fin 4 → Exec H Unit} (hd : Stable P (field opc 8 1))
    (h : ∀ i, KeepsAcc P (after i)) : KeepsAcc P (loadInstruction opc after) := by
  intro s hs
  apply h
  apply stable_conditionalExtendAccum _ (hd.mid _ hs)
  intro d' hd'
  cases (acc_ofNat_acm _).symm.trans hd'
  exact hd

theorem keeps_whenTrue (c : Fin 16) {y : Exec H Unit} (h : KeepsAcc P y) :
    KeepsAcc P (do if ← checkCondition c then y) :=
  .bind (.read _ _) fun _ => .ite h (.pure _)

/-! ## Handlers -/

def Op.written (opc : Word) : Op → Option (Fin 2)
  | .clr | .abs | .asr16 => some (field opc 11 1)
  | .lsrn | .asrn => some 0
  | .addr | .addax | .add | .addp | .addaxl | .addi | .addis | .incm | .inc
  | .subr | .subax | .sub | .subp | .decm | .dec | .neg
  | .movr | .movax | .mov | .movp | .movnp | .movpz | .clrl | .addpaxz
  | .lsl16 | .lsr16 | .lsl | .lsr | .asl | .asr | .lsrnrx | .asrnrx | .lsrnr | .asrnr
  | .xorr | .andr | .orr | .andc | .orc | .xorc | .notc | .xori | .andi | .ori
  | .mulac | .mulmv | .mulmvz | .mulxac | .mulxmv | .mulxmvz | .mulcac | .mulcmv | .mulcmvz
  | .ilrr | .ilrrd | .ilrri | .ilrrn => some (field opc 8 1)
  | .mrr => (Register.ofNat (field opc 5 5)).acc
  | .lri | .lr | .lrr | .lrrd | .lrri | .lrrn => (Register.ofNat (field opc 0 5)).acc
  | .lris | .lrs => (Register.ofNat ((field opc 8 3) + dspRegAXL0)).acc
  | _ => none

theorem Op.keeps (hw : Hardware H) {opc : Word} {op : Op} (h : ∀ d, op.written opc = some d → Stable P d) :
    KeepsAcc P (op.exec hw opc) := by
  cases op with
  | nop | nx | tst | tstaxh | tstprod | clrp | srbith | sbclr | sbset => exact keeps_of_ac fun _ => rfl
  | andf | andcf | dar | iar | subarn | addarn | halt => exact keeps_of_ac fun _ => rfl
  | addr => exact keeps_addTo (h _ rfl) (keeps_axPart _)
  | addax | add | addp | addaxl | addi | addis | incm | inc => exact keeps_addTo (h _ rfl) (keeps_of_ac fun _ => rfl)
  | subr => exact keeps_subFrom (h _ rfl) (keeps_axPart _)
  | subax | sub | subp | decm | dec => exact keeps_subFrom (h _ rfl) (keeps_of_ac fun _ => rfl)
  | cmp | cmpaxh | cmpi | cmpis => exact keeps_compare (keeps_of_ac fun _ => rfl)
  | neg | addpaxz => exact fun s hs => (h _ rfl).long _ hs
  | movr => exact keeps_moveTo (h _ rfl) (keeps_axPart _)
  | clr | clrl | movax | mov | movp | movnp | movpz => exact keeps_moveTo (h _ rfl) (keeps_of_ac fun _ => rfl)
  | abs | lsl16 | lsr16 | asr16 | lsl | lsr | asl | asr => exact keeps_storeTo (h _ rfl) (keeps_of_ac fun _ => rfl)
  | lsrn | asrn | lsrnrx | asrnrx | lsrnr | asrnr => exact keeps_storeTo (h _ rfl) (keeps_of_ac fun _ => rfl)
  | xorr | andr | orr | andc | orc | xorc | notc | xori | andi | ori =>
      exact keeps_logicMid (h _ rfl) _ (keeps_of_ac fun _ => rfl)
  | mulaxh | mul | mulc | maddc | msubc | madd | msub => exact keeps_productTo (keeps_of_ac fun _ => rfl)
  | mulx => exact keeps_productTo (keeps_mulxProduct _ _)
  | maddx | msubx =>
      exact keeps_productTo ((keeps_selectAX _ _).bind fun _ => (keeps_selectAX _ _).bind fun _ =>
        keeps_of_ac fun _ => rfl)
  | mulac | mulmv | mulmvz | mulcac | mulcmv | mulcmvz =>
      exact keeps_multiplyWith (h _ rfl) (keeps_of_ac fun _ => rfl) (keeps_of_ac fun _ => rfl)
  | mulxac | mulxmv | mulxmvz =>
      exact keeps_multiplyWith (h _ rfl) (keeps_of_ac fun _ => rfl) (keeps_mulxProduct _ _)
  | mrr => exact (keeps_opReadRegister _).bind fun _ => keeps_load h _
  | lri => exact .bind (keeps_of_ac fun _ => rfl) fun _ => keeps_load h _
  | lris => exact keeps_load h _
  | lrs => exact .bind (.read _ _) fun _ => (keeps_readDMEM hw _).bind fun _ => keeps_load h _
  | lr => exact .bind (keeps_of_ac fun _ => rfl) fun _ => (keeps_readDMEM hw _).bind fun _ => keeps_load h _
  | srsh | srs => exact .bind (.read _ _) fun _ => (keeps_opReadRegister _).bind fun _ => keeps_writeDMEM hw _ _
  | sr => exact .bind (keeps_of_ac fun _ => rfl) fun _ => (keeps_opReadRegister _).bind fun _ => keeps_writeDMEM hw _ _
  | si => exact .bind (keeps_of_ac fun _ => rfl) fun _ => keeps_writeDMEM hw _ _
  | lrr | lrrd | lrri | lrrn => exact keeps_loadThrough hw h fun _ => keeps_of_ac fun _ => rfl
  | srr | srrd | srri | srrn => exact keeps_storeThrough hw opc fun _ => keeps_of_ac fun _ => rfl
  | ilrr | ilrrd | ilrri | ilrrn => exact keeps_loadInstruction (h _ rfl) fun _ => keeps_of_ac fun _ => rfl
  | call | jcc => exact .bind (keeps_of_ac fun _ => rfl) fun _ => keeps_whenTrue _ (keeps_of_ac fun _ => rfl)
  | ret | rti => exact keeps_whenTrue _ (keeps_of_ac fun _ => rfl)
  | callr | jmprcc => exact keeps_whenTrue _ ((keeps_opReadRegister _).bind fun _ => keeps_of_ac fun _ => rfl)
  | ifcc => exact .bind (.read _ _) fun _ => .ite (.pure _) (keeps_of_ac fun _ => rfl)
  | loop =>
      exact (keeps_opReadRegister _).bind fun _ => .bind (.read _ _) fun _ =>
        keeps_startLoop _ _ (keeps_of_ac fun _ => rfl)
  | loopi => exact .bind (.read _ _) fun _ => keeps_startLoop _ _ (keeps_of_ac fun _ => rfl)
  | bloop =>
      exact (keeps_opReadRegister _).bind fun _ => .bind (keeps_of_ac fun _ => rfl) fun _ =>
        keeps_startLoop _ _ (keeps_of_ac fun _ => rfl)
  | bloopi => exact .bind (keeps_of_ac fun _ => rfl) fun _ => keeps_startLoop _ _ (keeps_of_ac fun _ => rfl)

end Interpreter

end Karphin.DSP
