import Karphin.PPCAnalyst.Lemmas.Footprints

/-! The loop of a reordering pass: it ends, and each of its turns swaps at most one pair of neighbours. -/

namespace Karphin.PPCAnalyst

open Karphin.PowerPC Karphin.Lib

variable {an : PPCAnalyzer} {p : Pass}

/-- The second block is the first one with the neighbours `a` and `b` swapped. -/
inductive Bubbled (a b : CodeOp) : List CodeOp → List CodeOp → Prop
  | forward (pre post) : Bubbled a b (pre ++ a :: b :: post) (pre ++ b :: a :: post)
  | backward (pre post) : Bubbled a b (pre ++ b :: a :: post) (pre ++ a :: b :: post)

theorem Bubbled.perm {a b : CodeOp} {code code' : List CodeOp} (h : Bubbled a b code code') :
    code'.Perm code := by
  cases h with
  | forward pre post => exact (List.Perm.swap a b post).append_left pre
  | backward pre post => exact (List.Perm.swap b a post).append_left pre

theorem Bubbled.filter {a b : CodeOp} {code code' : List CodeOp} {q : CodeOp → Bool}
    (h : Bubbled a b code code') (hb : q b = false) : code'.filter q = code.filter q := by
  cases h with
  | forward pre post => simp [List.filter_cons, hb]
  | backward pre post => simp [List.filter_cons, hb]

theorem eq_take_append_pair {code : List CodeOp} {j : Nat} {x y : CodeOp}
    (hx : code[j]? = some x) (hy : code[j + 1]? = some y) :
    code = code.take j ++ x :: y :: code.drop (j + 2) := by
  obtain ⟨hj, rfl⟩ := List.getElem?_eq_some_iff.mp hx
  obtain ⟨hj', rfl⟩ := List.getElem?_eq_some_iff.mp hy
  rw [← List.drop_eq_getElem_cons hj', ← List.drop_eq_getElem_cons hj, List.take_append_drop]

theorem set_set_pair {code : List CodeOp} {j : Nat} {x y : CodeOp}
    (hx : code[j]? = some x) (hy : code[j + 1]? = some y) :
    (code.set j y).set (j + 1) x = code.take j ++ y :: x :: code.drop (j + 2) := by
  obtain ⟨hj, -⟩ := List.getElem?_eq_some_iff.mp hy
  have hlen : (code.take j).length = j := by simp; omega
  conv_lhs => rw [eq_take_append_pair hx hy]
  rw [List.set_append_right _ _ (by omega), List.set_append_right _ _ (by omega)]
  simp [hlen]

/-! ## Positions

`pos n k` is the index that the pass looks at `k` steps after its first one. -/

namespace Pass

variable (p : Pass)

def pos (n k : Nat) : Int := p.first n + k * p.increment

theorem pos_zero (n : Nat) : p.pos n 0 = p.first n := by simp [pos]

theorem pos_succ (n k : Nat) : p.pos n (k + 1) = p.pos n k + p.increment := by
  simp only [pos, Nat.cast_add, Nat.cast_one, Int.add_mul, Int.one_mul, Int.add_assoc]

theorem pos_pred {n k : Nat} (hk : 1 ≤ k) : p.pos n (k - 1) = p.pos n k - p.increment := by
  obtain ⟨j, rfl⟩ : ∃ j, k = j + 1 := ⟨k - 1, by omega⟩
  rw [Nat.add_sub_cancel, pos_succ, Int.add_sub_cancel]

theorem pos_inj {n j k : Nat} : p.pos n j = p.pos n k ↔ j = k := by
  cases hr : p.reverse <;> simp [pos, increment, hr]

theorem pos_last {n : Nat} (hn : 1 ≤ n) : p.last n = p.pos n (n - 1) := by
  cases hr : p.reverse <;> simp [pos, first, last, increment, hr] <;> omega

theorem pos_toNat {n k : Nat} (hk : k + 1 < n) :
    ((p.pos n k).toNat = k ∧ (p.pos n (k + 1)).toNat = k + 1) ∨
    ∃ j, (p.pos n k).toNat = j + 1 ∧ (p.pos n (k + 1)).toNat = j := by
  cases hr : p.reverse with
  | false =>
      left
      constructor <;> simp [pos, first, increment, hr]
  | true =>
      refine .inr ⟨n - 2 - k, ?_, ?_⟩ <;> simp [pos, first, increment, hr] <;> omega

end Pass

/-! ## Turns -/

/-- The loop is `k` steps away from its start, and has been `reached` steps away at most. -/
structure Loop.At (p : Pass) (n reached k : Nat) (l : Loop) : Prop where
  length : l.code.length = n
  next : l.next = p.pos n reached
  reached : reached < n
  back : l.goBackwards = true → l.i = p.pos n k ∧ 1 ≤ k ∧ k + 1 < n

def remaining (n reached k : Nat) (goBackwards : Bool) : Nat :=
  (n - reached) * (n + 1) + if goBackwards then k else 0

theorem Loop.init_at (code : List CodeOp) (hcode : code ≠ []) :
    (Loop.init p code).At p code.length 0 0 where
  length := rfl
  next := (p.pos_zero _).symm
  reached := List.length_pos_iff.mpr hcode
  back := nofun

theorem swapping_at {l : Loop} {a b : CodeOp} (h : l.swapping an p = some (a, b)) :
    l.at? l.i = some a ∧ l.at? (l.i + p.increment) = some b ∧ p.moves a = true ∧
      CanSwapAdjacentOps an a b = true := by
  unfold Loop.swapping at h
  split at h
  · next a' b' ha hb =>
      split at h
      · next hc =>
          simp only [Option.some.injEq, Prod.mk.injEq] at h
          obtain ⟨rfl, rfl⟩ := h
          simp only [Bool.and_eq_true] at hc
          exact ⟨ha, hb, hc.1.1, hc.2⟩
      · cases h
  · cases h

theorem bubbled_of_at {l : Loop} {n k : Nat} {a b : CodeOp} (hi : l.i = p.pos n k) (hk : k + 1 < n)
    (ha : l.at? l.i = some a) (hb : l.at? (l.i + p.increment) = some b) :
    Bubbled a b l.code ((l.code.set l.i.toNat b).set (l.i + p.increment).toNat a) := by
  have hnext : l.i + p.increment = p.pos n (k + 1) := by rw [p.pos_succ, hi]
  simp only [Loop.at?] at ha hb
  rw [hnext] at hb ⊢
  rw [hi] at ha ⊢
  rcases p.pos_toNat hk with ⟨h0, h1⟩ | ⟨j, h0, h1⟩
  · rw [h0] at ha ⊢
    rw [h1] at hb ⊢
    rw [set_set_pair ha hb]
    have h := Bubbled.forward (a := a) (b := b) (l.code.take k) (l.code.drop (k + 2))
    rwa [← eq_take_append_pair ha hb] at h
  · rw [h0] at ha ⊢
    rw [h1] at hb ⊢
    rw [List.set_comm _ _ (by omega), set_set_pair hb ha]
    have h := Bubbled.backward (a := a) (b := b) (l.code.take j) (l.code.drop (j + 2))
    rwa [← eq_take_append_pair hb ha] at h

theorem Loop.At.advance {n reached k : Nat} {l : Loop} (h : l.At p n reached k) :
    ∃ reached' k', (l.advance p).i = p.pos n k' ∧ (l.advance p).next = p.pos n reached' ∧
      (l.advance p).code = l.code ∧ (l.advance p).goBackwards = false ∧ k' < n ∧
      (k' + 1 < n → reached' < n ∧
        ∀ back, remaining n reached' k' back < remaining n reached k l.goBackwards) := by
  cases hb : l.goBackwards with
  | true =>
      obtain ⟨hi, h1, hk⟩ := h.back hb
      refine ⟨reached, k - 1, ?_, ?_, ?_, ?_, by omega, fun _ => ⟨h.reached, fun back => ?_⟩⟩
      · simp [Loop.advance, hb, hi, p.pos_pred h1]
      · simp [Loop.advance, hb, h.next]
      · simp [Loop.advance, hb]
      · simp [Loop.advance, hb]
      · simp only [remaining]
        cases back <;> (simp; omega)
  | false =>
      refine ⟨reached + 1, reached, ?_, ?_, ?_, ?_, h.reached, fun hk => ⟨hk, fun back => ?_⟩⟩
      · simp [Loop.advance, hb, h.next]
      · simp [Loop.advance, hb, h.next, p.pos_succ]
      · simp [Loop.advance, hb]
      · simp [Loop.advance, hb]
      · have hstep : (n - reached) * (n + 1) = (n - (reached + 1)) * (n + 1) + (n + 1) := by
          have : n - reached = n - (reached + 1) + 1 := by omega
          rw [this, Nat.succ_mul]
        simp only [remaining, hstep]
        cases back with
        | false => simp
        | true => simp; omega

theorem turn_spec {n reached k : Nat} {l : Loop} (h : l.At p n reached k) :
    l.turn an p = none ∨ ∃ l' reached' k', l.turn an p = some l' ∧ l'.At p n reached' k' ∧
      remaining n reached' k' l'.goBackwards < remaining n reached k l.goBackwards ∧
      (l'.code = l.code ∨ ∃ a b, (l.advance p).swapping an p = some (a, b) ∧ Bubbled a b l.code l'.code) := by
  obtain ⟨reached', k', hi, hnext, hcode, hback, hk', hlast⟩ := h.advance
  have hlen : (l.advance p).code.length = n := by rw [hcode, h.length]
  by_cases hend : (l.advance p).i = p.last n
  · left
    simp [Loop.turn, hlen, hend]
  · have hk : k' + 1 < n := by
      rw [p.pos_last (by omega), hi, p.pos_inj] at hend
      omega
    obtain ⟨hreached, hless⟩ := hlast hk
    right
    cases hs : (l.advance p).swapping an p with
    | none =>
        refine ⟨l.advance p, reached', k', ?_, ⟨hlen, hnext, hreached, ?_⟩, ?_, .inl hcode⟩
        · simp [Loop.turn, hlen, hend, hs]
        · intro hb
          simp [hback] at hb
        · exact hless _
    | some pair =>
        obtain ⟨a, b⟩ := pair
        obtain ⟨ha, hb, -, -⟩ := swapping_at hs
        have hbub := bubbled_of_at hi hk ha hb
        have hturn : l.turn an p = some { l.advance p with
            code := ((l.advance p).code.set (l.advance p).i.toNat b).set
              ((l.advance p).i + p.increment).toNat a
            goBackwards := decide ((l.advance p).i ≠ p.first n) } := by
          simp only [Loop.turn, hlen, hend, hs, if_false]
        refine ⟨_, reached', k', hturn, ⟨?_, hnext, hreached, ?_⟩, hless _, .inr ⟨a, b, rfl, ?_⟩⟩
        · simp [hlen]
        · intro hg
          refine ⟨hi, ?_, hk⟩
          have hne : (l.advance p).i ≠ p.first n := by simpa using hg
          rw [hi, ← p.pos_zero, ne_eq, p.pos_inj] at hne
          omega
        · rw [← hcode]
          exact hbub

theorem turn_some {n reached k : Nat} {l l' : Loop} (h : l.At p n reached k) (hturn : l.turn an p = some l') :
    (∃ reached' k', l'.At p n reached' k') ∧
      (l'.code = l.code ∨ ∃ a b, (l.advance p).swapping an p = some (a, b) ∧ Bubbled a b l.code l'.code) := by
  rcases @turn_spec an p n reached k l h with hnone | ⟨l₁, reached', k', hturn₁, hat, -, hbub⟩
  · rw [hnone] at hturn
    cases hturn
  · rw [hturn] at hturn₁
    cases hturn₁
    exact ⟨⟨reached', k', hat⟩, hbub⟩

/-! ## Runs of the loop -/

theorem reorderLoop_ends {n : Nat} : ∀ {fuel reached k : Nat} {l : Loop}, l.At p n reached k →
    remaining n reached k l.goBackwards < fuel →
    ∃ l', Reach (loopStep an p) anyStep l l' ∧ reorderLoop an p fuel l = some l'.code
  | 0, _, _, _, _, hfuel => absurd hfuel (Nat.not_lt_zero _)
  | fuel + 1, reached, k, l, h, hfuel => by
      rcases @turn_spec an p n reached k l h with hnone | ⟨l₁, reached', k', hturn, h₁, hless, -⟩
      · exact ⟨l, .refl, by simp [reorderLoop, hnone]⟩
      · obtain ⟨l', hreach, hloop⟩ := reorderLoop_ends h₁ (show _ < fuel by omega)
        exact ⟨l', (Reach.refl.tail (a := ()) trivial hturn).trans hreach, by simp [reorderLoop, hturn, hloop]⟩

theorem ReorderInstructionsCore_ends {code : List CodeOp} (hcode : code ≠ []) :
    ∃ l, Reach (loopStep an p) anyStep (Loop.init p code) l ∧
      ReorderInstructionsCore an code p = some l.code := by
  refine reorderLoop_ends (Loop.init_at code hcode) ?_
  simp only [remaining, Loop.init]
  rw [Nat.sub_zero, Nat.succ_mul]
  simp

end Karphin.PPCAnalyst

/-! Neighbours that `CanSwapAdjacentOps` lets through commute, except for the SO bit. -/

namespace Karphin.PPCAnalyst

open Karphin.PowerPC Karphin.Lib Karphin.PowerPC.Interpreter

variable {ρ : Type} {an : PPCAnalyzer} {p : Pass} {a b : CodeOp}

structure Decoded (op : CodeOp) : Prop where
  opinfo : op.op = GetOpInfo op.inst
  regsIn : op.regsIn = regsInOf op.op op.inst
  regsOut : op.regsOut = regsOutOf op.op op.inst
  crIn : op.crIn = crInOf op.op op.inst
  crOut : op.crOut = crOutOf op.op op.inst
  canEndBlock : op.canEndBlock = InstructionCanEndBlock op.op op.inst
  noException : op.canCauseException = false →
    op.op.has .loadStore = false ∧ op.op.has .programException = false

theorem SetInstructionStats_decoded (fpaAny : Bool) (address : BitVec 32) (inst : UGeckoInstruction) :
    Decoded (SetInstructionStats an fpaAny address inst) where
  opinfo := rfl
  regsIn := rfl
  regsOut := rfl
  crIn := rfl
  crOut := rfl
  canEndBlock := rfl
  noException h := by
    simp only [SetInstructionStats, Bool.or_eq_false_iff] at h
    exact ⟨h.1.1.1.2, h.1.1.2⟩

theorem readBlock_decoded : ∀ {fpaAny : Bool} {block : List (BitVec 32 × UGeckoInstruction)},
    ∀ op ∈ readBlock an fpaAny block, Decoded op
  | _, [], op, hop => nomatch hop
  | fpaAny, (address, inst) :: block, op, hop => by
      rcases List.mem_cons.mp hop with rfl | hop
      · exact SetInstructionStats_decoded fpaAny address inst
      · exact readBlock_decoded op hop

def Runs (ρ : Type) (op : CodeOp) (f : UGeckoInstruction → PowerPCState ρ → PowerPCState ρ) : Prop :=
  interpreterTable (GetOpInfo op.inst) = some f

theorem runs_of_modelled {op : CodeOp} (h : modelled (GetOpInfo op.inst) = true) : ∃ f, Runs ρ op f := by
  rw [← isSome_eq_modelled (ρ := ρ), Option.isSome_iff_exists] at h
  exact h

/-! ## Which ops are swapped -/

theorem modelled_of_setsCR {op : Op} {inst : UGeckoInstruction} (h : crOutOf op inst ≠ ∅)
    (hload : op.has .loadStore = false) (hprogram : op.has .programException = false)
    (hfpu : op.has .useFPU = false) : modelled op = true := by
  have hall : (!(op.has .setAllCR || op.has .setCRn || op.has .setCR0 || op.has .rcBit || op.has .setCR1 ||
      op.has .rcBitF || op.type == .cr) || op.has .loadStore || op.has .programException ||
      op.has .useFPU || modelled op) = true := by
    cases op <;> rfl
  simp only [hload, hprogram, hfpu, Bool.or_false] at hall
  cases hmod : modelled op with
  | true => rfl
  | false =>
      rw [hmod] at hall
      simp only [Bool.or_false, Bool.not_eq_true', Bool.or_eq_false_iff] at hall
      obtain ⟨⟨⟨⟨⟨⟨h1, h2⟩, h3⟩, h4⟩, h5⟩, h6⟩, h7⟩ := hall
      have htype : op.type ≠ .cr := by simpa using h7
      simp [crOutOf, h1, h2, h3, h4, h5, h6, htype] at h

theorem GetOpInfo_cror {inst : UGeckoInstruction} (hopcd : inst.OPCD = 19#6) (hsub : inst.SUBOP10 = 449#10) :
    GetOpInfo inst = .cror := by
  simp only [GetOpInfo, hopcd, hsub]
  rfl

structure Swappable (a b : CodeOp) : Prop where
  exceptionA : a.canCauseException = false
  exceptionB : b.canCauseException = false
  oeA : a.op.has .setOE = false
  oeB : b.op.has .setOE = false
  carry : ((a.op.has .setCA || a.op.has .readCA) && (b.op.has .setCA || b.op.has .readCA)) = false
  integer : b.op.type = .integer
  regsBA : b.regsOut ∩ a.regsIn = ∅
  crBA : b.crOut ∩ a.crIn = ∅
  regsAB : a.regsOut ∩ b.regsIn = ∅
  crAB : a.crOut ∩ b.crIn = ∅
  regsOut : b.regsOut ∩ a.regsOut = ∅
  crOut : b.crOut ∩ a.crOut = ∅

theorem CanSwapAdjacentOps_spec (h : CanSwapAdjacentOps an a b = true) : Swappable a b := by
  simp only [CanSwapAdjacentOps, Bool.and_eq_true, Bool.not_eq_true', Bool.or_eq_false_iff, decide_eq_true_eq,
    beq_iff_eq] at h
  obtain ⟨⟨⟨⟨⟨⟨⟨⟨⟨⟨⟨⟨-, hexc⟩, -⟩, hoeA⟩, hoeB⟩, hca⟩, hint⟩, h1⟩, h2⟩, h3⟩, h4⟩, h5⟩, h6⟩ := h
  exact ⟨hexc.1, hexc.2, hoeA.2, hoeB.2, hca, hint, h1, h2, h3, h4, h5, h6⟩

theorem modelled_of_moves (hmoves : p.moves a = true) (hswap : Swappable a b) (hA : Decoded a)
    (hfpu : a.op.has .useFPU = false) : modelled a.op = true := by
  unfold Pass.moves at hmoves
  split at hmoves
  · simp only [isCror, Bool.and_eq_true, beq_iff_eq] at hmoves
    rw [hA.opinfo, GetOpInfo_cror hmoves.1 hmoves.2]
    decide
  · simp only [isCarryOp, Bool.and_eq_true, beq_iff_eq] at hmoves
    exact modelled_of_integer hmoves.2
  · obtain ⟨hload, hprogram⟩ := hA.noException hswap.exceptionA
    simp only [decide_eq_true_eq, hA.crOut] at hmoves
    exact modelled_of_setsCR hmoves hload hprogram hfpu

/-! ## Separate footprints -/

theorem not_both_mem {α : Type} [DecidableEq α] {x : α} {S T : Finset α} (h : S ∩ T = ∅) (hS : x ∈ S)
    (hT : x ∈ T) : False := by
  simpa [h] using Finset.mem_inter.mpr ⟨hS, hT⟩

theorem disjoint_writes_reads (hA : Decoded a) (hB : Decoded b) (hregs : a.regsOut ∩ b.regsIn = ∅)
    (hcr : a.crOut ∩ b.crIn = ∅) (hca : ¬ (a.op.has .setCA = true ∧ b.op.has .readCA = true))
    (hso : ¬ (writesSO a.op ∧ readsSO b.op b.inst)) :
    Disjoint (writes a.op a.inst) (reads b.op b.inst) := by
  rw [hA.regsOut, hB.regsIn] at hregs
  rw [hA.crOut, hB.crIn] at hcr
  rw [Set.disjoint_left]
  intro ℓ hw hr
  cases ℓ with
  | gpr r => exact not_both_mem hregs hw hr
  | cr field => exact not_both_mem hcr hw hr
  | ca => exact hca ⟨hw, hr⟩
  | soOv => exact hso ⟨hw, hr⟩
  | rest => exact hw

theorem disjoint_writes_writes (hA : Decoded a) (hB : Decoded b) (hregs : b.regsOut ∩ a.regsOut = ∅)
    (hcr : b.crOut ∩ a.crOut = ∅) (hca : ¬ (a.op.has .setCA = true ∧ b.op.has .setCA = true))
    (hso : ¬ (writesSO a.op ∧ writesSO b.op)) :
    Disjoint (writes a.op a.inst) (writes b.op b.inst) := by
  rw [hA.regsOut, hB.regsOut] at hregs
  rw [hA.crOut, hB.crOut] at hcr
  rw [Set.disjoint_left]
  intro ℓ hw hw'
  cases ℓ with
  | gpr r => exact not_both_mem hregs hw' hw
  | cr field => exact not_both_mem hcr hw' hw
  | ca => exact hca ⟨hw, hw'⟩
  | soOv => exact hso ⟨hw, hw'⟩
  | rest => exact hw

theorem swap_commutes {f g : UGeckoInstruction → PowerPCState ρ → PowerPCState ρ} (hswap : Swappable a b)
    (hA : Decoded a) (hB : Decoded b) (hcross : crossesSO a b = false) (hf : Runs ρ a f) (hg : Runs ρ b g)
    (s : PowerPCState ρ) : f a.inst (g b.inst s) = g b.inst (f a.inst s) := by
  have hfA : Footprint get (f a.inst) (reads a.op a.inst) (writes a.op a.inst) := by
    rw [hA.opinfo]
    exact modelled_footprint hf
  have hgB : Footprint get (g b.inst) (reads b.op b.inst) (writes b.op b.inst) := by
    rw [hB.opinfo]
    exact modelled_footprint hg
  have hmcB : b.op ≠ .mcrxr := by
    intro h
    have hint := hswap.integer
    rw [h] at hint
    exact absurd hint (by decide)
  have hsoB : ¬ writesSO b.op := not_writesSO hswap.oeB hmcB
  have hsoAB : ¬ (writesSO a.op ∧ readsSO b.op b.inst) := by
    rintro ⟨hw, hr⟩
    have hmc : a.op = .mcrxr := hw.resolve_left (by simp [hswap.oeA])
    have hcrB : b.crOut ≠ ∅ := by
      rcases hr with ⟨-, hcr⟩ | hoe | hmc'
      · rwa [hB.crOut]
      · simp [hswap.oeB] at hoe
      · exact absurd hmc' hmcB
    simp [crossesSO, hmc, hcrB] at hcross
  have hcarry := hswap.carry
  simp only [Bool.and_eq_false_iff, Bool.or_eq_false_iff] at hcarry
  refine hfA.comm get_ext hgB ?_ ?_ ?_ s
  · refine disjoint_writes_reads hA hB hswap.regsAB hswap.crAB ?_ hsoAB
    rintro ⟨h1, h2⟩
    rcases hcarry with h | h <;> simp_all
  · refine disjoint_writes_reads hB hA hswap.regsBA hswap.crBA ?_ fun h => hsoB h.1
    rintro ⟨h1, h2⟩
    rcases hcarry with h | h <;> simp_all
  · refine disjoint_writes_writes hA hB hswap.regsOut hswap.crOut ?_ fun h => hsoB h.2
    rintro ⟨h1, h2⟩
    rcases hcarry with h | h <;> simp_all

/-! ## Running swapped code -/

theorem runOps_modelled {op : CodeOp} {f : UGeckoInstruction → PowerPCState ρ → PowerPCState ρ}
    (m : Unmodelled ρ) (hf : Runs ρ op f) (ops : List CodeOp) (s : PowerPCState ρ) :
    runOps m (op :: ops) s = runOps m ops (f op.inst s) := by
  simp [runOps, SingleStepInner_modelled m op.address hf]

theorem runOps_append_congr (m : Unmodelled ρ) {ops ops' : List CodeOp}
    (h : ∀ s, runOps m ops s = runOps m ops' s) :
    ∀ (pre : List CodeOp) (s : PowerPCState ρ), runOps m (pre ++ ops) s = runOps m (pre ++ ops') s
  | [], s => h s
  | op :: pre, s => by
      simp only [List.cons_append, runOps]
      cases SingleStepInner m op.address op.inst s with
      | next s' => exact runOps_append_congr m h pre s'
      | leave s' => rfl

theorem runOps_bubbled (m : Unmodelled ρ) {code code' : List CodeOp} (hbub : Bubbled a b code code')
    (hswap : Swappable a b) (hmoves : p.moves a = true) (hA : Decoded a) (hB : Decoded b)
    (hfpu : a.op.has .useFPU = false) (hcross : crossesSO a b = false) (s : PowerPCState ρ) :
    runOps m code' s = runOps m code s := by
  obtain ⟨f, hf⟩ : ∃ f, Runs ρ a f :=
    runs_of_modelled (hA.opinfo ▸ modelled_of_moves hmoves hswap hA hfpu)
  obtain ⟨g, hg⟩ : ∃ g, Runs ρ b g := runs_of_modelled (hB.opinfo ▸ modelled_of_integer hswap.integer)
  have hcomm : ∀ post s, runOps m (b :: a :: post) s = runOps m (a :: b :: post) s := by
    intro post s
    rw [runOps_modelled m hg, runOps_modelled m hf, runOps_modelled m hf, runOps_modelled m hg,
      swap_commutes hswap hA hB hcross hf hg]
  cases hbub with
  | forward pre post => exact runOps_append_congr m (hcomm post) pre s
  | backward pre post => exact runOps_append_congr m (fun s => (hcomm post s).symm) pre s

end Karphin.PPCAnalyst
