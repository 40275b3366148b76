import Karphin.Common.Config.Lemmas

/-!
# Cached settings

A cached value is that of an uncached lookup, whatever the threads do, as long as a layer that is dropped without a new
version did not decide a value.
-/

namespace Karphin.Config

open Common Lib

section

variable {ι : Type} {α : ι → Type} {tryParse : ∀ i, Str → Option (α i)} {s : State α}

/-! ## Operations -/

def Operation.Keeps (s : State α) : Operation tryParse → Prop
  | .clearCurrentRunLayer => ∀ i, (s.infos i).cachedValue.configVersion = s.configVersion →
      (s.infos i).getUncached (tryParse i) s.layers.cleared = (s.infos i).getUncached (tryParse i) s.layers
  | .shutdown => ∀ i, (s.infos i).cachedValue.configVersion = s.configVersion →
      (s.infos i).getUncached (tryParse i) (fun _ => none) = (s.infos i).getUncached (tryParse i) s.layers
  | _ => s.configVersion.toNat + 1 < 2 ^ 64

def Action.own : Action tryParse → Bool
  | .addLayer thread _ _ | .removeLayer thread _ | .set thread _ _ _ | .deleteKey thread _ _ | .load thread _ _ => thread = 0
  | .save _ | .openGuard | .closeGuard | .construct _ _ _ | .copy _ _ _ | .get _ => true
  | _ => false

structure Own (s s' : State α) : Prop where
  configVersion : s'.configVersion = s.configVersion
  readers : s'.readers = s.readers
  changing : ∀ thread ∈ s'.changing, thread ∈ s.changing ∨ thread = 0

theorem own_changed (s : State α) (layers : Layers) : Own s (s.changed 0 layers) := by
  refine ⟨rfl, rfl, fun thread hthread => ?_⟩
  rcases List.mem_cons.mp hthread with rfl | hmem
  · exact Or.inr rfl
  · exact Or.inl hmem

theorem Action.own.keeps {a : Action tryParse} (hown : a.own = true) : Keeps tryParse s a := by
  cases a <;> trivial

theorem changes_own {op : Operation tryParse} (hclear : op ≠ .clearCurrentRunLayer) (hshutdown : op ≠ .shutdown) :
    ∀ a ∈ op.changes s, a.own = true := by
  intro a ha
  cases op with
  | clearCurrentRunLayer => exact absurd rfl hclear
  | shutdown => exact absurd rfl hshutdown
  | load files =>
      obtain ⟨type, -, rfl⟩ := List.mem_map.mp ha
      rfl
  | save =>
      obtain ⟨type, -, rfl⟩ := List.mem_map.mp ha
      rfl
  | _ =>
      obtain rfl := List.mem_singleton.mp ha
      rfl

theorem Operation.Keeps.version {op : Operation tryParse} (h : op.Keeps s) (hclear : op ≠ .clearCurrentRunLayer)
    (hshutdown : op ≠ .shutdown) : s.configVersion.toNat + 1 < 2 ^ 64 := by
  cases op with
  | clearCurrentRunLayer => exact absurd rfl hclear
  | shutdown => exact absurd rfl hshutdown
  | _ => exact h

/-! ## The values of settings -/

/-- What a setting is: the value of the first layer in the order that has one, or the default. -/
def Effective {β : Type} (tryParse : Str → Option β) (layers : Layers) (info : Info β) (value : β) : Prop :=
  (∃ before layer after str, searchOrder = before ++ layer :: after ∧ layers.held info.location layer = some str ∧
    (∀ other ∈ before, layers.held info.location other = none) ∧ value = (tryParse str).getD info.defaultValue) ∨
  ((∀ layer ∈ searchOrder, layers.held info.location layer = none) ∧ value = info.defaultValue)

theorem effective_getUncached {β : Type} (tryParse : Str → Option β) (layers : Layers) (info : Info β) :
    Effective tryParse layers info (info.getUncached tryParse layers) := by
  rw [Effective, Info.getUncached, Info.parsed]
  cases hget : layers.getAsString info.location with
  | none => exact Or.inr ⟨Layers.getAsString_eq_none_iff.mp hget, rfl⟩
  | some str =>
      obtain ⟨before, layer, after, horder, hheld, hnone⟩ := Layers.getAsString_eq_some_iff.mp hget
      exact Or.inl ⟨before, layer, after, str, horder, hheld, hnone, rfl⟩

theorem Inv.get_dropped_iff (h : Inv tryParse s) (hnil : s.changing = []) (layers : Layers) :
    (∀ i, ((s.infos i).get (tryParse i) layers s.configVersion).1 = (s.infos i).getUncached (tryParse i) layers) ↔
      ∀ i, (s.infos i).cachedValue.configVersion = s.configVersion →
        (s.infos i).getUncached (tryParse i) layers = (s.infos i).getUncached (tryParse i) s.layers := by
  refine forall_congr' fun i => ?_
  have hle := h.infos_le i
  rw [Info.get]
  split
  · next hlt =>
      refine iff_of_true rfl fun heq => absurd hlt ?_
      rw [heq]
      exact Nat.lt_irrefl _
  · next hnot =>
      have heq : (s.infos i).cachedValue.configVersion = s.configVersion :=
        BitVec.eq_of_toNat_eq (Nat.le_antisymm hle (Nat.le_of_not_lt hnot))
      rw [h.infos hnil i heq]
      exact ⟨fun hsame _ => hsame.symm, fun hsame => (hsame heq).symm⟩

theorem own_replaced (s : State α) (type : LayerType) (result : Layer × Bool) : Own s (s.replaced 0 type result) := by
  rw [State.replaced]
  cases result.2 with
  | true => exact own_changed s _
  | false => exact ⟨rfl, rfl, fun _ => Or.inl⟩

theorem replaced_changing {result : Layer × Bool} (hresult : result.2 = false) (thread : Nat) (type : LayerType) :
    (s.replaced thread type result).changing = s.changing := by
  rw [State.replaced, hresult]
  rfl

variable [DecidableEq ι]

theorem own_step {a : Action tryParse} (hown : a.own = true) {s' : State α} (hs : step tryParse s a = some s') : Own s s' := by
  have hsame : ∀ {infos : ∀ i, Info (α i)} {layers guards},
      Own s { s with layers := layers, callbackGuards := guards, infos := infos } := ⟨rfl, rfl, fun _ => Or.inl⟩
  cases a with
  | addLayer thread type layer =>
      obtain rfl := of_decide_eq_true hown
      obtain ⟨-, hs⟩ := Option.ite_none_right_eq_some.mp hs
      cases hs
      exact own_changed s _
  | removeLayer thread type =>
      obtain rfl := of_decide_eq_true hown
      obtain ⟨-, hs⟩ := Option.ite_none_right_eq_some.mp hs
      cases hs
      exact own_changed s _
  | set thread type location newValue =>
      obtain rfl := of_decide_eq_true hown
      obtain ⟨l, -, hs⟩ := Option.map_eq_some_iff.mp hs
      cases hs
      exact own_replaced s type _
  | deleteKey thread type location =>
      obtain rfl := of_decide_eq_true hown
      obtain ⟨l, -, hs⟩ := Option.map_eq_some_iff.mp hs
      cases hs
      exact own_replaced s type _
  | load thread type file =>
      obtain rfl := of_decide_eq_true hown
      obtain ⟨l, -, hs⟩ := Option.map_eq_some_iff.mp hs
      cases hs
      exact own_changed s _
  | save type =>
      obtain ⟨l, -, hs⟩ := Option.map_eq_some_iff.mp hs
      cases hs
      exact hsame
  | openGuard =>
      cases hs
      exact hsame
  | closeGuard =>
      obtain ⟨-, hs⟩ := Option.ite_none_right_eq_some.mp hs
      cases hs
      exact hsame
  | construct i location defaultValue =>
      obtain ⟨-, hs⟩ := Option.ite_none_left_eq_some.mp hs
      cases hs
      exact hsame
  | copy i j conversion =>
      obtain ⟨-, hs⟩ := Option.ite_none_left_eq_some.mp hs
      cases hs
      exact hsame
  | get i =>
      cases hs
      exact hsame
  | _ => cases hown

theorem own_run {as : List (Action tryParse)} (hown : ∀ a ∈ as, a.own = true) {s s' : State α}
    (hs : run (step tryParse) s as = some s') : Reach (step tryParse) (Keeps tryParse) s s' ∧ Own s s' := by
  induction as generalizing s with
  | nil =>
      cases hs
      exact ⟨.refl, rfl, rfl, fun _ => Or.inl⟩
  | cons a as ih =>
      obtain ⟨t, ht, hrun⟩ := Option.bind_eq_some_iff.mp hs
      have ha := hown a List.mem_cons_self
      obtain ⟨hreach, hrest⟩ := ih (fun b hb => hown b (List.mem_cons_of_mem a hb)) hrun
      have hfirst := own_step ha ht
      refine ⟨(Reach.refl.tail (Action.own.keeps ha) ht).trans hreach, ?_, ?_, fun thread hthread => ?_⟩
      · exact hrest.configVersion.trans hfirst.configVersion
      · exact hrest.readers.trans hfirst.readers
      · rcases hrest.changing thread hthread with hmem | hzero
        · exact hfirst.changing thread hmem
        · exact Or.inr hzero

theorem run_singleton {a : Action tryParse} {s' : State α} : run (step tryParse) s [a] = some s' ↔ step tryParse s a = some s' := by
  rw [run]
  cases step tryParse s a <;> rfl

theorem changing_of_not_announces {op : Operation tryParse} (hop : op.announces s = false) {s' : State α}
    (hs : run (step tryParse) s (op.changes s) = some s') : s'.changing = s.changing := by
  cases op with
  | addLayer type layer => cases hop
  | removeLayer type => cases hop
  | load files => cases hop
  | save => cases hop
  | set type i newValue =>
      obtain ⟨l, hl, hs⟩ := Option.map_eq_some_iff.mp (run_singleton.mp hs)
      cases hs
      rw [Operation.announces, hl] at hop
      exact replaced_changing hop 0 type
  | deleteKey type i =>
      obtain ⟨l, hl, hs⟩ := Option.map_eq_some_iff.mp (run_singleton.mp hs)
      cases hs
      rw [Operation.announces, hl] at hop
      exact replaced_changing hop 0 type
  | clearCurrentRunLayer =>
      obtain ⟨-, hs⟩ := Option.ite_none_right_eq_some.mp (run_singleton.mp hs)
      cases hs
      rfl
  | shutdown =>
      obtain ⟨-, hs⟩ := Option.ite_none_right_eq_some.mp (run_singleton.mp hs)
      cases hs
      rfl
  | openGuard =>
      cases hs
      rfl
  | closeGuard =>
      obtain ⟨-, hs⟩ := Option.ite_none_right_eq_some.mp (run_singleton.mp hs)
      cases hs
      rfl
  | construct i location defaultValue =>
      obtain ⟨-, hs⟩ := Option.ite_none_left_eq_some.mp (run_singleton.mp hs)
      cases hs
      rfl
  | copy i j conversion =>
      obtain ⟨-, hs⟩ := Option.ite_none_left_eq_some.mp (run_singleton.mp hs)
      cases hs
      rfl
  | get i =>
      cases hs
      rfl

theorem perform_reach {op : Operation tryParse} (hnil : s.changing = []) (hreaders : s.readers = []) (hkeeps : op.Keeps s)
    {s' : State α} (hs : perform s op = some s') :
    Reach (step tryParse) (Config.Keeps tryParse) s s' ∧ s'.changing = [] ∧ s'.readers = [] := by
  have hdrop {layers : Layers} (hsame : ∀ i, (s.infos i).cachedValue.configVersion = s.configVersion →
      (s.infos i).getUncached (tryParse i) layers = (s.infos i).getUncached (tryParse i) s.layers) :
      SameValues tryParse s layers := by
    refine ⟨hsame, fun i cached hmem => ?_⟩
    rw [hreaders] at hmem
    cases hmem
  rw [perform, run_append] at hs
  obtain ⟨t, ht, hs⟩ := Option.bind_eq_some_iff.mp hs
  by_cases hclear : op = .clearCurrentRunLayer
  · subst hclear
    cases hs
    have hstep := run_singleton.mp ht
    have hok : Config.Keeps tryParse s .clearCurrentRunLayer := fun _ => hdrop hkeeps
    refine ⟨Reach.refl.tail hok hstep, (changing_of_not_announces rfl ht).trans hnil, ?_⟩
    obtain ⟨-, hstep⟩ := Option.ite_none_right_eq_some.mp hstep
    cases hstep
    exact hreaders
  by_cases hshutdown : op = .shutdown
  · subst hshutdown
    cases hs
    have hstep := run_singleton.mp ht
    have hok : Config.Keeps tryParse s .shutdown := fun _ => hdrop hkeeps
    refine ⟨Reach.refl.tail hok hstep, (changing_of_not_announces rfl ht).trans hnil, ?_⟩
    obtain ⟨-, hstep⟩ := Option.ite_none_right_eq_some.mp hstep
    cases hstep
    exact hreaders
  obtain ⟨hreach, hown⟩ := own_run (changes_own hclear hshutdown) ht
  cases hop : op.announces s with
  | false =>
      rw [hop] at hs
      cases hs
      exact ⟨hreach, (changing_of_not_announces hop ht).trans hnil, hown.readers.trans hreaders⟩
  | true =>
      rw [hop] at hs
      cases hs
      have hversion := hkeeps.version hclear hshutdown
      rw [← hown.configVersion] at hversion
      have hok : Config.Keeps tryParse t (.onConfigChanged 0) := hversion
      refine ⟨hreach.tail hok rfl, ?_, hown.readers.trans hreaders⟩
      rw [State.onConfigChanged, List.filter_eq_nil_iff]
      intro thread hthread
      rcases hown.changing thread hthread with hmem | rfl
      · rw [hnil] at hmem
        cases hmem
      · exact Bool.false_ne_true


theorem inv_of_reach {infos : ∀ i, Location × α i}
    (h : Reach (step tryParse) (Keeps tryParse) (State.initial α infos) s) : Inv tryParse s :=
  h.invariant (Inv tryParse) (inv_initial infos) fun hinv hok hs => hinv.step hok hs

theorem reach_of_operations {infos : ∀ i, Location × α i}
    (h : Reach perform (fun s (op : Operation tryParse) => op.Keeps s) (State.initial α infos) s) :
    Reach (step tryParse) (Keeps tryParse) (State.initial α infos) s ∧ s.changing = [] ∧ s.readers = [] := by
  induction h with
  | refl => exact ⟨.refl, rfl, rfl⟩
  | tail hreach hok hs ih =>
      obtain ⟨hrun, hnil, hreaders⟩ := ih
      obtain ⟨hstep, hnil', hreaders'⟩ := perform_reach hnil hreaders hok hs
      exact ⟨hrun.trans hstep, hnil', hreaders'⟩

/-- A cached lookup gives what an uncached one does: whenever no thread is between a change and its announcement, and so after
every operation of a sequence. There a drop of layers keeps it so if and only if it meets its condition. -/
theorem get_eq_getUncached (infos : ∀ i, Location × α i) :
    (∀ s, Reach (step tryParse) (Keeps tryParse) (State.initial α infos) s → s.changing = [] → ∀ i,
      ((s.infos i).get (tryParse i) s.layers s.configVersion).1 = (s.infos i).getUncached (tryParse i) s.layers ∧
        Effective (tryParse i) s.layers (s.infos i) ((s.infos i).getUncached (tryParse i) s.layers)) ∧
    ∀ s, Reach perform (fun s (op : Operation tryParse) => op.Keeps s) (State.initial α infos) s →
      (∀ i, ((s.infos i).get (tryParse i) s.layers s.configVersion).1 =
        (s.infos i).getUncached (tryParse i) s.layers) ∧
      ((Operation.clearCurrentRunLayer : Operation tryParse).Keeps s ↔
        ∀ i, ((s.infos i).get (tryParse i) s.layers.cleared s.configVersion).1 =
          (s.infos i).getUncached (tryParse i) s.layers.cleared) ∧
      ((Operation.shutdown : Operation tryParse).Keeps s ↔
        ∀ i, ((s.infos i).get (tryParse i) (fun _ => none) s.configVersion).1 =
          (s.infos i).getUncached (tryParse i) fun _ => none) := by
  constructor
  · intro s hs hnil i
    exact ⟨(inv_of_reach hs).get_eq hnil i, effective_getUncached _ _ _⟩
  · intro s hs
    obtain ⟨hrun, hnil, -⟩ := reach_of_operations hs
    have hinv := inv_of_reach hrun
    exact ⟨hinv.get_eq hnil, (hinv.get_dropped_iff hnil _).symm, (hinv.get_dropped_iff hnil _).symm⟩

end

/-! ## One setting -/

def keepString (_ : Unit) (str : Str) : Option Str := some str

def oneSetting (_ : Unit) : Location × Str := (⟨.main, "Core".toList, "Speed".toList⟩, "1".toList)

/-- A value of the base layer is read. -/
theorem get_base :
    ∃ s, Reach perform (fun s (op : Operation keepString) => op.Keeps s) (State.initial _ oneSetting) s ∧
      ((s.infos ()).get (keepString ()) s.layers s.configVersion).1 = "2".toList := by
  have hstart : Reach perform (fun s (op : Operation keepString) => op.Keeps s) (State.initial _ oneSetting) _ := .refl
  have hadd := hstart.tail (a := .addLayer .base .empty) (by change (0 : BitVec 64).toNat + 1 < 2 ^ 64; decide) rfl
  have hset := hadd.tail (a := .set .base () "2".toList) (by change (1 : BitVec 64).toNat + 1 < 2 ^ 64; decide) rfl
  have hreach := hset.tail (a := .get ()) (by change (2 : BitVec 64).toNat + 1 < 2 ^ 64; decide) rfl
  refine ⟨_, hreach, ?_⟩
  rw [((get_eq_getUncached oneSetting).2 _ hreach).1 ()]
  decide

/-- The value of the layer that was cleared stays in the cache. -/
theorem get_cleared :
    ∃ s, run perform (State.initial _ oneSetting) ([.clearCurrentRunLayer, .set .currentRun () "2".toList, .get (),
        .clearCurrentRunLayer] : List (Operation keepString)) = some s ∧
      ((s.infos ()).get (keepString ()) s.layers s.configVersion).1 = "2".toList ∧
      (s.infos ()).getUncached (keepString ()) s.layers = "1".toList := by
  refine ⟨_, rfl, ?_, ?_⟩ <;> decide

end Karphin.Config
