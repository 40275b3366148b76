import Karphin.Common.Config.Defs

/-!
# The invariant of the cached values

Each step of the operations keeps that cached values of the current version are those of a lookup.
-/

namespace Karphin.Config

open Common Lib

/-! ## Lookups -/

namespace Layers

variable {layers layers' : Layers} {location : Location}

theorem search_cons (layer : LayerType) (order : List LayerType) :
    layers.search location (layer :: order) =
      match layers.held location layer with
      | some str => some str
      | none => layers.search location order := by
  rw [search, List.findSome?_cons]
  cases layers.held location layer <;> rfl

theorem getAsString_eq_some_iff {str : Str} :
    layers.getAsString location = some str ↔ ∃ before layer after, searchOrder = before ++ layer :: after ∧
      layers.held location layer = some str ∧ ∀ other ∈ before, layers.held location other = none := by
  rw [getAsString, search, List.findSome?_eq_some_iff]

theorem getAsString_eq_none_iff :
    layers.getAsString location = none ↔ ∀ layer ∈ searchOrder, layers.held location layer = none := List.findSome?_eq_none_iff

theorem held_update {type : LayerType} {l l' : Layer} (h : layers type = some l) (hmap : l'.map = l.map) :
    held (Function.update layers type (some l')) = layers.held := by
  funext location other
  by_cases heq : other = type
  · subst heq
    rw [held, held, Function.update_self, h, Option.bind_some, Option.bind_some, Layer.get, Layer.get, hmap]
  · rw [held, held, Function.update_of_ne heq]

theorem held_cleared_of_none {layer : LayerType} (h : layers.held location layer = none) :
    layers.cleared.held location layer = none := by
  by_cases heq : layer = .currentRun
  · subst heq
    rw [held, cleared, Function.update_self]
    rfl
  · rw [held, cleared, Function.update_of_ne heq]
    exact h

theorem search_congr (h : layers'.held = layers.held) : layers'.search = layers.search := by
  funext location order
  rw [search, search, h]

theorem getAsString_congr (h : layers'.held = layers.held) : layers'.getAsString = layers.getAsString := by
  funext location
  rw [getAsString, getAsString, search_congr h]

end Layers

/-! ## Layers -/

theorem Layer.deleteKey_map {l : Layer} {location : Location} (h : (l.deleteKey location).2 = false) :
    (l.deleteKey location).1.map = l.map := by
  rw [deleteKey] at h ⊢
  split at h
  · cases h
  · next hexists => rw [if_neg hexists]

theorem Layer.set_map {l : Layer} {location : Location} {newValue : Str} (h : (l.set location newValue).2 = false) :
    (l.set location newValue).1.map = l.map := by
  rw [set] at h ⊢
  split at h
  · next hfind => rw [if_pos hfind]
  · cases h

theorem Layer.save_map (l : Layer) : l.save.map = l.map := by
  rw [save]
  split <;> rfl

/-! ## The invariant -/

section

variable {ι : Type} {α : ι → Type} {tryParse : ∀ i, Str → Option (α i)}

def State.Right (tryParse : ∀ i, Str → Option (α i)) (s : State α) (i : ι) (cached : CachedValue (α i)) : Prop :=
  cached.configVersion = s.configVersion → cached.value = (s.infos i).getUncached (tryParse i) s.layers

/-- What a call of `Get` is about to return, or has looked for so far. -/
def Reader.Right (tryParse : ∀ i, Str → Option (α i)) (s : State α) (r : Reader α) : Prop :=
  match r.phase with
  | .cached _ => True
  | .searching configVersion order => configVersion = s.configVersion →
      s.layers.search (s.infos r.info).location order = s.layers.getAsString (s.infos r.info).location
  | .found cached => s.Right tryParse r.info cached

def Reader.configVersion (r : Reader α) : BitVec 64 :=
  match r.phase with
  | .cached cached => cached.configVersion
  | .searching configVersion _ => configVersion
  | .found cached => cached.configVersion

/-- Between the operations on the layers, the cached values of the current version are those of a lookup. -/
structure Inv (tryParse : ∀ i, Str → Option (α i)) (s : State α) : Prop where
  infos_le : ∀ i, (s.infos i).cachedValue.configVersion ≤ s.configVersion
  readers_le : ∀ r ∈ s.readers, r.configVersion ≤ s.configVersion
  infos : s.changing = [] → ∀ i, s.Right tryParse i (s.infos i).cachedValue
  readers : s.changing = [] → ∀ r ∈ s.readers, r.Right tryParse s
  unset : s.changing = [] → s.configVersion = 0 → ∀ location, s.layers.getAsString location = none

variable {s : State α}

theorem inv_initial (infos : ∀ i, Location × α i) : Inv tryParse (State.initial α infos) where
  infos_le _ := Nat.le_refl _
  readers_le _ hr := absurd hr List.not_mem_nil
  infos _ _ _ := rfl
  readers _ _ hr := absurd hr List.not_mem_nil
  unset _ _ _ := rfl

theorem Inv.changed (h : Inv tryParse s) (thread : Nat) (layers : Layers) : Inv tryParse (s.changed thread layers) where
  infos_le := h.infos_le
  readers_le := h.readers_le
  infos hnil := absurd hnil (List.cons_ne_nil _ _)
  readers hnil := absurd hnil (List.cons_ne_nil _ _)
  unset hnil := absurd hnil (List.cons_ne_nil _ _)

theorem Inv.layers (h : Inv tryParse s) {layers : Layers} (hheld : layers.held = s.layers.held) :
    Inv tryParse { s with layers := layers } := by
  have hsearch := Layers.search_congr hheld
  have hget := Layers.getAsString_congr hheld
  refine ⟨h.infos_le, h.readers_le, fun hnil i => ?_, fun hnil r hr => ?_, fun hnil hzero => ?_⟩
  · have hright := h.infos hnil i
    rw [State.Right, Info.getUncached] at hright ⊢
    rw [hget]
    exact hright
  · have hright := h.readers hnil r hr
    obtain ⟨i, phase⟩ := r
    cases phase with
    | cached cached => trivial
    | searching configVersion order =>
        change _ → _ = _
        rw [hget, hsearch]
        exact hright
    | found cached =>
        change _ → _ = _
        rw [Info.getUncached, hget]
        exact hright
  · change ∀ location, layers.getAsString location = none
    rw [hget]
    exact h.unset hnil hzero

theorem Inv.replaced (h : Inv tryParse s) (thread : Nat) {type : LayerType} {l : Layer} (hl : s.layers type = some l)
    {result : Layer × Bool} (hmap : result.2 = false → result.1.map = l.map) :
    Inv tryParse (s.replaced thread type result) := by
  rw [State.replaced]
  cases hchanged : result.2 with
  | true => exact h.changed thread _
  | false => exact h.layers (Layers.held_update hl (hmap hchanged))

theorem Inv.onConfigChanged (h : Inv tryParse s) (thread : Nat) (hversion : s.configVersion.toNat + 1 < 2 ^ 64) :
    Inv tryParse (s.onConfigChanged thread) := by
  have hnext : (s.configVersion + 1).toNat = s.configVersion.toNat + 1 := by
    rw [BitVec.toNat_add]
    exact Nat.mod_eq_of_lt hversion
  have hlt {version : BitVec 64} (hle : version ≤ s.configVersion) : version.toNat < (s.configVersion + 1).toNat := by
    rw [hnext]
    exact Nat.lt_succ_of_le hle
  have hne {version : BitVec 64} (hle : version ≤ s.configVersion) : version ≠ s.configVersion + 1 := by
    rintro rfl
    exact Nat.lt_irrefl _ (hlt hle)
  refine ⟨fun i => Nat.le_of_lt (hlt (h.infos_le i)), fun r hr => Nat.le_of_lt (hlt (h.readers_le r hr)), fun _ i heq => ?_,
    fun _ r hr => ?_, fun _ hzero => ?_⟩
  · exact absurd heq (hne (h.infos_le i))
  · have hle := h.readers_le r hr
    obtain ⟨i, phase⟩ := r
    cases phase with
    | cached cached => trivial
    | searching configVersion order => exact fun heq => absurd heq (hne hle)
    | found cached => exact fun heq => absurd heq (hne hle)
  · have htoNat : (s.configVersion + 1).toNat = 0 := congrArg BitVec.toNat hzero
    omega

theorem Inv.get_eq (h : Inv tryParse s) (hnil : s.changing = []) (i : ι) :
    ((s.infos i).get (tryParse i) s.layers s.configVersion).1 = (s.infos i).getUncached (tryParse i) s.layers := by
  rw [Info.get]
  split
  · rfl
  · next hnot =>
      have hle := h.infos_le i
      apply h.infos hnil i
      apply BitVec.eq_of_toNat_eq
      exact Nat.le_antisymm hle (Nat.le_of_not_lt hnot)

/-- The layers that a drop leaves give the values that are cached already. -/
structure SameValues (tryParse : ∀ i, Str → Option (α i)) (s : State α) (layers : Layers) : Prop where
  infos : ∀ i, (s.infos i).cachedValue.configVersion = s.configVersion →
    (s.infos i).getUncached (tryParse i) layers = (s.infos i).getUncached (tryParse i) s.layers
  readers : ∀ i cached, (⟨i, .found cached⟩ : Reader α) ∈ s.readers → cached.configVersion = s.configVersion →
    (s.infos i).getUncached (tryParse i) layers = (s.infos i).getUncached (tryParse i) s.layers

theorem Inv.dropped (h : Inv tryParse s) (hunlocked : s.unlocked = true) {layers : Layers}
    (hnone : ∀ location, s.layers.getAsString location = none → layers.getAsString location = none)
    (hsame : s.changing = [] → SameValues tryParse s layers) : Inv tryParse { s with layers := layers } := by
  refine ⟨h.infos_le, h.readers_le, fun hnil i heq => ?_, fun hnil r hr => ?_, fun hnil hzero location => ?_⟩
  · exact (h.infos hnil i heq).trans ((hsame hnil).infos i heq).symm
  · have hright := h.readers hnil r hr
    obtain ⟨i, phase⟩ := r
    cases phase with
    | cached cached => trivial
    | searching configVersion order =>
        have hnot := List.all_eq_true.mp hunlocked _ hr
        cases hnot
    | found cached => exact fun heq => (hright heq).trans ((hsame hnil).readers i cached hr heq).symm
  · exact hnone location (h.unset hnil hzero location)

/-! ## Settings -/

theorem Info.setCachedValue_cases (info : Info (α i)) (cached : CachedValue (α i)) :
    info.setCachedValue cached = info ∨ info.setCachedValue cached = { info with cachedValue := cached } := by
  rw [setCachedValue]
  split
  · exact Or.inr rfl
  · exact Or.inl rfl

theorem Reader.Right.congr {s' : State α} {r : Reader α} (h : r.Right tryParse s)
    (hversion : s'.configVersion = s.configVersion) (hlayers : s'.layers = s.layers)
    (hlocation : (s'.infos r.info).location = (s.infos r.info).location)
    (hdefault : (s'.infos r.info).defaultValue = (s.infos r.info).defaultValue) : r.Right tryParse s' := by
  obtain ⟨i, phase⟩ := r
  cases phase with
  | cached cached => trivial
  | searching configVersion order =>
      change _ → _ = _
      rw [hversion, hlayers, hlocation]
      exact h
  | found cached =>
      change _ → _ = Info.getUncached _ _ _
      rw [hversion, hlayers, Info.getUncached, Info.parsed, hlocation, hdefault]
      exact h

/-! ## Readers -/

theorem Inv.readers_of (h : Inv tryParse s) {readers : List (Reader α)}
    (hreaders : ∀ r ∈ readers, r ∈ s.readers ∨ r.configVersion ≤ s.configVersion ∧ (s.changing = [] → r.Right tryParse s)) :
    Inv tryParse { s with readers := readers } := by
  refine ⟨h.infos_le, fun r hr => ?_, h.infos, fun hnil r hr => ?_, h.unset⟩
  · rcases hreaders r hr with hmem | hnew
    · exact h.readers_le r hmem
    · exact hnew.1
  · have hright : r.Right tryParse s := by
      rcases hreaders r hr with hmem | hnew
      · exact h.readers hnil r hmem
      · exact hnew.2 hnil
    exact hright.congr rfl rfl rfl rfl

theorem Inv.getCachedValue (h : Inv tryParse s) (i : ι) :
    Inv tryParse { s with readers := s.readers ++ [⟨i, .cached (s.infos i).cachedValue⟩] } := by
  apply h.readers_of
  intro r hr
  rcases List.mem_append.mp hr with hmem | hnew
  · exact Or.inl hmem
  · obtain rfl := List.mem_singleton.mp hnew
    exact Or.inr ⟨h.infos_le i, fun _ => trivial⟩

theorem Inv.getConfigVersion (h : Inv tryParse s) {reader : Nat} {s' : State α} (hs : s.getConfigVersion reader = some s') :
    Inv tryParse s' := by
  rw [State.getConfigVersion] at hs
  split at hs
  · split at hs
    · cases hs
      apply h.readers_of
      intro r hr
      rcases List.mem_or_eq_of_mem_set hr with hmem | rfl
      · exact Or.inl hmem
      · exact Or.inr ⟨Nat.le_refl _, fun _ _ => rfl⟩
    · cases hs
      exact h.readers_of fun r hr => Or.inl (List.mem_of_mem_eraseIdx hr)
  · cases hs

theorem Inv.searched (h : Inv tryParse s) {i : ι} {configVersion : BitVec 64} {order : List LayerType}
    (hr : ⟨i, .searching configVersion order⟩ ∈ s.readers) :
    (⟨i, s.searched tryParse i configVersion order⟩ : Reader α).configVersion ≤ s.configVersion ∧
      (s.changing = [] → (⟨i, s.searched tryParse i configVersion order⟩ : Reader α).Right tryParse s) := by
  have hle := h.readers_le _ hr
  have hright := fun hnil => h.readers hnil _ hr
  cases order with
  | nil =>
      refine ⟨hle, fun hnil heq => ?_⟩
      rw [Info.getUncached, ← hright hnil heq]
      rfl
  | cons layer order =>
      rw [State.searched]
      cases hheld : s.layers.held (s.infos i).location layer with
      | some str =>
          refine ⟨hle, fun hnil heq => ?_⟩
          rw [Info.getUncached, ← hright hnil heq, Layers.search_cons, hheld]
      | none =>
          refine ⟨hle, fun hnil heq => ?_⟩
          rw [← hright hnil heq, Layers.search_cons, hheld]

theorem Inv.searchLayer (h : Inv tryParse s) {reader : Nat} {s' : State α}
    (hs : s.searchLayer tryParse reader = some s') : Inv tryParse s' := by
  rw [State.searchLayer] at hs
  split at hs
  · next hreader =>
      cases hs
      apply h.readers_of
      intro r hr
      rcases List.mem_or_eq_of_mem_set hr with hmem | rfl
      · exact Or.inl hmem
      · exact Or.inr (h.searched (List.mem_of_getElem? hreader))
  · cases hs

/-! ## Steps -/

variable [DecidableEq ι]

theorem Inv.setInfo (h : Inv tryParse s) {i : ι} {info : Info (α i)} (hle : info.cachedValue.configVersion ≤ s.configVersion)
    (hright : s.changing = [] → info.cachedValue.configVersion = s.configVersion →
      info.cachedValue.value = info.getUncached (tryParse i) s.layers)
    (hreads : s.reads i = true → info.location = (s.infos i).location ∧ info.defaultValue = (s.infos i).defaultValue) :
    Inv tryParse (s.setInfo i info) := by
  have hself : (s.setInfo i info).infos i = info := Function.update_self _ _ _
  have hother {j : ι} (hj : j ≠ i) : (s.setInfo i info).infos j = s.infos j := Function.update_of_ne hj _ _
  refine ⟨fun j => ?_, h.readers_le, fun hnil j => ?_, fun hnil r hr => ?_, h.unset⟩
  · by_cases hj : j = i
    · subst hj
      rw [hself]
      exact hle
    · rw [hother hj]
      exact h.infos_le j
  · rw [State.Right]
    by_cases hj : j = i
    · subst hj
      rw [hself]
      exact hright hnil
    · rw [hother hj]
      exact h.infos hnil j
  · have hsame : ((s.setInfo i info).infos r.info).location = (s.infos r.info).location ∧
        ((s.setInfo i info).infos r.info).defaultValue = (s.infos r.info).defaultValue := by
      by_cases hj : r.info = i
      · have hread : s.reads i = true := List.any_eq_true.mpr ⟨r, hr, decide_eq_true hj⟩
        subst hj
        rw [hself]
        exact hreads hread
      · rw [hother hj]
        exact ⟨rfl, rfl⟩
    exact (h.readers hnil r hr).congr rfl rfl hsame.1 hsame.2

theorem Inv.setCachedValue (h : Inv tryParse s) {i : ι} {cached : CachedValue (α i)}
    (hle : cached.configVersion ≤ s.configVersion) (hright : s.changing = [] → s.Right tryParse i cached) :
    Inv tryParse (s.setInfo i ((s.infos i).setCachedValue cached)) := by
  rcases Info.setCachedValue_cases (s.infos i) cached with hsame | hset
  · rw [hsame]
    exact h.setInfo (h.infos_le i) (fun hnil => h.infos hnil i) fun _ => ⟨rfl, rfl⟩
  · rw [hset]
    exact h.setInfo hle hright fun _ => ⟨rfl, rfl⟩

theorem Inv.get (h : Inv tryParse s) (i : ι) :
    Inv tryParse (s.setInfo i ((s.infos i).get (tryParse i) s.layers s.configVersion).2) := by
  rw [Info.get]
  split
  · exact h.setCachedValue (Nat.le_refl _) fun _ _ => rfl
  · exact h.setInfo (h.infos_le i) (fun hnil => h.infos hnil i) fun _ => ⟨rfl, rfl⟩

theorem Inv.construct (h : Inv tryParse s) {i : ι} (hreads : s.reads i = false) (location : Location) (defaultValue : α i) :
    Inv tryParse (s.setInfo i (.new location defaultValue)) := by
  apply h.setInfo
  · exact Nat.zero_le _
  · intro hnil hversion
    have hnone := h.unset hnil hversion.symm location
    rw [Info.getUncached, Info.new, hnone]
    rfl
  · rw [hreads]
    exact fun hfalse => absurd hfalse Bool.false_ne_true

theorem Inv.copy (h : Inv tryParse s) {i j : ι} (hreads : s.reads i = false) (conversion : Conversion (tryParse j) (tryParse i)) :
    Inv tryParse (s.setInfo i ((s.infos j).copy conversion.cast)) := by
  apply h.setInfo
  · exact h.infos_le j
  · intro hnil hversion
    change conversion.cast _ = _
    rw [h.infos hnil j hversion, Info.getUncached, Info.getUncached, Info.parsed, Info.parsed]
    change _ = ((s.layers.getAsString (s.infos j).location).bind (tryParse i)).getD (conversion.cast (s.infos j).defaultValue)
    cases s.layers.getAsString (s.infos j).location with
    | none => rfl
    | some str =>
        rw [Option.bind_some, Option.bind_some, conversion.parse]
        cases tryParse j str <;> rfl
  · rw [hreads]
    exact fun hfalse => absurd hfalse Bool.false_ne_true

theorem Inv.endOfGet (h : Inv tryParse s) {reader : Nat} {s' : State α} (hs : s.setCachedValue reader = some s') :
    Inv tryParse s' := by
  rw [State.setCachedValue] at hs
  split at hs
  · next hreader =>
      cases hs
      have hmem := List.mem_of_getElem? hreader
      have hset := h.setCachedValue (h.readers_le _ hmem) fun hnil => h.readers hnil _ hmem
      exact hset.readers_of fun r hr => Or.inl (List.mem_of_mem_eraseIdx hr)
  · cases hs

/-! ## Runs -/

/-- Layers are dropped only where they do not decide a value of the current version, and the version does not wrap around. -/
def Keeps (tryParse : ∀ i, Str → Option (α i)) (s : State α) : Action tryParse → Prop
  | .clearCurrentRunLayer => s.changing = [] → SameValues tryParse s s.layers.cleared
  | .shutdown => s.changing = [] → SameValues tryParse s fun _ => none
  | .onConfigChanged _ => s.configVersion.toNat + 1 < 2 ^ 64
  | _ => True

theorem Inv.step (h : Inv tryParse s) {a : Action tryParse} (hkeeps : Keeps tryParse s a) {s' : State α}
    (hs : step tryParse s a = some s') : Inv tryParse s' := by
  cases a with
  | addLayer thread type layer =>
      obtain ⟨-, hs⟩ := Option.ite_none_right_eq_some.mp hs
      cases hs
      exact h.changed thread _
  | removeLayer thread type =>
      obtain ⟨-, hs⟩ := Option.ite_none_right_eq_some.mp hs
      cases hs
      exact h.changed thread _
  | clearCurrentRunLayer =>
      obtain ⟨hunlocked, hs⟩ := Option.ite_none_right_eq_some.mp hs
      cases hs
      refine h.dropped hunlocked (fun location hnone => ?_) hkeeps
      rw [Layers.getAsString_eq_none_iff] at hnone ⊢
      exact fun layer hlayer => Layers.held_cleared_of_none (hnone layer hlayer)
  | shutdown =>
      obtain ⟨hunlocked, hs⟩ := Option.ite_none_right_eq_some.mp hs
      cases hs
      exact h.dropped hunlocked (fun location hnone => rfl) hkeeps
  | set thread type location newValue =>
      obtain ⟨l, hl, hs⟩ := Option.map_eq_some_iff.mp hs
      cases hs
      exact h.replaced thread hl Layer.set_map
  | deleteKey thread type location =>
      obtain ⟨l, hl, hs⟩ := Option.map_eq_some_iff.mp hs
      cases hs
      exact h.replaced thread hl Layer.deleteKey_map
  | load thread type file =>
      obtain ⟨l, hl, hs⟩ := Option.map_eq_some_iff.mp hs
      cases hs
      exact h.changed thread _
  | save type =>
      obtain ⟨l, hl, hs⟩ := Option.map_eq_some_iff.mp hs
      cases hs
      exact h.layers (Layers.held_update hl l.save_map)
  | onConfigChanged thread =>
      cases hs
      exact h.onConfigChanged thread hkeeps
  | openGuard =>
      cases hs
      exact ⟨h.infos_le, h.readers_le, h.infos, h.readers, h.unset⟩
  | closeGuard =>
      obtain ⟨-, hs⟩ := Option.ite_none_right_eq_some.mp hs
      cases hs
      exact ⟨h.infos_le, h.readers_le, h.infos, h.readers, h.unset⟩
  | construct i location defaultValue =>
      obtain ⟨hreads, hs⟩ := Option.ite_none_left_eq_some.mp hs
      cases hs
      exact h.construct (Bool.not_eq_true _ ▸ hreads) location defaultValue
  | copy i j conversion =>
      obtain ⟨hreads, hs⟩ := Option.ite_none_left_eq_some.mp hs
      cases hs
      exact h.copy (Bool.not_eq_true _ ▸ hreads) conversion
  | get i =>
      cases hs
      exact h.get i
  | getCachedValue i =>
      cases hs
      exact h.getCachedValue i
  | getConfigVersion reader => exact h.getConfigVersion hs
  | searchLayer reader => exact h.searchLayer hs
  | setCachedValue reader => exact h.endOfGet hs

end

end Karphin.Config
