import Karphin.Common.StringUtil
import Karphin.Lib.Transition

/-!
# Settings

The layers that hold the values of settings, the version that counts their changes, and the values that each `Config::Info`
keeps of the last lookup. What a callback does on a change is left out: it is further operations.
-/

namespace Karphin.Config

open Common

inductive LayerType
  | base | commandLine | globalGame | localGame | movie | netplay | currentRun
  deriving DecidableEq

def searchOrder : List LayerType := [.currentRun, .netplay, .movie, .localGame, .globalGame, .commandLine, .base]

inductive System
  | main | sysconf | gcPad | wiiPad | gcKeyboard | gfx | logger | dualShockUDPClient | freeLook | session | gameSettingsOnly
  | achievements
  deriving DecidableEq

structure Location where
  system : System
  sectionName : Str
  key : Str
  deriving DecidableEq

/-- `operator==`, which is also what `std::map` takes for equal keys. -/
def Location.equals (a b : Location) : Bool :=
  a.system == b.system && caseInsensitiveEquals a.sectionName b.sectionName && caseInsensitiveEquals a.key b.key

abbrev LayerMap := List (Location × Option Str)

namespace LayerMap

def find (map : LayerMap) (location : Location) : Option (Option Str) :=
  (map.find? fun entry => entry.1.equals location).map Prod.snd

def insertOrAssign (map : LayerMap) (location : Location) (value : Option Str) : LayerMap :=
  if map.any fun entry => entry.1.equals location then
    map.map fun entry => if entry.1.equals location then (entry.1, value) else entry
  else map ++ [(location, value)]

end LayerMap

/-! ## Layers -/

structure Layer where
  isDirty : Bool
  map : LayerMap
  hasLoader : Bool

namespace Layer

def empty : Layer := ⟨false, [], false⟩

def get (layer : Layer) (location : Location) : Option Str := (layer.map.find location).join

def «exists» (layer : Layer) (location : Location) : Bool := (layer.get location).isSome

def deleteKey (layer : Layer) (location : Location) : Layer × Bool :=
  if layer.exists location then ({ layer with isDirty := true, map := layer.map.insertOrAssign location none }, true)
  else ({ layer with isDirty := true }, false)

def set (layer : Layer) (location : Location) (newValue : Str) : Layer × Bool :=
  if layer.map.find location = some (some newValue) then (layer, false)
  else ({ layer with isDirty := true, map := layer.map.insertOrAssign location (some newValue) }, true)

def load (layer : Layer) (file : LayerMap → LayerMap) : Layer :=
  { layer with isDirty := false, map := if layer.hasLoader then file layer.map else layer.map }

def save (layer : Layer) : Layer := if !layer.hasLoader || !layer.isDirty then layer else { layer with isDirty := false }

end Layer

abbrev Layers := LayerType → Option Layer

namespace Layers

def held (layers : Layers) (location : Location) (layer : LayerType) : Option Str :=
  (layers layer).bind fun l => l.get location

/-- What the loop of `GetAsString` finds in the layers it has left. -/
def search (layers : Layers) (location : Location) (order : List LayerType) : Option Str :=
  order.findSome? (layers.held location)

def getAsString (layers : Layers) (location : Location) : Option Str := layers.search location searchOrder

def getActiveLayerForConfig (layers : Layers) (location : Location) : LayerType :=
  (searchOrder.find? fun layer => (layers layer).any fun l => l.exists location).getD .base

def cleared (layers : Layers) : Layers := Function.update layers .currentRun (some .empty)

end Layers

/-! ## Settings -/

structure CachedValue (α : Type) where
  value : α
  configVersion : BitVec 64

structure Info (α : Type) where
  location : Location
  defaultValue : α
  cachedValue : CachedValue α

/-- A copy of a setting may have another type where its values are those of the other, such as the underlying type of an
enumeration. -/
structure Conversion {α β : Type} (tryParse : Str → Option α) (tryParse' : Str → Option β) where
  cast : α → β
  parse : ∀ str, tryParse' str = (tryParse str).map cast

def Conversion.self {α : Type} (tryParse : Str → Option α) : Conversion tryParse tryParse :=
  ⟨id, fun str => by rw [Option.map_id, id]⟩

/-- `TryParse` of an enumeration is that of its underlying type, converted. -/
def Conversion.underlying {α β : Type} (tryParse : Str → Option α) {toEnum : α → β} {ofEnum : β → α}
    (h : ∀ x, ofEnum (toEnum x) = x) : Conversion (fun str => (tryParse str).map toEnum) tryParse :=
  ⟨ofEnum, fun str => by cases tryParse str <;> simp [h]⟩

namespace Info

variable {α β : Type}

def new (location : Location) (defaultValue : α) : Info α := ⟨location, defaultValue, defaultValue, 0⟩

def copy (cast : α → β) (other : Info α) : Info β :=
  ⟨other.location, cast other.defaultValue, cast other.cachedValue.value, other.cachedValue.configVersion⟩

def setCachedValue (info : Info α) (cachedValue : CachedValue α) : Info α :=
  if info.cachedValue.configVersion < cachedValue.configVersion then { info with cachedValue := cachedValue } else info

def parsed (tryParse : Str → Option α) (info : Info α) (str : Option Str) : α := (str.bind tryParse).getD info.defaultValue

def getUncached (tryParse : Str → Option α) (layers : Layers) (info : Info α) : α :=
  info.parsed tryParse (layers.getAsString info.location)

def get (tryParse : Str → Option α) (layers : Layers) (configVersion : BitVec 64) (info : Info α) : α × Info α :=
  if info.cachedValue.configVersion < configVersion then
    let cached : CachedValue α := ⟨info.getUncached tryParse layers, configVersion⟩
    (cached.value, info.setCachedValue cached)
  else (info.cachedValue.value, info)

end Info

/-! ## Threads -/

inductive Phase (α : Type)
  /-- `GetCachedValue` has returned. -/
  | cached (cached : CachedValue α)
  /-- In the loop of `GetAsString`, with a `ReadLock`. -/
  | searching (configVersion : BitVec 64) (order : List LayerType)
  /-- Before `SetCachedValue`. -/
  | found (cached : CachedValue α)

section

variable {ι : Type} (α : ι → Type)

structure Reader where
  info : ι
  phase : Phase (α info)

structure State where
  layers : Layers
  configVersion : BitVec 64
  callbackGuards : Nat
  infos : ∀ i, Info (α i)
  readers : List (Reader α)
  /-- The threads that have changed a layer and not called `OnConfigChanged` yet. -/
  changing : List Nat

def State.initial (infos : ∀ i, Location × α i) : State α where
  layers := fun _ => none
  configVersion := 0
  callbackGuards := 0
  infos := fun i => .new (infos i).1 (infos i).2
  readers := []
  changing := []

/-- The steps of the operations. Those of an operation on the layers have the thread. -/
inductive Action {α : ι → Type} (tryParse : ∀ i : ι, Str → Option (α i))
  | addLayer (thread : Nat) (type : LayerType) (layer : Layer)
  | removeLayer (thread : Nat) (type : LayerType)
  | clearCurrentRunLayer
  | shutdown
  | set (thread : Nat) (type : LayerType) (location : Location) (newValue : Str)
  | deleteKey (thread : Nat) (type : LayerType) (location : Location)
  | load (thread : Nat) (type : LayerType) (file : LayerMap → LayerMap)
  | save (type : LayerType)
  | onConfigChanged (thread : Nat)
  | openGuard
  | closeGuard
  | construct (i : ι) (location : Location) (defaultValue : α i)
  | copy (i j : ι) (conversion : Conversion (tryParse j) (tryParse i))
  | get (i : ι)
  | getCachedValue (i : ι)
  | getConfigVersion (reader : Nat)
  | searchLayer (reader : Nat)
  | setCachedValue (reader : Nat)

inductive Operation {α : ι → Type} (tryParse : ∀ i, Str → Option (α i))
  | addLayer (type : LayerType) (layer : Layer)
  | removeLayer (type : LayerType)
  | clearCurrentRunLayer
  | shutdown
  | set (type : LayerType) (i : ι) (newValue : Str)
  | deleteKey (type : LayerType) (i : ι)
  | load (files : LayerType → LayerMap → LayerMap)
  | save
  | openGuard
  | closeGuard
  | construct (i : ι) (location : Location) (defaultValue : α i)
  | copy (i j : ι) (conversion : Conversion (tryParse j) (tryParse i))
  | get (i : ι)

end

section

variable {ι : Type} [DecidableEq ι] {α : ι → Type} (tryParse : ∀ i, Str → Option (α i))

def Reader.isSearching (r : Reader α) : Bool :=
  match r.phase with
  | .searching _ _ => true
  | _ => false

namespace State

def unlocked (s : State α) : Bool := s.readers.all (!·.isSearching)

def changed (s : State α) (thread : Nat) (layers : Layers) : State α :=
  { s with layers := layers, changing := thread :: s.changing }

def replaced (s : State α) (thread : Nat) (type : LayerType) (result : Layer × Bool) : State α :=
  let layers := Function.update s.layers type (some result.1)
  if result.2 then s.changed thread layers else { s with layers := layers }

def onConfigChanged (s : State α) (thread : Nat) : State α :=
  { s with configVersion := s.configVersion + 1, changing := s.changing.filter (· ≠ thread) }

def setInfo (s : State α) (i : ι) (info : Info (α i)) : State α := { s with infos := Function.update s.infos i info }

def reads (s : State α) (i : ι) : Bool := s.readers.any (·.info = i)

def searched (s : State α) (i : ι) (configVersion : BitVec 64) : List LayerType → Phase (α i)
  | [] => .found ⟨(s.infos i).parsed (tryParse i) none, configVersion⟩
  | layer :: order =>
      match s.layers.held (s.infos i).location layer with
      | some str => .found ⟨(s.infos i).parsed (tryParse i) (some str), configVersion⟩
      | none => .searching configVersion order

/-- The next step of a call of `Get`; none after the last. -/
def getConfigVersion (s : State α) (reader : Nat) : Option (State α) :=
  match s.readers[reader]? with
  | some ⟨i, .cached cached⟩ =>
      if cached.configVersion < s.configVersion then
        some { s with readers := s.readers.set reader ⟨i, .searching s.configVersion searchOrder⟩ }
      else some { s with readers := s.readers.eraseIdx reader }
  | _ => none

def searchLayer (s : State α) (reader : Nat) : Option (State α) :=
  match s.readers[reader]? with
  | some ⟨i, .searching configVersion order⟩ =>
      some { s with readers := s.readers.set reader ⟨i, s.searched tryParse i configVersion order⟩ }
  | _ => none

def setCachedValue (s : State α) (reader : Nat) : Option (State α) :=
  match s.readers[reader]? with
  | some ⟨i, .found cached⟩ =>
      some { s.setInfo i ((s.infos i).setCachedValue cached) with readers := s.readers.eraseIdx reader }
  | _ => none

end State

def step (s : State α) : Action tryParse → Option (State α)
  | .addLayer thread type layer =>
      if s.unlocked then some (s.changed thread (Function.update s.layers type (some layer))) else none
  | .removeLayer thread type => if s.unlocked then some (s.changed thread (Function.update s.layers type none)) else none
  | .clearCurrentRunLayer => if s.unlocked then some { s with layers := s.layers.cleared } else none
  | .shutdown => if s.unlocked then some { s with layers := fun _ => none } else none
  | .set thread type location newValue => (s.layers type).map fun l => s.replaced thread type (l.set location newValue)
  | .deleteKey thread type location => (s.layers type).map fun l => s.replaced thread type (l.deleteKey location)
  | .load thread type file => (s.layers type).map fun l => s.replaced thread type (l.load file, true)
  | .save type => (s.layers type).map fun l => { s with layers := Function.update s.layers type (some l.save) }
  | .onConfigChanged thread => some (s.onConfigChanged thread)
  | .openGuard => some { s with callbackGuards := s.callbackGuards + 1 }
  | .closeGuard => if 0 < s.callbackGuards then some { s with callbackGuards := s.callbackGuards - 1 } else none
  | .construct i location defaultValue => if s.reads i then none else some (s.setInfo i (.new location defaultValue))
  | .copy i j conversion => if s.reads i then none else some (s.setInfo i ((s.infos j).copy conversion.cast))
  | .get i => some (s.setInfo i ((s.infos i).get (tryParse i) s.layers s.configVersion).2)
  | .getCachedValue i => some { s with readers := s.readers ++ [⟨i, .cached (s.infos i).cachedValue⟩] }
  | .getConfigVersion reader => s.getConfigVersion reader
  | .searchLayer reader => s.searchLayer tryParse reader
  | .setCachedValue reader => s.setCachedValue reader

/-! ## Operations -/

variable {tryParse}

/-- The layers that there are, as `std::map` orders them. -/
def State.present (s : State α) : List LayerType := searchOrder.reverse.filter fun type => (s.layers type).isSome

/-- What an operation does before it calls `OnConfigChanged`, if it does. -/
def Operation.changes (s : State α) : Operation tryParse → List (Action tryParse)
  | .addLayer type layer => [.addLayer 0 type layer]
  | .removeLayer type => [.removeLayer 0 type]
  | .clearCurrentRunLayer => [.clearCurrentRunLayer]
  | .shutdown => [.shutdown]
  | .set type i newValue => [.set 0 type (s.infos i).location newValue]
  | .deleteKey type i => [.deleteKey 0 type (s.infos i).location]
  | .load files => s.present.map fun type => .load 0 type (files type)
  | .save => s.present.map .save
  | .openGuard => [.openGuard]
  | .closeGuard => [.closeGuard]
  | .construct i location defaultValue => [.construct i location defaultValue]
  | .copy i j conversion => [.copy i j conversion]
  | .get i => [.get i]

def Operation.announces (s : State α) : Operation tryParse → Bool
  | .addLayer _ _ | .removeLayer _ | .load _ | .save => true
  | .set type i newValue => (s.layers type).any fun l => (l.set (s.infos i).location newValue).2
  | .deleteKey type i => (s.layers type).any fun l => (l.deleteKey (s.infos i).location).2
  | .closeGuard => s.callbackGuards = 1
  | _ => false

def perform (s : State α) (op : Operation tryParse) : Option (State α) :=
  Lib.run (step tryParse) s (op.changes s ++ if op.announces s then [.onConfigChanged 0] else [])

end

end Karphin.Config
