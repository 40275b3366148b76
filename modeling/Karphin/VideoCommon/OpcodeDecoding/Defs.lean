import Karphin.Lib.Frames
import Karphin.VideoCommon.CPMemory
import Karphin.VideoCommon.IndexGenerator.Defs

/-!
# The opcode decoder

`Run` with any callback, and the callback of the FIFO. What the commands do to the rest of the machine is given.
-/

namespace Karphin.VideoCommon.OpcodeDecoder

/-! ## Opcodes -/

def GX_NOP : BitVec 8 := 0x00
def GX_LOAD_BP_REG : BitVec 8 := 0x61
def GX_LOAD_CP_REG : BitVec 8 := 0x08
def GX_LOAD_XF_REG : BitVec 8 := 0x10
def GX_LOAD_INDX_A : BitVec 8 := 0x20
def GX_LOAD_INDX_B : BitVec 8 := 0x28
def GX_LOAD_INDX_C : BitVec 8 := 0x30
def GX_LOAD_INDX_D : BitVec 8 := 0x38
def GX_CMD_CALL_DL : BitVec 8 := 0x40
def GX_CMD_UNKNOWN_METRICS : BitVec 8 := 0x44
def GX_CMD_INVL_VC : BitVec 8 := 0x48
def GX_PRIMITIVE_START : BitVec 8 := 0x80
def GX_PRIMITIVE_END : BitVec 8 := 0xbf

/-- The three bits of `GX_PRIMITIVE_MASK` that a primitive can have. -/
def primitiveOf (cmdbyte : BitVec 8) : Primitive :=
  match bitField (cmdbyte.setWidth 32) 3 3 with
  | 0 => .quads
  | 1 => .quads2
  | 2 => .triangles
  | 3 => .triangleStrip
  | 4 => .triangleFan
  | 5 => .lines
  | 6 => .lineStrip
  | _ => .points

structure Callback (σ : Type) where
  onXF : BitVec 16 → BitVec 8 → List (BitVec 8) → σ → σ
  onCP : BitVec 8 → BitVec 32 → σ → σ
  onBP : BitVec 8 → BitVec 32 → σ → σ
  onIndexedLoad : CPArray → BitVec 32 → BitVec 16 → BitVec 8 → σ → σ
  onPrimitiveCommand : Primitive → Fin 8 → BitVec 32 → BitVec 16 → List (BitVec 8) → σ → σ
  onDisplayList : BitVec 32 → BitVec 32 → σ → σ
  onNop : Nat → σ → σ
  onUnknown : BitVec 8 → List (BitVec 8) → σ → σ
  onCommand : List (BitVec 8) → σ → σ
  getVertexSize : Fin 8 → σ → BitVec 32 × σ

/-! ## Commands -/

def byteAt (data : List (BitVec 8)) (i : Nat) : BitVec 8 := data.getD i 0

def swap16 (data : List (BitVec 8)) (i : Nat) : BitVec 16 := byteAt data i ++ byteAt data (i + 1)

def swap24 (data : List (BitVec 8)) (i : Nat) : BitVec 32 :=
  (byteAt data i ++ byteAt data (i + 1) ++ byteAt data (i + 2)).setWidth 32

def swap32 (data : List (BitVec 8)) (i : Nat) : BitVec 32 :=
  byteAt data i ++ byteAt data (i + 1) ++ byteAt data (i + 2) ++ byteAt data (i + 3)

section

variable {σ : Type} (callback : Callback σ)

/-- `detail::RunCommand`. A pointer is given as the bytes that it is for. -/
def detailRunCommand (data : List (BitVec 8)) (s : σ) : Nat × σ :=
  let available := data.length
  match data with
  | [] => (0, s)
  | cmd :: _ =>
      if cmd = GX_NOP then
        let count := (data.takeWhile fun byte => byte = GX_NOP).length
        (count, callback.onNop count s)
      else if cmd = GX_LOAD_CP_REG then
        if available < 6 then (0, s) else (6, callback.onCP (byteAt data 1) (swap32 data 2) s)
      else if cmd = GX_LOAD_XF_REG then
        if available < 5 then (0, s)
        else
          let cmd2 := swap32 data 1
          let baseAddress := cmd2.setWidth 16
          -- A larger number of words fails an assertion, which may be ignored.
          let streamSizeTemp := (cmd2 >>> 16).setWidth 16
          let streamSize : BitVec 8 := (streamSizeTemp &&& 0xf).setWidth 8 + 1
          if available < 5 + streamSize.toNat * 4 then (0, s)
          else (5 + streamSize.toNat * 4,
            callback.onXF baseAddress streamSize ((data.drop 5).take (streamSize.toNat * 4)) s)
      else if cmd = GX_LOAD_INDX_A ∨ cmd = GX_LOAD_INDX_B ∨ cmd = GX_LOAD_INDX_C ∨ cmd = GX_LOAD_INDX_D then
        if available < 5 then (0, s)
        else
          let value := swap32 data 1
          let index := value >>> 16
          let address := value.setWidth 16 &&& 0xfff
          let size := ((value >>> 12) &&& 0xf).setWidth 8 + 1
          (5, callback.onIndexedLoad (arrayIndex (cmd / 8 + 8)) index address size s)
      else if cmd = GX_CMD_CALL_DL then
        if available < 9 then (0, s) else (9, callback.onDisplayList (swap32 data 1) (swap32 data 5) s)
      else if cmd = GX_LOAD_BP_REG then
        if available < 5 then (0, s) else (5, callback.onBP (byteAt data 1) (swap24 data 2) s)
      else if GX_PRIMITIVE_START ≤ cmd ∧ cmd ≤ GX_PRIMITIVE_END then
        if available < 3 then (0, s)
        else
          let vat := vatIndex cmd
          let (vertexSize, s) := callback.getVertexSize vat s
          let numVertices := swap16 data 1
          let size : BitVec 32 := 3 + numVertices.setWidth 32 * vertexSize
          if available < size.toNat then (0, s)
          else (size.toNat, callback.onPrimitiveCommand (primitiveOf cmd) vat vertexSize numVertices
            ((data.drop 3).take (numVertices.toNat * vertexSize.toNat)) s)
      else (1, callback.onUnknown cmd (data.take 1) s)

def RunCommand (data : List (BitVec 8)) (s : σ) : Nat × σ :=
  let (size, s) := detailRunCommand callback data s
  if size > 0 then (size, callback.onCommand (data.take size) s) else (size, s)

def Run (data : List (BitVec 8)) (s : σ) : Nat × σ := Lib.Frames.run (RunCommand callback) data s

end

/-! ## The callback of the FIFO -/

/-- A call of the callback. That of `OnCommand` says whether it is for a command of a display list. -/
inductive Event
  | xf (address : BitVec 16) (count : BitVec 8) (data : List (BitVec 8))
  | cp (command : BitVec 8) (value : BitVec 32)
  | bp (command : BitVec 8) (value : BitVec 32)
  | indexedLoad (array : CPArray) (index : BitVec 32) (address : BitVec 16) (size : BitVec 8)
  | primitiveCommand (primitive : Primitive) (vat : Fin 8) (vertexSize : BitVec 32) (numVertices : BitVec 16)
      (vertexData : List (BitVec 8))
  | displayList (address size : BitVec 32)
  | nop (count : Nat)
  | unknown (opcode : BitVec 8) (data : List (BitVec 8))
  | command (inDisplayList : Bool) (data : List (BitVec 8))
  deriving DecidableEq

structure VertexLoader where
  vtxDesc : TVtxDesc
  vtxAttr : VAT
  deriving DecidableEq

def VertexLoader.vertexSize (loader : VertexLoader) : BitVec 32 := getVertexSize loader.vtxDesc loader.vtxAttr

/-- The rest of the machine: what a command does to it with the cycles so far, how the pointers to the vertex arrays are
looked up, and where the bytes of a display list come from. -/
structure Machine (ε : Type) where
  isPreprocess : Bool
  isWii : Bool
  perform : Event → BitVec 32 → ε → ε
  updateArrayPointers : CPState → ε → ε
  displayList : BitVec 32 → (size : BitVec 32) → ε → ε × Option (Vector (BitVec 8) size.toNat)

structure State (ε : Type) where
  cpState : CPState
  vatDirty : Vector Bool 8
  vertexLoaders : Vector VertexLoader 8
  basesDirty : Bool
  cycles : BitVec 32
  inDisplayList : Bool
  rest : ε
  log : List Event

namespace State

variable {ε : Type}

def record (event : Event) (s : State ε) : State ε := { s with log := event :: s.log }

def tick (cycles : BitVec 32) (s : State ε) : State ε := { s with cycles := s.cycles + cycles }

def perform (machine : Machine ε) (event : Event) (s : State ε) : State ε :=
  { s with rest := machine.perform event s.cycles s.rest }

def getOrCreateLoader (vat : Fin 8) (s : State ε) : State ε :=
  { s with
    vertexLoaders := s.vertexLoaders.set vat ⟨s.cpState.vtxDesc, s.cpState.vtxAttr.get vat⟩
    vatDirty := s.vatDirty.set vat false }

def updateVertexArrayPointers (machine : Machine ε) (s : State ε) : State ε :=
  if s.basesDirty then { s with rest := machine.updateArrayPointers s.cpState s.rest, basesDirty := false } else s

def refreshLoader (machine : Machine ε) (vat : Fin 8) (s : State ε) : State ε :=
  let s := if s.vatDirty.get vat then s.getOrCreateLoader vat else s
  if machine.isPreprocess then s else s.updateVertexArrayPointers machine

def markDirty (machine : Machine ε) (command : BitVec 8) (s : State ε) : State ε :=
  match (command &&& CP_COMMAND_MASK).toNat with
  | 0x50 | 0x60 => { s with vatDirty := .replicate 8 true, basesDirty := s.basesDirty || !machine.isPreprocess }
  | 0x70 | 0x80 | 0x90 => { s with vatDirty := s.vatDirty.set (vatIndex command) true (vatIndex_lt command) }
  | 0xa0 => { s with basesDirty := s.basesDirty || !machine.isPreprocess }
  | _ => s

def loadCPReg (machine : Machine ε) (command : BitVec 8) (value : BitVec 32) (s : State ε) : State ε :=
  { s with cpState := s.cpState.loadCPReg machine.isWii command value }

end State

section

variable {ε : Type} (machine : Machine ε)

/-- The calls that do not depend on whether a display list is being run. -/
def callbackWith (onDisplayList : BitVec 32 → BitVec 32 → State ε → State ε) : Callback (State ε) where
  onXF address count data s :=
    let event := Event.xf address count data
    (((s.record event).tick (18 + 6 * count.setWidth 32)).perform machine event)
  onCP command value s :=
    let event := Event.cp command value
    ((((s.record event).tick 12).perform machine event).markDirty machine command).loadCPReg machine command value
  onBP command value s :=
    let event := Event.bp command value
    ((s.record event).tick 12).perform machine event
  onIndexedLoad array index address size s :=
    let event := Event.indexedLoad array index address size
    ((s.record event).tick 6).perform machine event
  onPrimitiveCommand primitive vat vertexSize numVertices vertexData s :=
    let event := Event.primitiveCommand primitive vat vertexSize numVertices vertexData
    let s := s.record event
    -- `RunVertices`
    let s := if numVertices = 0 then s else (s.refreshLoader machine vat).perform machine event
    s.tick (numVertices.setWidth 32 * 4 * 3 + 6)
  onDisplayList := onDisplayList
  onNop count s := (s.record (.nop count)).tick (6 * BitVec.ofNat 32 count)
  onUnknown opcode data s :=
    let event := Event.unknown opcode data
    let s := s.record event
    if opcode = GX_CMD_UNKNOWN_METRICS ∨ opcode = GX_CMD_INVL_VC then s.tick 6 else (s.perform machine event).tick 1
  onCommand data s := s.record (.command s.inDisplayList data)
  getVertexSize vat s :=
    let s := s.refreshLoader machine vat
    ((s.vertexLoaders.get vat).vertexSize, s)

/-- The callback while `m_in_display_list` is set: a display list in a display list is not run. -/
def displayListCallback : Callback (State ε) :=
  callbackWith machine fun address size s => (s.record (.displayList address size)).tick 6

def runDisplayList (address size : BitVec 32) (s : State ε) : State ε :=
  let s := (s.record (.displayList address size)).tick 6
  if s.inDisplayList then s
  else
    let (rest, startAddress) := machine.displayList address size s.rest
    let s := { s with inDisplayList := true, rest := rest }
    let s :=
      match startAddress with
      | none => s
      | some data => (Run (displayListCallback machine) data.toList s).2
    { s with inDisplayList := false }

def runCallback : Callback (State ε) := callbackWith machine (runDisplayList machine)

end

end Karphin.VideoCommon.OpcodeDecoder
