import Karphin.Lib.FinNumerals

/-!
# The registers of the command processor

The vertex descriptions and formats, and the size of a vertex.
-/

namespace Karphin.VideoCommon

abbrev CPArray := Fin 16

inductive VertexComponentFormat
  | notPresent | direct | index8 | index16
  deriving DecidableEq

inductive ComponentFormat
  | uByte | byte | uShort | short | float | invalidFloat5 | invalidFloat6 | invalidFloat7
  deriving DecidableEq

inductive CoordComponentCount
  | xy | xyz
  deriving DecidableEq

inductive NormalComponentCount
  | n | ntb
  deriving DecidableEq

inductive TexComponentCount
  | s | st
  deriving DecidableEq

structure TVtxDesc where
  low : BitVec 32
  high : BitVec 32
  deriving DecidableEq

structure VAT where
  g0 : BitVec 32
  g1 : BitVec 32
  g2 : BitVec 32
  deriving DecidableEq

structure CPState where
  arrayBases : Vector (BitVec 32) 16
  arrayStrides : Vector (BitVec 32) 16
  matrixIndexA : BitVec 32
  matrixIndexB : BitVec 32
  vtxDesc : TVtxDesc
  vtxAttr : Vector VAT 8
  deriving DecidableEq

/-! ## Fields -/

def bitField (hex : BitVec 32) (position bits : Nat) : Nat := (hex.extractLsb' position bits).toNat

def vertexComponentFormat (hex : BitVec 32) (position : Nat) : VertexComponentFormat :=
  match bitField hex position 2 with
  | 0 => .notPresent
  | 1 => .direct
  | 2 => .index8
  | _ => .index16

def componentFormat (hex : BitVec 32) (position : Nat) : ComponentFormat :=
  match bitField hex position 3 with
  | 0 => .uByte
  | 1 => .byte
  | 2 => .uShort
  | 3 => .short
  | 4 => .float
  | 5 => .invalidFloat5
  | 6 => .invalidFloat6
  | _ => .invalidFloat7

def texComponentCount (hex : BitVec 32) (position : Nat) : TexComponentCount := if hex.getLsbD position then .st else .s

namespace TVtxDesc

def position (desc : TVtxDesc) : VertexComponentFormat := vertexComponentFormat desc.low 9

def normal (desc : TVtxDesc) : VertexComponentFormat := vertexComponentFormat desc.low 11

def color (desc : TVtxDesc) (i : Fin 2) : VertexComponentFormat := vertexComponentFormat desc.low (13 + 2 * i)

def texCoord (desc : TVtxDesc) (i : Fin 8) : VertexComponentFormat := vertexComponentFormat desc.high (2 * i)

end TVtxDesc

namespace VAT

def posElements (vat : VAT) : CoordComponentCount := if vat.g0.getLsbD 0 then .xyz else .xy

def posFormat (vat : VAT) : ComponentFormat := componentFormat vat.g0 1

def normalElements (vat : VAT) : NormalComponentCount := if vat.g0.getLsbD 9 then .ntb else .n

def normalFormat (vat : VAT) : ComponentFormat := componentFormat vat.g0 10

def normalIndex3 (vat : VAT) : Bool := vat.g0.getLsbD 31

def getColorFormat (vat : VAT) (i : Fin 2) : Nat :=
  match i with
  | 0 => bitField vat.g0 14 3
  | 1 => bitField vat.g0 18 3

def getTexElements (vat : VAT) (i : Fin 8) : TexComponentCount :=
  match i with
  | 0 => texComponentCount vat.g0 21
  | 1 => texComponentCount vat.g1 0
  | 2 => texComponentCount vat.g1 9
  | 3 => texComponentCount vat.g1 18
  | 4 => texComponentCount vat.g1 27
  | 5 => texComponentCount vat.g2 5
  | 6 => texComponentCount vat.g2 14
  | 7 => texComponentCount vat.g2 23

def getTexFormat (vat : VAT) (i : Fin 8) : ComponentFormat :=
  match i with
  | 0 => componentFormat vat.g0 22
  | 1 => componentFormat vat.g1 1
  | 2 => componentFormat vat.g1 10
  | 3 => componentFormat vat.g1 19
  | 4 => componentFormat vat.g1 28
  | 5 => componentFormat vat.g2 6
  | 6 => componentFormat vat.g2 15
  | 7 => componentFormat vat.g2 24

end VAT

/-! ## The size of a vertex -/

def VertexLoader_Position.getSize : VertexComponentFormat → ComponentFormat → CoordComponentCount → Nat
  | .notPresent, _, _ => 0
  | .direct, .uByte, elements | .direct, .byte, elements => match elements with | .xy => 2 | .xyz => 3
  | .direct, .uShort, elements | .direct, .short, elements => match elements with | .xy => 4 | .xyz => 6
  | .direct, _, elements => match elements with | .xy => 8 | .xyz => 12
  | .index8, _, _ => 1
  | .index16, _, _ => 2

/-- `s_table_size` of the normals. Three indices are only there for a normal, a tangent and a binormal. -/
def VertexLoader_Normal.getSize : VertexComponentFormat → ComponentFormat → NormalComponentCount → Bool → Nat
  | .notPresent, _, _, _ => 0
  | .direct, .uByte, elements, _ | .direct, .byte, elements, _ => match elements with | .n => 3 | .ntb => 9
  | .direct, .uShort, elements, _ | .direct, .short, elements, _ => match elements with | .n => 6 | .ntb => 18
  | .direct, _, elements, _ => match elements with | .n => 12 | .ntb => 36
  | .index8, _, .ntb, true => 3
  | .index8, _, _, _ => 1
  | .index16, _, .ntb, true => 6
  | .index16, _, _, _ => 2

def VertexLoader_Color.getSize (type : VertexComponentFormat) (format : Nat) : Nat :=
  if format > 5 then 0
  else
    match type with
    | .notPresent => 0
    | .direct =>
        match format with
        | 0 => 2
        | 1 => 3
        | 2 => 4
        | 3 => 2
        | 4 => 3
        | _ => 4
    | .index8 => 1
    | .index16 => 2

def VertexLoader_TextCoord.getSize : VertexComponentFormat → ComponentFormat → TexComponentCount → Nat
  | .notPresent, _, _ => 0
  | .direct, .uByte, elements | .direct, .byte, elements => match elements with | .s => 1 | .st => 2
  | .direct, .uShort, elements | .direct, .short, elements => match elements with | .s => 2 | .st => 4
  | .direct, _, elements => match elements with | .s => 4 | .st => 8
  | .index8, _, _ => 1
  | .index16, _, _ => 2

def getVertexSize (vtxDesc : TVtxDesc) (vtxAttr : VAT) : BitVec 32 :=
  BitVec.ofNat 32 (
    -- Each enabled index of a texture matrix adds one byte, as does that of the position matrix.
    (List.range 9).countP (fun i => vtxDesc.low.getLsbD i) +
    VertexLoader_Position.getSize vtxDesc.position vtxAttr.posFormat vtxAttr.posElements +
    VertexLoader_Normal.getSize vtxDesc.normal vtxAttr.normalFormat vtxAttr.normalElements vtxAttr.normalIndex3 +
    ((List.finRange 2).map fun i => VertexLoader_Color.getSize (vtxDesc.color i) (vtxAttr.getColorFormat i)).sum +
    ((List.finRange 8).map fun i =>
      VertexLoader_TextCoord.getSize (vtxDesc.texCoord i) (vtxAttr.getTexFormat i) (vtxAttr.getTexElements i)).sum)

theorem VertexLoader_Position.getSize_le (type : VertexComponentFormat) (format : ComponentFormat)
    (elements : CoordComponentCount) : getSize type format elements ≤ 12 := by
  cases type <;> cases format <;> cases elements <;> decide

theorem VertexLoader_Normal.getSize_le (type : VertexComponentFormat) (format : ComponentFormat)
    (elements : NormalComponentCount) (index3 : Bool) : getSize type format elements index3 ≤ 36 := by
  cases type <;> cases format <;> cases elements <;> cases index3 <;> decide

theorem VertexLoader_Color.getSize_le (type : VertexComponentFormat) (format : Nat) : getSize type format ≤ 4 := by
  unfold getSize
  split
  · exact Nat.zero_le 4
  · cases type with
    | notPresent => exact Nat.zero_le 4
    | direct =>
        dsimp only
        split <;> omega
    | index8 => exact Nat.le_add_left 1 3
    | index16 => exact Nat.le_add_left 2 2

theorem VertexLoader_TextCoord.getSize_le (type : VertexComponentFormat) (format : ComponentFormat)
    (elements : TexComponentCount) : getSize type format elements ≤ 8 := by
  cases type <;> cases format <;> cases elements <;> decide

theorem sum_map_le {α : Type} (l : List α) (f : α → Nat) (bound : Nat) (h : ∀ a, f a ≤ bound) :
    (l.map f).sum ≤ bound * l.length := by
  induction l with
  | nil => exact Nat.le_refl 0
  | cons a l ih =>
      have ha := h a
      simp only [List.map_cons, List.sum_cons, List.length_cons, Nat.mul_succ]
      omega

theorem getVertexSize_le (vtxDesc : TVtxDesc) (vtxAttr : VAT) : (getVertexSize vtxDesc vtxAttr).toNat ≤ 129 := by
  rw [getVertexSize, BitVec.toNat_ofNat]
  refine Nat.le_trans (Nat.mod_le _ _) ?_
  have hindices : (List.range 9).countP (fun i => vtxDesc.low.getLsbD i) ≤ 9 := List.countP_le_length
  have hposition := VertexLoader_Position.getSize_le vtxDesc.position vtxAttr.posFormat vtxAttr.posElements
  have hnormal := VertexLoader_Normal.getSize_le vtxDesc.normal vtxAttr.normalFormat vtxAttr.normalElements
    vtxAttr.normalIndex3
  have hcolors := sum_map_le (List.finRange 2)
    (fun i => VertexLoader_Color.getSize (vtxDesc.color i) (vtxAttr.getColorFormat i)) 4
    fun i => VertexLoader_Color.getSize_le _ _
  have htexCoords := sum_map_le (List.finRange 8)
    (fun i => VertexLoader_TextCoord.getSize (vtxDesc.texCoord i) (vtxAttr.getTexFormat i) (vtxAttr.getTexElements i)) 8
    fun i => VertexLoader_TextCoord.getSize_le _ _ _
  rw [List.length_finRange] at hcolors htexCoords
  omega

/-! ## Loading a register -/

def getPhysicalAddressMask (isWii : Bool) : BitVec 32 := if isWii then 0x1fffffff else 0x03ffffff

def CP_COMMAND_MASK : BitVec 8 := 0xf0

def vatIndex (command : BitVec 8) : Fin 8 := ⟨command.toNat % 8, Nat.mod_lt _ (by decide)⟩

theorem vatIndex_lt (command : BitVec 8) : (vatIndex command).val < 8 := (vatIndex command).isLt

def arrayIndex (command : BitVec 8) : CPArray := ⟨command.toNat % 16, Nat.mod_lt _ (by decide)⟩

def CPState.loadCPReg (isWii : Bool) (state : CPState) (subCmd : BitVec 8) (value : BitVec 32) : CPState :=
  let setVtxAttr (vat : VAT) : CPState := { state with vtxAttr := state.vtxAttr.set (vatIndex subCmd) vat }
  match (subCmd &&& CP_COMMAND_MASK).toNat with
  | 0x30 => { state with matrixIndexA := value }
  | 0x40 => { state with matrixIndexB := value }
  | 0x50 => { state with vtxDesc.low := value }
  | 0x60 => { state with vtxDesc.high := value }
  | 0x70 => setVtxAttr { state.vtxAttr.get (vatIndex subCmd) with g0 := value }
  | 0x80 => setVtxAttr { state.vtxAttr.get (vatIndex subCmd) with g1 := value }
  | 0x90 => setVtxAttr { state.vtxAttr.get (vatIndex subCmd) with g2 := value }
  | 0xa0 => { state with
      arrayBases := state.arrayBases.set (arrayIndex subCmd) (value &&& getPhysicalAddressMask isWii) }
  | 0xb0 => { state with arrayStrides := state.arrayStrides.set (arrayIndex subCmd) (value &&& 0xff) }
  | _ => state

end Karphin.VideoCommon
