import Karphin.Lib.FinNumerals

/-!
# The index generator

What is written to the index buffer for the primitives of the console, with and without primitive restart.
-/

namespace Karphin.VideoCommon

inductive Primitive
  | quads | quads2 | triangles | triangleStrip | triangleFan | lines | lineStrip | points
  deriving DecidableEq

/-- The value of the enumeration is that of `GX_DRAW_LINES` or more. -/
def Primitive.isLineOrPoint : Primitive → Bool
  | .lines | .lineStrip | .points => true
  | _ => false

/-- What the tables depend on: `bSupportsPrimitiveRestart` and `UseVSForLinePointExpand()`. -/
structure Config where
  primitiveRestart : Bool
  useVSForLinePointExpand : Bool

/-- A write to the buffer, of an index of 32 bits or of the restart value. -/
inductive Write
  | index (v : Nat)
  | restart
  deriving DecidableEq

def sPrimitiveRestart : UInt16 := 0xffff

def Write.stored : Write → UInt16
  | .index v => UInt16.ofNat v
  | .restart => sPrimitiveRestart

def writeTriangle (pr : Bool) (index1 index2 index3 : Nat) : List Write :=
  [Write.index index1, .index index2, .index index3] ++ if pr then [Write.restart] else []

def addListLoop (pr : Bool) (numVerts index i : Nat) : List Write :=
  if i < numVerts then
    writeTriangle pr (index + i - 2) (index + i - 1) (index + i) ++ addListLoop pr numVerts index (i + 3)
  else []
termination_by numVerts - i

def addList (pr : Bool) (numVerts index : Nat) : List Write := addListLoop pr numVerts index 2

def addStripLoop (numVerts index : Nat) (wind : Bool) (i : Nat) : List Write :=
  if i < numVerts then
    writeTriangle false (index + i - 2) (index + i - (!wind).toNat) (index + i - wind.toNat) ++
      addStripLoop numVerts index (!wind) (i + 1)
  else []
termination_by numVerts - i

def addStrip (pr : Bool) (numVerts index : Nat) : List Write :=
  if pr then (List.range numVerts).map (fun i => Write.index (index + i)) ++ [Write.restart]
  else addStripLoop numVerts index false 2

def addFanRest (pr : Bool) (numVerts index i : Nat) : List Write :=
  if i < numVerts then
    writeTriangle pr index (index + i - 1) (index + i) ++ addFanRest pr numVerts index (i + 1)
  else []
termination_by numVerts - i

/-- The loop of `AddFan` that writes two triangles in a strip, and what follows it. -/
def addFanTwo (numVerts index i : Nat) : List Write :=
  if i + 2 ≤ numVerts then
    [Write.index (index + i - 1), .index (index + i), .index index, .index (index + i + 1), .restart] ++
      addFanTwo numVerts index (i + 2)
  else addFanRest true numVerts index i
termination_by numVerts - i

/-- The loop of `AddFan` that writes three triangles in a strip, and what follows it. -/
def addFanThree (numVerts index i : Nat) : List Write :=
  if i + 3 ≤ numVerts then
    [Write.index (index + i - 1), .index (index + i), .index index, .index (index + i + 1), .index (index + i + 2),
      .restart] ++ addFanThree numVerts index (i + 3)
  else addFanTwo numVerts index i
termination_by numVerts - i

def addFan (pr : Bool) (numVerts index : Nat) : List Write :=
  if pr then addFanThree numVerts index 2 else addFanRest pr numVerts index 2

/-- The loop of `AddQuads`, and the triangle of three vertices that remain. -/
def addQuadsLoop (pr : Bool) (numVerts index i : Nat) : List Write :=
  if i < numVerts then
    (if pr then
      [.index (index + i - 2), .index (index + i - 1), .index (index + i - 3), .index (index + i), .restart]
    else
      writeTriangle pr (index + i - 3) (index + i - 2) (index + i - 1) ++
        writeTriangle pr (index + i - 3) (index + i - 1) (index + i)) ++
      addQuadsLoop pr numVerts index (i + 4)
  else if i = numVerts then writeTriangle pr (index + numVerts - 3) (index + numVerts - 2) (index + numVerts - 1)
  else []
termination_by numVerts - i

def addQuads (pr : Bool) (numVerts index : Nat) : List Write := addQuadsLoop pr numVerts index 3

def addQuadsNonstandard (pr : Bool) (numVerts index : Nat) : List Write := addQuads pr numVerts index

/-- The loops of `AddLineList` and `AddLineStrip`, which advance by 2 and by 1. -/
def addLineLoop (advance : Nat) (numVerts index i : Nat) : List Write :=
  if i < numVerts ∧ 0 < advance then
    [Write.index (index + i - 1), .index (index + i)] ++ addLineLoop advance numVerts index (i + advance)
  else []
termination_by numVerts - i

def addLineList (numVerts index : Nat) : List Write := addLineLoop 2 numVerts index 1

def addLineStrip (numVerts index : Nat) : List Write := addLineLoop 1 numVerts index 1

def addLinesVSExpandLoop (pr : Bool) (advance : Nat) (numVerts index i : Nat) : List Write :=
  if i < numVerts ∧ 0 < advance then
    let p0 := (index + i - 1) <<< 2
    let p1 := (index + i) <<< 2
    (if pr then [Write.index p0, .index (p0 + 1), .index (p1 + 2), .index (p1 + 3), .restart]
    else [Write.index p0, .index (p0 + 1), .index (p1 + 2), .index (p0 + 1), .index (p1 + 2), .index (p1 + 3)]) ++
      addLinesVSExpandLoop pr advance numVerts index (i + advance)
  else []
termination_by numVerts - i

def addLinesVSExpand (pr linestrip : Bool) (numVerts index : Nat) : List Write :=
  addLinesVSExpandLoop pr (if linestrip then 1 else 2) numVerts index 1

def addPoints (numVerts index : Nat) : List Write := (List.range numVerts).map fun i => .index (index + i)

def addPointsVSExpand (pr : Bool) (numVerts index : Nat) : List Write :=
  (List.range numVerts).flatMap fun i =>
    let base := (index + i) <<< 2
    if pr then [.index base, .index (base + 1), .index (base + 2), .index (base + 3), .restart]
    else [.index base, .index (base + 1), .index (base + 2), .index (base + 1), .index (base + 2), .index (base + 3)]

def primitiveTable (config : Config) : Primitive → (numVerts index : Nat) → List Write
  | .quads => addQuads config.primitiveRestart
  | .quads2 => addQuadsNonstandard config.primitiveRestart
  | .triangles => addList config.primitiveRestart
  | .triangleStrip => addStrip config.primitiveRestart
  | .triangleFan => addFan config.primitiveRestart
  | .lines =>
      if config.useVSForLinePointExpand then addLinesVSExpand config.primitiveRestart false else addLineList
  | .lineStrip =>
      if config.useVSForLinePointExpand then addLinesVSExpand config.primitiveRestart true else addLineStrip
  | .points => if config.useVSForLinePointExpand then addPointsVSExpand config.primitiveRestart else addPoints

structure IndexGenerator where
  writes : List Write
  baseIndex : Nat

namespace IndexGenerator

def start : IndexGenerator := ⟨[], 0⟩

def addIndices (config : Config) (g : IndexGenerator) (primitive : Primitive) (numVertices : Nat) : IndexGenerator where
  writes := g.writes ++ primitiveTable config primitive numVertices g.baseIndex
  baseIndex := g.baseIndex + numVertices

def getRemainingIndices (config : Config) (g : IndexGenerator) (primitive : Primitive) : Nat :=
  let maxIndex := if config.useVSForLinePointExpand && primitive.isLineOrPoint then 0xffff >>> 2 else 0xffff
  if g.baseIndex > maxIndex then 0 else maxIndex - g.baseIndex

def buffer (g : IndexGenerator) : List UInt16 := g.writes.map Write.stored

def run (config : Config) (g : IndexGenerator) (calls : List (Primitive × Nat)) : IndexGenerator :=
  calls.foldl (fun g call => g.addIndices config call.1 call.2) g

/-- No call has more vertices than `GetRemainingIndices` says when it is made. -/
def Allowed (config : Config) : IndexGenerator → List (Primitive × Nat) → Prop
  | _, [] => True
  | g, call :: calls =>
      call.2 ≤ g.getRemainingIndices config call.1 ∧ Allowed config (g.addIndices config call.1 call.2) calls

end IndexGenerator

end Karphin.VideoCommon
