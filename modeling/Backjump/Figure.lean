import Backjump.Fault
import Backjump.OrderedMap

/-! Pictures of implication graphs. Vertices stand on a grid: a row for each
decision level, level 0 on top, and a column for each variable in the order of
the picture, which is trail order; the conflict stands one column past the
last. Decisions and the conflict are drawn round, implied literals square.
Lengths that are not whole are given in tenths. -/
namespace Backjump

/-- A place on the grid: the column counts to the right, the row downwards from zero. -/
structure Spot where
  x : Int
  y : Int
  deriving DecidableEq

namespace GraphView

/-- Columns for the variables, from `column` on; answers the first free column, too. -/
def placeVariables (column : Nat) (spots : OrderedMap Key Spot) :
    List VertexView → OrderedMap Key Spot × Nat
  | [] => (spots, column)
  | v :: rest =>
    if v.isConflict then placeVariables column spots rest
    else placeVariables (column + 1) (spots.insert v.symbol ⟨column, -v.level⟩) rest

/-- Where each vertex stands. -/
def layout (g : GraphView) : OrderedMap Key Spot :=
  let (spots, column) := placeVariables 0 .empty g.vertices
  (g.vertices.filter VertexView.isConflict).foldl
    (fun spots v => spots.insert none ⟨column, -v.level⟩) spots

end GraphView

inductive Shape where
  | round
  | square
  deriving DecidableEq

def Shape.name : Shape → String
  | round => "round"
  | square => "square"

inductive Colour where
  | tomato
  | gold
  | lightSteelBlue
  deriving DecidableEq

/-- The shares of red, green and blue. -/
def Colour.code : Colour → String
  | tomato => "#ff6347"
  | gold => "#ffd700"
  | lightSteelBlue => "#b0c4de"

/-- A label in a box; `pad` is the room around the text, in tenths. -/
structure Box where
  spot : Spot
  label : String
  shape : Shape
  pad : Nat
  colour : Colour
  deriving DecidableEq

structure Arrow where
  source : Spot
  target : Spot
  deriving DecidableEq

/-- `width` and `height` are in tenths; `rows` names each row from the lowest up. -/
structure Figure where
  path : String
  title : String
  width : Int
  height : Int
  boxes : List Box
  arrows : List Arrow
  columns : Int × Int
  rows : Int × Int
  rowLabels : List (Int × String)
  deriving DecidableEq

namespace VertexView

def colour (v : VertexView) : Colour :=
  if v.isConflict then .tomato else if v.isDecision then .gold else .lightSteelBlue

def shape (v : VertexView) : Shape := if v.isConflict || v.isDecision then .round else .square

def pad (v : VertexView) : Nat := match v.shape with
  | .round => 4
  | .square => 3

end VertexView

namespace GraphView

def spot (spots : OrderedMap Key Spot) (key : Key) : Except Fault Spot :=
  match spots.get? key with
  | some s => .ok s
  | none => .error (.absentKey key)

def box (spots : OrderedMap Key Spot) (v : VertexView) : Except Fault Box :=
  (spot spots v.symbol).map fun s => ⟨s, v.label, v.shape, v.pad, v.colour⟩

def arrow (spots : OrderedMap Key Spot) (edge : Key × Key) : Except Fault Arrow :=
  match spot spots edge.1, spot spots edge.2 with
  | .ok source, .ok target => .ok ⟨source, target⟩
  | .error f, _ => .error f
  | _, .error f => .error f

/-- The least and the greatest of some numbers, both zero for none. -/
def extent : List Int → Int × Int
  | [] => (0, 0)
  | n :: rest => (rest.foldl min n, rest.foldl max n)

/-- The whole numbers from `low` to `high`. -/
def wholeRange (low high : Int) : List Int :=
  (List.range (high + 1 - low).toNat).map fun (i : Nat) => low + (i : Int)

/-- Draws a picture; a vertex or an edge whose end stands nowhere is a fault. -/
def draw (g : GraphView) (path title : String) : Except Fault Figure := do
  let spots := g.layout
  let boxes ← g.vertices.mapM (box spots)
  let arrows ← g.edges.mapM (arrow spots)
  let columns := extent (spots.values.map Spot.x)
  let rows := extent (spots.values.map Spot.y)
  let highest := (extent (g.vertices.map VertexView.level)).2
  return {
    path := path
    title := title
    width := max 60 (14 * ((spots.size : Int) + 1))
    height := max 30 (12 * (highest + 2))
    boxes := boxes
    arrows := arrows
    columns := (columns.1 - 1, columns.2 + 1)
    rows := (rows.1 - 1, rows.2 + 1)
    rowLabels := (wholeRange rows.1 rows.2).map fun y => (y, "level " ++ Text.signedNumeral (-y)) }

end GraphView

end Backjump
