import Backjump.Literal

/-! Vertices of the implication graph: assigned literals, and the conflict, which
is the vertex without a literal. -/
namespace Backjump

/-- `clause` is the place of the forcing clause, or of the falsified one for the conflict. -/
structure Vertex where
  literal : Option Literal
  level : Int
  isDecision : Bool
  clause : Option Int
  deriving DecidableEq

namespace Vertex

def key (v : Vertex) : Key := v.literal.map Literal.symbol

def isConflict (v : Vertex) : Bool := v.literal.isNone

def text (v : Vertex) : String :=
  v.literal.elim "κ" Literal.text ++ "@" ++ Text.signedNumeral v.level

end Vertex

/-- A vertex as pictures show it. -/
structure VertexView where
  symbol : Key
  sign : Option Bool
  level : Int
  isDecision : Bool
  isConflict : Bool
  deriving DecidableEq

def VertexView.label (v : VertexView) : String :=
  (if v.isConflict then "κ"
   else (if v.sign = some true then "" else "¬") ++ v.symbol.text) ++
  "@" ++ Text.signedNumeral v.level

def Vertex.view (v : Vertex) : VertexView :=
  ⟨v.key, v.literal.map Literal.positive, v.level, v.isDecision, v.isConflict⟩

/-- A picture of a graph: vertices in order of insertion, edges by source. -/
structure GraphView where
  vertices : List VertexView
  edges : List (Key × Key)
  deriving DecidableEq

/-- The first vertex with the given key. -/
def GraphView.find? (g : GraphView) (key : Key) : Option VertexView :=
  g.vertices.find? fun v => v.symbol == key

end Backjump
