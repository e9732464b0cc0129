import Backjump.Fault
import Backjump.OrderedMap

/-! The implication graph: assigned literals as vertices, keyed by variable, and
an edge from each false literal of a forcing clause to the literal it forces.
Adjacency is kept in both directions, each list in order of insertion and
without repeats. A conflict vertex collects the literals of a falsified
clause; adding it can stop at a missing source and leaves the edges before it.
Removal goes vertex by vertex and touches only the lists of neighbours. -/
namespace Backjump

structure Node where
  vertex : Vertex
  successors : List Key
  predecessors : List Key
  deriving DecidableEq

structure ImplicationGraph where
  nodes : OrderedMap Key Node
  deriving DecidableEq

namespace ImplicationGraph

def empty : ImplicationGraph := ⟨.empty⟩

def size (g : ImplicationGraph) : Nat := g.nodes.size

def keys (g : ImplicationGraph) : List Key := g.nodes.keys

def contains (g : ImplicationGraph) (key : Key) : Bool := g.nodes.contains key

def vertices (g : ImplicationGraph) : List Vertex := g.nodes.values.map Node.vertex

def node (g : ImplicationGraph) (key : Key) : Except Fault Node :=
  match g.nodes.get? key with
  | some n => .ok n
  | none => .error (.absentKey key)

def vertex (g : ImplicationGraph) (key : Key) : Except Fault Vertex :=
  (g.node key).map Node.vertex

def predecessors (g : ImplicationGraph) (key : Key) : Except Fault (List Key) :=
  (g.node key).map Node.predecessors

def successors (g : ImplicationGraph) (key : Key) : Except Fault (List Key) :=
  (g.node key).map Node.successors

def conflict? (g : ImplicationGraph) : Option Vertex := (g.nodes.get? none).map Node.vertex

/-- The variables that have a vertex. -/
def symbols (g : ImplicationGraph) : List Symbol := g.keys.filterMap id

/-- The first decision vertex of a level. -/
def decisionVertex? (g : ImplicationGraph) (level : Int) : Option Vertex :=
  g.vertices.find? fun v => v.isDecision && v.level == level

def edges (g : ImplicationGraph) : List (Key × Key) :=
  g.nodes.entries.flatMap fun p => p.2.successors.map fun target => (p.1, target)

def view (g : ImplicationGraph) : GraphView := ⟨g.vertices.map Vertex.view, g.edges⟩

/-- Inserts a vertex without edges. -/
def insert (g : ImplicationGraph) (v : Vertex) : ImplicationGraph :=
  ⟨g.nodes.insert v.key ⟨v, [], []⟩⟩

def addVertex (g : ImplicationGraph) (l : Literal) (level : Int) (isDecision : Bool)
    (clause : Option Int) : Except Fault ImplicationGraph :=
  match g.nodes.get? (some l.symbol) with
  | some n => .error (.violation (.vertexExists l.symbol n.vertex))
  | none => .ok (g.insert ⟨some l, level, isDecision, clause⟩)

/-- Adds an edge between two vertices; an edge that is there already is not repeated. -/
def addEdge (g : ImplicationGraph) (source target : Key) : Except Fault ImplicationGraph :=
  match g.nodes.get? source, g.nodes.get? target with
  | some n, some _ =>
    if target ∈ n.successors then .ok g
    else
      .ok ⟨(g.nodes.adjust source fun n => { n with successors := n.successors ++ [target] }).adjust
        target fun n => { n with predecessors := n.predecessors ++ [source] }⟩
  | _, _ => .error (.violation (.missingEndpoint source target))

/-- Adds edges into one vertex, from the given sources in order. -/
def addEdgesInto (target : Key) : List Key → ImplicationGraph → Attempt ImplicationGraph Unit
  | [], g => (.ok (), g)
  | source :: rest, g =>
    match g.addEdge source target with
    | .ok g => addEdgesInto target rest g
    | .error f => (.error f, g)

def conflictVertex (level : Int) (clause : Option Int) : Vertex := ⟨none, level, false, clause⟩

/-- Adds the conflict vertex with an edge from each source. -/
def addConflict (g : ImplicationGraph) (level : Int) (clause : Option Int) (sources : List Key) :
    Attempt ImplicationGraph Unit :=
  if none ∈ g.nodes then (.error (.violation .conflictExists), g)
  else addEdgesInto none sources (g.insert (conflictVertex level clause))

/-- Takes a vertex out of the lists of its neighbours and out of the graph. -/
def removeVertex (g : ImplicationGraph) (key : Key) : ImplicationGraph :=
  match g.nodes.get? key with
  | none => g
  | some n =>
    let nodes := n.predecessors.foldl (fun nodes source =>
      nodes.adjust source fun m => { m with successors := m.successors.erase key }) g.nodes
    let nodes := n.successors.foldl (fun nodes target =>
      nodes.adjust target fun m => { m with predecessors := m.predecessors.erase key }) nodes
    ⟨nodes.erase key⟩

/-- The keys of the conflict and of the vertices above `level`. -/
def keysAbove (g : ImplicationGraph) (level : Int) : List Key :=
  (g.nodes.entries.filter fun p => level < p.2.vertex.level || p.2.vertex.isConflict).map Prod.fst

/-- Drops the conflict and the vertices above `level` with all their edges; answers them in order. -/
def removeAbove (g : ImplicationGraph) (level : Int) : List Vertex × ImplicationGraph :=
  let doomed := g.keysAbove level
  (doomed.filterMap fun key => (g.nodes.get? key).map Node.vertex, doomed.foldl removeVertex g)

end ImplicationGraph

end Backjump
