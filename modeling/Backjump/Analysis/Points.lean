import Backjump.Graph
import Backjump.Trail

/-! Unique implication points by their definition: the vertices that lie on every
path from the decision of a level to the conflict, the last assigned first. The
paths are enumerated, so this serves to check the analysis that walks the trail
once. In a graph without circles no path is longer than the number of vertices. -/
namespace Backjump.ImplicationGraph

/-- The paths from a vertex to the conflict, each without the conflict itself. -/
def paths (g : ImplicationGraph) : Nat → Key → Except Fault (List (List Key))
  | 0, _ => .error .endlessPaths
  | steps + 1, key => do
    let onward ← (← g.successors key).mapM fun next =>
      if next.isNone then .ok [[key]]
      else (paths g steps next).map fun routes => routes.map (key :: ·)
    return onward.flatten

/-- The members that all lists share, in the order of the first. -/
def shared : List (List Key) → List Key
  | [] => []
  | first :: rest => first.eraseDups.filter fun key => rest.all (·.contains key)

/-- The vertex at a key and the place of its entry on the trail. -/
def placed (g : ImplicationGraph) (t : Trail) (key : Key) : Except Fault (Int × Vertex) := do
  let v ← g.vertex key
  match v.key.bind t.entryFor? with
  | some e => return (e.index, v)
  | none => throw (.absentPart .index)

/-- The unique implication points of a level, from the conflict back to the decision. -/
def implicationPoints (g : ImplicationGraph) (t : Trail) (level : Int) :
    Except Fault (List Vertex) :=
  match g.decisionVertex? level with
  | none => .error (.violation (.noDecisionVertex level))
  | some decision =>
    if g.conflict?.isNone then .error (.violation .nothingToReach)
    else do
      let candidates := shared (← g.paths (g.size + 1) decision.key)
      let points ← candidates.mapM (g.placed t)
      return (points.mergeSort fun a b => b.1 ≤ a.1).map Prod.snd

def firstImplicationPoint (g : ImplicationGraph) (t : Trail) (level : Int) :
    Except Fault Vertex := do
  match ← g.implicationPoints t level with
  | [] => throw (.violation (.unreachedConflict level))
  | point :: _ => return point

end Backjump.ImplicationGraph
