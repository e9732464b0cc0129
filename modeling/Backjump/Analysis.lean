import Backjump.Clause
import Backjump.Graph
import Backjump.Trail

/-! Conflict analysis. The literals of a conflict are resolved along the trail,
last entry first: a vertex of the current level stays pending until its turn
comes and is then replaced by its predecessors, a vertex of a lower level goes
into the clause to learn. When one vertex is left pending it is the first
unique implication point: the negation of its literal comes first in the
learned clause, and the search goes back to the highest level among the others.
The walk starts at the end of the trail and, where a graph was edited until it
no longer fits its trail, continues once more from the end before it fails. -/
namespace Backjump

/-- What analysis finds: the implication point, the level to go back to, and the clause. -/
structure Analysis where
  point : Literal
  target : Int
  clause : Clause
  deriving DecidableEq

namespace Analysis

/-- A cut through the graph: vertices met so far, literals for the clause, and how
many vertices of the current level are pending. -/
structure Cut where
  seen : List Key
  learned : List Literal
  pending : Nat
  deriving DecidableEq

def Cut.start : Cut := ⟨[], [], 0⟩

/-- Takes vertices into the cut. -/
def Cut.visit (g : ImplicationGraph) (level : Int) : List Key → Cut → Except Fault Cut
  | [], cut => .ok cut
  | key :: rest, cut =>
    if key ∈ cut.seen then visit g level rest cut
    else
      match g.vertex key with
      | .error f => .error f
      | .ok v =>
        if v.level = level then
          visit g level rest { cut with seen := key :: cut.seen, pending := cut.pending + 1 }
        else if v.level < level then
          match v.literal with
          | none => .error (.absentPart .negation)
          | some l =>
            visit g level rest
              { cut with seen := key :: cut.seen, learned := cut.learned ++ [l.negate] }
        else .error (.violation (.vertexAbove v level))

/-- Walks entries, replacing each pending one by its predecessors, until one is left. -/
def resolve (g : ImplicationGraph) (level : Int) : List Entry → Cut → Except Fault (Entry × Cut)
  | [], _ => .error .outOfRange
  | e :: earlier, cut =>
    if some e.symbol ∉ cut.seen then resolve g level earlier cut
    else if e.level ≠ level then .error (.violation (.resolvedBelow e))
    else if cut.pending - 1 = 0 then .ok (e, cut)
    else
      match g.predecessors (some e.symbol) with
      | .error f => .error f
      | .ok keys =>
        match Cut.visit g level keys { cut with pending := cut.pending - 1 } with
        | .error f => .error f
        | .ok cut => resolve g level earlier cut

/-- The highest level at which the variables of literals are held, zero for none. -/
def highestLevel (t : Trail) : List Literal → Except Fault Int
  | [] => .ok 0
  | l :: rest =>
    match t.entryFor? l.symbol with
    | none => .error (.absentPart .level)
    | some e =>
      match rest with
      | [] => .ok e.level
      | _ => (highestLevel t rest).map (max e.level)

end Analysis

open Analysis in
/-- Analyses the conflict of a graph at a positive level. -/
def analyzeConflict (g : ImplicationGraph) (t : Trail) (level : Int) : Except Fault Analysis :=
  if level ≤ 0 then .error (.violation .noActiveDecision)
  else if g.conflict?.isNone then .error (.violation .nothingToAnalyze)
  else do
    let cut ← Cut.visit g level (← g.predecessors none) Cut.start
    if cut.pending = 0 then throw (.violation (.conflictElsewhere level))
    let latestFirst := t.entries.reverse
    let (point, cut) ← resolve g level (latestFirst ++ latestFirst) cut
    let target ← highestLevel t cut.learned
    if target < 0 ∨ level ≤ target then throw (.violation (.targetNotBelow target level))
    return ⟨point.literal, target, .ofLiterals (point.literal.negate :: cut.learned) true⟩

end Backjump
