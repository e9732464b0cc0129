import Backjump.Solver

/-! The check between transitions: trail, assignment and implication graph must
describe one state. It compares vertices with entries one by one, but of the
edges only the number that enters each vertex. -/
namespace Backjump.Solver

/-- Compares an entry with its vertex. -/
def checkEntry (s : Solver) (e : Entry) : Except Fault Unit := do
  let n ← s.graph.node (some e.symbol)
  let v := n.vertex
  if v.literal ≠ some e.literal ∨ v.level ≠ e.level ∨ v.isDecision ≠ e.isDecision then
    throw (.violation (.vertexDiffers v e))
  let expected ←
    match e.antecedent with
    | none => pure 0
    | some place =>
      match s.formula.clauseAt? place with
      | some c => pure ((c.size : Int) - 1)
      | none => throw .outOfRange
  if (n.predecessors.length : Int) ≠ expected then throw (.violation (.edgeCount v))

def checkInvariants (s : Solver) : Except Fault Unit := do
  match s.trail.checkConsistency s.level with
  | .error v => throw (.violation v)
  | .ok () => pure ()
  if !Trail.sameMembers s.graph.symbols s.trail.assignment.keys then
    throw (.violation .graphDiffers)
  s.trail.entries.forM s.checkEntry
  if s.graph.conflict?.isSome ≠ s.phase.expectsConflict then
    throw (.violation (.conflictPresence s.phase.name))

end Backjump.Solver
