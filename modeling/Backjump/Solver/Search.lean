import Backjump.Solver.Propagation

/-! Deciding, analysing and going back. A decision opens a level of its own. Going
back drops all assignments and vertices above the target, whatever level they
were made at, and appends the learned clause, if there is one. -/
namespace Backjump.Solver

/-- Assigns the decider's choice on a new level. -/
def decide (s : Solver) : Attempt Solver Literal :=
  match s.decider.pick s.trail with
  | none => (.error (.violation .nothingToDecide), s)
  | some l =>
    let s := { s with level := s.level + 1 }
    match s.trail.assign l s.level none with
    | .error f => (.error f, s)
    | .ok trail =>
      let s := { s with trail := trail }
      match s.graph.addVertex l s.level true none with
      | .error f => (.error f, s)
      | .ok graph =>
        (.ok l, report { s with graph := graph, decisions := s.decisions + 1 }
          (.decided l s.level))

/-- Analyses the conflict as one of `level`. -/
def analyze (s : Solver) (level : Int) : Attempt Solver Analysis :=
  match analyzeConflict s.graph s.trail level with
  | .error f => (.error f, s)
  | .ok a => (.ok a, s.report (.analysed a level))

/-- Goes back to a level and appends the learned clause. -/
def backtrack (s : Solver) (target : Int) (learned : Option Clause) : Attempt Solver Unit :=
  if target < 0 ∨ s.level < target then (.error (.violation (.targetAbove target s.level)), s)
  else
    match s.trail.truncate target with
    | (.error f, trail) => (.error f, { s with trail := trail })
    | (.ok removed, trail) =>
      (.ok (), report
        { s with
          trail := trail
          graph := (s.graph.removeAbove target).2
          level := target
          formula := learned.elim s.formula fun c => s.formula.add c true }
        (.backjumped target removed.length learned))

end Backjump.Solver
