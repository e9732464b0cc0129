import Backjump.Solver.Step

/-! Runs of a solver: so many steps, until a phase comes, or until the search is
over. All end early at a terminal phase and at a fault. A search from the start
never arrives twice at one trail after propagation, and the numbers of entries
per level grow lexicographically, which bounds the steps of a whole search. -/
namespace Backjump.Solver

/-- At most `limit` steps; answers the phases reached. -/
def run : Nat → Solver → Attempt Solver (List Phase)
  | 0, s => (.ok [], s)
  | limit + 1, s =>
    if s.phase.isTerminal then (.ok [], s)
    else
      s.step.andThen fun phase s =>
        (run limit s).andThen fun phases s => (.ok (phase :: phases), s)

/-- Steps until the phase is `goal` or terminal, at most `limit`; answers their number. -/
def runUntil (goal : Phase → Bool) : Nat → Solver → Attempt Solver Nat
  | 0, s => (.ok 0, s)
  | limit + 1, s =>
    if s.phase.isTerminal || goal s.phase then (.ok 0, s)
    else
      s.step.andThen fun _ s => (runUntil goal limit s).andThen fun n s => (.ok (n + 1), s)

/-- Steps that a search over so many variables needs at most. -/
def stepBound (count : Nat) : Nat := 3 * (count + 1) ^ (count + 1) + 2

/-- Runs the search to its end; answers the number of steps made. -/
def finish (s : Solver) : Attempt Solver Nat :=
  s.runUntil (fun _ => false) (stepBound s.trail.scope.length)

/-- Runs the search to its end and answers its verdict. -/
def solve (s : Solver) : Attempt Solver (Option (Verdict Bool)) :=
  s.finish.andThen fun _ s => (.ok s.verdict, s)

end Backjump.Solver
