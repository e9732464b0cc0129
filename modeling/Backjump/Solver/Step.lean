import Backjump.Solver.Consistency
import Backjump.Solver.Search

/-! The search as a machine that makes one transition per step. A step first looks
whether the search is over, then whether the budget is spent, and only then
changes anything. A transition that fails leaves what it had done. -/
namespace Backjump.Solver

/-- A variable with its value. -/
def binding (s : Solver) (x : Symbol) : Except Fault (Symbol × Bool) :=
  match s.trail.assignment.get? x with
  | some value => .ok (x, value)
  | none => .error (.absentKey (some x))

/-- The values of the variables in scope; the first without a value decides the fault. -/
def model (s : Solver) : Except Fault (OrderedMap Symbol Bool) :=
  (s.trail.scope.mapM s.binding).map OrderedMap.ofList

/-- At a fixpoint: decide while a variable is open, otherwise answer with a model. -/
def settle (s : Solver) : Attempt Solver Phase :=
  if s.trail.unassigned ≠ [] then (.ok .decide, s)
  else
    match s.model with
    | .error f => (.error f, s)
    | .ok m =>
      if !s.formula.isSatisfied m.get? then (.error (.violation .falsifiedModel), s)
      else
        (.ok .satisfied, report { s with verdict := some (.satisfiable m) }
          (.satisfied s.decisions s.conflicts))

/-- At a conflict: refute at level zero, otherwise analyse. -/
def resolveConflict (s : Solver) : Attempt Solver Phase :=
  let s := { s with conflicts := s.conflicts + 1 }
  if s.level = 0 then
    (.ok .unsatisfiable, report { s with verdict := some .unsatisfiable } .refuted)
  else
    (s.analyze s.level).andThen fun a s =>
      (.ok .backtrack, { s with pending := some a, lastLearned := some a.clause })

/-- After an analysis: go back and learn. -/
def backjump (s : Solver) : Attempt Solver Phase :=
  match s.pending with
  | none => (.error .noAnalysis, s)
  | some a =>
    (backtrack { s with pending := none } a.target (some a.clause)).andThen fun _ s =>
      (.ok .propagate, s)

/-- The transition of the current phase. -/
def transition (s : Solver) : Attempt Solver Phase :=
  match s.phase with
  | .propagate =>
    s.propagate.andThen fun place s => (.ok (if place.isNone then .fixpoint else .conflict), s)
  | .fixpoint => s.settle
  | .conflict => s.resolveConflict
  | .backtrack => s.backjump
  | .decide => s.decide.andThen fun _ s => (.ok .propagate, s)
  | phase => (.ok phase, s)

/-- Whether the budget allows no further transition. -/
def exhausted (s : Solver) : Bool := s.setup.budget.any fun n => n ≤ s.steps

def step (s : Solver) : Attempt Solver Phase :=
  if s.phase.isTerminal then (.ok s.phase, s)
  else if s.exhausted then (.error (.budgetExhausted s.steps), s)
  else
    s.transition.andThen fun phase s =>
      let s := { s with phase := phase, steps := s.steps + 1 }
      match if s.setup.checks then s.checkInvariants else .ok () with
      | .error f => (.error f, s)
      | .ok () => (.ok phase, s.record)

end Backjump.Solver
