import Backjump.Solver.Run

/-! Solving one instance of a benchmark. The solver runs without its own checks;
instead a model is checked against the clauses that were given. -/
namespace Backjump.Benchmark

/-- The counters of a finished search. -/
structure Effort where
  decisions : Nat
  conflicts : Nat
  learned : Nat
  deriving DecidableEq

structure Finding where
  satisfiable : Bool
  effort : Effort
  deriving DecidableEq

inductive InstanceFault where
  | setup (fault : SetupFault)
  | search (fault : Fault)
  | malformed (fault : MalformedClause)
  | falsified
  deriving DecidableEq

def InstanceFault.message : InstanceFault → String
  | setup fault => fault.message
  | search fault => fault.message
  | malformed fault => fault.message
  | falsified => "Solver returned an assignment that falsifies the input"

/-- Accepts a claimed model only if it satisfies the clauses; no model is accepted as it is. -/
def certify (inputs : List Clause.Input) (claim : Option Valuation) (effort : Effort) :
    Except InstanceFault Finding :=
  match claim with
  | none => .ok ⟨false, effort⟩
  | some v =>
    match Formula.readNumbers inputs with
    | .error fault => .error (.malformed fault)
    | .ok f => if f.isSatisfied v then .ok ⟨true, effort⟩ else .error .falsified

def claimOf : Option (Verdict Bool) → Option Valuation
  | some (.satisfiable model) => some model.get?
  | _ => none

def solveInstance (strategy : Option String) (inputs : List Clause.Input) :
    Except InstanceFault Finding :=
  match Solver.ofInputs (Setup.read strategy none false false) inputs with
  | .error fault => .error (.setup fault)
  | .ok s =>
    match s.solve with
    | (.error fault, _) => .error (.search fault)
    | (.ok verdict, s) =>
      certify inputs (claimOf verdict) ⟨s.decisions, s.conflicts, s.learnedClauses.length⟩

end Backjump.Benchmark
