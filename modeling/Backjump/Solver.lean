import Backjump.Analysis
import Backjump.Decider
import Backjump.Verdict

/-! The state of a search. A solver owns a formula that learned clauses are
appended to, a trail, an implication graph and a decider; its phase says which
transition comes next. It keeps counters, the answer once there is one, a log
of what it did and, if asked to, a snapshot after every transition. -/
namespace Backjump

inductive Phase where
  | propagate
  | fixpoint
  | conflict
  | backtrack
  | decide
  | satisfied
  | unsatisfiable
  deriving DecidableEq

namespace Phase

def name : Phase → String
  | propagate => "PROPAGATE"
  | fixpoint => "FIXPOINT"
  | conflict => "CONFLICT"
  | backtrack => "BACKTRACK"
  | decide => "DECIDE"
  | satisfied => "SATISFIED"
  | unsatisfiable => "UNSATISFIABLE"

def lowerName : Phase → String
  | propagate => "propagate"
  | fixpoint => "fixpoint"
  | conflict => "conflict"
  | backtrack => "backtrack"
  | decide => "decide"
  | satisfied => "satisfied"
  | unsatisfiable => "unsatisfiable"

def isTerminal : Phase → Bool
  | satisfied => true
  | unsatisfiable => true
  | _ => false

/-- The phases in which the graph holds a conflict vertex. -/
def expectsConflict : Phase → Bool
  | conflict => true
  | backtrack => true
  | unsatisfiable => true
  | _ => false

end Phase

/-- What a solver reports while it works. -/
inductive Event where
  | falsified (place : Nat) (clause : Clause) (level : Int)
  | implied (place : Nat) (literal : Literal) (level : Int)
  | decided (literal : Literal) (level : Int)
  | analysed (analysis : Analysis) (level : Int)
  | backjumped (target : Int) (undone : Nat) (learned : Option Clause)
  | satisfied (decisions conflicts : Nat)
  | refuted
  deriving DecidableEq

def Event.message : Event → String
  | falsified place c level =>
    "clause " ++ Text.numeral place ++ " " ++ c.text ++ " falsified at level " ++
      Text.signedNumeral level
  | implied place l level =>
    "clause " ++ Text.numeral place ++ " implies " ++ l.text ++ " at level " ++
      Text.signedNumeral level
  | decided l level => "decide " ++ l.text ++ " at level " ++ Text.signedNumeral level
  | analysed a level =>
    "first UIP " ++ a.point.text ++ " at level " ++ Text.signedNumeral level ++ ", learned " ++
      a.clause.text ++ ", backjump to " ++ Text.signedNumeral a.target
  | backjumped target undone learned =>
    "backjump to level " ++ Text.signedNumeral target ++ ", " ++ Text.numeral undone ++
      " assignments undone, learned " ++ learned.elim "None" Clause.text
  | satisfied decisions conflicts =>
    "satisfied after " ++ Text.numeral decisions ++ " decisions and " ++ Text.numeral conflicts ++
      " conflicts"
  | refuted => "conflict at level 0, formula is unsatisfiable"

structure TrailItem where
  literal : Literal
  level : Int
  antecedent : Option Int
  deriving DecidableEq

/-- A picture of a solver between two transitions. -/
structure Snapshot where
  step : Nat
  phase : Phase
  level : Int
  trail : List TrailItem
  graph : GraphView
  learned : Option Clause
  clauseCount : Nat
  deriving DecidableEq

def Snapshot.isConflict (s : Snapshot) : Bool := s.graph.vertices.any VertexView.isConflict

inductive SetupFault where
  | unknownStrategy
  | budgetNotPositive
  | malformed (fault : MalformedClause)
  deriving DecidableEq

def SetupFault.message : SetupFault → String
  | unknownStrategy =>
    "Strategy must be one of [" ++
      String.intercalate ", " (Strategy.all.map fun s => Text.quoted s.name) ++ "]"
  | budgetNotPositive => "max_steps must be a positive integer or None"
  | malformed fault => fault.message

/-- How to solve: `budget` bounds the transitions, `checks` verifies the state
after each of them, `records` keeps a snapshot after each of them. -/
structure Setup where
  strategy : Strategy
  budget : Option Nat
  checks : Bool
  records : Bool
  deriving DecidableEq

/-- Checks what a caller asks for; `none` stands for a strategy that is no name at all. -/
def Setup.read (strategy : Option String) (budget : Option Int) (checks records : Bool) :
    Except SetupFault Setup :=
  match strategy.bind Strategy.ofName? with
  | none => .error .unknownStrategy
  | some strategy =>
    match budget with
    | none => .ok ⟨strategy, none, checks, records⟩
    | some n =>
      if n ≤ 0 then .error .budgetNotPositive else .ok ⟨strategy, some n.toNat, checks, records⟩

/-- `inputSize` counts the clauses that were given, `pending` is an analysis whose
backjump is due, `lastLearned` the clause of the latest one. -/
structure Solver where
  setup : Setup
  formula : Formula
  inputSize : Nat
  trail : Trail
  graph : ImplicationGraph
  decider : Decider
  level : Int
  phase : Phase
  pending : Option Analysis
  lastLearned : Option Clause
  verdict : Option (Verdict Bool)
  steps : Nat
  decisions : Nat
  conflicts : Nat
  propagations : Nat
  history : Array Snapshot
  log : Array Event
  deriving DecidableEq

namespace Solver

/-- The clauses learned so far. -/
def learnedClauses (s : Solver) : List Clause := s.formula.clauses.drop s.inputSize

def snapshot (s : Solver) : Snapshot :=
  ⟨s.steps, s.phase, s.level, s.trail.entries.map fun e => ⟨e.literal, e.level, e.antecedent⟩,
    s.graph.view, s.lastLearned, s.formula.size⟩

def record (s : Solver) : Solver :=
  if s.setup.records then { s with history := s.history.push s.snapshot } else s

def report (s : Solver) (e : Event) : Solver := { s with log := s.log.push e }

/-- A solver that has done nothing yet. -/
def start (setup : Setup) (f : Formula) : Solver :=
  record
    { setup := setup, formula := f, inputSize := f.size, trail := Trail.start f.symbols,
      graph := .empty, decider := Decider.make setup.strategy f, level := 0, phase := .propagate,
      pending := none, lastLearned := none, verdict := none, steps := 0, decisions := 0,
      conflicts := 0, propagations := 0, history := #[], log := #[] }

/-- A solver for clauses as a caller gives them; the setup is checked first. -/
def ofInputs (setup : Except SetupFault Setup) (inputs : List Clause.Input) :
    Except SetupFault Solver :=
  match setup with
  | .error e => .error e
  | .ok setup =>
    match Formula.read inputs with
    | .error e => .error (.malformed e)
    | .ok f => .ok (start setup f)

end Solver

end Backjump
