import Backjump.Trail.Entry
import Backjump.Graph.Vertex

/-! What can go wrong while solving. A violation is a state of trail, graph or
search that correct bookkeeping never reaches; the other faults are a spent
budget, look-ups that find nothing, and parts that are not there. The wording
of each is given once, in `Fault.message`. -/
namespace Backjump

inductive Violation where
  | alreadyAssigned (symbol : Symbol) (holder : Entry)
  | notInFormula (symbol : Symbol)
  | belowTop (level top : Int)
  | misplaced (entry : Entry) (position : Nat)
  | decisionLevel (entry : Entry) (expected : Int)
  | impliedLevel (entry : Entry) (expected : Int)
  | decisionCount (decisions : Nat) (level : Int)
  | assignedAndOpen (symbols : List Symbol)
  | scopeNotCovered
  | holdersDiffer
  | vertexExists (symbol : Symbol) (vertex : Vertex)
  | conflictExists
  | missingEndpoint (source target : Key)
  | noActiveDecision
  | nothingToAnalyze
  | vertexAbove (vertex : Vertex) (level : Int)
  | conflictElsewhere (level : Int)
  | resolvedBelow (entry : Entry)
  | targetNotBelow (target level : Int)
  | noDecisionVertex (level : Int)
  | nothingToReach
  | unreachedConflict (level : Int)
  | falsifiedModel
  | conflictPending
  | nothingToDecide
  | targetAbove (target level : Int)
  | graphDiffers
  | vertexDiffers (vertex : Vertex) (entry : Entry)
  | edgeCount (vertex : Vertex)
  | conflictPresence (phase : String)
  deriving DecidableEq

/-- A part of an entry or a vertex that is asked for where there is none. -/
inductive Part where
  | level
  | index
  | negation
  deriving DecidableEq

inductive Fault where
  | violation (v : Violation)
  | budgetExhausted (steps : Nat)
  | absentKey (key : Key)
  | outOfRange
  | absentPart (part : Part)
  | noAnalysis
  | noScores
  | endlessPaths
  deriving DecidableEq

namespace Violation

def levelText (n : Int) : String := Text.signedNumeral n

def message : Violation → String
  | alreadyAssigned s holder => "Variable " ++ s.text ++ " is already assigned by " ++ holder.text
  | notInFormula s => "Variable " ++ s.text ++ " is not part of the formula"
  | belowTop level top =>
    "Level " ++ levelText level ++ " is below the trail top level " ++ levelText top
  | misplaced e position => e.text ++ " is stored at position " ++ Text.numeral position
  | decisionLevel e expected => "Decision " ++ e.text ++ " does not open level " ++ levelText expected
  | impliedLevel e expected => "Implied " ++ e.text ++ " is not at level " ++ levelText expected
  | decisionCount decisions level =>
    "Trail holds " ++ Text.numeral decisions ++ " decisions but the solver is at level " ++
      levelText level
  | assignedAndOpen symbols =>
    "Variables both assigned and unassigned: \x7b" ++
      String.intercalate ", " (symbols.map Symbol.quoted) ++ "\x7d"
  | scopeNotCovered => "Assigned and unassigned variables do not cover the universe"
  | holdersDiffer => "Assignment and trail entries disagree"
  | vertexExists s v => "Variable " ++ s.text ++ " already has vertex " ++ v.text
  | conflictExists => "The graph already holds a conflict vertex"
  | missingEndpoint source target =>
    "Edge " ++ source.text ++ " -> " ++ target.text ++ " references a missing vertex"
  | noActiveDecision => "Conflict analysis requires at least one active decision"
  | nothingToAnalyze => "Conflict analysis called without a conflict vertex"
  | vertexAbove v level =>
    "Vertex " ++ v.text ++ " lies above the current level " ++ levelText level
  | conflictElsewhere level =>
    "Conflict at level " ++ levelText level ++ " involves no assignment of that level"
  | resolvedBelow e => "Resolution reached " ++ e.text ++ " below the conflict level"
  | targetNotBelow target level =>
    "Backtrack level " ++ levelText target ++ " is outside [0, " ++ levelText level ++ ")"
  | noDecisionVertex level => "No decision vertex at level " ++ levelText level
  | nothingToReach => "UIP search called without a conflict vertex"
  | unreachedConflict level =>
    "The decision at level " ++ levelText level ++ " does not reach the conflict"
  | falsifiedModel => "Total assignment reached a fixpoint without satisfying the formula"
  | conflictPending => "Propagation requested while a conflict is pending"
  | nothingToDecide => "Decision requested while every variable is assigned"
  | targetAbove target level =>
    "Backtrack level " ++ levelText target ++ " is outside [0, " ++ levelText level ++ "]"
  | graphDiffers => "Implication graph vertices and assigned variables differ"
  | vertexDiffers v e => "Vertex " ++ v.text ++ " does not match " ++ e.text
  | edgeCount v => "Vertex " ++ v.text ++ " has the wrong number of incoming edges"
  | conflictPresence phase => "Conflict vertex presence does not match state " ++ phase

end Violation

def Part.label : Part → String
  | .level => "level"
  | .index => "index"
  | .negation => "negate"

def Fault.message : Fault → String
  | violation v => v.message
  | budgetExhausted steps =>
    "Search stopped after " ++ Text.numeral steps ++ " steps without an answer"
  | absentKey key => key.quoted
  | outOfRange => "list index out of range"
  | absentPart part => "'NoneType' object has no attribute '" ++ part.label ++ "'"
  | noAnalysis => "cannot unpack non-iterable NoneType object"
  | noScores => "'OrderedDecider' object has no attribute 'score'"
  | endlessPaths => "the paths of the graph run in a circle"

/-- The answer of an operation on a state that may fail, and the state that it
leaves in either case. -/
abbrev Attempt (σ α : Type) (ε : Type := Fault) := Except ε α × σ

namespace Attempt

variable {σ α β ε : Type}

/-- Goes on after success; a fault ends the operation where it arose. -/
def andThen (attempt : Attempt σ α ε) (next : α → σ → Attempt σ β ε) : Attempt σ β ε :=
  match attempt with
  | (.ok a, s) => next a s
  | (.error f, s) => (.error f, s)

@[simp] theorem andThen_ok (a : α) (s : σ) (next : α → σ → Attempt σ β ε) :
    andThen (.ok a, s) next = next a s := rfl

@[simp] theorem andThen_error (f : ε) (s : σ) (next : α → σ → Attempt σ β ε) :
    andThen (.error f, s) next = (.error f, s) := rfl

end Attempt

end Backjump
