import Backjump.Basic
import Backjump.Clause.Input

/-! Formulas in conjunctive normal form: a list of clauses that only grows at its
end. The variables are kept in order of first appearance, which fixes a total
order on them. -/
namespace Backjump

structure Formula where
  clauses : List Clause
  deriving DecidableEq

namespace Formula

def size (f : Formula) : Nat := f.clauses.length

/-- The variables of the clauses, each once, in order of first appearance. -/
def symbols (f : Formula) : List Symbol := (f.clauses.flatMap Clause.symbols).eraseDups

def push (f : Formula) (c : Clause) : Formula := ⟨f.clauses ++ [c]⟩

/-- Appends a clause, marking it as learned if asked to. -/
def add (f : Formula) (c : Clause) (learned : Bool) : Formula :=
  f.push (if learned then c.markLearned else c)

def learnedClauses (f : Formula) : List Clause := f.clauses.filter Clause.learned

def isSatisfied (f : Formula) (v : Valuation) : Bool := f.clauses.all (·.isSatisfied v)

def clauseAt? (f : Formula) (i : Int) : Option Clause := elementAt? f.clauses i

def text (f : Formula) : String := String.intercalate " ∧ " (f.clauses.map Clause.text)

/-- Reads clauses in order; the first malformed one decides the error. -/
def readWith (f : Clause.Input → Except MalformedClause Clause) (inputs : List Clause.Input) :
    Except MalformedClause Formula :=
  (inputs.mapM f).map Formula.mk

def read (inputs : List Clause.Input) : Except MalformedClause Formula :=
  readWith (·.read false) inputs

def readNumbers (inputs : List Clause.Input) : Except MalformedClause Formula :=
  readWith (·.readNumbers) inputs

def ofInts (clauses : List (List Int)) : Except MalformedClause Formula :=
  (clauses.mapM Clause.ofInts).map Formula.mk

theorem symbols_nodup (f : Formula) : f.symbols.Nodup := nodup_eraseDups _

end Formula

end Backjump
