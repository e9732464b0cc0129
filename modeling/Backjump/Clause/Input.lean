import Backjump.Basic
import Backjump.Clause

/-! Clauses as callers hand them in: a sequence of literals and of integers,
checked item by item from the left. The first item that stands for no literal
decides the error. -/
namespace Backjump

inductive MalformedClause where
  | terminator
  | notLiteral (kind : Kind)
  | notSequence (kind : Kind)
  deriving DecidableEq

def MalformedClause.message : MalformedClause → String
  | terminator => "0 is a clause terminator, not a literal"
  | notLiteral kind => "bad operand type for abs(): '" ++ kind.label ++ "'"
  | notSequence kind => "'" ++ kind.label ++ "' object is not iterable"

namespace Clause

inductive Item where
  | literal (l : Literal)
  | integer (n : Int)
  | other (kind : Kind)
  deriving DecidableEq

inductive Input where
  | ofItems (items : List Item)
  | other (kind : Kind)
  deriving DecidableEq

/-- Only an integer stands for a literal here. -/
def Item.ofNumber : Item → Except MalformedClause Literal
  | .integer n => (Literal.ofInt? n).elim (.error .terminator) .ok
  | .literal _ => .error (.notLiteral .literal)
  | .other kind => .error (.notLiteral kind)

/-- Literals stand for themselves, integers for the literals they number. -/
def Item.read : Item → Except MalformedClause Literal
  | .literal l => .ok l
  | item => item.ofNumber

def Input.readWith (f : Item → Except MalformedClause Literal) (learned : Bool) :
    Input → Except MalformedClause Clause
  | .ofItems items => (items.mapM f).map (ofLiterals · learned)
  | .other kind => .error (.notSequence kind)

def Input.read (input : Input) (learned : Bool) : Except MalformedClause Clause :=
  input.readWith Item.read learned

/-- Reads a clause that must be written in integers only. -/
def Input.readNumbers (input : Input) : Except MalformedClause Clause :=
  input.readWith Item.ofNumber false

def ofInts (ns : List Int) : Except MalformedClause Clause :=
  Input.readNumbers (.ofItems (ns.map .integer))

end Clause

end Backjump
