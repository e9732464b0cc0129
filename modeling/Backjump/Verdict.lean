import Backjump.Literal
import Backjump.OrderedMap

/-! Answers to a satisfiability problem: a model, or that there is none. -/
namespace Backjump

/-- `α` is the type of a variable's value: `Bool` where every variable has one. -/
inductive Verdict (α : Type) where
  | satisfiable (assignment : OrderedMap Symbol α)
  | unsatisfiable
  deriving DecidableEq

namespace Verdict

variable {α : Type}

def isSatisfiable : Verdict α → Bool
  | satisfiable _ => true
  | unsatisfiable => false

/-- Models are compared as functions: the order of their variables does not count. -/
def sameAnswer [DecidableEq α] : Verdict α → Verdict α → Bool
  | satisfiable a, satisfiable b => a.sameEntries b
  | unsatisfiable, unsatisfiable => true
  | _, _ => false

def description (valueText : α → String) : Verdict α → String
  | satisfiable a =>
    let pairs := a.entries.map fun p => p.1.quoted ++ ": " ++ valueText p.2
    "Satisfiable(\x7b" ++ String.intercalate ", " pairs ++ "\x7d)"
  | unsatisfiable => "Unsatisfiable()"

end Verdict

end Backjump
