import Backjump.Text.Numeral
import Backjump.Text.Quoted

/-! Names of propositional variables. Hand-built problems name variables by
text, numbered problems by integers; the number 1 and the text "1" are two
variables that print alike. A key of an implication graph is a variable or,
for the conflict itself, `none`. -/
namespace Backjump

inductive Symbol where
  | name (text : String)
  | number (value : Int)
  deriving DecidableEq

namespace Symbol

def text : Symbol → String
  | name t => t
  | number n => Text.signedNumeral n

/-- The text that tells a name from a number. -/
def quoted : Symbol → String
  | name t => Text.quoted t
  | number n => Text.signedNumeral n

end Symbol

/-- A vertex of an implication graph: a variable, or `none` for the conflict. -/
abbrev Key := Option Symbol

instance : LawfulBEq Key := inferInstance

namespace Key

def text : Key → String
  | none => "None"
  | some s => s.text

def quoted : Key → String
  | none => "None"
  | some s => s.quoted

end Key

/-- What is known of each variable; `none` where nothing is. -/
abbrev Valuation := Symbol → Option Bool

end Backjump
