import Backjump.Literal

/-! Entries of the trail: a literal made true, the level at which that happened,
and why. `index` is the place that the entry was given on the trail. -/
namespace Backjump

/-- `antecedent` is the place of the forcing clause in the formula, `none` for a decision. -/
structure Entry where
  literal : Literal
  level : Int
  antecedent : Option Int
  index : Int
  deriving DecidableEq

namespace Entry

def symbol (e : Entry) : Symbol := e.literal.symbol

def isDecision (e : Entry) : Bool := e.antecedent.isNone

def text (e : Entry) : String :=
  let reason :=
    match e.antecedent with
    | none => "decision"
    | some clause => "clause " ++ Text.signedNumeral clause
  "TrailEntry(" ++ e.literal.text ++ "@" ++ Text.signedNumeral e.level ++ ", " ++ reason ++ ")"

end Entry

end Backjump
