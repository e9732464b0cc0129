import Backjump.Symbol

/-! Literals: a variable with the polarity it occurs with. In numbered problems
`3` stands for the variable 3 and `-3` for its negation; `0` ends a clause and
is no literal. -/
namespace Backjump

structure Literal where
  symbol : Symbol
  positive : Bool
  deriving DecidableEq

namespace Literal

def negate (l : Literal) : Literal := ⟨l.symbol, !l.positive⟩

/-- The literal that a non-zero integer stands for. -/
def ofInt? (n : Int) : Option Literal :=
  if n = 0 then none else some ⟨.number n.natAbs, 0 < n⟩

/-- The truth of the literal, `none` while its variable is unknown. -/
def value (l : Literal) (v : Valuation) : Option Bool :=
  (v l.symbol).map (· == l.positive)

def holds (l : Literal) (v : Valuation) : Bool := l.value v == some true

def text (l : Literal) : String :=
  if l.positive then l.symbol.text else "¬" ++ l.symbol.text

/-- How truth values are spelled in descriptions. -/
def truthText (b : Bool) : String := if b then "True" else "False"

/-- The literal spelled out field by field. -/
def description (l : Literal) : String :=
  "Literal(symbol=" ++ l.symbol.quoted ++ ", sign=" ++ truthText l.positive ++ ")"

@[simp] theorem negate_negate (l : Literal) : l.negate.negate = l := by
  simp [negate]

@[simp] theorem symbol_negate (l : Literal) : l.negate.symbol = l.symbol := rfl

end Literal

end Backjump
