import Backjump.Binary64
import Backjump.Formula
import Backjump.OrderedMap

/-! Scores of literals. Each occurrence in a clause of `n` literals adds `2 ^ -n`,
so short clauses count most. A score is a non-negative binary64 number, held as
a whole number of its units; sums are rounded after every addition, in clause
order, and the weight of a clause too long for the smallest unit is zero.
Scores are natural numbers, hence linearly ordered. -/
namespace Backjump

/-- A score in units of `2 ^ -1074`. -/
abbrev Score := Nat

namespace Score

/-- The weight of one occurrence in a clause of the given size. -/
def weight (size : Nat) : Score := if size ≤ 1074 then 2 ^ (1074 - size) else 0

/-- The rounded sum. -/
def add (a b : Score) : Score := Binary64.roundUnits (a + b) 1

end Score

/-- The scores of a variable's two literals. -/
structure Weights where
  positive : Score
  negative : Score
  deriving DecidableEq

namespace Weights

def none : Weights := ⟨0, 0⟩

/-- The better of the two scores. -/
def score (w : Weights) : Score := max w.positive w.negative

/-- The polarity with the better score; the positive one on a tie. -/
def polarity (w : Weights) : Bool := w.negative ≤ w.positive

def add (w : Weights) (positive : Bool) (amount : Score) : Weights :=
  if positive then { w with positive := w.positive.add amount }
  else { w with negative := w.negative.add amount }

end Weights

/-- The weights of a formula's variables, in the order of the variables. -/
def Formula.weights (f : Formula) : OrderedMap Symbol Weights :=
  let zeros := OrderedMap.ofList (f.symbols.map fun s => (s, Weights.none))
  f.clauses.foldl (fun weights c =>
    c.literals.foldl (fun weights l =>
      weights.adjust l.symbol fun w => w.add l.positive (Score.weight c.size)) weights) zeros

end Backjump
