/-! Places in a list, and kinds of values. A place counts from the front; a negative place
counts from the back, so `-1` is the last element. A place outside the list holds
nothing. Where a value of the wrong kind is handed in, the message names its kind. -/
namespace Backjump

section Places

/-- The place `i` of a list of `size` elements, counted from the front. -/
def resolvePlace (size : Nat) (i : Int) : Option Nat :=
  let fromFront := if i < 0 then i + size else i
  if 0 ≤ fromFront ∧ fromFront < size then some fromFront.toNat else none

def elementAt? {α : Type u} (xs : List α) (i : Int) : Option α :=
  (resolvePlace xs.length i).bind (xs[·]?)

theorem resolvePlace_natCast {size n : Nat} (h : n < size) : resolvePlace size n = some n := by
  simp [resolvePlace, show ¬((n : Int) < 0) by omega, h]

theorem elementAt?_natCast {α : Type u} (xs : List α) (n : Nat) : elementAt? xs n = xs[n]? := by
  by_cases h : n < xs.length
  · simp [elementAt?, resolvePlace_natCast h]
  · have : ¬((n : Int) < xs.length) := by omega
    simp [elementAt?, resolvePlace, show ¬((n : Int) < 0) by omega, this,
      List.getElem?_eq_none (Nat.le_of_not_lt h)]

end Places

/-- What a value is, wherever one of another kind may be due. -/
inductive Kind where
  | nothing
  | truth
  | integer
  | real
  | text
  | sequence
  | record
  | literal
  deriving DecidableEq

/-- The name of a kind in messages. -/
def Kind.label : Kind → String
  | .nothing => "NoneType"
  | .truth => "bool"
  | .integer => "int"
  | .real => "float"
  | .text => "str"
  | .sequence => "list"
  | .record => "dict"
  | .literal => "Literal"

end Backjump
