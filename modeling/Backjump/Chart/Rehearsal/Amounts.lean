import Backjump.Chart.Library
import Backjump.Chart.Rehearsal.Column

/-! The numbers of a column, with the form in which they are kept. Whole numbers of 64
bits stay whole as long as nothing real is put among them, and differences of such
numbers are exact, or wrap around if there is no sign. Of truth values no difference is
taken. A column of truth values with real numbers put among them is `mixed`: it keeps each
as it is. -/
namespace Backjump.Chart.Rehearsal

inductive Form where
  | signed
  | unsigned
  | real
  | truth
  | mixed
  deriving DecidableEq

abbrev Amounts : Type := Series Form Number

inductive AmountFault where
  /-- A whole number that is no binary64 number. -/
  | tooLarge
  | truthDifference
  deriving DecidableEq

def AmountFault.message : AmountFault → String
  | tooLarge => "int too large to convert to float"
  | truthDifference =>
    "numpy boolean subtract, the `-` operator, is not supported, " ++
      "use the bitwise_xor, the `^` operator, or the logical_xor function instead."

namespace Amounts

/-- Whether a text is a whole number with more digits than whole numbers are read with. -/
def isOverlong (s : String) : Bool :=
  let (_, rest) := Binary64.splitSign (s.toList.dropWhile Binary64.isAsciiBlank)
  Text.maxDigits < (rest.takeWhile Binary64.isAsciiDigit).length &&
    (rest.dropWhile Binary64.isAsciiDigit).all Binary64.isAsciiBlank

/-- The number that a value counts for; whatever is none is not a number. -/
def number : Value → Number
  | .missing => .real .nan
  | .integer n => .whole n
  | .real x => .real x
  | .truth b => .whole (if b then 1 else 0)
  | .text s => .real (if isOverlong s then .nan else (Binary64.scan? s).getD .nan)

def asReal (n : Number) : Number := .real n.nearest

/-- The numbers in a column. Those of any size are made real, which the greatest cannot be. -/
def ofColumn (c : Column) : Except AmountFault Amounts :=
  let numbers := c.values.map number
  match c.type with
  | .signed => .ok ⟨.signed, numbers⟩
  | .unsigned => .ok ⟨.unsigned, numbers⟩
  | .truths =>
    if c.values.contains .missing then .ok ⟨.real, numbers.map asReal⟩ else .ok ⟨.truth, numbers⟩
  | .large =>
    if numbers.all fun n => n.toBinary64?.isSome then .ok ⟨.real, numbers.map asReal⟩
    else .error .tooLarge
  | _ => .ok ⟨.real, numbers⟩

/-- Whether a number is not below a bound. -/
def reaches (bound n : Number) : Bool := !n.lt bound

/-- Puts a real bound in the place of the numbers below it. -/
def raisedTo (bound : Binary64) (a : Amounts) : Amounts :=
  if a.entries.all (reaches (.real bound)) then a
  else
    let raised := a.entries.map fun n => if reaches (.real bound) n then n else .real bound
    match a.form with
    | .truth | .mixed => ⟨.mixed, raised⟩
    | _ => ⟨.real, raised.map asReal⟩

/-- Puts zero in the place of the numbers below it. -/
def withoutNegative (a : Amounts) : Amounts :=
  let zero := match a.form with
    | .real => .real (.ofInt 0)
    | _ => .whole 0
  { a with entries := a.entries.map fun n => if reaches zero n then n else zero }

/-- The form of a difference. -/
def differenceForm : Form → Form → Option Form
  | .mixed, _ | _, .mixed => some .mixed
  | .real, _ | _, .real => some .real
  | .truth, .truth => none
  | .signed, .unsigned | .unsigned, .signed => some .real
  | .unsigned, _ | _, .unsigned => some .unsigned
  | _, _ => some .signed

/-- A difference in a form. -/
def differenceIn (form : Form) (a b : Number) : Number :=
  match form, a, b with
  | .unsigned, .whole m, .whole n => .whole ((m - n) % (greatestUnsigned + 1))
  | .real, a, b => .real (a.nearest.sub b.nearest)
  | _, a, b => a.minus b

/-- The differences of numbers at the same places. -/
def difference (a b : Amounts) : Except AmountFault Amounts :=
  match differenceForm a.form b.form with
  | none => .error .truthDifference
  | some form => .ok ⟨form, List.zipWith (differenceIn form) a.entries b.entries⟩

end Amounts

end Backjump.Chart.Rehearsal
