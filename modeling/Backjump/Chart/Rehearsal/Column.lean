import Backjump.Binary64.Scan
import Backjump.Chart.Value

/-! What the cells of a column stand for. A column whose cells are all whole numbers
is read as whole numbers, one of numbers as real numbers, one of truth words as
truth values, and every other one as text. Some texts stand for a missing value;
with one of them among whole numbers, the column is read as real numbers.

Whole numbers are first tried as 64-bit numbers with a sign. If the first cell that is
none is too great for that, they are tried without a sign, a minus sign being taken on
trust; a column that needs both kinds, or has a missing value beside a number that needs
the second, is text in which nothing is missing. If a minus sign was met or a number is
too great for both, they are whole numbers of any size. -/
namespace Backjump.Chart.Rehearsal

/-- A truth word, in whatever case. -/
def truth? (cell : String) : Option Bool :=
  match cell.map Char.toLower with
  | "true" => some true
  | "false" => some false
  | _ => none

/-- Why a cell is no whole number of a range. -/
inductive NumeralFault where
  | malformed
  | tooGreat
  deriving DecidableEq

/-- A whole number of a range, with a sign and blanks around it. It is too great before anything
behind its digits counts. -/
def integerWithin (least greatest : Int) (cell : String) : Except NumeralFault Int :=
  let (negative, rest) := Binary64.splitSign (cell.toList.dropWhile Binary64.isAsciiBlank)
  let digits := rest.takeWhile Binary64.isAsciiDigit
  let magnitude : Int := Text.valueAfter 0 digits
  let n := if negative then -magnitude else magnitude
  if digits.isEmpty then .error .malformed
  else if n < least || greatest < n then .error .tooGreat
  else if (rest.dropWhile Binary64.isAsciiDigit).all Binary64.isAsciiBlank then .ok n
  else .error .malformed

def leastSigned : Int := -0x8000000000000000

def greatestSigned : Int := 0x7fffffffffffffff

def greatestUnsigned : Int := 0xffffffffffffffff

def signed64 : String → Except NumeralFault Int := integerWithin leastSigned greatestSigned

def hasMinus (cell : String) : Bool :=
  (cell.toList.dropWhile Binary64.isAsciiBlank).head? == some '-'

/-- A 64-bit number without a sign; none for whatever has a minus sign. -/
def unsigned64 (cell : String) : Except NumeralFault (Option Int) :=
  if hasMinus cell then .ok none else (integerWithin 0 greatestUnsigned cell).map some

/-- A whole number of any size, as people type it in ASCII characters. -/
def anyInteger? (cell : String) : Option Int :=
  if cell.toList.all (·.toNat < 128) then Text.readInteger? cell else none

/-- Whether a text looks like a real number: it has a point, or the mark of an exponent behind a
digit, and nothing but signs and spaces before its first digit. -/
def looksReal (digitSeen : Bool) : List Char → Bool
  | [] => false
  | c :: rest =>
    c == '.' ||
      if digitSeen then c == 'e' || c == 'E' || looksReal true rest
      else if c == ' ' || c == '+' || c == '-' then looksReal false rest
      else Binary64.isAsciiDigit c && looksReal true rest

inductive ColumnType where
  /-- Whole numbers of 64 bits with a sign. -/
  | signed
  /-- Such numbers with missing ones among them, as real numbers. -/
  | gapped
  /-- Whole numbers of 64 bits without a sign. -/
  | unsigned
  /-- Whole numbers of any size. -/
  | large
  | reals
  | truths
  | texts
  /-- Text in which nothing is missing. -/
  | verbatim
  deriving DecidableEq

namespace ColumnType

/-- The type of cells that are no whole numbers throughout. -/
def ofMixed (filled : List String) : ColumnType :=
  if filled.all fun c => (Binary64.scan? c).isSome then reals
  else if filled.all fun c => (truth? c).isSome then truths
  else texts

/-- The type of whole numbers that 64 bits cannot hold. -/
def ofLarge (filled : List String) : ColumnType :=
  if filled.all fun c => (anyInteger? c).isSome then large else texts

/-- The type of cells of which one is too great for 64 bits with a sign. -/
def ofUnsigned (filled : List String) (complete : Bool) : ColumnType :=
  match filled.mapM unsigned64 with
  | .error .malformed => ofMixed filled
  | .error .tooGreat => ofLarge filled
  | .ok numbers =>
    let signs := numbers.contains none
    let beyond := numbers.any fun n => n.any (greatestSigned < ·)
    if beyond && (signs || !complete) then verbatim
    else if signs then ofLarge filled
    else unsigned

/-- What the cells of a column are read as. -/
def ofCells (cells : List String) : ColumnType :=
  let filled := cells.filter fun c => !isMissingWord c
  let complete := filled.length == cells.length
  if filled.any fun c => looksReal false c.toList then ofMixed filled
  else
    match filled.mapM signed64 with
    | .ok _ => if complete then signed else gapped
    | .error .malformed => ofMixed filled
    | .error .tooGreat => ofUnsigned filled complete

/-- A cell of a column of a type. -/
def value (type : ColumnType) (cell : String) : Value :=
  if type = .verbatim then .text cell
  else if isMissingWord cell then .missing
  else
    match type with
    | .signed => (signed64 cell).toOption.elim .missing .integer
    | .gapped => (signed64 cell).toOption.elim .missing fun n => .real (.ofInt n)
    | .unsigned => (unsigned64 cell).toOption.join.elim .missing .integer
    | .large => (anyInteger? cell).elim .missing .integer
    | .reals => (Binary64.scan? cell).elim .missing .real
    | .truths => (truth? cell).elim .missing .truth
    | .texts | .verbatim => .text cell

end ColumnType

structure Column where
  type : ColumnType
  values : List Value
  deriving DecidableEq

def Column.ofCells (cells : List String) : Column :=
  let type := ColumnType.ofCells cells
  ⟨type, cells.map type.value⟩

/-- Equality of values; a missing one differs from itself. -/
def same : Value → Value → Bool
  | .missing, _ => false
  | .real x, .real y => x.equal y
  | a, b => a == b

/-- The order within a column. -/
def le : Value → Value → Bool
  | .integer m, .integer n => m ≤ n
  | .real x, .real y => !y.lt x
  | .truth a, .truth b => !a || b
  | .text s, .text t => s ≤ t
  | _, _ => true

/-- The different values in order of first appearance, a missing one once. -/
def distinct (values : List Value) : List Value :=
  values.foldl (fun seen v =>
    if seen.any fun w => same w v || w.isMissing && v.isMissing then seen else seen ++ [v]) []

end Backjump.Chart.Rehearsal
