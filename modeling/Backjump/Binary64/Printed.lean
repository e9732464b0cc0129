import Backjump.Binary64
import Backjump.Text.Numeral

/-! Numbers as text, in two ways.

With a fixed count of decimal places: the exact binary value is rounded to the nearest
multiple of the last place, a tie to the even one. A minus sign stays in front of
what rounds to zero.

As the shortest decimal that reads back as the number: of all decimals with the fewest
digits that round to the number, it is the one nearest to it; of two equally near ones,
the even one. Candidates are the two neighbours of the exact value among the decimals of
one, two, … seventeen digits, and seventeen digits always suffice. -/
namespace Backjump.Binary64

section Fixed

/-- `n` with a point before its last `places` digits. -/
def pointed (places n : Nat) : String :=
  if places = 0 then Text.numeral n
  else Text.numeral (n / 10 ^ places) ++ "." ++ Text.paddedNumeral places (n % 10 ^ places)

def fixed (places : Nat) : Binary64 → String
  | finite s u =>
    (if s then "-" else "") ++ pointed places (roundQuotient (u * 10 ^ places) one)
  | infinite s => if s then "-inf" else "inf"
  | nan => "nan"

end Fixed

section Shortest

/-- The place of the leading digit of a positive magnitude: `0` for units, `-1` for tenths. -/
def leadingPlace (units : Nat) : Int :=
  ((Text.digits (units * 10 ^ 400 / one)).length : Int) - 401

/-- A magnitude in multiples of `10 ^ place`, as a quotient. -/
def scaled (units : Nat) (place : Int) : Nat × Nat :=
  if 0 ≤ place then (units, one * 10 ^ place.toNat) else (units * 10 ^ (-place).toNat, one)

/-- The whole numbers around a quotient, the nearer one first. -/
def neighbours (num den : Nat) : List Nat :=
  let below := num / den
  let nearest := roundQuotient num den
  if nearest = below then [below, below + 1] else [below + 1, below]

/-- A decimal with so many digits that reads back as the magnitude, by its
significand and the place of its last digit. -/
def decimalOf? (units digits : Nat) : Option (Nat × Int) :=
  let place := leadingPlace units + 1 - digits
  let (num, den) := scaled units place
  ((neighbours num den).find? fun c => ofDecimal false c place == finite false units).map (·, place)

/-- The shortest decimal of a positive magnitude. -/
def shortestDecimal (units : Nat) : Nat × Int :=
  ((List.range' 1 17).findSome? (decimalOf? units)).getD (0, 0)

/-- The digits of a significand without the zeros at its end. -/
def trimmedDigits (significand : Nat) : List Char :=
  ((Text.digits significand).reverse.dropWhile (· == '0')).reverse

/-- Writes `0.d₁d₂… * 10 ^ point`. From `10 ^ 16` on and below `10 ^ -4` an exponent of
at least two digits is used; otherwise a digit stands on each side of the point. -/
def layOut (digits : List Char) (point : Int) : String :=
  if point ≤ -4 ∨ 16 < point then
    let exponent := point - 1
    let fraction := digits.drop 1
    String.ofList (digits.take 1 ++ (if fraction.isEmpty then [] else '.' :: fraction)) ++ "e" ++
      (if exponent < 0 then "-" else "+") ++ Text.paddedNumeral 2 exponent.natAbs
  else if point ≤ 0 then
    "0." ++ String.ofList (List.replicate (-point).toNat '0' ++ digits)
  else
    let whole := point.toNat
    let fraction := digits.drop whole
    String.ofList (digits.take whole ++ List.replicate (whole - digits.length) '0') ++ "." ++
      (if fraction.isEmpty then "0" else String.ofList fraction)

def shortest : Binary64 → String
  | finite s u =>
    (if s then "-" else "") ++
      if u = 0 then "0.0"
      else
        let (significand, place) := shortestDecimal u
        let length := (Text.digits significand).length
        layOut (trimmedDigits significand) (place + length)
  | infinite s => if s then "-inf" else "inf"
  | nan => "nan"

end Shortest

end Backjump.Binary64
