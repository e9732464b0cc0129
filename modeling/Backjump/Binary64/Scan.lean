import Backjump.Binary64
import Backjump.Text.Numeral

/-! Decimals as tables hold them: a sign, digits with a point among them or without, and
a power of ten, with blanks around. However many digits there are, the number is the
one nearest to the decimal; beyond the range of binary64 it is infinite, and below it
zero. -/
namespace Backjump.Binary64

def isAsciiBlank (c : Char) : Bool := c == ' ' || (9 ≤ c.toNat && c.toNat ≤ 13)

def isAsciiDigit (c : Char) : Bool := '0' ≤ c && c ≤ '9'

/-- A sign in front, and what follows it. -/
def splitSign : List Char → Bool × List Char
  | '-' :: rest => (true, rest)
  | '+' :: rest => (false, rest)
  | text => (false, text)

/-- The exponent at the start of a text and what follows it; `none` for a mark without digits. -/
def scanExponent : List Char → Option (Int × List Char)
  | [] => some (0, [])
  | c :: rest =>
    if c == 'e' || c == 'E' then
      let (negative, rest) := splitSign rest
      let digits := rest.takeWhile isAsciiDigit
      if digits.isEmpty then none
      else
        let n : Int := Text.valueAfter 0 digits
        some (if negative then -n else n, rest.dropWhile isAsciiDigit)
    else some (0, c :: rest)

def scanDecimal? (text : List Char) : Option Binary64 := do
  let (negative, rest) := splitSign (text.dropWhile isAsciiBlank)
  let whole := rest.takeWhile isAsciiDigit
  let rest := rest.dropWhile isAsciiDigit
  let (fraction, rest) :=
    match rest with
    | '.' :: rest => (rest.takeWhile isAsciiDigit, rest.dropWhile isAsciiDigit)
    | rest => ([], rest)
  guard !(whole.isEmpty && fraction.isEmpty)
  let (exponent, rest) ← scanExponent rest
  guard (rest.all isAsciiBlank)
  return ofDecimal negative (Text.valueAfter 0 (whole ++ fraction)) (exponent - fraction.length)

/-- The words for infinite numbers, in lower case. -/
def infinityWords : List (String × Bool) :=
  [("inf", false), ("+inf", false), ("infinity", false), ("+infinity", false), ("-inf", true),
   ("-infinity", true)]

/-- Reads a decimal or a word for an infinite number. -/
def scan? (text : String) : Option Binary64 :=
  match scanDecimal? text.toList with
  | some x => some x
  | none => (infinityWords.lookup (text.map Char.toLower)).map infinite

end Backjump.Binary64
