import Backjump.Text.Blank

/-! Whole numbers in decimal. A numeral is the shortest one of a natural number, with a
minus sign in front for negative integers. `valueAfter` reads its digits back and
`valueAfter_digits` says that nothing is lost. People type integers in more ways:
with blanks around, a sign, decimal digits of any script, and single underscores
between digits. -/
namespace Backjump.Text

/-- The digit character worth `n`, for `n` below ten. -/
def digitChar (n : Nat) : Char := Char.ofNat (48 + n)

/-- The digits of `n`, most significant first, put in front of `tail`. -/
def digitsOnto (n : Nat) (tail : List Char) : List Char :=
  if n < 10 then digitChar n :: tail else digitsOnto (n / 10) (digitChar (n % 10) :: tail)
termination_by n

def digits (n : Nat) : List Char := digitsOnto n []

/-- Reads characters worth `48 + d` each as one decimal number, after `seen`. -/
def valueAfter (seen : Nat) (text : List Char) : Nat :=
  text.foldl (fun sum c => sum * 10 + (c.toNat - 48)) seen

def numeral (n : Nat) : String := String.ofList (digits n)

def signedNumeral (n : Int) : String :=
  if n < 0 then "-" ++ numeral n.natAbs else numeral n.natAbs

/-- Digits padded on the left to at least `width` characters. -/
def paddedNumeral (width n : Nat) : String :=
  String.ofList (List.replicate (width - (digits n).length) '0' ++ digits n)

theorem toNat_digitChar {n : Nat} (h : n < 10) : (digitChar n).toNat = 48 + n := by
  have table : ∀ n < 10, (digitChar n).toNat = 48 + n := by decide
  exact table n h

theorem valueAfter_digitChar {d : Nat} (h : d < 10) (seen : Nat) (tail : List Char) :
    valueAfter seen (digitChar d :: tail) = valueAfter (seen * 10 + d) tail := by
  rw [valueAfter, List.foldl_cons, toNat_digitChar h, Nat.add_sub_cancel_left, valueAfter]

theorem valueAfter_digitsOnto (n : Nat) (tail : List Char) :
    valueAfter 0 (digitsOnto n tail) = valueAfter n tail := by
  fun_induction digitsOnto n tail with
  | case1 n tail h => rw [valueAfter_digitChar h, Nat.zero_mul, Nat.zero_add]
  | case2 n tail h ih =>
    rw [ih, valueAfter_digitChar (Nat.mod_lt n (by decide)), Nat.div_add_mod']

theorem valueAfter_digits (n : Nat) : valueAfter 0 (digits n) = n :=
  valueAfter_digitsOnto n []

section Reading

/-- The scalar value of each script's zero, ascending: the characters of general category Nd of
Unicode 14 are ten in a row for each script. -/
def digitZeros : List Nat :=
  [48, 1632, 1776, 1984, 2406, 2534, 2662, 2790, 2918, 3046, 3174, 3302, 3430, 3558, 3664, 3792,
   3872, 4160, 4240, 6112, 6160, 6470, 6608, 6784, 6800, 6992, 7088, 7232, 7248, 42528, 43216,
   43264, 43472, 43504, 43600, 44016, 65296, 66720, 68912, 69734, 69872, 69942, 70096, 70384,
   70736, 70864, 71248, 71360, 71472, 71904, 72016, 72784, 73040, 73120, 92768, 92864, 93008,
   120782, 120792, 120802, 120812, 120822, 123200, 123632, 125264, 130032]

/-- The worth of a decimal digit of any script. -/
def digitValue? (c : Char) : Option Nat :=
  (digitZeros.find? fun first => first ≤ c.toNat && c.toNat < first + 10).map (c.toNat - ·)

/-- The most digits that a numeral may have to be read. -/
def maxDigits : Nat := 4300

/-- What is said of a numeral with too many digits. -/
def tooManyDigits (count : Nat) : String :=
  "Exceeds the limit (" ++ numeral maxDigits ++
    " digits) for integer string conversion: value has " ++ numeral count ++
    " digits; use sys.set_int_max_str_digits() to increase the limit"

def isDigit (c : Char) : Bool := (digitValue? c).isSome

/-- In a text of ASCII characters alone the four separator controls are no blanks. -/
def isAsciiBlank (c : Char) : Bool := (9 ≤ c.toNat && c.toNat ≤ 13) || c == ' '

/-- Digit values of a text in which every underscore stands between two digits. -/
def digitGroups? : List Char → Option (List Nat)
  | [] => none
  | [c] => (digitValue? c).map ([·])
  | c :: '_' :: rest => do return (← digitValue? c) :: (← digitGroups? rest)
  | c :: rest => do return (← digitValue? c) :: (← digitGroups? rest)

def readInteger? (text : String) : Option Int :=
  let chars := text.toList
  let blank := if chars.all (·.toNat < 128) then isAsciiBlank else isBlank
  let magnitude (rest : List Char) : Option Int := do
    let digits ← digitGroups? rest
    guard (digits.length ≤ maxDigits)
    return (digits.foldl (fun sum d => sum * 10 + d) 0 : Nat)
  match trimWith blank chars with
  | '-' :: rest => (magnitude rest).map (- ·)
  | '+' :: rest => magnitude rest
  | rest => magnitude rest

end Reading

end Backjump.Text
