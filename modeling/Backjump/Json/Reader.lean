import Backjump.Json
import Backjump.Text.Numeral

/-! Reading JSON text. The three words for numbers that are none (`NaN`,
`Infinity`, `-Infinity`) are accepted; a control character inside a string, a
zero in front of further digits and text behind the value are not. Arrays and
objects nest to a limit, and whole numbers have a limited number of digits; of
several faults the first in the text counts. Reading spends at least one
character per step, so the length of the text bounds it. -/
namespace Backjump.Json

/-- How many arrays and objects may lie in one another. -/
def nestingLimit : Nat := 980

/-- Why a text cannot be read. -/
inductive ReadFault where
  | malformed
  | nestedArray
  | nestedObject
  | tooManyDigits (count : Nat)
  deriving DecidableEq

def ReadFault.message : ReadFault → String
  | malformed => "the text is no JSON value"
  | nestedArray =>
    "maximum recursion depth exceeded while decoding a JSON array from a unicode string"
  | nestedObject =>
    "maximum recursion depth exceeded while decoding a JSON object from a unicode string"
  | tooManyDigits count => Text.tooManyDigits count

/-- A value at the start of a text, and what follows it. -/
abbrev Reading (α : Type) := Except ReadFault (α × List Char)

def skipBlanks (text : List Char) : List Char :=
  text.dropWhile fun c => c == ' ' || c == '\t' || c == '\n' || c == '\r'

def hexDigit? (c : Char) : Option Nat :=
  let n := c.toNat
  if 48 ≤ n ∧ n ≤ 57 then some (n - 48)
  else if 97 ≤ n ∧ n ≤ 102 then some (n - 87)
  else if 65 ≤ n ∧ n ≤ 70 then some (n - 55)
  else none

def hexValue? (a b c d : Char) : Option Nat := do
  return (((← hexDigit? a) * 16 + (← hexDigit? b)) * 16 + (← hexDigit? c)) * 16 + (← hexDigit? d)

/-- The scalar value of a surrogate pair. -/
def joinSurrogates? (high low : Nat) : Option Nat :=
  if 0xd800 ≤ high ∧ high < 0xdc00 ∧ 0xdc00 ≤ low ∧ low < 0xe000 then
    some (0x10000 + (high - 0xd800) * 0x400 + (low - 0xdc00))
  else none

def simpleEscape? (c : Char) : Option Char :=
  match c with
  | '"' => some '"'
  | '\\' => some '\\'
  | '/' => some '/'
  | 'b' => some (Char.ofNat 8)
  | 'f' => some (Char.ofNat 12)
  | 'n' => some '\n'
  | 'r' => some '\r'
  | 't' => some '\t'
  | _ => none

/-- The pieces of a string up to the closing quote, each the code of a character
or of half a surrogate pair, and what follows them. -/
def readPieces : List Char → Option (List Nat × List Char)
  | [] => none
  | '"' :: rest => some ([], rest)
  | '\\' :: 'u' :: a :: b :: c :: d :: rest =>
    match hexValue? a b c d with
    | some code => (readPieces rest).map fun r => (code :: r.1, r.2)
    | none => none
  | '\\' :: c :: rest =>
    match simpleEscape? c with
    | some escaped => (readPieces rest).map fun r => (escaped.toNat :: r.1, r.2)
    | none => none
  | c :: rest =>
    if c.toNat < 32 ∨ c = '\\' then none
    else (readPieces rest).map fun r => (c.toNat :: r.1, r.2)

/-- Joins surrogate pairs. -/
def joinPieces : List Nat → List Char
  | [] => []
  | [code] => [Char.ofNat code]
  | first :: second :: rest =>
    match joinSurrogates? first second with
    | some joined => Char.ofNat joined :: joinPieces rest
    | none => Char.ofNat first :: joinPieces (second :: rest)

def readString (text : List Char) : Option (List Char × List Char) :=
  (readPieces text).map fun r => (joinPieces r.1, r.2)

def isAsciiDigit (c : Char) : Bool := '0' ≤ c && c ≤ '9'

def digitsValue (digits : List Char) : Nat :=
  digits.foldl (fun sum c => sum * 10 + (c.toNat - 48)) 0

/-- A fraction part: its digits, if a digit follows the point. -/
def readFraction (text : List Char) : List Char × List Char :=
  match text with
  | '.' :: rest =>
    let digits := rest.takeWhile isAsciiDigit
    if digits.isEmpty then ([], text) else (digits, rest.dropWhile isAsciiDigit)
  | _ => ([], text)

/-- An exponent part, if it is complete. -/
def readExponent (text : List Char) : Option Int × List Char :=
  let ofDigits (negative : Bool) (rest : List Char) : Option Int × List Char :=
    let digits := rest.takeWhile isAsciiDigit
    if digits.isEmpty then (none, text)
    else
      let n : Int := digitsValue digits
      (some (if negative then -n else n), rest.dropWhile isAsciiDigit)
  match text with
  | e :: '-' :: rest => if e = 'e' ∨ e = 'E' then ofDigits true rest else (none, text)
  | e :: '+' :: rest => if e = 'e' ∨ e = 'E' then ofDigits false rest else (none, text)
  | e :: rest => if e = 'e' ∨ e = 'E' then ofDigits false rest else (none, text)
  | [] => (none, text)

/-- A number without its sign. -/
def readMagnitude (negative : Bool) (text : List Char) : Reading Json :=
  let (whole, rest) :=
    match text with
    | '0' :: rest => (['0'], rest)
    | _ => (text.takeWhile isAsciiDigit, text.dropWhile isAsciiDigit)
  if whole.isEmpty then .error .malformed
  else
    let (fraction, rest) := readFraction rest
    let (exponent, rest) := readExponent rest
    if fraction.isEmpty ∧ exponent.isNone then
      if Text.maxDigits < whole.length then .error (.tooManyDigits whole.length)
      else
        let n : Int := digitsValue whole
        .ok (integer (if negative then -n else n), rest)
    else
      let scale := exponent.getD 0 - fraction.length
      .ok (real (Binary64.ofDecimal negative (digitsValue (whole ++ fraction)) scale), rest)

/-- What a word stands for, if the text begins with it. -/
def readWord (word : String) (meaning : Json) (text : List Char) : Reading Json :=
  if word.toList.isPrefixOf text then .ok (meaning, text.drop word.length) else .error .malformed

def readText (text : List Char) : Reading String :=
  (readString text).elim (.error .malformed) fun r => .ok (String.ofList r.1, r.2)

def readScalar (text : List Char) : Reading Json :=
  match text with
  | '"' :: rest => (readText rest).map fun r => (string r.1, r.2)
  | 'n' :: _ => readWord "null" null text
  | 't' :: _ => readWord "true" (bool true) text
  | 'f' :: _ => readWord "false" (bool false) text
  | 'N' :: _ => readWord "NaN" (real .nan) text
  | 'I' :: _ => readWord "Infinity" (real (.infinite false)) text
  | '-' :: 'I' :: _ => readWord "-Infinity" (real (.infinite true)) text
  | '-' :: rest => readMagnitude true rest
  | _ => readMagnitude false text

mutual

/-- Reads one value at the start of a text, spending `fuel`; `depth` more arrays and
objects may be opened. -/
def readValue (fuel depth : Nat) (text : List Char) : Reading Json :=
  match fuel with
  | 0 => .error .malformed
  | fuel + 1 =>
    match text, depth with
    | '[' :: _, 0 => .error .nestedArray
    | '[' :: rest, depth + 1 =>
      match skipBlanks rest with
      | ']' :: rest => .ok (array [], rest)
      | rest => (readItems fuel depth rest).map fun r => (array r.1, r.2)
    | '\x7b' :: _, 0 => .error .nestedObject
    | '\x7b' :: rest, depth + 1 =>
      match skipBlanks rest with
      | '\x7d' :: rest => .ok (object [], rest)
      | rest => (readMembers fuel depth rest).map fun r => (ofMembers r.1, r.2)
    | _, _ => readScalar text

def readItems (fuel depth : Nat) (text : List Char) : Reading (List Json) :=
  match fuel with
  | 0 => .error .malformed
  | fuel + 1 =>
    match readValue fuel depth text with
    | .error f => .error f
    | .ok (item, rest) =>
      match skipBlanks rest with
      | ',' :: rest => (readItems fuel depth (skipBlanks rest)).map fun r => (item :: r.1, r.2)
      | ']' :: rest => .ok ([item], rest)
      | _ => .error .malformed

def readMembers (fuel depth : Nat) (text : List Char) : Reading (List (String × Json)) :=
  match fuel with
  | 0 => .error .malformed
  | fuel + 1 =>
    match text with
    | '"' :: rest =>
      match readText rest with
      | .error f => .error f
      | .ok (name, rest) =>
        match skipBlanks rest with
        | ':' :: rest =>
          match readValue fuel depth (skipBlanks rest) with
          | .error f => .error f
          | .ok (value, rest) =>
            match skipBlanks rest with
            | ',' :: rest =>
              (readMembers fuel depth (skipBlanks rest)).map fun r => ((name, value) :: r.1, r.2)
            | '\x7d' :: rest => .ok ([(name, value)], rest)
            | _ => .error .malformed
        | _ => .error .malformed
    | _ => .error .malformed

end

/-- Reads a text that holds one value and nothing else. -/
def read (text : String) : Except ReadFault Json := do
  let chars := text.toList
  let (value, rest) ← readValue (2 * chars.length + 2) nestingLimit (skipBlanks chars)
  if (skipBlanks rest).isEmpty then return value else throw .malformed

/-- The value in a text, if it can be read. -/
def read? (text : String) : Option Json := (read text).toOption

end Backjump.Json
