import Backjump.Text.Blank
import Backjump.Text.Numeral

/-! Clauses in DIMACS text. Numerals are runs of decimal digits of any script
with an optional minus sign in front; everything else between them is ignored.
A `0` closes a clause, whatever the line breaks; a last clause left open is
kept. Lines that begin with `c` or `p` are skipped, and a line that begins
with `%` ends the text. Repeats inside a clause are dropped. -/
namespace Backjump.Dimacs

inductive Fault where
  /-- A numeral with more digits than are read. -/
  | tooManyDigits (count : Nat)
  deriving DecidableEq

def Fault.message : Fault → String
  | tooManyDigits count => Text.tooManyDigits count

/-- A numeral as written: its sign and the worth of its digits. -/
structure Numeral where
  negative : Bool
  digits : List Nat
  deriving DecidableEq

namespace Numeral

/-- Sums digits, most significant first. -/
def magnitude (n : Numeral) : Nat := n.digits.foldl (fun sum d => sum * 10 + d) 0

def value (n : Numeral) : Except Fault Int :=
  if n.digits.length ≤ Text.maxDigits then
    .ok (if n.negative then -(n.magnitude : Int) else n.magnitude)
  else .error (.tooManyDigits n.digits.length)

end Numeral

/-- The leading digits of a text and what follows them. -/
def spanDigits : List Char → List Nat × List Char
  | [] => ([], [])
  | c :: rest =>
    match Text.digitValue? c with
    | some d => ((d :: (spanDigits rest).1), (spanDigits rest).2)
    | none => ([], c :: rest)

theorem length_spanDigits_le (text : List Char) : (spanDigits text).2.length ≤ text.length := by
  induction text with
  | nil => simp [spanDigits]
  | cons c rest ih =>
    unfold spanDigits
    split
    · simp only [List.length_cons]; omega
    · simp

/-- The numerals of a line, from the left. A minus sign counts when a digit follows it. -/
def numerals : List Char → List Numeral
  | [] => []
  | c :: rest =>
    match Text.digitValue? c with
    | some d => ⟨false, d :: (spanDigits rest).1⟩ :: numerals (spanDigits rest).2
    | none =>
      if c = '-' ∧ (spanDigits rest).1 ≠ [] then
        ⟨true, (spanDigits rest).1⟩ :: numerals (spanDigits rest).2
      else numerals rest
termination_by text => text.length
decreasing_by
  · have := length_spanDigits_le rest; simp only [List.length_cons]; omega
  · have := length_spanDigits_le rest; simp only [List.length_cons]; omega
  · simp

/-- What one line is there for. -/
inductive Line where
  | skipped
  | ending
  | clauses (numerals : List Numeral)

def Line.ofText (text : List Char) : Line :=
  match Text.trim text with
  | [] => .skipped
  | c :: rest =>
    if c = '%' then .ending
    else if c = 'c' ∨ c = 'p' then .skipped
    else .clauses (numerals (c :: rest))

/-- The numerals of a text, up to its ending. -/
def tokens : List (List Char) → List Numeral
  | [] => []
  | line :: rest =>
    match Line.ofText line with
    | .skipped => tokens rest
    | .ending => []
    | .clauses ns => ns ++ tokens rest

/-- Closed clauses and, last, the one still open if it has a literal. -/
def group (pending : List Int) : List Int → List (List Int)
  | [] => if pending.isEmpty then [] else [pending.eraseDups]
  | n :: rest => if n = 0 then pending.eraseDups :: group [] rest else group (pending ++ [n]) rest

/-- Reads the clauses of a text; the first numeral that is too long decides the error. -/
def parse (text : List Char) : Except Fault (List (List Int)) :=
  ((tokens (Text.lines text)).mapM Numeral.value).map (group [])

end Backjump.Dimacs
