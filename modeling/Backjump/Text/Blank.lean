/-! Blanks and line ends. A blank is a character of Unicode's white space or one
of the four information separators; a line end is any of ten characters, and a
carriage return with the line feed behind it counts as one end. -/
namespace Backjump.Text

def isBlank (c : Char) : Bool :=
  let n := c.toNat
  (9 ≤ n && n ≤ 13) || (28 ≤ n && n ≤ 32) || n == 0x85 || n == 0xa0 || n == 0x1680 ||
    (0x2000 ≤ n && n ≤ 0x200a) || n == 0x2028 || n == 0x2029 || n == 0x202f || n == 0x205f ||
    n == 0x3000

def isLineEnd (c : Char) : Bool :=
  let n := c.toNat
  (10 ≤ n && n ≤ 13) || (28 ≤ n && n ≤ 30) || n == 0x85 || n == 0x2028 || n == 0x2029

/-- The text between line ends; a line end at the very end opens no further line. -/
def lines (text : List Char) : List (List Char) := go [] text
where
  /-- `line` holds the characters of the current line, last first. -/
  go (line : List Char) : List Char → List (List Char)
    | [] => if line.isEmpty then [] else [line.reverse]
    | '\r' :: '\n' :: rest => line.reverse :: go [] rest
    | c :: rest => if isLineEnd c then line.reverse :: go [] rest else go (c :: line) rest

/-- Removes the characters of a class from both ends. -/
def trimWith (blank : Char → Bool) (text : List Char) : List Char :=
  ((text.dropWhile blank).reverse.dropWhile blank).reverse

/-- Removes blanks from both ends. -/
def trim (text : List Char) : List Char := trimWith isBlank text

/-- Writes every line end of a file, `\r\n` and `\r` included, as one line feed. -/
def universalNewlines : List Char → List Char
  | [] => []
  | '\r' :: '\n' :: rest => '\n' :: universalNewlines rest
  | c :: rest => (if c = '\r' then '\n' else c) :: universalNewlines rest

end Backjump.Text
