import Backjump.Text.Numeral

/-! Tables read back from text. A field in quotes may hold commas, line breaks and
doubled quotes; a quote further on in a field stands for itself. A line ends with a
line feed, a carriage return, or both. Lines of blanks are skipped. The first line
names the columns. Short rows are filled up with empty fields; if the first row is
longer than the line of names, its surplus stands in front and belongs to no named
column, and no later row may be longer. The first fault from the front counts.

A carriage return is less of a line end than a line feed: a comma behind it that
follows a row ends the row and an empty field of the next, a comma behind an empty
line is dropped, and blanks that turn out to begin a row bring back what was skipped
since the last row or line feed. Behind the line of names they bring back that line
too, unless it ended with a line feed: it is then the first row as well. -/
namespace Backjump.Chart.Rehearsal

inductive TableFault where
  | noColumns
  | unclosedQuote (lines : Nat)
  | tooManyFields (expected line seen : Nat)
  deriving DecidableEq

def TableFault.message : TableFault → String
  | noColumns => "No columns to parse from file"
  | unclosedQuote lines =>
    "Error tokenizing data. C error: EOF inside string starting at row " ++ Text.numeral lines
  | tooManyFields expected line seen =>
    "Error tokenizing data. C error: Expected " ++ Text.numeral expected ++ " fields in line " ++
      Text.numeral line ++ ", saw " ++ Text.numeral seen ++ "\n"

def isBlank (c : Char) : Bool := c == ' ' || c == '\t'

/-- What the search for the next row has just met: the start of a line, a carriage return that
ended an empty one, or blanks. -/
inductive Skipped where
  | nothing
  | carriageReturn
  | blanks
  deriving DecidableEq

/-- Where the next row begins, if there is one, and the number of lines before it. `mark` is
where the row begins if blanks are its first characters. -/
def nextRow (mark : List Char) (skipped : Skipped) (lines : Nat) :
    List Char → Nat × Option (List Char)
  | [] => (lines, none)
  | c :: rest =>
    if skipped = .carriageReturn && c == '\n' then nextRow rest .nothing lines rest
    else if skipped = .carriageReturn && c == ',' then nextRow mark .nothing lines rest
    else if c == '\n' then nextRow rest .nothing (lines + 1) rest
    else if c == '\r' then nextRow mark .carriageReturn (lines + 1) rest
    else if isBlank c then nextRow mark .blanks lines rest
    else (lines, some (if skipped = .blanks then mark else c :: rest))

/-- Where a character falls within a row: `quoteSeen` follows a quote within quotes, which ends
the quoted part unless another quote comes; `returnSeen` follows a carriage return. -/
inductive Mode where
  | fieldStart
  | plain
  | quoted
  | quoteSeen
  | returnSeen
  deriving DecidableEq

/-- How a row ends, with the text that follows. -/
inductive RowEnd where
  /-- Behind the line end. -/
  | line (rest : List Char)
  /-- Behind a comma that follows a carriage return. -/
  | comma (rest : List Char)
  | text
  | openQuote
  deriving DecidableEq

/-- Reads the fields of a row; `field` and `fields` were read before, latest first. -/
def readRow (mode : Mode) (field : List Char) (fields : List String) :
    List Char → List String × RowEnd
  | [] =>
    match mode with
    | .quoted => (fields.reverse, .openQuote)
    | .returnSeen => (fields.reverse, .text)
    | _ => ((String.ofList field.reverse :: fields).reverse, .text)
  | c :: rest =>
    if mode = .returnSeen then
      (fields.reverse,
        if c == '\n' then .line rest else if c == ',' then .comma rest else .line (c :: rest))
    else if mode = .quoted then
      if c == '"' then readRow .quoteSeen field fields rest
      else readRow .quoted (c :: field) fields rest
    else if mode = .fieldStart && c == '"' then readRow .quoted field fields rest
    else if mode = .quoteSeen && c == '"' then readRow .quoted (c :: field) fields rest
    else if c == '\n' then ((String.ofList field.reverse :: fields).reverse, .line rest)
    else if c == '\r' then readRow .returnSeen [] (String.ofList field.reverse :: fields) rest
    else if c == ',' then readRow .fieldStart [] (String.ofList field.reverse :: fields) rest
    else readRow .plain (c :: field) fields rest

/-- Puts a row in front of the rows before it, the latest first, as long as the one just before
it; only the first row below the names may be longer than that. -/
def addRow (line : Nat) (rows : List (List String)) (row : List String) :
    Except TableFault (List (List String)) :=
  match rows with
  | [] => .ok [row]
  | previous :: earlier =>
    if !earlier.isEmpty && previous.length < row.length then
      .error (.tooManyFields previous.length line row.length)
    else .ok ((row ++ List.replicate (previous.length - row.length) "") :: rows)

/-- What follows the last line feed among the first `count` characters of a text; `mark` if
there is none. -/
def lineStart (mark : List Char) : Nat → List Char → List Char
  | 0, _ | _, [] => mark
  | count + 1, c :: rest => lineStart (if c == '\n' then rest else mark) count rest

/-- Where blanks in front of the next row lead back to: the first row below the names shares
its mark with them. -/
def markOf (whole : List Char) (rows : List (List String)) (text : List Char) : List Char :=
  match rows with
  | [_] => lineStart whole (whole.length - text.length) whole
  | _ => text

/-- Reads the rows behind `rows` in the text `whole`, of which there are at most `fuel`; `opened`
says that an empty field of the next was read already. Answers all rows, the latest first. -/
def readRows (whole : List Char) (fuel : Nat) (opened : Bool) (lines : Nat)
    (rows : List (List String)) (text : List Char) : Except TableFault (List (List String)) :=
  match fuel with
  | 0 => .ok rows
  | fuel + 1 =>
    match
      if opened then (lines, some text)
      else nextRow (markOf whole rows text) .nothing lines text with
    | (_, none) => .ok rows
    | (lines, some text) =>
      match readRow .fieldStart [] (if opened then [""] else []) text with
      | (_, .openQuote) => .error (.unclosedQuote lines)
      | (row, .text) => addRow (lines + 1) rows row
      | (row, .line rest) => do
        readRows whole fuel false (lines + 1) (← addRow (lines + 1) rows row) rest
      | (row, .comma rest) => do
        readRows whole fuel true (lines + 1) (← addRow (lines + 1) rows row) rest

/-- The rows of a text. A byte order mark in front is no part of it. Every row takes at least
one character, and at most one is read twice. -/
def scan (text : List Char) : Except TableFault (List (List String)) :=
  let text := if text.head? = some '\ufeff' then text.tail else text
  (readRows text (text.length + 3) false 0 [] text).map List.reverse

structure Table where
  header : List String
  rows : List (List String)
  deriving DecidableEq

namespace Table

def ofRows : List (List String) → Except TableFault Table
  | [] => .error .noColumns
  | header :: rows =>
    let surplus := (rows.head?.elim 0 List.length) - header.length
    .ok ⟨header, rows.map (·.drop surplus)⟩

def ofText (text : String) : Except TableFault Table := do ofRows (← scan text.toList)

/-- The cells of the first column of a name. -/
def column? (t : Table) (name : String) : Option (List String) :=
  if t.header.contains name then
    some (t.rows.map fun row => (row[t.header.idxOf name]?).getD "")
  else none

end Table

end Backjump.Chart.Rehearsal
