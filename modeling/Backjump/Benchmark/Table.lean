import Backjump.Json.Text

/-! Tables as text, one row a line, and names for them. Fields are separated by commas; a field that
holds a comma, a quote or a line break stands in quotes, with its own quotes
doubled. A row of one empty field is written with quotes, so that it differs
from a row without fields.

Where a name is taken, a number in parentheses goes in front of each extension in it, the
least one that gives a free name. Different numbers give different names, so among one more
name than are taken one is free. -/
namespace Backjump.Csv

def needsQuotes (c : Char) : Bool := c == ',' || c == '"' || c == '\r' || c == '\n'

def doubled (c : Char) : List Char := if c == '"' then ['"', '"'] else [c]

def field (text : String) : String :=
  if text.any needsQuotes then "\"" ++ String.ofList (text.toList.flatMap doubled) ++ "\"" else text

/-- A row with its line end. -/
def line (fields : List String) : String :=
  (if fields = [""] then "\"\"" else String.intercalate "," (fields.map field)) ++ "\r\n"

/-- What a value fills a field with; a null leaves it empty. -/
def cellText : Json → String
  | .null => ""
  | value => value.shown

end Backjump.Csv

namespace Backjump.Benchmark

/-- Puts a mark in front of each `.csv`, from the left. -/
def markExtensions (mark : List Char) : List Char → List Char
  | [] => []
  | '.' :: 'c' :: 's' :: 'v' :: rest => mark ++ '.' :: 'c' :: 's' :: 'v' :: markExtensions mark rest
  | c :: rest => c :: markExtensions mark rest

/-- The name with a number. -/
def numberedName (base : String) (n : Nat) : String :=
  String.ofList (markExtensions (" (" ++ Text.numeral n ++ ")").toList base.toList)

/-- The name itself if it is free, otherwise the first free numbered one; `taken` holds of
at most `limit` numbered names. -/
def firstFreeName (taken : String → Bool) (limit : Nat) (base : String) : String :=
  if taken base then
    let free := (List.range' 1 limit).find? fun n => !taken (numberedName base n)
    numberedName base (free.getD (limit + 1))
  else base

end Backjump.Benchmark
