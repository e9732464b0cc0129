import Backjump.Binary64.Printed
import Backjump.Json
import Backjump.Text.Quoted

/-! JSON text in plain ASCII, each item and each member on a line of its own, two
blanks deeper than what holds it. Numbers that are none are written as `NaN`,
`Infinity` and `-Infinity`. -/
namespace Backjump.Json

/-- A scalar value as one or two escapes of four hexadecimal digits. -/
def unicodeEscape (code : Nat) : String :=
  if code < 0x10000 then "\\u" ++ Text.hexadecimal 4 code
  else
    "\\u" ++ Text.hexadecimal 4 (0xd800 + (code - 0x10000) / 0x400) ++
      "\\u" ++ Text.hexadecimal 4 (0xdc00 + (code - 0x10000) % 0x400)

def escapedChar (c : Char) : String :=
  if c = '"' then "\\\""
  else if c = '\\' then "\\\\"
  else if c = '\n' then "\\n"
  else if c = '\r' then "\\r"
  else if c = '\t' then "\\t"
  else if c.toNat = 8 then "\\b"
  else if c.toNat = 12 then "\\f"
  else if 32 ≤ c.toNat ∧ c.toNat < 127 then c.toString
  else unicodeEscape c.toNat

def quotedText (s : String) : String := "\"" ++ String.join (s.toList.map escapedChar) ++ "\""

def realText : Binary64 → String
  | .infinite negative => if negative then "-Infinity" else "Infinity"
  | .nan => "NaN"
  | x => x.shortest

def newLine (depth : Nat) : String := "\n" ++ String.ofList (List.replicate (2 * depth) ' ')

/-- Lines between brackets; nothing at all between them if there are none. -/
def bracketed (depth : Nat) (left right : String) (lines : List String) : String :=
  if lines.isEmpty then left ++ right
  else
    left ++ newLine (depth + 1) ++ String.intercalate ("," ++ newLine (depth + 1)) lines ++
      newLine depth ++ right

mutual

def textAt (depth : Nat) : Json → String
  | null => "null"
  | bool b => if b then "true" else "false"
  | integer n => Text.signedNumeral n
  | real x => realText x
  | string s => quotedText s
  | array items => bracketed depth "[" "]" (itemTexts (depth + 1) items)
  | object members => bracketed depth "\x7b" "\x7d" (memberTexts (depth + 1) members)

def itemTexts (depth : Nat) : List Json → List String
  | [] => []
  | item :: rest => textAt depth item :: itemTexts depth rest

def memberTexts (depth : Nat) : List (String × Json) → List String
  | [] => []
  | (name, value) :: rest => (quotedText name ++ ": " ++ textAt depth value) :: memberTexts depth rest

end

def text (j : Json) : String := textAt 0 j

end Backjump.Json
