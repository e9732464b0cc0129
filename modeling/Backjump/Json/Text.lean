import Backjump.Basic
import Backjump.Binary64.Printed
import Backjump.Json
import Backjump.Text.Quoted

/-! Values as text for people, where a value of a document is put into a line or
a table. Text stands as it is; within lists and records it is quoted. -/
namespace Backjump.Json

def kind : Json → Kind
  | null => .nothing
  | bool _ => .truth
  | integer _ => .integer
  | real _ => .real
  | string _ => .text
  | array _ => .sequence
  | object _ => .record

/-- Empty and zero values count as false. -/
def isTruthy : Json → Bool
  | null => false
  | bool b => b
  | integer n => n != 0
  | real x => !x.equal (.finite false 0)
  | string s => !s.isEmpty
  | array items => !items.isEmpty
  | object members => !members.isEmpty

mutual

def described : Json → String
  | null => "None"
  | bool b => if b then "True" else "False"
  | integer n => Text.signedNumeral n
  | real x => x.shortest
  | string s => Text.quoted s
  | array items => "[" ++ String.intercalate ", " (describedItems items) ++ "]"
  | object members => "\x7b" ++ String.intercalate ", " (describedMembers members) ++ "\x7d"

def describedItems : List Json → List String
  | [] => []
  | item :: rest => described item :: describedItems rest

def describedMembers : List (String × Json) → List String
  | [] => []
  | (name, value) :: rest => (Text.quoted name ++ ": " ++ described value) :: describedMembers rest

end

def shown : Json → String
  | string s => s
  | value => value.described

end Backjump.Json
