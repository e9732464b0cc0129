import Backjump.Binary64

/-! JSON values. Whole numbers are exact, all others are binary64; the members of
an object keep the order of the text, and of two members with one name the
later value stands at the earlier place. -/
namespace Backjump

inductive Json where
  | null
  | bool (value : Bool)
  | integer (value : Int)
  | real (value : Binary64)
  | string (value : String)
  | array (items : List Json)
  | object (members : List (String × Json))
  deriving Inhabited

namespace Json

/-- Writes a member: in place if the name is there, last otherwise. -/
def setMember (members : List (String × Json)) (name : String) (value : Json) :
    List (String × Json) :=
  match members with
  | [] => [(name, value)]
  | (key, old) :: rest =>
    if key = name then (key, value) :: rest else (key, old) :: setMember rest name value

def ofMembers (pairs : List (String × Json)) : Json :=
  object (pairs.foldl (fun members p => setMember members p.1 p.2) [])

def member? (j : Json) (name : String) : Option Json :=
  match j with
  | object members => members.lookup name
  | _ => none

end Json

end Backjump
