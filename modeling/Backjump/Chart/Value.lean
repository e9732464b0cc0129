import Backjump.Binary64.Printed

/-! The values of a table. A value that is missing is like a number that is none: it has the
same name, and equals nothing. Some texts stand for a missing value. -/
namespace Backjump.Chart

inductive Value where
  | missing
  | integer (n : Int)
  | real (x : Binary64)
  | truth (b : Bool)
  | text (s : String)
  deriving DecidableEq

namespace Value

/-- A value as part of a name. -/
def name : Value → String
  | missing => "nan"
  | integer n => Text.signedNumeral n
  | real x => x.shortest
  | truth b => if b then "True" else "False"
  | text s => s

def isMissing : Value → Bool
  | missing => true
  | real x => x.isNan
  | _ => false

end Value

/-- Cells that hold no value. -/
def missingWords : List String :=
  ["", "#N/A", "#N/A N/A", "#NA", "-1.#IND", "-1.#QNAN", "-NaN", "-nan", "1.#IND", "1.#QNAN",
   "<NA>", "N/A", "NA", "NULL", "NaN", "None", "n/a", "nan", "null"]

def isMissingWord (cell : String) : Bool := missingWords.contains cell

end Backjump.Chart
