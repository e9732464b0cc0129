import Backjump.Chart.Value
import Backjump.Number

/-! What charts leave to others. A library reads tables, compares and sorts the values in their
columns, computes with the numbers, and paints. What the charts need of it is listed here;
how a column of numbers is kept, and what can go wrong, is its own affair. -/
namespace Backjump.Chart

inductive Colour where
  | skyBlue
  | salmon
  | lightGreen
  | orchid
  | mediumSeaGreen
  deriving DecidableEq

/-- The shares of red, green and blue. -/
def Colour.code : Colour → String
  | skyBlue => "#87ceeb"
  | salmon => "#fa8072"
  | lightGreen => "#90ee90"
  | orchid => "#da70d6"
  | mediumSeaGreen => "#3cb371"

/-- Numbers of one form. -/
structure Series (Form Amount : Type) where
  form : Form
  entries : List Amount
  deriving DecidableEq

/-- Bars side by side, each with a label, a height, and a line that reaches below and above its top. -/
structure BarChart (Form Amount : Type) where
  path : String
  title : String
  quantity : String
  colour : Colour
  labels : List Value
  heights : Series Form Amount
  below : Series Form Amount
  above : Series Form Amount
  deriving DecidableEq

def BarChart.legend {Form Amount : Type} (c : BarChart Form Amount) : List String :=
  ["Average " ++ c.quantity, "Min/Max Range"]

/-- What several numbers come to. -/
inductive Statistic where
  | average
  | least
  | greatest
  deriving DecidableEq

structure Library where
  Fault : Type
  message : Fault → String
  Column : Type
  Form : Type
  Amount : Type
  /-- The columns of the table in a text, by their names. -/
  read : String → Except Fault (String → Option Column)
  values : Column → List Value
  /-- The numbers in a column, whatever is none being not a number. -/
  numbers : Column → Except Fault (Series Form Amount)
  equal : Value → Value → Bool
  /-- The different values, in order of first appearance. -/
  unique : List Value → List Value
  /-- The different values that are there, in ascending order. -/
  groups : List Value → List Value
  /-- What each of some groups of numbers comes to. -/
  aggregate : Statistic → Form → List (List Amount) → Series Form Amount
  /-- Rows in the order of a column. -/
  sort : {α : Type} → Form → (α → Amount) → List α → List α
  /-- Puts a bound in the place of the numbers below it. -/
  raise : Number → Series Form Amount → Series Form Amount
  minus : Series Form Amount → Series Form Amount → Except Fault (Series Form Amount)
  /-- Paints a chart and saves it at its path. -/
  paint : BarChart Form Amount → Except Fault Unit

namespace Library

variable (L : Library)

abbrev Numbers : Type := Series L.Form L.Amount

abbrev Plot : Type := BarChart L.Form L.Amount

end Library

end Backjump.Chart
