import Backjump.Chart.Library
import Backjump.Chart.Rehearsal.Amounts
import Backjump.Chart.Rehearsal.Table

/-! A library to rehearse charts with. It reads a table and computes with its columns, but paints
nothing: it only refuses a chart of whose labels some are texts and others are missing, and what
it would paint can be looked at bar by bar. -/
namespace Backjump.Chart.Rehearsal

inductive Fault where
  | table (fault : TableFault)
  | amount (fault : AmountFault)
  /-- Bars of which only some have a label. -/
  | missingLabel
  deriving DecidableEq

def Fault.message : Fault → String
  | table fault => fault.message
  | amount fault => fault.message
  | missingLabel => "'value' must be an instance of str or bytes, not a float"

def read (text : String) : Except Fault (String → Option Column) :=
  match Table.ofText text with
  | .error fault => .error (.table fault)
  | .ok t => .ok fun name => (t.column? name).map .ofCells

/-- A sum that makes up for rounding errors, and the error still to make up for. An error
that is not a number is dropped. -/
def addCompensated (sum : Binary64 × Binary64) (x : Binary64) : Binary64 × Binary64 :=
  let corrected := x.sub sum.2
  let total := sum.1.add corrected
  let rest := (total.sub sum.1).sub corrected
  (total, if rest.isNan then .ofInt 0 else rest)

/-- The average of those that are numbers. -/
def average (xs : List Binary64) : Binary64 :=
  let numbers := xs.filter fun x => !x.isNan
  if numbers.isEmpty then .nan
  else (numbers.foldl addCompensated (.ofInt 0, .ofInt 0)).1.div (.ofInt numbers.length)

/-- The extreme of those that are numbers. -/
def extreme (better : Number → Number → Bool) (ns : List Number) : Number :=
  match ns.filter fun n => !n.isNan with
  | [] => .real .nan
  | first :: rest => rest.foldl (fun best n => if better n best then n else best) first

def aggregate (statistic : Statistic) (form : Form) (groups : List (List Number)) : Amounts :=
  match statistic with
  | .average => ⟨.real, groups.map fun ns => .real (average (ns.map Number.nearest))⟩
  | .least => ⟨form, groups.map (extreme fun n best => n.lt best)⟩
  | .greatest => ⟨form, groups.map (extreme fun n best => best.lt n)⟩

/-- Ascending, with what is not a number last. -/
def averageLe (a b : Number) : Bool := if a.isNan then b.isNan else !b.lt a

/-- Puts a bound in the place of the numbers below it. -/
def raise : Number → Amounts → Amounts
  | .real bound, a => a.raisedTo bound
  | .whole _, a => a.withoutNegative

def isText : Value → Bool
  | .text _ => true
  | _ => false

/-- Bars are labelled by their solvers, and where some of them have a text the others need one. -/
def paint (c : BarChart Form Number) : Except Fault Unit :=
  if c.labels.any isText && c.labels.contains .missing then .error .missingLabel else .ok ()

end Rehearsal

open Rehearsal in
/-- The library of rehearsals. -/
def rehearsal : Library where
  Fault := Rehearsal.Fault
  message := Fault.message
  Column := Column
  Form := Form
  Amount := Number
  read := read
  values := Column.values
  numbers c := (Amounts.ofColumn c).mapError .amount
  equal := same
  unique := distinct
  groups values := ((distinct values).filter (· != .missing)).mergeSort le
  aggregate := aggregate
  sort _ key rows := rows.mergeSort fun a b => averageLe (key a) (key b)
  raise := raise
  minus a b := (Amounts.difference a b).mapError .amount
  paint := paint

namespace Rehearsal

/-- A bar as it would be painted. -/
structure Bar where
  label : String
  height : Binary64
  low : Binary64
  high : Binary64
  deriving DecidableEq

/-- The bars of a chart, from its numbers as a painter has them. -/
def bars (c : BarChart Form Number) : List Bar :=
  let ends := c.heights.entries.zip (c.below.entries.zip c.above.entries)
  List.zipWith (fun label (height, down, up) =>
    ⟨label.name, height.nearest, (height.minus down).nearest, (height.plus up).nearest⟩) c.labels ends

end Rehearsal

end Backjump.Chart
