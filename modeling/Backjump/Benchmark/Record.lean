import Backjump.Fault
import Backjump.Json.Text
import Backjump.Number
import Backjump.OrderedMap

/-! What a benchmark keeps of a folder: named values, as the backup holds them.
A backup may have been edited, so a value may be missing or of a wrong kind;
the first use of such a value is a fault, and what was written before stays
written. -/
namespace Backjump.Benchmark

/-- The values of a record. -/
inductive Field where
  | times
  | mems
  | leastMemory
  | greatestMemory
  | inconclusive
  | failed
  | completed
  | completedTests
  | rows
  | decisions
  | conflicts
  | learned
  | sat
  | unsat
  deriving DecidableEq

def Field.label : Field → String
  | times => "times"
  | mems => "mems"
  | leastMemory => "mem_min"
  | greatestMemory => "mem_max"
  | inconclusive => "inconclusive"
  | failed => "failed"
  | completed => "completed"
  | completedTests => "completed_tests"
  | rows => "csv_ready_data"
  | decisions => "decisions"
  | conflicts => "conflicts"
  | learned => "learned"
  | sat => "sat"
  | unsat => "unsat"

/-- What a value of the wrong kind was used for. -/
inductive Use where
  | member (name : String)
  | iteration
  | subscript
  | row
  | index
  | count
  | comparison (sign : String) (other : Kind)
  | average
  | quotient
  | format (code : String)
  deriving DecidableEq

inductive RecordFault where
  | missing (name : String)
  | missingPlace (place : Nat)
  | misused (kind : Kind) (use : Use)
  | noData
  | shortRow
  | shortText
  | tooLarge
  | quotientTooLarge
  deriving DecidableEq

/-- The message for a value of the wrong kind. -/
def Use.message (kind : Kind) : Use → String
  | member name => "'" ++ kind.label ++ "' object has no attribute '" ++ name ++ "'"
  | iteration => "'" ++ kind.label ++ "' object is not iterable"
  | subscript => "'" ++ kind.label ++ "' object is not subscriptable"
  | row => "iterable expected, not " ++ kind.label
  | index => "'" ++ kind.label ++ "' object cannot be interpreted as an integer"
  | count =>
    match kind with
    | .text => "can only concatenate str (not \"int\") to str"
    | .sequence => "'int' object is not iterable"
    | kind => "unsupported operand type(s) for +=: '" ++ kind.label ++ "' and 'int'"
  | comparison sign other =>
    "'" ++ sign ++ "' not supported between instances of '" ++ other.label ++ "' and '" ++
      kind.label ++ "'"
  | average => "can't convert type '" ++ kind.label ++ "' to numerator/denominator"
  | quotient => "unsupported operand type(s) for /: '" ++ kind.label ++ "' and 'int'"
  | format code =>
    match kind, code with
    | .text, code => "Unknown format code '" ++ code ++ "' for object of type 'str'"
    | .real, code => "Unknown format code '" ++ code ++ "' for object of type 'float'"
    | kind, _ => "unsupported format string passed to " ++ kind.label ++ ".__format__"

def RecordFault.message : RecordFault → String
  | missing name => Text.quoted name
  | missingPlace place => Text.numeral place
  | misused kind use => use.message kind
  | noData => "mean requires at least one data point"
  | shortRow => "list index out of range"
  | shortText => "string index out of range"
  | tooLarge => "int too large to convert to float"
  | quotientTooLarge => "integer division result too large for a float"

/-- A value as a number; truth values count as one and zero. -/
def number? : Json → Option Number
  | .bool b => some (.whole (if b then 1 else 0))
  | .integer n => some (.whole n)
  | .real x => some (.real x)
  | _ => none

def ofNumber : Number → Json
  | .whole n => .integer n
  | .real x => .real x

def numberFor (use : Use) (value : Json) : Except RecordFault Number :=
  (number? value).elim (.error (.misused value.kind use)) .ok

structure Record where
  values : OrderedMap String Json

namespace Record

/-- The record of a folder before its first run. -/
def fresh : Record :=
  ⟨.ofList [
    (Field.times.label, .array []),
    (Field.mems.label, .array []),
    (Field.leastMemory.label, .real (.infinite false)),
    (Field.greatestMemory.label, .real (.infinite true)),
    (Field.inconclusive.label, .integer 0),
    (Field.failed.label, .integer 0),
    (Field.completed.label, .bool false),
    (Field.completedTests.label, .integer 0),
    (Field.rows.label, .array []),
    (Field.decisions.label, .integer 0),
    (Field.conflicts.label, .integer 0),
    (Field.learned.label, .integer 0),
    (Field.sat.label, .integer 0),
    (Field.unsat.label, .integer 0)]⟩

def value (r : Record) (f : Field) : Except RecordFault Json :=
  (r.values.get? f.label).elim (.error (.missing f.label)) .ok

def write (r : Record) (f : Field) (value : Json) : Record := ⟨r.values.insert f.label value⟩

/-- Changes a value in place. -/
def update (r : Record) (f : Field) (change : Json → Except RecordFault Json) :
    Except RecordFault Record := do
  return r.write f (← change (← r.value f))

/-- Adds to a count. -/
def add (r : Record) (f : Field) (count : Nat) : Except RecordFault Record :=
  r.update f fun old => do
    let n ← numberFor .count old
    (n.add? (.whole count)).elim (.error .tooLarge) fun sum => .ok (ofNumber sum)

def append (r : Record) (f : Field) (item : Json) : Except RecordFault Record :=
  r.update f fun old =>
    match old with
    | .array items => .ok (.array (items ++ [item]))
    | other => .error (.misused other.kind (.member "append"))

/-- Keeps the old value unless the new one is below it. -/
def lower (r : Record) (f : Field) (x : Binary64) : Except RecordFault Record :=
  r.update f fun old => do
    let n ← numberFor (.comparison "<" .real) old
    return if (Number.real x).lt n then .real x else old

/-- Keeps the old value unless the new one is above it. -/
def raise (r : Record) (f : Field) (x : Binary64) : Except RecordFault Record :=
  r.update f fun old => do
    let n ← numberFor (.comparison ">" .real) old
    return if n.lt (.real x) then .real x else old

/-- Carries out changes in order; at the first fault the earlier ones stay. -/
def applyAll (changes : List (Record → Except RecordFault Record)) (r : Record) :
    Attempt Record Unit RecordFault :=
  match changes with
  | [] => (.ok (), r)
  | change :: rest =>
    match change r with
    | .ok r => applyAll rest r
    | .error fault => (.error fault, r)

end Record

end Backjump.Benchmark
