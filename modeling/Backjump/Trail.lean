import Backjump.Basic
import Backjump.Fault
import Backjump.OrderedMap

/-! The trail: the authoritative record of the current partial assignment.
Entries stand in the order in which they were made. Beside them the trail keeps
the assignment as a map, the variables still open, and for each variable who
holds it. Assigning either adds one entry or changes nothing. Truncating undoes
entries from the last one backwards; on a trail that was edited from outside it
can stop half-way, and what it undid until then stays undone. -/
namespace Backjump

/-- Who holds a variable: the entry at a place of the trail, or an entry that has
left the trail while still registered. -/
inductive Holder where
  | onTrail (position : Nat)
  | departed (entry : Entry)
  deriving DecidableEq

/-- `scope` lists the variables that may be assigned. -/
structure Trail where
  scope : List Symbol
  entries : List Entry
  holders : OrderedMap Symbol Holder
  assignment : OrderedMap Symbol Bool
  unassigned : List Symbol
  deriving DecidableEq

namespace Trail

def start (scope : List Symbol) : Trail :=
  ⟨scope, [], .empty, .empty, scope.eraseDups⟩

def size (t : Trail) : Nat := t.entries.length

def valuation (t : Trail) : Valuation := t.assignment.get?

/-- The open variables, those in scope in the order of the scope and then the others by
their text. -/
def openSymbols (t : Trail) : List Symbol :=
  t.scope.eraseDups.filter t.unassigned.contains ++
    (t.unassigned.filter fun s => !t.scope.contains s).mergeSort fun a b => a.text ≤ b.text

/-- The level of the last entry, zero on an empty trail. -/
def topLevel (t : Trail) : Int := (t.entries.getLast?.map Entry.level).getD 0

def entryAt? (t : Trail) (i : Int) : Option Entry := elementAt? t.entries i

/-- The entry that holds a variable. -/
def entryFor? (t : Trail) (s : Symbol) : Option Entry :=
  (t.holders.get? s).bind fun holder =>
    match holder with
    | .onTrail position => t.entries[position]?
    | .departed entry => some entry

/-- The first decision of a level. -/
def decisionAt? (t : Trail) (level : Int) : Option Entry :=
  t.entries.find? fun e => e.level == level && e.isDecision

/-- The entry that assigning the literal would add. -/
def nextEntry (t : Trail) (l : Literal) (level : Int) (antecedent : Option Int) : Entry :=
  ⟨l, level, antecedent, t.entries.length⟩

/-- Adds an entry unchecked. -/
def push (t : Trail) (e : Entry) : Trail :=
  { t with
    entries := t.entries ++ [e]
    holders := t.holders.insert e.symbol (.onTrail t.entries.length)
    assignment := t.assignment.insert e.symbol e.literal.positive
    unassigned := t.unassigned.filter (· != e.symbol) }

/-- Makes a literal true. The variable must be open and the level no lower than the last. -/
def assign (t : Trail) (l : Literal) (level : Int) (antecedent : Option Int) :
    Except Fault Trail :=
  if l.symbol ∈ t.assignment then
    match t.entryFor? l.symbol with
    | some holder => .error (.violation (.alreadyAssigned l.symbol holder))
    | none => .error (.absentKey (some l.symbol))
  else if l.symbol ∉ t.unassigned then .error (.violation (.notInFormula l.symbol))
  else if t.entries ≠ [] ∧ level < t.topLevel then
    .error (.violation (.belowTop level t.topLevel))
  else .ok (t.push (t.nextEntry l level antecedent))

/-- Puts a variable back among the open ones. -/
def reopen (t : Trail) (s : Symbol) : Trail :=
  { t with unassigned := if s ∈ t.unassigned then t.unassigned else t.unassigned ++ [s] }

/-- Takes the last entry off the trail; variables it holds keep it as a departed one. -/
def detachLast (t : Trail) (e : Entry) : Trail :=
  let last := t.entries.length - 1
  { t with
    entries := t.entries.dropLast
    holders := t.holders.mapEntries fun _ holder =>
      if holder = .onTrail last then .departed e else holder }

/-- Undoes the last entry, which is `e`. -/
def undoLast (t : Trail) (e : Entry) : Attempt Trail Unit :=
  let detached := t.detachLast e
  if e.symbol ∉ detached.holders then (.error (.absentKey (some e.symbol)), detached)
  else
    let released := { detached with holders := detached.holders.erase e.symbol }
    if e.symbol ∉ released.assignment then (.error (.absentKey (some e.symbol)), released)
    else
      (.ok (), { released with assignment := released.assignment.erase e.symbol }.reopen e.symbol)

/-- Undoes the given last entries, most recent first, while they lie above `level`. -/
def undoAbove (level : Int) : List Entry → Trail → Attempt Trail (List Entry)
  | [], t => (.ok [], t)
  | e :: earlier, t =>
    if level < e.level then
      (t.undoLast e).andThen fun _ t =>
        (undoAbove level earlier t).andThen fun removed t => (.ok (e :: removed), t)
    else (.ok [], t)

/-- Removes entries from the end while they lie above `level`; answers them most recent first. -/
def truncate (t : Trail) (level : Int) : Attempt Trail (List Entry) :=
  undoAbove level t.entries.reverse t

/-- Checks places and levels of the entries from `position` on and counts the
decisions: each opens the level after `previous`, an implied entry stays on it. -/
def checkEntries (position : Nat) (previous : Int) (decisions : Nat) :
    List Entry → Except Violation (Int × Nat)
  | [] => .ok (previous, decisions)
  | e :: rest =>
    if e.index ≠ position then .error (.misplaced e position)
    else if e.isDecision then
      if e.level ≠ previous + 1 then .error (.decisionLevel e (previous + 1))
      else checkEntries (position + 1) e.level (decisions + 1) rest
    else if e.level ≠ previous then .error (.impliedLevel e previous)
    else checkEntries (position + 1) e.level decisions rest

/-- The same members, order and repetition aside. -/
def sameMembers (a b : List Symbol) : Bool := a.all b.contains && b.all a.contains

/-- Checks order and partition of the trail for a solver at `level`. -/
def checkConsistency (t : Trail) (level : Int) : Except Violation Unit :=
  match checkEntries 0 0 0 t.entries with
  | .error v => .error v
  | .ok (previous, decisions) =>
    if (decisions : Int) ≠ level ∨ level < previous then .error (.decisionCount decisions level)
    else
      let bound := t.assignment.keys
      let both := bound.filter t.unassigned.contains
      if both ≠ [] then .error (.assignedAndOpen both)
      else if !sameMembers (bound ++ t.unassigned) t.scope then .error .scopeNotCovered
      else if !sameMembers bound t.holders.keys then .error .holdersDiffer
      else .ok ()

end Trail

end Backjump
