import Backjump.Benchmark.Row

/-! The ledger of a benchmark: the record of each folder by solver, strategy and
folder, and its written form as a JSON document. A document is taken over as it
is once its three outer levels are objects; until then reading it goes as far
as it can, and the rows met on the way count. -/
namespace Backjump.Benchmark

abbrev Folders := OrderedMap String Record

abbrev Ledger := OrderedMap String (OrderedMap String Folders)

/-- What was gathered up to the end or up to a fault. -/
abbrev Gathered (α : Type) := List α × Option RecordFault

/-- Gathers from one item after the other, up to the first fault. -/
def gather {α β : Type} (f : β → Gathered α) : List β → Gathered α
  | [] => ([], none)
  | b :: rest =>
    match f b with
    | (found, some fault) => (found, some fault)
    | (found, none) => let (more, fault) := gather f rest; (found ++ more, fault)

/-- Goes through the members of an object; `use` says what any other value is misused for. -/
def gatherMembers {α : Type} (use : Use) (f : String → Json → Gathered α) : Json → Gathered α
  | .object members => gather (fun m => f m.1 m.2) members
  | other => ([], some (.misused other.kind use))

/-- The fields of a row that stands in a document. -/
def rowOf : Json → Except RecordFault (List Json)
  | .null => .error (.misused .nothing .row)
  | value =>
    match itemsOf value with
    | .ok fields => .ok fields
    | .error _ => .error (.misused value.kind .row)

/-- The rows kept for a folder. -/
def rowsOfFolder : Json → Gathered (List Json)
  | .object members =>
    match itemsOf ((members.lookup Field.rows.label).getD (.array [])) with
    | .error fault => ([], some fault)
    | .ok items =>
      gather (fun item => match rowOf item with
        | .ok row => ([row], none)
        | .error fault => ([], some fault)) items
  | other => ([], some (.misused other.kind (.member "get")))

/-- The rows kept in a document, in its order. -/
def recordedRows (document : Json) : Gathered (List Json) :=
  gatherMembers (.member "values") (fun _ strategies =>
    gatherMembers (.member "values") (fun _ folders =>
      gatherMembers (.member "values") (fun _ => rowsOfFolder) folders) strategies) document

/-- The members of an object as a map; no other value has members. -/
def membersOf {α : Type} (f : Json → α) : Json → OrderedMap String α
  | .object members => .ofList (members.map fun m => (m.1, f m.2))
  | _ => .empty

def Record.ofJson (value : Json) : Record := ⟨membersOf id value⟩

def Record.json (r : Record) : Json := .object r.values.entries

namespace Ledger

def ofJson (document : Json) : Ledger := membersOf (membersOf (membersOf Record.ofJson)) document

def json (ledger : Ledger) : Json :=
  .object (ledger.entries.map fun solver => (solver.1,
    .object (solver.2.entries.map fun strategy => (strategy.1,
      .object (strategy.2.entries.map fun folder => (folder.1, folder.2.json))))))

/-- The folders of a strategy. -/
def folders (ledger : Ledger) (solver strategy : String) : Folders :=
  ((ledger.get? solver).bind (·.get? strategy)).getD .empty

/-- Replaces the folders of a strategy. -/
def putFolders (ledger : Ledger) (solver strategy : String) (fs : Folders) : Ledger :=
  ledger.insert solver (((ledger.get? solver).getD .empty).insert strategy fs)

/-- The record of a folder; a fresh one if there is none. -/
def record (ledger : Ledger) (solver strategy folder : String) : Record :=
  ((ledger.folders solver strategy).get? folder).getD .fresh

def putRecord (ledger : Ledger) (solver strategy folder : String) (r : Record) : Ledger :=
  ledger.putFolders solver strategy ((ledger.folders solver strategy).insert folder r)

end Ledger

end Backjump.Benchmark
