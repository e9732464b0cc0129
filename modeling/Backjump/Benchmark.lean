import Backjump.Benchmark.Session
import Backjump.Json.Writer

/-! Benchmarks on a disk. All instances below `benchmarks` are solved with every
strategy. The table of results gets a file of its own in `results`; the ledger
is kept beside it, also when a fault ends the benchmark, and the next one goes
on from there. A ledger that is no JSON text is dropped; one that is no text at all, or
goes beyond the limits of reading, ends the benchmark and is dropped too. -/
namespace Backjump.Benchmark

def resultsDirectory : String := "results"

def backupPath : String := Disk.join resultsDirectory "backup.tmp"

def tablePath : String := Disk.join resultsDirectory "benchmark.csv"

/-- What a benchmark leaves: lines of output, the files, and the fault that ended it,
if one did. -/
structure Ending where
  output : List String
  disk : Disk
  fault : Option Fault

/-- The document to go on from, and what is said about it. -/
def loadBackup (d : Disk) : List String × Except Fault Json :=
  if d.isThere backupPath then
    let found := ">> Resuming from previous backup..."
    match d.read backupPath with
    | .error fault => ([found], .error (.disk fault))
    | .ok content =>
      match Text.Utf8.decode (content.toList.map UInt8.toNat) with
      | .error fault => ([found], .error (.backup fault))
      | .ok text =>
        match Json.read (String.ofList (Text.universalNewlines text)) with
        | .ok document => ([found], .ok document)
        | .error .malformed =>
          ([found, ">> Error loading backup file, starting fresh"], .ok (.object []))
        | .error fault => ([found], .error (.document fault))
  else ([], .ok (.object []))

/-- The path of the table of this benchmark. A numbered name that is taken is one of the names that the
tree is made of, so their count is how many can be taken. -/
def newTablePath (d : Disk) (base : String) : String :=
  firstFreeName d.isThere (d.files.keys ++ d.made).flatten.length base

/-- The lines of a table, the names of the columns first. -/
def tableLines (rows : List (List Json)) : List String := Csv.line columns :: rows.map tableLine

def tableText (rows : List (List Json)) : String := String.join (tableLines rows)

/-- What the file of the table holds when a benchmark has ended. -/
def tableLeft (rows : List (List Json)) : Option Fault → String
  | some (.table refusal) => refusal.content
  | _ => tableText rows

/-- Leaves table and ledger and ends. -/
def finish (d : Disk) (table : String) (rows : List (List Json)) (document : Json)
    (output : List String) (fault : Option Fault) : Ending :=
  let d := d.write table (tableLeft rows fault).toUTF8
  ⟨output, d.write backupPath document.text.toUTF8, fault⟩

/-- How a benchmark on the disk reads and works. -/
def settingOn (d : Disk) (staff : Staff) : Setting :=
  ⟨staff, fun l => Dimacs.clausesOfFile d.access l.text⟩

/-- Goes on from a document that is a ledger as far as its outer levels go. -/
def resume (d : Disk) (staff : Staff) (document : Json) (rows : List (List Json))
    (output : List String) : Attempt Session Unit Fault :=
  Session.run (settingOn d staff) (groupByFolder (findInstances d)) ⟨.ofJson document, 0, rows, output, []⟩

/-- Starts a table with the rows of a document, does what the document leaves to do, and ends. -/
def goOn (d : Disk) (staff : Staff) (document : Json) (output : List String) : Ending :=
  let table := newTablePath d tablePath
  let output := output ++ [">> Results will be written to: " ++ table]
  let (rows, fault) := recordedRows document
  match staff.scribe.refusal? 0 (tableLines rows), fault with
  | some refusal, _ => finish d table rows document output (some (.table refusal))
  | none, some fault => finish d table rows document output (some (.record fault))
  | none, none =>
    let (result, s) := resume d staff document rows output
    let document := s.ledger.json
    match result with
    | .error fault => finish d table s.rows document s.output (some fault)
    | .ok () =>
      let (lines, fault) := summary document
      finish d table s.rows document (s.output ++ lines) (fault.map .record)

/-- Runs the benchmark on a disk. -/
def run (d : Disk) (staff : Staff) : Ending :=
  match d.makeDirectories resultsDirectory with
  | (.error fault, d) => ⟨[], d, some (.disk fault)⟩
  | (.ok (), d) =>
    match loadBackup d with
    | (output, .error (.disk fault)) => ⟨output, d, some (.disk fault)⟩
    | (output, .error fault) =>
      ⟨output, d.write backupPath (Json.object []).text.toUTF8, some fault⟩
    | (output, .ok document) => goOn d staff document output

end Backjump.Benchmark
