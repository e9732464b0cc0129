import Backjump.Benchmark
import Backjump.Proofs.Benchmark.Table
import Backjump.Proofs.Disk
import Backjump.Proofs.Text.Utf8

/-! Benchmarks that are stopped and started again. Every process goes on from the document
that the one before it left; such a document is that of the empty book, of a book that
an undisturbed benchmark saves, or of the book it ends with. The table and the ledger
of the last process are then those of a benchmark that was never stopped. -/
namespace Backjump.Benchmark

/-- The disk as a benchmark finds it once there is a place for results. -/
def prepared (d : Disk) : Disk := (d.makeDirectories resultsDirectory).2

/-- The disk with a new table, and with the document as the ledger kept. -/
def withResults (d : Disk) (table : String) (document : Json) : Disk :=
  (d.write (newTablePath d tablePath) table.toUTF8).write backupPath document.text.toUTF8

/-- A benchmark that can load a document goes on from it. -/
theorem exists_run_eq_goOn {d : Disk} {document : Json}
    (made : (d.makeDirectories resultsDirectory).1 = .ok ())
    (loads : (loadBackup (prepared d)).2 = .ok document) (staff : Staff) :
    ∃ output, run d staff = goOn (prepared d) staff document output := by
  have there : d.makeDirectories resultsDirectory = (.ok (), prepared d) := Prod.ext made rfl
  have loaded : loadBackup (prepared d) = ((loadBackup (prepared d)).1, .ok document) := Prod.ext rfl loads
  refine ⟨(loadBackup (prepared d)).1, ?_⟩
  rw [run, there]
  dsimp only
  rw [loaded]

namespace Suite

/-- On the disk are the instances of the suite, and a benchmark there goes on from the document. -/
structure Begins (b : Suite) (d : Disk) (staff : Staff) (document : Json) : Prop where
  made : (d.makeDirectories resultsDirectory).1 = .ok ()
  finds : findInstances (prepared d) = b.locations
  serves : (settingOn (prepared d) staff).Serves b
  loads : (loadBackup (prepared d)).2 = .ok document

variable {b : Suite} {book book' k : Book} {rest saved : List Book} {result : Except Fault Unit}
  {document : Json} {d d' : Disk} {staff staff' : Staff} {rows : List (List Json)}

end Suite

/-- The document of a backup by its text. -/
theorem loadBackup_eq {d : Disk} {text : List Char} {document : Json}
    (there : d.isThere backupPath = true) (stored : d.read backupPath = .ok (String.ofList text).toUTF8)
    (value : Json.readValue (2 * (Text.universalNewlines text).length + 2) Json.nestingLimit
      (Json.skipBlanks (Text.universalNewlines text)) = .ok (document, [])) :
    (loadBackup d).2 = .ok document := by
  have parsed : Json.read (String.ofList (Text.universalNewlines text)) = .ok document := by
    rw [Json.read, String.toList_ofList]
    exact bind_of_ok value _
  rw [loadBackup, if_pos there, stored]
  dsimp only
  rw [String.toUTF8, Text.Utf8.decode_toByteArray, String.toList_ofList]
  dsimp only
  rw [parsed]

/-! One instance that only the second strategy solves, and a benchmark of it that is stopped
after the first. -/
namespace HalfSolved

def location : Location := ⟨"", ["benchmarks", "a", "x.cnf"]⟩

def suite : Suite where
  locations := [location]
  clauses _ := [[1]]
  answer
    | .ordered, _ => .timedOut
    | .jeroslow, _ => .solved
      ⟨⟨true, ⟨1, 0, 0⟩⟩, .finite false 0, .finite false 0, .finite false 0, .finite false 0⟩

/-- Its tasks are answered, and its table has room. -/
def staff : Staff := ⟨fun _ task => .ok (suite.answer task.strategy task.location), fun _ _ => none⟩

/-- The first folder with the first strategy. -/
def job : Job := ⟨.ordered, "a", [location]⟩

/-- The book that is open when the first folder is. -/
def opened : Book := OrderedMap.empty.insert Strategy.ordered.name .empty

def stopped : Book := opened.put job (suite.sheetAt job 1)

/-- The ledger of that book, as it may stand in the backup. -/
def backupText : String :=
  "\x7b\"cdcl\":\x7b\"ORDERED\":\x7b\"a\":\x7b\"times\":[],\"mems\":[],
  \"mem_min\":Infinity,\"mem_max\":-Infinity,\"inconclusive\":1,\"failed\":0,
  \"completed\":false,\"completed_tests\":1,\"csv_ready_data\":[],
  \"decisions\":0,\"conflicts\":0,\"learned\":0,\"sat\":0,\"unsat\":0\x7d\x7d\x7d\x7d"

def before : Disk := .ofFiles [(location.names, "1 0\n".toUTF8)]

def after : Disk :=
  .ofFiles [(location.names, "1 0\n".toUTF8), (["results", "backup.tmp"], backupText.toUTF8)]

theorem measured : suite.Measured := by
  intro l _ strategy report answered
  cases strategy with
  | ordered => contradiction
  | jeroslow =>
    obtain rfl := Outcome.solved.inj answered
    exact ⟨Nat.zero_le _, Nat.zero_le _⟩

theorem makeDirectories_results (d : Disk) :
    d.makeDirectories resultsDirectory = d.ensureDirectory resultsDirectory :=
  Disk.makeDirectories_eq (by decide : _ = ("", "results")) (by decide) d

/-- The paths of the benchmark with the names along them. -/
def paths : List (String × List String) :=
  [(resultsDirectory, ["results"]), (backupPath, ["results", "backup.tmp"]),
    (location.text, location.names)]

theorem usable : ∀ p ∈ paths, Disk.checkPath p.1 = .ok () ∧ Disk.names p.1 = p.2 ∧
    Disk.origin p.1 = [] ∧ ¬p.1.endsWith "/" := by
  simp only [Disk.checkPath_eq, Disk.names_eq]
  decide +kernel

theorem locate_eq {p : String × List String} (listed : p ∈ paths) (d : Disk) :
    d.locate p.1 = d.follow p.1 [] p.2 := by
  obtain ⟨checked, named, origin, bare⟩ := usable p listed
  rw [Disk.locate_eq checked, named, origin, if_neg bare, List.append_nil]

theorem locate_results (d : Disk) : d.locate resultsDirectory = d.follow resultsDirectory [] ["results"] :=
  locate_eq (.head _) d

theorem locate_backup (d : Disk) :
    d.locate backupPath = d.follow backupPath [] ["results", "backup.tmp"] :=
  locate_eq (.tail _ (.head _)) d

theorem locate_instance (d : Disk) :
    d.locate location.text = d.follow location.text [] location.names :=
  locate_eq (.tail _ (.tail _ (.head _))) d

/-- A place for results is made where there is none. -/
theorem made : before.makeDirectories resultsDirectory = (.ok (), ⟨before.files, [["results"]]⟩) ∧
    after.makeDirectories resultsDirectory = (.ok (), after) := by
  obtain ⟨checked, named, -, -⟩ := usable _ (.head _)
  dsimp only at checked named
  have missing : before.makeDirectory resultsDirectory = .ok ⟨before.files, [["results"]]⟩ := by
    rw [Disk.makeDirectory, bind_of_ok checked, named]
    decide +kernel
  have there : after.makeDirectory resultsDirectory = .error (.exists resultsDirectory) := by
    rw [Disk.makeDirectory, bind_of_ok checked, named]
    decide +kernel
  have directory : after.isDirectory resultsDirectory = true := by
    rw [Disk.isDirectory, locate_results]
    decide
  constructor
  · rw [makeDirectories_results, Disk.ensureDirectory, missing]
  · rw [makeDirectories_results, Disk.ensureDirectory, there]
    simp only [directory, if_true]

theorem finds : findInstances ⟨before.files, [["results"]]⟩ = suite.locations ∧
    findInstances after = suite.locations := by
  decide +kernel

theorem serves {d : Disk} (located : d.locate location.text = .ok location.names)
    (stored : (location.names, "1 0\n".toUTF8) ∈ d.files.entries) :
    (settingOn d staff).Serves suite where
  reads l member := by
    obtain rfl := List.mem_singleton.mp member
    have content : d.access.read location.text = .ok "1 0\n".toUTF8 := Disk.read_of_mem located stored
    have parsed : Dimacs.clausesOfBytes ("1 0\n".toUTF8.data.toList.map UInt8.toNat) = .ok [[1]] := by
      decide +kernel
    change Dimacs.clausesOfFile d.access location.text = .ok [[1]]
    rw [Dimacs.clausesOfFile, content]
    dsimp only
    rw [Text.Utf8.toList_bytes, parsed]
  answers _ _ _ _ := rfl
  accepts _ _ := rfl

set_option maxRecDepth 20000 in
theorem backupText_says : ∃ text, backupText = String.ofList text ∧
    Json.readValue (2 * (Text.universalNewlines text).length + 2) Json.nestingLimit
      (Json.skipBlanks (Text.universalNewlines text)) = .ok (stopped.ledger.json, []) :=
  ⟨_, rfl, rfl⟩

theorem begins_after : suite.Begins after staff stopped.ledger.json := by
  have same : prepared after = after := congrArg Prod.snd made.2
  have entries : after.files.entries =
      [(location.names, "1 0\n".toUTF8), (["results", "backup.tmp"], backupText.toUTF8)] :=
    OrderedMap.entries_ofList (by decide)
  refine { made := congrArg Prod.fst made.2, finds := ?_, serves := ?_, loads := ?_ }
  all_goals rw [same]
  · exact finds.2
  · refine serves ?_ (by simp [entries])
    rw [locate_instance]
    decide
  · have there : after.isThere backupPath = true := by
      rw [Disk.isThere, locate_backup]
      decide
    have located : after.locate backupPath = .ok ["results", "backup.tmp"] := by
      rw [locate_backup]
      decide
    have stored : after.read backupPath = .ok backupText.toUTF8 :=
      Disk.read_of_mem located (by simp [entries])
    obtain ⟨text, written, value⟩ := backupText_says
    rw [written] at stored
    exact loadBackup_eq there stored value

theorem averages : ∀ j ∈ suite.jobs, ¬suite.Overflows j := by
  simp only [Suite.Overflows, Sheet.Overflows]
  decide +kernel

end HalfSolved

end Backjump.Benchmark
