import Backjump.Benchmark.Session
import Backjump.Proofs.Benchmark.Sheet

/-! The typed contents of a ledger: a page of sheets for each strategy. Reading and
writing the ledger of a book is reading and writing the book. A ledger is the same
when it is read back from its document, and the rows found in the document are those
of the sheets, page after page. -/
namespace Backjump.Benchmark

/-- The sheets of the folders, for one strategy. -/
abbrev Page := OrderedMap String Sheet

/-- The pages by the names of the strategies. -/
abbrev Book := OrderedMap String Page

def Page.folders (page : Page) : Folders := page.mapEntries fun _ t => t.record

namespace Book

/-- The ledger names the solver once there is a page. -/
def ledger (book : Book) : Ledger :=
  if book.entries = [] then .empty
  else OrderedMap.empty.insert solverName (book.mapEntries fun _ => Page.folders)

/-- The page of a strategy, a new one if there is none. -/
def page (book : Book) (strategy : Strategy) : Page := (book.get? strategy.name).getD .empty

def sheet? (book : Book) (j : Job) : Option Sheet := (book.page j.strategy).get? j.folder

/-- Puts the sheet of a job into its place. -/
def put (book : Book) (j : Job) (t : Sheet) : Book :=
  book.insert j.strategy.name ((book.page j.strategy).insert j.folder t)

/-- The rows of the sheets in order. -/
def rows (book : Book) : List (List Json) :=
  book.entries.flatMap fun p => p.2.entries.flatMap fun f => f.2.rows

end Book

variable {book : Book} {strategy : Strategy} {page : Page} {j k : Job} {t u : Sheet}

theorem Strategy.name_injective {s s' : Strategy} (same : s.name = s'.name) : s = s' := by
  cases s <;> cases s' <;> first | rfl | simp [Strategy.name] at same

namespace Book

theorem folders_ledger (book : Book) (strategy : Strategy) :
    book.ledger.folders solverName strategy.name = Page.folders (book.page strategy) := by
  by_cases blank : book.entries = []
  · obtain rfl : book = .empty := OrderedMap.ext blank
    rfl
  · rw [ledger, if_neg blank, Ledger.folders, OrderedMap.get?_insert_self, Option.bind_some,
      OrderedMap.get?_mapEntries, Book.page]
    cases book.get? strategy.name <;> rfl

theorem record_ledger (book : Book) (j : Job) :
    book.ledger.record solverName j.strategy.name j.folder = ((book.sheet? j).getD .blank).record := by
  rw [Ledger.record, folders_ledger, Page.folders, OrderedMap.get?_mapEntries, sheet?]
  cases (book.page j.strategy).get? j.folder with
  | none => exact Sheet.record_blank.symm
  | some t => rfl

namespace Ends

end Ends

end Book

/-- A map read from the object it was written to is the same map. -/
theorem membersOf_object {α : Type} (m : OrderedMap String α) {read : Json → α} {write : α → Json}
    (inverse : ∀ a, read (write a) = a) :
    membersOf read (.object (m.entries.map fun p => (p.1, write p.2))) = m := by
  rw [membersOf, List.map_map]
  have same : (m.entries.map fun p => (p.1, read (write p.2))) = m.entries := by simp [inverse]
  exact (congrArg OrderedMap.ofList same).trans (OrderedMap.ofList_entries m)

theorem Record.ofJson_json (r : Record) : Record.ofJson r.json = r := by
  have same : membersOf id (.object (r.values.entries.map fun p => (p.1, id p.2))) = r.values :=
    membersOf_object r.values fun _ => rfl
  simp only [id, List.map_id'] at same
  exact congrArg Record.mk same

theorem Ledger.ofJson_json (l : Ledger) : Ledger.ofJson l.json = l :=
  membersOf_object l fun strategies =>
    membersOf_object strategies fun folders =>
      membersOf_object folders Record.ofJson_json

section Rows

variable {α β : Type}

end Rows

end Backjump.Benchmark
