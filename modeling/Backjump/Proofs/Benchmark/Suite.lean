import Backjump.Proofs.Benchmark.Book

/-! A suite of instances with the answers to its tasks. A setting serves the suite when
it reads the instances, its worker gives these answers, whatever was done before, and
its scribe takes every line.
What a part of a benchmark leads to is then told by books: from any session that
keeps a book it comes to a result and a further book, and saves books on the way. -/
namespace Backjump.Benchmark

/-- The instances, their clauses, and what becomes of each with a strategy. -/
structure Suite where
  locations : List Location
  clauses : Location → List (List Int)
  answer : Strategy → Location → Outcome

/-- The setting reads the instances of the suite, answers their tasks and writes their table. -/
structure Setting.Serves (e : Setting) (b : Suite) : Prop where
  reads : ∀ l ∈ b.locations, e.read l = .ok (b.clauses l)
  answers : ∀ l ∈ b.locations, ∀ strategy turn,
    e.worker turn ⟨strategy, l, b.clauses l⟩ = .ok (b.answer strategy l)
  accepts : ∀ count line, e.scribe count line = none

/-- The ledger is that of the book, and the table holds its rows. -/
structure Session.Keeps (s : Session) (book : Book) : Prop where
  ledger : s.ledger = book.ledger
  rows : s.rows = book.rows

/-- A part of a benchmark. -/
abbrev Part := Setting → Session → Run

namespace Suite

def outcomes (b : Suite) (j : Job) : List Outcome :=
  j.locations.map fun l => b.answer j.strategy l

/-- The sheet of a job after its first instances. -/
def sheetAt (b : Suite) (j : Job) (n : Nat) : Sheet :=
  ((b.outcomes j).take n).foldl Sheet.note .blank

/-- The part comes from a book to a result and a further book, and saves books on the way. -/
def Leads (b : Suite) (part : Part) (book : Book) (result : Except Fault Unit) (book' : Book)
    (saved : List Book) : Prop :=
  ∀ e : Setting, e.Serves b → ∀ s : Session, s.Keeps book → (part e s).1 = result ∧
    (part e s).2.Keeps book' ∧ (part e s).2.saves = s.saves ++ saved.map Book.ledger

end Suite

variable {b : Suite} {part next : Part} {book book' book'' : Book} {saved saved' : List Book}
  {result : Except Fault Unit} {fault : Fault} {j : Job} {t : Sheet} {s : Session} {n : Nat}
  {o : Outcome} {l : Location}

theorem Scribe.refusal?_singleton (scribe : Scribe) (count : Nat) (line : String) :
    scribe.refusal? count [line] = scribe count line := by
  rw [refusal?]
  cases scribe count line <;> rfl

namespace Sheet

@[simp] theorem completedTests_note (t : Sheet) (o : Outcome) :
    (t.note o).completedTests = t.completedTests + 1 := rfl

@[simp] theorem completed_note (t : Sheet) (o : Outcome) : (t.note o).completed = t.completed := by
  cases o <;> rfl

theorem write_completedTests (t : Sheet) (o : Outcome) :
    (t.absorb o).record.write .completedTests (.integer (t.completedTests + 1)) = (t.note o).record := by
  rw [record, Record.write_of]
  exact of_values fun f => by cases f <;> rfl

end Sheet

namespace Suite

namespace Leads

theorem refl (b : Suite) (book : Book) : b.Leads (fun _ s => (.ok (), s)) book (.ok ()) book [] :=
  fun _ _ _ keeps => ⟨rfl, keeps, by simp⟩

/-- After a part that succeeds the next one goes on from its book. -/
theorem andThen (first : b.Leads part book (.ok ()) book' saved)
    (second : b.Leads next book' result book'' saved') :
    b.Leads (fun e s => (part e s).andThen fun _ s => next e s) book result book'' (saved ++ saved') := by
  intro e serves s keeps
  obtain ⟨answer, kept, saves⟩ := first e serves s keeps
  dsimp only
  generalize part e s = outcome at answer kept saves ⊢
  obtain ⟨_, s'⟩ := outcome
  cases answer
  obtain ⟨answer', kept', saves'⟩ := second e serves s' kept
  refine ⟨answer', kept', ?_⟩
  change (next e s').2.saves = _
  rw [saves', saves, List.map_append, List.append_assoc]

/-- After a part that fails nothing is done. -/
theorem andThen_error (first : b.Leads part book (.error fault) book' saved) (next : Part) :
    b.Leads (fun e s => (part e s).andThen fun _ s => next e s) book (.error fault) book' saved := by
  intro e serves s keeps
  obtain ⟨answer, kept, saves⟩ := first e serves s keeps
  dsimp only
  generalize part e s = outcome at answer kept saves ⊢
  obtain ⟨_, s'⟩ := outcome
  cases answer
  exact ⟨rfl, kept, saves⟩

end Leads

end Suite

end Backjump.Benchmark
