import Backjump.Benchmark.Session
import Backjump.Proofs.OrderedMap

/-! The place of a record in a ledger. Work on a job writes to the record of the job and to
nothing else: every other record stays as it was, in the ledger and in the ledgers saved
on the way. -/
namespace Backjump

/-- A relation that both parts keep is kept by the one after the other. -/
theorem Attempt.relates_andThen {σ α β ε : Type} {R : σ → σ → Prop} {s : σ} {attempt : Attempt σ α ε}
    {next : α → σ → Attempt σ β ε} (trans : ∀ {a b c}, R a b → R b c → R a c) (first : R s attempt.2)
    (second : ∀ a s', R s' (next a s').2) : R s (attempt.andThen next).2 := by
  obtain ⟨result, s'⟩ := attempt
  cases result with
  | error fault => exact first
  | ok a => exact trans first (second a s')

namespace Benchmark

namespace Ledger

/-- The record of a folder, once it was opened. -/
def record? (ledger : Ledger) (solver strategy folder : String) : Option Record :=
  (ledger.folders solver strategy).get? folder

/-- The two ledgers differ at most in the record of the job. -/
def AgreesBut (j : Job) (before after : Ledger) : Prop :=
  ∀ solver strategy folder, ¬(solver = solverName ∧ strategy = j.strategy.name ∧ folder = j.folder) →
    after.record? solver strategy folder = before.record? solver strategy folder

variable {ledger before mid after : Ledger} {solver solver' strategy strategy' folder folder' : String}
  {fs : Folders} {j : Job}

theorem folders_putFolders_self (ledger : Ledger) (solver strategy : String) (fs : Folders) :
    (ledger.putFolders solver strategy fs).folders solver strategy = fs := by
  rw [folders, putFolders, OrderedMap.get?_insert_self, Option.bind_some, OrderedMap.get?_insert_self,
    Option.getD_some]

theorem folders_putFolders_of_ne (apart : ¬(solver' = solver ∧ strategy' = strategy)) :
    (ledger.putFolders solver strategy fs).folders solver' strategy' =
      ledger.folders solver' strategy' := by
  rw [folders, putFolders, folders]
  by_cases same : solver' = solver
  · subst same
    have other : strategy' ≠ strategy := fun h => apart ⟨rfl, h⟩
    rw [OrderedMap.get?_insert_self, Option.bind_some, OrderedMap.get?_insert_of_ne _ other]
    cases ledger.get? solver' <;> rfl
  · rw [OrderedMap.get?_insert_of_ne _ same]

/-- Opening the page of a strategy changes no record. -/
theorem record?_putFolders (ledger : Ledger) (solver strategy : String) :
    (ledger.putFolders solver strategy (ledger.folders solver strategy)).record? = ledger.record? := by
  funext solver' strategy' folder
  rw [record?, record?]
  by_cases here : solver' = solver ∧ strategy' = strategy
  · rw [here.1, here.2, folders_putFolders_self]
  · rw [folders_putFolders_of_ne here]

theorem record_eq (ledger : Ledger) (solver strategy folder : String) :
    ledger.record solver strategy folder = (ledger.record? solver strategy folder).getD .fresh := rfl

theorem record_putFolders (ledger : Ledger) (solver strategy solver' strategy' folder : String) :
    (ledger.putFolders solver strategy (ledger.folders solver strategy)).record solver' strategy' folder =
      ledger.record solver' strategy' folder := by
  rw [record_eq, record?_putFolders, record_eq]

theorem record?_putRecord_self (ledger : Ledger) (solver strategy folder : String) (r : Record) :
    (ledger.putRecord solver strategy folder r).record? solver strategy folder = some r := by
  rw [record?, putRecord, folders_putFolders_self, OrderedMap.get?_insert_self]

theorem record?_putRecord_of_ne {r : Record}
    (apart : ¬(solver' = solver ∧ strategy' = strategy ∧ folder' = folder)) :
    (ledger.putRecord solver strategy folder r).record? solver' strategy' folder' =
      ledger.record? solver' strategy' folder' := by
  rw [record?, putRecord, record?]
  by_cases here : solver' = solver ∧ strategy' = strategy
  · obtain ⟨rfl, rfl⟩ := here
    have other : folder' ≠ folder := fun h => apart ⟨rfl, rfl, h⟩
    rw [folders_putFolders_self, OrderedMap.get?_insert_of_ne _ other]
  · rw [folders_putFolders_of_ne here]

theorem putRecord_putRecord (ledger : Ledger) (solver strategy folder : String) (r r' : Record) :
    (ledger.putRecord solver strategy folder r).putRecord solver strategy folder r' =
      ledger.putRecord solver strategy folder r' := by
  rw [putRecord, putRecord, folders_putFolders_self, OrderedMap.insert_insert, putRecord, putFolders,
    putFolders, OrderedMap.get?_insert_self, Option.getD_some, OrderedMap.insert_insert,
    OrderedMap.insert_insert, putFolders]

namespace AgreesBut

theorem refl (j : Job) (ledger : Ledger) : AgreesBut j ledger ledger := fun _ _ _ _ => rfl

theorem trans (first : AgreesBut j before mid) (second : AgreesBut j mid after) :
    AgreesBut j before after :=
  fun solver strategy folder apart =>
    (second solver strategy folder apart).trans (first solver strategy folder apart)

end AgreesBut

end Ledger

namespace Job

def recordIn (j : Job) (ledger : Ledger) : Record :=
  ledger.record solverName j.strategy.name j.folder

/-- The jobs have places of their own. -/
def Apart (j k : Job) : Prop := j.strategy.name ≠ k.strategy.name ∨ j.folder ≠ k.folder

theorem Apart.recordIn_eq {j k : Job} {before after : Ledger} (apart : j.Apart k)
    (agrees : Ledger.AgreesBut k before after) : j.recordIn after = j.recordIn before := by
  have other : ¬(solverName = solverName ∧ j.strategy.name = k.strategy.name ∧ j.folder = k.folder) := by
    rintro ⟨-, strategies, folders⟩
    exact apart.elim (· strategies) (· folders)
  rw [recordIn, recordIn, Ledger.record_eq, Ledger.record_eq, agrees _ _ _ other]

end Job

namespace Session

/-- The later session differs from the earlier one at most in the record of the job, and so do
the ledgers it saved. -/
structure WorksOn (j : Job) (s s' : Session) : Prop where
  ledger : Ledger.AgreesBut j s.ledger s'.ledger
  saves : ∃ added, s'.saves = s.saves ++ added ∧ ∀ l ∈ added, Ledger.AgreesBut j s.ledger l

variable {s s' s'' : Session} {j k : Job} {r r' : Record} {e : Setting}

@[simp] theorem record_putRecord (s : Session) (j : Job) (r : Record) : (s.putRecord j r).record j = r := by
  rw [record, putRecord, Ledger.record_eq, Ledger.record?_putRecord_self, Option.getD_some]

@[simp] theorem putRecord_putRecord (s : Session) (j : Job) (r r' : Record) :
    (s.putRecord j r).putRecord j r' = s.putRecord j r' := by
  rw [putRecord, putRecord, Ledger.putRecord_putRecord, putRecord]

@[simp] theorem rows_putRecord (s : Session) (j : Job) (r : Record) : (s.putRecord j r).rows = s.rows := rfl

namespace WorksOn

theorem refl (j : Job) (s : Session) : WorksOn j s s :=
  ⟨.refl j s.ledger, [], (List.append_nil _).symm, by simp⟩

theorem trans (first : WorksOn j s s') (second : WorksOn j s' s'') : WorksOn j s s'' where
  ledger := first.ledger.trans second.ledger
  saves := by
    obtain ⟨added, saves, agree⟩ := first.saves
    obtain ⟨added', saves', agree'⟩ := second.saves
    refine ⟨added ++ added', by rw [saves', saves, List.append_assoc], fun l member => ?_⟩
    obtain early | late := List.mem_append.mp member
    · exact agree l early
    · exact first.ledger.trans (agree' l late)

/-- What changes neither the ledger nor the saves is no work. -/
theorem idle (works : WorksOn j s s') (ledger : s''.ledger = s'.ledger) (saves : s''.saves = s'.saves) :
    WorksOn j s s'' := by
  obtain ⟨agrees, added, saved, agree⟩ := works
  exact ⟨ledger ▸ agrees, added, saves.trans saved, agree⟩

theorem putRecord (works : WorksOn j s s') (r : Record) : WorksOn j s (s'.putRecord j r) :=
  works.trans ⟨fun _ _ _ apart => Ledger.record?_putRecord_of_ne apart, [], (List.append_nil _).symm,
    by simp⟩

theorem print (works : WorksOn j s s') (lines : List String) : WorksOn j s (s'.print lines) :=
  works.idle rfl rfl

theorem save (works : WorksOn j s s') : WorksOn j s s'.save :=
  works.trans ⟨.refl j s'.ledger, [s'.ledger], rfl, by simpa using .refl j s'.ledger⟩

theorem andThen {α β : Type} {attempt : Attempt Session α Fault} {next : α → Session → Attempt Session β Fault}
    (first : WorksOn j s attempt.2) (second : ∀ a s', WorksOn j s' (next a s').2) :
    WorksOn j s (attempt.andThen next).2 :=
  Attempt.relates_andThen trans first second

end WorksOn

theorem noteOutcome_worksOn (s : Session) (j : Job) (place : Int) (l : Location) (o : Outcome) :
    WorksOn j s (s.noteOutcome j place l o).2 :=
  ((WorksOn.refl j s).putRecord _).andThen fun _ s => (((WorksOn.refl j s).putRecord _).print _).save

theorem runInstance_worksOn (e : Setting) (j : Job) (place : Int) (s : Session) :
    WorksOn j s (runInstance e j place s).2 := by
  rw [runInstance]
  split
  · exact .refl j s
  · split
    · exact .refl j s
    · have submitted : WorksOn j s { s with submitted := s.submitted + 1 } :=
        (WorksOn.refl j s).idle rfl rfl
      exact submitted.trans (noteOutcome_worksOn ..)

theorem runInstances_worksOn (e : Setting) (j : Job) (left : Nat) (place : Int) (s : Session) :
    WorksOn j s (runInstances e j left place s).2 := by
  induction left generalizing place s with
  | zero => exact .refl j s
  | succ left ih => exact (runInstance_worksOn e j place s).andThen fun _ s => ih (place + 1) s

theorem completeFolder_worksOn (e : Setting) (j : Job) (s : Session) :
    WorksOn j s (completeFolder e j s).2 := by
  have marked := (WorksOn.refl j s).putRecord ((s.record j).write .completed (.bool true))
  rw [completeFolder]
  split
  · exact marked
  · split
    · exact marked.save
    · split
      · exact marked
      · next row _ =>
        have listed : WorksOn j s { s.putRecord j ((s.record j).write .completed (.bool true))
            with rows := s.rows ++ [row] } := marked.idle rfl rfl
        split
        · exact marked
        · dsimp only
          split
          · exact listed
          · exact (listed.putRecord _).save

/-- Running a folder changes the record of its job alone. -/
theorem runFolder_worksOn (e : Setting) (j : Job) (s : Session) : WorksOn j s (runFolder e j s).2 := by
  have opened := (WorksOn.refl j s).putRecord (s.record j)
  rw [runFolder]
  split
  · exact opened
  · exact opened.print _
  · refine opened.trans ?_
    rw [resumeFolder]
    split
    · exact .refl j _
    · exact (runInstances_worksOn e j _ _ _).andThen fun _ s => completeFolder_worksOn e j s

end Session

end Benchmark

end Backjump
