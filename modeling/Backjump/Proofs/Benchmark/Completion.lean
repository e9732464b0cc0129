import Backjump.Proofs.Benchmark.Place
import Backjump.Proofs.Benchmark.Restart
import Backjump.Proofs.Traversal

/-! Completed folders without a row. A folder is marked as completed before its row is made and
written, and the ledger is kept whatever ends a benchmark. So there is one way to lose a
row: the benchmark ends at the folder, because its record gives no row or has no place for
one, or because the table refuses the row. Any other end, with or without a fault, leaves
no such folder behind. -/
namespace Backjump.Benchmark

namespace Record

/-- The field is there and holds something. -/
def isFilled (r : Record) (f : Field) : Bool := (r.values.get? f.label).elim false Json.isTruthy

/-- The folder is completed and instances of it were solved, but it has no row. -/
def lacksRow (r : Record) : Bool := r.isFilled .completed && r.isFilled .times && !r.isFilled .rows

/-- The record with its row. -/
def addRow (r : Record) (j : Job) : Except RecordFault Record := do
  r.append .rows (.array (← r.row j.label j.folder j.locations.length))

/-- What keeps a folder from its row, when the table has so many lines: the record gives no row or
has no place for one, or the table refuses the row. -/
inductive Denied (r : Record) (j : Job) (scribe : Scribe) (lines : Nat) : Fault → Prop
  | unmade {fault : RecordFault} (failed : r.addRow j = .error fault) : r.Denied j scribe lines (.record fault)
  | refused {row : List Json} {refusal : Refusal}
      (made : r.row j.label j.folder j.locations.length = .ok row)
      (refused : scribe lines (tableLine row) = some refusal) : r.Denied j scribe lines (.table refusal)

/-- The records agree on a field. -/
def SameAt (f : Field) (r r' : Record) : Prop := r'.values.get? f.label = r.values.get? f.label

variable {r r' r'' : Record} {f g : Field} {x : Json} {change : Json → Except RecordFault Json}

theorem SameAt.trans (first : SameAt f r r') (second : SameAt f r' r'') : SameAt f r r'' :=
  Eq.trans second first

theorem sameAt_write (r : Record) (x : Json) (differ : g ≠ f) : SameAt g r (r.write f x) :=
  OrderedMap.get?_insert_of_ne _ (fun same => differ (Field.label_injective same)) _

theorem exists_write_of_update (updated : r.update f change = .ok r') : ∃ x, r' = r.write f x := by
  obtain ⟨old, -, changed⟩ := exists_of_bind updated
  obtain ⟨x, -, written⟩ := exists_of_bind changed
  exact ⟨x, (Except.ok.inj written).symm⟩

theorem sameAt_update (updated : r.update f change = .ok r') (differ : g ≠ f) : SameAt g r r' := by
  obtain ⟨x, rfl⟩ := exists_write_of_update updated
  exact sameAt_write r x differ

theorem sameAt_applyAll {changes : List (Record → Except RecordFault Record)}
    (each : ∀ change ∈ changes, ∀ r r', change r = .ok r' → SameAt f r r') (r : Record) :
    SameAt f r (applyAll changes r).2 := by
  induction changes generalizing r with
  | nil => rfl
  | cons change rest ih =>
    rw [List.forall_mem_cons] at each
    rw [applyAll]
    split
    · next r' changed => exact (each.1 r r' changed).trans (ih each.2 r')
    · rfl

theorem sameAt_absorbFailure (r : Record) (message : String) (time memory : Binary64) (decisions : Nat) :
    SameAt .completed r (r.absorbFailure message time memory decisions).2 := by
  rw [absorbFailure]
  split
  · rfl
  · next r' added => exact sameAt_update added (by decide)

theorem sameAt_effort (r : Record) (e : Effort) :
    SameAt .completed r (r.applyAll (effortChanges e)).2 := by
  refine sameAt_applyAll ?_ r
  simp only [effortChanges, List.forall_mem_cons]
  refine ⟨?_, ?_, ?_, by simp⟩
  all_goals exact fun r r' changed => sameAt_update changed (by decide)

theorem sameAt_answer (r : Record) (p : Report) : SameAt .completed r (r.applyAll (answerChanges p)).2 := by
  refine sameAt_applyAll ?_ r
  simp only [answerChanges, List.forall_mem_cons]
  have answer : Field.completed ≠ if p.finding.satisfiable then .sat else .unsat := by split <;> decide
  refine ⟨fun r r' changed => sameAt_update changed answer, ?_, ?_, ?_, ?_, by simp⟩
  all_goals exact fun r r' changed => sameAt_update changed (by decide)

/-- An outcome does not complete a folder, not even if it fits into the record only in part. -/
theorem sameAt_absorb (r : Record) (o : Outcome) : SameAt .completed r (r.absorb o).2 := by
  cases o with
  | timedOut =>
    rw [absorb]
    split
    · rfl
    · next r' added => exact sameAt_update added (by decide)
  | failed message => exact sameAt_absorbFailure ..
  | solved p =>
    have effort := sameAt_effort r p.finding.effort
    rw [absorb]
    split
    · next r' summed =>
      rw [summed] at effort
      exact effort.trans (sameAt_absorbFailure ..)
    · next r' summed =>
      rw [summed] at effort
      have answer := sameAt_answer r' p
      split
      · next r'' answered =>
        rw [answered] at answer
        exact (effort.trans answer).trans (sameAt_absorbFailure ..)
      · next r'' answered =>
        rw [answered] at answer
        exact effort.trans answer

theorem isFilled_eq (same : SameAt f r r') : r'.isFilled f = r.isFilled f :=
  congrArg (Option.elim · false Json.isTruthy) same

theorem isFilled_of_value (found : r.value f = .ok x) : r.isFilled f = x.isTruthy := by
  rw [value] at found
  rw [isFilled]
  cases there : r.values.get? f.label with
  | none =>
    rw [there] at found
    contradiction
  | some y =>
    rw [there] at found
    exact congrArg Json.isTruthy (Except.ok.inj found)

theorem isFilled_of_isCompleted {b : Bool} (answered : r.isCompleted = .ok b) :
    r.isFilled .completed = b := by
  obtain ⟨x, found, truth⟩ := exists_of_bind answered
  exact (isFilled_of_value found).trans (Except.ok.inj truth)

theorem isFilled_of_value_error {fault : RecordFault} (missing : r.value f = .error fault) :
    r.isFilled f = false := by
  rw [value] at missing
  rw [isFilled]
  cases there : r.values.get? f.label with
  | none => rfl
  | some y =>
    rw [there] at missing
    contradiction

theorem isFilled_of_lacksRow (lacks : r.lacksRow = true) : r.isFilled .completed = true ∧
    r.isFilled .times = true ∧ r.isFilled .rows = false := by
  simpa [lacksRow, and_assoc] using lacks

/-- A record that a row was appended to has a row. -/
theorem isFilled_append_rows (appended : r.append f x = .ok r') : r'.isFilled f = true := by
  obtain ⟨old, -, changed⟩ := exists_of_bind appended
  obtain ⟨y, grown, written⟩ := exists_of_bind changed
  obtain rfl := Except.ok.inj written
  cases old with
  | array items =>
    obtain rfl := Except.ok.inj grown
    rw [isFilled, write, OrderedMap.get?_insert_self]
    simp [Json.isTruthy]
  | _ => contradiction

end Record

namespace Session

variable {e : Setting} {j : Job} {s : Session}

/-- The run ended at the folder for want of its row. -/
def EndsAt (e : Setting) (j : Job) (run : Run) : Prop :=
  ∃ fault, run.1 = .error fault ∧ (run.2.record j).Denied j e.scribe (run.2.rows.length + 1) fault

theorem noteOutcome_sameAt (s : Session) (j : Job) (place : Int) (l : Location) (o : Outcome) :
    Record.SameAt .completed (s.record j) ((s.noteOutcome j place l o).2.record j) := by
  have absorbed := Record.sameAt_absorb (s.record j) o
  rw [noteOutcome, keep]
  generalize (s.record j).absorb o = attempt at absorbed ⊢
  obtain ⟨result, r⟩ := attempt
  cases result with
  | error fault =>
    simp only [Except.mapError, Attempt.andThen_error, record_putRecord]
    exact absorbed
  | ok progress =>
    simp only [Except.mapError, Attempt.andThen_ok, record_putRecord, putRecord_putRecord]
    refine absorbed.trans ?_
    change Record.SameAt _ _ ((s.putRecord j _).record j)
    rw [record_putRecord]
    exact Record.sameAt_write _ _ (by decide)

/-- Running instances does not complete their folder. -/
theorem runInstances_sameAt (e : Setting) (j : Job) (left : Nat) (place : Int) (s : Session) :
    Record.SameAt .completed (s.record j) ((runInstances e j left place s).2.record j) := by
  induction left generalizing place s with
  | zero => rfl
  | succ left ih =>
    refine Attempt.relates_andThen (R := fun s s' => Record.SameAt .completed (s.record j) (s'.record j))
      Record.SameAt.trans ?_ fun _ s' => ih (place + 1) s'
    rw [runInstance]
    split
    · rfl
    · split
      · rfl
      · exact noteOutcome_sameAt ..

/-- A completed folder lacks its row only if the row cannot be made, written or kept. -/
theorem completeFolder_rowless (lacks : ((completeFolder e j s).2.record j).lacksRow = true) :
    EndsAt e j (completeFolder e j s) := by
  rw [completeFolder] at lacks ⊢
  generalize (s.record j).write .completed (.bool true) = r at lacks ⊢
  have marked : (s.putRecord j r).record j = r := record_putRecord ..
  dsimp only at lacks ⊢
  cases found : r.value .times with
  | error fault =>
    rw [found] at lacks
    have lacks : ((s.putRecord j r).record j).lacksRow = true := lacks
    rw [marked] at lacks
    have solved := (Record.isFilled_of_lacksRow lacks).2.1
    rw [Record.isFilled_of_value_error found] at solved
    contradiction
  | ok times =>
    rw [found] at lacks
    dsimp only at lacks ⊢
    split at lacks
    · next empty =>
      have lacks : ((s.putRecord j r).record j).lacksRow = true := lacks
      rw [marked] at lacks
      have solved := (Record.isFilled_of_lacksRow lacks).2.1
      rw [Record.isFilled_of_value found] at solved
      rw [solved] at empty
      contradiction
    · next solved =>
      rw [if_neg solved]
      cases made : r.row j.label j.folder j.locations.length with
      | error fault =>
        refine ⟨.record fault, rfl, .unmade ?_⟩
        rw [marked]
        exact bind_of_error made _
      | ok row =>
        rw [made] at lacks
        dsimp only at lacks ⊢
        cases asked : e.scribe ((s.putRecord j r).rows.length + 1) (tableLine row) with
        | some refusal =>
          refine ⟨.table refusal, rfl, .refused ?_ asked⟩
          rw [marked]
          exact made
        | none =>
          rw [asked] at lacks
          dsimp only at lacks ⊢
          cases kept : r.append .rows (.array row) with
          | error fault =>
            refine ⟨.record fault, rfl, .unmade ?_⟩
            change ((s.putRecord j r).record j).addRow j = _
            rw [marked]
            exact (bind_of_ok made _).trans kept
          | ok r' =>
            rw [kept] at lacks
            have lacks : ((({ s.putRecord j r with rows := s.rows ++ [row] } : Session).putRecord j
              r').record j).lacksRow = true := lacks
            rw [record_putRecord] at lacks
            have none := (Record.isFilled_of_lacksRow lacks).2.2
            rw [Record.isFilled_append_rows kept] at none
            contradiction

/-- A folder whose row the table refuses is left completed without it, however sound its record. -/
theorem completeFolder_of_refused {row : List Json} {refusal : Refusal}
    (solved : (s.record j).isFilled .times = true) (rowless : (s.record j).isFilled .rows = false)
    (made : ((s.record j).write .completed (.bool true)).row j.label j.folder j.locations.length = .ok row)
    (refused : e.scribe (s.rows.length + 1) (tableLine row) = some refusal) :
    (completeFolder e j s).1 = .error (.table refusal) ∧
      ((completeFolder e j s).2.record j).lacksRow = true := by
  have completed : ((s.record j).write .completed (.bool true)).isFilled .completed = true := by
    rw [Record.isFilled, Record.write, OrderedMap.get?_insert_self]
    rfl
  rw [← Record.isFilled_eq (Record.sameAt_write _ (.bool true) (f := .completed) (by decide))] at solved rowless
  rw [completeFolder]
  generalize (s.record j).write .completed (.bool true) = r at made completed solved rowless ⊢
  cases found : r.value .times with
  | error fault =>
    rw [Record.isFilled_of_value_error found] at solved
    contradiction
  | ok times =>
    have truthy := (Record.isFilled_of_value found).symm.trans solved
    simp only [truthy, made, rows_putRecord, refused]
    refine ⟨rfl, ?_⟩
    change ((s.putRecord j r).record j).lacksRow = true
    rw [record_putRecord, Record.lacksRow, completed, solved, rowless]
    rfl

theorem resumeFolder_rowless (unfinished : (s.record j).isFilled .completed = false)
    (lacks : ((resumeFolder e j s).2.record j).lacksRow = true) : EndsAt e j (resumeFolder e j s) := by
  rw [resumeFolder] at lacks ⊢
  cases found : (s.record j).position with
  | error fault =>
    rw [found] at lacks
    have completed := (Record.isFilled_of_lacksRow lacks).1
    rw [unfinished] at completed
    contradiction
  | ok place =>
    rw [found] at lacks
    dsimp only at lacks ⊢
    have instances := runInstances_sameAt e j ((j.locations.length : Int) - place).toNat place s
    generalize runInstances e j _ place s = attempt at instances lacks ⊢
    obtain ⟨result, s'⟩ := attempt
    cases result with
    | error fault =>
      have completed := (Record.isFilled_of_lacksRow lacks).1
      rw [Attempt.andThen_error, Record.isFilled_eq instances, unfinished] at completed
      contradiction
    | ok => exact completeFolder_rowless lacks

/-- A folder that was run lacks its row if it did so before, or if the run ended for want of one. -/
theorem runFolder_rowless (lacks : ((runFolder e j s).2.record j).lacksRow = true) :
    (s.record j).lacksRow = true ∨ EndsAt e j (runFolder e j s) := by
  have opened : (s.putRecord j (s.record j)).record j = s.record j := record_putRecord ..
  rw [runFolder, opened] at lacks ⊢
  cases mark : (s.record j).isCompleted with
  | error fault =>
    rw [mark] at lacks
    exact .inl (opened ▸ lacks)
  | ok completed =>
    rw [mark] at lacks
    cases completed with
    | true => exact .inl (opened ▸ lacks)
    | false =>
      have unfinished := Record.isFilled_of_isCompleted mark
      rw [← opened] at unfinished
      exact .inr (resumeFolder_rowless unfinished lacks)

end Session

/-- The benchmark ended at the folder for want of its row, with so many lines in the table. -/
def EndsWithoutRow (groups : OrderedMap String (List Location)) (scribe : Scribe) (ledger : Ledger)
    (lines : Nat) (ended : Fault → Prop) (solver strategy folder : String) : Prop :=
  ∃ (j : Job) (fault : Fault), (j.folder, j.locations) ∈ groups.entries ∧
    solver = solverName ∧ strategy = j.strategy.name ∧ folder = j.folder ∧
    ended fault ∧ (j.recordIn ledger).Denied j scribe lines fault

/-- Folders that lack their row did so before, except for one at which the benchmark ended. -/
def LosesNoRow (groups : OrderedMap String (List Location)) (scribe : Scribe) (before after : Ledger)
    (lines : Nat) (ended : Fault → Prop) : Prop :=
  ∀ solver strategy folder, (after.record solver strategy folder).lacksRow = true →
    (before.record solver strategy folder).lacksRow = true ∨
      EndsWithoutRow groups scribe after lines ended solver strategy folder

theorem LosesNoRow.mono {groups : OrderedMap String (List Location)} {scribe : Scribe}
    {before after : Ledger} {lines : Nat} {ended ended' : Fault → Prop}
    (loses : LosesNoRow groups scribe before after lines ended)
    (weaker : ∀ fault, ended fault → ended' fault) :
    LosesNoRow groups scribe before after lines ended' := by
  intro solver strategy folder lacks
  refine (loses solver strategy folder lacks).imp_right ?_
  rintro ⟨j, fault, member, solvers, strategies, folders, failed, rowless⟩
  exact ⟨j, fault, member, solvers, strategies, folders, weaker _ failed, rowless⟩

namespace Session

/-- The run, from one session on, loses no row but at its end. -/
def RunKeepsRows (groups : OrderedMap String (List Location)) (scribe : Scribe) (s : Session)
    (run : Run) : Prop :=
  LosesNoRow groups scribe s.ledger run.2.ledger (run.2.rows.length + 1) fun fault => run.1 = .error fault

variable {groups : OrderedMap String (List Location)} {scribe : Scribe} {e : Setting} {j : Job}
  {s : Session} {run : Run} {next : Unit → Session → Run} {jobs : List Job}

theorem RunKeepsRows.andThen (first : RunKeepsRows groups scribe s run)
    (second : ∀ s', RunKeepsRows groups scribe s' (next () s')) :
    RunKeepsRows groups scribe s (run.andThen next) := by
  obtain ⟨result, s'⟩ := run
  cases result with
  | error fault => exact first
  | ok =>
    intro solver strategy folder lacks
    obtain before | ended := second s' solver strategy folder lacks
    · obtain before | ⟨j, fault, -, -, -, -, failed, -⟩ := first solver strategy folder before
      · exact .inl before
      · contradiction
    · exact .inr ended

theorem runFolder_keepsRows (member : (j.folder, j.locations) ∈ groups.entries) (e : Setting) (s : Session) :
    RunKeepsRows groups e.scribe s (runFolder e j s) := by
  intro solver strategy folder lacks
  by_cases here : solver = solverName ∧ strategy = j.strategy.name ∧ folder = j.folder
  · obtain ⟨rfl, rfl, rfl⟩ := here
    refine (runFolder_rowless lacks).imp_right fun ⟨fault, failed, rowless⟩ => ?_
    exact ⟨j, fault, member, rfl, rfl, rfl, failed, rowless⟩
  · have same := (runFolder_worksOn e j s).ledger solver strategy folder here
    rw [Ledger.record_eq, same, ← Ledger.record_eq] at lacks
    exact .inl lacks

theorem runFolders_keepsRows (members : ∀ j ∈ jobs, (j.folder, j.locations) ∈ groups.entries) (e : Setting)
    (s : Session) : RunKeepsRows groups e.scribe s (runFolders e jobs s) := by
  induction jobs generalizing s with
  | nil => exact fun _ _ _ lacks => .inl lacks
  | cons j rest ih =>
    rw [List.forall_mem_cons] at members
    exact (runFolder_keepsRows members.1 e s).andThen fun s' => ih members.2 s'

theorem runStrategies_keepsRows (e : Setting) (strategies : List Strategy) (s : Session) :
    RunKeepsRows groups e.scribe s (runStrategies e groups strategies s) := by
  induction strategies generalizing s with
  | nil => exact fun _ _ _ lacks => .inl lacks
  | cons strategy rest ih =>
    have members : ∀ j ∈ jobsOf groups strategy, (j.folder, j.locations) ∈ groups.entries :=
      fun _ listed => (mem_jobsOf.mp listed).2
    have folders := runFolders_keepsRows members e (Suite.openPage strategy e s).2
    have opened : RunKeepsRows groups e.scribe s (runStrategy e groups strategy s) := by
      intro solver name folder lacks
      have ledger : (Suite.openPage strategy e s).2.ledger.record solver name folder =
        s.ledger.record solver name folder := Ledger.record_putFolders ..
      exact ledger ▸ folders solver name folder lacks
    exact opened.andThen ih

end Session

/-- A benchmark that goes on from a ledger leaves a ledger in which no further folder is completed
without its row, but for one: the folder at which the benchmark ended because its row could
not be made, written or kept. A benchmark that comes to its end, or is ended by anything else,
leaves none. -/
theorem rowless_folder_ended_run {d : Disk} {staff : Staff} {ledger : Ledger}
    (made : (d.makeDirectories resultsDirectory).1 = .ok ())
    (loads : (loadBackup (prepared d)).2 = .ok ledger.json) :
    ∃ (rows : List (List Json)) (ledger' : Ledger),
      (run d staff).disk =
        withResults (prepared d) (tableLeft rows (run d staff).fault) ledger'.json ∧
      LosesNoRow (groupByFolder (findInstances (prepared d))) staff.scribe ledger ledger'
        (rows.length + 1) fun fault => (run d staff).fault = some fault := by
  obtain ⟨output, ran⟩ := exists_run_eq_goOn made loads staff
  rw [ran, goOn]
  obtain ⟨rows, unread⟩ := recordedRows ledger.json
  dsimp only
  -- Neither a refused start of the table nor an unreadable record changes the ledger.
  have idle (fault : Fault) : LosesNoRow (groupByFolder (findInstances (prepared d))) staff.scribe ledger
      ledger (rows.length + 1) (some fault = some ·) := fun _ _ _ lacks => .inl lacks
  cases staff.scribe.refusal? 0 (tableLines rows) with
  | some refusal => exact ⟨rows, ledger, rfl, idle _⟩
  | none =>
    cases unread with
    | some fault => exact ⟨rows, ledger, rfl, idle _⟩
    | none =>
      dsimp only
      rw [resume, Ledger.ofJson_json]
      generalize started : (⟨ledger, 0, rows, _, []⟩ : Session) = s
      have same : s.ledger = ledger := started ▸ rfl
      have keeps : Session.RunKeepsRows _ staff.scribe s (Session.run (settingOn (prepared d) staff)
        (groupByFolder (findInstances (prepared d))) s) := Session.runStrategies_keepsRows _ _ _
      rw [Session.RunKeepsRows, same] at keeps
      generalize Session.run (settingOn (prepared d) staff) _ s = outcome at keeps
      obtain ⟨result, s'⟩ := outcome
      cases result with
      | error fault =>
        exact ⟨s'.rows, s'.ledger, rfl, keeps.mono fun _ same => congrArg some (Except.error.inj same)⟩
      | ok =>
        refine ⟨s'.rows, s'.ledger, rfl, keeps.mono fun _ same => ?_⟩
        contradiction

/-- The benchmark that goes on after the first task leaves such a ledger. -/
theorem rowless_folder_ended_run_of_halfSolved :
    ∃ (rows : List (List Json)) (ledger : Ledger),
      (run HalfSolved.after HalfSolved.staff).disk = withResults (prepared HalfSolved.after)
        (tableLeft rows (run HalfSolved.after HalfSolved.staff).fault) ledger.json ∧
      LosesNoRow (groupByFolder (findInstances (prepared HalfSolved.after))) HalfSolved.staff.scribe
        HalfSolved.stopped.ledger ledger (rows.length + 1) fun fault =>
          (run HalfSolved.after HalfSolved.staff).fault = some fault :=
  rowless_folder_ended_run HalfSolved.begins_after.made HalfSolved.begins_after.loads

/-! A ledger that counts a time, but no memory, for the one instance of a folder. -/
namespace Unweighed

def location : Location := ⟨"", ["benchmarks", "a", "x.cnf"]⟩

def sheet : Sheet := { Sheet.blank with times := [.ofInt 1], completedTests := 1, sat := 1 }

def ledger : Ledger := Ledger.putRecord .empty solverName Strategy.ordered.name "a" sheet.record

def setting : Setting := ⟨⟨fun _ _ => .ok .timedOut, fun _ _ => none⟩, fun _ => .ok [[1]]⟩

/-- What is left when the folder has been run. -/
def left : Run := Session.run setting (groupByFolder [location]) ⟨ledger, 0, [], [], []⟩

theorem lacksRow_ledger (solver strategy folder : String) :
    (ledger.record solver strategy folder).lacksRow = false := by
  by_cases here : solver = solverName ∧ strategy = Strategy.ordered.name ∧ folder = "a"
  · obtain ⟨rfl, rfl, rfl⟩ := here
    rw [Ledger.record_eq, ledger, Ledger.record?_putRecord_self]
    decide +kernel
  · rw [Ledger.record_eq, ledger, Ledger.record?_putRecord_of_ne here]
    rfl

end Unweighed

open Unweighed in
/-- No folder of the ledger lacks its row, but once the benchmark has ended for want of a memory
to average, the folder is completed without one, and the next benchmark will skip it. -/
theorem row_lost_for_want_of_memory :
    (∀ solver strategy folder, (ledger.record solver strategy folder).lacksRow = false) ∧
      left.1 = .error (.record .noData) ∧
      (left.2.ledger.record solverName Strategy.ordered.name "a").lacksRow = true :=
  ⟨lacksRow_ledger, by decide +kernel, by decide +kernel⟩

/-! A folder run from the start, on a disk that is full once the table has the names of its columns. -/
namespace Crowded

def setting : Setting where
  worker _ _ := .ok (.solved
    ⟨⟨true, ⟨1, 0, 0⟩⟩, .finite false 0, .finite false 0, .finite false 0, .finite false 0⟩)
  scribe lines _ := if lines = 0 then none else some ⟨"[Errno 28] No space left on device", ""⟩
  read _ := .ok [[1]]

def left : Run := Session.run setting (groupByFolder [Unweighed.location]) ⟨.empty, 0, [], [], []⟩

example : left.1 = .error (.table ⟨"[Errno 28] No space left on device", ""⟩) ∧
    (left.2.ledger.record solverName Strategy.ordered.name "a").lacksRow = true := by decide +kernel

end Crowded

end Backjump.Benchmark
