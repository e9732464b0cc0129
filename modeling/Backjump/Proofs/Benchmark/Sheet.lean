import Backjump.Benchmark.Progress
import Backjump.Proofs.OrderedMap
import Mathlib.Logic.Function.Basic

/-! The typed contents of a record. A benchmark that starts from its own records meets
no value of a wrong kind: a record then holds a sheet, all fields in their places and
of their kinds, and taking an outcome into account is an operation on sheets that
does not fail. -/
namespace Backjump.Benchmark

/-- The fields of a record in their order. -/
def Field.all : List Field :=
  [times, mems, leastMemory, greatestMemory, inconclusive, failed, completed, completedTests, rows,
    decisions, conflicts, learned, sat, unsat]

theorem Field.mem_all (f : Field) : f ∈ all := by
  cases f <;> decide

theorem Field.nodup_labels : (all.map label).Nodup := by decide

theorem Field.label_injective {f g : Field} (same : f.label = g.label) : f = g :=
  List.inj_on_of_nodup_map nodup_labels f.mem_all g.mem_all same

namespace Record

/-- The record that holds a value for each field, and nothing else. -/
def of (values : Field → Json) : Record where
  values.entries := Field.all.map fun f => (f.label, values f)
  values.nodup := by
    rw [List.map_map]
    exact Field.nodup_labels

variable {values : Field → Json} {f : Field} {x : Json} {n : Int} {count : Nat} {y z : Binary64}
  {a : List Json}

theorem entries_of (values : Field → Json) :
    (of values).values.entries = Field.all.map fun f => (f.label, values f) := rfl

@[simp] theorem value_of (values : Field → Json) (f : Field) : (of values).value f = .ok (values f) := by
  have found : (of values).values.get? f.label = some (values f) :=
    OrderedMap.get?_eq_some_iff.mpr (List.mem_map_of_mem f.mem_all)
  rw [value, found]
  rfl

@[simp] theorem write_of (values : Field → Json) (f : Field) (x : Json) :
    (of values).write f x = of (Function.update values f x) := by
  have present : f.label ∈ (of values).values :=
    OrderedMap.mem_keys_of_mem (List.mem_map_of_mem (f := fun f => (f.label, values f)) f.mem_all)
  have written : (of values).values.insert f.label x = (of (Function.update values f x)).values := by
    apply OrderedMap.ext
    rw [OrderedMap.entries_insert_of_mem present, entries_of, entries_of, List.map_map]
    apply List.map_congr_left
    intro g _
    by_cases same : g = f
    · subst same
      simp
    · have apart : g.label ≠ f.label := fun labels => same (Field.label_injective labels)
      simp [same, apart]
  exact congrArg Record.mk written

theorem update_of {change : Json → Except RecordFault Json} (changed : change (values f) = .ok x) :
    (of values).update f change = .ok (of (Function.update values f x)) := by
  simp only [update, value_of, bind, Except.bind, changed, write_of, pure, Except.pure]

theorem add_of (here : values f = .integer n) :
    (of values).add f count = .ok (of (Function.update values f (.integer (n + count)))) := by
  apply update_of
  rw [here]
  rfl

theorem append_of (here : values f = .array a) :
    (of values).append f x = .ok (of (Function.update values f (.array (a ++ [x])))) := by
  apply update_of
  rw [here]

theorem lower_of (here : values f = .real y) : (of values).lower f z =
    .ok (of (Function.update values f (.real (if (Number.real z).lt (.real y) then z else y)))) := by
  apply update_of
  rw [here, apply_ite Json.real]
  rfl

theorem raise_of (here : values f = .real y) : (of values).raise f z =
    .ok (of (Function.update values f (.real (if (Number.real y).lt (.real z) then z else y)))) := by
  apply update_of
  rw [here, apply_ite Json.real]
  rfl

theorem applyAll_cons {change : Record → Except RecordFault Record}
    {rest : List (Record → Except RecordFault Record)} {r r' : Record} (changed : change r = .ok r') :
    applyAll (change :: rest) r = applyAll rest r' := by
  rw [applyAll, changed]

end Record

/-- What is said of an outcome. -/
def Outcome.progress : Outcome → Progress
  | .timedOut => ⟨"TIMEOUT", .finite false 0, .finite false 0, 0⟩
  | .failed message => ⟨"ERROR: " ++ message, .finite false 0, .finite false 0, 0⟩
  | .solved p => ⟨if p.finding.satisfiable then "SAT" else "UNSAT", p.time, p.averageMemory,
      p.finding.effort.decisions⟩

/-- What a record says. -/
structure Sheet where
  times : List Binary64
  mems : List Binary64
  leastMemory : Binary64
  greatestMemory : Binary64
  inconclusive : Nat
  failed : Nat
  completed : Bool
  completedTests : Nat
  rows : List (List Json)
  decisions : Nat
  conflicts : Nat
  learned : Nat
  sat : Nat
  unsat : Nat

namespace Sheet

/-- The sheet of a folder before its first run. -/
def blank : Sheet :=
  ⟨[], [], .infinite false, .infinite true, 0, 0, false, 0, [], 0, 0, 0, 0, 0⟩

/-- What stands in the fields. -/
def value (t : Sheet) : Field → Json
  | .times => .array (t.times.map .real)
  | .mems => .array (t.mems.map .real)
  | .leastMemory => .real t.leastMemory
  | .greatestMemory => .real t.greatestMemory
  | .inconclusive => .integer t.inconclusive
  | .failed => .integer t.failed
  | .completed => .bool t.completed
  | .completedTests => .integer t.completedTests
  | .rows => .array (t.rows.map .array)
  | .decisions => .integer t.decisions
  | .conflicts => .integer t.conflicts
  | .learned => .integer t.learned
  | .sat => .integer t.sat
  | .unsat => .integer t.unsat

def record (t : Sheet) : Record := .of t.value

/-- Adds the effort of a search. -/
def addEffort (t : Sheet) (e : Effort) : Sheet :=
  { t with
    decisions := t.decisions + e.decisions
    conflicts := t.conflicts + e.conflicts
    learned := t.learned + e.learned }

/-- Adds an answer, its time and its memory. -/
def addAnswer (t : Sheet) (p : Report) : Sheet :=
  { t with
    sat := t.sat + if p.finding.satisfiable then 1 else 0
    unsat := t.unsat + if p.finding.satisfiable then 0 else 1
    times := t.times ++ [p.time]
    mems := t.mems ++ [p.averageMemory]
    leastMemory :=
      if (Number.real p.leastMemory).lt (.real t.leastMemory) then p.leastMemory else t.leastMemory
    greatestMemory :=
      if (Number.real t.greatestMemory).lt (.real p.greatestMemory) then p.greatestMemory
      else t.greatestMemory }

/-- Takes an outcome into account. -/
def absorb (t : Sheet) : Outcome → Sheet
  | .timedOut => { t with inconclusive := t.inconclusive + 1 }
  | .failed _ => { t with failed := t.failed + 1 }
  | .solved p => (t.addEffort p.finding.effort).addAnswer p

/-- Takes the outcome of the next instance into account. -/
def note (t : Sheet) (o : Outcome) : Sheet :=
  { t.absorb o with completedTests := t.completedTests + 1 }

variable {t t' : Sheet} {f : Field} {x : Json}

theorem record_blank : blank.record = .fresh := by
  have entries : Record.fresh.values.entries = blank.record.values.entries :=
    OrderedMap.entries_ofList Field.nodup_labels
  exact congrArg Record.mk (OrderedMap.ext entries.symm)

@[simp] theorem value_record (t : Sheet) (f : Field) : t.record.value f = .ok (t.value f) :=
  Record.value_of ..

theorem of_values {values : Field → Json} (same : ∀ f, values f = t.value f) :
    Record.of values = t.record :=
  congrArg Record.of (funext same)

theorem applyAll_effort (t : Sheet) (e : Effort) :
    Record.applyAll (Record.effortChanges e) t.record = (.ok (), (t.addEffort e).record) := by
  rw [record, Record.effortChanges, Record.applyAll_cons (Record.add_of (n := t.decisions) rfl),
    Record.applyAll_cons (Record.add_of (n := t.conflicts) rfl),
    Record.applyAll_cons (Record.add_of (n := t.learned) rfl)]
  exact congrArg (Prod.mk _) (of_values fun f => by cases f <;> rfl)

theorem add_answer (t : Sheet) (satisfiable : Bool) :
    t.record.add (if satisfiable then .sat else .unsat) 1 = .ok
      { t with
        sat := t.sat + if satisfiable then 1 else 0
        unsat := t.unsat + if satisfiable then 0 else 1 }.record := by
  cases satisfiable with
  | true =>
    refine (Record.add_of (n := t.sat) rfl).trans (congrArg _ (of_values fun f => ?_))
    cases f <;> rfl
  | false =>
    refine (Record.add_of (n := t.unsat) rfl).trans (congrArg _ (of_values fun f => ?_))
    cases f <;> rfl

theorem applyAll_answer (t : Sheet) (p : Report) :
    Record.applyAll (Record.answerChanges p) t.record = (.ok (), (t.addAnswer p).record) := by
  rw [Record.answerChanges, Record.applyAll_cons (t.add_answer p.finding.satisfiable), record,
    Record.applyAll_cons (Record.append_of (a := t.times.map .real) rfl),
    Record.applyAll_cons (Record.append_of (a := t.mems.map .real) rfl),
    Record.applyAll_cons (Record.lower_of (y := t.leastMemory) rfl),
    Record.applyAll_cons (Record.raise_of (y := t.greatestMemory) rfl)]
  refine congrArg (Prod.mk _) (of_values fun f => ?_)
  cases f with
  | times | mems => simp [value, addAnswer]
  | _ => rfl

/-- Taking an outcome into account succeeds on the record of a sheet. -/
theorem absorb_record (t : Sheet) (o : Outcome) :
    t.record.absorb o = (.ok o.progress, (t.absorb o).record) := by
  cases o with
  | timedOut =>
    rw [record, Record.absorb, Record.add_of (n := t.inconclusive) rfl]
    exact congrArg (Prod.mk _) (of_values fun f => by cases f <;> rfl)
  | failed message =>
    rw [record, Record.absorb, Record.absorbFailure, Record.add_of (n := t.failed) rfl]
    exact congrArg (Prod.mk _) (of_values fun f => by cases f <;> rfl)
  | solved p =>
    rw [Record.absorb, applyAll_effort]
    simp only [applyAll_answer]
    rfl

end Sheet

end Backjump.Benchmark
