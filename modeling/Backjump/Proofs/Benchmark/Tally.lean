import Backjump.Proofs.Benchmark.Table

/-! The accounts of a benchmark. The sheet of a folder counts the outcomes of its first
instances, each once and in one place: noting an outcome keeps the account, so it holds
whenever a run saves, wherever the run went on from. In the end every instance is
counted, and the folders of a strategy together count all that were found. -/
namespace Backjump.Benchmark

/-- What a worker says of the instances that it solved. -/
def Outcome.reports (os : List Outcome) : List Report := os.filterMap report?

open Outcome (reports)

/-- The best of the values, and of a start that stands for none; no value beats it. -/
structure ExtremeOf (beats : Binary64 → Binary64 → Bool) (start : Binary64) (xs : List Binary64)
    (best : Binary64) : Prop where
  found : best ∈ start :: xs
  unbeaten : ∀ x ∈ xs, beats x best = false

/-- The sheet has gathered the reports. -/
structure Sheet.Gathers (t : Sheet) (ps : List Report) : Prop where
  sat : t.sat = ps.countP (·.finding.satisfiable)
  answers : t.sat + t.unsat = ps.length
  times : t.times = ps.map (·.time)
  mems : t.mems = ps.map (·.averageMemory)
  decisions : t.decisions = (ps.map (·.finding.effort.decisions)).sum
  conflicts : t.conflicts = (ps.map (·.finding.effort.conflicts)).sum
  learned : t.learned = (ps.map (·.finding.effort.learned)).sum
  leastMemory : ExtremeOf Binary64.lt (.infinite false) (ps.map (·.leastMemory)) t.leastMemory
  greatestMemory : ExtremeOf (fun x y => y.lt x) (.infinite true) (ps.map (·.greatestMemory))
    t.greatestMemory

/-- The sheet counts the outcomes, each in one place. -/
structure Sheet.Tallies (t : Sheet) (os : List Outcome) : Prop where
  tests : t.completedTests = os.length
  counts : t.sat + t.unsat + t.inconclusive + t.failed = t.completedTests
  samples : t.times.length = t.sat + t.unsat ∧ t.mems.length = t.sat + t.unsat
  inconclusive : t.inconclusive = os.count .timedOut
  gathers : t.Gathers (reports os)

/-- The outcomes of instances in turn, up to the first one that has none because it cannot be read or
the worker takes no more. -/
def Setting.outcomes (e : Setting) (strategy : Strategy) : Nat → List Location → List Outcome
  | _, [] => []
  | turn, l :: rest =>
    match e.outcome strategy turn l with
    | .error _ => []
    | .ok o => o :: outcomes e strategy (turn + 1) rest

/-- The outcomes still to come in a folder of which so many instances were counted. -/
def Session.further (e : Setting) (j : Job) (s : Session) (counted : Nat) : List Outcome :=
  e.outcomes j.strategy s.submitted (j.locations.drop counted)

/-- The record says what became of the first instances of the folder, and of all once the
folder is completed. -/
def Job.Accounts (j : Job) (os : List Outcome) (r : Record) : Prop :=
  ∃ t : Sheet, r = t.record ∧ t.Tallies os ∧ t.completedTests ≤ j.locations.length ∧
    (t.completed = true → t.completedTests = j.locations.length)

variable {t : Sheet} {os : List Outcome} {o : Outcome} {beats : Binary64 → Binary64 → Bool}
  {start best x : Binary64} {xs : List Binary64}

/-- The better one of an extreme so far and a new value is an extreme of all values. -/
theorem ExtremeOf.append (extreme : ExtremeOf beats start xs best)
    (trans : ∀ {x y z}, beats x y = true → beats y z = true → beats x z = true)
    (irrefl : beats x x = false) :
    ExtremeOf beats start (xs ++ [x]) (if beats x best then x else best) := by
  cases better : beats x best with
  | false =>
    rw [if_neg Bool.false_ne_true]
    refine ⟨List.mem_append_left [x] extreme.found, fun y member => ?_⟩
    obtain early | here := List.mem_append.mp member
    · exact extreme.unbeaten y early
    · rwa [List.mem_singleton.mp here]
  | true =>
    rw [if_pos rfl]
    refine ⟨by simp, fun y member => ?_⟩
    obtain early | here := List.mem_append.mp member
    · by_contra beaten
      have passed := trans (Bool.eq_true_of_not_eq_false beaten) better
      rw [extreme.unbeaten y early] at passed
      contradiction
    · rwa [List.mem_singleton.mp here]

theorem Binary64.lt_irrefl (x : Binary64) : x.lt x = false := by
  cases x <;> simp [Binary64.lt]

namespace Sheet

theorem Gathers.addReport {ps : List Report} (gathers : t.Gathers ps) (p : Report) :
    ((t.addEffort p.finding.effort).addAnswer p).Gathers (ps ++ [p]) where
  sat := by
    rw [List.countP_append, ← gathers.sat, List.countP_singleton]
    rfl
  answers := by
    have answers := gathers.answers
    simp only [addAnswer, addEffort, List.length_append, List.length_singleton]
    split <;> omega
  times := by simp [addAnswer, addEffort, gathers.times]
  mems := by simp [addAnswer, addEffort, gathers.mems]
  decisions := by simp [addAnswer, addEffort, gathers.decisions]
  conflicts := by simp [addAnswer, addEffort, gathers.conflicts]
  learned := by simp [addAnswer, addEffort, gathers.learned]
  leastMemory := by
    rw [List.map_append]
    simp only [addAnswer, addEffort, Number.lt_real]
    exact gathers.leastMemory.append Binary64.lt_trans (Binary64.lt_irrefl _)
  greatestMemory := by
    rw [List.map_append]
    simp only [addAnswer, addEffort, Number.lt_real]
    exact gathers.greatestMemory.append (fun first second => Binary64.lt_trans second first)
      (Binary64.lt_irrefl _)

theorem tallies_blank : blank.Tallies [] where
  tests := rfl
  counts := rfl
  samples := ⟨rfl, rfl⟩
  inconclusive := rfl
  gathers := ⟨rfl, rfl, rfl, rfl, rfl, rfl, rfl, ⟨.head _, by simp [reports]⟩, ⟨.head _, by simp [reports]⟩⟩

/-- Noting an outcome keeps the account. -/
theorem Tallies.note (tallies : t.Tallies os) (o : Outcome) : (t.note o).Tallies (os ++ [o]) := by
  have tests : (t.note o).completedTests = (os ++ [o]).length := by
    rw [completedTests_note, tallies.tests, List.length_append, List.length_singleton]
  have gathers := tallies.gathers
  -- A report goes to the samples and the effort; the other outcomes leave these as they are.
  have gathered : (t.note o).Gathers (reports (os ++ [o])) := by
    have reported : reports (os ++ [o]) = reports os ++ reports [o] := List.filterMap_append ..
    rw [reported]
    cases o with
    | solved p => exact { gathers.addReport p with }
    | timedOut | failed =>
      change Gathers _ (reports os ++ [])
      rw [List.append_nil]
      exact { gathers with }
  refine ⟨tests, ?_, ?_, ?_, gathered⟩
  · have counts := tallies.counts
    cases o <;> simp only [Sheet.note, absorb, addAnswer, addEffort]
    · split <;> omega
    · omega
    · omega
  · rw [gathered.times, gathered.mems, List.length_map, List.length_map, gathered.answers]
    exact ⟨rfl, rfl⟩
  · rw [List.count_append, ← tallies.inconclusive]
    cases o <;> rfl

theorem Tallies.complete (tallies : t.Tallies os) : t.complete.Tallies os :=
  ⟨tallies.tests, tallies.counts, tallies.samples, tallies.inconclusive, { tallies.gathers with }⟩

theorem Tallies.addRows (tallies : t.Tallies os) (rows : List (List Json)) : (t.addRows rows).Tallies os :=
  ⟨tallies.tests, tallies.counts, tallies.samples, tallies.inconclusive, { tallies.gathers with }⟩

end Sheet

namespace Session

variable {e : Setting} {j k : Job} {s s' : Session} {new : List Outcome} {rest : List Location}
  {ledger : Ledger} {saves : List Ledger}

/-- The saves have the accounts after one more outcome each, and then after all. -/
def Notes (j : Job) (os new : List Outcome) (saves : List Ledger) : Prop :=
  ∀ n ledger, saves[n]? = some ledger → j.Accounts (os ++ new.take (n + 1)) (j.recordIn ledger)

theorem Notes.none (j : Job) (os new : List Outcome) : Notes j os new [] := fun _ _ saved => by simp at saved

/-- A save after the next outcome goes before those after further ones. -/
theorem Notes.cons (here : j.Accounts (os ++ [o]) (j.recordIn ledger))
    (notes : Notes j (os ++ [o]) new saves) : Notes j os (o :: new) (ledger :: saves) := by
  intro n later saved
  cases n with
  | zero =>
    obtain rfl := Option.some.inj saved
    exact here
  | succ n =>
    have held := notes n later saved
    rwa [List.append_assoc] at held

/-- Saves after all outcomes go behind the others. -/
theorem Notes.append {last : List Ledger} (notes : Notes j os new saves)
    (enough : new.length ≤ saves.length)
    (full : ∀ ledger ∈ last, j.Accounts (os ++ new) (j.recordIn ledger)) :
    Notes j os new (saves ++ last) := by
  intro n later saved
  obtain early | late := Nat.lt_or_ge n saves.length
  · exact notes n later (by rwa [List.getElem?_append_left early] at saved)
  · rw [List.getElem?_append_right late] at saved
    rw [List.take_of_length_le (by omega)]
    exact full later (List.mem_of_getElem? saved)

/-- Since the earlier session the outcomes were counted and saved one by one in the record of the
job, which now has the sheet. -/
structure Counts (j : Job) (os new : List Outcome) (s s' : Session) (t : Sheet) : Prop where
  record : s'.record j = t.record
  tallies : t.Tallies (os ++ new)
  unfinished : t.completed = false
  few : t.completedTests ≤ j.locations.length
  saves : ∃ added, s'.saves = s.saves ++ added ∧ added.length = new.length ∧ Notes j os new added

theorem Counts.none (here : s.record j = t.record) (tallies : t.Tallies os)
    (unfinished : t.completed = false) (few : t.completedTests ≤ j.locations.length) :
    Counts j os [] s s t where
  record := here
  tallies := by rwa [List.append_nil]
  unfinished := unfinished
  few := few
  saves := ⟨[], (List.append_nil _).symm, rfl, .none j os []⟩

/-- One more outcome is counted and saved before the others are. -/
theorem Counts.cons {s'' : Session} {u : Sheet} (here : j.Accounts (os ++ [o]) (s'.record j))
    (saved : s'.saves = s.saves ++ [s'.ledger]) (counts : Counts j (os ++ [o]) new s' s'' u) :
    Counts j os (o :: new) s s'' u where
  record := counts.record
  tallies := by
    have tallies := counts.tallies
    rwa [List.append_assoc] at tallies
  unfinished := counts.unfinished
  few := counts.few
  saves := by
    obtain ⟨added, saves, length, notes⟩ := counts.saves
    refine ⟨s'.ledger :: added, ?_, congrArg (· + 1) length, notes.cons here⟩
    rw [saves, saved, List.append_assoc]
    rfl

/-- Running instances counts their outcomes; all of them, unless one has none. -/
theorem runInstances_counts (here : s.record j = t.record) (tallies : t.Tallies os)
    (unfinished : t.completed = false) (few : os.length ≤ j.locations.length)
    (dropped : j.locations.drop os.length = rest) (e : Setting) :
    ∃ u : Sheet, Counts j os (e.outcomes j.strategy s.submitted rest) s
        (runInstances e j rest.length os.length s).2 u ∧
      ((runInstances e j rest.length os.length s).1 = .ok () →
        u.completedTests = j.locations.length) := by
  induction rest generalizing s t os with
  | nil =>
    have all : t.completedTests = j.locations.length := by
      rw [tallies.tests]
      exact Nat.le_antisymm few (List.drop_eq_nil_iff.mp dropped)
    exact ⟨t, .none here tallies unfinished all.le, fun _ => all⟩
  | cons l rest ih =>
    have listed : j.locations[os.length]? = some l := by
      rw [← Nat.add_zero os.length, ← List.getElem?_drop, dropped, List.getElem?_cons_zero]
    have inside : os.length < j.locations.length := (List.getElem?_eq_some_iff.mp listed).1
    have ran := runInstance_eq here (by rwa [tallies.tests]) e
    rw [tallies.tests] at ran
    rw [List.length_cons, runInstances, ran, Setting.outcomes]
    cases e.outcome j.strategy s.submitted l with
    | error fault => exact ⟨t, .none here tallies unfinished (tallies.tests ▸ few), nofun⟩
    | ok o =>
      dsimp only
      rw [Attempt.andThen_ok]
      generalize next : save (print (putRecord { s with submitted := s.submitted + 1 } j (t.note o).record)
        [progressLine j.folder l.name o.progress]) = s'
      have recorded : s'.record j = (t.note o).record := by
        rw [← next]
        exact record_putRecord ..
      have saved : s'.saves = s.saves ++ [s'.ledger] := by rw [← next]; rfl
      have turn : s'.submitted = s.submitted + 1 := by rw [← next]; rfl
      have noted := tallies.note o
      have open' : (t.note o).completed = false := (Sheet.completed_note t o).trans unfinished
      have counted : (os ++ [o]).length = os.length + 1 := List.length_append
      have dropped' : j.locations.drop (os ++ [o]).length = rest := by
        rw [counted, ← List.drop_drop, dropped, List.drop_one, List.tail_cons]
      obtain ⟨u, counts, all⟩ := ih recorded noted open' (counted ▸ inside) dropped'
      rw [counted, Nat.cast_add_one, turn] at counts
      rw [counted, Nat.cast_add_one] at all
      have accounts : j.Accounts (os ++ [o]) (s'.record j) := by
        refine ⟨t.note o, recorded, noted, ?_, ?_⟩
        · rw [noted.tests]
          exact counted ▸ inside
        · rw [open']
          exact nofun
      exact ⟨u, counts.cons accounts saved, all⟩

/-- Completing a folder leaves its accounts as they are, and saves them unless it fails. -/
theorem completeFolder_accounts (here : s.record j = t.record) (tallies : t.Tallies os)
    (full : os.length = j.locations.length) (e : Setting) :
    ∃ added, (completeFolder e j s).2.saves = s.saves ++ added ∧
      added.length = (completeFolder e j s).1.toBool.toNat ∧
      (∀ ledger ∈ added, j.Accounts os (j.recordIn ledger)) ∧
      j.Accounts os ((completeFolder e j s).2.record j) := by
  have accounts {u : Sheet} (tallies : u.Tallies os) : j.Accounts os u.record :=
    ⟨u, rfl, tallies, (tallies.tests.trans full).le, fun _ => tallies.tests.trans full⟩
  have marked : j.Accounts os ((s.putRecord j t.complete.record).record j) := by
    rw [record_putRecord]
    exact accounts tallies.complete
  rw [completeFolder_eq here]
  cases t.complete.closingRows j with
  | error fault => exact ⟨[], (List.append_nil _).symm, rfl, by simp, marked⟩
  | ok rows =>
    dsimp only
    cases e.scribe.refusal? (s.rows.length + 1) (rows.map tableLine) with
    | some refusal => exact ⟨[], (List.append_nil _).symm, rfl, by simp, marked⟩
    | none =>
      dsimp only
      generalize ended : save { s.putRecord j (t.complete.addRows rows).record with
        rows := s.rows ++ rows } = s'
      have saved : s'.saves = s.saves ++ [s'.ledger] := by rw [← ended]; rfl
      have recorded : s'.record j = (t.complete.addRows rows).record := by
        rw [← ended]
        exact record_putRecord ..
      have last : j.Accounts os (s'.record j) := recorded ▸ accounts (tallies.complete.addRows rows)
      refine ⟨[s'.ledger], saved, rfl, ?_, last⟩
      rw [List.forall_mem_singleton]
      exact last

/-- A folder that is run has its outcomes counted, and all of them if the run comes to its end. It is
saved after each outcome, and once more when it is completed. -/
theorem runFolder_accounts (accounts : j.Accounts os (s.record j)) (e : Setting) :
    ∃ added, (runFolder e j s).2.saves = s.saves ++ added ∧
      added.length = (s.further e j os.length).length +
        (if (s.record j).isCompleted = .ok true then 0 else (runFolder e j s).1.toBool.toNat) ∧
      Notes j os (s.further e j os.length) added ∧
      j.Accounts (os ++ s.further e j os.length) ((runFolder e j s).2.record j) ∧
      ((runFolder e j s).1 = .ok () → (os ++ s.further e j os.length).length = j.locations.length) := by
  obtain ⟨t, here, tallies, few, full⟩ := accounts
  have mark : (s.record j).isCompleted = .ok t.completed := here ▸ Sheet.isCompleted_record t
  rw [runFolder_eq here, mark]
  cases completed : t.completed with
  | true =>
    have all : os.length = j.locations.length := tallies.tests ▸ full completed
    have none : s.further e j os.length = [] := by
      rw [further, all, List.drop_length, Setting.outcomes]
    rw [if_pos rfl, none, List.append_nil]
    refine ⟨[], (List.append_nil _).symm, rfl, .none j os [], ⟨t, ?_, tallies, few, full⟩, fun _ => all⟩
    exact record_putRecord ..
  | false =>
    have left : ((j.locations.length : Int) - (os.length : Int)).toNat =
        (j.locations.drop os.length).length := by
      rw [List.length_drop]
      omega
    rw [if_neg Bool.false_ne_true, resumeFolder, record_putRecord, Sheet.position_record, tallies.tests]
    dsimp only
    rw [left]
    obtain ⟨u, counts, all⟩ := runInstances_counts (record_putRecord s j t.record) tallies completed
      (tallies.tests ▸ few) rfl e
    obtain ⟨added, saves, length, notes⟩ := counts.saves
    generalize runInstances e j _ _ (s.putRecord j t.record) = attempt at counts all saves
    obtain ⟨result, s'⟩ := attempt
    cases result with
    | error fault =>
      have open' : u.completed = true → u.completedTests = j.locations.length := by
        simp [counts.unfinished]
      refine ⟨added, saves, length, notes, ⟨u, counts.record, counts.tallies, counts.few, open'⟩, ?_⟩
      intro ended
      contradiction
    | ok =>
      have full := counts.tallies.tests.symm.trans (all rfl)
      obtain ⟨last, saves', closing, ended, accounts⟩ :=
        completeFolder_accounts counts.record counts.tallies full e
      refine ⟨added ++ last, ?_, ?_, notes.append length.ge ended, accounts, fun _ => full⟩
      · rw [Attempt.andThen_ok, saves', saves, List.append_assoc]
        rfl
      · rw [List.length_append, length, closing]
        rfl

end Session

end Backjump.Benchmark
