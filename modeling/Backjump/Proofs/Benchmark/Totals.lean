import Backjump.Proofs.Benchmark.Tally
import Mathlib.Algebra.BigOperators.Group.List.Basic
import Mathlib.Data.List.Induction

/-! The totals of a benchmark. Whatever a benchmark saves or leaves, the record of each folder
counts the outcomes of the instances it was run on, and the next run goes on from there:
the accounts of one folder pass through the runs of all others. A benchmark that comes to
its end has counted every instance once with each strategy. -/
namespace Backjump.Benchmark

/-- The records that a folder can have, each with the outcomes it counts: that of a folder that
was never run, those that a run of it saves, and what a run leaves, however it ends. -/
inductive Job.Recorded (j : Job) : List Outcome → Record → Prop
  | fresh : j.Recorded [] .fresh
  | saved {e : Setting} {s : Session} {os : List Outcome} {n : Nat} {ledger : Ledger}
      (before : j.Recorded os (s.record j))
      (save : (Session.runFolder e j s).2.saves[s.saves.length + n]? = some ledger) :
      j.Recorded (os ++ (s.further e j os.length).take (n + 1)) (j.recordIn ledger)
  | left {e : Setting} {s : Session} {os : List Outcome} (before : j.Recorded os (s.record j)) :
      j.Recorded (os ++ s.further e j os.length) ((Session.runFolder e j s).2.record j)

namespace Ledger

/-- The folders of the groups have records, with any strategy. -/
def Begun (groups : OrderedMap String (List Location)) (ledger : Ledger) : Prop :=
  ∀ j : Job, (j.folder, j.locations) ∈ groups.entries → ∃ os, j.Recorded os (j.recordIn ledger)

/-- The record of the folder counts all its instances. -/
def Covers (ledger : Ledger) (j : Job) : Prop :=
  ∃ os, j.Recorded os (j.recordIn ledger) ∧ os.length = j.locations.length

end Ledger

variable {groups : OrderedMap String (List Location)} {j k : Job} {os : List Outcome} {r : Record}
  {e : Setting} {s s' s'' : Session} {ledger : Ledger} {jobs : List Job}

theorem Job.Recorded.accounts (recorded : j.Recorded os r) : j.Accounts os r := by
  induction recorded with
  | fresh => exact ⟨.blank, Sheet.record_blank.symm, Sheet.tallies_blank, Nat.zero_le _, nofun⟩
  | saved before save ih =>
    obtain ⟨added, saves, -, notes, -⟩ := Session.runFolder_accounts ih _
    rw [saves, List.getElem?_append_right (Nat.le_add_right ..), Nat.add_sub_cancel_left] at save
    exact notes _ _ save
  | left before ih =>
    obtain ⟨-, -, -, -, accounts, -⟩ := Session.runFolder_accounts ih _
    exact accounts

theorem Job.apart_of_ne (here : (j.folder, j.locations) ∈ groups.entries)
    (there : (k.folder, k.locations) ∈ groups.entries) (differ : j ≠ k) : j.Apart k := by
  by_contra same
  rw [Job.Apart, not_or, not_not, not_not] at same
  obtain ⟨strategies, folders⟩ := same
  obtain ⟨strategy, folder, locations⟩ := j
  obtain ⟨strategy', folder', locations'⟩ := k
  obtain rfl : folder = folder' := folders
  obtain rfl := Strategy.name_injective strategies
  obtain rfl : locations = locations' := OrderedMap.value_unique here there
  exact differ rfl

namespace Session

/-- The later session and all that was saved before it have records for all folders, and no
instance that was counted is counted no more. -/
structure Carries (groups : OrderedMap String (List Location)) (s s' : Session) : Prop where
  begun : s'.ledger.Begun groups
  saves : ∃ added, s'.saves = s.saves ++ added ∧ ∀ l ∈ added, l.Begun groups
  covered : ∀ j : Job, (j.folder, j.locations) ∈ groups.entries → s.ledger.Covers j → s'.ledger.Covers j

namespace Carries

theorem refl (begun : s.ledger.Begun groups) : Carries groups s s :=
  ⟨begun, ⟨[], (List.append_nil _).symm, by simp⟩, fun _ _ covered => covered⟩

theorem trans (first : Carries groups s s') (second : Carries groups s' s'') : Carries groups s s'' where
  begun := second.begun
  saves := by
    obtain ⟨added, saves, begun⟩ := first.saves
    obtain ⟨added', saves', begun'⟩ := second.saves
    refine ⟨added ++ added', by rw [saves', saves, List.append_assoc], ?_⟩
    exact List.forall_mem_append.mpr ⟨begun, begun'⟩
  covered j member covered := second.covered j member (first.covered j member covered)

end Carries

/-- Running a folder keeps the accounts of all, and completes its own. -/
theorem runFolder_carries (begun : s.ledger.Begun groups) (member : (k.folder, k.locations) ∈ groups.entries)
    (e : Setting) : Carries groups s (runFolder e k s).2 ∧
      ((runFolder e k s).1 = .ok () → (runFolder e k s).2.ledger.Covers k) := by
  obtain ⟨os, recorded⟩ := begun k member
  have left : k.Recorded _ ((runFolder e k s).2.record k) := .left recorded
  obtain ⟨added, saves, -, -, -, all⟩ := runFolder_accounts (s := s) recorded.accounts e
  obtain ⟨agrees, added', saves', agree⟩ := runFolder_worksOn e k s
  obtain rfl : added' = added := List.append_cancel_left (saves'.symm.trans saves)
  refine ⟨⟨fun j here => ?_, ⟨added', saves, fun l saved j here => ?_⟩, fun j here covered => ?_⟩,
    fun ended => ⟨_, left, all ended⟩⟩
  · by_cases same : j = k
    · subst same
      exact ⟨_, left⟩
    · rw [(Job.apart_of_ne here member same).recordIn_eq agrees]
      exact begun j here
  · by_cases same : j = k
    · subst same
      obtain ⟨n, inside, rfl⟩ := List.mem_iff_getElem.mp saved
      have save : (runFolder e j s).2.saves[s.saves.length + n]? = some added'[n] := by
        rw [saves, List.getElem?_append_right (Nat.le_add_right ..), Nat.add_sub_cancel_left]
        exact List.getElem?_eq_getElem inside
      exact ⟨_, .saved recorded save⟩
    · rw [(Job.apart_of_ne here member same).recordIn_eq (agree l saved)]
      exact begun j here
  · by_cases same : j = k
    · subst same
      -- There is nothing left to run in a folder that is covered.
      obtain ⟨os', recorded', full⟩ := covered
      have none : s.further e j os'.length = [] := by
        rw [further, full, List.drop_length, Setting.outcomes]
      have left' : j.Recorded (os' ++ s.further e j os'.length) ((runFolder e j s).2.record j) :=
        .left recorded'
      rw [none, List.append_nil] at left'
      exact ⟨os', left', full⟩
    · rw [Ledger.Covers, (Job.apart_of_ne here member same).recordIn_eq agrees]
      exact covered

/-- Running folders one after the other keeps the accounts and completes them all. -/
theorem runFolders_carries (begun : s.ledger.Begun groups)
    (members : ∀ k ∈ jobs, (k.folder, k.locations) ∈ groups.entries) (e : Setting) :
    Carries groups s (runFolders e jobs s).2 ∧
      ((runFolders e jobs s).1 = .ok () → ∀ k ∈ jobs, (runFolders e jobs s).2.ledger.Covers k) := by
  induction jobs generalizing s with
  | nil => exact ⟨.refl begun, by simp⟩
  | cons k rest ih =>
    rw [List.forall_mem_cons] at members
    obtain ⟨carries, covers⟩ := runFolder_carries begun members.1 e
    rw [runFolders]
    generalize runFolder e k s = attempt at carries covers
    obtain ⟨result, s'⟩ := attempt
    cases result with
    | error fault => exact ⟨carries, nofun⟩
    | ok =>
      obtain ⟨carries', covers'⟩ := ih carries.begun members.2
      rw [Attempt.andThen_ok]
      refine ⟨carries.trans carries', fun ended => List.forall_mem_cons.mpr ⟨?_, covers' ended⟩⟩
      exact carries'.covered k members.1 (covers rfl)

/-- Opening the page of a strategy changes no record. -/
theorem openPage_carries (begun : s.ledger.Begun groups) (strategy : Strategy) (e : Setting) :
    Carries groups s (Suite.openPage strategy e s).2 := by
  have same (j : Job) : j.recordIn (Suite.openPage strategy e s).2.ledger = j.recordIn s.ledger :=
    Ledger.record_putFolders ..
  refine ⟨fun j here => ?_, ⟨[], (List.append_nil _).symm, by simp⟩, fun j _ covered => ?_⟩
  · rw [same]
    exact begun j here
  · rw [Ledger.Covers, same]
    exact covered

/-- Running strategies one after the other keeps the accounts and completes their folders. -/
theorem runStrategies_carries (begun : s.ledger.Begun groups) (e : Setting) (strategies : List Strategy) :
    Carries groups s (runStrategies e groups strategies s).2 ∧
      ((runStrategies e groups strategies s).1 = .ok () →
        ∀ strategy ∈ strategies, ∀ j ∈ jobsOf groups strategy,
          (runStrategies e groups strategies s).2.ledger.Covers j) := by
  induction strategies generalizing s with
  | nil => exact ⟨.refl begun, by simp⟩
  | cons strategy rest ih =>
    have opens := openPage_carries begun strategy e
    have members : ∀ j ∈ jobsOf groups strategy, (j.folder, j.locations) ∈ groups.entries :=
      fun _ listed => (mem_jobsOf.mp listed).2
    obtain ⟨carries, covers⟩ := runFolders_carries opens.begun members e
    have carries := opens.trans carries
    have ran : runStrategy e groups strategy s =
      runFolders e (jobsOf groups strategy) (Suite.openPage strategy e s).2 := rfl
    rw [← ran] at carries covers
    rw [runStrategies]
    generalize runStrategy e groups strategy s = attempt at carries covers
    obtain ⟨result, s'⟩ := attempt
    cases result with
    | error fault => exact ⟨carries, nofun⟩
    | ok =>
      obtain ⟨carries', covers'⟩ := ih carries.begun
      rw [Attempt.andThen_ok]
      refine ⟨carries.trans carries', fun ended => List.forall_mem_cons.mpr ⟨?_, covers' ended⟩⟩
      intro j listed
      exact carries'.covered j (mem_jobsOf.mp listed).2 (covers rfl j listed)

end Session

section Sizes

/-- An instance goes into one group. -/
theorem sum_lengths_insert (m : OrderedMap String (List Location)) (folder : String) (l : Location) :
    ((m.insert folder ((m.get? folder).getD [] ++ [l])).entries.map fun g => g.2.length).sum =
      (m.entries.map fun g => g.2.length).sum + 1 := by
  by_cases here : folder ∈ m
  · have one : (m.keys.map fun name => if name = folder then 1 else 0).sum = 1 := by
      rw [List.sum_map_eq_nsmul_single folder _ fun name other _ => if_neg other,
        List.count_eq_one_of_mem m.keys_nodup here]
      simp
    rw [OrderedMap.keys, List.map_map] at one
    rw [OrderedMap.entries_insert_of_mem here, List.map_map, ← one, ← List.sum_map_add]
    congr 1
    apply List.map_congr_left
    intro g member
    by_cases same : g.1 = folder
    · have found : m.get? folder = some g.2 := OrderedMap.get?_eq_some_iff.mpr (same ▸ member)
      simp [same, found]
    · simp [same]
  · rw [OrderedMap.entries_insert_of_not_mem here, OrderedMap.get?_eq_none_iff.mpr here]
    simp

/-- The groups together have all instances. -/
theorem sum_lengths_groups (ls : List Location) :
    ((groupByFolder ls).entries.map fun g => g.2.length).sum = ls.length := by
  induction ls using List.reverseRecOn with
  | nil => rfl
  | append_singleton ls l ih =>
    rw [groupByFolder, List.foldl_append, List.foldl_cons, List.foldl_nil, ← groupByFolder,
      sum_lengths_insert, ih, List.length_append, List.length_singleton]

end Sizes

/-- Nothing is lost and nothing is counted twice. A folder that has any record of its own is run on:
a ledger is saved after each further outcome, and one more if the folder is completed; these
ledgers hold the accounts of exactly the outcomes so far, and so does what is left at the end; a
run without a fault has counted every instance of the folder. A whole benchmark goes on from such
records to such records, however it ends, and if it ends without a fault the folders of each
strategy count as many instances as there are. -/
theorem statistics_account_for_outcomes (recorded : j.Recorded os (s.record j)) {locations : List Location}
    (begun : s'.ledger.Begun (groupByFolder locations)) (e : Setting) :
    ((Session.runFolder e j s).2.saves.length = s.saves.length + (s.further e j os.length).length +
      (if (s.record j).isCompleted = .ok true then 0 else (Session.runFolder e j s).1.toBool.toNat)) ∧
    (∀ n ledger, (Session.runFolder e j s).2.saves[s.saves.length + n]? = some ledger →
      j.Accounts (os ++ (s.further e j os.length).take (n + 1)) (j.recordIn ledger)) ∧
    j.Accounts (os ++ s.further e j os.length) ((Session.runFolder e j s).2.record j) ∧
    ((Session.runFolder e j s).1 = .ok () →
      (os ++ s.further e j os.length).length = j.locations.length) ∧
    (∃ added, (Session.run e (groupByFolder locations) s').2.saves = s'.saves ++ added ∧
      ∀ ledger ∈ (Session.run e (groupByFolder locations) s').2.ledger :: added,
        ∀ k : Job, (k.folder, k.locations) ∈ (groupByFolder locations).entries →
          ∃ os, k.Recorded os (k.recordIn ledger) ∧ k.Accounts os (k.recordIn ledger)) ∧
    ((Session.run e (groupByFolder locations) s').1 = .ok () → ∀ strategy,
      ∃ counts : List Nat, ((jobsOf (groupByFolder locations) strategy).mapM fun k =>
          ((Session.run e (groupByFolder locations) s').2.record k).position) =
            .ok (counts.map Int.ofNat) ∧ counts.sum = locations.length) := by
  obtain ⟨added, saves, length, notes, accounts, all⟩ := Session.runFolder_accounts recorded.accounts e
  obtain ⟨carries, covers⟩ := Session.runStrategies_carries begun e Strategy.all
  have count : (Session.runFolder e j s).2.saves.length = s.saves.length + added.length := by
    rw [saves, List.length_append]
  rw [length, ← Nat.add_assoc] at count
  refine ⟨count, fun n ledger saved => ?_, accounts, all, ?_, fun ended strategy => ?_⟩
  · rw [saves, List.getElem?_append_right (Nat.le_add_right ..), Nat.add_sub_cancel_left] at saved
    exact notes n ledger saved
  · obtain ⟨added', saves', begun'⟩ := carries.saves
    have all := List.forall_mem_cons.mpr ⟨carries.begun, begun'⟩
    refine ⟨added', saves', fun ledger member k here => ?_⟩
    obtain ⟨os', recorded'⟩ := all ledger member k here
    exact ⟨os', recorded', recorded'.accounts⟩
  · have counted : ∀ k ∈ jobsOf (groupByFolder locations) strategy,
        ((Session.run e (groupByFolder locations) s').2.record k).position =
          .ok (Int.ofNat k.locations.length) := by
      intro k listed
      obtain ⟨os', recorded', full⟩ := covers ended strategy (by cases strategy <;> decide) k listed
      obtain ⟨t, here, tallies, -⟩ := recorded'.accounts
      change (k.recordIn (Session.run e (groupByFolder locations) s').2.ledger).position = _
      rw [Session.run, here, Sheet.position_record, tallies.tests, full]
      rfl
    refine ⟨(jobsOf (groupByFolder locations) strategy).map (·.locations.length), ?_, ?_⟩
    · rw [mapM_eq_ok counted, List.map_map]
      rfl
    · rw [← sum_lengths_groups locations, jobsOf, List.map_map]
      rfl

/-- Before anything was run there is a record for every folder. -/
theorem Ledger.begun_empty (groups : OrderedMap String (List Location)) : Ledger.Begun groups .empty :=
  fun _ _ => ⟨[], .fresh⟩

/-! Three instances of one folder, of which a first run counts only one. -/
namespace Interrupted

def locations : List Location :=
  [⟨"", ["benchmarks", "a", "x.cnf"]⟩, ⟨"", ["benchmarks", "a", "y.cnf"]⟩,
    ⟨"", ["benchmarks", "a", "z.cnf"]⟩]

def job : Job := ⟨.ordered, "a", locations⟩

def report : Report :=
  ⟨⟨true, ⟨1, 0, 0⟩⟩, .finite false 0, .finite false 0, .finite false 0, .finite false 0⟩

/-- The first instance takes too long, the second is solved, and the third fails. -/
def staff : Staff where
  worker _ task := .ok <| match task.location.name with
    | "x.cnf" => .timedOut
    | "y.cnf" => .solved report
    | _ => .failed "out of memory"
  scribe _ _ := none

/-- The second instance cannot be read. -/
def broken : Setting where
  toStaff := staff
  read l := if l.name = "y.cnf" then .error (.disk (.missing l.text)) else .ok [[1]]

def mended : Setting := ⟨staff, fun _ => .ok [[1]]⟩

def start : Session := ⟨.empty, 0, [], [], []⟩

def stopped : Session := (Session.runFolder broken job start).2

theorem recorded : job.Recorded [.timedOut] (stopped.record job) := by
  have outcomes : start.further broken job 0 = [.timedOut] := by decide +kernel
  have left : job.Recorded ([] ++ start.further broken job 0) (stopped.record job) := .left .fresh
  rwa [outcomes] at left

end Interrupted

open Interrupted in
/-- The second run counts the other two instances and saves after each of them, and a benchmark of
its own counts all three. -/
theorem statistics_account_for_outcomes_of_interrupted :
    (∃ (ledger : Ledger) (t : Sheet),
      (Session.runFolder mended job stopped).2.saves[stopped.saves.length]? = some ledger ∧
      job.recordIn ledger = t.record ∧ t.completedTests = 2 ∧ t.sat = 1 ∧ t.failed = 0) ∧
    (∃ t : Sheet, (Session.runFolder mended job stopped).2.record job = t.record ∧
      t.completedTests = 3 ∧ t.sat = 1 ∧ t.unsat = 0 ∧ t.inconclusive = 1 ∧ t.failed = 1) ∧
    ∀ strategy, ∃ counts : List Nat,
      ((jobsOf (groupByFolder locations) strategy).mapM fun k =>
        ((Session.run mended (groupByFolder locations) start).2.record k).position) =
          .ok (counts.map Int.ofNat) ∧ counts.sum = 3 := by
  have begun : start.ledger.Begun (groupByFolder locations) := Ledger.begun_empty _
  obtain ⟨count, saved, accounts, -, -, totals⟩ := statistics_account_for_outcomes recorded begun mended
  have outcomes : stopped.further mended job 1 = [.solved report, .failed "out of memory"] := by
    decide +kernel
  have ended : (Session.run mended (groupByFolder locations) start).1 = .ok () := by decide +kernel
  rw [List.length_singleton, outcomes] at count accounts saved
  have first : stopped.saves.length < (Session.runFolder mended job stopped).2.saves.length := by
    rw [count, List.length_cons]
    omega
  obtain ⟨t, here, tallies, -⟩ := accounts
  obtain ⟨u, here', tallies', -⟩ := saved 0 _ (List.getElem?_eq_getElem first)
  have counts' := tallies'.counts
  have tests' : u.completedTests = 2 := tallies'.tests
  have sat' : u.sat = 1 := tallies'.gathers.sat
  have inconclusive' : u.inconclusive = 1 := tallies'.inconclusive
  have tests : t.completedTests = 3 := tallies.tests
  have counts := tallies.counts
  have sat : t.sat = 1 := tallies.gathers.sat
  have answers : t.sat + t.unsat = 1 := tallies.gathers.answers
  have inconclusive : t.inconclusive = 1 := tallies.inconclusive
  exact ⟨⟨_, u, List.getElem?_eq_getElem first, here', tests', sat', by omega⟩,
    ⟨t, here, tests, sat, by omega, inconclusive, by omega⟩, totals ended⟩

end Backjump.Benchmark
