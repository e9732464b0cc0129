import Backjump.Proofs.Dimacs.File
import Backjump.Proofs.Dimacs.Layout
import Backjump.Proofs.Search.Answer
import Backjump.Walkthrough

/-! The search of a walkthrough. A file that parses holds non-zero integers, so its clauses
are never refused and the solver is fresh for the problem that they number. The search
records and checks every step, and it ends with a verdict unless its budget is spent. -/
namespace Backjump

variable {files : FileAccess} {r : Walkthrough.Request} {setup : Setup} {clauses : List (List Int)}
  {clause : List Int} {strategy : Option String} {budget : Option Int} {checks records : Bool}

theorem Literal.ofInt?_of_mem {n : Int} (nonzero : 0 ∉ clause) (mem : n ∈ clause) :
    ofInt? n = some ⟨.number n.natAbs, 0 < n⟩ :=
  if_neg fun zero : n = 0 => nonzero (zero ▸ mem)

theorem Clause.Input.denotes_integers (nonzero : 0 ∉ clause) :
    Clause.Input.Denotes (.ofItems (clause.map .integer)) (clause.filterMap Literal.ofInt?) := by
  have literal {n : Int} (mem : n ∈ clause) := Literal.ofInt?_of_mem nonzero mem
  refine ⟨_, rfl, ?_⟩
  rw [List.filterMap_eq_map_iff_forall_eq_some.mpr fun n mem => literal mem,
    List.forall₂_map_left_iff, List.forall₂_map_right_iff, List.forall₂_same]
  exact fun n mem => literal mem

namespace Walkthrough

/-- The clauses of a file are not refused. -/
theorem exists_prepared (parsed : Dimacs.clausesOfFile files r.file = .ok clauses)
    (configured : r.setup = .ok setup) :
    ∃ s₀, prepare files r = .ok s₀ ∧ Solver.Fresh setup (.ofInts clauses) s₀ := by
  obtain ⟨text, read⟩ := Dimacs.exists_text parsed
  have denoted : List.Forall₂ Clause.Input.Denotes
      (clauses.map fun c => .ofItems (c.map .integer)) (Problem.ofInts clauses) := by
    rw [Problem.ofInts, List.forall₂_map_left_iff, List.forall₂_map_right_iff, List.forall₂_same]
    exact fun clause mem => Clause.Input.denotes_integers (Dimacs.clauses_of_parse read mem).1
  obtain ⟨s₀, made, fresh⟩ := Solver.exists_fresh_of_inputs setup denoted
  refine ⟨s₀, ?_, fresh⟩
  rw [prepare, parsed, configured]
  change (Solver.ofInputs (.ok setup) _).mapError Fault.setup = .ok s₀
  rw [made]
  rfl

/-- A search that came to its end, on which the walk reports. -/
structure Finished (files : FileAccess) (r : Request) (setup : Setup) (f : Formula) (s : Solver) :
    Prop where
  prepared : prepare files r = .ok (Solver.start setup f)
  ran : ∃ n, (Solver.start setup f).finish = (.ok n, s) ∧ s = (Solver.start setup f).after n
  halted : s.phase.isTerminal = true
  report : ∃ log, walk files r = reportSearch files r.out s log

theorem Finished.reached {f : Formula} {s : Solver} (finished : Finished files r setup f s) :
    Reached setup f s := by
  obtain ⟨n, -, rfl⟩ := finished.ran
  exact (Reached.start setup f).after n

/-- The search ends, or its budget is spent and nothing is printed. -/
theorem walk_cases (parsed : Dimacs.clausesOfFile files r.file = .ok clauses)
    (configured : r.setup = .ok setup) :
    (∃ k log, setup.budget = some k ∧
        walk files r = ⟨[], log, [], some (.search (.budgetExhausted k))⟩) ∨
      ∃ f s, f.Renders (.ofInts clauses) ∧ Finished files r setup f s := by
  obtain ⟨s₀, prepared, fresh⟩ := exists_prepared parsed configured
  obtain ⟨f, renders, rfl⟩ := fresh.exists_start
  have reached := Reached.start setup f
  obtain ⟨n, -, ran, halted⟩ | ⟨k, budget, stopped⟩ :=
    reached.runUntil_cases (Paced.start setup f _) (Nat.le_add_left ..)
  · have finish := reached.finish_eq.trans ran
    refine .inr ⟨f, _, renders, prepared, ⟨n, finish, rfl⟩, halted, ?_⟩
    rw [walk, prepared]
    dsimp only
    rw [finish]
    exact ⟨_, rfl⟩
  · left
    rw [← reached.finish_eq] at stopped
    rw [walk, prepared]
    dsimp only
    generalize (Solver.start setup f).finish = outcome at stopped
    obtain ⟨answer, s⟩ := outcome
    cases stopped
    exact ⟨k, _, budget, rfl⟩

/-- The pictures are listed behind the lines about the search. -/
theorem output_reportSearch {out : Setting String} {s : Solver} {log : List String} :
    (reportSearch files out s log).output = resultLines s ++
      (reportSearch files out s log).figures.map fun figure => "wrote " ++ figure.path := by
  cases out with
  | unset | dropped => exact (List.append_nil _).symm
  | value out =>
    rw [reportSearch]
    split
    · exact (List.append_nil _).symm
    · rfl

end Walkthrough

end Backjump
