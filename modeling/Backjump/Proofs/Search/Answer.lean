import Backjump.Proofs.Search.Termination

/-! The answer of a search is correct. The trail of a satisfied search gives every
variable a value and makes every clause true. In a refuted search all entries are
of level zero, hence true in every model of the problem, and yet they falsify a
clause that follows from it. -/
namespace Backjump

variable {setup : Setup} {f : Formula} {s s₀ : Solver} {p : Problem} {k : Clash} {clash : Option Clash}
  {a : OrderedMap Symbol Bool} {m : Interpretation}

/-- The values of an assignment, true where it has none. -/
def Interpretation.ofMap (a : OrderedMap Symbol Bool) : Interpretation := fun x => (a.get? x).getD true

/-- The assignment gives exactly the variables a value and makes every clause true. -/
structure Problem.SolvedBy (p : Problem) (a : OrderedMap Symbol Bool) : Prop where
  domain : ∀ x, x ∈ a ↔ ∃ c ∈ p, ∃ l ∈ c, l.symbol = x
  satisfied : ∀ c ∈ p, ∃ l ∈ c, a.get? l.symbol = some l.positive

/-- What an answer says of the problem. -/
def Verdict.CorrectFor (p : Problem) : Verdict Bool → Prop
  | .satisfiable a => p.SolvedBy a
  | .unsatisfiable => ∀ m, ¬p.Models m

theorem Interpretation.ofMap_of_get? {x : Symbol} {b : Bool} (found : a.get? x = some b) :
    ofMap a x = b := by
  rw [ofMap, found, Option.getD_some]

theorem Problem.mem_symbols {x : Symbol} : x ∈ p.symbols ↔ ∃ c ∈ p, ∃ l ∈ c, l.symbol = x := by
  simp [Problem.symbols]

/-- An interpretation that agrees with an assignment of all variables models what this solves. -/
theorem Problem.solvedBy_of_models (domain : ∀ x, x ∈ a ↔ x ∈ p.symbols) (models : p.Models m)
    (agrees : ∀ x b, a.get? x = some b → m x = b) : p.SolvedBy a where
  domain := fun x => (domain x).trans mem_symbols
  satisfied := by
    intro c member
    obtain ⟨l, listed, made⟩ := models c member
    have known : l.symbol ∈ a := (domain _).mpr (mem_symbols.mpr ⟨c, member, l, listed, rfl⟩)
    obtain ⟨b, found⟩ : ∃ b, a.get? l.symbol = some b := by
      rw [← Option.isSome_iff_exists, ← Option.ne_none_iff_isSome, ne_eq, OrderedMap.get?_eq_none_iff]
      exact not_not.mpr known
    exact ⟨l, listed, by rw [found, ← agrees _ _ found, made]⟩

namespace Searching

/-- A settled trail without open variables fits only models of the formula. -/
theorem trueIn_of_total (searching : Searching setup f s none)
    (settled : Settled s.formula s.trail.entries) (total : s.trail.unassigned = [])
    (fits : (valuationOf s.trail.entries).Fits m) : f.TrueIn m := by
  intro c member
  have satisfied := searching.isSatisfied_of_settled settled total
  rw [Formula.isSatisfied, List.all_eq_true] at satisfied
  obtain ⟨l, listed, made⟩ :=
    Clause.isSatisfied_iff.mp (satisfied c (searching.input.subset member))
  exact ⟨l, listed, Literal.trueIn_of_value fits made⟩

/-- No model of the formula makes all decisions true while a clash stands. -/
theorem exists_false_decision (searching : Searching setup f s (some k))
    (behind : k.position = s.trail.entries.length) (model : f.TrueIn m) :
    ∃ e ∈ s.trail.entries, e.isDecision = true ∧ ¬e.literal.TrueIn m := by
  by_contra! agrees
  obtain ⟨c, listed, urgent⟩ := Analysis.exists_urgent_of_decisions searching.toCoherent behind
    fun e member decision => Literal.value_valuation_eq_true.mpr (agrees e member decision)
  exact Clause.not_urgent_of_trueIn (searching.entailed m model c listed) urgent

theorem isDecision_of_ground (searching : Searching setup f s clash) (ground : s.level = 0) :
    ∀ e ∈ s.trail.entries, e.isDecision = false := by
  have none_ : decisionCount s.trail.entries = 0 := by
    have level := searching.level
    omega
  intro e member
  by_contra decision
  exact List.countP_eq_zero.mp none_ e member ((Bool.not_eq_false _).mp decision)

/-- A clash without decisions leaves a clause urgent under every valuation. -/
theorem exists_urgent_of_ground (searching : Searching setup f s (some k)) (ground : s.level = 0)
    (behind : k.position = s.trail.entries.length) (v : Valuation) :
    ∃ c ∈ s.formula.clauses, c.Urgent v := by
  apply Analysis.exists_urgent_of_decisions searching.toCoherent behind
  intro e member decision
  rw [searching.isDecision_of_ground ground e member] at decision
  contradiction

end Searching

theorem Reached.correctFor (reached : Reached setup f s) (renders : f.Renders p) {v : Verdict Bool}
    (halted : s.phase.isTerminal = true) (verdict : s.verdict = some v) : v.CorrectFor p := by
  obtain ⟨a, searching, settled, total, answer, keys, values⟩ |
    ⟨k, searching, behind, ground, answer⟩ := reached.stage.halted_cases halted
  · obtain rfl : Verdict.satisfiable a = v := Option.some.inj (answer.symm.trans verdict)
    have fits : (valuationOf s.trail.entries).Fits (.ofMap a) := fun x b known =>
      Interpretation.ofMap_of_get? (values ▸ known)
    have models := (renders.trueIn_iff _).mp (searching.trueIn_of_total settled total fits)
    refine Problem.solvedBy_of_models (fun x => ?_) models fun _ _ => Interpretation.ofMap_of_get?
    rw [OrderedMap.mem_iff, keys, renders.symbols_eq]
  · obtain rfl : Verdict.unsatisfiable = v := Option.some.inj (answer.symm.trans verdict)
    intro m models
    obtain ⟨e, member, decision, -⟩ :=
      searching.exists_false_decision behind ((renders.trueIn_iff m).mpr models)
    rw [searching.isDecision_of_ground ground e member] at decision
    contradiction

/-- What solving answers is the verdict of a reached state at which the search is over. -/
theorem Solver.Fresh.exists_halted (fresh : Solver.Fresh setup p s₀) (n : Nat)
    {answer : Option (Verdict Bool)} (returned : (s₀.after n).solve.1 = .ok answer) :
    ∃ f s v, f.Renders p ∧ Reached setup f s ∧ s.phase.isTerminal = true ∧ s.verdict = some v ∧
      answer = some v := by
  obtain ⟨f, renders, rfl, reached⟩ := fresh.exists_reached
  have paced := (Paced.start setup f f.symbols.length).after (Reached.start setup f) n
  obtain ⟨k, v, -, solved, halted, verdict⟩ | ⟨k, -, stopped⟩ := (reached n).solve_cases paced
  · rw [solved] at returned
    cases returned
    exact ⟨f, _, v, renders, (reached n).after k, halted, verdict, rfl⟩
  · rw [stopped] at returned
    contradiction

/-- Whatever solving answers, from the start or after some steps, is a correct verdict. -/
theorem verdict_correct (fresh : Solver.Fresh setup p s₀) (n : Nat) {answer : Option (Verdict Bool)}
    (returned : (s₀.after n).solve.1 = .ok answer) : ∃ v, answer = some v ∧ v.CorrectFor p := by
  obtain ⟨f, s, v, renders, reached, halted, verdict, rfl⟩ := fresh.exists_halted n returned
  exact ⟨v, rfl, reached.correctFor renders halted verdict⟩

theorem verdict_correct_of_allPairs :
    ∃ s₀, s₀ = Solver.start ⟨.jeroslow, none, true, true⟩ (.ofProblem .allPairs) ∧
      Solver.Fresh ⟨.jeroslow, none, true, true⟩ .allPairs s₀ ∧
      (s₀.after 4).solve.1 = .ok (some .unsatisfiable) ∧ ∀ m, ¬Problem.allPairs.Models m := by
  have fresh := Solver.fresh_ofProblem ⟨.jeroslow, none, true, true⟩ .allPairs
  have returned : ((Solver.start ⟨.jeroslow, none, true, true⟩ (.ofProblem .allPairs)).after 4).solve.1 =
      .ok (some .unsatisfiable) := by decide +kernel
  obtain ⟨v, same, correct⟩ := verdict_correct fresh 4 returned
  cases same
  exact ⟨_, rfl, fresh, returned, correct⟩

end Backjump
