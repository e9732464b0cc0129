import Backjump.Proofs.Search.Answer

/-! Learned clauses follow by unit propagation alone. If every valuation leaves a
clause urgent, propagation from scratch cannot end settled, in whatever order it
scans, and its first step finds a conflict. This is so for the formula of a
conflict together with the denials of the literals that the analysis answers:
they make the point true and the other literals false, and truth spreads from
there to the clause of the conflict. It is so for the formula of a refuted search
alone, where nothing was decided. -/
namespace Backjump

/-- The clauses of a formula as a caller would write them. -/
def Formula.problem (f : Formula) : Problem := f.clauses.map Clause.literals

/-- Unit clauses, one for the negation of each literal. -/
def Clause.denials (c : Clause) : Problem := c.literals.map fun l => [l.negate]

/-- The first step of every fresh solver that may take one finds a conflict. -/
def Problem.ClashesAtOnce (p : Problem) : Prop :=
  ∀ setup s, setup.budget ≠ some 0 → Solver.Fresh setup p s →
    s.step.1 = .ok .conflict ∧ s.step.2.phase = .conflict

variable {setup : Setup} {f g : Formula} {p : Problem} {s s₀ : Solver} {k : Clash} {c : Clause}
  {v : Valuation} {point : Entry} {cut : Analysis.Cut} {ahead passed : List Entry} {a : Analysis}

/-- What is urgent in a formula is urgent in every rendering of a problem with its clauses. -/
theorem Formula.Renders.exists_urgent (renders : g.Renders p) (included : f.problem ⊆ p)
    (urgent : ∃ c ∈ f.clauses, c.Urgent v) : ∃ c ∈ g.clauses, c.Urgent v := by
  obtain ⟨c, member, urgent⟩ := urgent
  obtain ⟨c', member', literals⟩ := renders.exists_clause (included (List.mem_map_of_mem member))
  have same : c'.literals = c.literals := literals.trans (Clause.ofLiterals_of_nodup c.nodup false)
  exact ⟨c', member', urgent.congr fun l => by rw [same]⟩

/-- Propagation does not settle where every valuation leaves a clause urgent. -/
theorem Reached.step_finds_conflict (reached : Reached setup f s) (phase : s.phase = .propagate)
    (affordable : s.exhausted = false) (urgent : ∀ v, ∃ c ∈ s.formula.clauses, c.Urgent v) :
    s.step.1 = .ok .conflict ∧ s.step.2.phase = .conflict := by
  obtain ⟨next, s', transits, stepped⟩ := reached.exists_transition (by rw [phase]; rfl) affordable
  rw [stepped]
  obtain ⟨new, ended, rounds, -, -, ⟨-, calm⟩ | ⟨rfl, -⟩⟩ := transits.exists_rounds phase
  · obtain ⟨c, member, urgent⟩ := urgent (valuationOf ended.trail.entries)
    rw [← rounds.formula_eq] at member
    exact absurd urgent (Solver.urgent?_eq_none.mp calm c member)
  · exact ⟨rfl, Solver.phase_record _⟩

/-- A budget that is not zero is not spent at the start. -/
theorem Solver.exhausted_start (affordable : setup.budget ≠ some 0) (f : Formula) :
    (Solver.start setup f).exhausted = false := by
  by_contra spent
  obtain ⟨n, budget, low⟩ := Solver.exhausted_eq_true.mp ((Bool.not_eq_false _).mp spent)
  have zero : (Solver.start setup f).steps = 0 := Solver.steps_record _
  rw [(Reached.start setup f).stage.setup_eq] at budget
  rw [zero, Nat.le_zero] at low
  exact affordable (low ▸ budget)

theorem Problem.clashesAtOnce_of_urgent
    (urgent : ∀ f : Formula, f.Renders p → ∀ v, ∃ c ∈ f.clauses, c.Urgent v) : p.ClashesAtOnce := by
  intro setup s affordable fresh
  obtain ⟨f, renders, rfl⟩ := fresh.exists_start
  apply (Reached.start setup f).step_finds_conflict (Solver.phase_record _)
    (Solver.exhausted_start affordable f)
  have formula : (Solver.start setup f).formula = f := (Solver.sameTrail_record _).formula
  rw [formula]
  exact urgent f renders

/-- Where no clause is urgent, denials make the literals false. -/
theorem Clause.value_of_denials (renders : g.Renders p) (denied : c.denials ⊆ p)
    (calm : ∀ c ∈ g.clauses, ¬c.Urgent v) : ∀ l ∈ c.literals, l.value v = some false := by
  intro l listed
  obtain ⟨unit, member, literals⟩ :=
    renders.exists_clause (denied (List.mem_map.mpr ⟨l, listed, rfl⟩))
  change unit.literals = [l.negate] at literals
  rw [← Literal.value_negate_eq_true]
  apply Clause.value_eq_true_of_calm (calm unit member) (by simp [literals])
  intro k other different
  rw [literals, List.mem_singleton] at other
  exact absurd other different

/-- The formula and the denials of what was learned clash at once. -/
theorem Analysis.Answers.clashesAtOnce (answers : a.Answers s k point cut ahead passed)
    (coherent : s.Coherent (some k)) (behind : k.position = s.trail.entries.length) :
    Problem.ClashesAtOnce (s.formula.problem ++ a.clause.denials) := by
  apply Problem.clashesAtOnce_of_urgent
  intro g renders v
  by_contra! calm
  have denied := Clause.value_of_denials renders (List.subset_append_right ..) calm
  rw [answers.literals, List.forall_mem_cons] at denied
  obtain ⟨pointFalse, learnedFalse⟩ := denied
  rw [← Literal.value_negate_eq_true, Literal.negate_negate] at pointFalse
  have urgent := answers.concludes.exists_urgent coherent behind pointFalse fun l listed =>
    learnedFalse l (List.mem_eraseDups.mpr listed)
  obtain ⟨c, member, urgent⟩ := renders.exists_urgent (List.subset_append_left ..) urgent
  exact calm c member urgent

/-- Without decisions everything on the trail follows by unit propagation. -/
theorem Searching.clashesAtOnce (searching : Searching setup f s (some k))
    (behind : k.position = s.trail.entries.length) (ground : s.level = 0) :
    s.formula.problem.ClashesAtOnce := by
  apply Problem.clashesAtOnce_of_urgent
  intro g renders v
  exact renders.exists_urgent (List.Subset.refl _) (searching.exists_urgent_of_ground ground behind v)

/-- At a conflict above level zero the learned clause holds wherever the formula, or the problem,
does, and its literals' denials beside the formula clash at once. The formula of a refuted search
clashes at once. -/
theorem learned_clause_refuted_by_propagation (fresh : Solver.Fresh setup p s₀) {n : Nat}
    (ran : s₀.after n = s) :
    (s.phase = .conflict → 0 < s.level → ∃ a, analyzeConflict s.graph s.trail s.level = .ok a ∧
      Problem.ClashesAtOnce (s.formula.problem ++ a.clause.denials) ∧
      (∀ m, s.formula.TrueIn m → a.clause.TrueIn m) ∧ ∀ m, p.Models m → a.clause.TrueIn m) ∧
    (s.phase = .unsatisfiable → s.formula.problem.ClashesAtOnce) := by
  obtain ⟨f, renders, rfl, reached⟩ := fresh.exists_reached
  have stage := (ran ▸ reached n).stage
  constructor
  · intro phase positive
    obtain ⟨k, a, point, cut, ahead, passed, searching, behind, answers⟩ :=
      stage.exists_answer phase positive
    have entailed := answers.explains.entailed
    refine ⟨a, answers.answered, answers.clashesAtOnce searching.toCoherent behind, entailed, ?_⟩
    intro m models
    exact entailed m (searching.entailed m ((renders.trueIn_iff m).mpr models))
  · intro phase
    obtain ⟨k, searching, behind, ground⟩ := stage.exists_refutation phase
    exact searching.clashesAtOnce behind ground

theorem learned_clause_refuted_by_propagation_of_allPairs :
    ∃ s₀, s₀ = Solver.start ⟨.ordered, none, true, false⟩ (.ofProblem .allPairs) ∧
      (∃ a, analyzeConflict (s₀.after 4).graph (s₀.after 4).trail (s₀.after 4).level = .ok a ∧
        ((Solver.start ⟨.jeroslow, none, true, false⟩ (.ofProblem
          ((s₀.after 4).formula.problem ++ a.clause.denials))).after 1).phase = .conflict) ∧
      ((Solver.start ⟨.jeroslow, none, true, false⟩ (.ofProblem
        (s₀.after 8).formula.problem)).after 1).phase = .conflict := by
  have fresh := Solver.fresh_ofProblem ⟨.ordered, none, true, false⟩ .allPairs
  obtain ⟨a, analysed, clashes, -, -⟩ :=
    (learned_clause_refuted_by_propagation fresh (n := 4) rfl).1 (by decide +kernel) (by decide +kernel)
  have refuted := (learned_clause_refuted_by_propagation fresh (n := 8) rfl).2 (by decide +kernel)
  refine ⟨_, rfl, ⟨a, analysed, ?_⟩, ?_⟩
  · exact (clashes _ _ (by decide) (Solver.fresh_ofProblem ⟨.jeroslow, none, true, false⟩ _)).2
  · exact (refuted _ _ (by decide) (Solver.fresh_ofProblem ⟨.jeroslow, none, true, false⟩ _)).2

end Backjump
