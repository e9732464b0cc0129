import Backjump.Proofs.Search.Learning

/-! Unit propagation is confluent. The first step of a search makes no decision, so
every entry it leaves is forced by clauses alone and is true under each valuation
that leaves none of them urgent. A fixpoint over clauses with the same literals is
such a valuation. So a run over the one formula cannot clash where a run over the
other settles, and two that settle give the same values. The order of clauses and of
literals, repetitions and tautologies do not count. -/
namespace Backjump

namespace Problem

/-- Each clause of either problem has the literals of a clause of the other. -/
def SameClauses (p q : Problem) : Prop :=
  (∀ c ∈ p, ∃ d ∈ q, c ⊆ d ∧ d ⊆ c) ∧ ∀ d ∈ q, ∃ c ∈ p, c ⊆ d ∧ d ⊆ c

instance (p q : Problem) : Decidable (p.SameClauses q) := inferInstanceAs (Decidable (_ ∧ _))

/-- One literal leads to the next, beside a clause that is always true. -/
def cascade : Problem := ofInts [[1], [-1, 2], [3, -3], [-2, 4]]

/-- The cascade from its end, with repetitions. -/
def reversedCascade : Problem := ofInts [[4, -2, 4], [-3, 3], [2, -1], [-1, 2], [1, 1]]

end Problem

/-- The first step answers a settled state or a clash, on level zero in either case. -/
inductive FirstStep (setup : Setup) (f : Formula) : Attempt Solver Phase → Prop where
  | fixpoint {s : Solver} : Searching setup f s none → s.formula = f → s.level = 0 →
      Settled f s.trail.entries → FirstStep setup f (.ok .fixpoint, s)
  | conflict {s : Solver} {k : Clash} : Searching setup f s (some k) → s.formula = f → s.level = 0 →
      k.position = s.trail.entries.length → FirstStep setup f (.ok .conflict, s)

variable {setup setup' : Setup} {f g : Formula} {p q : Problem} {s t : Solver} {clash : Option Clash}
  {v : Valuation}

namespace Problem.SameClauses

theorem symm (same : p.SameClauses q) : q.SameClauses p :=
  ⟨fun d member => (same.2 d member).imp fun _ found => ⟨found.1, found.2.symm⟩,
    fun c member => (same.1 c member).imp fun _ found => ⟨found.1, found.2.symm⟩⟩

/-- A valuation that leaves no clause of the one problem urgent leaves none of the other. -/
theorem calm (same : p.SameClauses q) (renders : f.Renders p) (renders' : g.Renders q)
    (calm : ∀ c ∈ f.clauses, ¬c.Urgent v) : ∀ d ∈ g.clauses, ¬d.Urgent v := by
  intro d member urgent
  obtain ⟨ls, listed, literals⟩ := renders'.exists_literals member
  obtain ⟨ks, listed', forth, back⟩ := same.2 ls listed
  obtain ⟨c, member', literals'⟩ := renders.exists_clause listed'
  apply calm c member'
  apply urgent.congr
  intro l
  rw [literals, literals', List.mem_eraseDups, List.mem_eraseDups]
  exact ⟨fun known => forth known, fun known => back known⟩

end Problem.SameClauses

namespace Searching

/-- Without decisions all entries are true where no clause is urgent. -/
theorem value_of_ground (searching : Searching setup f s clash) (ground : s.level = 0)
    (calm : ∀ c ∈ s.formula.clauses, ¬c.Urgent v) :
    ∀ e ∈ s.trail.entries, e.literal.value v = some true := by
  let any (_ : Key) : Prop := True
  have closed : ∀ e ∈ s.trail.entries, any (some e.symbol) → e.literal.value v = some true ∨
      e.isDecision = false ∧ ∀ key ∈ e.sources s.formula, any key := fun e member _ =>
    .inr ⟨searching.isDecision_of_ground ground e member, fun _ _ => trivial⟩
  intro e member
  exact value_eq_true_of_closed searching.justified calm closed e member trivial

end Searching

theorem firstStep_start (affordable : setup.budget ≠ some 0) (f : Formula) :
    FirstStep setup f (Solver.start setup f).step := by
  have reached := Reached.start setup f
  have phase : (Solver.start setup f).phase = .propagate := Solver.phase_record _
  have blank := Solver.sameTrail_record (Solver.blank setup f)
  obtain ⟨next, s', transits, stepped⟩ :=
    reached.exists_transition (by rw [phase]; rfl) (Solver.exhausted_start affordable f)
  obtain ⟨new, ended, rounds, same, -, outcome⟩ := transits.exists_rounds phase
  have entered := Solver.sameTrail_record (s'.enter next)
  have stage := reached.step.2.stage
  rw [stepped] at stage ⊢
  have formula : (s'.enter next).record.formula = f := by
    rw [entered.formula]
    exact same.formula.trans (rounds.formula_eq.trans blank.formula)
  have level : (s'.enter next).record.level = 0 := by
    rw [entered.level]
    exact same.level.trans (rounds.level_eq.trans blank.level)
  rcases outcome with ⟨rfl, calm⟩ | ⟨rfl, -⟩
  · refine .fixpoint (stage.searching_of_free (by rw [Solver.phase_record]; rfl)) formula level ?_
    have settled := Solver.urgent?_eq_none.mp calm
    rw [← same.formula, ← same.trail] at settled
    rw [entered.trail, ← formula, entered.formula]
    exact settled
  · obtain ⟨k, searching, behind⟩ := stage.exists_clash (by rw [Solver.phase_record]; rfl)
    exact .conflict searching formula level behind

/-- Values that each entry of a list has are those that the list gives. -/
theorem eq_of_valuationOf {es : List Entry} (made : ∀ e ∈ es, e.literal.value v = some true)
    {x : Symbol} {b : Bool} (known : valuationOf es x = some b) : v x = some b := by
  obtain ⟨e, member, rfl, rfl⟩ := mem_of_valuationOf known
  exact Literal.value_eq_true.mp (made e member)

namespace FirstStep

variable {outcome outcome' : Attempt Solver Phase}

theorem answer (first : FirstStep setup f outcome) :
    outcome.1 = .ok .conflict ∨ outcome.1 = .ok .fixpoint := by
  cases first with
  | fixpoint => exact .inr rfl
  | conflict => exact .inl rfl

theorem recorded (first : FirstStep setup f outcome) : outcome.2.trail.Recorded := by
  cases first with
  | fixpoint searching => exact searching.trail
  | conflict searching => exact searching.trail

/-- If the one run settles, the other does and makes nothing true that the first does not. -/
theorem settles_with (first : FirstStep setup f outcome) (first' : FirstStep setup' g outcome')
    (calm : ∀ v, (∀ c ∈ f.clauses, ¬c.Urgent v) → ∀ d ∈ g.clauses, ¬d.Urgent v)
    (settles : outcome.1 = .ok .fixpoint) :
    outcome'.1 = .ok .fixpoint ∧ ∀ x b, outcome'.2.trail.valuation x = some b →
      outcome.2.trail.valuation x = some b := by
  have values := first.recorded.valuation_eq
  have values' := first'.recorded.valuation_eq
  cases first with
  | conflict => simp at settles
  | fixpoint _ _ _ settled =>
    -- What this run ends with is a valuation that leaves no clause of the other urgent.
    have calm := calm _ settled
    rw [values, values']
    cases first' with
    | fixpoint searching' formula ground =>
      subst formula
      exact ⟨rfl, fun x b => eq_of_valuationOf (searching'.value_of_ground ground calm)⟩
    | conflict searching' formula ground behind =>
      subst formula
      obtain ⟨d, member, urgent⟩ := searching'.exists_urgent_of_ground ground behind _
      exact absurd urgent (calm d member)

end FirstStep

/-- Of problems with the same clauses, whatever the setups, the first step of a fresh solver finds a
conflict for both or settles for both, and then with the same values. -/
theorem unit_propagation_confluent (same : p.SameClauses q) (fresh : Solver.Fresh setup p s)
    (fresh' : Solver.Fresh setup' q t) (affordable : setup.budget ≠ some 0)
    (affordable' : setup'.budget ≠ some 0) :
    (s.step.1 = .ok .conflict ∨ s.step.1 = .ok .fixpoint) ∧
      (s.step.1 = .ok .conflict ↔ t.step.1 = .ok .conflict) ∧
      (s.step.1 = .ok .fixpoint → t.step.1 = .ok .fixpoint →
        ∀ x, s.step.2.trail.assignment.get? x = t.step.2.trail.assignment.get? x) := by
  obtain ⟨f, renders, rfl⟩ := fresh.exists_start
  obtain ⟨g, renders', rfl⟩ := fresh'.exists_start
  have first := firstStep_start affordable f
  have first' := firstStep_start affordable' g
  have onward := first.settles_with first' fun _ => same.calm renders renders'
  have back := first'.settles_with first fun _ => same.symm.calm renders' renders
  refine ⟨first.answer, ⟨fun clashes => ?_, fun clashes => ?_⟩, fun settles settles' x => ?_⟩
  · refine first'.answer.resolve_right fun settles => ?_
    rw [(back settles).1] at clashes
    contradiction
  · refine first.answer.resolve_right fun settles => ?_
    rw [(onward settles).1] at clashes
    contradiction
  · exact Option.ext fun b => ⟨(back settles').2 x b, (onward settles).2 x b⟩

theorem unit_propagation_confluent_of_cascade :
    ∃ s t, s = Solver.start ⟨.ordered, none, true, false⟩ (.ofProblem .cascade) ∧
      t = Solver.start ⟨.jeroslow, some 1, false, true⟩ (.ofProblem .reversedCascade) ∧
      s.step.1 = .ok .fixpoint ∧ t.step.1 = .ok .fixpoint ∧
      s.step.2.trail.assignment.keys = [.number 1, .number 2, .number 4] ∧
      ∀ x, s.step.2.trail.assignment.get? x = t.step.2.trail.assignment.get? x := by
  have fresh := Solver.fresh_ofProblem ⟨.ordered, none, true, false⟩ .cascade
  have fresh' := Solver.fresh_ofProblem ⟨.jeroslow, some 1, false, true⟩ .reversedCascade
  have same : Problem.cascade.SameClauses .reversedCascade := by decide
  obtain ⟨-, -, agree⟩ := unit_propagation_confluent same fresh fresh' (by decide) (by decide)
  have settles : (Solver.start ⟨.ordered, none, true, false⟩ (.ofProblem .cascade)).step.1 =
      .ok .fixpoint := by decide +kernel
  have settles' : (Solver.start ⟨.jeroslow, some 1, false, true⟩
      (.ofProblem .reversedCascade)).step.1 = .ok .fixpoint := by decide +kernel
  exact ⟨_, _, rfl, rfl, settles, settles', by decide +kernel, agree settles settles'⟩

end Backjump
