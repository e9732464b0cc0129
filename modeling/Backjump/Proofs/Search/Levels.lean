import Backjump.Proofs.Search.Run

/-! The levels of a search are complete. Below the current level the entries that
are kept leave no clause unit or falsified, whatever was learned since. So an
implied entry above level zero was forced at its own level: with all its reasons
on lower levels its antecedent would have been unit there. -/
namespace Backjump

variable {setup : Setup} {f : Formula} {p : Problem} {s s₀ : Solver} {clash : Option Clash}
  {before after : List Entry} {e : Entry}

/-- An implied entry above level zero has a source of its own level. -/
theorem Searching.exists_source_of_level (searching : Searching setup f s clash)
    (split : s.trail.entries = before ++ e :: after) (implied : e.isDecision = false)
    (positive : 0 < e.level) :
    ∃ source ∈ before, source.level = e.level ∧ some source.symbol ∈ e.sources s.formula := by
  by_contra! elsewhere
  obtain ⟨i, antecedent⟩ := Entry.exists_antecedent implied
  obtain ⟨place, c, rfl, found, forces⟩ := searching.justified before e after split i antecedent
  have member : e ∈ s.trail.entries := by simp [split]
  have distinct := searching.trail.distinct
  have top := searching.level_le e member
  have sorted := searching.layered.sorted
  rw [split, List.pairwise_append] at sorted
  -- Without one the antecedent forces the entry a level below already.
  apply searching.settled (e.level - 1) (by omega) (by omega) c (List.mem_of_getElem? found)
  right
  refine ⟨e.literal, forces.member, ?_, ?_⟩
  · rw [Literal.value_eq_none, valuationOf_eq_none]
    intro e' kept same
    obtain ⟨held, low⟩ := mem_upTo.mp kept
    obtain rfl := searching.eq_of_symbol held member same
    omega
  · intro l listed different
    obtain ⟨source, earlier, against, isSource⟩ :=
      Justified.exists_source_of_literal antecedent found forces listed different
    have held : source ∈ s.trail.entries := by simp [split, earlier]
    have low := sorted.2.2 source earlier e (by simp)
    have other := elsewhere source earlier
    have below : source.level ≤ e.level - 1 := by
      by_contra high
      exact other (by omega) isSource
    exact value_false_of_mem (distinct_upTo distinct) (mem_upTo.mpr ⟨held, below⟩) against

/-- After any number of steps no clause, input or learned, is falsified or unit under the entries
up to a level below the current one, and the antecedent of an entry that was implied above level
zero names another variable of the same level. -/
theorem no_missed_implication (fresh : Solver.Fresh setup p s₀) (n : Nat) :
    (∀ level, 0 ≤ level → level < (s₀.after n).level → ∀ c ∈ (s₀.after n).formula.clauses,
      c.openLiterals? (valuationOf (upTo level (s₀.after n).trail.entries)) ≠ some [] ∧
      ∀ l, c.openLiterals? (valuationOf (upTo level (s₀.after n).trail.entries)) ≠ some [l]) ∧
    ∀ e ∈ (s₀.after n).trail.entries, ∀ i, e.antecedent = some i → 0 < e.level →
      ∃ c, (s₀.after n).formula.clauseAt? i = some c ∧ ∃ l ∈ c.literals, l.symbol ≠ e.symbol ∧
        ∃ e' ∈ (s₀.after n).trail.entries, e'.symbol = l.symbol ∧ e'.level = e.level := by
  obtain ⟨f, -, rfl, reached⟩ := fresh.exists_reached
  obtain ⟨clash, searching, -⟩ := (reached n).stage.exists_searching
  generalize (Solver.start setup f).after n = s at searching ⊢
  constructor
  · intro level nonneg below c member
    exact Clause.openLiterals?_of_calm (searching.settled level nonneg below c member)
  · intro e member i antecedent positive
    obtain ⟨before, after, split, justified⟩ := searching.justified.exists_split member
    have implied : e.isDecision = false := by rw [Entry.isDecision, antecedent]; rfl
    obtain ⟨source, earlier, here, isSource⟩ :=
      searching.exists_source_of_level split implied positive
    obtain ⟨place, c, rfl, found, forces⟩ := justified i antecedent
    rw [Justified.sources_eq antecedent found, mem_reasons] at isSource
    obtain ⟨l, listed, other, same⟩ := isSource
    exact ⟨c, (Formula.clauseAt?_natCast ..).trans found, l, listed, other, source,
      by simp [split, earlier], Option.some.inj same, here⟩

/-- The search of the funnel at its first conflict. -/
def Solver.funnelled : Solver := (start ⟨.ordered, none, true, false⟩ (.ofProblem .funnel)).after 7

theorem Solver.phase_funnelled : funnelled.phase = .conflict := by decide +kernel

theorem Solver.level_funnelled : funnelled.level = 2 := by decide +kernel

theorem no_missed_implication_of_funnel :
    (∀ c ∈ Solver.funnelled.formula.clauses,
      c.openLiterals? (valuationOf (upTo 1 Solver.funnelled.trail.entries)) ≠ some []) ∧
    ∃ e ∈ Solver.funnelled.trail.entries, e.antecedent = some 2 ∧ e.level = 2 ∧
      ∃ c, Solver.funnelled.formula.clauseAt? 2 = some c ∧ ∃ l ∈ c.literals, l.symbol ≠ e.symbol ∧
        ∃ e' ∈ Solver.funnelled.trail.entries, e'.symbol = l.symbol ∧ e'.level = e.level := by
  obtain ⟨calm, involved⟩ :=
    no_missed_implication (Solver.fresh_ofProblem ⟨.ordered, none, true, false⟩ .funnel) 7
  constructor
  · exact fun c member => (calm 1 (by decide) (by decide +kernel) c member).1
  · obtain ⟨e, member, antecedent, level⟩ : ∃ e ∈ Solver.funnelled.trail.entries,
        e.antecedent = some 2 ∧ e.level = 2 := by decide +kernel
    exact ⟨e, member, antecedent, level, involved e member 2 antecedent (by omega)⟩

end Backjump
