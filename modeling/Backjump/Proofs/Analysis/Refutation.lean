import Backjump.Proofs.Analysis.Walk

/-! Conflicts read forwards. Under a valuation that leaves no clause of the
formula urgent, an entry is true as soon as its sources are, so truth spreads
from the point of an analysis and the entries below the level to everything the
walk met, and at last falsifies the clause of the conflict. Hence no such
valuation makes all literals of the learned clause false: unit propagation
refutes the negated clause, and the clause holds in every model. -/
namespace Backjump

variable {s : Solver} {f : Formula} {k : Clash} {c : Clause} {l : Literal} {v : Valuation}
  {m : Interpretation} {es ahead passed : List Entry} {e point : Entry} {met : Key → Prop}

/-- Every variable known, with the value that the interpretation gives. -/
def Interpretation.valuation (m : Interpretation) : Valuation := fun x => some (m x)

theorem Literal.value_valuation_eq_true : l.value m.valuation = some true ↔ l.TrueIn m := by
  simp [value_eq_true, Interpretation.valuation, TrueIn]

theorem Literal.value_valuation_eq_false : l.value m.valuation = some false ↔ ¬l.TrueIn m := by
  simp [value_eq_false, Interpretation.valuation, TrueIn, Bool.eq_not]

theorem Clause.not_urgent_of_trueIn (holds : c.TrueIn m) : ¬c.Urgent m.valuation := by
  obtain ⟨l, member, made⟩ := holds
  rintro (falsified | ⟨k, forces⟩)
  · exact Literal.value_valuation_eq_false.mp (falsified l member) made
  · have undecided := Literal.value_eq_none.mp forces.undecided
    contradiction

/-- Under a calm valuation, entries are true if each of them is or has all its sources among them. -/
theorem value_eq_true_of_closed (justified : Built (Justified f) es)
    (calm : ∀ c ∈ f.clauses, ¬c.Urgent v)
    (closed : ∀ e ∈ es, met (some e.symbol) → e.literal.value v = some true ∨
      e.isDecision = false ∧ ∀ key ∈ e.sources f, met key) :
    ∀ e ∈ es, met (some e.symbol) → e.literal.value v = some true := by
  have built : Built (fun before e => Justified f before e ∧ e ∈ es) es := by
    intro before e after split
    exact ⟨justified before e after split, by simp [split]⟩
  apply built.forall_mem (R := fun e => met (some e.symbol) → e.literal.value v = some true)
  rintro before e earlier ⟨forced, member⟩ isMet
  rcases closed e member isMet with made | ⟨implied, sources⟩
  · exact made
  · obtain ⟨i, antecedent⟩ := Entry.exists_antecedent implied
    obtain ⟨place, c, rfl, found, forces⟩ := forced i antecedent
    apply Clause.value_eq_true_of_calm (calm c (List.mem_of_getElem? found)) forces.member
    intro l listed different
    obtain ⟨source, inFront, against, isSource⟩ :=
      Justified.exists_source_of_literal antecedent found forces listed different
    rw [← Literal.value_negate_eq_true, ← against]
    exact earlier source inFront (sources _ isSource)

namespace Analysis

theorem falsified_of_behind (coherent : s.Coherent (some k))
    (behind : k.position = s.trail.entries.length) :
    k.clause.Falsified (valuationOf s.trail.entries) := by
  have falsified := (coherent.clash k rfl).falsified
  rwa [behind, List.take_length] at falsified

/-- Entries that are closed under sources up to true ones, with those of the falsified clause
among them, leave a clause urgent under every valuation. -/
theorem exists_urgent_of_closed (coherent : s.Coherent (some k))
    (behind : k.position = s.trail.entries.length)
    (named : ∀ key ∈ k.clause.symbols.map some, met key)
    (closed : ∀ e ∈ s.trail.entries, met (some e.symbol) → e.literal.value v = some true ∨
      e.isDecision = false ∧ ∀ key ∈ e.sources s.formula, met key) :
    ∃ c ∈ s.formula.clauses, c.Urgent v := by
  by_contra! calm
  have made := value_eq_true_of_closed coherent.justified calm closed
  apply calm k.clause (List.mem_of_getElem? (coherent.clash k rfl).clause)
  left
  intro l member
  obtain ⟨e, held, against⟩ := mem_of_value_false (falsified_of_behind coherent behind l member)
  rw [← Literal.value_negate_eq_true, ← against]
  apply made e held
  apply named
  rw [Entry.symbol, against, Literal.symbol_negate]
  exact List.mem_map_of_mem (List.mem_map_of_mem member)

/-- Where the decisions are true a clause is urgent. -/
theorem exists_urgent_of_decisions (coherent : s.Coherent (some k))
    (behind : k.position = s.trail.entries.length)
    (agrees : ∀ e ∈ s.trail.entries, e.isDecision = true → e.literal.value v = some true) :
    ∃ c ∈ s.formula.clauses, c.Urgent v := by
  have named : ∀ key ∈ k.clause.symbols.map some, True := fun _ _ => trivial
  apply exists_urgent_of_closed coherent behind named
  intro e member _
  cases decision : e.isDecision with
  | true => exact .inl (agrees e member decision)
  | false => exact .inr ⟨rfl, fun _ _ => trivial⟩

namespace Concludes

variable {cut : Cut}

/-- The negated clause of an analysis is refuted by unit propagation. -/
theorem exists_urgent (concludes : Concludes s k point cut ahead passed)
    (coherent : s.Coherent (some k)) (behind : k.position = s.trail.entries.length)
    (pointTrue : point.literal.value v = some true)
    (learnedFalse : ∀ l ∈ cut.learned, l.value v = some false) :
    ∃ c ∈ s.formula.clauses, c.Urgent v := by
  have seen (key : Key) : key ∈ cut.seen ↔ _ := concludes.walk.mem_seen coherent
  have named : ∀ key ∈ k.clause.symbols.map some, key ∈ cut.seen := fun key named =>
    (seen key).mpr (.inl named)
  apply exists_urgent_of_closed coherent behind named
  intro e member met
  have top := coherent.level_le e member
  by_cases here : e.level = s.level
  · by_cases same : e = point
    · exact .inl (same ▸ pointTrue)
    · have isPassed := concludes.passed_of_met member here met same
      obtain ⟨-, implied⟩ := concludes.of_passed coherent isPassed
      exact .inr ⟨implied, fun key source => (seen key).mpr (.inr ⟨e, isPassed, met, source⟩)⟩
  · left
    have learned : e.literal.negate ∈ cut.learned :=
      (concludes.walk.tracks.learned _).mpr ⟨e, member, by omega, met, rfl⟩
    rw [← e.literal.negate_negate, Literal.value_negate_eq_true]
    exact learnedFalse _ learned

theorem entailed (concludes : Concludes s k point cut ahead passed)
    (coherent : s.Coherent (some k)) (behind : k.position = s.trail.entries.length)
    (model : s.formula.TrueIn m) :
    point.literal.negate.TrueIn m ∨ ∃ l ∈ cut.learned, l.TrueIn m := by
  by_contra! refuted
  obtain ⟨pointTrue, learnedFalse⟩ := refuted
  rw [Literal.trueIn_negate, not_not] at pointTrue
  obtain ⟨c, member, urgent⟩ := concludes.exists_urgent coherent behind
    (Literal.value_valuation_eq_true.mpr pointTrue)
    fun l listed => Literal.value_valuation_eq_false.mpr (learnedFalse l listed)
  exact Clause.not_urgent_of_trueIn (model c member) urgent

end Concludes

end Analysis

end Backjump
