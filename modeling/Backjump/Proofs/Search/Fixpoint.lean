import Backjump.Proofs.Search.Containment
import Backjump.Proofs.Solver.Loop

/-! Where propagation ends, from whatever state calls lead to. The scan starts over
after each forced assignment, so that the clauses it has passed are looked at
again under the longer trail: each assignment is forced by the first clause
that calls for one at its moment, and what was passed when the scan ends rests
under all of them. It ends since each assignment closes an open variable. -/
namespace Backjump

/-- Some literal is true, or two different ones are undecided. -/
def Clause.Rests (c : Clause) (v : Valuation) : Prop :=
  (∃ l ∈ c.literals, l.value v = some true) ∨
    ∃ l ∈ c.literals, ∃ k ∈ c.literals, k ≠ l ∧ l.value v = none ∧ k.value v = none

theorem Clause.rests_of_calm {c : Clause} {v : Valuation} (calm : ¬c.Urgent v) : c.Rests v := by
  by_contra restless
  rw [Clause.Rests, not_or] at restless
  obtain ⟨unsatisfied, alone⟩ := restless
  have refuted (k : Literal) (member : k ∈ c.literals) (decided : k.value v ≠ none) :
      k.value v = some false :=
    value_cases (fun satisfied => unsatisfied ⟨k, member, satisfied⟩) decided
  apply calm
  by_cases undecided : ∃ l ∈ c.literals, l.value v = none
  · obtain ⟨l, member, undecided⟩ := undecided
    refine .inr ⟨l, member, undecided, fun k member' different => refuted k member' ?_⟩
    exact fun undecided' => alone ⟨l, member, k, member', different, undecided, undecided'⟩
  · exact .inl fun l member => refuted l member fun open_ => undecided ⟨l, member, open_⟩

namespace Solver

/-- After the given entries the first clause that does not rest forces the entry, at the current
level. -/
structure ForcedNext (s : Solver) (before : List Entry) (e : Entry) : Prop where
  level : e.level = s.level
  clause : ∃ below c above, s.formula.clauses = below ++ c :: above ∧
    e.antecedent = some (below.length : Int) ∧ c.Forces (valuationOf before) e.literal ∧
    ∀ b ∈ below, b.Rests (valuationOf before)

/-- The later state has further entries, each forced when it was made, and else the same search. -/
structure Extends (s' s : Solver) : Prop where
  formula : s'.formula = s.formula
  level : s'.level = s.level
  entries : ∃ new, s'.trail.entries = s.trail.entries ++ new ∧
    ∀ earlier e later, new = earlier ++ e :: later → s.ForcedNext (s.trail.entries ++ earlier) e

/-- Every clause rests, and no conflict is drawn. -/
structure AtFixpoint (s : Solver) : Prop where
  rests : ∀ c ∈ s.formula.clauses, c.Rests s.trail.valuation
  free : s.graph.conflict? = none

/-- The clause of the place is falsified and all before it rest; its conflict was drawn last. -/
structure AtClash (s : Solver) (place : Nat) : Prop where
  clause : ∃ below c above, s.formula.clauses = below ++ c :: above ∧ below.length = place ∧
    c.Falsified s.trail.valuation ∧ ∀ b ∈ below, b.Rests s.trail.valuation
  last : s.graph.vertices = s.trail.entries.map Entry.vertex ++
    [ImplicationGraph.conflictVertex s.level (some place)]

variable {setup : Setup} {p : Problem} {s s' s₀ : Solver} {new : List Entry} {c : Clause}
  {place : Nat} {calls : List Call} {graph : ImplicationGraph}

theorem Propagates.forcedNext (rounds : Propagates s new s') :
    ∀ earlier e later, new = earlier ++ e :: later →
      s.ForcedNext (s.trail.entries ++ earlier) e := by
  induction rounds with
  | refl s => simp
  | @next s s' c l place graph rest found rounds ih =>
    intro earlier e later split
    cases earlier with
    | nil =>
      obtain ⟨rfl, rfl⟩ := List.cons.inj split
      obtain ⟨below, above, clauses, rfl, calm, forces⟩ := firstUrgent_split found
      rw [Nat.zero_add, List.append_nil]
      exact ⟨rfl, below, c, above, clauses, rfl, forces, fun b passed =>
        Clause.rests_of_calm (calm b passed)⟩
    | cons e' earlier =>
      obtain ⟨rfl, rfl⟩ := List.cons.inj split
      have forced := ih earlier e later rfl
      have entries : (s.implied l place graph).trail.entries ++ earlier =
          s.trail.entries ++ s.trail.nextEntry l s.level (some place) :: earlier :=
        List.append_assoc ..
      rw [entries] at forced
      exact ⟨forced.level, forced.clause⟩

theorem Propagates.extends (rounds : Propagates s new s') : s'.Extends s :=
  ⟨rounds.formula_eq, rounds.level_eq, new, rounds.entries_eq, rounds.forcedNext⟩

theorem Coherent.atFixpoint (coherent : s.Coherent none) (calm : s.urgent? = none) :
    s.AtFixpoint where
  rests := by
    rw [coherent.trail.valuation_eq]
    exact fun c listed => Clause.rests_of_calm (urgent?_eq_none.mp calm c listed)
  free := by
    rw [coherent.conflict?_eq]
    rfl

theorem Coherent.atClash (coherent : s.Coherent none) (found : s.urgent? = some (place, c, none))
    (drawn : (s.conflicted place c graph).Coherent (some (s.clashAt place c))) :
    (s.conflicted place c graph).AtClash place where
  clause := by
    obtain ⟨below, above, clauses, rfl, calm, falsified⟩ := firstUrgent_split found
    refine ⟨below, c, above, clauses, (Nat.zero_add _).symm, ?_, fun b passed => ?_⟩
    · change c.Falsified s.trail.valuation
      rw [coherent.trail.valuation_eq]
      exact falsified
    · change b.Rests s.trail.valuation
      rw [coherent.trail.valuation_eq]
      exact Clause.rests_of_calm (calm b passed)
  last := by
    rw [drawn.graph.vertices_eq, arrivals_clash rfl, List.map_append, arrivals, List.map_map]
    rfl

/-- After any calls over the variables of the input that left no conflict, propagation answers
within its bound. It keeps the trail and adds only entries that the first clause in need of one
forces. In the end all clauses rest, or the first that does not is falsified and nothing was
assigned after its conflict. -/
theorem propagation_reaches_first_fixpoint (fresh : Fresh setup p s₀)
    (within : ∀ call ∈ calls, call.Within p.symbols)
    (free : (s₀.afterCalls calls).graph.conflict? = none) :
    let s := s₀.afterCalls calls
    ∃ answer s', s.propagate = (.ok answer, s') ∧
      s.loop s.turnBound 0 = some (.ok answer, s') ∧ s'.Extends s ∧
      answer.elim s'.AtFixpoint s'.AtClash := by
  intro s
  have contained : s.Contained p.symbols := fresh.contained.afterCalls fresh.intact within
  obtain ⟨clash, coherent⟩ : s.Intact := fresh.intact.afterCalls calls
  have undrawn : clash = none := by
    have drawn := coherent.conflict?_eq
    rwa [show s.graph.conflict? = none from free, eq_comm, Option.map_eq_none_iff] at drawn
  subst undrawn
  have scans : s.propagate = s.scan := by
    rw [propagate, show s.graph.conflict? = none from free]
    rfl
  obtain ⟨new, s₁, rounds, coherent₁, ⟨calm, scanned⟩ | ⟨place, c, graph, found, scanned, drawn⟩⟩ :=
    coherent.scan_cases contained.known
  · refine ⟨none, s₁, scans.trans scanned, ?_, rounds.extends, coherent₁.atFixpoint calm⟩
    rw [loop_turnBound, scanned]
  · refine ⟨some place, _, scans.trans scanned, ?_, ?_, coherent₁.atClash found drawn⟩
    · rw [loop_turnBound, scanned]
    · exact ⟨rounds.formula_eq, rounds.level_eq, new, rounds.entries_eq, rounds.forcedNext⟩

/-- With 1 decided, going back to its own level with a clause against 1 and 3 is a way to learn it;
then 2 and 3 are forced in turn, and that clause is the third and falsified. -/
theorem propagation_reaches_first_fixpoint_of_chain :
    ∃ s₀ s s', s₀ = start ⟨.ordered, none, true, false⟩ (.ofProblem (.ofInts [[-1, 2], [-2, 3]])) ∧
      s = s₀.afterCalls [.decide, .backtrack 5 none,
        .backtrack 1 (some (.ofLiterals [⟨.number 1, false⟩, ⟨.number 3, false⟩] false))] ∧
      s.graph.conflict? = none ∧ s.propagate = (.ok (some 2), s') ∧
      s.loop s.turnBound 0 = some (.ok (some 2), s') ∧ s'.Extends s ∧ s'.AtClash 2 := by
  have fresh := fresh_ofProblem ⟨.ordered, none, true, false⟩ (.ofInts [[-1, 2], [-2, 3]])
  let calls : List Call := [.decide, .backtrack 5 none,
    .backtrack 1 (some (.ofLiterals [⟨.number 1, false⟩, ⟨.number 3, false⟩] false))]
  have free : ((start ⟨.ordered, none, true, false⟩
      (.ofProblem (.ofInts [[-1, 2], [-2, 3]]))).afterCalls calls).graph.conflict? = none := by
    decide +kernel
  have within : ∀ call ∈ calls, call.Within (.ofInts [[-1, 2], [-2, 3]] : Problem).symbols := by
    decide +kernel
  obtain ⟨answer, s', propagated, looped, extended, ends⟩ :=
    propagation_reaches_first_fixpoint fresh within free
  have answered : ((start ⟨.ordered, none, true, false⟩
      (.ofProblem (.ofInts [[-1, 2], [-2, 3]]))).afterCalls calls).propagate.1 = .ok (some 2) := by
    decide +kernel
  rw [propagated, Except.ok.injEq] at answered
  subst answered
  exact ⟨_, _, s', rfl, rfl, free, propagated, looped, extended, ends⟩

end Solver

end Backjump
