import Backjump.Proofs.Solver.Coherence
import Backjump.Proofs.Trail.Consistency
import Backjump.Solver.Consistency

/-! The check between transitions, taken apart: a state passes if its trail is
consistent at its level, each entry has its vertex with as many sources as its
antecedent has other literals, and a conflict is drawn when the phase expects
one. Coherent states are of this kind. -/
namespace Backjump

variable {c : Clause} {l : Literal} {clash : Option Clash} {e : Entry} {s : Solver} {n : Node}

/-- All variables of a forcing clause but the forced one are its reasons. -/
theorem length_reasons {v : Valuation} (forces : c.Forces v l) :
    ((Solver.reasons c l).length : Int) = c.size - 1 := by
  have distinct := forces.symbols_nodup
  have member : l.symbol ∈ c.symbols := List.mem_map_of_mem forces.member
  have positive := List.length_pos_of_mem member
  have size : c.symbols.length = c.size := List.length_map ..
  have erased : c.symbols.erase l.symbol = c.symbols.filter (· != l.symbol) :=
    distinct.erase_eq_filter _
  rw [Solver.reasons, List.length_map, ← erased, List.length_erase_of_mem member]
  omega

namespace Solver

/-- What the check compares of an entry and its vertex. -/
structure Matches (s : Solver) (e : Entry) (n : Node) : Prop where
  node : s.graph.nodes.get? (some e.symbol) = some n
  literal : n.vertex.literal = some e.literal
  level : n.vertex.level = e.level
  isDecision : n.vertex.isDecision = e.isDecision
  decision : e.antecedent = none → n.predecessors = []
  implied : ∀ i, e.antecedent = some i →
    ∃ c, s.formula.clauseAt? i = some c ∧ n.predecessors.length + 1 = c.size

/-- What the check asks for. -/
structure Checked (s : Solver) : Prop where
  trail : s.trail.Consistent s.level
  symbols : ∀ x, some x ∈ s.graph.nodes ↔ x ∈ s.trail.assignment
  entries : ∀ e ∈ s.trail.entries, ∃ n, s.Matches e n
  conflict : s.graph.conflict?.isSome = s.phase.expectsConflict

theorem forM_eq_ok_iff {es : List Entry} {check : Entry → Except Fault Unit} :
    es.forM check = .ok () ↔ ∀ e ∈ es, check e = .ok () := by
  induction es with
  | nil => simp [pure, Except.pure]
  | cons e rest ih =>
    rw [List.forall_mem_cons, ← ih]
    constructor
    · intro passed
      obtain ⟨_, here, onward⟩ := exists_of_bind passed
      exact ⟨here, onward⟩
    · rintro ⟨here, onward⟩
      exact (bind_of_ok here _).trans onward

theorem checkEntry_eq_ok_iff : s.checkEntry e = .ok () ↔ ∃ n, s.Matches e n := by
  constructor
  · intro passed
    obtain ⟨n, found, passed⟩ := exists_of_bind passed
    have node : s.graph.nodes.get? (some e.symbol) = some n := by
      rw [ImplicationGraph.node] at found
      split at found
      · rename_i here
        rw [here, Except.ok.inj found]
      · contradiction
    dsimp only at passed
    split at passed
    · contradiction
    · rename_i alike
      simp only [not_or, not_not] at alike
      obtain ⟨literal, level, isDecision⟩ := alike
      cases antecedent : e.antecedent with
      | none =>
        simp only [antecedent, pure_bind] at passed
        split at passed
        · contradiction
        · rename_i count
          rw [not_not, Int.natCast_eq_zero, List.length_eq_zero_iff] at count
          exact ⟨n, node, literal, level, isDecision, fun _ => count, by simp [antecedent]⟩
      | some i =>
        cases clause : s.formula.clauseAt? i with
        | none =>
          simp only [antecedent, clause] at passed
          contradiction
        | some c =>
          simp only [antecedent, clause, pure_bind] at passed
          split at passed
          · contradiction
          · rename_i count
            refine ⟨n, node, literal, level, isDecision, by simp [antecedent], ?_⟩
            rintro j same
            rw [antecedent, Option.some.injEq] at same
            subst same
            exact ⟨c, clause, by omega⟩
  · rintro ⟨n, found⟩
    have node : s.graph.node (some e.symbol) = .ok n := by
      rw [ImplicationGraph.node, found.node]
    rw [checkEntry, bind_of_ok node]
    simp only [found.literal, found.level, found.isDecision, ne_eq, not_true_eq_false, or_self,
      if_false]
    cases antecedent : e.antecedent with
    | none =>
      simp only [found.decision antecedent, pure_bind]
      rfl
    | some i =>
      obtain ⟨c, clause, count⟩ := found.implied i antecedent
      have counted : ¬(n.predecessors.length : Int) ≠ (c.size : Int) - 1 := by omega
      simp only [clause, pure_bind, if_neg counted]
      rfl

theorem mem_symbols_iff {x : Symbol} : x ∈ s.graph.symbols ↔ some x ∈ s.graph.nodes := by
  simp [ImplicationGraph.symbols, ImplicationGraph.keys, OrderedMap.mem_iff]

theorem checkInvariants_eq_ok_iff : s.checkInvariants = .ok () ↔ s.Checked := by
  have symbols : Trail.sameMembers s.graph.symbols s.trail.assignment.keys = true ↔
      ∀ x, some x ∈ s.graph.nodes ↔ x ∈ s.trail.assignment := by
    simp only [Trail.sameMembers_iff, mem_symbols_iff, OrderedMap.mem_iff]
  have entries : s.trail.entries.forM s.checkEntry = .ok () ↔
      ∀ e ∈ s.trail.entries, ∃ n, s.Matches e n := by
    simp only [forM_eq_ok_iff, checkEntry_eq_ok_iff]
  constructor
  · intro passed
    rw [checkInvariants] at passed
    cases trail : s.trail.checkConsistency s.level with
    | error v =>
      simp only [trail] at passed
      contradiction
    | ok _ =>
      simp only [trail] at passed
      split at passed
      · contradiction
      · rename_i same
        rw [Bool.not_eq_true, Bool.not_eq_false', symbols] at same
        obtain ⟨_, each, passed⟩ := exists_of_bind passed
        split at passed
        · contradiction
        · rename_i fits
          exact ⟨Trail.checkConsistency_eq_ok_iff.mp trail, same, entries.mp each, not_not.mp fits⟩
  · intro checked
    have trail := Trail.checkConsistency_eq_ok_iff.mpr checked.trail
    have same := symbols.mpr checked.symbols
    have each := entries.mpr checked.entries
    have fits := not_not.mpr checked.conflict
    simp only [checkInvariants, trail, same, each, if_neg fits, bind, Except.bind, pure,
      Except.pure, Bool.not_true, Bool.false_eq_true, if_false]

theorem Coherent.matches (coherent : s.Coherent clash) (member : e ∈ s.trail.entries) :
    s.Matches e ((e.arrival s.formula).node (arrivals s.formula s.trail.entries clash)) where
  node := coherent.graph.get?_of_mem (mem_arrivals.mpr (.inl ⟨e, member, rfl⟩))
  literal := rfl
  level := rfl
  isDecision := rfl
  decision := Justified.sources_of_decision
  implied := by
    intro i antecedent
    obtain ⟨before, after, split, justified⟩ := coherent.justified.exists_split member
    obtain ⟨place, c, rfl, found, forces⟩ := justified i antecedent
    refine ⟨c, (Formula.clauseAt?_natCast ..).trans found, ?_⟩
    have count := length_reasons forces
    change (e.sources s.formula).length + 1 = c.size
    rw [Justified.sources_eq antecedent found]
    omega

/-- The check passes on a coherent state whose phase expects a conflict exactly if there is one. -/
theorem Coherent.checkInvariants_eq_ok (coherent : s.Coherent clash)
    (fits : clash.isSome = s.phase.expectsConflict) : s.checkInvariants = .ok () :=
  checkInvariants_eq_ok_iff.mpr
    { trail := by
        rw [← Trail.checkConsistency_eq_ok_iff, coherent.level]
        exact coherent.trail.checkConsistency_eq_ok coherent.layered
      symbols := by
        intro x
        rw [OrderedMap.mem_iff, coherent.graph.keys_eq, mem_keys_arrivals, coherent.trail.mem_assignment]
      entries := fun _ member => ⟨_, coherent.matches member⟩
      conflict := coherent.isSome_conflict?.trans fits }

end Solver

end Backjump
