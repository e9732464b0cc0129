import Backjump.Proofs.Graph.Calls
import Backjump.Proofs.Solver.Consistency
import Backjump.Proofs.Trail.Calls
import Mathlib.Data.List.Perm.Subperm

/-! What the check between transitions finds out, on any state, also one that was
edited from outside. It compares each entry with its vertex, but of the
assignment only which variables are bound, and of the edges only how many enter
a vertex. So it passes on states whose assignment says the opposite of the trail,
or whose edges come from elsewhere. Where every binding is an entry's and edges
come, each once, from the antecedent, counting them is enough. -/
namespace Backjump.Solver

/-- Trail, assignment and graph describe one state: the assignment has the sign of each entry, and
edges lead to an implied entry from exactly the other variables of its antecedent. -/
structure DescribesOneState (s : Solver) : Prop where
  values : ∀ e ∈ s.trail.entries, s.trail.assignment.get? e.symbol = some e.literal.positive
  sources : ∀ e ∈ s.trail.entries, ∀ i, e.antecedent = some i →
    ∃ c ks, s.formula.clauseAt? i = some c ∧ s.graph.predecessors (some e.symbol) = .ok ks ∧
      ∀ key, key ∈ ks ↔ ∃ l ∈ c.literals, l.symbol ≠ e.symbol ∧ key = some l.symbol

/-- The assignment binds what entries bind, and edges lead to an implied entry from other variables of
its antecedent, from none twice. -/
structure Sourced (s : Solver) : Prop where
  bindings : ∀ x b, s.trail.assignment.get? x = some b →
    ∃ e ∈ s.trail.entries, e.symbol = x ∧ e.literal.positive = b
  edges : ∀ e ∈ s.trail.entries, ∀ i c n, e.antecedent = some i → s.formula.clauseAt? i = some c →
    s.graph.nodes.get? (some e.symbol) = some n →
      e.literal ∈ c.literals ∧ n.predecessors.Nodup ∧ n.predecessors ⊆ reasons c e.literal

variable {s : Solver} {e : Entry} {n : Node} {c : Clause} {l : Literal}

theorem length_reasons_lt (listed : l ∈ c.literals) : (reasons c l).length < c.size := by
  have size : c.symbols.length = c.size := List.length_map ..
  rw [reasons, List.length_map, ← size, List.length_filter_lt_length_iff_exists]
  exact ⟨l.symbol, List.mem_map_of_mem listed, by simp⟩

/-- As many sources as there are other literals, all of them among the other variables, are these. -/
theorem Checked.describesOneState (checked : s.Checked) (sourced : s.Sourced) : s.DescribesOneState where
  values := by
    intro e member
    obtain ⟨n, found⟩ := checked.entries e member
    have live : some e.symbol ∈ s.graph.nodes := ImplicationGraph.mem_nodes_of_get? found.node
    have bound : e.symbol ∈ s.trail.assignment := (checked.symbols _).mp live
    cases assigned : s.trail.assignment.get? e.symbol with
    | none => exact absurd bound (OrderedMap.get?_eq_none_iff.mp assigned)
    | some b =>
      obtain ⟨e', member', same, rfl⟩ := sourced.bindings _ _ assigned
      -- Both entries match the one vertex of the variable.
      obtain ⟨n', found'⟩ := checked.entries e' member'
      have vertex : n' = n := by
        have node := found'.node
        rw [same, found.node, Option.some.injEq] at node
        exact node.symm
      have literal := found'.literal
      rw [vertex, found.literal, Option.some.injEq] at literal
      rw [literal]
  sources := by
    intro e member i antecedent
    obtain ⟨n, found⟩ := checked.entries e member
    obtain ⟨c, clause, count⟩ := found.implied i antecedent
    obtain ⟨listed, distinct, among⟩ := sourced.edges e member i c n antecedent clause found.node
    have fewer := length_reasons_lt listed
    have all : n.predecessors.Perm (reasons c e.literal) :=
      (List.subperm_of_subset distinct among).perm_of_length_le (by omega)
    refine ⟨c, n.predecessors, clause, ?_, fun key => ?_⟩
    · rw [ImplicationGraph.predecessors, ImplicationGraph.node, found.node]
      rfl
    · rw [all.mem_iff, mem_reasons]
      rfl

/-- The check passes exactly on the states that it compares alike. If then bindings come from entries
and edges from antecedents, all three describe one state. -/
theorem check_passes_iff_checked (s : Solver) :
    (s.checkInvariants = .ok () ↔ s.Checked) ∧
      (s.checkInvariants = .ok () → s.Sourced → s.DescribesOneState) :=
  ⟨checkInvariants_eq_ok_iff, fun passed => (checkInvariants_eq_ok_iff.mp passed).describesOneState⟩

/-- With 1 decided, the clause of -1 and 2 forces 2. -/
def forced : Solver :=
  (start ⟨.ordered, none, true, false⟩ (.ofProblem (.ofInts [[-1, 2]]))).decide.2.propagate.2

theorem sourced_forced : forced.Sourced where
  bindings x b bound := by
    have each : ∀ p ∈ forced.trail.assignment.entries,
        ∃ e ∈ forced.trail.entries, e.symbol = p.1 ∧ e.literal.positive = p.2 := by decide +kernel
    exact each (x, b) (OrderedMap.get?_eq_some_iff.mp bound)
  edges := by
    have each : ∀ e ∈ forced.trail.entries, ∀ i ∈ e.antecedent, ∀ c ∈ forced.formula.clauseAt? i,
        ∀ n ∈ forced.graph.nodes.get? (some e.symbol),
          e.literal ∈ c.literals ∧ n.predecessors.Nodup ∧ n.predecessors ⊆ reasons c e.literal := by
      decide +kernel
    exact fun e member i c n antecedent clause node => each e member i antecedent c clause n node

/-- The check passes after the implication, and the three describe the state in which it was made. -/
theorem check_passes_iff_checked_of_forced :
    (∃ e ∈ forced.trail.entries, e.literal = ⟨.number 2, true⟩ ∧ e.antecedent = some 0) ∧
      forced.checkInvariants = .ok () ∧ forced.Sourced ∧ forced.DescribesOneState := by
  have passes : forced.checkInvariants = .ok () := by decide +kernel
  exact ⟨by decide +kernel, passes, sourced_forced, (check_passes_iff_checked forced).2 passes sourced_forced⟩

/-- With 1 decided, somebody writes its opposite into the assignment. -/
def contradicted : Solver :=
  let s := (start ⟨.ordered, none, true, false⟩ (.ofProblem (.ofInts [[1, 2]]))).decide.2
  { s with trail := { s.trail with assignment := s.trail.assignment.insert (.number 1) false } }

/-- With 1 decided, somebody adds 2 as forced by the clause of 2 and 4, with an edge from 1. -/
def misled : Solver :=
  let s := (start ⟨.ordered, none, true, false⟩ (.ofProblem (.ofInts [[-1, 3], [2, 4]]))).decide.2
  { s with
    trail := s.trail.afterCalls [.assign ⟨.number 2, true⟩ 1 (some 1)]
    graph := s.graph.afterCalls [.addVertex ⟨.number 2, true⟩ 1 false (some 1),
      .addEdge (some (.number 1)) (some (.number 2))] }

/-- The check passes although the assignment denies the trail, and although an edge comes from a
variable that the antecedent does not have. -/
theorem check_passes_on_diverged_states :
    (contradicted.checkInvariants = .ok () ∧ ¬contradicted.DescribesOneState) ∧
      misled.checkInvariants = .ok () ∧ ¬misled.DescribesOneState := by
  refine ⟨⟨by decide +kernel, fun one => ?_⟩, by decide +kernel, fun one => ?_⟩
  · have denied : ¬∀ e ∈ contradicted.trail.entries,
        contradicted.trail.assignment.get? e.symbol = some e.literal.positive := by
      decide +kernel
    exact denied one.values
  · have implied : (⟨⟨.number 2, true⟩, 1, some 1, 1⟩ : Entry) ∈ misled.trail.entries := by
      decide +kernel
    obtain ⟨c, ks, clause, predecessors, sources⟩ := one.sources _ implied 1 rfl
    have drawn : misled.graph.predecessors (some (.number 2)) = .ok [some (.number 1)] := by
      decide +kernel
    have antecedent : (misled.formula.clauseAt? 1).map Clause.literals =
        some [⟨.number 2, true⟩, ⟨.number 4, true⟩] := by
      decide +kernel
    change misled.graph.predecessors (some (.number 2)) = .ok ks at predecessors
    rw [drawn, Except.ok.injEq] at predecessors
    rw [clause, Option.map_some, Option.some.injEq] at antecedent
    obtain ⟨l, listed, -, same⟩ := (sources (some (.number 1))).mp (by simp [← predecessors])
    rw [antecedent] at listed
    have foreign : ∀ l ∈ [(⟨.number 2, true⟩ : Literal), ⟨.number 4, true⟩],
        some (.number 1) ≠ some l.symbol := by
      decide
    exact foreign l listed same

end Backjump.Solver
