import Backjump.Proofs.Graph.Route
import Backjump.Proofs.Solver.Consistency

/-! The graph of a solver, read off its trail and its formula. It has one vertex per
entry and perhaps one for a conflict, and the vertex says where its edges come
from: a decision has none, an implied literal and a conflict have those of their
clauses. So the vertices and the formula fix the whole graph, the order of every
list in it included. -/
namespace Backjump

open ImplicationGraph

/-- The keys that the edges into a vertex come from, by the clause that the vertex names. -/
def Vertex.sources (f : Formula) (v : Vertex) : List Key :=
  (v.clause.bind f.clauseAt?).elim [] fun c =>
    v.literal.elim (c.symbols.map some) (Solver.reasons c)

/-- The graph leads from the other variables of the clause, in clause order, to the entry; earlier
entries make their literals false. -/
structure Solver.ForcedBy (s : Solver) (e : Entry) (c : Clause) : Prop where
  member : e.literal ∈ c.literals
  predecessors : s.graph.predecessors (some e.symbol) =
    .ok ((c.symbols.filter (· != e.symbol)).map some)
  others : ∀ l ∈ c.literals, l.symbol ≠ e.symbol → l.value s.trail.valuation = some false ∧
    ∃ e' ∈ s.trail.entries, e'.symbol = l.symbol ∧ e'.index < e.index

/-- The graph shows the trail and what the formula says of it. -/
structure Solver.Pictured (s : Solver) : Prop where
  consistent : s.trail.checkConsistency s.level = .ok ()
  vertices : (s.graph.vertices.filter fun v => !v.isConflict) = s.trail.entries.map Entry.vertex
  decided : ∀ e ∈ s.trail.entries, e.isDecision = true →
    s.graph.predecessors (some e.symbol) = .ok []
  implied : ∀ e ∈ s.trail.entries, ∀ i, e.antecedent = some i →
    ∃ c, s.formula.clauseAt? i = some c ∧ s.ForcedBy e c
  conflict : ∀ v, s.graph.conflict? = some v →
    ∃ i c, v.clause = some i ∧ s.formula.clauseAt? i = some c ∧
      s.graph.predecessors none = .ok (c.symbols.map some) ∧
      ∀ l ∈ c.literals, l.value s.trail.valuation = some false
  mirrored : Mirrored s.graph.nodes.entries

variable {s s' : Solver} {f : Formula} {es : List Entry} {e : Entry} {clash clash' : Option Clash}
  {k : Clash} {c : Clause} {l : Literal} {i : Int} {as : List Arrival} {g g' : ImplicationGraph}

theorem Entry.isConflict_vertex (e : Entry) : e.vertex.isConflict = false := rfl

theorem Clash.isConflict_arrival (k : Clash) : k.arrival.vertex.isConflict = true := rfl

/-- Without the conflict the vertices are those of the entries. -/
theorem filter_vertices_arrivals :
    (((arrivals f es clash).map Arrival.vertex).filter fun v => !v.isConflict) =
      es.map Entry.vertex := by
  have entries (es : List Entry) :
      (((es.map (Entry.arrival f)).map Arrival.vertex).filter fun v => !v.isConflict) =
        es.map Entry.vertex := by
    rw [List.map_map, List.filter_eq_self.mpr]
    · rfl
    · rw [List.forall_mem_map]
      exact fun e _ => congrArg not e.isConflict_vertex
  cases clash with
  | none => exact entries es
  | some k =>
    rw [arrivals, List.map_append, List.map_cons, List.filter_append,
      List.filter_cons_of_neg (by simp [k.isConflict_arrival]), entries, entries, ← List.map_append,
      List.take_append_drop]

theorem Entry.sources_vertex (f : Formula) (e : Entry) : e.vertex.sources f = e.sources f := by
  rw [Vertex.sources, Entry.sources]
  change (e.antecedent.bind f.clauseAt?).elim [] _ = _
  cases e.antecedent <;> rfl

theorem Clash.Witnessed.sources_vertex (witnessed : k.Witnessed f es) :
    k.arrival.vertex.sources f = k.clause.symbols.map some := by
  have found : f.clauseAt? k.place = some k.clause :=
    (f.clauseAt?_natCast k.place).trans witnessed.clause
  change ((f.clauseAt? k.place).elim [] fun c => c.symbols.map some) = _
  rw [found]
  rfl

/-- The same arrivals make the same graph. -/
theorem ImplicationGraph.Draws.unique (draws : g.Draws as) (draws' : g'.Draws as) : g = g' := by
  have nodes : g.nodes = g'.nodes := OrderedMap.ext (draws.nodes.trans draws'.nodes.symm)
  cases g
  cases g'
  exact congrArg ImplicationGraph.mk nodes

/-- A list of entries falsifies what a first part of it falsifies. -/
theorem Clause.Falsified.of_take {n : Nat} (falsified : c.Falsified (valuationOf (es.take n)))
    (distinct : (es.map Entry.symbol).Nodup) : c.Falsified (valuationOf es) := by
  intro l listed
  obtain ⟨e, earlier, against⟩ := mem_of_value_false (falsified l listed)
  exact value_false_of_mem distinct (List.mem_of_mem_take earlier) against

namespace Solver.Coherent

/-- The arrivals can be read off the vertices. -/
theorem arrivals_eq (coherent : s.Coherent clash) :
    arrivals s.formula s.trail.entries clash =
      s.graph.vertices.map fun v => ⟨v, v.sources s.formula⟩ := by
  rw [coherent.graph.vertices_eq, List.map_map]
  conv_lhs => rw [← List.map_id (arrivals s.formula s.trail.entries clash)]
  apply List.map_congr_left
  intro a arrived
  have sources : a.vertex.sources s.formula = a.sources := by
    rcases mem_arrivals.mp arrived with ⟨e, -, rfl⟩ | ⟨k, found, rfl⟩
    · exact e.sources_vertex s.formula
    · exact (coherent.clash k found).sources_vertex
  rw [Function.comp_apply, sources]
  rfl

/-- The vertices and the formula fix the graph. -/
theorem graph_unique (coherent : s.Coherent clash) (coherent' : s'.Coherent clash')
    (formula : s'.formula = s.formula) (vertices : s'.graph.vertices = s.graph.vertices) :
    s'.graph = s.graph := by
  have draws := coherent.graph
  have draws' := coherent'.graph
  rw [coherent.arrivals_eq] at draws
  rw [coherent'.arrivals_eq, formula, vertices] at draws'
  exact draws'.unique draws

/-- Without a conflict the same entries have the same graph, also when the formula has grown. -/
theorem graph_eq_of_prefix (coherent : s.Coherent none) (coherent' : s'.Coherent none)
    (extended : s.formula.clauses <+: s'.formula.clauses)
    (entries : s'.trail.entries = s.trail.entries) : s'.graph = s.graph := by
  have draws' := coherent'.graph
  rw [entries, arrivals_of_prefix coherent.justified extended] at draws'
  exact draws'.unique coherent.graph

/-- Without a conflict the vertices are those of the entries. -/
theorem vertices_eq_of_free (coherent : s.Coherent clash) (free : s.graph.conflict? = none) :
    s.graph.vertices = s.trail.entries.map Entry.vertex := by
  rw [coherent.conflict?_eq, Option.map_eq_none_iff] at free
  subst free
  rw [coherent.graph.vertices_eq, arrivals, List.map_map]
  rfl

theorem exists_forcedBy (coherent : s.Coherent clash) (member : e ∈ s.trail.entries)
    (antecedent : e.antecedent = some i) : ∃ c, s.formula.clauseAt? i = some c ∧ s.ForcedBy e c := by
  obtain ⟨before, after, split, justified⟩ := coherent.justified.exists_split member
  obtain ⟨place, c, rfl, found, forces⟩ := justified i antecedent
  refine ⟨c, (Formula.clauseAt?_natCast ..).trans found, forces.member, ?_, ?_⟩
  · rw [coherent.predecessors_eq_ok member, Justified.sources_eq antecedent found]
    rfl
  · intro l listed other
    have different : l ≠ e.literal := fun same => other (congrArg Literal.symbol same)
    obtain ⟨e', earlier, against⟩ := mem_of_value_false (forces.others l listed different)
    have member' : e' ∈ s.trail.entries := by simp [split, earlier]
    refine ⟨?_, e', member', ?_, coherent.trail.index_lt split earlier List.mem_cons_self⟩
    · rw [coherent.trail.valuation_eq]
      exact value_false_of_mem coherent.trail.distinct member' against
    · rw [Entry.symbol, against, Literal.symbol_negate]

theorem pictured (coherent : s.Coherent clash) : s.Pictured where
  consistent := by
    rw [coherent.level]
    exact coherent.trail.checkConsistency_eq_ok coherent.layered
  vertices := by
    rw [coherent.graph.vertices_eq]
    exact filter_vertices_arrivals
  decided := by
    intro e member decision
    rw [coherent.predecessors_eq_ok member,
      Justified.sources_of_decision (Option.isNone_iff_eq_none.mp decision)]
  implied := fun _ member _ antecedent => coherent.exists_forcedBy member antecedent
  conflict := by
    intro v drawn
    rw [coherent.conflict?_eq, Option.map_eq_some_iff] at drawn
    obtain ⟨k, rfl, rfl⟩ := drawn
    have witnessed := coherent.clash k rfl
    refine ⟨k.place, k.clause, rfl, (Formula.clauseAt?_natCast ..).trans witnessed.clause,
      coherent.predecessors_conflict, ?_⟩
    rw [coherent.trail.valuation_eq]
    exact witnessed.falsified.of_take coherent.trail.distinct
  mirrored := by
    rw [coherent.graph.nodes]
    exact Arrival.mirrored_drawn coherent.graph.wired

end Solver.Coherent

end Backjump
