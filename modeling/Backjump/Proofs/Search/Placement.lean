import Backjump.Proofs.Figure
import Backjump.Proofs.Search.Levels
import Backjump.Proofs.Solver.Picture

/-! Where the vertices of a search stand in its picture. The graph keeps the order of the
trail through backjumps and what is assigned after them, so the column of a variable is
the place of its entry, and the conflict stands one column past the last entry. The
reasons of an entry are earlier entries: every edge leads to the right and never up to
a lower level, and the graph has no circle. -/
namespace Backjump

open ImplicationGraph

/-- The columns of the entries in their order, each in the row of its level, and the column of the
conflict behind them. -/
def Solver.spots (s : Solver) : List (Key × Spot) :=
  s.trail.entries.zipIdx.map (fun p => (some p.1.symbol, ⟨p.2, -p.1.level⟩)) ++
    s.graph.conflict?.toList.map fun v => (none, ⟨s.trail.entries.length, -v.level⟩)

/-- The edge leads from a column to a later one, and not up. -/
def GraphView.Descends (g : GraphView) (edge : Key × Key) : Prop :=
  ∃ source target, GraphView.spot g.layout edge.1 = .ok source ∧
    GraphView.spot g.layout edge.2 = .ok target ∧ source.x < target.x ∧ target.y ≤ source.y

variable {setup : Setup} {f : Formula} {p : Problem} {s s₀ : Solver} {es before after : List Entry}
  {e : Entry} {clash : Option Clash} {k : Clash} {g : GraphView}

/-- The conflict is the only vertex that is none of the entries. -/
theorem filter_conflict_arrivals :
    ((arrivals f es clash).map Arrival.vertex).filter Vertex.isConflict =
      clash.toList.map fun k => k.arrival.vertex := by
  have entries (es : List Entry) :
      ((es.map (Entry.arrival f)).map Arrival.vertex).filter Vertex.isConflict = [] := by
    rw [List.map_map, List.filter_eq_nil_iff, List.forall_mem_map]
    exact fun e _ => Bool.eq_false_iff.mp e.isConflict_vertex
  cases clash with
  | none => exact entries es
  | some k =>
    rw [arrivals, List.map_append, List.map_cons, List.filter_append,
      List.filter_cons_of_pos k.isConflict_arrival, entries, entries]
    rfl

namespace Solver.Coherent

theorem assigned_view (coherent : s.Coherent clash) :
    s.graph.view.assigned = (s.trail.entries.map Entry.vertex).map Vertex.view := by
  have assigned : (s.graph.vertices.filter fun v => !v.isConflict) = s.trail.entries.map Entry.vertex := by
    rw [coherent.graph.vertices_eq, filter_vertices_arrivals]
  rw [GraphView.assigned, view, List.filter_map, ← assigned]
  rfl

theorem clashes_view (coherent : s.Coherent clash) :
    s.graph.view.clashes = s.graph.conflict?.toList.map Vertex.view := by
  rw [coherent.conflict?_eq, GraphView.clashes, view, coherent.graph.vertices_eq, List.filter_map]
  change (((arrivals s.formula s.trail.entries clash).map Arrival.vertex).filter
    Vertex.isConflict).map Vertex.view = _
  rw [filter_conflict_arrivals]
  cases clash <;> rfl

theorem layout_entries (coherent : s.Coherent clash) : s.graph.view.layout.entries = s.spots := by
  rw [coherent.graph.proper_view.layout_entries, coherent.assigned_view, coherent.clashes_view, spots,
    GraphView.places, List.zipIdx_map, List.zipIdx_map, List.map_map, List.map_map, List.map_map,
    List.length_map, List.length_map]
  rfl

theorem spot_eq_ok (coherent : s.Coherent clash) {key : Key} {spot : Spot}
    (placed : (key, spot) ∈ s.spots) : GraphView.spot s.graph.view.layout key = .ok spot := by
  rw [← coherent.layout_entries] at placed
  rw [GraphView.spot, OrderedMap.get?_eq_some_iff.mpr placed]

theorem spot_entry (coherent : s.Coherent clash) (split : s.trail.entries = before ++ e :: after) :
    GraphView.spot s.graph.view.layout (some e.symbol) = .ok ⟨before.length, -e.level⟩ := by
  apply coherent.spot_eq_ok
  have placed : (e, before.length) ∈ s.trail.entries.zipIdx :=
    List.mk_mem_zipIdx_iff_getElem?.mpr (by simp [split])
  exact List.mem_append_left _ (List.mem_map_of_mem placed)

theorem spot_conflict (coherent : s.Coherent (some k)) :
    GraphView.spot s.graph.view.layout none = .ok ⟨s.trail.entries.length, -k.level⟩ := by
  apply coherent.spot_eq_ok
  rw [spots, coherent.conflict?_eq]
  exact List.mem_append_right _ (List.mem_singleton_self _)

/-- The edges into an entry come from entries before it. -/
theorem descends_entry (coherent : s.Coherent clash) (split : s.trail.entries = before ++ e :: after)
    {source : Key} (isSource : source ∈ e.sources s.formula) :
    s.graph.view.Descends (source, some e.symbol) := by
  obtain ⟨e', earlier, rfl⟩ :=
    (coherent.justified before e after split).exists_entry_of_source isSource
  obtain ⟨front, back, rfl⟩ := List.append_of_mem earlier
  have split' : s.trail.entries = front ++ e' :: (back ++ e :: after) := by simp [split]
  have sorted := coherent.layered.sorted
  rw [split, List.pairwise_append] at sorted
  have low := sorted.2.2 e' earlier e List.mem_cons_self
  refine ⟨_, _, coherent.spot_entry split', coherent.spot_entry split, ?_, Int.neg_le_neg low⟩
  simp only [List.length_append, List.length_cons]
  omega

/-- The edges into the conflict come from entries, none above the level at which it arose. -/
theorem descends_conflict (coherent : s.Coherent (some k)) {source : Key}
    (isSource : source ∈ k.clause.symbols.map some) : s.graph.view.Descends (source, none) := by
  have witnessed := coherent.clash k rfl
  obtain ⟨e, earlier, rfl⟩ := exists_entry_of_falsified witnessed.falsified isSource
  have layered : Layered (s.trail.entries.take k.position) := by
    have whole := coherent.layered
    rw [← List.take_append_drop k.position s.trail.entries] at whole
    exact whole.front
  have low := layered.level_le e earlier
  rw [← witnessed.level] at low
  obtain ⟨before, after, split⟩ := List.append_of_mem (List.mem_of_mem_take earlier)
  refine ⟨_, _, coherent.spot_entry split, coherent.spot_conflict, ?_, Int.neg_le_neg low⟩
  simp only [split, List.length_append, List.length_cons]
  omega

theorem descends (coherent : s.Coherent clash) {edge : Key × Key} (drawn : edge ∈ s.graph.view.edges) :
    s.graph.view.Descends edge := by
  obtain ⟨source, target⟩ := edge
  obtain ⟨a, arrived, rfl, isSource⟩ := coherent.graph.mem_edges.mp drawn
  rcases mem_arrivals.mp arrived with ⟨e, member, rfl⟩ | ⟨k, rfl, rfl⟩
  · obtain ⟨before, after, split⟩ := List.append_of_mem member
    exact coherent.descends_entry split isSource
  · exact coherent.descends_conflict isSource

end Solver.Coherent

/-- Columns grow along a path. -/
theorem GraphView.descends_of_path (descends : ∀ edge ∈ g.edges, g.Descends edge) {source target : Key}
    (path : Relation.TransGen (fun a b => (a, b) ∈ g.edges) source target) :
    g.Descends (source, target) := by
  induction path with
  | single edge => exact descends _ edge
  | tail _ edge ih =>
    obtain ⟨first, middle, start, through, right, down⟩ := ih
    obtain ⟨middle', last, through', stop, right', down'⟩ := descends _ edge
    obtain rfl : middle = middle' := Except.ok.inj (through.symm.trans through')
    exact ⟨first, last, start, stop, Int.lt_trans right right', Int.le_trans down' down⟩

/-- After any number of steps the variables stand in the columns of their entries and the conflict of
the current level in the next one, each in the row of its level. Every edge leads to a later column
and not to a lower level, so no path leads back to its start. -/
theorem layout_follows_trail (fresh : Solver.Fresh setup p s₀) {n : Nat} (ran : s₀.after n = s) :
    s.graph.view.layout.entries = s.spots ∧
    (∀ v, s.graph.conflict? = some v → v.level = s.level) ∧
    (∀ edge ∈ s.graph.view.edges, s.graph.view.Descends edge) ∧
    ∀ key, ¬Relation.TransGen (fun a b => (a, b) ∈ s.graph.view.edges) key key := by
  obtain ⟨f, -, rfl, reached⟩ := fresh.exists_reached
  have stage := (ran ▸ reached n : Reached setup f s).stage
  obtain ⟨clash, searching, expected⟩ := stage.exists_searching
  have descends : ∀ edge ∈ s.graph.view.edges, s.graph.view.Descends edge :=
    fun _ drawn => searching.descends drawn
  refine ⟨searching.layout_entries, fun v drawn => ?_, descends, fun key circle => ?_⟩
  · have expects : s.phase.expectsConflict = true := by
      rw [← expected, ← searching.isSome_conflict?, drawn]
      rfl
    obtain ⟨k, searching, behind⟩ := stage.exists_clash expects
    rw [searching.conflict?_eq] at drawn
    obtain rfl := Option.some.inj drawn
    have level := (searching.clash k rfl).level
    rw [behind, List.take_length, ← searching.level] at level
    exact level
  · obtain ⟨first, last, start, stop, right, -⟩ := GraphView.descends_of_path descends circle
    obtain rfl : first = last := Except.ok.inj (start.symm.trans stop)
    exact Int.lt_irrefl _ right

/-- In the funnel the second decision and all that it forces stand in the row below the first. -/
theorem layout_follows_trail_of_funnel :
    Solver.funnelled.graph.view.layout.entries =
      [(some (.number 1), ⟨0, -1⟩), (some (.number 2), ⟨1, -2⟩), (some (.number 3), ⟨2, -2⟩),
        (some (.number 4), ⟨3, -2⟩), (some (.number 5), ⟨4, -2⟩), (none, ⟨5, -2⟩)] ∧
    (some (.number 1), none) ∈ Solver.funnelled.graph.view.edges ∧
    ∀ edge ∈ Solver.funnelled.graph.view.edges, Solver.funnelled.graph.view.Descends edge := by
  obtain ⟨placed, -, descends, -⟩ := layout_follows_trail (s := Solver.funnelled)
    (Solver.fresh_ofProblem ⟨.ordered, none, true, false⟩ .funnel) rfl
  refine ⟨placed.trans ?_, ?_, descends⟩
  · decide +kernel
  · decide +kernel

end Backjump
