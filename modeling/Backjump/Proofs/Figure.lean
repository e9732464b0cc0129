import Backjump.Figure
import Backjump.Proofs.Graph.Route
import Backjump.Proofs.Traversal

/-! Pictures of graphs. With distinct keys no vertex takes the place of another: the
variables stand in columns of their own, in the order of the picture, and the
conflict one column past the last. Edges lead between vertices, so everything in
the picture of a graph has a place, and drawing it does not fail. -/
namespace Backjump

namespace GraphView

/-- Distinct vertices, of which the conflict is the one without a variable, and edges between them. -/
structure Proper (g : GraphView) : Prop where
  distinct : (g.vertices.map VertexView.symbol).Nodup
  conflict : ∀ v ∈ g.vertices, v.isConflict = true ↔ v.symbol = none
  source : ∀ edge ∈ g.edges, edge.1 ∈ g.vertices.map VertexView.symbol
  target : ∀ edge ∈ g.edges, edge.2 ∈ g.vertices.map VertexView.symbol

/-- The vertices of variables. -/
def assigned (g : GraphView) : List VertexView := g.vertices.filter fun v => !v.isConflict

/-- The vertices of conflicts. -/
def clashes (g : GraphView) : List VertexView := g.vertices.filter VertexView.isConflict

/-- A column for each vertex, from `column` on, and the row of its level. -/
def places (column : Nat) (vs : List VertexView) : List (Key × Spot) :=
  (vs.zipIdx column).map fun p => (p.1.symbol, ⟨p.2, -p.1.level⟩)

variable {g : GraphView} {v : VertexView} {vs : List VertexView} {spots : OrderedMap Key Spot}
  {column : Nat} {key : Key}

theorem map_fst_places (column : Nat) (vs : List VertexView) :
    (places column vs).map Prod.fst = vs.map VertexView.symbol := by
  rw [places, List.map_map, ← List.zipIdx_map_fst column vs, List.map_map, List.zipIdx_map_fst]
  rfl

theorem placeVariables_eq (column : Nat)
    (distinct : (spots.keys ++ (vs.filter fun v => !v.isConflict).map VertexView.symbol).Nodup) :
    (placeVariables column spots vs).1.entries =
        spots.entries ++ places column (vs.filter fun v => !v.isConflict) ∧
      (placeVariables column spots vs).2 = column + (vs.filter fun v => !v.isConflict).length := by
  induction vs generalizing column spots with
  | nil => simp [placeVariables, places]
  | cons v rest ih =>
    rw [placeVariables]
    cases isConflict : v.isConflict with
    | true =>
      rw [List.filter_cons_of_neg (by simp [isConflict])] at distinct ⊢
      exact ih column distinct
    | false =>
      rw [List.filter_cons_of_pos (by simp [isConflict])] at distinct ⊢
      have fresh : v.symbol ∉ spots := by
        intro old
        rw [List.nodup_append] at distinct
        exact distinct.2.2 _ old _ (by simp) rfl
      have keys := OrderedMap.keys_insert_of_not_mem fresh ⟨column, -v.level⟩
      have later : ((spots.insert v.symbol ⟨column, -v.level⟩).keys ++
          (rest.filter fun v => !v.isConflict).map VertexView.symbol).Nodup := by
        rw [keys]
        simpa using distinct
      obtain ⟨entries, past⟩ := ih (column + 1) later
      rw [if_neg (by decide), entries, past, OrderedMap.entries_insert_of_not_mem fresh]
      simp [places, Nat.add_assoc, Nat.add_comm 1]

theorem layout_eq (g : GraphView) : g.layout =
    g.clashes.foldl (fun spots v => spots.insert none ⟨(placeVariables 0 .empty g.vertices).2, -v.level⟩)
      (placeVariables 0 .empty g.vertices).1 := rfl

namespace Proper

theorem symbol_of_clash (proper : g.Proper) (member : v ∈ g.clashes) : v.symbol = none :=
  have ⟨member, isConflict⟩ := List.mem_filter.mp member
  (proper.conflict v member).mp isConflict

theorem distinct_assigned (proper : g.Proper) : (g.assigned.map VertexView.symbol).Nodup :=
  proper.distinct.sublist (List.filter_sublist.map _)

/-- There is one conflict at most. -/
theorem clashes_cases (proper : g.Proper) : g.clashes = [] ∨ ∃ v, g.clashes = [v] := by
  have distinct : (g.clashes.map VertexView.symbol).Nodup :=
    proper.distinct.sublist (List.filter_sublist.map _)
  have same {v : VertexView} (member : v ∈ g.clashes) := proper.symbol_of_clash member
  cases shape : g.clashes with
  | nil => exact .inl rfl
  | cons v rest =>
    cases rest with
    | nil => exact .inr ⟨v, rfl⟩
    | cons w rest =>
      rw [shape] at distinct same
      simp [same (v := v) (by simp), same (v := w) (by simp)] at distinct

/-- The variables stand in their order, and the conflict one column past them. -/
theorem layout_entries (proper : g.Proper) : g.layout.entries =
    places 0 g.assigned ++ g.clashes.map fun v => (none, ⟨g.assigned.length, -v.level⟩) := by
  have distinct : ((OrderedMap.empty : OrderedMap Key Spot).keys ++
      g.assigned.map VertexView.symbol).Nodup := proper.distinct_assigned
  obtain ⟨entries, past⟩ := placeVariables_eq 0 distinct
  have free : none ∉ (placeVariables 0 .empty g.vertices).1 := by
    rw [OrderedMap.mem_iff, OrderedMap.keys, entries, List.map_append, map_fst_places]
    intro member
    obtain ⟨v, listed, same⟩ := List.mem_map.mp member
    obtain ⟨member, isVariable⟩ := List.mem_filter.mp listed
    rw [(proper.conflict v member).mpr same] at isVariable
    contradiction
  rw [Nat.zero_add] at past
  rw [layout_eq]
  obtain empty | ⟨v, one⟩ := proper.clashes_cases
  · rw [empty, List.map_nil, List.append_nil]
    exact entries
  · rw [one, List.foldl_cons, List.foldl_nil, OrderedMap.entries_insert_of_not_mem free, entries, past]
    rfl

end Proper

end GraphView

namespace ImplicationGraph.Draws

variable {g : ImplicationGraph} {as : List Arrival}

theorem vertices_view (draws : g.Draws as) :
    g.view.vertices = as.map fun a => a.vertex.view := by
  rw [view, draws.vertices_eq, List.map_map]
  rfl

theorem symbols_view (draws : g.Draws as) :
    g.view.vertices.map VertexView.symbol = as.map Arrival.key := by
  rw [draws.vertices_view, List.map_map]
  rfl

/-- The picture of a graph has a place for everything in it. -/
theorem proper_view (draws : g.Draws as) : g.view.Proper where
  distinct := draws.symbols_view ▸ draws.wired.distinct
  conflict := by
    rw [draws.vertices_view, List.forall_mem_map]
    intro a _
    cases literal : a.vertex.literal <;>
      simp [Vertex.view, Vertex.isConflict, Vertex.key, literal]
  source := by
    rintro ⟨source, target⟩ member
    obtain ⟨a, arrived, -, isSource⟩ := draws.mem_edges.mp member
    rw [draws.symbols_view]
    exact draws.wired.mem_keys_of_source arrived isSource
  target := by
    rintro ⟨source, target⟩ member
    obtain ⟨a, arrived, rfl, -⟩ := draws.mem_edges.mp member
    rw [draws.symbols_view]
    exact List.mem_map_of_mem arrived

end ImplicationGraph.Draws

end Backjump
