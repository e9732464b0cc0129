import Backjump.Graph
import Backjump.Proofs.OrderedMap
import Backjump.Proofs.Stack

/-! Graphs as the list of their vertices in order of arrival, each with its sources.
Sources have arrived before, so the graph has no circle. The list fixes the
whole graph: predecessors are the sources, and successors are the vertices
that name a key as a source, in order of arrival. -/
namespace Backjump

/-- A vertex with the keys that its edges come from. -/
structure Arrival where
  vertex : Vertex
  sources : List Key

namespace Arrival

def key (a : Arrival) : Key := a.vertex.key

/-- The vertices with an edge from `key`. -/
def targets (as : List Arrival) (key : Key) : List Key :=
  (as.filter (key ∈ ·.sources)).map Arrival.key

/-- The node of an arrival, which sees also those after it. -/
def node (as : List Arrival) (a : Arrival) : Node := ⟨a.vertex, targets as a.key, a.sources⟩

/-- The nodes of the graph that the arrivals make. -/
def drawn (as : List Arrival) : List (Key × Node) := as.map fun a => (a.key, a.node as)

structure Wired (as : List Arrival) : Prop where
  distinct : (as.map key).Nodup
  sources_nodup : ∀ a ∈ as, a.sources.Nodup
  earlier : Built (fun before a => ∀ k ∈ a.sources, k ∈ before.map key) as

theorem targets_append (as bs : List Arrival) (k : Key) :
    targets (as ++ bs) k = targets as k ++ targets bs k := by
  simp [targets]

theorem targets_eq_nil {as : List Arrival} {k : Key} (unnamed : ∀ a ∈ as, k ∉ a.sources) :
    targets as k = [] := by
  simpa [targets] using unnamed

theorem targets_singleton (a : Arrival) (k : Key) :
    targets [a] k = if k ∈ a.sources then [a.key] else [] := by
  by_cases source : k ∈ a.sources <;> simp [targets, source]

theorem mem_targets {as : List Arrival} {j k : Key} :
    j ∈ targets as k ↔ ∃ a ∈ as, k ∈ a.sources ∧ a.key = j := by
  simp [targets, and_assoc]

namespace Wired

variable {as : List Arrival} {a : Arrival} {k : Key}

theorem nil : Wired [] := ⟨by simp, by simp, .nil⟩

theorem front {bs : List Arrival} (wired : Wired (as ++ bs)) : Wired as where
  distinct := by
    have distinct := wired.distinct
    rw [List.map_append] at distinct
    exact (List.nodup_append.mp distinct).1
  sources_nodup a member := wired.sources_nodup a (List.mem_append_left _ member)
  earlier := wired.earlier.front

theorem snoc (wired : Wired as) (fresh : a.key ∉ as.map key) (nodup : a.sources.Nodup)
    (live : ∀ k ∈ a.sources, k ∈ as.map key) : Wired (as ++ [a]) where
  distinct := by
    rw [List.map_append, List.nodup_append]
    refine ⟨wired.distinct, List.nodup_singleton _, ?_⟩
    rintro k member _ last rfl
    exact fresh (List.mem_singleton.mp last ▸ member)
  sources_nodup := by
    intro b member
    rcases List.mem_append.mp member with old | new
    · exact wired.sources_nodup b old
    · exact List.mem_singleton.mp new ▸ nodup
  earlier := wired.earlier.snoc live

theorem last_fresh (wired : Wired (as ++ [a])) : a.key ∉ as.map key := by
  have distinct := wired.distinct
  rw [List.map_append, List.map_singleton, List.nodup_append] at distinct
  exact fun member => distinct.2.2 _ member a.key (by simp) rfl

theorem mem_keys_of_source (wired : Wired as) (member : a ∈ as) (source : k ∈ a.sources) :
    k ∈ as.map key := by
  obtain ⟨before, after, rfl, live⟩ := wired.earlier.exists_split member
  rw [List.map_append]
  exact List.mem_append_left _ (live k source)

theorem eq_of_key (wired : Wired as) {b : Arrival} (member : a ∈ as) (member' : b ∈ as)
    (same : a.key = b.key) : a = b :=
  List.inj_on_of_nodup_map wired.distinct member member' same

theorem targets_of_fresh (wired : Wired as) (fresh : k ∉ as.map key) : targets as k = [] :=
  targets_eq_nil fun _ member source => fresh (wired.mem_keys_of_source member source)

end Wired

end Arrival

namespace ImplicationGraph

open Arrival

/-- The graph is the one that the arrivals make. -/
structure Draws (g : ImplicationGraph) (as : List Arrival) : Prop where
  nodes : g.nodes.entries = drawn as
  wired : Wired as

namespace Draws

variable {g : ImplicationGraph} {as : List Arrival} {a : Arrival} {v : Vertex} {k source : Key}

theorem empty : ImplicationGraph.empty.Draws [] := ⟨rfl, .nil⟩

theorem keys_eq (draws : g.Draws as) : g.nodes.keys = as.map Arrival.key := by
  rw [OrderedMap.keys, draws.nodes, drawn, List.map_map]
  rfl

theorem get?_of_mem (draws : g.Draws as) (member : a ∈ as) :
    g.nodes.get? a.key = some (a.node as) := by
  rw [OrderedMap.get?_eq_some_iff, draws.nodes]
  exact List.mem_map_of_mem member

theorem get?_of_not_mem (draws : g.Draws as) (absent : k ∉ as.map Arrival.key) :
    g.nodes.get? k = none := by
  rw [OrderedMap.get?_eq_none_iff]
  exact draws.keys_eq ▸ absent

theorem exists_get? (draws : g.Draws as) (live : k ∈ as.map Arrival.key) :
    ∃ a ∈ as, a.key = k ∧ g.nodes.get? k = some (a.node as) := by
  obtain ⟨a, member, rfl⟩ := List.mem_map.mp live
  exact ⟨a, member, rfl, draws.get?_of_mem member⟩

theorem node_eq_ok (draws : g.Draws as) (member : a ∈ as) : g.node a.key = .ok (a.node as) := by
  rw [node, draws.get?_of_mem member]

theorem vertex_eq_ok (draws : g.Draws as) (member : a ∈ as) : g.vertex a.key = .ok a.vertex := by
  rw [vertex, draws.node_eq_ok member]
  rfl

theorem predecessors_eq_ok (draws : g.Draws as) (member : a ∈ as) :
    g.predecessors a.key = .ok a.sources := by
  rw [predecessors, draws.node_eq_ok member]
  rfl

theorem insert (draws : g.Draws as) (fresh : v.key ∉ as.map Arrival.key) :
    (g.insert v).Draws (as ++ [⟨v, []⟩]) where
  nodes := by
    have absent : v.key ∉ g.nodes := by
      rw [OrderedMap.mem_iff]
      exact draws.keys_eq ▸ fresh
    have unnamed : targets (as ++ [⟨v, []⟩]) = targets as := by
      funext k
      have none_last : targets [⟨v, []⟩] k = [] := targets_eq_nil (by simp)
      rw [targets_append, none_last, List.append_nil]
    rw [ImplicationGraph.insert, OrderedMap.entries_insert_of_not_mem absent, draws.nodes]
    simp [drawn, Arrival.node, unnamed, Arrival.key, draws.wired.targets_of_fresh fresh]
  wired := draws.wired.snoc fresh (by simp) (by simp)

/-- What an added edge does to the nodes: its source and its target each note the other. -/
theorem drawn_addEdge (wired : Wired (as ++ [a])) (live : source ∈ as.map Arrival.key)
    (new : source ∉ a.sources) :
    ((drawn (as ++ [a])).map fun p =>
        (p.1, if p.1 = source then { p.2 with successors := p.2.successors ++ [a.key] } else p.2)).map
        (fun p =>
          (p.1, if p.1 = a.key then { p.2 with predecessors := p.2.predecessors ++ [source] } else p.2)) =
      drawn (as ++ [⟨a.vertex, a.sources ++ [source]⟩]) := by
  have apart : ∀ k ∈ as.map Arrival.key, k ≠ a.key := fun k member same =>
    wired.last_fresh (same ▸ member)
  have own : a.key ∉ a.sources := fun self => apart _ (wired.earlier.last _ self) rfl
  rw [List.map_map, drawn, drawn, List.map_map, List.map_append, List.map_append]
  congr 1
  · -- Vertices that came before: only the source gets a new successor.
    apply List.map_congr_left
    intro b member
    have notLast := apart _ (List.mem_map_of_mem member)
    by_cases isSource : b.key = source
    · subst isSource
      simp [Arrival.node, targets_append, targets_singleton, notLast, new]
      rfl
    · simp [Arrival.node, targets_append, targets_singleton, notLast, isSource]
      rfl
  · -- The last vertex gets the source; it is no successor of itself.
    have notSource : a.key ≠ source := (apart source live).symm
    have sameKey : Arrival.key ⟨a.vertex, a.sources ++ [source]⟩ = a.key := rfl
    simp [Arrival.node, targets_append, targets_singleton, notSource, own, sameKey]

/-- An edge into the vertex that arrived last adds a source to it. -/
theorem addEdge (draws : g.Draws (as ++ [a])) (live : source ∈ as.map Arrival.key)
    (new : source ∉ a.sources) :
    ∃ g', g.addEdge source a.key = .ok g' ∧
      g'.Draws (as ++ [⟨a.vertex, a.sources ++ [source]⟩]) := by
  have wired := draws.wired
  obtain ⟨b, member, rfl, found⟩ := draws.exists_get? (k := source)
    (by rw [List.map_append]; exact List.mem_append_left _ live)
  have last : a ∈ as ++ [a] := by simp
  have noEdge : a.key ∉ (b.node (as ++ [a])).successors := by
    intro edge
    obtain ⟨c, member', source, same⟩ := mem_targets.mp edge
    rw [wired.eq_of_key member' last same] at source
    exact new source
  refine ⟨_, by rw [ImplicationGraph.addEdge, found, draws.get?_of_mem last]; exact if_neg noEdge, ?_⟩
  constructor
  · rw [OrderedMap.entries_adjust, OrderedMap.entries_adjust, draws.nodes]
    exact drawn_addEdge wired live new
  · refine wired.front.snoc (a := ⟨a.vertex, _⟩) wired.last_fresh ?_ ?_
    · rw [List.nodup_append]
      refine ⟨wired.sources_nodup a last, List.nodup_singleton _, ?_⟩
      rintro k old _ isNew rfl
      exact new (List.mem_singleton.mp isNew ▸ old)
    · intro k member'
      rcases List.mem_append.mp member' with old | isNew
      · exact wired.earlier.last k old
      · exact List.mem_singleton.mp isNew ▸ live

/-- Edges into the vertex that arrived last, from further sources in order. -/
theorem addEdgesInto {sources : List Key} (draws : g.Draws (as ++ [a]))
    (live : ∀ k ∈ sources, k ∈ as.map Arrival.key) (distinct : (a.sources ++ sources).Nodup) :
    ∃ g', g.addEdgesInto a.key sources = (.ok (), g') ∧
      g'.Draws (as ++ [⟨a.vertex, a.sources ++ sources⟩]) := by
  induction sources generalizing g a with
  | nil => exact ⟨g, rfl, by simpa using draws⟩
  | cons source rest ih =>
    rw [List.forall_mem_cons] at live
    have new : source ∉ a.sources := fun old =>
      (List.nodup_append.mp distinct).2.2 source old source (by simp) rfl
    obtain ⟨g₁, added, draws₁⟩ := draws.addEdge live.1 new
    have distinct₁ : (a.sources ++ [source] ++ rest).Nodup := by simpa using distinct
    obtain ⟨g₂, addedRest, draws₂⟩ := ih (a := ⟨a.vertex, a.sources ++ [source]⟩) draws₁ live.2 distinct₁
    refine ⟨g₂, ?_, by simpa using draws₂⟩
    rw [ImplicationGraph.addEdgesInto, added]
    exact addedRest

/-- A fresh vertex with edges from distinct vertices that are there. -/
theorem arrive {v : Vertex} {sources : List Key} (draws : g.Draws as)
    (fresh : v.key ∉ as.map Arrival.key) (live : ∀ k ∈ sources, k ∈ as.map Arrival.key)
    (distinct : sources.Nodup) :
    ∃ g', (g.insert v).addEdgesInto v.key sources = (.ok (), g') ∧
      g'.Draws (as ++ [⟨v, sources⟩]) :=
  (draws.insert fresh).addEdgesInto live (by simpa using distinct)

theorem addVertex_eq_ok {l : Literal} {level : Int} {isDecision : Bool} {clause : Option Int}
    (draws : g.Draws as) (fresh : some l.symbol ∉ as.map Arrival.key) :
    g.addVertex l level isDecision clause = .ok (g.insert ⟨some l, level, isDecision, clause⟩) := by
  rw [addVertex, draws.get?_of_not_mem fresh]

end Draws

end ImplicationGraph

end Backjump
