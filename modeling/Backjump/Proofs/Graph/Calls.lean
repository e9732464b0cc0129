import Backjump.Proofs.Graph.Tables

/-! A graph on its own, under calls in any order. A caller may add any vertex, any
edge (to itself, in a circle, from the conflict or into it), a conflict with any
sources, and cut at any level. A refused call changes nothing, except that a
conflict keeps the edges before the source that is missing. Every call keeps
each edge noted at both ends; so the tables of the graph never lack what a call
looks up, a cut leaves the subgraph on the vertices of its level and below, and
two cuts are the lower one. -/
namespace Backjump.ImplicationGraph

/-- A call that changes a graph. -/
inductive Call where
  | addVertex (literal : Literal) (level : Int) (isDecision : Bool) (clause : Option Int)
  | addEdge (source target : Key)
  | addConflict (level : Int) (clause : Option Int) (sources : List Key)
  | removeAbove (level : Int)
  deriving DecidableEq

/-- The outcome of a change that either is made or leaves all as it was. -/
def changed {σ : Type} (s : σ) : Except Fault σ → Attempt σ Unit
  | .ok s' => (.ok (), s')
  | .error f => (.error f, s)

/-- The answer to a call, which lists the vertices that were taken out, and the graph after it. -/
def perform (g : ImplicationGraph) : Call → Attempt ImplicationGraph (List Vertex)
  | .addVertex l level isDecision clause =>
    (changed g (g.addVertex l level isDecision clause)).andThen fun _ g => (.ok [], g)
  | .addEdge source target => (changed g (g.addEdge source target)).andThen fun _ g => (.ok [], g)
  | .addConflict level clause sources =>
    (g.addConflict level clause sources).andThen fun _ g => (.ok [], g)
  | .removeAbove level => ((g.removeAbove level).map Except.ok id)

def afterCalls (g : ImplicationGraph) (calls : List Call) : ImplicationGraph :=
  calls.foldl (fun g call => (g.perform call).2) g

namespace Tables

def perform (t : Tables) : Call → Option (Attempt Tables (List Vertex))
  | .addVertex l level isDecision clause =>
    some ((changed t (t.addVertex l level isDecision clause)).andThen fun _ t => (.ok [], t))
  | .addEdge source target =>
    (t.addEdge source target).map fun outcome => (changed t outcome).andThen fun _ t => (.ok [], t)
  | .addConflict level clause sources =>
    (t.addConflict level clause sources).map fun outcome =>
      outcome.andThen fun _ t => (.ok [], t)
  | .removeAbove level => (t.removeAbove level).map fun removed => removed.map Except.ok id

def afterCalls (t : Tables) : List Call → Option Tables
  | [] => some t
  | call :: rest => (t.perform call).bind fun outcome => outcome.2.afterCalls rest

/-- The tables list the same keys, the edges are noted once at each end, and their ends are there. -/
structure Faithful (t : Tables) : Prop where
  successors_keys : t.successors.keys = t.vertices.keys
  predecessors_keys : t.predecessors.keys = t.vertices.keys
  keyed : ∀ k v, t.vertices.get? k = some v → v.key = k
  mirrored : ∀ u v, (∃ ks, t.predecessors.get? v = some ks ∧ u ∈ ks) ↔
    ∃ ks, t.successors.get? u = some ks ∧ v ∈ ks
  successors_nodup : ∀ u ks, t.successors.get? u = some ks → ks.Nodup
  predecessors_nodup : ∀ v ks, t.predecessors.get? v = some ks → ks.Nodup
  successors_live : ∀ u ks, t.successors.get? u = some ks → ∀ v ∈ ks, v ∈ t.vertices
  predecessors_live : ∀ v ks, t.predecessors.get? v = some ks → ∀ u ∈ ks, u ∈ t.vertices

end Tables

/-- Each vertex stands at its own key, and each edge is noted at both ends. -/
structure Linked (g : ImplicationGraph) : Prop where
  keyed : ∀ p ∈ g.nodes.entries, p.2.vertex.key = p.1
  mirrored : Mirrored g.nodes.entries

/-- Whether a vertex outlasts a cut at a level. -/
def outlasts (level : Int) (v : Vertex) : Bool := v.level ≤ level && !v.isConflict

/-- Whether the vertex of a key outlasts a cut at a level. -/
def staysAt (g : ImplicationGraph) (level : Int) (key : Key) : Bool :=
  (g.nodes.get? key).any fun n => outlasts level n.vertex

variable {g g' : ImplicationGraph} {nodes : List (Key × Node)} {keep keep' : Key → Bool}
  {k source target : Key} {v : Vertex} {level a b : Int}

theorem mirrored_empty : Mirrored [] := ⟨by simp, by simp, by simp, by simp⟩

/-- An edge between two nodes that did not have it is noted at both. -/
theorem Mirrored.withEdge {n m : Node} (mirrored : Mirrored g.nodes.entries)
    (foundSource : (source, n) ∈ g.nodes.entries) (foundTarget : (target, m) ∈ g.nodes.entries)
    (new : target ∉ n.successors) :
    Mirrored (g.nodes.entries.map (ImplicationGraph.withEdge source target)) := by
  have new' : source ∉ m.predecessors := by
    intro known
    obtain ⟨q, member, rfl, back⟩ := mirrored.to_source _ foundTarget source known
    exact new (OrderedMap.value_unique member foundSource ▸ back)
  constructor
  case to_source =>
    intro p' listed k isSource
    obtain ⟨p, member, rfl⟩ := List.mem_map.mp listed
    rcases mem_predecessors_withEdge.mp isSource with old | ⟨rfl, rfl⟩
    · obtain ⟨q, member', rfl, back⟩ := mirrored.to_source p member k old
      exact ⟨_, List.mem_map_of_mem member', rfl, mem_successors_withEdge.mpr (.inl back)⟩
    · exact ⟨_, List.mem_map_of_mem foundSource, rfl, mem_successors_withEdge.mpr (.inr ⟨rfl, rfl⟩)⟩
  case to_target =>
    intro p' listed k isTarget
    obtain ⟨p, member, rfl⟩ := List.mem_map.mp listed
    rcases mem_successors_withEdge.mp isTarget with old | ⟨rfl, rfl⟩
    · obtain ⟨q, member', rfl, back⟩ := mirrored.to_target p member k old
      exact ⟨_, List.mem_map_of_mem member', rfl, mem_predecessors_withEdge.mpr (.inl back)⟩
    · exact ⟨_, List.mem_map_of_mem foundTarget, rfl, mem_predecessors_withEdge.mpr (.inr ⟨rfl, rfl⟩)⟩
  case successors_nodup =>
    intro p' listed
    obtain ⟨p, member, rfl⟩ := List.mem_map.mp listed
    have old := mirrored.successors_nodup p member
    by_cases here : p.1 = source
    · subst here
      rw [← OrderedMap.value_unique member foundSource] at new
      simpa [ImplicationGraph.withEdge] using List.Nodup.concat new old
    · simpa [ImplicationGraph.withEdge, here] using old
  case predecessors_nodup =>
    intro p' listed
    obtain ⟨p, member, rfl⟩ := List.mem_map.mp listed
    have old := mirrored.predecessors_nodup p member
    by_cases here : p.1 = target
    · subst here
      rw [← OrderedMap.value_unique member foundTarget] at new'
      simpa [ImplicationGraph.withEdge] using List.Nodup.concat new' old
    · simpa [ImplicationGraph.withEdge, here] using old

/-- On the keys that are there, subgraphs that keep the same vertices are the same. -/
theorem Mirrored.induced_congr (mirrored : Mirrored nodes)
    (alike : ∀ p ∈ nodes, keep p.1 = keep' p.1) :
    ImplicationGraph.induced keep nodes = ImplicationGraph.induced keep' nodes := by
  rw [ImplicationGraph.induced, ImplicationGraph.induced, List.filter_congr alike]
  apply List.map_congr_left
  intro p member
  have member := List.mem_of_mem_filter member
  have successors : p.2.successors.filter keep = p.2.successors.filter keep' := by
    apply List.filter_congr
    intro k target
    obtain ⟨q, member', rfl, _⟩ := mirrored.to_target p member k target
    exact alike q member'
  have predecessors : p.2.predecessors.filter keep = p.2.predecessors.filter keep' := by
    apply List.filter_congr
    intro k source
    obtain ⟨q, member', rfl, _⟩ := mirrored.to_source p member k source
    exact alike q member'
  rw [successors, predecessors]

theorem staysAt_of_mem {p : Key × Node} (member : p ∈ g.nodes.entries) :
    g.staysAt level p.1 = outlasts level p.2.vertex := by
  rw [staysAt, OrderedMap.get?_eq_some_iff.mpr member, Option.any_some]

theorem not_outlasts (level : Int) (v : Vertex) :
    (!outlasts level v) = (decide (level < v.level) || v.isConflict) := by
  by_cases low : v.level ≤ level
  · simp [outlasts, low, Int.not_lt.mpr low]
  · simp [outlasts, low, Int.not_le.mp low]

theorem not_mem_keysAbove {p : Key × Node} (member : p ∈ g.nodes.entries) :
    p.1 ∉ g.keysAbove level ↔ outlasts level p.2.vertex = true := by
  have above : p.1 ∈ g.keysAbove level ↔ (!outlasts level p.2.vertex) = true := by
    simp only [keysAbove, ← not_outlasts, List.mem_map, List.mem_filter]
    constructor
    · rintro ⟨q, ⟨member', leaves⟩, same⟩
      rwa [← List.inj_on_of_nodup_map g.nodes.nodup member' member same]
    · intro leaves
      exact ⟨p, ⟨member, leaves⟩, rfl⟩
  rw [above]
  simp

/-- Cutting twice keeps what the lower cut keeps. -/
theorem outlasts_min (a b : Int) (v : Vertex) :
    (outlasts a v && outlasts b v) = outlasts (min a b) v := by
  have both : decide (v.level ≤ min a b) = (decide (v.level ≤ a) && decide (v.level ≤ b)) := by
    rw [← Bool.decide_and]
    exact decide_eq_decide.mpr Int.le_min
  rw [outlasts, outlasts, outlasts, both]
  cases decide (v.level ≤ a) <;> cases decide (v.level ≤ b) <;> cases v.isConflict <;> rfl

namespace Linked

theorem empty : ImplicationGraph.empty.Linked where
  keyed := by simp [ImplicationGraph.empty, OrderedMap.empty]
  mirrored := mirrored_empty

theorem insert (linked : g.Linked) (fresh : v.key ∉ g.nodes) : (g.insert v).Linked := by
  have entries : (g.insert v).nodes.entries = g.nodes.entries ++ [(v.key, ⟨v, [], []⟩)] :=
    OrderedMap.entries_insert_of_not_mem fresh _
  have old {P : Key × Node → Prop} (holds : ∀ p ∈ g.nodes.entries, P p)
      (last : P (v.key, ⟨v, [], []⟩)) : ∀ p ∈ g.nodes.entries ++ [(v.key, ⟨v, [], []⟩)], P p := by
    simpa [or_imp, forall_and] using ⟨fun k n => holds (k, n), last⟩
  constructor
  case keyed => exact entries ▸ old linked.keyed rfl
  case mirrored =>
    rw [entries]
    constructor
    case to_source =>
      refine old (fun p member k source => ?_) (by simp)
      obtain ⟨q, member', same, back⟩ := linked.mirrored.to_source p member k source
      exact ⟨q, List.mem_append_left _ member', same, back⟩
    case to_target =>
      refine old (fun p member k target => ?_) (by simp)
      obtain ⟨q, member', same, back⟩ := linked.mirrored.to_target p member k target
      exact ⟨q, List.mem_append_left _ member', same, back⟩
    case successors_nodup => exact old linked.mirrored.successors_nodup (by simp)
    case predecessors_nodup => exact old linked.mirrored.predecessors_nodup (by simp)

theorem addVertex {l : Literal} {isDecision : Bool} {clause : Option Int} (linked : g.Linked)
    (added : g.addVertex l level isDecision clause = .ok g') : g'.Linked := by
  rw [ImplicationGraph.addVertex] at added
  cases found : g.nodes.get? (some l.symbol) with
  | none =>
    rw [found, Except.ok.injEq] at added
    subst added
    exact linked.insert (OrderedMap.get?_eq_none_iff.mp found)
  | some n =>
    rw [found] at added
    contradiction

theorem addEdge (linked : g.Linked) (added : g.addEdge source target = .ok g') : g'.Linked := by
  rcases g.addEdge_cases source target with
    ⟨_, refused⟩ | ⟨_, _, _, _, _, kept⟩ | ⟨n, m, g'', foundSource, foundTarget, new, made, entries⟩
  · rw [refused] at added
    contradiction
  · rw [kept, Except.ok.injEq] at added
    exact added ▸ linked
  · rw [made, Except.ok.injEq] at added
    subst added
    constructor
    · rw [entries]
      intro p' listed
      obtain ⟨p, member, rfl⟩ := List.mem_map.mp listed
      exact linked.keyed p member
    · rw [entries]
      exact linked.mirrored.withEdge (OrderedMap.get?_eq_some_iff.mp foundSource)
        (OrderedMap.get?_eq_some_iff.mp foundTarget) new

theorem addEdgesInto (linked : g.Linked) (target : Key) (sources : List Key) :
    (g.addEdgesInto target sources).2.Linked := by
  induction sources generalizing g with
  | nil => exact linked
  | cons source rest ih =>
    rw [ImplicationGraph.addEdgesInto]
    cases added : g.addEdge source target with
    | ok g' => exact ih (linked.addEdge added)
    | error f => exact linked

theorem addConflict (linked : g.Linked) (level : Int) (clause : Option Int) (sources : List Key) :
    (g.addConflict level clause sources).2.Linked := by
  rw [ImplicationGraph.addConflict]
  by_cases present : none ∈ g.nodes
  · rw [if_pos present]
    exact linked
  · rw [if_neg present]
    exact (linked.insert (v := conflictVertex level clause) present).addEdgesInto none sources

/-- A cut leaves the subgraph on the vertices that outlast it. -/
theorem nodes_removeAbove (linked : g.Linked) (level : Int) :
    (g.removeAbove level).2.nodes.entries = induced (g.staysAt level) g.nodes.entries := by
  rw [ImplicationGraph.nodes_removeAbove linked.mirrored]
  apply linked.mirrored.induced_congr
  intro p member
  rw [staysAt_of_mem member, Bool.eq_iff_iff, decide_eq_true_iff, not_mem_keysAbove member]

theorem removeAbove (linked : g.Linked) (level : Int) : (g.removeAbove level).2.Linked := by
  have entries := linked.nodes_removeAbove level
  constructor
  · rw [entries]
    intro q listed
    obtain ⟨p, member, _, rfl⟩ := mem_induced.mp listed
    exact linked.keyed p member
  · exact entries ▸ linked.mirrored.induced _

/-- What a cut answers: the vertices that do not outlast it, in their order. -/
theorem removed (g : ImplicationGraph) (level : Int) :
    (g.removeAbove level).1 = g.vertices.filter (!outlasts level ·) := by
  have found : ∀ p ∈ g.nodes.entries.filter fun p => !outlasts level p.2.vertex,
      (g.nodes.get? p.1).map Node.vertex = some p.2.vertex := by
    intro p member
    rw [OrderedMap.get?_eq_some_iff.mpr (List.mem_of_mem_filter member), Option.map_some]
  rw [ImplicationGraph.removeAbove, keysAbove, vertices, OrderedMap.values, List.map_map,
    List.filter_map, List.filterMap_map]
  simp only [← not_outlasts]
  rw [List.filterMap_congr (g := fun p => some p.2.vertex) found, List.filterMap_eq_map']
  rfl

theorem vertices_removeAbove (linked : g.Linked) (level : Int) :
    (g.removeAbove level).2.vertices = g.vertices.filter (outlasts level) := by
  rw [vertices, OrderedMap.values, linked.nodes_removeAbove, induced, vertices, OrderedMap.values,
    List.map_map, List.map_map, List.map_map, List.filter_map,
    List.filter_congr fun p member => staysAt_of_mem member]
  rfl

/-- Two cuts are the lower one. -/
theorem removeAbove_removeAbove (linked : g.Linked) (a b : Int) :
    ((g.removeAbove a).2.removeAbove b).2 = (g.removeAbove (min a b)).2 := by
  have first := linked.nodes_removeAbove a
  have both : ((g.removeAbove a).2.removeAbove b).2.nodes.entries =
      (g.removeAbove (min a b)).2.nodes.entries := by
    rw [(linked.removeAbove a).nodes_removeAbove, first, induced_induced, linked.nodes_removeAbove]
    apply linked.mirrored.induced_congr
    intro p member
    rw [staysAt_of_mem member, staysAt_of_mem member, ← outlasts_min]
    by_cases kept : outlasts a p.2.vertex = true
    · have member' := mem_induced.mpr ⟨p, member, (staysAt_of_mem member).trans kept, rfl⟩
      rw [← first] at member'
      rw [staysAt_of_mem member', kept]
    · rw [Bool.not_eq_true] at kept
      rw [kept, Bool.false_and, Bool.false_and]
  exact congrArg ImplicationGraph.mk (OrderedMap.ext both)

/-- What two cuts take out is what the lower one takes out. -/
theorem removed_removed (linked : g.Linked) (a b : Int) :
    ((g.removeAbove a).1 ++ ((g.removeAbove a).2.removeAbove b).1).Perm
      (g.removeAbove (min a b)).1 := by
  have first : (g.vertices.filter (!outlasts (min a b) ·)).filter (!outlasts a ·) =
      g.vertices.filter (!outlasts a ·) := by
    rw [List.filter_filter]
    apply List.filter_congr
    intro v _
    rw [← outlasts_min]
    cases outlasts a v <;> rfl
  have later : (g.vertices.filter (!outlasts (min a b) ·)).filter (outlasts a) =
      (g.vertices.filter (outlasts a)).filter (!outlasts b ·) := by
    rw [List.filter_filter, List.filter_filter]
    apply List.filter_congr
    intro v _
    rw [← outlasts_min]
    cases outlasts a v <;> cases outlasts b v <;> rfl
  have parts := List.filter_append_perm (!outlasts a ·) (g.vertices.filter (!outlasts (min a b) ·))
  simp only [Bool.not_not, first, later] at parts
  rw [removed, removed, removed, linked.vertices_removeAbove]
  exact parts

/-- The tables do whatever the graph does. -/
theorem tables_perform (linked : g.Linked) (call : Call) :
    g.tables.perform call = some ((g.perform call).map id tables) := by
  cases call with
  | addVertex l level isDecision clause =>
    rw [Tables.perform, tables_addVertex, ImplicationGraph.perform]
    cases g.addVertex l level isDecision clause with
    | ok g' => rfl
    | error f => rfl
  | addEdge source target =>
    rw [Tables.perform, tables_addEdge, ImplicationGraph.perform]
    cases g.addEdge source target with
    | ok g' => rfl
    | error f => rfl
  | addConflict level clause sources =>
    rw [Tables.perform, tables_addConflict, ImplicationGraph.perform]
    obtain ⟨answer, g'⟩ := g.addConflict level clause sources
    cases answer with
    | ok _ => rfl
    | error f => rfl
  | removeAbove level =>
    rw [Tables.perform, tables_removeAbove linked.mirrored]
    rfl

theorem perform (linked : g.Linked) (call : Call) : (g.perform call).2.Linked := by
  cases call with
  | addVertex l level isDecision clause =>
    rw [ImplicationGraph.perform]
    cases added : g.addVertex l level isDecision clause with
    | ok g' => exact linked.addVertex added
    | error f => exact linked
  | addEdge source target =>
    rw [ImplicationGraph.perform]
    cases added : g.addEdge source target with
    | ok g' => exact linked.addEdge added
    | error f => exact linked
  | addConflict level clause sources =>
    have kept := linked.addConflict level clause sources
    rw [ImplicationGraph.perform]
    generalize g.addConflict level clause sources = outcome at kept ⊢
    obtain ⟨answer, g'⟩ := outcome
    cases answer with
    | ok _ => exact kept
    | error f => exact kept
  | removeAbove level => exact linked.removeAbove level

theorem afterCalls (linked : g.Linked) (calls : List Call) :
    (g.afterCalls calls).Linked ∧ g.tables.afterCalls calls = some (g.afterCalls calls).tables := by
  induction calls generalizing g with
  | nil => exact ⟨linked, rfl⟩
  | cons call rest ih =>
    obtain ⟨kept, shown⟩ := ih (linked.perform call)
    refine ⟨kept, ?_⟩
    rw [Tables.afterCalls, linked.tables_perform]
    exact shown

theorem faithful (linked : g.Linked) : g.tables.Faithful := by
  have mirrored := linked.mirrored
  constructor
  case successors_keys => simp [tables]
  case predecessors_keys => simp [tables]
  case keyed =>
    intro k v found
    rw [get?_vertices, Option.map_eq_some_iff] at found
    obtain ⟨n, found, rfl⟩ := found
    exact linked.keyed _ (OrderedMap.get?_eq_some_iff.mp found)
  case mirrored =>
    intro u v
    simp only [get?_predecessors_eq_some, get?_successors_eq_some]
    constructor
    · rintro ⟨_, ⟨n, member, rfl⟩, isSource⟩
      obtain ⟨q, member', rfl, back⟩ := mirrored.to_source _ member u isSource
      exact ⟨_, ⟨q.2, member', rfl⟩, back⟩
    · rintro ⟨_, ⟨n, member, rfl⟩, isTarget⟩
      obtain ⟨q, member', rfl, back⟩ := mirrored.to_target _ member v isTarget
      exact ⟨_, ⟨q.2, member', rfl⟩, back⟩
  case successors_nodup =>
    intro u ks found
    obtain ⟨n, member, rfl⟩ := get?_successors_eq_some.mp found
    exact mirrored.successors_nodup _ member
  case predecessors_nodup =>
    intro v ks found
    obtain ⟨n, member, rfl⟩ := get?_predecessors_eq_some.mp found
    exact mirrored.predecessors_nodup _ member
  case successors_live =>
    intro u ks found v isTarget
    obtain ⟨n, member, rfl⟩ := get?_successors_eq_some.mp found
    obtain ⟨q, member', rfl, _⟩ := mirrored.to_target _ member v isTarget
    exact mem_vertices.mpr (OrderedMap.mem_keys_of_mem member')
  case predecessors_live =>
    intro v ks found u isSource
    obtain ⟨n, member, rfl⟩ := get?_predecessors_eq_some.mp found
    obtain ⟨q, member', rfl, _⟩ := mirrored.to_source _ member u isSource
    exact mem_vertices.mpr (OrderedMap.mem_keys_of_mem member')

end Linked

/-- After any calls the tables of the graph list the same keys and note each edge once at each end,
no call looks up what is not there, and a cut leaves the subgraph on the vertices that outlast it,
so that two cuts are the lower one. -/
theorem tables_faithful_after_calls (calls : List Call) :
    let g := empty.afterCalls calls
    Tables.empty.afterCalls calls = some g.tables ∧ g.tables.Faithful ∧
      (∀ call, g.tables.perform call = some ((g.perform call).map id tables)) ∧
      (∀ level, ∃ removed g', g.perform (.removeAbove level) = (.ok removed, g') ∧
        g.tables.removeAbove level = some (removed, g'.tables) ∧
        removed = g.vertices.filter (!outlasts level ·) ∧
        g'.nodes.entries = induced (g.staysAt level) g.nodes.entries) ∧
      ∀ a b, ((g.removeAbove a).2.removeAbove b).2 = (g.removeAbove (min a b)).2 ∧
        ((g.removeAbove a).1 ++ ((g.removeAbove a).2.removeAbove b).1).Perm
          (g.removeAbove (min a b)).1 := by
  intro g
  obtain ⟨linked, shown⟩ := Linked.empty.afterCalls calls
  change g.Linked at linked
  refine ⟨shown, linked.faithful, linked.tables_perform, fun level => ?_, fun a b => ?_⟩
  · exact ⟨_, _, rfl, tables_removeAbove linked.mirrored level, Linked.removed g level,
      linked.nodes_removeAbove level⟩
  · exact ⟨linked.removeAbove_removeAbove a b, linked.removed_removed a b⟩

end Backjump.ImplicationGraph
