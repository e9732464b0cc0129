import Backjump.Proofs.Graph.Removal

/-! A graph kept in three tables: the vertices, and the edges once for each
direction. Nothing ties the tables together, so a step can look up a key that a
table lacks, or take a key off a list that does not hold it, and then stops
short (`none`). The tables of a graph in which every edge is noted at both ends
never do: each step of theirs answers what the graph answers, and leaves the
tables of the graph that it leaves. -/
namespace Backjump.ImplicationGraph

structure Tables where
  vertices : OrderedMap Key Vertex
  successors : OrderedMap Key (List Key)
  predecessors : OrderedMap Key (List Key)

namespace Tables

def empty : Tables := ⟨.empty, .empty, .empty⟩

def insert (t : Tables) (v : Vertex) : Tables :=
  ⟨t.vertices.insert v.key v, t.successors.insert v.key [], t.predecessors.insert v.key []⟩

def addVertex (t : Tables) (l : Literal) (level : Int) (isDecision : Bool)
    (clause : Option Int) : Except Fault Tables :=
  match t.vertices.get? (some l.symbol) with
  | some v => .error (.violation (.vertexExists l.symbol v))
  | none => .ok (t.insert ⟨some l, level, isDecision, clause⟩)

def addEdge (t : Tables) (source target : Key) : Option (Except Fault Tables) :=
  if source ∈ t.vertices ∧ target ∈ t.vertices then
    t.successors.get? source |>.bind fun targets =>
      if target ∈ targets then some (.ok t)
      else
        t.predecessors.get? target |>.map fun sources =>
          .ok { t with
            successors := t.successors.insert source (targets ++ [target])
            predecessors := t.predecessors.insert target (sources ++ [source]) }
  else some (.error (.violation (.missingEndpoint source target)))

def addEdgesInto (target : Key) : List Key → Tables → Option (Attempt Tables Unit)
  | [], t => some (.ok (), t)
  | source :: rest, t =>
    (t.addEdge source target).bind fun
      | .ok t => addEdgesInto target rest t
      | .error f => some (.error f, t)

def addConflict (t : Tables) (level : Int) (clause : Option Int) (sources : List Key) :
    Option (Attempt Tables Unit) :=
  if none ∈ t.vertices then some (.error (.violation .conflictExists), t)
  else addEdgesInto none sources (t.insert (conflictVertex level clause))

/-- Takes a key off the lists of its neighbours. A neighbour without a list is passed over. -/
def unlist (key : Key) : List Key → OrderedMap Key (List Key) → Option (OrderedMap Key (List Key))
  | [], lists => some lists
  | neighbour :: rest, lists =>
    match lists.get? neighbour with
    | none => unlist key rest lists
    | some ks => if key ∈ ks then unlist key rest (lists.insert neighbour (ks.erase key)) else none

/-- The targets are read after the sources have dropped the key, which may be its own source. -/
def removeVertex (t : Tables) (key : Key) : Option (Vertex × Tables) :=
  (t.predecessors.get? key).bind fun sources =>
  (unlist key sources t.successors).bind fun successors =>
  (successors.get? key).bind fun targets =>
  (unlist key targets t.predecessors).bind fun predecessors =>
  (t.vertices.get? key).map fun v =>
    (v, ⟨t.vertices.erase key, successors.erase key, predecessors.erase key⟩)

def removeVertices : List Key → Tables → Option (List Vertex × Tables)
  | [], t => some ([], t)
  | key :: rest, t =>
    (t.removeVertex key).bind fun (v, t) =>
      (removeVertices rest t).map fun (vs, t) => (v :: vs, t)

def keysAbove (t : Tables) (level : Int) : List Key :=
  (t.vertices.entries.filter fun p => level < p.2.level || p.2.isConflict).map Prod.fst

def removeAbove (t : Tables) (level : Int) : Option (List Vertex × Tables) :=
  removeVertices (t.keysAbove level) t

end Tables

/-- The three tables of a graph. -/
def tables (g : ImplicationGraph) : Tables where
  vertices := g.nodes.mapEntries fun _ => Node.vertex
  successors := g.nodes.mapEntries fun _ => Node.successors
  predecessors := g.nodes.mapEntries fun _ => Node.predecessors

variable {g : ImplicationGraph} {nodes : List (Key × Node)} {key k source target : Key} {n : Node}
  {v : Vertex} {level : Int}

@[simp] theorem get?_vertices (g : ImplicationGraph) (k : Key) :
    g.tables.vertices.get? k = (g.nodes.get? k).map Node.vertex := OrderedMap.get?_mapEntries ..

@[simp] theorem get?_successors (g : ImplicationGraph) (k : Key) :
    g.tables.successors.get? k = (g.nodes.get? k).map Node.successors := OrderedMap.get?_mapEntries ..

@[simp] theorem get?_predecessors (g : ImplicationGraph) (k : Key) :
    g.tables.predecessors.get? k = (g.nodes.get? k).map Node.predecessors :=
  OrderedMap.get?_mapEntries ..

theorem get?_successors_eq_some {ks : List Key} :
    g.tables.successors.get? k = some ks ↔ ∃ n, (k, n) ∈ g.nodes.entries ∧ n.successors = ks := by
  simp only [get?_successors, Option.map_eq_some_iff, OrderedMap.get?_eq_some_iff]

theorem get?_predecessors_eq_some {ks : List Key} :
    g.tables.predecessors.get? k = some ks ↔ ∃ n, (k, n) ∈ g.nodes.entries ∧ n.predecessors = ks := by
  simp only [get?_predecessors, Option.map_eq_some_iff, OrderedMap.get?_eq_some_iff]

@[simp] theorem mem_vertices : k ∈ g.tables.vertices ↔ k ∈ g.nodes := by
  rw [OrderedMap.mem_iff, OrderedMap.mem_iff, tables, OrderedMap.keys_mapEntries]

theorem mem_nodes_of_get? (found : g.nodes.get? k = some n) : k ∈ g.nodes :=
  OrderedMap.mem_keys_of_mem (OrderedMap.get?_eq_some_iff.mp found)

theorem exists_node (live : k ∈ g.nodes) : ∃ n, g.nodes.get? k = some n := by
  cases found : g.nodes.get? k with
  | none => exact absurd live (OrderedMap.get?_eq_none_iff.mp found)
  | some n => exact ⟨n, rfl⟩

theorem tables_insert (g : ImplicationGraph) (v : Vertex) :
    (g.insert v).tables = g.tables.insert v := by
  simp only [tables, insert, Tables.insert, OrderedMap.mapEntries_insert]

theorem tables_addVertex (g : ImplicationGraph) (l : Literal) (level : Int) (isDecision : Bool)
    (clause : Option Int) :
    g.tables.addVertex l level isDecision clause =
      (g.addVertex l level isDecision clause).map tables := by
  rw [Tables.addVertex, addVertex, get?_vertices]
  cases g.nodes.get? (some l.symbol) with
  | none => exact congrArg Except.ok (tables_insert g _).symm
  | some n => rfl

/-- What an edge adds to the nodes: the target to its source, and the source to its target. -/
def withEdge (source target : Key) (p : Key × Node) : Key × Node :=
  (p.1, ⟨p.2.vertex, if p.1 = source then p.2.successors ++ [target] else p.2.successors,
    if p.1 = target then p.2.predecessors ++ [source] else p.2.predecessors⟩)

theorem mem_successors_withEdge {p : Key × Node} :
    k ∈ (withEdge source target p).2.successors ↔
      k ∈ p.2.successors ∨ p.1 = source ∧ k = target := by
  by_cases here : p.1 = source <;> simp [withEdge, here]

theorem mem_predecessors_withEdge {p : Key × Node} :
    k ∈ (withEdge source target p).2.predecessors ↔
      k ∈ p.2.predecessors ∨ p.1 = target ∧ k = source := by
  by_cases here : p.1 = target <;> simp [withEdge, here]

/-- An edge is refused for want of an end, is there already, or is added at both ends. -/
theorem addEdge_cases (g : ImplicationGraph) (source target : Key) :
    (¬(source ∈ g.nodes ∧ target ∈ g.nodes) ∧
      g.addEdge source target = .error (.violation (.missingEndpoint source target))) ∨
    (∃ n m, g.nodes.get? source = some n ∧ g.nodes.get? target = some m ∧
      target ∈ n.successors ∧ g.addEdge source target = .ok g) ∨
    ∃ n m g', g.nodes.get? source = some n ∧ g.nodes.get? target = some m ∧
      target ∉ n.successors ∧ g.addEdge source target = .ok g' ∧
      g'.nodes.entries = g.nodes.entries.map (withEdge source target) := by
  rw [addEdge]
  cases foundSource : g.nodes.get? source with
  | none =>
    have absent : source ∉ g.nodes := OrderedMap.get?_eq_none_iff.mp foundSource
    exact .inl ⟨fun live => absent live.1, rfl⟩
  | some n =>
    cases foundTarget : g.nodes.get? target with
    | none =>
      have absent : target ∉ g.nodes := OrderedMap.get?_eq_none_iff.mp foundTarget
      exact .inl ⟨fun live => absent live.2, rfl⟩
    | some m =>
      by_cases known : target ∈ n.successors
      · exact .inr (.inl ⟨n, m, rfl, rfl, known, if_pos known⟩)
      · refine .inr (.inr ⟨n, m, _, rfl, rfl, known, if_neg known, ?_⟩)
        rw [OrderedMap.entries_adjust, OrderedMap.entries_adjust, List.map_map]
        apply List.map_congr_left
        intro p _
        simp only [withEdge, Function.comp_apply]
        split_ifs <;> rfl

theorem entries_insert_of_get? {m : OrderedMap Key (List Key)} {ks : List Key}
    (found : m.get? k = some ks) (change : List Key → List Key) :
    (m.insert k (change ks)).entries = m.entries.map fun p =>
      (p.1, if p.1 = k then change p.2 else p.2) := by
  have here := OrderedMap.get?_eq_some_iff.mp found
  rw [OrderedMap.entries_insert_of_mem (OrderedMap.mem_keys_of_mem here)]
  apply List.map_congr_left
  rintro ⟨key, ks'⟩ member
  by_cases same : key = k
  · subst same
    rw [OrderedMap.value_unique here member]
  · simp only [if_neg same]

theorem tables_addEdge (g : ImplicationGraph) (source target : Key) :
    g.tables.addEdge source target = some ((g.addEdge source target).map tables) := by
  rcases g.addEdge_cases source target with
    ⟨missing, refused⟩ | ⟨n, m, foundSource, foundTarget, known, kept⟩ |
    ⟨n, m, g', foundSource, foundTarget, new, added, entries⟩
  · have missing' : ¬(source ∈ g.tables.vertices ∧ target ∈ g.tables.vertices) := by
      simpa only [mem_vertices] using missing
    rw [refused, Tables.addEdge, if_neg missing']
    rfl
  · have live : source ∈ g.tables.vertices ∧ target ∈ g.tables.vertices :=
      ⟨mem_vertices.mpr (mem_nodes_of_get? foundSource),
        mem_vertices.mpr (mem_nodes_of_get? foundTarget)⟩
    rw [kept, Tables.addEdge, if_pos live, get?_successors, foundSource, Option.map_some,
      Option.bind_some, if_pos known]
    rfl
  · have live : source ∈ g.tables.vertices ∧ target ∈ g.tables.vertices :=
      ⟨mem_vertices.mpr (mem_nodes_of_get? foundSource),
        mem_vertices.mpr (mem_nodes_of_get? foundTarget)⟩
    have targets : g.tables.successors.get? source = some n.successors := by
      rw [get?_successors, foundSource, Option.map_some]
    have sources : g.tables.predecessors.get? target = some m.predecessors := by
      rw [get?_predecessors, foundTarget, Option.map_some]
    have vertices_eq : g.tables.vertices = g'.tables.vertices := by
      apply OrderedMap.ext
      simp only [tables, OrderedMap.entries_mapEntries, entries, List.map_map]
      rfl
    have successors_eq : g.tables.successors.insert source (n.successors ++ [target]) =
        g'.tables.successors := by
      apply OrderedMap.ext
      rw [entries_insert_of_get? targets (· ++ [target])]
      simp only [tables, OrderedMap.entries_mapEntries, entries, List.map_map]
      rfl
    have predecessors_eq : g.tables.predecessors.insert target (m.predecessors ++ [source]) =
        g'.tables.predecessors := by
      apply OrderedMap.ext
      rw [entries_insert_of_get? sources (· ++ [source])]
      simp only [tables, OrderedMap.entries_mapEntries, entries, List.map_map]
      rfl
    rw [added, Tables.addEdge, if_pos live, targets, Option.bind_some, if_neg new, sources,
      Option.map_some, vertices_eq, successors_eq, predecessors_eq]
    rfl

theorem tables_addEdgesInto (target : Key) (sources : List Key) (g : ImplicationGraph) :
    g.tables.addEdgesInto target sources = some ((g.addEdgesInto target sources).map id tables) := by
  induction sources generalizing g with
  | nil => rfl
  | cons source rest ih =>
    rw [Tables.addEdgesInto, addEdgesInto, tables_addEdge]
    cases g.addEdge source target with
    | ok g' => exact ih g'
    | error f => rfl

theorem tables_addConflict (g : ImplicationGraph) (level : Int) (clause : Option Int)
    (sources : List Key) :
    g.tables.addConflict level clause sources =
      some ((g.addConflict level clause sources).map id tables) := by
  by_cases present : none ∈ g.nodes
  · rw [Tables.addConflict, if_pos (mem_vertices.mpr present), addConflict, if_pos present]
    rfl
  · rw [Tables.addConflict, if_neg (mt mem_vertices.mp present), addConflict, if_neg present,
      ← tables_insert, tables_addEdgesInto]

/-- Where every neighbour lists the key, it comes off each of their lists. -/
theorem unlist_eq_some {ks : List Key} {lists : OrderedMap Key (List Key)} (distinct : ks.Nodup)
    (listed : ∀ k ∈ ks, ∃ l, lists.get? k = some l ∧ key ∈ l) :
    Tables.unlist key ks lists =
      some (lists.mapEntries fun k l => if k ∈ ks then l.erase key else l) := by
  induction ks generalizing lists with
  | nil =>
    have same : lists.mapEntries (fun k l => if k ∈ ([] : List Key) then l.erase key else l) = lists :=
      OrderedMap.ext (by simp [OrderedMap.entries_mapEntries])
    rw [Tables.unlist, same]
  | cons k rest ih =>
    rw [List.nodup_cons] at distinct
    rw [List.forall_mem_cons] at listed
    obtain ⟨⟨l, found, mentioned⟩, listed⟩ := listed
    have onward : ∀ k' ∈ rest, ∃ l', (lists.insert k (l.erase key)).get? k' = some l' ∧ key ∈ l' := by
      intro k' member
      have differs : k' ≠ k := fun same => distinct.1 (same ▸ member)
      rw [OrderedMap.get?_insert_of_ne _ differs]
      exact listed k' member
    rw [Tables.unlist, found]
    simp only [if_pos mentioned]
    rw [ih distinct.2 onward]
    congr 1
    apply OrderedMap.ext
    rw [OrderedMap.entries_mapEntries, OrderedMap.entries_mapEntries,
      entries_insert_of_get? found (List.erase · key), List.map_map]
    apply List.map_congr_left
    intro p _
    by_cases here : p.1 = k
    · simp [here, distinct.1]
    · simp [here]

/-- The pairs that are left once all values were changed and a key was taken out. -/
theorem erase_mapEntries {μ ν : Type} (f : Key → μ → ν) (m : OrderedMap Key μ) (key : Key) :
    ((m.mapEntries f).erase key).entries =
      (m.entries.filter fun p => p.1 ≠ key).map fun p => (p.1, f p.1 p.2) := by
  rw [OrderedMap.entries_erase, OrderedMap.entries_mapEntries, List.filter_map]
  rfl

section RemoveVertex

variable (mirrored : Mirrored g.nodes.entries) (here : (key, n) ∈ g.nodes.entries)
include mirrored here

/-- Each source of a vertex lists it as a successor. -/
theorem unlist_sources :
    Tables.unlist key n.predecessors g.tables.successors =
      some (g.tables.successors.mapEntries fun k l =>
        if k ∈ n.predecessors then l.erase key else l) := by
  apply unlist_eq_some (mirrored.predecessors_nodup _ here)
  intro k source
  obtain ⟨⟨_, m⟩, member, rfl, edge⟩ := mirrored.to_source _ here k source
  exact ⟨m.successors, get?_successors_eq_some.mpr ⟨m, member, rfl⟩, edge⟩

/-- Each target of a vertex lists it as a predecessor. -/
theorem unlist_targets :
    Tables.unlist key (n.successors.filter (· ≠ key)) g.tables.predecessors =
      some (g.tables.predecessors.mapEntries fun k l =>
        if k ∈ n.successors.filter (· ≠ key) then l.erase key else l) := by
  apply unlist_eq_some ((mirrored.successors_nodup _ here).filter _)
  intro k target
  have target := List.mem_of_mem_filter target
  obtain ⟨⟨_, m⟩, member, rfl, edge⟩ := mirrored.to_target _ here k target
  exact ⟨m.predecessors, get?_predecessors_eq_some.mpr ⟨m, member, rfl⟩, edge⟩

/-- A vertex that is its own source has dropped itself from its targets when they are read. -/
theorem targets_after_sources :
    (g.tables.successors.mapEntries fun k l =>
      if k ∈ n.predecessors then l.erase key else l).get? key =
        some (n.successors.filter (· ≠ key)) := by
  rw [OrderedMap.get?_mapEntries, get?_successors_eq_some.mpr ⟨n, here, rfl⟩, Option.map_some]
  exact congrArg some (mirrored.erase_successors here here)

theorem successors_removeVertex :
    (g.tables.successors.mapEntries fun k l =>
      if k ∈ n.predecessors then l.erase key else l).erase key =
        (g.removeVertex key).tables.successors := by
  apply OrderedMap.ext
  rw [erase_mapEntries, tables, tables, OrderedMap.entries_mapEntries, OrderedMap.entries_mapEntries,
    nodes_removeVertex mirrored, induced, List.map_map, List.filter_map, List.map_map]
  apply List.map_congr_left
  intro p member
  exact congrArg (p.1, ·) (mirrored.erase_successors here (List.mem_of_mem_filter member))

theorem predecessors_removeVertex :
    (g.tables.predecessors.mapEntries fun k l =>
      if k ∈ n.successors.filter (· ≠ key) then l.erase key else l).erase key =
        (g.removeVertex key).tables.predecessors := by
  apply OrderedMap.ext
  rw [erase_mapEntries, tables, tables, OrderedMap.entries_mapEntries, OrderedMap.entries_mapEntries,
    nodes_removeVertex mirrored, induced, List.map_map, List.filter_map, List.map_map]
  apply List.map_congr_left
  intro p member
  obtain ⟨member, differs⟩ := List.mem_filter.mp member
  have same : p.1 ∈ n.successors.filter (· ≠ key) ↔ p.1 ∈ n.successors := by
    simpa using fun _ => by simpa using differs
  simp only [Function.comp_apply, same]
  exact congrArg (p.1, ·) (mirrored.erase_predecessors here member)

end RemoveVertex

theorem vertices_removeVertex (mirrored : Mirrored g.nodes.entries) (key : Key) :
    g.tables.vertices.erase key = (g.removeVertex key).tables.vertices := by
  apply OrderedMap.ext
  rw [tables, erase_mapEntries, tables, OrderedMap.entries_mapEntries, nodes_removeVertex mirrored,
    induced, List.map_map]
  rfl

/-- Taking out a vertex finds all that it looks up, and what it drops is where it looks. -/
theorem tables_removeVertex (mirrored : Mirrored g.nodes.entries)
    (found : g.nodes.get? key = some n) :
    g.tables.removeVertex key = some (n.vertex, (g.removeVertex key).tables) := by
  have here := OrderedMap.get?_eq_some_iff.mp found
  have sources : g.tables.predecessors.get? key = some n.predecessors :=
    get?_predecessors_eq_some.mpr ⟨n, here, rfl⟩
  rw [Tables.removeVertex, sources, Option.bind_some, unlist_sources mirrored here, Option.bind_some,
    targets_after_sources mirrored here, Option.bind_some, unlist_targets mirrored here,
    Option.bind_some, get?_vertices, found, Option.map_some, Option.map_some,
    vertices_removeVertex mirrored, successors_removeVertex mirrored here,
    predecessors_removeVertex mirrored here]

theorem get?_removeVertex_of_ne (mirrored : Mirrored g.nodes.entries) (differs : k ≠ key) :
    ((g.removeVertex key).nodes.get? k).map Node.vertex = (g.nodes.get? k).map Node.vertex := by
  ext v
  simp only [Option.map_eq_some_iff, OrderedMap.get?_eq_some_iff, nodes_removeVertex mirrored,
    mem_induced]
  constructor
  · rintro ⟨m, ⟨p, member, _, same⟩, rfl⟩
    cases same
    exact ⟨p.2, member, rfl⟩
  · rintro ⟨m, member, rfl⟩
    exact ⟨_, ⟨(k, m), member, by simpa using differs, rfl⟩, rfl⟩

/-- One vertex after another, each still there when its turn comes. -/
theorem tables_removeVertices {ks : List Key} (mirrored : Mirrored g.nodes.entries)
    (distinct : ks.Nodup) (live : ∀ k ∈ ks, k ∈ g.nodes) :
    Tables.removeVertices ks g.tables =
      some (ks.filterMap fun k => (g.nodes.get? k).map Node.vertex,
        (ks.foldl removeVertex g).tables) := by
  induction ks generalizing g with
  | nil => rfl
  | cons key rest ih =>
    rw [List.nodup_cons] at distinct
    rw [List.forall_mem_cons] at live
    obtain ⟨n, found⟩ := exists_node live.1
    have unchanged : ∀ k ∈ rest, ((g.removeVertex key).nodes.get? k).map Node.vertex =
        (g.nodes.get? k).map Node.vertex := fun k member =>
      get?_removeVertex_of_ne mirrored fun same => distinct.1 (same ▸ member)
    have live' : ∀ k ∈ rest, k ∈ (g.removeVertex key).nodes := by
      intro k member
      obtain ⟨m, found'⟩ := exists_node (live.2 k member)
      have present := unchanged k member
      rw [found', Option.map_some, Option.map_eq_some_iff] at present
      obtain ⟨m', found'', _⟩ := present
      exact mem_nodes_of_get? found''
    have mirrored' := nodes_removeVertex mirrored key ▸ mirrored.induced _
    rw [Tables.removeVertices, tables_removeVertex mirrored found, Option.bind_some]
    simp only [ih mirrored' distinct.2 live', Option.map_some, List.filterMap_congr unchanged,
      List.filterMap_cons, found, List.foldl_cons]

theorem keysAbove_tables (g : ImplicationGraph) (level : Int) :
    g.tables.keysAbove level = g.keysAbove level := by
  rw [Tables.keysAbove, keysAbove, tables, OrderedMap.entries_mapEntries, List.filter_map,
    List.map_map]
  rfl

theorem keysAbove_sublist (g : ImplicationGraph) (level : Int) :
    (g.keysAbove level).Sublist g.nodes.keys :=
  List.filter_sublist.map Prod.fst

/-- A cut never looks up what is not there. -/
theorem tables_removeAbove (mirrored : Mirrored g.nodes.entries) (level : Int) :
    g.tables.removeAbove level =
      some ((g.removeAbove level).1, (g.removeAbove level).2.tables) := by
  have doomed := g.keysAbove_sublist level
  rw [Tables.removeAbove, keysAbove_tables, tables_removeVertices mirrored
    (g.nodes.keys_nodup.sublist doomed) fun k member => doomed.subset member]
  rfl

end Backjump.ImplicationGraph
