import Backjump.Proofs.Graph.Drawing

/-! Taking vertices out of a graph. Where every edge is noted at both ends, taking
out one vertex after another leaves the subgraph on the others, with all orders
kept, and every edge of it is again noted at both ends. A drawn graph without
its later vertices is the graph drawn before they came. -/
namespace Backjump.ImplicationGraph

/-- The subgraph on the keys that are kept. -/
def induced (keep : Key → Bool) (nodes : List (Key × Node)) : List (Key × Node) :=
  (nodes.filter fun p => keep p.1).map fun p =>
    (p.1, ⟨p.2.vertex, p.2.successors.filter keep, p.2.predecessors.filter keep⟩)

/-- Every edge is noted once at each end, and both ends are there. -/
structure Mirrored (nodes : List (Key × Node)) : Prop where
  to_source : ∀ p ∈ nodes, ∀ k ∈ p.2.predecessors, ∃ q ∈ nodes, q.1 = k ∧ p.1 ∈ q.2.successors
  to_target : ∀ p ∈ nodes, ∀ k ∈ p.2.successors, ∃ q ∈ nodes, q.1 = k ∧ p.1 ∈ q.2.predecessors
  successors_nodup : ∀ p ∈ nodes, p.2.successors.Nodup
  predecessors_nodup : ∀ p ∈ nodes, p.2.predecessors.Nodup

variable {nodes : List (Key × Node)} {keep keep' : Key → Bool} {key : Key}

theorem mem_induced {q : Key × Node} : q ∈ induced keep nodes ↔
    ∃ p ∈ nodes, keep p.1 = true ∧
      (p.1, ⟨p.2.vertex, p.2.successors.filter keep, p.2.predecessors.filter keep⟩) = q := by
  simp only [induced, List.mem_map, List.mem_filter, and_assoc]

theorem induced_induced :
    induced keep' (induced keep nodes) = induced (fun k => keep k && keep' k) nodes := by
  simp only [induced, List.filter_map, List.map_map, List.filter_filter]
  have order : (fun p : Key × Node => ((fun p => keep' p.1) ∘ fun p : Key × Node =>
      (p.1, (⟨p.2.vertex, p.2.successors.filter keep, p.2.predecessors.filter keep⟩ : Node))) p &&
        keep p.1) = fun p => keep p.1 && keep' p.1 := by
    funext p
    exact Bool.and_comm ..
  rw [order]
  apply List.map_congr_left
  intro p _
  simp [List.filter_filter, Bool.and_comm]

theorem induced_eq_self (all : ∀ p ∈ nodes, keep p.1 = true)
    (successors : ∀ p ∈ nodes, ∀ k ∈ p.2.successors, keep k = true)
    (predecessors : ∀ p ∈ nodes, ∀ k ∈ p.2.predecessors, keep k = true) :
    induced keep nodes = nodes := by
  rw [induced, List.filter_eq_self.mpr all]
  conv_rhs => rw [← List.map_id nodes]
  apply List.map_congr_left
  intro p member
  rw [List.filter_eq_self.mpr (successors p member), List.filter_eq_self.mpr (predecessors p member)]
  rfl

namespace Mirrored

theorem induced (mirrored : Mirrored nodes) (keep : Key → Bool) : Mirrored (induced keep nodes) where
  to_source := by
    rintro q member k source
    obtain ⟨p, inNodes, kept, rfl⟩ := mem_induced.mp member
    obtain ⟨isSource, keptSource⟩ := List.mem_filter.mp source
    obtain ⟨r, inNodes', rfl, edge⟩ := mirrored.to_source p inNodes k isSource
    exact ⟨_, mem_induced.mpr ⟨r, inNodes', keptSource, rfl⟩, rfl, List.mem_filter.mpr ⟨edge, kept⟩⟩
  to_target := by
    rintro q member k target
    obtain ⟨p, inNodes, kept, rfl⟩ := mem_induced.mp member
    obtain ⟨isTarget, keptTarget⟩ := List.mem_filter.mp target
    obtain ⟨r, inNodes', rfl, edge⟩ := mirrored.to_target p inNodes k isTarget
    exact ⟨_, mem_induced.mpr ⟨r, inNodes', keptTarget, rfl⟩, rfl, List.mem_filter.mpr ⟨edge, kept⟩⟩
  successors_nodup := by
    rintro q member
    obtain ⟨p, inNodes, _, rfl⟩ := mem_induced.mp member
    exact (mirrored.successors_nodup p inNodes).filter _
  predecessors_nodup := by
    rintro q member
    obtain ⟨p, inNodes, _, rfl⟩ := mem_induced.mp member
    exact (mirrored.predecessors_nodup p inNodes).filter _

end Mirrored

/-- The same change at several distinct keys, one after another. -/
theorem entries_foldl_adjust (change : Node → Node) {ks : List Key} (distinct : ks.Nodup)
    (m : OrderedMap Key Node) :
    (ks.foldl (fun m k => m.adjust k change) m).entries =
      m.entries.map fun p => (p.1, if p.1 ∈ ks then change p.2 else p.2) := by
  induction ks generalizing m with
  | nil => simp
  | cons k rest ih =>
    rw [List.nodup_cons] at distinct
    rw [List.foldl_cons, ih distinct.2, OrderedMap.entries_adjust, List.map_map]
    apply List.map_congr_left
    intro p _
    by_cases here : p.1 = k
    · simp [here, distinct.1]
    · simp [here]

theorem filter_ne_eq_self {ks : List Key} (absent : key ∉ ks) : ks.filter (· ≠ key) = ks :=
  List.filter_eq_self.mpr fun k member => by simpa using fun same : k = key => absent (same ▸ member)

theorem erase_eq_filter_ne {ks : List Key} (distinct : ks.Nodup) :
    ks.erase key = ks.filter (· ≠ key) := by
  rw [distinct.erase_eq_filter]
  apply List.filter_congr
  intro k _
  by_cases here : k = key <;> simp [here]

/-- A list that mentions the vertex only where it is linked loses it there and nowhere else. -/
theorem erase_where_linked {ks : List Key} {linked : Prop} [Decidable linked] (distinct : ks.Nodup)
    (only : key ∈ ks → linked) :
    (if linked then ks.erase key else ks) = ks.filter (· ≠ key) := by
  by_cases here : linked
  · rw [if_pos here, erase_eq_filter_ne distinct]
  · rw [if_neg here, filter_ne_eq_self fun member => here (only member)]

theorem induced_ne_eq_self {nodes : List (Key × Node)} (mirrored : Mirrored nodes)
    (absent : ∀ p ∈ nodes, p.1 ≠ key) : induced (· ≠ key) nodes = nodes := by
  apply induced_eq_self
  · intro p member
    simpa using absent p member
  · intro p member k target
    obtain ⟨q, member', rfl, _⟩ := mirrored.to_target p member k target
    simpa using absent q member'
  · intro p member k source
    obtain ⟨q, member', rfl, _⟩ := mirrored.to_source p member k source
    simpa using absent q member'

/-- Only the neighbours of a vertex mention it, so that they alone have to drop it. -/
theorem Mirrored.erase_successors {g : ImplicationGraph} (mirrored : Mirrored g.nodes.entries)
    {n : Node} {p : Key × Node} (here : (key, n) ∈ g.nodes.entries) (member : p ∈ g.nodes.entries) :
    (if p.1 ∈ n.predecessors then p.2.successors.erase key else p.2.successors) =
      p.2.successors.filter (· ≠ key) := by
  apply erase_where_linked (mirrored.successors_nodup p member)
  intro edge
  obtain ⟨q, member', rfl, back⟩ := mirrored.to_target p member key edge
  exact OrderedMap.value_unique here member' ▸ back

theorem Mirrored.erase_predecessors {g : ImplicationGraph} (mirrored : Mirrored g.nodes.entries)
    {n : Node} {p : Key × Node} (here : (key, n) ∈ g.nodes.entries) (member : p ∈ g.nodes.entries) :
    (if p.1 ∈ n.successors then p.2.predecessors.erase key else p.2.predecessors) =
      p.2.predecessors.filter (· ≠ key) := by
  apply erase_where_linked (mirrored.predecessors_nodup p member)
  intro edge
  obtain ⟨q, member', rfl, back⟩ := mirrored.to_source p member key edge
  exact OrderedMap.value_unique here member' ▸ back

/-- Taking out a vertex leaves the subgraph on the others. -/
theorem nodes_removeVertex {g : ImplicationGraph} (mirrored : Mirrored g.nodes.entries) (key : Key) :
    (g.removeVertex key).nodes.entries = induced (· ≠ key) g.nodes.entries := by
  rw [removeVertex]
  cases found : g.nodes.get? key with
  | none =>
    have absent : ∀ p ∈ g.nodes.entries, p.1 ≠ key := fun p member same =>
      OrderedMap.get?_eq_none_iff.mp found (same ▸ List.mem_map_of_mem member)
    exact (induced_ne_eq_self mirrored absent).symm
  | some n =>
    have here := OrderedMap.get?_eq_some_iff.mp found
    have successors_nodup := mirrored.successors_nodup _ here
    have predecessors_nodup := mirrored.predecessors_nodup _ here
    simp only [OrderedMap.entries_erase]
    rw [entries_foldl_adjust _ successors_nodup, entries_foldl_adjust _ predecessors_nodup]
    simp only [List.map_map, List.filter_map, Function.comp_def, induced]
    apply List.map_congr_left
    intro p member
    obtain ⟨member, _⟩ := List.mem_filter.mp member
    rw [← mirrored.erase_successors here member, ← mirrored.erase_predecessors here member]
    by_cases isSource : p.1 ∈ n.predecessors <;> by_cases isTarget : p.1 ∈ n.successors <;>
      simp [isSource, isTarget]

theorem nodes_foldl_removeVertex {g : ImplicationGraph} (mirrored : Mirrored g.nodes.entries)
    (ks : List Key) :
    (ks.foldl removeVertex g).nodes.entries = induced (· ∉ ks) g.nodes.entries := by
  induction ks generalizing g with
  | nil =>
    symm
    exact induced_eq_self (by simp) (by simp) (by simp)
  | cons key rest ih =>
    have first := nodes_removeVertex mirrored key
    rw [List.foldl_cons, ih (first ▸ mirrored.induced _), first, induced_induced]
    congr 1
    funext k
    by_cases here : k = key <;> simp [here]

theorem nodes_removeAbove {g : ImplicationGraph} (mirrored : Mirrored g.nodes.entries) (level : Int) :
    (g.removeAbove level).2.nodes.entries =
      induced (· ∉ g.keysAbove level) g.nodes.entries :=
  nodes_foldl_removeVertex mirrored _

end Backjump.ImplicationGraph

namespace Backjump

open ImplicationGraph

namespace Arrival

variable {as : List Arrival} {keep : Key → Bool}

theorem mirrored_drawn (wired : Wired as) : Mirrored (drawn as) where
  to_source := by
    intro p member k source
    obtain ⟨a, arrived, rfl⟩ := List.mem_map.mp member
    obtain ⟨b, arrived', rfl⟩ := List.mem_map.mp (wired.mem_keys_of_source arrived source)
    exact ⟨_, List.mem_map_of_mem arrived', rfl, mem_targets.mpr ⟨a, arrived, source, rfl⟩⟩
  to_target := by
    intro p member k target
    obtain ⟨a, arrived, rfl⟩ := List.mem_map.mp member
    obtain ⟨b, arrived', source, rfl⟩ := mem_targets.mp target
    exact ⟨_, List.mem_map_of_mem arrived', rfl, source⟩
  successors_nodup := by
    intro p member
    obtain ⟨a, _, rfl⟩ := List.mem_map.mp member
    exact wired.distinct.sublist (List.Sublist.map _ List.filter_sublist)
  predecessors_nodup := by
    intro p member
    obtain ⟨a, arrived, rfl⟩ := List.mem_map.mp member
    exact wired.sources_nodup a arrived

theorem induced_drawn
    (closed : ∀ a ∈ as, keep a.key = true → ∀ k ∈ a.sources, keep k = true) :
    induced keep (drawn as) = drawn (as.filter (keep ·.key)) := by
  rw [induced, drawn, drawn, List.filter_map, List.map_map]
  apply List.map_congr_left
  intro a member
  obtain ⟨arrived, kept⟩ := List.mem_filter.mp member
  have targets : (targets as a.key).filter keep = targets (as.filter (keep ·.key)) a.key := by
    simp only [Arrival.targets, List.filter_map, List.filter_filter]
    congr 2
    funext b
    exact Bool.and_comm ..
  have sources : a.sources.filter keep = a.sources := List.filter_eq_self.mpr (closed a arrived kept)
  simp only [Function.comp_apply, node, targets, sources]

/-- Whether the vertex stays when the graph is cut at a level. -/
def staysAt (level : Int) (a : Arrival) : Bool := a.vertex.level ≤ level && !a.vertex.isConflict

theorem Wired.filter (wired : Wired as)
    (closed : ∀ a ∈ as, keep a.key = true → ∀ k ∈ a.sources, keep k = true) :
    Wired (as.filter (keep ·.key)) := by
  induction as using List.reverseRecOn with
  | nil => exact .nil
  | append_singleton as a ih =>
    have earlier := ih wired.front fun b member => closed b (List.mem_append_left _ member)
    rw [List.filter_append]
    by_cases kept : keep a.key = true
    · have last : [a].filter (keep ·.key) = [a] := by simp [kept]
      rw [last]
      apply earlier.snoc
      · intro member
        exact wired.last_fresh ((List.filter_sublist.map _).subset member)
      · exact wired.sources_nodup a (by simp)
      · intro k source
        obtain ⟨b, arrived, rfl⟩ := List.mem_map.mp (wired.earlier.last k source)
        have keptSource := closed a (by simp) kept _ source
        exact List.mem_map_of_mem (List.mem_filter.mpr ⟨arrived, keptSource⟩)
    · simpa [kept] using earlier

end Arrival

namespace ImplicationGraph.Draws

open Arrival

variable {g : ImplicationGraph} {as : List Arrival} {a : Arrival} {level : Int}

theorem mem_keysAbove (draws : g.Draws as) (member : a ∈ as) :
    a.key ∉ g.keysAbove level ↔ a.staysAt level = true := by
  have above (b : Arrival) : (level < (b.node as).vertex.level || (b.node as).vertex.isConflict) =
      !b.staysAt level := by
    by_cases low : b.vertex.level ≤ level
    · simp [Arrival.node, staysAt, low, Int.not_lt.mpr low]
    · simp [Arrival.node, staysAt, low, Int.not_le.mp low]
  have keys : g.keysAbove level = (as.filter (!staysAt level ·)).map Arrival.key := by
    rw [keysAbove, draws.nodes, drawn, List.filter_map, List.map_map]
    congr 1
    exact List.filter_congr fun b _ => above b
  rw [keys]
  by_cases stays : a.staysAt level = true
  · have absent : a.key ∉ (as.filter (!staysAt level ·)).map Arrival.key := by
      intro listed
      obtain ⟨b, removed, same⟩ := List.mem_map.mp listed
      obtain ⟨arrived, leaves⟩ := List.mem_filter.mp removed
      rw [draws.wired.eq_of_key arrived member same, stays] at leaves
      contradiction
    simpa only [stays, iff_true] using absent
  · have listed : a.key ∈ (as.filter (!staysAt level ·)).map Arrival.key :=
      List.mem_map_of_mem (List.mem_filter.mpr ⟨member, by simpa using stays⟩)
    simpa only [stays, Bool.false_eq_true, iff_false, not_not] using listed

/-- A cut at a level leaves the drawing of the vertices that stay, if their sources do. -/
theorem removeAbove (draws : g.Draws as)
    (closed : ∀ a ∈ as, a.staysAt level = true → ∀ b ∈ as, b.key ∈ a.sources →
      b.staysAt level = true) :
    (g.removeAbove level).2.Draws (as.filter (staysAt level)) := by
  let keep : Key → Bool := (· ∉ g.keysAbove level)
  have keep_eq : ∀ a ∈ as, keep a.key = a.staysAt level := fun a member => by
    simp only [keep, draws.mem_keysAbove member, Bool.decide_eq_true]
  have kept : as.filter (keep ·.key) = as.filter (staysAt level) := List.filter_congr keep_eq
  have sources : ∀ a ∈ as, keep a.key = true → ∀ k ∈ a.sources, keep k = true := by
    intro a member stays k source
    obtain ⟨b, arrived, rfl⟩ := List.mem_map.mp (draws.wired.mem_keys_of_source member source)
    rw [keep_eq a member] at stays
    rw [keep_eq b arrived]
    exact closed a member stays b arrived source
  constructor
  · have mirrored := draws.nodes ▸ mirrored_drawn draws.wired
    rw [nodes_removeAbove mirrored, draws.nodes, ← kept]
    exact induced_drawn sources
  · rw [← kept]
    exact draws.wired.filter sources

end ImplicationGraph.Draws

end Backjump
