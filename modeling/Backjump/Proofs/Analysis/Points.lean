import Backjump.Proofs.Analysis.Cut

/-! Unique implication points by their definition. A path from the decision of the
current level stays on the level. The enumeration has steps enough to list all
paths; what they share are the entries that dominate the conflict, and these are
answered by their places on the trail, the last assigned first. -/
namespace Backjump

open ImplicationGraph

/-- The entry is the decision that opened the current level. -/
structure Solver.OpenedBy (s : Solver) (d : Entry) : Prop where
  member : d ∈ s.trail.entries
  decision : d.isDecision = true
  level : d.level = s.level

/-- Every path from the decision to the conflict goes through the entry. -/
def Solver.Dominates (s : Solver) (d e : Entry) : Prop :=
  ∀ ks, s.graph.Route (some d.symbol) ks → some e.symbol ∈ ks

variable {s : Solver} {clash : Option Clash} {k : Clash} {d e : Entry} {ks : List Key}

theorem pairwise_latestFirst (es : List Entry) :
    (es.mergeSort fun e e' => e'.index ≤ e.index).Pairwise fun e e' => e'.index ≤ e.index := by
  refine (List.pairwise_mergeSort ?_ ?_ es).imp of_decide_eq_true
  · intro e e' e'' high high'
    simp only [decide_eq_true_eq] at high high' ⊢
    omega
  · intro e e'
    simp only [Bool.or_eq_true, decide_eq_true_eq]
    omega

namespace Solver

namespace Coherent

theorem exists_opening (coherent : s.Coherent clash) (positive : 0 < s.level) :
    ∃ d, s.OpenedBy d := by
  have level := coherent.level
  obtain ⟨d, member, decision, opens⟩ :=
    coherent.layered.exists_decision (n := decisionCount s.trail.entries) (by omega) (Nat.le_refl _)
  exact ⟨d, member, decision, opens.trans level.symm⟩

theorem opening_unique (coherent : s.Coherent clash) (opened : s.OpenedBy d)
    (member : e ∈ s.trail.entries) (decision : e.isDecision = true) (here : e.level = s.level) :
    e = d :=
  coherent.layered.decision_unique member opened.member decision opened.decision
    (here.trans opened.level.symm)

theorem decisionVertex?_eq (coherent : s.Coherent clash) (opened : s.OpenedBy d) :
    s.graph.decisionVertex? s.level = some d.vertex := by
  have drawn := coherent.mem_vertices.mpr (.inl ⟨d, opened.member, rfl⟩)
  cases found : s.graph.decisionVertex? s.level with
  | none =>
    have other := List.find?_eq_none.mp found d.vertex drawn
    simp [opened.decision, opened.level] at other
  | some v =>
    have opens := List.find?_some found
    rw [Bool.and_eq_true, beq_iff_eq] at opens
    rcases coherent.mem_vertices.mp (List.mem_of_find?_eq_some found) with
      ⟨e, member, rfl⟩ | ⟨k, -, rfl⟩
    · rw [coherent.opening_unique opened member opens.1 opens.2]
    · have undecided := opens.1
      contradiction

theorem placed_eq_ok (coherent : s.Coherent clash) (member : e ∈ s.trail.entries) :
    s.graph.placed s.trail (some e.symbol) = .ok (e.index, e.vertex) := by
  have entry : e.vertex.key.bind s.trail.entryFor? = some e :=
    coherent.trail.entryFor?_of_mem member
  rw [placed, coherent.vertex_eq_ok member]
  simp only [bind, Except.bind, entry]
  rfl

/-- The graph has steps enough to list all paths from an entry. -/
theorem paths_eq_ok (coherent : s.Coherent clash) (member : e ∈ s.trail.entries) :
    ∃ ps, s.graph.paths (s.graph.size + 1) (some e.symbol) = .ok ps ∧
      ∀ ks, ks ∈ ps ↔ s.graph.Route (some e.symbol) ks := by
  obtain ⟨before, after, split⟩ :=
    List.append_of_mem (mem_arrivals.mpr (.inl ⟨e, member, rfl⟩))
  refine coherent.graph.paths_eq_ok split rfl ?_
  have size : s.graph.size = (before ++ e.arrival s.formula :: after).length := by
    rw [← split, ← List.length_map (f := Arrival.key), ← coherent.graph.keys_eq]
    simp [ImplicationGraph.size, OrderedMap.size, OrderedMap.keys]
  rw [size, List.length_append, List.length_cons]
  omega

/-- Paths from the decision stay on the level. -/
theorem exists_entry_of_opening (coherent : s.Coherent clash) (opened : s.OpenedBy d)
    (route : s.graph.Route (some d.symbol) ks) {key : Key} (listed : key ∈ ks) :
    ∃ e ∈ s.trail.entries, e.vertex.key = key ∧ d.index ≤ e.index ∧ e.level = s.level := by
  obtain ⟨e, member, same, later, higher⟩ :=
    coherent.exists_entry_of_route route d opened.member rfl key listed
  have top := coherent.level_le e member
  have here := opened.level
  exact ⟨e, member, same.symm, later, by omega⟩

theorem of_dominates (coherent : s.Coherent clash) (opened : s.OpenedBy d)
    (route : s.graph.Route (some d.symbol) ks) (member : e ∈ s.trail.entries)
    (dominates : s.Dominates d e) : d.index ≤ e.index ∧ e.level = s.level := by
  obtain ⟨e', member', same, later, here⟩ :=
    coherent.exists_entry_of_opening opened route (dominates ks route)
  obtain rfl := coherent.eq_of_symbol member' member (Option.some.inj same)
  exact ⟨later, here⟩

/-- What all listed paths share are the entries that dominate the conflict. -/
theorem exists_shared (coherent : s.Coherent clash) (opened : s.OpenedBy d)
    (route : s.graph.Route (some d.symbol) ks) :
    ∃ ps, ∃ es : List Entry, s.graph.paths (s.graph.size + 1) d.vertex.key = .ok ps ∧
      shared ps = es.map (·.vertex.key) ∧
      ∀ e, e ∈ es ↔ e ∈ s.trail.entries ∧ s.Dominates d e := by
  obtain ⟨ps, listed, routes⟩ := coherent.paths_eq_ok opened.member
  have shared_iff {key : Key} : key ∈ shared ps ↔
      ∀ ks, s.graph.Route (some d.symbol) ks → key ∈ ks := by
    rw [mem_shared (List.ne_nil_of_mem ((routes ks).mpr route))]
    simp only [routes]
  have held : ∀ key ∈ shared ps, ∃ e, e ∈ s.trail.entries ∧ e.vertex.key = key := by
    intro key isShared
    obtain ⟨e, member, same, -⟩ :=
      coherent.exists_entry_of_opening opened route (shared_iff.mp isShared ks route)
    exact ⟨e, member, same⟩
  have : Nonempty Entry := ⟨d⟩
  choose! entryOf member same using held
  refine ⟨ps, (shared ps).map entryOf, listed, ?_, fun e => ?_⟩
  · rw [List.map_map]
    exact ((List.map_congr_left (g := id) same).trans (List.map_id _)).symm
  · rw [List.mem_map]
    constructor
    · rintro ⟨key, isShared, rfl⟩
      refine ⟨member key isShared, ?_⟩
      have dominates := shared_iff.mp isShared
      rwa [← same key isShared] at dominates
    · rintro ⟨inTrail, dominates⟩
      have isShared := shared_iff.mpr dominates
      exact ⟨_, isShared,
        coherent.eq_of_symbol (member _ isShared) inTrail (Option.some.inj (same _ isShared))⟩

/-- The enumeration answers the entries that dominate the conflict, the last assigned first. -/
theorem implicationPoints_eq_ok (coherent : s.Coherent (some k)) (opened : s.OpenedBy d)
    (route : s.graph.Route (some d.symbol) ks) :
    ∃ es : List Entry, s.graph.implicationPoints s.trail s.level = .ok (es.map Entry.vertex) ∧
      es.Pairwise (fun e e' => e'.index ≤ e.index) ∧
      ∀ e, e ∈ es ↔ e ∈ s.trail.entries ∧ s.Dominates d e := by
  obtain ⟨ps, es, listed, shared_eq, mem_es⟩ := coherent.exists_shared opened route
  let rank (e : Entry) : Int × Vertex := (e.index, e.vertex)
  have placed : (shared ps).mapM (s.graph.placed s.trail) = .ok (es.map rank) := by
    apply mapM_eq_ok_of_forall₂
    rw [shared_eq, List.forall₂_map_left_iff, List.forall₂_map_right_iff, List.forall₂_same]
    exact fun e member => coherent.placed_eq_ok ((mem_es e).mp member).1
  refine ⟨es.mergeSort fun e e' => e'.index ≤ e.index, ?_, ?_, fun e => ?_⟩
  · have isSome : s.graph.conflict?.isNone = false := by
      rw [← Option.not_isSome, coherent.isSome_conflict?]
      rfl
    have sorted : (es.map rank).mergeSort (fun a b => b.1 ≤ a.1) =
        (es.mergeSort fun e e' => e'.index ≤ e.index).map rank :=
      (List.map_mergeSort (f := rank) fun _ _ _ _ => rfl).symm
    simp only [implicationPoints, coherent.decisionVertex?_eq opened, isSome, Bool.false_eq_true,
      if_false, listed, placed, sorted, List.map_map, bind, Except.bind, pure, Except.pure]
    rfl
  · exact pairwise_latestFirst es
  · rw [List.mem_mergeSort]
    exact mem_es e

end Coherent

end Solver

end Backjump
