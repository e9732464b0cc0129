import Backjump.Proofs.Analysis.Walk
import Backjump.Proofs.Graph.Route

/-! The cut of an analysis, read off the graph. Every entry that a walk met leads
to the conflict by a path through entries that were met and passed. When the
walk has come to its point, these are all entries of the level from which a path
avoids the point: so the learned literals stand for the sources of that side of
the graph, and each path from an entry before the point leads through it. An
entry that was replaced is avoided by a path from an earlier one, which was
still pending at the time. -/
namespace Backjump

open ImplicationGraph

variable {s : Solver} {clash : Option Clash} {k : Clash} {ahead passed : List Entry}
  {e e' point : Entry} {cut : Analysis.Cut} {key : Key} {ks : List Key} {x : Symbol}

namespace Solver.Coherent

theorem mem_vertices (coherent : s.Coherent clash) {v : Vertex} : v ∈ s.graph.vertices ↔
    (∃ e ∈ s.trail.entries, e.vertex = v) ∨ ∃ k, clash = some k ∧ k.arrival.vertex = v := by
  rw [coherent.graph.vertices_eq, List.mem_map]
  constructor
  · rintro ⟨a, arrived, rfl⟩
    rcases mem_arrivals.mp arrived with ⟨e, member, rfl⟩ | ⟨k, found, rfl⟩
    · exact .inl ⟨e, member, rfl⟩
    · exact .inr ⟨k, found, rfl⟩
  · rintro (⟨e, member, rfl⟩ | ⟨k, found, rfl⟩)
    · exact ⟨_, mem_arrivals.mpr (.inl ⟨e, member, rfl⟩), rfl⟩
    · exact ⟨_, mem_arrivals.mpr (.inr ⟨k, found, rfl⟩), rfl⟩

theorem exists_entry_of_edge (coherent : s.Coherent clash) (edge : (key, some x) ∈ s.graph.edges) :
    ∃ e ∈ s.trail.entries, e.symbol = x ∧ key ∈ e.sources s.formula := by
  obtain ⟨a, arrived, isKey, source⟩ := coherent.graph.mem_edges.mp edge
  rcases mem_arrivals.mp arrived with ⟨e, member, rfl⟩ | ⟨k, -, rfl⟩
  · exact ⟨e, member, Option.some.inj isKey, source⟩
  · contradiction

theorem edge_to_entry (coherent : s.Coherent clash) (member : e ∈ s.trail.entries) :
    (key, some e.symbol) ∈ s.graph.edges ↔ key ∈ e.sources s.formula := by
  constructor
  · intro edge
    obtain ⟨e', member', same, source⟩ := coherent.exists_entry_of_edge edge
    rwa [coherent.eq_of_symbol member' member same] at source
  · intro source
    exact coherent.graph.mem_edges.mpr ⟨_, mem_arrivals.mpr (.inl ⟨e, member, rfl⟩), rfl, source⟩

theorem edge_to_conflict (coherent : s.Coherent (some k)) :
    (key, none) ∈ s.graph.edges ↔ key ∈ k.clause.symbols.map some := by
  constructor
  · intro edge
    obtain ⟨a, arrived, isKey, source⟩ := coherent.graph.mem_edges.mp edge
    rcases mem_arrivals.mp arrived with ⟨e, -, rfl⟩ | ⟨_, same, rfl⟩
    · contradiction
    · cases same
      exact source
  · intro source
    exact coherent.graph.mem_edges.mpr ⟨_, mem_arrivals.mpr (.inr ⟨k, rfl, rfl⟩), rfl, source⟩

/-- Edges lead forwards on the trail and never to a lower level. -/
theorem forwards (coherent : s.Coherent clash) (member : e ∈ s.trail.entries)
    (member' : e' ∈ s.trail.entries) (source : some e.symbol ∈ e'.sources s.formula) :
    e.index < e'.index ∧ e.level ≤ e'.level := by
  obtain ⟨before, after, split, justified⟩ := coherent.justified.exists_split member'
  obtain ⟨e'', earlier, same⟩ := justified.exists_entry_of_source source
  have held : e'' ∈ s.trail.entries := by simp [split, earlier]
  obtain rfl := coherent.eq_of_symbol member held (Option.some.inj same)
  have sorted := coherent.layered.sorted
  rw [split, List.pairwise_append] at sorted
  exact ⟨coherent.trail.index_lt split earlier (by simp), sorted.2.2 e earlier e' (by simp)⟩

/-- A path from an entry leads through entries that stand no earlier and no lower. -/
theorem exists_entry_of_route (coherent : s.Coherent clash) (route : s.graph.Route key ks) :
    ∀ e ∈ s.trail.entries, key = some e.symbol → ∀ j ∈ ks,
      ∃ e' ∈ s.trail.entries, j = some e'.symbol ∧ e.index ≤ e'.index ∧ e.level ≤ e'.level := by
  induction route with
  | done => simp
  | @step x next rest edge onward ih =>
    intro e member same j listed
    rw [same] at edge listed
    rcases List.mem_cons.mp listed with rfl | listed
    · exact ⟨e, member, rfl, Int.le_refl _, Int.le_refl _⟩
    · cases next with
      | none => simp [route_none.mp onward] at listed
      | some y =>
        obtain ⟨e₁, member₁, rfl, source⟩ := coherent.exists_entry_of_edge edge
        obtain ⟨later, higher⟩ := coherent.forwards member member₁ source
        obtain ⟨e', member', isKey, later', higher'⟩ := ih e₁ member₁ rfl j listed
        exact ⟨e', member', isKey, by omega, by omega⟩

end Solver.Coherent

namespace Analysis

namespace Walk

/-- What was met leads to the conflict through entries that were met and passed. -/
theorem exists_route (walk : Walk s k cut ahead passed) (coherent : s.Coherent (some k))
    (met : some x ∈ cut.seen) : ∃ ks, s.graph.Route (some x) (some x :: ks) ∧
      ∀ j ∈ ks, j ∈ cut.seen ∧ ∃ e ∈ passed, j = some e.symbol := by
  induction walk generalizing x with
  | start seen =>
    have edge := coherent.edge_to_conflict.mpr ((seen _).mp met)
    exact ⟨[], .step edge .done, by simp⟩
  | skip _ _ ih =>
    obtain ⟨ks, route, inside⟩ := ih met
    refine ⟨ks, route, fun j listed => ?_⟩
    obtain ⟨met', e, behind, same⟩ := inside j listed
    exact ⟨met', e, List.mem_cons_of_mem _ behind, same⟩
  | @replace cut cut' e ahead passed walk metNow _ _ seen _ ih =>
    have onward {y : Symbol} (met : some y ∈ cut.seen) : ∃ ks,
        s.graph.Route (some y) (some y :: ks) ∧
        ∀ j ∈ ks, j ∈ cut'.seen ∧ ∃ e' ∈ e :: passed, j = some e'.symbol := by
      obtain ⟨ks, route, inside⟩ := ih met
      refine ⟨ks, route, fun j listed => ?_⟩
      obtain ⟨met', e', behind, same⟩ := inside j listed
      exact ⟨(seen j).mpr (.inl met'), e', List.mem_cons_of_mem _ behind, same⟩
    rcases (seen _).mp met with old | source
    · exact onward old
    · -- The path goes on from the entry that was replaced.
      have member : e ∈ s.trail.entries := by simp [walk.split]
      obtain ⟨ks, route, inside⟩ := onward metNow
      refine ⟨some e.symbol :: ks, .step ((coherent.edge_to_entry member).mpr source) route, ?_⟩
      rw [List.forall_mem_cons]
      exact ⟨⟨(seen _).mpr (.inl metNow), e, List.mem_cons_self, rfl⟩, inside⟩

/-- What was met beside the next entry leads to the conflict around it. -/
theorem exists_route_around (walk : Walk s k cut (e :: ahead) passed) (coherent : s.Coherent (some k))
    (met : some x ∈ cut.seen) (other : x ≠ e.symbol) :
    ∃ ks, s.graph.Route (some x) ks ∧ some e.symbol ∉ ks := by
  obtain ⟨ks, route, inside⟩ := walk.exists_route coherent met
  refine ⟨_, route, ?_⟩
  rw [List.mem_cons]
  rintro (same | listed)
  · exact other (Option.some.inj same).symm
  · obtain ⟨-, e', behind, same⟩ := inside _ listed
    exact coherent.trail.symbol_ne (e := e) walk.split (by simp) behind (Option.some.inj same)

/-- An entry that was replaced is avoided by a path from an earlier entry of the level. -/
theorem exists_detour (walk : Walk s k cut ahead passed) (coherent : s.Coherent (some k))
    (behind : e ∈ passed) (met : some e.symbol ∈ cut.seen) :
    ∃ other ∈ s.trail.entries, other.level = s.level ∧ other.index < e.index ∧
      ∃ ks, s.graph.Route (some other.symbol) ks ∧ some e.symbol ∉ ks := by
  induction walk with
  | start => contradiction
  | skip walk unmet ih =>
    rcases List.mem_cons.mp behind with rfl | behind
    · contradiction
    · exact ih behind met
  | @replace cut cut' last ahead passed walk metNow here waiting seen _ ih =>
    rcases List.mem_cons.mp behind with rfl | behind
    · -- Beside the entry that is replaced another one of the level is pending.
      have pending : cut.pending - 1 = waitingIn s.level cut.seen ahead :=
        (walk.tracks.pass metNow here).pending
      rw [pending] at waiting
      obtain ⟨other, isAhead, isOther⟩ := List.countP_pos_iff.mp (Nat.pos_of_ne_zero waiting)
      obtain ⟨level, metOther⟩ := of_decide_eq_true isOther
      have split : s.trail.entries = ahead.reverse ++ e :: passed := by simp [walk.split]
      have earlier := List.mem_reverse.mpr isAhead
      exact ⟨other, by simp [split, isAhead], level,
        coherent.trail.index_lt split earlier List.mem_cons_self,
        walk.exists_route_around coherent metOther
          (coherent.trail.symbol_ne split earlier List.mem_cons_self)⟩
    · have metThen : some e.symbol ∈ cut.seen :=
        ((seen _).mp met).resolve_right (walk.passed_not_source coherent behind)
      exact ih behind metThen

end Walk

namespace Concludes

/-- From the point a path leads through entries that were met and passed. -/
theorem exists_route (concludes : Concludes s k point cut ahead passed)
    (coherent : s.Coherent (some k)) : ∃ ks, s.graph.Route (some point.symbol) ks ∧
      ∀ j ∈ ks, j = some point.symbol ∨ j ∈ cut.seen := by
  obtain ⟨ks, route, inside⟩ := concludes.walk.exists_route coherent concludes.met
  refine ⟨_, route, ?_⟩
  rw [List.forall_mem_cons]
  exact ⟨.inl rfl, fun j listed => .inr (inside j listed).1⟩

/-- An entry of the level from which a path avoids the point was met and passed. -/
theorem passed_of_route (concludes : Concludes s k point cut ahead passed)
    (coherent : s.Coherent (some k)) (route : s.graph.Route key ks) (avoids : some point.symbol ∉ ks) :
    ∀ e ∈ s.trail.entries, key = some e.symbol → e.level = s.level →
      e ∈ passed ∧ some e.symbol ∈ cut.seen := by
  induction route with
  | done => simp
  | @step x next rest edge onward ih =>
    intro e member same here
    rw [List.mem_cons, not_or] at avoids
    have met : some e.symbol ∈ cut.seen := by
      rw [concludes.walk.mem_seen coherent]
      rw [same] at edge
      cases next with
      | none => exact .inl (coherent.edge_to_conflict.mp edge)
      | some y =>
        obtain ⟨e', member', rfl, source⟩ := coherent.exists_entry_of_edge edge
        have higher := (coherent.forwards member member' source).2
        have top := coherent.level_le e' member'
        obtain ⟨behind, met'⟩ := ih avoids.2 e' member' rfl (by omega)
        exact .inr ⟨e', behind, met', source⟩
    have other : e ≠ point := fun isPoint => avoids.1 (isPoint ▸ same.symm)
    exact ⟨concludes.passed_of_met member here met other, met⟩

/-- Met and passed are the entries of the level from which a path avoids the point. -/
theorem passed_iff_route (concludes : Concludes s k point cut ahead passed)
    (coherent : s.Coherent (some k)) : e ∈ passed ∧ some e.symbol ∈ cut.seen ↔
      e ∈ s.trail.entries ∧ e.level = s.level ∧ e.symbol ≠ point.symbol ∧
        ∃ ks, s.graph.Route (some e.symbol) ks ∧ some point.symbol ∉ ks := by
  constructor
  · rintro ⟨behind, met⟩
    have other : e.symbol ≠ point.symbol :=
      (coherent.trail.symbol_ne (e := point) concludes.walk.split (by simp) behind).symm
    exact ⟨by simp [concludes.walk.split, behind], (concludes.of_passed coherent behind).1, other,
      concludes.walk.exists_route_around coherent met other⟩
  · rintro ⟨member, here, -, ks, route, avoids⟩
    exact concludes.passed_of_route coherent route avoids e member rfl here

/-- What was met has an edge across the cut at the point. -/
theorem met_iff_crosses (concludes : Concludes s k point cut ahead passed)
    (coherent : s.Coherent (some k)) :
    key ∈ cut.seen ↔ s.graph.Crosses s.level point.vertex.key key := by
  rw [concludes.walk.mem_seen coherent]
  constructor
  · rintro (named | ⟨e, behind, met, source⟩)
    · exact .inl (coherent.edge_to_conflict.mpr named)
    · obtain ⟨member, here, other, route⟩ := (concludes.passed_iff_route coherent).mp ⟨behind, met⟩
      exact .inr ⟨e.vertex, coherent.mem_vertices.mpr (.inl ⟨e, member, rfl⟩), here,
        fun same => other (Option.some.inj same), (coherent.edge_to_entry member).mpr source, route⟩
  · rintro (edge | ⟨v, drawn, here, other, edge, ks, route, avoids⟩)
    · exact .inl (coherent.edge_to_conflict.mp edge)
    · rcases coherent.mem_vertices.mp drawn with ⟨e, member, rfl⟩ | ⟨k, -, rfl⟩
      · obtain ⟨behind, met⟩ := (concludes.passed_iff_route coherent).mpr
          ⟨member, here, fun same => other (congrArg some same), ks, route, avoids⟩
        exact .inr ⟨e, behind, met, (coherent.edge_to_entry member).mp edge⟩
      · exact .inl (coherent.edge_to_conflict.mp edge)

/-- Learned are the negations of the lower vertices with an edge across the cut. -/
theorem learned_iff_crosses (concludes : Concludes s k point cut ahead passed)
    (coherent : s.Coherent (some k)) {l : Literal} : l ∈ cut.learned ↔
      ∃ v ∈ s.graph.vertices, v.literal = some l.negate ∧ v.level < s.level ∧
        s.graph.Crosses s.level point.vertex.key v.key := by
  rw [concludes.walk.tracks.learned]
  constructor
  · rintro ⟨e, member, low, met, rfl⟩
    exact ⟨e.vertex, coherent.mem_vertices.mpr (.inl ⟨e, member, rfl⟩),
      congrArg some e.literal.negate_negate.symm, low, (concludes.met_iff_crosses coherent).mp met⟩
  · rintro ⟨v, drawn, literal, low, crosses⟩
    rcases coherent.mem_vertices.mp drawn with ⟨e, member, rfl⟩ | ⟨k, -, rfl⟩
    · have against : e.literal = l.negate := Option.some.inj literal
      exact ⟨e, member, low, (concludes.met_iff_crosses coherent).mpr crosses,
        by rw [against, l.negate_negate]⟩
    · contradiction

end Concludes

end Analysis

end Backjump
