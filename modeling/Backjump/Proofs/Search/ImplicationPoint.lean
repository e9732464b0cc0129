import Backjump.Proofs.Analysis.Points
import Backjump.Proofs.Search.Levels
import Mathlib.Data.List.Pairwise

/-! The point of an analysis is the first unique implication point. Every entry of
the current level is reached from its decision by a path through earlier entries.
So a path from the decision avoids the point only if the walk passed the decision,
which it does not, and an entry behind the point is avoided by a path that comes
from the decision and goes on from an earlier entry. -/
namespace Backjump

open ImplicationGraph Analysis

/-- Each path from the entry is the end of a path from the decision through entries before it. -/
def Solver.ComesFrom (s : Solver) (d e : Entry) : Prop :=
  ∀ ks, s.graph.Route (some e.symbol) ks → ∃ front, s.graph.Route (some d.symbol) (front ++ ks) ∧
    ∀ j ∈ front, ∃ e' ∈ s.trail.entries, j = some e'.symbol ∧ e'.index < e.index

variable {setup : Setup} {f : Formula} {p : Problem} {s s₀ : Solver} {clash : Option Clash} {k : Clash}
  {d e earlier point : Entry} {ahead passed : List Entry} {cut : Cut} {ks : List Key}

theorem Analysis.Concludes.opening_not_passed (concludes : Concludes s k point cut ahead passed)
    (coherent : s.Coherent clash) (opened : s.OpenedBy d) : d ∉ passed := by
  intro behind
  have implied := (concludes.of_passed coherent behind).2
  rw [opened.decision] at implied
  contradiction

namespace Searching

/-- The entries of the level come from its decision. -/
theorem comesFrom_opening (searching : Searching setup f s clash) (opened : s.OpenedBy d)
    (positive : 0 < s.level) :
    ∀ e ∈ s.trail.entries, e.level = s.level → s.ComesFrom d e := by
  have built : Built (fun before e => ∃ after, s.trail.entries = before ++ e :: after)
      s.trail.entries := fun before e after split => ⟨after, split⟩
  apply built.forall_mem (R := fun e => e.level = s.level → s.ComesFrom d e)
  rintro before e earlier ⟨after, split⟩ here ks route
  have member : e ∈ s.trail.entries := by simp [split]
  cases decision : e.isDecision with
  | true =>
    obtain rfl := searching.opening_unique opened member decision here
    exact ⟨[], route, by simp⟩
  | false =>
    -- The path is drawn out by an edge from a source of the same level.
    obtain ⟨source, inFront, level, isSource⟩ :=
      searching.exists_source_of_level split decision (here ▸ positive)
    have held : source ∈ s.trail.entries := by simp [split, inFront]
    have edge := (searching.edge_to_entry member).mpr isSource
    obtain ⟨front, whole, low⟩ := earlier source inFront (level.trans here) _ (.step edge route)
    have place := (searching.forwards held member isSource).1
    refine ⟨front ++ [some source.symbol], by simpa using whole, ?_⟩
    rw [List.forall_mem_append, List.forall_mem_singleton]
    refine ⟨fun j listed => ?_, source, held, rfl, place⟩
    obtain ⟨e', held', same, before_source⟩ := low j listed
    exact ⟨e', held', same, by omega⟩

/-- What a path from an entry of the level that stands no later avoids is avoided from the decision. -/
theorem not_dominates (searching : Searching setup f s clash) (opened : s.OpenedBy d)
    (positive : 0 < s.level) (held : earlier ∈ s.trail.entries) (here : earlier.level = s.level)
    (member : e ∈ s.trail.entries) (later : earlier.index ≤ e.index)
    (route : s.graph.Route (some earlier.symbol) ks) (avoids : some e.symbol ∉ ks) :
    ¬s.Dominates d e := by
  intro dominates
  obtain ⟨front, whole, low⟩ := searching.comesFrom_opening opened positive earlier held here ks route
  rcases List.mem_append.mp (dominates _ whole) with inFront | behind
  · obtain ⟨e', member', same, before_earlier⟩ := low _ inFront
    obtain rfl := searching.eq_of_symbol member member' (Option.some.inj same)
    omega
  · exact avoids behind

variable (searching : Searching setup f s (some k)) (concludes : Concludes s k point cut ahead passed)
  (opened : s.OpenedBy d) (positive : 0 < s.level)

include searching concludes opened

theorem dominates_point : s.Dominates d point := by
  intro ks route
  by_contra avoids
  obtain ⟨behind, -⟩ :=
    concludes.passed_of_route searching.toCoherent route avoids d opened.member rfl opened.level
  exact concludes.opening_not_passed searching.toCoherent opened behind

include positive

/-- No entry behind the point dominates the conflict. -/
theorem index_le_of_dominates (member : e ∈ s.trail.entries) (here : e.level = s.level)
    (dominates : s.Dominates d e) : e.index ≤ point.index := by
  by_contra later
  have other : e ≠ point := by
    rintro rfl
    omega
  by_cases met : some e.symbol ∈ cut.seen
  · have behind := concludes.passed_of_met member here met other
    obtain ⟨earlier, held, level, before_e, ks, route, avoids⟩ :=
      concludes.walk.exists_detour searching.toCoherent behind met
    exact searching.not_dominates opened positive held level member (Int.le_of_lt before_e) route avoids
      dominates
  · obtain ⟨ks, route, inside⟩ := concludes.exists_route searching.toCoherent
    refine searching.not_dominates opened positive concludes.member concludes.level member (by omega)
      route ?_ dominates
    intro listed
    rcases inside _ listed with same | seen
    · exact other (searching.eq_of_symbol member concludes.member (Option.some.inj same))
    · exact met seen

/-- The unique implication points by their definition begin with the point of the analysis and end
with the decision. -/
theorem implicationPoints_eq_ok : ∃ es : List Entry,
    s.graph.implicationPoints s.trail s.level = .ok (es.map Entry.vertex) ∧
    (∀ e ∈ es, e.level = s.level) ∧ es.head? = some point ∧ es.getLast? = some d := by
  obtain ⟨ks, onward, -⟩ := concludes.exists_route searching.toCoherent
  obtain ⟨front, route, -⟩ :=
    searching.comesFrom_opening opened positive point concludes.member concludes.level ks onward
  obtain ⟨es, answered, sorted, mem_es⟩ :=
    searching.toCoherent.implicationPoints_eq_ok opened route
  have bounds : ∀ e ∈ es, d.index ≤ e.index ∧ e.index ≤ point.index ∧ e.level = s.level := by
    intro e listed
    obtain ⟨member, dominates⟩ := (mem_es e).mp listed
    obtain ⟨low, here⟩ := searching.toCoherent.of_dominates opened route member dominates
    exact ⟨low, searching.index_le_of_dominates concludes opened positive member here dominates, here⟩
  have isPoint : point ∈ es :=
    (mem_es point).mpr ⟨concludes.member, searching.dominates_point concludes opened⟩
  have isDecision : d ∈ es := (mem_es d).mpr ⟨opened.member, fun ks route => route.start_mem⟩
  have nonempty := List.ne_nil_of_mem isPoint
  refine ⟨es, answered, fun e listed => (bounds e listed).2.2, ?_, ?_⟩
  · have first := sorted.rel_head_of_rel_head_head isPoint (Int.le_refl _)
    have top := (bounds _ (List.head_mem nonempty)).2.1
    have held := ((mem_es _).mp (List.head_mem nonempty)).1
    rw [List.head?_eq_some_head nonempty,
      searching.trail.eq_of_index held concludes.member (by omega)]
  · have last := sorted.rel_getLast_of_rel_getLast_getLast isDecision (Int.le_refl _)
    have bottom := (bounds _ (List.getLast_mem nonempty)).1
    have held := ((mem_es _).mp (List.getLast_mem nonempty)).1
    rw [List.getLast?_eq_some_getLast nonempty,
      searching.trail.eq_of_index held opened.member (by omega)]

theorem firstImplicationPoint_eq_ok :
    s.graph.firstImplicationPoint s.trail s.level = .ok point.vertex := by
  obtain ⟨es, answered, -, first, -⟩ := searching.implicationPoints_eq_ok concludes opened positive
  obtain ⟨rest, rfl⟩ := List.head?_eq_some_iff.mp first
  simp only [firstImplicationPoint, answered, List.map_cons, bind, Except.bind]
  rfl

end Searching

/-- At a conflict above level zero the unique implication points by their definition are of the
current level, the last of them is its decision, and the learned clause begins with the negation of
the first. -/
theorem analysis_finds_first_implication_point (fresh : Solver.Fresh setup p s₀) {n : Nat}
    (ran : s₀.after n = s) (phase : s.phase = .conflict) (positive : 0 < s.level) :
    ∃ points d a v l, s.graph.implicationPoints s.trail s.level = .ok points ∧ points ≠ [] ∧
      (∀ v ∈ points, v.level = s.level) ∧
      s.graph.decisionVertex? s.level = some d ∧ points.getLast? = some d ∧
      analyzeConflict s.graph s.trail s.level = .ok a ∧
      s.graph.firstImplicationPoint s.trail s.level = .ok v ∧ v.literal = some l ∧
      a.clause.literals.head? = some l.negate := by
  obtain ⟨f, -, rfl, reached⟩ := fresh.exists_reached
  obtain ⟨k, a, point, cut, ahead, passed, searching, -, answers⟩ :=
    (ran ▸ reached n).stage.exists_answer phase positive
  have concludes := answers.concludes
  obtain ⟨d, opened⟩ := searching.exists_opening positive
  obtain ⟨es, answered, here, first, last⟩ :=
    searching.implicationPoints_eq_ok concludes opened positive
  refine ⟨es.map Entry.vertex, d.vertex, a, point.vertex, point.literal, answered, ?_, ?_,
    searching.decisionVertex?_eq opened, ?_, answers.answered,
    searching.firstImplicationPoint_eq_ok concludes opened positive, rfl, ?_⟩
  · intro empty
    rw [List.map_eq_nil_iff.mp empty] at first
    contradiction
  · exact List.forall_mem_map.mpr here
  · rw [List.getLast?_map, last]
    rfl
  · rw [answers.literals]
    rfl

theorem analysis_finds_first_implication_point_of_funnel :
    ∃ points v,
      Solver.funnelled.graph.implicationPoints Solver.funnelled.trail Solver.funnelled.level =
        .ok points ∧ points ≠ [] ∧
      Solver.funnelled.graph.firstImplicationPoint Solver.funnelled.trail Solver.funnelled.level =
        .ok v ∧ v.literal = some ⟨.number 3, true⟩ := by
  obtain ⟨points, d, a, v, l, answered, some_point, -, -, -, analysed, first, literal, heads⟩ :=
    analysis_finds_first_implication_point (s := Solver.funnelled)
      (Solver.fresh_ofProblem ⟨.ordered, none, true, false⟩ .funnel) rfl Solver.phase_funnelled
      (by rw [Solver.level_funnelled]; decide)
  refine ⟨points, v, answered, some_point, first, ?_⟩
  have learned : (analyzeConflict Solver.funnelled.graph Solver.funnelled.trail
      Solver.funnelled.level).toOption.map (·.clause.literals.head?) =
        some (some ⟨.number 3, false⟩) := by decide +kernel
  rw [analysed] at learned
  simp only [Except.toOption, Option.map_some, heads, Option.some.injEq] at learned
  rw [literal, ← l.negate_negate, learned]
  rfl

end Backjump
