import Backjump.Analysis.Points
import Backjump.Proofs.Graph.Drawing
import Backjump.Proofs.Traversal

/-! Paths along the edges of a graph to its conflict. In a drawn graph every edge
leads to a later arrival, so no path is longer than the graph has vertices, and
the enumeration that is allowed so many steps lists exactly the paths. What the
enumerated paths share is what lies on all of them. -/
namespace Backjump

/-- An arrival stands behind its sources. -/
theorem Arrival.Wired.exists_later {before after : List Arrival} {a b : Arrival}
    (wired : Wired (before ++ a :: after)) (member : b ∈ before ++ a :: after)
    (source : a.key ∈ b.sources) : ∃ between rest, after = between ++ b :: rest := by
  have unlisted : a.key ∉ before.map key := by
    have distinct := wired.distinct
    rw [List.map_append, List.map_cons, List.nodup_append] at distinct
    exact fun listed => distinct.2.2 _ listed a.key (by simp) rfl
  rcases List.mem_append.mp member with early | late
  · obtain ⟨front, back, rfl⟩ := List.append_of_mem early
    have live := wired.earlier front b (back ++ a :: after) (by simp) _ source
    exact absurd (by simp [live]) unlisted
  · rcases List.mem_cons.mp late with rfl | late
    · exact absurd (wired.earlier before b after rfl _ source) unlisted
    · exact List.append_of_mem late

namespace ImplicationGraph

open Arrival

/-- A path from a vertex to the conflict, which the list leaves out. -/
inductive Route (g : ImplicationGraph) : Key → List Key → Prop where
  | done : Route g none []
  | step {x : Symbol} {next : Key} {rest : List Key} :
      (some x, next) ∈ g.edges → Route g next rest → Route g (some x) (some x :: rest)

/-- An edge leads from the vertex across the cut at a point: into the conflict, or into another
vertex of the level from which a path avoids the point. -/
def Crosses (g : ImplicationGraph) (level : Int) (point key : Key) : Prop :=
  (key, none) ∈ g.edges ∨ ∃ v ∈ g.vertices, v.level = level ∧ v.key ≠ point ∧
    (key, v.key) ∈ g.edges ∧ ∃ ks, g.Route v.key ks ∧ point ∉ ks

variable {g : ImplicationGraph} {as before after : List Arrival} {a : Arrival} {source target : Key}
  {x : Symbol} {ks : List Key} {ps : List (List Key)} {steps : Nat}

theorem route_none : g.Route none ks ↔ ks = [] := by
  constructor
  · intro route
    cases route
    rfl
  · rintro rfl
    exact .done

theorem route_some : g.Route (some x) ks ↔
    ∃ next, (some x, next) ∈ g.edges ∧ ∃ rest, g.Route next rest ∧ ks = some x :: rest := by
  constructor
  · intro route
    cases route with
    | step edge onward => exact ⟨_, edge, _, onward, rfl⟩
  · rintro ⟨next, edge, rest, onward, rfl⟩
    exact .step edge onward

theorem Route.start_mem (route : g.Route (some x) ks) : some x ∈ ks := by
  cases route
  exact List.mem_cons_self

namespace Draws

theorem vertices_eq (draws : g.Draws as) : g.vertices = as.map Arrival.vertex := by
  rw [vertices, OrderedMap.values, draws.nodes, drawn, List.map_map, List.map_map]
  rfl

theorem mem_edges (draws : g.Draws as) :
    (source, target) ∈ g.edges ↔ ∃ a ∈ as, a.key = target ∧ source ∈ a.sources := by
  simp only [edges, draws.nodes, drawn, List.mem_flatMap, List.mem_map]
  constructor
  · rintro ⟨_, ⟨b, -, rfl⟩, _, next, same⟩
    cases same
    obtain ⟨a, member, source, rfl⟩ := mem_targets.mp next
    exact ⟨a, member, rfl, source⟩
  · rintro ⟨a, member, rfl, source⟩
    obtain ⟨b, live, rfl⟩ := List.mem_map.mp (draws.wired.mem_keys_of_source member source)
    exact ⟨_, ⟨b, live, rfl⟩, a.key, mem_targets.mpr ⟨a, member, source, rfl⟩, rfl⟩

theorem successors_eq_ok (draws : g.Draws as) (member : a ∈ as) :
    g.successors a.key = .ok (targets as a.key) := by
  rw [successors, draws.node_eq_ok member]
  rfl

/-- With a step for each later arrival and one more, the enumeration lists exactly the paths. -/
theorem paths_eq_ok (draws : g.Draws as) (split : as = before ++ a :: after) (vertex : a.key = some x)
    (enough : after.length < steps) :
    ∃ ps, g.paths steps a.key = .ok ps ∧ ∀ ks, ks ∈ ps ↔ g.Route a.key ks := by
  induction steps generalizing a before after x with
  | zero => contradiction
  | succ steps ih =>
    have member : a ∈ as := by simp [split]
    have wired := draws.wired
    rw [split] at wired
    have onward : ∀ next ∈ targets as a.key, ∃ routes,
        (if next.isNone then .ok [[a.key]]
          else (g.paths steps next).map fun routes => routes.map (a.key :: ·)) = .ok routes ∧
        ∀ ks, ks ∈ routes ↔ ∃ rest, g.Route next rest ∧ ks = a.key :: rest := by
      intro next isTarget
      obtain ⟨b, member', source, rfl⟩ := mem_targets.mp isTarget
      cases key : b.key with
      | none => exact ⟨[[a.key]], rfl, fun ks => by simp [route_none]⟩
      | some y =>
        -- The target arrived later, so fewer arrivals are behind it.
        obtain ⟨between, rest, rfl⟩ := wired.exists_later (split ▸ member') source
        have split' : as = (before ++ a :: between) ++ b :: rest := by simp [split]
        have fewer : rest.length < steps := by
          simp only [List.length_append, List.length_cons] at enough
          omega
        obtain ⟨routes, listed, routes_iff⟩ := ih split' key fewer
        rw [key] at listed routes_iff
        refine ⟨routes.map (a.key :: ·), by rw [listed]; rfl, fun ks => ?_⟩
        simp only [List.mem_map, routes_iff, eq_comm]
    obtain ⟨routes, answered, routes_iff⟩ := exists_mapM_eq_ok onward
    refine ⟨((targets as a.key).map routes).flatten, ?_, fun ks => ?_⟩
    · rw [paths, draws.successors_eq_ok member]
      exact congrArg (Except.map List.flatten) answered
    · have next_iff (next : Key) : next ∈ targets as (some x) ↔ (some x, next) ∈ g.edges := by
        rw [mem_targets, draws.mem_edges]
        exact exists_congr fun _ => and_congr_right fun _ => and_comm
      rw [vertex] at routes_iff
      simp only [vertex, route_some, List.mem_flatten, List.mem_map, exists_exists_and_eq_and]
      constructor
      · rintro ⟨next, isTarget, listed⟩
        exact ⟨next, (next_iff next).mp isTarget, (routes_iff next isTarget ks).mp listed⟩
      · rintro ⟨next, edge, onward⟩
        have isTarget := (next_iff next).mpr edge
        exact ⟨next, isTarget, (routes_iff next isTarget ks).mpr onward⟩

end Draws

theorem mem_shared {key : Key} (some_path : ps ≠ []) :
    key ∈ shared ps ↔ ∀ path ∈ ps, key ∈ path := by
  cases ps with
  | nil => contradiction
  | cons first rest => simp [shared, List.mem_eraseDups]

end ImplicationGraph

end Backjump
