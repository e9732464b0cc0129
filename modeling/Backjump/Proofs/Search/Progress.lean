import Backjump.Proofs.Search.Run
import Mathlib.Order.PiLex

/-! Progress of the search. The profile of a trail counts its entries on each level;
profiles are compared from level zero upwards. Propagation and decisions add entries
to the highest level. Going back takes entries away, but only above the target, and
there the learned clause forces one more before any propagation ends. So each
propagation ends with a higher profile than all propagations before it, and no trail
occurs twice at the end of one. -/
namespace Backjump

/-- The number of entries on a level. -/
def levelCount (es : List Entry) (n : Nat) : Nat := es.countP (·.level == (n : Int))

namespace Solver

/-- The numbers of entries on the levels, compared from level zero upwards. -/
def profile (s : Solver) : Lex (Nat → Nat) := toLex (levelCount s.trail.entries)

/-- The call of `step` after the first `n` ones makes a propagation. -/
structure PropagatesAt (s : Solver) (n : Nat) : Prop where
  phase : (s.after n).phase = .propagate
  affordable : (s.after n).exhausted = false

/-- The profile is at least the given one, and above it once a pending propagation is made: either
it is above it now, or it was before entries above the level went and a clause forces a literal. -/
inductive Ahead (lower : Lex (Nat → Nat)) (s : Solver) : Prop where
  | waiting : s.phase ≠ .propagate → lower ≤ s.profile → Ahead lower s
  | above : s.phase = .propagate → lower < s.profile → Ahead lower s
  | forcing {former : Nat → Nat} {place : Nat} {c : Clause} {l : Literal} : s.phase = .propagate →
      lower ≤ toLex former → (∀ n : Nat, n ≤ s.level → former n = levelCount s.trail.entries n) →
      s.urgent? = some (place, c, some l) → Ahead lower s

end Solver

variable {setup : Setup} {f : Formula} {p : Problem} {s s' s₀ : Solver} {phase : Phase}
  {es new : List Entry} {level : Int} {lower : Lex (Nat → Nat)} {former : Nat → Nat} {i k n : Nat}

theorem levelCount_append (es new : List Entry) (n : Nat) :
    levelCount (es ++ new) n = levelCount es n + levelCount new n :=
  List.countP_append

theorem levelCount_eq_zero : levelCount es n = 0 ↔ ∀ e ∈ es, e.level ≠ n := by
  simp [levelCount, List.countP_eq_zero]

theorem levelCount_pos : 0 < levelCount es n ↔ ∃ e ∈ es, e.level = n := by
  simp [levelCount, List.countP_pos_iff]

/-- Cutting the entries above a level keeps the numbers up to it. -/
theorem levelCount_upTo (low : (n : Int) ≤ level) : levelCount (upTo level es) n = levelCount es n := by
  rw [levelCount, upTo, List.countP_filter]
  apply List.countP_congr
  intro e _
  simp only [Bool.and_eq_true, beq_iff_eq, decide_eq_true_eq]
  exact ⟨And.left, fun same => ⟨same, same ▸ low⟩⟩

/-- Numbers that agree up to a level are lower than those of a list which grew on this level. -/
theorem lt_levelCount_append (nonneg : 0 ≤ level)
    (agrees : ∀ n : Nat, n ≤ level → former n = levelCount es n)
    (added : ∀ e ∈ new, e.level = level) (some : new ≠ []) :
    toLex former < toLex (levelCount (es ++ new)) := by
  obtain ⟨top, rfl⟩ := Int.eq_ofNat_of_zero_le nonneg
  obtain ⟨e, member⟩ := List.exists_mem_of_ne_nil _ some
  refine ⟨top, fun n below => ?_, ?_⟩
  · change former n = levelCount (es ++ new) n
    change n < top at below
    have none : levelCount new n = 0 := levelCount_eq_zero.mpr fun e member => by
      rw [added e member]
      omega
    rw [levelCount_append, none, agrees n (by omega), Nat.add_zero]
  · change former top < levelCount (es ++ new) top
    have more : 0 < levelCount new top := levelCount_pos.mpr ⟨e, member, added e member⟩
    rw [levelCount_append, agrees top (Int.le_refl _)]
    omega

namespace Solver

theorem profile_congr (same : s'.trail = s.trail) : s'.profile = s.profile := by
  rw [profile, same, profile]

/-- Propagation never lowers the profile. -/
theorem Propagates.profile_le (rounds : Propagates s new s') (nonneg : 0 ≤ s.level) :
    s.profile ≤ s'.profile := by
  rw [profile, profile, rounds.entries_eq]
  by_cases none : new = []
  · rw [none, List.append_nil]
  · exact le_of_lt (lt_levelCount_append nonneg (fun _ _ => rfl)
      (fun e member => (rounds.implied e member).1) none)

/-- A pending propagation ends above. -/
theorem Ahead.lt_of_propagates (ahead : s.Ahead lower) (pending : s.phase = .propagate)
    (nonneg : 0 ≤ s.level) (rounds : Propagates s new s')
    (ended : ∀ place c l, s'.urgent? ≠ some (place, c, some l)) : lower < s'.profile := by
  cases ahead with
  | waiting other => exact absurd pending other
  | above _ above => exact lt_of_lt_of_le above (rounds.profile_le nonneg)
  | forcing _ le agrees urgent =>
    refine lt_of_le_of_lt le ?_
    rw [profile, rounds.entries_eq]
    exact lt_levelCount_append nonneg agrees (fun e member => (rounds.implied e member).1)
      (rounds.ne_nil_of_forced urgent ended)

end Solver

namespace Reached

theorem level_nonneg (reached : Reached setup f s) : 0 ≤ s.level := by
  obtain ⟨clash, searching, -⟩ := reached.stage.exists_searching
  exact searching.level_nonneg

/-- A propagation that is made ends when nothing is forced any more, and none is pending then. -/
theorem exists_rounds (reached : Reached setup f s) (pending : s.phase = .propagate)
    (affordable : s.exhausted = false) : s.step.2.phase ≠ .propagate ∧
      ∃ new s₁, Solver.Propagates s new s₁ ∧ s.step.2.trail = s₁.trail ∧
        ∀ place c l, s₁.urgent? ≠ some (place, c, some l) := by
  obtain ⟨next, s', transits, stepped⟩ := reached.exists_transition (by rw [pending]; rfl) affordable
  obtain ⟨new, s₁, rounds, same, -, outcome⟩ := transits.exists_rounds pending
  have trail : (s'.enter next).record.trail = s₁.trail :=
    (Solver.sameTrail_record _).trail.trans same.trail
  rw [stepped, Solver.phase_record]
  rcases outcome with ⟨rfl, calm⟩ | ⟨rfl, place, c, falsified⟩
  · exact ⟨nofun, new, s₁, rounds, trail, by simp [calm]⟩
  · exact ⟨nofun, new, s₁, rounds, trail, by simp [falsified]⟩

/-- A propagation that is made ends above all that it was ahead of. -/
theorem lt_profile (reached : Reached setup f s) (ahead : s.Ahead lower)
    (pending : s.phase = .propagate) (affordable : s.exhausted = false) :
    lower < s.step.2.profile := by
  obtain ⟨-, new, s₁, rounds, trail, unforced⟩ := reached.exists_rounds pending affordable
  rw [Solver.profile_congr trail]
  exact ahead.lt_of_propagates pending reached.level_nonneg rounds unforced

end Reached

namespace Solver

/-- Where no propagation is pending, a transition stays ahead. -/
theorem Ahead.transits (ahead : s.Ahead lower) (reached : Reached setup f s)
    (transits : s.Transits phase s') (settled : s.phase ≠ .propagate) :
    ((s'.enter phase).record).Ahead lower := by
  have le : lower ≤ s.profile := by
    cases ahead with
    | waiting _ le => exact le
    | above pending | forcing pending => exact absurd pending settled
  have same := sameTrail_record (s'.enter phase)
  have profile : (s'.enter phase).record.profile = s'.profile := profile_congr same.trail
  cases transits with
  | settled pending | falsified pending => exact absurd pending settled
  | unfinished | answered | refuted | analysed =>
    refine .waiting (by rw [phase_record]; nofun) ?_
    rw [profile]
    exact le
  | decided _ picked =>
    refine .above (phase_record _) ?_
    rw [profile]
    refine lt_of_le_of_lt le (lt_levelCount_append (Int.le_add_one reached.level_nonneg) ?_
      (fun e member => ?_) (List.cons_ne_nil _ _))
    · exact fun _ _ => rfl
    · obtain rfl := List.mem_singleton.mp member
      rfl
  | @returned a _ trail graph undone _ _ _ _ _ entries urgent =>
    -- The entries above the target go, and the learned clause forces one more on its level.
    refine .forcing (phase_record _) le ?_ (by rw [urgent?, same.trail, same.formula]; exact urgent)
    intro n low
    rw [same.level] at low
    rw [same.trail]
    change (n : Int) ≤ a.target at low
    change levelCount s.trail.entries n = levelCount trail.entries n
    rw [entries, levelCount_upTo low]

theorem Ahead.step (ahead : s.Ahead lower) (reached : Reached setup f s) : s.step.2.Ahead lower := by
  by_cases pending : s.phase = .propagate ∧ s.exhausted = false
  · obtain ⟨settled, -⟩ := reached.exists_rounds pending.1 pending.2
    exact .waiting settled (le_of_lt (reached.lt_profile ahead pending.1 pending.2))
  · have steps := reached.step.1
    generalize s.step = outcome at steps ⊢
    cases steps with
    | halted | spent => exact ahead
    | moved _ affordable transits =>
      exact ahead.transits reached transits fun phase => pending ⟨phase, affordable⟩

theorem Ahead.after (ahead : s.Ahead lower) (reached : Reached setup f s) (n : Nat) :
    (s.after n).Ahead lower :=
  reached.keeps_after (Ahead lower) ahead (fun reached ahead => ahead.step reached) n

end Solver

/-- Of two propagations in a run the later one ends with the higher profile, hence on another trail. -/
theorem propagation_progresses (fresh : Solver.Fresh setup p s₀) (earlier : i < k)
    (first : s₀.PropagatesAt i) (second : s₀.PropagatesAt k) :
    (s₀.after (i + 1)).profile < (s₀.after (k + 1)).profile ∧
      (s₀.after (i + 1)).trail.entries ≠ (s₀.after (k + 1)).trail.entries := by
  obtain ⟨f, -, rfl, reached⟩ := fresh.exists_reached
  obtain ⟨settled, -⟩ := (reached i).exists_rounds first.phase first.affordable
  have ahead : ((Solver.start setup f).after (i + 1)).Ahead _ := .waiting settled (le_refl _)
  obtain ⟨n, rfl⟩ := Nat.exists_eq_add_of_le earlier
  have ahead := ahead.after (reached (i + 1)) n
  rw [← Solver.after_add] at ahead
  have above := (reached _).lt_profile ahead second.phase second.affordable
  refine ⟨above, fun same => ?_⟩
  exact ne_of_lt above (congrArg (fun es => toLex (levelCount es)) same)

/-- In the funnel the second level is given up, and the next propagation makes the first one longer. -/
theorem propagation_progresses_of_funnel :
    ∃ s₀, s₀ = Solver.start ⟨.ordered, none, true, false⟩ (.ofProblem .funnel) ∧
      s₀.PropagatesAt 6 ∧ s₀.PropagatesAt 9 ∧
      (List.range 3).map (levelCount (s₀.after 7).trail.entries) = [0, 1, 4] ∧
      (List.range 3).map (levelCount (s₀.after 10).trail.entries) = [0, 3, 0] ∧
      (s₀.after 7).profile < (s₀.after 10).profile ∧
      (s₀.after 7).trail.entries ≠ (s₀.after 10).trail.entries := by
  have fresh := Solver.fresh_ofProblem ⟨.ordered, none, true, false⟩ .funnel
  have first : (Solver.start ⟨.ordered, none, true, false⟩ (.ofProblem .funnel)).PropagatesAt 6 :=
    ⟨by decide +kernel, by decide +kernel⟩
  have second : (Solver.start ⟨.ordered, none, true, false⟩ (.ofProblem .funnel)).PropagatesAt 9 :=
    ⟨by decide +kernel, by decide +kernel⟩
  exact ⟨_, rfl, first, second, by decide +kernel, by decide +kernel,
    propagation_progresses fresh (by decide) first second⟩

end Backjump
