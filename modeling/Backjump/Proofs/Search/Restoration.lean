import Backjump.Proofs.Search.Levels
import Backjump.Proofs.Solver.Picture

/-! Going back restores the past. A search that is above a level has once decided
there and has stayed above it since. Whatever it did in the meantime, other ways
back included, it has kept the entries up to that level as they were then and has
only added clauses to the formula. So a way back to the level leads to the trail
of that moment, and to its graph, which the trail and the old clauses fix. -/
namespace Backjump

namespace Solver

/-- Up to a level the later state has the entries of the earlier one, and its formula only grew. -/
structure Retains (s' s : Solver) (target : Int) : Prop where
  entries : upTo target s'.trail.entries = upTo target s.trail.entries
  formula : s.formula.clauses <+: s'.formula.clauses

/-- After `k` steps the search was about to decide at the target level, and it has been above it
since, until after `n` steps. -/
structure LeftAt (s₀ : Solver) (target : Int) (k n : Nat) : Prop where
  earlier : k < n
  phase : (s₀.after k).phase = .decide
  level : (s₀.after k).level = target
  above : ∀ j, k < j → j ≤ n → target < (s₀.after j).level
  retains : (s₀.after n).Retains (s₀.after k) target

/-- The same level, trail and graph without a conflict. -/
structure Restores (s' s : Solver) : Prop where
  level : s'.level = s.level
  trail : s'.trail.Same s.trail
  graph : s'.graph = s.graph
  free : s'.graph.conflict? = none

end Solver

variable {setup : Setup} {f : Formula} {p : Problem} {s s' s₀ : Solver} {clash : Option Clash}
  {phase : Phase} {target : Int} {new : List Entry} {k n : Nat}

namespace Solver

namespace Retains

theorem refl (s : Solver) (target : Int) : s.Retains s target := ⟨rfl, List.prefix_refl _⟩

theorem trans {s'' : Solver} (later : s''.Retains s' target) (earlier : s'.Retains s target) :
    s''.Retains s target where
  entries := later.entries.trans earlier.entries
  formula := earlier.formula.trans later.formula

theorem congr {s'' : Solver} (retains : s'.Retains s target) (same : s''.SameTrail s') :
    s''.Retains s target where
  entries := by rw [same.trail, retains.entries]
  formula := by rw [same.formula]; exact retains.formula

end Retains

theorem Propagates.retains (rounds : Propagates s new s') (below : target < s.level) :
    s'.Retains s target where
  entries := by
    rw [rounds.entries_eq, upTo_append_of_above]
    intro e member
    rw [(rounds.implied e member).1]
    exact below
  formula := rounds.formula_eq ▸ List.prefix_refl _

/-- One more step above the level. -/
theorem LeftAt.succ (left : s₀.LeftAt target k n)
    (retains : (s₀.after (n + 1)).Retains (s₀.after n) target)
    (below : target < (s₀.after (n + 1)).level) : s₀.LeftAt target k (n + 1) where
  earlier := Nat.lt_succ_of_lt left.earlier
  phase := left.phase
  level := left.level
  above := by
    intro j later upto
    rcases Nat.le_succ_iff.mp upto with before | rfl
    · exact left.above j later before
    · exact below
  retains := retains.trans left.retains

end Solver

/-- A transition keeps what lies below the level it leads to, and that level is higher than before
only after a decision. -/
theorem Searching.retains (searching : Searching setup f s clash) (transits : s.Transits phase s')
    (below : target < s'.level) :
    s'.Retains s target ∧ (target < s.level ∨ s.phase = .decide ∧ target = s.level) := by
  cases transits with
  | settled _ rounds =>
    rw [rounds.level_eq] at below
    exact ⟨rounds.retains below, .inl below⟩
  | falsified _ rounds =>
    have lower : target < s.level := by
      rw [← rounds.level_eq]
      exact below
    exact ⟨(rounds.retains lower).congr ⟨rfl, rfl, rfl, rfl, rfl⟩, .inl lower⟩
  | unfinished => exact ⟨.refl s target, .inl below⟩
  | answered => exact ⟨⟨rfl, List.prefix_refl _⟩, .inl below⟩
  | refuted => exact ⟨⟨rfl, List.prefix_refl _⟩, .inl below⟩
  | analysed => exact ⟨⟨rfl, List.prefix_refl _⟩, .inl below⟩
  | @returned a rest trail graph undone _ positive _ explains _ entries =>
    change target < a.target at below
    have lower := explains.target_lt searching.trail.distinct positive
    refine ⟨⟨?_, ?_⟩, .inl (Int.lt_trans below lower)⟩
    · change upTo target trail.entries = _
      rw [entries, upTo_upTo (Int.le_of_lt below)]
    · rw [Searching.clauses_returned explains]
      exact List.prefix_append ..
  | @decided l graph isPhase =>
    change target < s.level + 1 at below
    refine ⟨⟨?_, List.prefix_refl _⟩, ?_⟩
    · change upTo target (s.trail.entries ++ [s.trail.nextEntry l (s.level + 1) none]) = _
      exact upTo_append_of_above (by simpa [Trail.nextEntry] using below)
    · rcases Int.lt_or_eq_of_le (Int.lt_add_one_iff.mp below) with lower | same
      · exact .inl lower
      · exact .inr ⟨isPhase, same⟩

namespace Reached

theorem step_retains (reached : Reached setup f s) (below : target < s.step.2.level) :
    s.step.2.Retains s target ∧ (target < s.level ∨ s.phase = .decide ∧ target = s.level) := by
  obtain ⟨clash, searching, -⟩ := reached.stage.exists_searching
  have steps := reached.step.1
  generalize s.step = outcome at steps below ⊢
  cases steps with
  | halted => exact ⟨.refl s target, .inl below⟩
  | spent => exact ⟨.refl s target, .inl below⟩
  | @moved phase s' _ _ transits =>
    have same := Solver.sameTrail_record (s'.enter phase)
    rw [same.level] at below
    obtain ⟨retains, left⟩ := searching.retains transits below
    have entered : (s'.enter phase).Retains s target := retains.congr ⟨rfl, rfl, rfl, rfl, rfl⟩
    exact ⟨entered.congr same, left⟩

/-- A search above a level has once left it by a decision. -/
theorem exists_leftAt (setup : Setup) (f : Formula) (nonneg : 0 ≤ target)
    (below : target < ((Solver.start setup f).after n).level) :
    ∃ k, (Solver.start setup f).LeftAt target k n := by
  induction n with
  | zero =>
    have ground : (Solver.start setup f).level = 0 := (Solver.sameTrail_record _).level
    exact absurd below (Int.not_lt.mpr (ground.symm ▸ nonneg))
  | succ n ih =>
    obtain ⟨retains, lower | ⟨phase, level⟩⟩ := ((Reached.start setup f).after n).step_retains below
    · obtain ⟨k, left⟩ := ih lower
      exact ⟨k, left.succ retains below⟩
    · refine ⟨n, Nat.lt_succ_self n, phase, level.symm, fun j later upto => ?_, retains⟩
      obtain rfl : j = n + 1 := Nat.le_antisymm upto later
      exact below

end Reached

/-- Landing on a level that was left is to be again where it was left. -/
theorem Solver.LeftAt.restores {a : Analysis} (left : s₀.LeftAt a.target k n)
    (lands : (s₀.after n).Lands a (s₀.after (n + 1))) (past : Searching setup f (s₀.after k) none)
    (present : Searching setup f (s₀.after (n + 1)) none) :
    (s₀.after (n + 1)).Restores (s₀.after k) := by
  have kept : ∀ e ∈ (s₀.after k).trail.entries, e.level ≤ a.target := left.level ▸ past.level_le
  have entries : (s₀.after (n + 1)).trail.entries = (s₀.after k).trail.entries :=
    calc (s₀.after (n + 1)).trail.entries
        = upTo a.target (s₀.after n).trail.entries := lands.entries
      _ = upTo a.target (s₀.after k).trail.entries := left.retains.entries
      _ = (s₀.after k).trail.entries := upTo_eq_self kept
  have extended : (s₀.after k).formula.clauses <+: (s₀.after (n + 1)).formula.clauses := by
    rw [lands.clauses]
    exact left.retains.formula.trans (List.prefix_append ..)
  exact
    { level := lands.level.trans left.level.symm
      trail := past.trail.same present.trail (present.scope_eq.trans past.scope_eq.symm) entries
      graph := past.toCoherent.graph_eq_of_prefix present.toCoherent extended entries
      free := by rw [present.conflict?_eq]; rfl }

/-- Going back answers, and restores the latest earlier state that was about to decide at the level
where it lands. -/
theorem backjump_restores_past (fresh : Solver.Fresh setup p s₀)
    (phase : (s₀.after n).phase = .backtrack) (affordable : (s₀.after n).exhausted = false) :
    (s₀.after n).step.1 = .ok .propagate ∧ ∃ k < n, (s₀.after k).phase = .decide ∧
      (∀ j, k < j → j ≤ n → (s₀.after j).phase = .decide →
        (s₀.after j).level ≠ (s₀.after (n + 1)).level) ∧
      (s₀.after (n + 1)).Restores (s₀.after k) := by
  obtain ⟨f, -, rfl, reached⟩ := fresh.exists_reached
  obtain ⟨answer, a, lands⟩ := (reached n).exists_landing phase affordable
  obtain ⟨clash, searching, -⟩ := (reached n).stage.exists_searching
  obtain ⟨rest, explains⟩ := lands.explains
  have nonneg := explains.target_nonneg searching.layered.level_nonneg
  have below := explains.target_lt searching.trail.distinct lands.positive
  obtain ⟨k, left⟩ := Reached.exists_leftAt setup f nonneg below
  have past := (reached k).stage.searching_of_free (by rw [left.phase]; rfl)
  have present := (reached (n + 1)).stage.searching_of_free (by rw [Solver.after, lands.phase]; rfl)
  refine ⟨answer, k, left.earlier, left.phase, fun j later upto _ => ?_,
    left.restores lands past present⟩
  rw [Solver.after, lands.level]
  exact Int.ne_of_gt (left.above j later upto)

/-- Decided in order, 1 and 3 lead into the conflict, and 2 has no part in it. -/
def Problem.detour : Problem := ofInts [[1, 2, 3], [-1, -3, 4], [-1, -3, -4]]

theorem backjump_restores_past_of_detour :
    ∃ s₀, s₀ = Solver.start ⟨.ordered, none, true, false⟩ (.ofProblem .detour) ∧
      (s₀.after 11).level = 3 ∧ (s₀.after 12).level = 1 ∧ (s₀.after 5).phase = .decide ∧
      (s₀.after 12).Restores (s₀.after 5) := by
  have fresh := Solver.fresh_ofProblem ⟨.ordered, none, true, false⟩ .detour
  obtain ⟨-, k, few, decides, -, restores⟩ :=
    backjump_restores_past fresh (n := 11) (by decide +kernel) (by decide +kernel)
  have landed :
      ((Solver.start ⟨.ordered, none, true, false⟩ (.ofProblem .detour)).after 12).level = 1 := by
    decide +kernel
  have only : ∀ j < 11,
      ((Solver.start ⟨.ordered, none, true, false⟩ (.ofProblem .detour)).after j).phase = .decide →
      ((Solver.start ⟨.ordered, none, true, false⟩ (.ofProblem .detour)).after j).level = 1 → j = 5 := by
    decide +kernel
  obtain rfl := only k few decides (restores.level.symm.trans landed)
  exact ⟨_, rfl, by decide +kernel, landed, decides, restores⟩

end Backjump
