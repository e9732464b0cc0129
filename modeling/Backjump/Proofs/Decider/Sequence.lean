import Backjump.Proofs.Decider
import Backjump.Proofs.Decider.Score

/-! Decisions made one after another, each on a level of its own. A pick is the first open
variable in the order of the heuristic, and deciding it closes it and nothing else. So
what is left to decide is the rest of the order, and all decisions together are the
open variables in that order, which is fixed before the first of them. -/
namespace Backjump

/-- The scores of a variable's literals in the clauses. -/
def Formula.weightsOf (f : Formula) (x : Symbol) : Weights := (f.weights.get? x).getD .none

/-- The score of a variable, the better one of its literals'. -/
def Formula.score (f : Formula) (x : Symbol) : Score := (f.weightsOf x).score

/-- The variables in the order that a heuristic decides them in: that of first appearance, or that
order stably sorted by descending score. -/
def Strategy.ranking (strategy : Strategy) (f : Formula) : List Symbol :=
  match strategy with
  | .ordered => f.symbols
  | .jeroslow => f.symbols.mergeSort fun x y => f.score y ≤ f.score x

/-- The literal that a heuristic decides a variable with: the positive one, or the one that scores
better, the positive one on a tie. -/
def Strategy.decision (strategy : Strategy) (f : Formula) (x : Symbol) : Literal :=
  match strategy with
  | .ordered => ⟨x, true⟩
  | .jeroslow => ⟨x, (f.weightsOf x).negative ≤ (f.weightsOf x).positive⟩

variable {d : Decider} {f : Formula} {strategy : Strategy} {t : Trail} {l : Literal} {x : Symbol}

namespace Formula

theorem weightsOf_of_mem {p : Symbol × Weights} (member : p ∈ f.weights.entries) :
    f.weightsOf p.1 = p.2 := by
  rw [weightsOf, OrderedMap.get?_eq_some_iff.mpr member]
  rfl

theorem score_lt_bound (f : Formula) (x : Symbol) : f.score x < Binary64.bound := by
  have bounded : (f.weightsOf x).Bounded := by
    rw [weightsOf]
    cases found : f.weights.get? x with
    | none => exact ⟨Nat.zero_le _, Nat.zero_le _⟩
    | some w => exact f.bounded_weights _ (OrderedMap.get?_eq_some_iff.mp found)
  exact Nat.lt_of_le_of_lt (Nat.max_le.mpr bounded) Score.most_lt_bound

end Formula

namespace Decider

theorem ranking_make (strategy : Strategy) (f : Formula) :
    (make strategy f).priority = strategy.ranking f := by
  cases strategy with
  | ordered => rfl
  | jeroslow =>
    rw [make, priority, Strategy.ranking, ← f.keys_weights]
    apply List.map_mergeSort
    intro a inA b inB
    rw [byScore, Formula.score, Formula.score, Formula.weightsOf_of_mem inA,
      Formula.weightsOf_of_mem inB]

theorem decision_make (strategy : Strategy) (f : Formula) (x : Symbol) :
    (⟨x, (make strategy f).prefers x⟩ : Literal) = strategy.decision f x := by
  cases strategy with
  | ordered => rfl
  | jeroslow =>
    rw [make, prefers, Strategy.decision, Formula.weightsOf]
    cases f.weights.get? x <;> rfl

theorem score_make (member : x ∈ f.symbols) : (make .jeroslow f).score x = .ok (f.score x) := by
  rw [← f.keys_weights] at member
  obtain ⟨p, paired, rfl⟩ := List.mem_map.mp member
  rw [make, score, OrderedMap.get?_eq_some_iff.mpr paired, Formula.score,
    Formula.weightsOf_of_mem paired]

/-- No variable in the order of a heuristic is open when it picks none. -/
theorem pick_eq_none_iff : d.pick t = none ↔ ∀ x ∈ d.priority, x ∉ t.unassigned := by
  rw [pick_eq, Option.map_eq_none_iff, List.find?_eq_none]
  simp only [List.contains_iff_mem]

end Decider

namespace Trail

/-- The trail after a decision on the next level. -/
def withDecision (t : Trail) (l : Literal) : Trail := t.push (t.nextEntry l (t.topLevel + 1) none)

/-- The entries of decisions on the levels after `level`, from a place on. -/
def decisions (level : Int) (place : Nat) : List Literal → List Entry
  | [] => []
  | l :: rest => ⟨l, level + 1, none, place⟩ :: decisions (level + 1) (place + 1) rest

theorem assign_eq_withDecision (open_ : l.symbol ∈ t.unassigned) (unbound : l.symbol ∉ t.assignment) :
    t.assign l (t.topLevel + 1) none = .ok (t.withDecision l) := by
  have above : ¬(t.entries ≠ [] ∧ t.topLevel + 1 < t.topLevel) := by omega
  rw [assign, if_neg unbound, if_neg (not_not.mpr open_), if_neg above, withDecision]

theorem mem_unassigned_withDecision :
    x ∈ (t.withDecision l).unassigned ↔ x ∈ t.unassigned ∧ x ≠ l.symbol := by
  simp [withDecision, push, nextEntry, Entry.symbol]

theorem mem_assignment_withDecision :
    x ∈ (t.withDecision l).assignment ↔ x = l.symbol ∨ x ∈ t.assignment :=
  OrderedMap.mem_insert

theorem topLevel_withDecision : (t.withDecision l).topLevel = t.topLevel + 1 := by
  simp [topLevel, withDecision, push, nextEntry]

end Trail

namespace Decider

/-- The variables left to decide, in the order of the heuristic. -/
def remaining (d : Decider) (t : Trail) : List Symbol := d.priority.filter t.unassigned.contains

/-- A pick takes the first of the variables left. -/
theorem remaining_withDecision (distinct : d.priority.Nodup) (picked : d.pick t = some l) :
    d.remaining t = l.symbol :: d.remaining (t.withDecision l) := by
  obtain ⟨before, after, split, closed, open_, -⟩ := d.pick_eq_some picked
  rw [split, List.nodup_middle, List.nodup_cons, List.mem_append, not_or] at distinct
  have early : before.filter t.unassigned.contains = [] := by
    simpa [List.filter_eq_nil_iff] using closed
  have early' : before.filter (t.withDecision l).unassigned.contains = [] := by
    simp only [List.filter_eq_nil_iff, List.contains_iff_mem, Trail.mem_unassigned_withDecision]
    exact fun y member kept => closed y member kept.1
  have late : after.filter (t.withDecision l).unassigned.contains =
      after.filter t.unassigned.contains := by
    refine List.filter_congr fun y member => ?_
    have other : y ≠ l.symbol := fun same => distinct.1.2 (same ▸ member)
    rw [Bool.eq_iff_iff, List.contains_iff_mem, List.contains_iff_mem,
      Trail.mem_unassigned_withDecision]
    exact and_iff_left other
  have first : t.unassigned.contains l.symbol = true := by simpa using open_
  have gone : ¬(t.withDecision l).unassigned.contains l.symbol = true := by
    simp [Trail.mem_unassigned_withDecision]
  rw [remaining, remaining, split, List.filter_append, List.filter_append, early, early',
    List.filter_cons_of_pos first, List.filter_cons_of_neg gone, late, List.nil_append,
    List.nil_append]

/-- All decisions are the variables left, in the order of the heuristic. -/
theorem pickAll_eq (distinct : d.priority.Nodup) (within : ∀ x ∈ t.unassigned, x ∈ d.priority)
    (apart : ∀ x ∈ t.unassigned, x ∉ t.assignment) : ∃ t',
      let ls := (d.remaining t).map fun x => ⟨x, d.prefers x⟩
      d.pickAll t = (.ok ls, t') ∧ t'.unassigned = [] ∧
        t'.entries = t.entries ++ Trail.decisions t.topLevel t.entries.length ls := by
  induction size : t.unassigned.length using Nat.strongRecOn generalizing t with
  | ind n ih =>
    rw [pickAll]
    cases picked : d.pick t with
    | none =>
      have closed := pick_eq_none_iff.mp picked
      have empty : t.unassigned = [] :=
        List.eq_nil_iff_forall_not_mem.mpr fun x open_ => closed x (within x open_) open_
      have none : d.remaining t = [] := by simp [remaining, empty]
      simp [none, empty, Trail.decisions]
    | some l =>
      obtain ⟨-, -, -, -, open_, positive⟩ := d.pick_eq_some picked
      have assigned := Trail.assign_eq_withDecision open_ (apart _ open_)
      have fewer := Trail.length_unassigned_assign_lt assigned
      have within' : ∀ x ∈ (t.withDecision l).unassigned, x ∈ d.priority := fun x kept =>
        within x (Trail.mem_unassigned_withDecision.mp kept).1
      have apart' : ∀ x ∈ (t.withDecision l).unassigned, x ∉ (t.withDecision l).assignment := by
        intro x kept bound
        obtain ⟨kept, other⟩ := Trail.mem_unassigned_withDecision.mp kept
        exact (Trail.mem_assignment_withDecision.mp bound).elim other (apart x kept)
      obtain ⟨t', decided, empty, entries⟩ := ih _ (size ▸ fewer) within' apart' rfl
      have same : (⟨l.symbol, d.prefers l.symbol⟩ : Literal) = l := positive ▸ rfl
      refine ⟨t', ?_, empty, ?_⟩
      · dsimp only
        split
        · rename_i failed
          rw [assigned] at failed
          contradiction
        · rename_i made
          obtain rfl := Except.ok.inj (assigned.symm.trans made)
          rw [decided, remaining_withDecision distinct picked, List.map_cons, same]
          rfl
      · rw [entries, remaining_withDecision distinct picked, List.map_cons, same,
          Trail.topLevel_withDecision, Trail.decisions]
        simp [Trail.withDecision, Trail.push, Trail.nextEntry]

/-- Decisions follow one stable sort of the variables, made from scores that are finite. Each open
variable is decided once, in the sorted order, and a heuristic picks none only when none of
the formula's variables is open. -/
theorem decisions_follow_ranking (strategy : Strategy) (f : Formula) (t : Trail)
    (within : ∀ x ∈ t.unassigned, x ∈ f.symbols) (apart : ∀ x ∈ t.unassigned, x ∉ t.assignment) :
    let open_ := (strategy.ranking f).filter t.unassigned.contains
    let ls := open_.map (strategy.decision f)
    (∃ t', (make strategy f).pickAll t = (.ok ls, t') ∧ t'.unassigned = [] ∧
      t'.entries = t.entries ++ Trail.decisions t.topLevel t.entries.length ls) ∧
    open_.Nodup ∧ (∀ x, x ∈ open_ ↔ x ∈ t.unassigned) ∧
    (∀ x ∈ f.symbols, (make .jeroslow f).score x = .ok (f.score x) ∧ f.score x < Binary64.bound) ∧
    ∀ t, (make strategy f).pick t = none ↔ ∀ x ∈ f.symbols, x ∉ t.unassigned := by
  intro open_ ls
  have perm : (strategy.ranking f).Perm f.symbols := ranking_make strategy f ▸ priority_perm strategy f
  have distinct : (make strategy f).priority.Nodup :=
    (priority_perm strategy f).nodup_iff.mpr f.symbols_nodup
  have inOrder {x : Symbol} : x ∈ (make strategy f).priority ↔ x ∈ f.symbols :=
    (priority_perm strategy f).mem_iff
  have decided :
      ((make strategy f).remaining t).map (fun x => ⟨x, (make strategy f).prefers x⟩) = ls := by
    rw [remaining, ranking_make]
    exact List.map_congr_left fun x _ => decision_make strategy f x
  refine ⟨?_, (perm.nodup_iff.mpr f.symbols_nodup).filter _, fun x => ?_, fun x member => ?_,
    fun t => ?_⟩
  · have follows := pickAll_eq distinct (fun x open_ => inOrder.mpr (within x open_)) apart
    rwa [decided] at follows
  · rw [List.mem_filter, List.contains_iff_mem, perm.mem_iff]
    exact and_iff_right_of_imp (within x)
  · exact ⟨score_make member, f.score_lt_bound x⟩
  · rw [pick_eq_none_iff]
    exact forall_congr' fun x => imp_congr_left inOrder

/-- The score falls from the last variable to the first, but the two between have the same. -/
def tied : Formula := ⟨[.ofLiterals [⟨.number 4, true⟩, ⟨.number 3, true⟩, ⟨.number 2, true⟩] false,
  .ofLiterals [⟨.number 1, false⟩, ⟨.number 2, true⟩] false,
  .ofLiterals [⟨.number 1, false⟩, ⟨.number 3, true⟩] false]⟩

theorem ranking_tied :
    Strategy.jeroslow.ranking tied = [.number 1, .number 3, .number 2, .number 4] := by
  have symbols : tied.symbols = [.number 4, .number 3, .number 2, .number 1] := by decide +kernel
  obtain ⟨le, same, h₄₃, h₂₁, h₃₁, h₃₂, h₄₂⟩ : ∃ le : Symbol → Symbol → Bool,
      (fun x y => decide (tied.score y ≤ tied.score x)) = le ∧
      le (.number 4) (.number 3) = false ∧ le (.number 2) (.number 1) = false ∧
      le (.number 3) (.number 1) = false ∧ le (.number 3) (.number 2) = true ∧
      le (.number 4) (.number 2) = false := ⟨_, rfl, by decide +kernel⟩
  rw [Strategy.ranking, symbols, same]
  simp [List.mergeSort, List.MergeSort.Internal.splitInTwo, h₄₃, h₂₁, h₃₁, h₃₂, h₄₂]

def boundLast : Trail := (Trail.start tied.symbols).push ⟨⟨.number 4, true⟩, 0, some 0, 0⟩

theorem decisions_follow_ranking_of_tied : ∃ t',
    (Trail.start tied.symbols).assign ⟨.number 4, true⟩ 0 (some 0) = .ok boundLast ∧
    (make .jeroslow tied).pickAll boundLast =
      (.ok [⟨.number 1, false⟩, ⟨.number 3, true⟩, ⟨.number 2, true⟩], t') ∧
    t'.entries.map Entry.level = [0, 1, 2, 3] := by
  obtain ⟨⟨t', decided, -, entries⟩, -⟩ := decisions_follow_ranking .jeroslow tied boundLast
    (by decide +kernel) (by decide +kernel)
  have left : ([.number 1, .number 3, .number 2, .number 4].filter boundLast.unassigned.contains).map
      (Strategy.jeroslow.decision tied) =
        [⟨.number 1, false⟩, ⟨.number 3, true⟩, ⟨.number 2, true⟩] := by decide +kernel
  rw [ranking_tied, left] at decided entries
  refine ⟨t', by decide +kernel, decided, ?_⟩
  rw [entries]
  decide +kernel

end Decider

end Backjump
