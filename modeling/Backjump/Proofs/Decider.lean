import Backjump.Decider
import Backjump.Proofs.OrderedMap

/-! Both heuristics follow a fixed order of the variables, with a fixed polarity for
each. The ordered one keeps the order of first appearance and prefers true; the
other one sorts by descending score, ties in order of first appearance. A pick
is the first open variable in that order. -/
namespace Backjump

variable {t : Trail} {f : Formula} {x : Symbol} {l : Literal} {p : Symbol × Weights → Bool}

namespace Decider

/-- The order of variables by descending score. -/
def byScore (a b : Symbol × Weights) : Bool := b.2.score ≤ a.2.score

/-- The variables, the one to decide first in front. -/
def priority : Decider → List Symbol
  | ordered order => order
  | jeroslow weights => (weights.entries.mergeSort byScore).map Prod.fst

/-- The polarity that a variable is decided with. -/
def prefers (d : Decider) (x : Symbol) : Bool :=
  match d with
  | ordered _ => true
  | jeroslow weights => (weights.get? x).elim true Weights.polarity

theorem byScore_trans (a b c : Symbol × Weights) (hab : byScore a b) (hbc : byScore b c) :
    byScore a c := by
  simp only [byScore, decide_eq_true_eq] at *
  exact Nat.le_trans hbc hab

theorem byScore_total (a b : Symbol × Weights) : byScore a b || byScore b a := by
  simp only [byScore, Bool.or_eq_true, decide_eq_true_eq]
  exact Nat.le_total ..

/-- The first best candidate is the first candidate of the stable sort. -/
theorem best_filter (xs : List (Symbol × Weights)) :
    best (xs.filter p) = (xs.mergeSort byScore).find? p := by
  induction xs with
  | nil => simp [best]
  | cons a rest ih =>
    obtain ⟨front, back, sorted, sortedRest, above⟩ :=
      List.mergeSort_cons byScore_trans byScore_total a rest
    have pairwise := List.pairwise_mergeSort byScore_trans byScore_total (a :: rest)
    rw [sorted] at pairwise ⊢
    rw [sortedRest, List.find?_append] at ih
    rw [List.find?_append, List.find?_cons]
    cases candidate : p a with
    | false =>
      rw [List.filter_cons_of_neg (by simp [candidate]), ih]
    | true =>
      rw [List.filter_cons_of_pos candidate, best, ih]
      cases inFront : front.find? p with
      | some q =>
        have better := above q (List.mem_of_find?_eq_some inFront)
        simp only [byScore, Bool.not_eq_eq_eq_not, Bool.not_true, decide_eq_false_iff_not,
          Nat.not_le] at better
        simp [better]
      | none =>
        cases inBack : back.find? p with
        | none => rfl
        | some q =>
          rw [List.pairwise_append, List.pairwise_cons] at pairwise
          have worse := pairwise.2.1.1 q (List.mem_of_find?_eq_some inBack)
          simp only [byScore, decide_eq_true_eq] at worse
          simp [Nat.not_lt.mpr worse]

/-- A pick is the first open variable in the order of the heuristic. -/
theorem pick_eq (d : Decider) (t : Trail) :
    d.pick t = (d.priority.find? t.unassigned.contains).map fun x => ⟨x, d.prefers x⟩ := by
  cases d with
  | ordered order => rfl
  | jeroslow weights =>
    rw [pick, best_filter, priority, List.find?_map, Option.map_map]
    apply Option.map_congr
    intro p found
    have member : p ∈ weights.entries := List.mem_mergeSort.mp (List.mem_of_find?_eq_some found)
    simp [prefers, OrderedMap.get?_eq_some_iff.mpr member]

theorem pick_eq_some (d : Decider) (picked : d.pick t = some l) :
    ∃ before after, d.priority = before ++ l.symbol :: after ∧ (∀ x ∈ before, x ∉ t.unassigned) ∧
      l.symbol ∈ t.unassigned ∧ l.positive = d.prefers l.symbol := by
  rw [pick_eq, Option.map_eq_some_iff] at picked
  obtain ⟨x, found, rfl⟩ := picked
  obtain ⟨open_, before, after, split, closed⟩ := List.find?_eq_some_iff_append.mp found
  exact ⟨before, after, split, by simpa using closed, by simpa using open_, rfl⟩

theorem exists_pick (d : Decider) (inOrder : x ∈ d.priority) (open_ : x ∈ t.unassigned) :
    ∃ l, d.pick t = some l := by
  rw [← Option.isSome_iff_exists, pick_eq, Option.isSome_map, List.find?_isSome]
  exact ⟨x, inOrder, by simpa using open_⟩

end Decider

namespace Formula

theorem keys_foldl_literals (ls : List Literal) (amount : Score) (weights : OrderedMap Symbol Weights) :
    (ls.foldl (fun weights l => weights.adjust l.symbol fun w => w.add l.positive amount)
      weights).keys = weights.keys := by
  induction ls generalizing weights with
  | nil => rfl
  | cons l rest ih => rw [List.foldl_cons, ih, OrderedMap.keys_adjust]

theorem keys_foldl_clauses (clauses : List Clause) (weights : OrderedMap Symbol Weights) :
    (clauses.foldl (fun weights c =>
      c.literals.foldl (fun weights l =>
        weights.adjust l.symbol fun w => w.add l.positive (Score.weight c.size)) weights)
      weights).keys = weights.keys := by
  induction clauses generalizing weights with
  | nil => rfl
  | cons c rest ih => rw [List.foldl_cons, ih, keys_foldl_literals]

theorem keys_weights (f : Formula) : f.weights.keys = f.symbols := by
  rw [weights, keys_foldl_clauses, OrderedMap.keys, OrderedMap.entries_ofList]
  · simp [List.map_map, Function.comp_def]
  · simpa [List.map_map, Function.comp_def] using f.symbols_nodup

end Formula

theorem Decider.priority_perm (strategy : Strategy) (f : Formula) :
    (make strategy f).priority.Perm f.symbols := by
  cases strategy with
  | ordered => exact .refl _
  | jeroslow =>
    rw [← f.keys_weights]
    exact (List.mergeSort_perm ..).map Prod.fst

end Backjump
