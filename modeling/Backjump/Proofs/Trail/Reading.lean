import Backjump.Proofs.Clause.Status
import Backjump.Proofs.Stack
import Mathlib.Data.List.Nodup

/-! What entries say of the variables, and at which level. A first part of the
entries knows less than the whole. The decisions so far number the level of an
entry, so levels never fall and a cut at a level is a first part. -/
namespace Backjump

/-- An entry's variable with its value. -/
def Entry.binding (e : Entry) : Symbol × Bool := (e.symbol, e.literal.positive)

/-- What is known of each variable after the entries. -/
def valuationOf (es : List Entry) : Valuation := fun x => (es.map Entry.binding).lookup x

/-- The entries up to a level. -/
def upTo (level : Int) (es : List Entry) : List Entry := es.filter (·.level ≤ level)

variable {es front back : List Entry} {e : Entry} {x : Symbol} {b : Bool} {k level : Int}

theorem mem_of_valuationOf (h : valuationOf es x = some b) :
    ∃ e ∈ es, e.symbol = x ∧ e.literal.positive = b := by
  obtain ⟨before, after, split, _⟩ := List.lookup_eq_some_iff.mp h
  have member : (x, b) ∈ es.map Entry.binding := by simp [split]
  obtain ⟨e, mem, same⟩ := List.mem_map.mp member
  simp only [Entry.binding, Prod.mk.injEq] at same
  exact ⟨e, mem, same.1, same.2⟩

theorem valuationOf_eq_none : valuationOf es x = none ↔ ∀ e ∈ es, e.symbol ≠ x := by
  rw [valuationOf, List.lookup_eq_none_iff, List.forall_mem_map]
  simp only [Entry.binding, bne_iff_ne]
  exact forall₂_congr fun e _ => ne_comm

theorem valuationOf_of_mem (distinct : (es.map Entry.symbol).Nodup) (member : e ∈ es) :
    valuationOf es e.symbol = some e.literal.positive := by
  cases h : valuationOf es e.symbol with
  | none => exact absurd rfl (valuationOf_eq_none.mp h e member)
  | some b =>
    obtain ⟨e', member', sameSymbol, rfl⟩ := mem_of_valuationOf h
    rw [List.inj_on_of_nodup_map distinct member' member sameSymbol]

theorem value_of_mem (distinct : (es.map Entry.symbol).Nodup) (member : e ∈ es) :
    e.literal.value (valuationOf es) = some true :=
  Literal.value_eq_true.mpr (valuationOf_of_mem distinct member)

theorem mem_of_value_true {l : Literal} (h : l.value (valuationOf es) = some true) :
    ∃ e ∈ es, e.literal = l := by
  obtain ⟨e, member, symbol, positive⟩ := mem_of_valuationOf (Literal.value_eq_true.mp h)
  refine ⟨e, member, ?_⟩
  obtain ⟨_, _⟩ := l
  cases symbol
  cases positive
  rfl

theorem mem_of_value_false {l : Literal} (h : l.value (valuationOf es) = some false) :
    ∃ e ∈ es, e.literal = l.negate :=
  mem_of_value_true (Literal.value_negate_eq_true.mpr h)

theorem value_false_of_mem {l : Literal} (distinct : (es.map Entry.symbol).Nodup) (member : e ∈ es)
    (same : e.literal = l.negate) : l.value (valuationOf es) = some false := by
  rw [← Literal.value_negate_eq_true, ← same]
  exact value_of_mem distinct member

@[simp] theorem mem_upTo : e ∈ upTo level es ↔ e ∈ es ∧ e.level ≤ level := by
  simp [upTo]

theorem upTo_append : upTo level (front ++ back) = upTo level front ++ upTo level back :=
  List.filter_append ..

theorem upTo_eq_self (below : ∀ e ∈ es, e.level ≤ level) : upTo level es = es := by
  simpa [upTo] using below

theorem upTo_eq_nil (above : ∀ e ∈ es, level < e.level) : upTo level es = [] := by
  simpa [upTo] using above

theorem upTo_upTo (h : k ≤ level) : upTo k (upTo level es) = upTo k es := by
  unfold upTo
  rw [List.filter_filter]
  apply List.filter_congr
  intro e _
  by_cases low : e.level ≤ k
  · simp [low, Int.le_trans low h]
  · simp [low]

theorem distinct_upTo (distinct : (es.map Entry.symbol).Nodup) :
    ((upTo level es).map Entry.symbol).Nodup :=
  distinct.sublist (List.Sublist.map _ List.filter_sublist)

/-- A cut of ordered entries at a level is a first part of them. -/
theorem exists_append_upTo (sorted : es.Pairwise (·.level ≤ ·.level)) (level : Int) :
    ∃ back, es = upTo level es ++ back ∧ ∀ e ∈ back, level < e.level := by
  induction es with
  | nil => exact ⟨[], rfl, by simp⟩
  | cons e rest ih =>
    rw [List.pairwise_cons] at sorted
    by_cases low : e.level ≤ level
    · obtain ⟨back, split, above⟩ := ih sorted.2
      refine ⟨back, ?_, above⟩
      rw [upTo, List.filter_cons_of_pos (by simpa using low), List.cons_append]
      exact congrArg (e :: ·) split
    · have above : ∀ e' ∈ e :: rest, level < e'.level := by
        rw [List.forall_mem_cons]
        exact ⟨by omega, fun e' member => by have := sorted.1 e' member; omega⟩
      exact ⟨e :: rest, by rw [upTo_eq_nil above, List.nil_append], above⟩

theorem Built.upTo {P : List Entry → Entry → Prop} (built : Built P es)
    (sorted : es.Pairwise (·.level ≤ ·.level)) (level : Int) : Built P (upTo level es) := by
  obtain ⟨back, split, -⟩ := exists_append_upTo sorted level
  rw [split] at built
  exact built.front

def decisionCount (es : List Entry) : Nat := es.countP Entry.isDecision

/-- The level of an entry is the number of decisions up to and including it. -/
def Layered (es : List Entry) : Prop :=
  Built (fun before e => e.level = decisionCount (before ++ [e])) es

theorem decisionCount_append :
    decisionCount (front ++ back) = decisionCount front + decisionCount back :=
  List.countP_append ..

theorem decisionCount_snoc :
    decisionCount (front ++ [e]) = decisionCount front + if e.isDecision then 1 else 0 := by
  simp [decisionCount, List.countP_append, List.countP_singleton]

namespace Layered

theorem level_le (layered : Layered es) : ∀ e ∈ es, e.level ≤ decisionCount es := by
  intro e member
  obtain ⟨before, after, split, level⟩ := layered.exists_split member
  have more : decisionCount es = decisionCount (before ++ [e]) + decisionCount after := by
    rw [split, List.append_cons, decisionCount_append]
  omega

theorem level_nonneg (layered : Layered es) : ∀ e ∈ es, 0 ≤ e.level := by
  intro e member
  obtain ⟨before, after, split, level⟩ := layered.exists_split member
  omega

theorem sorted (layered : Layered es) : es.Pairwise (·.level ≤ ·.level) := by
  induction es using List.reverseRecOn with
  | nil => exact .nil
  | append_singleton es e ih =>
    rw [List.pairwise_append]
    refine ⟨ih layered.front, List.pairwise_singleton .., ?_⟩
    intro e' member last isLast
    obtain rfl := List.mem_singleton.mp isLast
    have lower := Layered.level_le layered.front e' member
    have top : last.level = decisionCount (es ++ [last]) := layered.last
    rw [top, decisionCount_append]
    omega

theorem level_lt_of_decision (layered : Layered (front ++ e :: back)) (decision : e.isDecision) :
    ∀ e' ∈ front, e'.level < e.level := by
  intro e' member
  have lower := Layered.level_le layered.front e' member
  have level : e.level = decisionCount (front ++ [e]) := layered front e back rfl
  rw [decisionCount_snoc, if_pos decision] at level
  omega

theorem level_pos_of_decision (layered : Layered es) (member : e ∈ es) (decision : e.isDecision) :
    0 < e.level := by
  obtain ⟨before, after, -, level⟩ := layered.exists_split member
  rw [decisionCount_snoc, if_pos decision] at level
  omega

theorem decision_unique (layered : Layered es) {e' : Entry} (member : e ∈ es) (member' : e' ∈ es)
    (decision : e.isDecision) (decision' : e'.isDecision) (same : e.level = e'.level) : e = e' := by
  obtain ⟨before, after, rfl⟩ := List.append_of_mem member
  rcases List.mem_append.mp member' with early | late
  · have := layered.level_lt_of_decision decision e' early
    omega
  · rcases List.mem_cons.mp late with rfl | late
    · rfl
    · obtain ⟨between, rest, rfl⟩ := List.append_of_mem late
      have split : before ++ e :: (between ++ e' :: rest) = (before ++ e :: between) ++ e' :: rest := by
        simp
      rw [split] at layered
      have := layered.level_lt_of_decision decision' e (by simp)
      omega

/-- Every level that was reached was opened by a decision. -/
theorem exists_decision (layered : Layered es) {n : Nat} (positive : 0 < n)
    (reached : n ≤ decisionCount es) : ∃ e ∈ es, e.isDecision = true ∧ e.level = n := by
  induction es using List.reverseRecOn with
  | nil => exact absurd (Nat.lt_of_lt_of_le positive reached) (Nat.lt_irrefl 0)
  | append_singleton es e ih =>
    by_cases earlier : n ≤ decisionCount es
    · obtain ⟨e', member, decision, level⟩ := ih layered.front earlier
      exact ⟨e', List.mem_append_left _ member, decision, level⟩
    · have level : e.level = decisionCount (es ++ [e]) := layered.last
      rw [decisionCount_snoc] at level reached
      split at reached
      · rename_i decision
        rw [if_pos decision] at level
        exact ⟨e, by simp, decision, by omega⟩
      · omega

/-- A cut at a level that was reached has as many decisions as the level says. -/
theorem decisionCount_upTo (layered : Layered es) {n : Nat} (reached : n ≤ decisionCount es) :
    decisionCount (upTo n es) = n := by
  induction es using List.reverseRecOn with
  | nil => exact (Nat.le_zero.mp reached).symm
  | append_singleton es e ih =>
    have level : e.level = decisionCount (es ++ [e]) := layered.last
    by_cases low : e.level ≤ n
    · have whole : decisionCount (es ++ [e]) = n := by omega
      rw [upTo_eq_self, whole]
      intro e' member
      have := layered.level_le e' member
      omega
    · rw [decisionCount_snoc] at level reached
      have dropped : upTo n [e] = [] := upTo_eq_nil (by simpa using low)
      rw [upTo_append, dropped, List.append_nil]
      apply ih layered.front
      split at level <;> omega

end Layered

end Backjump
