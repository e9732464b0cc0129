import Backjump.Proofs.Trail.Record

/-! A trail on its own, under calls in any order. A caller may assign any literal at any
level for any reason, and truncate at any level. An assignment adds one entry or is
refused for one of three reasons; a truncation cuts at its level. So every call keeps
the record, and since levels never fall two cuts are the lower one of them. -/
namespace Backjump.Trail

/-- A call that changes a trail. -/
inductive Call where
  | assign (literal : Literal) (level : Int) (antecedent : Option Int)
  | truncate (level : Int)
  deriving DecidableEq

/-- The trail after a call, whether it answers or fails. -/
def perform (t : Trail) : Call → Trail
  | .assign l level antecedent =>
    match t.assign l level antecedent with
    | .ok t' => t'
    | .error _ => t
  | .truncate level => (t.truncate level).2

def afterCalls (t : Trail) (calls : List Call) : Trail := calls.foldl perform t

/-- The parts of a trail over a scope agree with its entries, and the entries with their order. -/
structure Faithful (scope : List Symbol) (t : Trail) : Prop where
  scope_eq : t.scope = scope
  placed : ∀ (i : Nat) e, t.entries[i]? = some e → e.index = i
  sorted : t.entries.Pairwise (·.level ≤ ·.level)
  once : (t.entries.map Entry.symbol).Nodup
  held : ∀ x e, t.entryFor? x = some e ↔ e ∈ t.entries ∧ e.symbol = x
  bound : ∀ x b, t.assignment.get? x = some b ↔ ∃ e ∈ t.entries, e.symbol = x ∧ e.literal.positive = b
  agrees : ∀ x, t.assignment.get? x = (t.entryFor? x).map (·.literal.positive)
  covers : ∀ x, x ∈ scope ↔ x ∈ t.assignment ∨ x ∈ t.unassigned
  apart : ∀ x ∈ t.assignment, x ∉ t.unassigned

/-- What assigning answers: a refusal, with the reason that it names, or one entry more. -/
inductive Assigns (t : Trail) (l : Literal) (level : Int) (antecedent : Option Int) :
    Except Fault Trail → Prop where
  | held {e : Entry} : e ∈ t.entries → e.symbol = l.symbol →
      Assigns t l level antecedent (.error (.violation (.alreadyAssigned l.symbol e)))
  | foreign : l.symbol ∉ t.scope →
      Assigns t l level antecedent (.error (.violation (.notInFormula l.symbol)))
  | below {front : List Entry} {e : Entry} : l.symbol ∈ t.unassigned → t.entries = front ++ [e] →
      level < e.level → Assigns t l level antecedent (.error (.violation (.belowTop level e.level)))
  | added {t' : Trail} : l.symbol ∈ t.unassigned → (∀ e ∈ t.entries, e.level ≤ level) →
      t'.entries = t.entries ++ [⟨l, level, antecedent, t.entries.length⟩] →
      Assigns t l level antecedent (.ok t')

variable {t t' : Trail} {scope : List Symbol} {l : Literal} {level a b : Int}
  {antecedent : Option Int} {x : Symbol} {e : Entry} {latestFirst : List Entry}

/-- Levels that separate the entries alike undo the same of them. -/
theorem undoAbove_congr (alike : ∀ e ∈ latestFirst, a < e.level ↔ b < e.level) (t : Trail) :
    undoAbove a latestFirst t = undoAbove b latestFirst t := by
  induction latestFirst generalizing t with
  | nil => rfl
  | cons e earlier ih =>
    rw [List.forall_mem_cons] at alike
    simp only [undoAbove, alike.1, ih alike.2]

namespace Recorded

theorem entryFor?_eq_some_iff (recorded : t.Recorded) :
    t.entryFor? x = some e ↔ e ∈ t.entries ∧ e.symbol = x := by
  constructor
  · intro found
    rw [entryFor?, Option.bind_eq_some_iff] at found
    obtain ⟨holder, held, found⟩ := found
    rw [OrderedMap.get?_eq_some_iff, recorded.holders, holdersOf, List.mem_map] at held
    obtain ⟨⟨e', position⟩, listed, same⟩ := held
    cases same
    dsimp only at found
    rw [List.mk_mem_zipIdx_iff_getElem?] at listed
    rw [listed, Option.some.injEq] at found
    exact ⟨found ▸ List.mem_of_getElem? listed, congrArg Entry.symbol found.symm⟩
  · rintro ⟨member, rfl⟩
    exact recorded.entryFor?_of_mem member

theorem get?_assignment_eq_some_iff (recorded : t.Recorded) {value : Bool} :
    t.assignment.get? x = some value ↔ ∃ e ∈ t.entries, e.symbol = x ∧ e.literal.positive = value := by
  rw [OrderedMap.get?_eq_some_iff, recorded.assignment, List.mem_map]
  simp only [Entry.binding, Prod.mk.injEq]

theorem faithful (recorded : t.Recorded) : Faithful t.scope t where
  scope_eq := rfl
  placed := by
    intro i e found
    obtain ⟨inside, rfl⟩ := List.getElem?_eq_some_iff.mp found
    have split : t.entries = t.entries.take i ++ t.entries[i] :: t.entries.drop (i + 1) := by simp
    have place := recorded.placed _ _ _ split
    rw [place, List.length_take, Nat.min_eq_left (Nat.le_of_lt inside)]
  sorted := recorded.sorted
  once := recorded.distinct
  held := fun _ _ => recorded.entryFor?_eq_some_iff
  bound := fun _ _ => recorded.get?_assignment_eq_some_iff
  agrees := by
    intro x
    ext value
    simp only [recorded.get?_assignment_eq_some_iff, Option.map_eq_some_iff,
      recorded.entryFor?_eq_some_iff, and_assoc]
  covers := fun _ => recorded.mem_scope_iff
  apart := fun _ => recorded.not_mem_unassigned

theorem assigns (recorded : t.Recorded) (l : Literal) (level : Int) (antecedent : Option Int) :
    t.Assigns l level antecedent (t.assign l level antecedent) := by
  by_cases held : ∃ e ∈ t.entries, e.symbol = l.symbol
  · obtain ⟨e, member, same⟩ := held
    have bound : l.symbol ∈ t.assignment := recorded.mem_assignment.mpr ⟨e, member, same⟩
    rw [assign, if_pos bound, recorded.entryFor?_eq_some_iff.mpr ⟨member, same⟩]
    exact .held member same
  · have free : l.symbol ∉ t.assignment := fun bound => held (recorded.mem_assignment.mp bound)
    by_cases open_ : l.symbol ∈ t.unassigned
    · by_cases above : ∀ e ∈ t.entries, e.level ≤ level
      · rw [(recorded.assign_eq_ok open_ above).1]
        exact .added open_ above rfl
      · rcases List.eq_nil_or_concat' t.entries with empty | ⟨front, last, split⟩
        · simp [empty] at above
        · have top := topLevel_eq_of_append split
          have low : level < last.level := by
            by_contra high
            refine above fun e member => ?_
            have := recorded.level_le_topLevel e member
            omega
          have refused : t.entries ≠ [] ∧ level < t.topLevel := ⟨by simp [split], by omega⟩
          rw [assign, if_neg free, if_neg (not_not.mpr open_), if_pos refused, top]
          exact .below open_ split low
    · have foreign : l.symbol ∉ t.scope := fun inScope =>
        open_ ((recorded.unassigned _).mpr ⟨inScope, fun e member same => held ⟨e, member, same⟩⟩)
      rw [assign, if_neg free, if_pos open_]
      exact .foreign foreign

theorem assign (recorded : t.Recorded) (assigned : t.assign l level antecedent = .ok t') :
    t'.Recorded ∧ t'.scope = t.scope := by
  have outcome := recorded.assigns l level antecedent
  rw [assigned] at outcome
  cases outcome with
  | added open_ above =>
    obtain ⟨made, kept⟩ : t.assign l level antecedent = .ok _ ∧ _ :=
      recorded.assign_eq_ok open_ above
    rw [made, Except.ok.injEq] at assigned
    subst assigned
    exact ⟨kept, rfl⟩

theorem perform (recorded : t.Recorded) (call : Call) :
    (t.perform call).Recorded ∧ (t.perform call).scope = t.scope := by
  cases call with
  | assign l level antecedent =>
    rw [Trail.perform]
    cases assigned : t.assign l level antecedent with
    | ok t' => exact recorded.assign assigned
    | error fault => exact ⟨recorded, rfl⟩
  | truncate level =>
    obtain ⟨_, t', cut, kept, scope, -⟩ := recorded.truncate_eq_ok level
    rw [Trail.perform, cut]
    exact ⟨kept, scope⟩

theorem afterCalls (recorded : t.Recorded) (calls : List Call) :
    (t.afterCalls calls).Recorded ∧ (t.afterCalls calls).scope = t.scope := by
  induction calls generalizing t with
  | nil => exact ⟨recorded, rfl⟩
  | cons call rest ih =>
    obtain ⟨kept, scope⟩ := recorded.perform call
    obtain ⟨keptAll, scopeAll⟩ := ih kept
    exact ⟨keptAll, scopeAll.trans scope⟩

/-- Two cuts, and what both took off, are the lower cut. -/
theorem undoAbove_truncate (recorded : t.Recorded) (order : t.entries.reverse = latestFirst)
    (a b : Int) :
    ((undoAbove a latestFirst t).andThen fun first t =>
        (t.truncate b).andThen fun later t => (.ok (first ++ later), t)) =
      undoAbove (min a b) latestFirst t := by
  induction latestFirst generalizing t with
  | nil =>
    simp only [undoAbove, Attempt.andThen_ok, truncate, order]
    rfl
  | cons e earlier ih =>
    have split : t.entries = earlier.reverse ++ [e] := by simpa using congrArg List.reverse order
    by_cases above : a < e.level
    · have order' : (t.withoutLast e).entries.reverse = earlier := by simp [split]
      have onward := ih (recorded.withoutLast split) order'
      obtain ⟨first, t₁, undone, recorded₁, -⟩ :=
        (recorded.withoutLast split).undoAbove_eq_ok order' a
      obtain ⟨later, t₂, cut, -⟩ := recorded₁.truncate_eq_ok b
      rw [undone, Attempt.andThen_ok, cut, Attempt.andThen_ok] at onward
      have low : min a b < e.level := Int.lt_of_le_of_lt (Int.min_le_left a b) above
      simp only [undoAbove, if_pos above, if_pos low, recorded.undoLast_eq_ok split,
        Attempt.andThen_ok, undone, cut, ← onward, List.cons_append]
    · -- Nothing lies above the first cut, so both levels separate the entries alike.
      rw [undoAbove, if_neg above, Attempt.andThen_ok, truncate, order,
        undoAbove_congr (b := min a b)]
      · obtain ⟨removed, t', undone, -⟩ := recorded.undoAbove_eq_ok order (min a b)
        rw [undone]
        rfl
      · intro e' member
        have := recorded.level_le_topLevel e' (List.mem_reverse.mp (order ▸ member))
        rw [topLevel_eq_of_append split] at this
        omega

end Recorded

/-- After any calls the trail is faithful, assigning adds one entry or changes nothing, and truncating
cuts at its level, so that two cuts are the lower one. -/
theorem faithful_after_calls (scope : List Symbol) (calls : List Call) :
    let t := (start scope).afterCalls calls
    Faithful scope t ∧
      (∀ l level antecedent, t.Assigns l level antecedent (t.assign l level antecedent) ∧
        ∀ fault, t.assign l level antecedent = .error fault →
          t.perform (.assign l level antecedent) = t) ∧
      (∀ level, ∃ t', t.truncate level =
          (.ok (t.entries.reverse.filter (level < ·.level)), t') ∧
        t'.entries = t.entries.filter (·.level ≤ level) ∧ Faithful scope t') ∧
      ∀ a b, ((t.truncate a).andThen fun first t =>
          (t.truncate b).andThen fun later t => (.ok (first ++ later), t)) =
        t.truncate (min a b) := by
  intro t
  obtain ⟨recorded, scope_eq⟩ := (recorded_start scope).afterCalls calls
  change t.Recorded at recorded
  change t.scope = scope at scope_eq
  refine ⟨scope_eq ▸ recorded.faithful, fun l level antecedent => ?_, fun level => ?_, fun a b => ?_⟩
  · refine ⟨recorded.assigns l level antecedent, fun fault refused => ?_⟩
    rw [perform, refused]
  · obtain ⟨_, t', cut, kept, scope', entries, rfl⟩ := recorded.truncate_eq_ok level
    have faithful := kept.faithful
    rw [scope', scope_eq] at faithful
    exact ⟨t', cut, entries, faithful⟩
  · exact recorded.undoAbove_truncate rfl a b

end Backjump.Trail
