import Backjump.Proofs.Trail.Record

/-! What the check of a trail finds out, on any trail, also one that was edited from
outside. It walks along the entries and compares each with the one before it
only; from the first entry on, that comes to counting the decisions. So a trail
passes exactly if its entries are in order and its bound and open variables part
the scope, and what a failing check reports is there to be seen. -/
namespace Backjump.Trail

/-- Entries stand at the places they know, on the levels that the decisions make. -/
structure InOrder (es : List Entry) : Prop where
  placed : Built (fun (before : List Entry) e => e.index = before.length) es
  layered : Layered es

/-- How an entry can be out of order behind entries that are in order, and how it is reported. -/
inductive Disorder (before : List Entry) (e : Entry) : Violation → Prop where
  | misplaced (place : e.index ≠ before.length) : Disorder before e (.misplaced e before.length)
  | decisionLevel (place : e.index = before.length) (decision : e.isDecision = true)
      (level : e.level ≠ decisionCount before + 1) :
      Disorder before e (.decisionLevel e (decisionCount before + 1))
  | impliedLevel (place : e.index = before.length) (implied : e.isDecision = false)
      (level : e.level ≠ decisionCount before) :
      Disorder before e (.impliedLevel e (decisionCount before))

variable {before front back rest : List Entry} {e : Entry} {t : Trail} {n : Int} {v : Violation}

/-- The check of the entries behind `before`. -/
def checkBehind (before back : List Entry) : Except Violation (Int × Nat) :=
  checkEntries before.length (decisionCount before) (decisionCount before) back

namespace InOrder

theorem nil : InOrder [] := ⟨.nil, .nil⟩

theorem snoc (ordered : InOrder before) (place : e.index = before.length)
    (level : e.level = decisionCount (before ++ [e])) : InOrder (before ++ [e]) :=
  ⟨ordered.placed.snoc place, ordered.layered.snoc level⟩

theorem not_disorder (ordered : InOrder (before ++ e :: rest)) : ¬Disorder before e v := by
  have place : e.index = before.length := ordered.placed before e rest rfl
  have level : e.level = decisionCount (before ++ [e]) := ordered.layered before e rest rfl
  rw [decisionCount_snoc] at level
  intro disorder
  cases disorder with
  | misplaced differs => exact differs place
  | decisionLevel _ decision differs => exact differs (by simpa [decision] using level)
  | impliedLevel _ implied differs => exact differs (by simpa [implied] using level)

/-- Read off by places: each entry has its own, and the level that the decisions up to there make. -/
theorem iff_getElem? {es : List Entry} : InOrder es ↔
    ∀ (i : Nat) (e : Entry), es[i]? = some e →
      e.index = i ∧ e.level = decisionCount (es.take (i + 1)) := by
  constructor
  · rintro ⟨placed, layered⟩ i e found
    obtain ⟨inside, rfl⟩ := List.getElem?_eq_some_iff.mp found
    have split : es = es.take i ++ es[i] :: es.drop (i + 1) := by simp
    have length : (es.take i).length = i := List.length_take_of_le (Nat.le_of_lt inside)
    constructor
    · exact (placed _ _ _ split).trans (congrArg Nat.cast length)
    · rw [List.take_succ_eq_append_getElem inside]
      exact layered _ _ _ split
  · intro each
    have here {before : List Entry} {e : Entry} {after} (split : es = before ++ e :: after) :
        e.index = before.length ∧ e.level = decisionCount (before ++ [e]) := by
      have first : es.take (before.length + 1) = before ++ [e] := by
        rw [split, List.append_cons]
        exact List.take_left' (by simp)
      rw [← first]
      exact each before.length e (by simp [split])
    exact ⟨fun _ _ _ split => (here split).1, fun _ _ _ split => (here split).2⟩

end InOrder

/-- The check goes on behind an entry in order, and stops at any other. -/
theorem checkBehind_cons (before rest : List Entry) (e : Entry) :
    (e.index = before.length ∧ e.level = decisionCount (before ++ [e]) ∧
        checkBehind before (e :: rest) = checkBehind (before ++ [e]) rest) ∨
      ∃ v, Disorder before e v ∧ checkBehind before (e :: rest) = .error v := by
  simp only [checkBehind, checkEntries, decisionCount_snoc, List.length_append,
    List.length_singleton]
  by_cases place : e.index = before.length
  · rw [if_neg (not_not.mpr place)]
    cases decision : e.isDecision with
    | true =>
      by_cases level : e.level = decisionCount before + 1
      · simp [place, level]
      · exact .inr ⟨_, .decisionLevel place decision level, by simp [level]⟩
    | false =>
      by_cases level : e.level = decisionCount before
      · simp [place, level]
      · exact .inr ⟨_, .impliedLevel place decision level, by simp [level]⟩
  · exact .inr ⟨_, .misplaced place, if_pos place⟩

/-- All entries are in order, or the check stops at the first that is not. -/
theorem checkBehind_cases (ordered : InOrder front) (back : List Entry) :
    (InOrder (front ++ back) ∧ checkBehind front back =
        .ok ((decisionCount (front ++ back) : Int), decisionCount (front ++ back))) ∨
      ∃ before e rest v, front ++ back = before ++ e :: rest ∧ InOrder before ∧
        Disorder before e v ∧ checkBehind front back = .error v := by
  induction back generalizing front with
  | nil => exact .inl (by simpa [checkBehind, checkEntries] using ordered)
  | cons e rest ih =>
    rcases checkBehind_cons front rest e with ⟨place, level, onward⟩ | ⟨v, disorder, stops⟩
    · rw [List.append_cons, onward]
      exact ih (ordered.snoc place level)
    · exact .inr ⟨front, e, rest, v, rfl, ordered, disorder, stops⟩

/-- What the check of a trail at a level asks for. -/
structure Consistent (t : Trail) (level : Int) : Prop where
  placed : Built (fun (before : List Entry) e => e.index = before.length) t.entries
  layered : Layered t.entries
  level : level = decisionCount t.entries
  apart : ∀ x ∈ t.assignment, x ∉ t.unassigned
  covers : ∀ x, x ∈ t.assignment ∨ x ∈ t.unassigned ↔ x ∈ t.scope
  held : ∀ x, x ∈ t.assignment ↔ x ∈ t.holders

/-- What can be wrong with a trail at a level, and how it is reported. -/
inductive Defect (t : Trail) (level : Int) : Violation → Prop where
  | disorder (before : List Entry) (e : Entry) (rest : List Entry) (v : Violation)
      (split : t.entries = before ++ e :: rest) (ordered : InOrder before)
      (here : Disorder before e v) : Defect t level v
  | decisionCount (differs : level ≠ decisionCount t.entries) :
      Defect t level (.decisionCount (Backjump.decisionCount t.entries) level)
  | assignedAndOpen (x : Symbol) (bound : x ∈ t.assignment) (open_ : x ∈ t.unassigned) :
      Defect t level (.assignedAndOpen (t.assignment.keys.filter t.unassigned.contains))
  | scopeNotCovered (differ : ¬∀ x, x ∈ t.assignment ∨ x ∈ t.unassigned ↔ x ∈ t.scope) :
      Defect t level .scopeNotCovered
  | holdersDiffer (differ : ¬∀ x, x ∈ t.assignment ↔ x ∈ t.holders) : Defect t level .holdersDiffer

theorem Consistent.not_defect (consistent : t.Consistent n) : ¬t.Defect n v := by
  intro defect
  cases defect with
  | disorder before e rest v split _ here =>
    have ordered : InOrder t.entries := ⟨consistent.placed, consistent.layered⟩
    rw [split] at ordered
    exact ordered.not_disorder here
  | decisionCount differs => exact differs consistent.level
  | assignedAndOpen x bound open_ => exact consistent.apart x bound open_
  | scopeNotCovered differ => exact differ consistent.covers
  | holdersDiffer differ => exact differ consistent.held

theorem sameMembers_iff {xs ys : List Symbol} :
    sameMembers xs ys = true ↔ ∀ x, x ∈ xs ↔ x ∈ ys := by
  simp only [sameMembers, Bool.and_eq_true, List.all_eq_true, List.contains_iff_mem]
  constructor
  · rintro ⟨onward, back⟩ x
    exact ⟨onward x, back x⟩
  · intro same
    exact ⟨fun x => (same x).mp, fun x => (same x).mpr⟩

theorem covers_iff : sameMembers (t.assignment.keys ++ t.unassigned) t.scope = true ↔
    ∀ x, x ∈ t.assignment ∨ x ∈ t.unassigned ↔ x ∈ t.scope := by
  simp only [sameMembers_iff, List.mem_append, OrderedMap.mem_iff]

theorem held_iff : sameMembers t.assignment.keys t.holders.keys = true ↔
    ∀ x, x ∈ t.assignment ↔ x ∈ t.holders := sameMembers_iff

/-- A trail is consistent and passes, or it has a defect and this is reported. -/
theorem checkConsistency_cases (t : Trail) (n : Int) :
    (t.Consistent n ∧ t.checkConsistency n = .ok ()) ∨
      ∃ v, t.Defect n v ∧ t.checkConsistency n = .error v := by
  have start : checkEntries 0 0 0 t.entries = checkBehind [] t.entries := rfl
  rw [checkConsistency, start]
  rcases checkBehind_cases .nil t.entries with
    ⟨ordered, counted⟩ | ⟨before, e, rest, v, split, ordered, here, stops⟩
  · rw [List.nil_append] at ordered counted
    simp only [counted]
    by_cases level : n = decisionCount t.entries
    · rw [if_neg (by omega)]
      by_cases apart : ∀ x ∈ t.assignment, x ∉ t.unassigned
      · have none : t.assignment.keys.filter t.unassigned.contains = [] := by
          simpa [OrderedMap.mem_iff] using apart
        rw [if_neg (not_not.mpr none)]
        by_cases covers : ∀ x, x ∈ t.assignment ∨ x ∈ t.unassigned ↔ x ∈ t.scope
        · simp only [covers_iff.mpr covers, Bool.not_true, Bool.false_eq_true, if_false]
          by_cases held : ∀ x, x ∈ t.assignment ↔ x ∈ t.holders
          · exact .inl ⟨⟨ordered.placed, ordered.layered, level, apart, covers, held⟩,
              by simp [held_iff.mpr held]⟩
          · exact .inr ⟨_, .holdersDiffer held, by simp [mt held_iff.mp held]⟩
        · exact .inr ⟨_, .scopeNotCovered covers, by simp [mt covers_iff.mp covers]⟩
      · push Not at apart
        obtain ⟨x, bound, open_⟩ := apart
        have some : t.assignment.keys.filter t.unassigned.contains ≠ [] :=
          List.ne_nil_of_mem (List.mem_filter.mpr ⟨bound, by simpa using open_⟩)
        exact .inr ⟨_, .assignedAndOpen x bound open_, if_pos some⟩
    · exact .inr ⟨_, .decisionCount level, if_pos (by omega)⟩
  · exact .inr ⟨v, .disorder before e rest v split ordered here, by simp only [stops]⟩

theorem checkConsistency_eq_ok_iff : t.checkConsistency n = .ok () ↔ t.Consistent n := by
  rcases checkConsistency_cases t n with ⟨consistent, passed⟩ | ⟨v, defect, failed⟩
  · exact iff_of_true passed consistent
  · exact iff_of_false (by simp [failed]) fun consistent => consistent.not_defect defect

theorem Recorded.checkConsistency_eq_ok (recorded : t.Recorded) (layered : Layered t.entries) :
    t.checkConsistency (decisionCount t.entries) = .ok () :=
  checkConsistency_eq_ok_iff.mpr
    { placed := recorded.placed
      layered := layered
      level := rfl
      apart := fun _ => recorded.not_mem_unassigned
      covers := fun _ => recorded.mem_scope_iff.symm
      held := fun _ => by
        rw [OrderedMap.mem_iff, OrderedMap.mem_iff, recorded.keys_assignment, recorded.keys_holders] }

/-- The check passes exactly if every entry stands at its place on the level that counts the decisions
up to it, the decisions are as many as the level asked about, bound and open variables part the
scope, and the bound ones are those that are held. Otherwise it reports a defect that there is. -/
theorem consistency_check_exact (t : Trail) (n : Int) :
    (t.checkConsistency n = .ok () ↔
      (∀ (i : Nat) (e : Entry), t.entries[i]? = some e → e.index = i) ∧
      (∀ (i : Nat) (e : Entry), t.entries[i]? = some e →
        e.level = (t.entries.take (i + 1)).countP Entry.isDecision) ∧
      t.entries.countP Entry.isDecision = n ∧
      (∀ x, ¬(x ∈ t.assignment ∧ x ∈ t.unassigned)) ∧
      (∀ x, x ∈ t.assignment ∨ x ∈ t.unassigned ↔ x ∈ t.scope) ∧
      ∀ x, x ∈ t.assignment ↔ x ∈ t.holders) ∧
    ∀ v, t.checkConsistency n = .error v → t.Defect n v := by
  refine ⟨checkConsistency_eq_ok_iff.trans ⟨fun consistent => ?_, ?_⟩, fun v failed => ?_⟩
  · have each := InOrder.iff_getElem?.mp ⟨consistent.placed, consistent.layered⟩
    exact ⟨fun i e found => (each i e found).1, fun i e found => (each i e found).2,
      consistent.level.symm, fun x both => consistent.apart x both.1 both.2, consistent.covers,
      consistent.held⟩
  · rintro ⟨places, levels, level, apart, covers, held⟩
    have ordered : InOrder t.entries :=
      InOrder.iff_getElem?.mpr fun i e found => ⟨places i e found, levels i e found⟩
    exact ⟨ordered.placed, ordered.layered, level.symm, fun x bound open_ => apart x ⟨bound, open_⟩,
      covers, held⟩
  · rcases checkConsistency_cases t n with ⟨-, passed⟩ | ⟨v', defect, reported⟩
    · simp [passed] at failed
    · obtain rfl : v' = v := by simpa [reported] using failed
      exact defect

end Backjump.Trail
