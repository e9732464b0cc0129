import Backjump.Proofs.OrderedMap
import Backjump.Proofs.Trail.Reading

/-! The four parts of a trail describe one list of entries. The assignment and the
holders list the entries' variables in trail order, the open variables are the
rest of the scope, each entry knows its place and levels never fall. Assigning
adds one entry, truncating keeps the entries up to a level, and neither breaks
the record. -/
namespace Backjump.Trail

/-- The variables with the places of the entries that hold them. -/
def holdersOf (es : List Entry) : List (Symbol × Holder) :=
  es.zipIdx.map fun p => (p.1.symbol, .onTrail p.2)

theorem holdersOf_snoc (front : List Entry) (e : Entry) :
    holdersOf (front ++ [e]) = holdersOf front ++ [(e.symbol, .onTrail front.length)] := by
  simp [holdersOf, List.zipIdx_append]

theorem map_fst_holdersOf (es : List Entry) : (holdersOf es).map Prod.fst = es.map Entry.symbol := by
  rw [holdersOf, List.map_map, ← List.zipIdx_map_fst 0 es, List.map_map, List.zipIdx_map_fst]
  rfl

/-- A holder behind the entries is none of theirs. -/
theorem holdersOf_unchanged (es : List Entry) (other : Holder) :
    (holdersOf es).map (fun p => (p.1, if p.2 = .onTrail es.length then other else p.2)) =
      holdersOf es := by
  rw [holdersOf, List.map_map]
  apply List.map_congr_left
  intro p member
  have inside : p.2 < es.length := by simpa using List.snd_lt_of_mem_zipIdx member
  simp only [Function.comp_apply, Holder.onTrail.injEq, if_neg (Nat.ne_of_lt inside)]

structure Recorded (t : Trail) : Prop where
  assignment : t.assignment.entries = t.entries.map Entry.binding
  holders : t.holders.entries = holdersOf t.entries
  unassigned : ∀ x, x ∈ t.unassigned ↔ x ∈ t.scope ∧ ∀ e ∈ t.entries, e.symbol ≠ x
  known : ∀ e ∈ t.entries, e.symbol ∈ t.scope
  placed : Built (fun (before : List Entry) e => e.index = before.length) t.entries
  sorted : t.entries.Pairwise (·.level ≤ ·.level)

/-- Two trails that record the same; the open variables are compared as a set. -/
structure Same (t' t : Trail) : Prop where
  scope : t'.scope = t.scope
  entries : t'.entries = t.entries
  holders : t'.holders = t.holders
  assignment : t'.assignment = t.assignment
  unassigned : ∀ x, x ∈ t'.unassigned ↔ x ∈ t.unassigned

theorem mem_unassigned_reopen {t : Trail} {x s : Symbol} :
    x ∈ (t.reopen s).unassigned ↔ x ∈ t.unassigned ∨ x = s := by
  unfold reopen
  split
  · rename_i open_
    exact ⟨.inl, fun h => h.elim id fun same => same ▸ open_⟩
  · simp

/-- A variable that is not open cannot be assigned. -/
theorem assign_eq_error {t : Trail} {l : Literal} (closed : l.symbol ∉ t.unassigned) (level : Int)
    (antecedent : Option Int) : ∃ fault, t.assign l level antecedent = .error fault := by
  unfold assign
  split
  · split <;> exact ⟨_, rfl⟩
  · exact ⟨_, rfl⟩

/-- The trail after its last entry was undone. -/
def withoutLast (t : Trail) (e : Entry) : Trail :=
  { t.detachLast e with
    holders := (t.detachLast e).holders.erase e.symbol
    assignment := t.assignment.erase e.symbol }.reopen e.symbol

theorem recorded_start (scope : List Symbol) : (start scope).Recorded where
  assignment := rfl
  holders := rfl
  unassigned := by simp [start]
  known := by simp [start]
  placed := .nil
  sorted := .nil

namespace Recorded

variable {t : Trail} {e : Entry} {l : Literal} {level : Int} {antecedent : Option Int}
  {x : Symbol} {b : Bool}

theorem keys_assignment (recorded : t.Recorded) : t.assignment.keys = t.entries.map Entry.symbol := by
  rw [OrderedMap.keys, recorded.assignment, List.map_map]
  rfl

theorem keys_holders (recorded : t.Recorded) : t.holders.keys = t.entries.map Entry.symbol := by
  rw [OrderedMap.keys, recorded.holders, map_fst_holdersOf]

theorem distinct (recorded : t.Recorded) : (t.entries.map Entry.symbol).Nodup :=
  recorded.keys_assignment ▸ t.assignment.keys_nodup

theorem valuation_eq (recorded : t.Recorded) : t.valuation = valuationOf t.entries := by
  funext x
  rw [valuation, OrderedMap.get?, recorded.assignment]
  rfl

/-- Scope and entries fix the trail. -/
theorem same {t' : Trail} (recorded : t.Recorded) (recorded' : t'.Recorded) (scope : t'.scope = t.scope)
    (entries : t'.entries = t.entries) : t'.Same t where
  scope := scope
  entries := entries
  holders := OrderedMap.ext (by rw [recorded'.holders, recorded.holders, entries])
  assignment := OrderedMap.ext (by rw [recorded'.assignment, recorded.assignment, entries])
  unassigned := fun x => by rw [recorded'.unassigned, recorded.unassigned, scope, entries]

theorem mem_assignment (recorded : t.Recorded) : x ∈ t.assignment ↔ ∃ e ∈ t.entries, e.symbol = x := by
  rw [OrderedMap.mem_iff, recorded.keys_assignment, List.mem_map]

/-- Bound and open variables make up the scope. -/
theorem mem_scope_iff (recorded : t.Recorded) : x ∈ t.scope ↔ x ∈ t.assignment ∨ x ∈ t.unassigned := by
  rw [recorded.unassigned, recorded.mem_assignment]
  constructor
  · intro inScope
    by_cases held : ∃ e ∈ t.entries, e.symbol = x
    · exact .inl held
    · exact .inr ⟨inScope, fun e member same => held ⟨e, member, same⟩⟩
  · rintro (⟨e, member, rfl⟩ | ⟨inScope, -⟩)
    · exact recorded.known e member
    · exact inScope

theorem not_mem_unassigned (recorded : t.Recorded) (bound : x ∈ t.assignment) : x ∉ t.unassigned := by
  intro open_
  obtain ⟨e, member, same⟩ := recorded.mem_assignment.mp bound
  exact ((recorded.unassigned x).mp open_).2 e member same

theorem symbol_ne (recorded : t.Recorded) {front back : List Entry} {e' : Entry}
    (split : t.entries = front ++ back) (early : e ∈ front) (late : e' ∈ back) :
    e.symbol ≠ e'.symbol := by
  have distinct := recorded.distinct
  rw [split, List.map_append, List.nodup_append] at distinct
  exact distinct.2.2 _ (List.mem_map_of_mem early) _ (List.mem_map_of_mem late)

theorem index_lt (recorded : t.Recorded) {front back : List Entry} {e' : Entry}
    (split : t.entries = front ++ back) (early : e ∈ front) (late : e' ∈ back) :
    e.index < e'.index := by
  obtain ⟨before, between, rfl⟩ := List.append_of_mem early
  obtain ⟨between', after, rfl⟩ := List.append_of_mem late
  have place := recorded.placed before e (between ++ (between' ++ e' :: after)) (by simp [split])
  have place' := recorded.placed (before ++ e :: between ++ between') e' after (by simp [split])
  simp only [List.length_append, List.length_cons] at place'
  omega

theorem eq_of_index (recorded : t.Recorded) {e' : Entry} (member : e ∈ t.entries)
    (member' : e' ∈ t.entries) (same : e.index = e'.index) : e = e' := by
  obtain ⟨before, after, split⟩ := List.append_of_mem member
  rw [split, List.mem_append, List.mem_cons] at member'
  rcases member' with early | rfl | late
  · have := recorded.index_lt split early (List.mem_cons_self (a := e))
    omega
  · rfl
  · have split' : t.entries = (before ++ [e]) ++ after := by simp [split]
    have := recorded.index_lt (e := e) split' (by simp) late
    omega

theorem length_le (recorded : t.Recorded) : t.entries.length ≤ t.scope.length := by
  have inScope : t.entries.map Entry.symbol ⊆ t.scope := by
    intro x member
    obtain ⟨e, inEntries, rfl⟩ := List.mem_map.mp member
    exact recorded.known e inEntries
  simpa using recorded.distinct.length_le_of_subset inScope

theorem entryFor?_of_mem (recorded : t.Recorded) (member : e ∈ t.entries) :
    t.entryFor? e.symbol = some e := by
  obtain ⟨position, found⟩ := List.mem_iff_getElem?.mp member
  have held : (e.symbol, Holder.onTrail position) ∈ t.holders.entries := by
    rw [recorded.holders]
    exact List.mem_map.mpr ⟨(e, position), List.mk_mem_zipIdx_iff_getElem?.mpr found, rfl⟩
  rw [entryFor?, OrderedMap.get?_eq_some_iff.mpr held]
  exact found

theorem topLevel_eq_of_append {front : List Entry} (split : t.entries = front ++ [e]) :
    t.topLevel = e.level := by
  simp [topLevel, split]

/-- What a trail holds after an entry for an open variable at no lower level. -/
theorem push (recorded : t.Recorded) (fresh : e.symbol ∈ t.unassigned)
    (placed : e.index = t.entries.length) (above : ∀ e' ∈ t.entries, e'.level ≤ e.level) :
    (t.push e).Recorded := by
  obtain ⟨inScope, unused⟩ := (recorded.unassigned _).mp fresh
  have absent : e.symbol ∉ t.assignment := by
    rw [recorded.mem_assignment]
    rintro ⟨e', member, same⟩
    exact unused e' member same
  have unheld : e.symbol ∉ t.holders := by
    rwa [OrderedMap.mem_iff, recorded.keys_holders, ← recorded.keys_assignment]
  exact
    { assignment := by
        simp [Trail.push, OrderedMap.entries_insert_of_not_mem absent, recorded.assignment,
          Entry.binding]
      holders := by
        simp [Trail.push, OrderedMap.entries_insert_of_not_mem unheld, recorded.holders, holdersOf_snoc]
      unassigned := by
        intro x
        simp only [Trail.push, List.mem_filter, recorded.unassigned, bne_iff_ne, List.mem_append,
          List.mem_singleton, or_imp, forall_and, forall_eq, and_assoc]
        exact and_congr_right fun _ => and_congr_right fun _ => ne_comm
      known := by
        intro e' member
        rcases List.mem_append.mp member with old | new
        · exact recorded.known e' old
        · rw [List.mem_singleton.mp new]
          exact inScope
      placed := recorded.placed.snoc placed
      sorted := by
        rw [Trail.push, List.pairwise_append]
        exact ⟨recorded.sorted, List.pairwise_singleton .., by simpa using above⟩ }

theorem level_le_topLevel (recorded : t.Recorded) : ∀ e ∈ t.entries, e.level ≤ t.topLevel := by
  intro e member
  rcases List.eq_nil_or_concat' t.entries with empty | ⟨front, last, split⟩
  · simp [empty] at member
  · rw [topLevel_eq_of_append split]
    have sorted := recorded.sorted
    rw [split] at sorted member
    rcases List.mem_append.mp member with old | new
    · exact (List.pairwise_append.mp sorted).2.2 e old last (by simp)
    · exact Int.le_of_eq (congrArg Entry.level (List.mem_singleton.mp new))

theorem assign_eq_ok (recorded : t.Recorded) (fresh : l.symbol ∈ t.unassigned)
    (above : ∀ e ∈ t.entries, e.level ≤ level) :
    t.assign l level antecedent = .ok (t.push (t.nextEntry l level antecedent)) ∧
      (t.push (t.nextEntry l level antecedent)).Recorded := by
  have absent : l.symbol ∉ t.assignment := by
    rw [recorded.mem_assignment]
    rintro ⟨e', member, same⟩
    exact ((recorded.unassigned _).mp fresh).2 e' member same
  have level_ok : ¬(t.entries ≠ [] ∧ level < t.topLevel) := by
    rintro ⟨nonempty, below⟩
    rcases List.eq_nil_or_concat' t.entries with empty | ⟨front, last, split⟩
    · exact nonempty empty
    · rw [topLevel_eq_of_append split] at below
      have := above last (by simp [split])
      omega
  refine ⟨?_, recorded.push fresh rfl above⟩
  rw [assign, if_neg absent, if_neg (not_not.mpr fresh), if_neg level_ok]

section UndoLast

variable {front : List Entry}

theorem holders_detachLast (recorded : t.Recorded) (split : t.entries = front ++ [e]) :
    (t.detachLast e).holders.entries = holdersOf front ++ [(e.symbol, .departed e)] := by
  have last : t.entries.length - 1 = front.length := by simp [split]
  simp only [detachLast, OrderedMap.mapEntries, recorded.holders, last]
  rw [split, holdersOf_snoc, List.map_append, holdersOf_unchanged]
  simp

theorem assignment_split (recorded : t.Recorded) (split : t.entries = front ++ [e]) :
    t.assignment.entries = front.map Entry.binding ++ [(e.symbol, e.literal.positive)] := by
  simp [recorded.assignment, split, Entry.binding]

theorem undoLast_eq_ok (recorded : t.Recorded) (split : t.entries = front ++ [e]) :
    t.undoLast e = (.ok (), t.withoutLast e) := by
  have held : e.symbol ∈ (t.detachLast e).holders := by
    rw [OrderedMap.mem_iff, OrderedMap.keys, recorded.holders_detachLast split]
    simp
  have bound : e.symbol ∈ t.assignment := by
    rw [recorded.mem_assignment]
    exact ⟨e, by simp [split], rfl⟩
  rw [undoLast, if_neg (not_not.mpr held)]
  exact if_neg (not_not.mpr bound)

@[simp] theorem entries_withoutLast : (t.withoutLast e).entries = t.entries.dropLast := rfl

@[simp] theorem scope_withoutLast : (t.withoutLast e).scope = t.scope := rfl

/-- Undoing the last entry leaves the record of the entries before it. -/
theorem withoutLast (recorded : t.Recorded) (split : t.entries = front ++ [e]) :
    (t.withoutLast e).Recorded := by
  have entries : (t.withoutLast e).entries = front := by simp [split]
  have unused : ∀ e' ∈ front, e'.symbol ≠ e.symbol := fun e' member =>
    recorded.symbol_ne split member (List.mem_singleton_self e)
  exact
    { assignment := by
        rw [entries]
        exact OrderedMap.entries_erase_last (recorded.assignment_split split)
      holders := by
        rw [entries]
        exact OrderedMap.entries_erase_last (recorded.holders_detachLast split)
      unassigned := by
        intro x
        have reopened : x ∈ (t.withoutLast e).unassigned ↔ x ∈ t.unassigned ∨ x = e.symbol :=
          mem_unassigned_reopen
        rw [reopened, recorded.unassigned, entries, split, scope_withoutLast]
        constructor
        · rintro (⟨inScope, absent⟩ | rfl)
          · exact ⟨inScope, fun e' member => absent e' (List.mem_append_left _ member)⟩
          · exact ⟨recorded.known e (by simp [split]), unused⟩
        · rintro ⟨inScope, absent⟩
          by_cases same : x = e.symbol
          · exact .inr same
          · refine .inl ⟨inScope, ?_⟩
            simpa [or_imp, forall_and] using ⟨absent, fun h => same h.symm⟩
      known := by
        intro e' member
        rw [entries] at member
        exact recorded.known e' (by simp [split, member])
      placed := by
        have placed := recorded.placed
        rw [split] at placed
        rw [entries]
        exact placed.front
      sorted := by
        have sorted := recorded.sorted
        rw [split] at sorted
        rw [entries]
        exact (List.pairwise_append.mp sorted).1 }

end UndoLast

theorem undoAbove_eq_ok (recorded : t.Recorded) {latestFirst : List Entry}
    (order : t.entries.reverse = latestFirst) (level : Int) :
    ∃ removed t', undoAbove level latestFirst t = (.ok removed, t') ∧ t'.Recorded ∧
      t'.scope = t.scope ∧ t'.entries = upTo level t.entries ∧
      removed = latestFirst.filter (level < ·.level) := by
  induction latestFirst generalizing t with
  | nil =>
    have empty : t.entries = [] := List.reverse_eq_nil_iff.mp order
    exact ⟨[], t, rfl, recorded, rfl, by simp [empty, upTo], rfl⟩
  | cons e earlier ih =>
    have split : t.entries = earlier.reverse ++ [e] := by
      simpa using congrArg List.reverse order
    by_cases above : level < e.level
    · have order' : (t.withoutLast e).entries.reverse = earlier := by simp [split]
      obtain ⟨removed, t', undone, recorded', scope, entries, gone⟩ :=
        ih (recorded.withoutLast split) order'
      refine ⟨e :: removed, t', ?_, recorded', scope, ?_, ?_⟩
      · simp only [undoAbove, if_pos above, recorded.undoLast_eq_ok split, Attempt.andThen_ok, undone]
      · have dropped : upTo level [e] = [] := upTo_eq_nil (by simpa using above)
        rw [entries, entries_withoutLast, split, upTo_append, dropped]
        simp
      · rw [List.filter_cons_of_pos (by simpa using above), gone]
    · have low : ∀ e' ∈ t.entries, e'.level ≤ level := by
        intro e' member
        have := recorded.level_le_topLevel e' member
        rw [topLevel_eq_of_append split] at this
        omega
      refine ⟨[], t, by rw [undoAbove, if_neg above], recorded, rfl, (upTo_eq_self low).symm, ?_⟩
      symm
      rw [List.filter_eq_nil_iff, ← order]
      intro e' member
      have := low e' (List.mem_reverse.mp member)
      simpa using this

/-- Truncating keeps exactly the entries up to the level and answers the others, last first. -/
theorem truncate_eq_ok (recorded : t.Recorded) (level : Int) :
    ∃ removed t', t.truncate level = (.ok removed, t') ∧ t'.Recorded ∧ t'.scope = t.scope ∧
      t'.entries = upTo level t.entries ∧ removed = t.entries.reverse.filter (level < ·.level) :=
  recorded.undoAbove_eq_ok rfl level

end Recorded

end Backjump.Trail
