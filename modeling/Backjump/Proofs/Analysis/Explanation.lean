import Backjump.Proofs.Analysis.Refutation

/-! What an analysis answers. Its clause holds in every model of the formula. It
is the negation of one literal of the current level, the point, followed by
negations of literals of lower levels, and the target is the highest of these
levels. After going back to the target the clause therefore forces its first
literal, and at no lower level would it have been urgent. -/
namespace Backjump

/-- The highest level among the entries that make the literals false, zero for no literal. -/
structure Highest (es : List Entry) (ls : List Literal) (level : Int) : Prop where
  le : ∀ e ∈ es, e.literal.negate ∈ ls → e.level ≤ level
  attained : ls = [] ∧ level = 0 ∨ ∃ e ∈ es, e.literal.negate ∈ ls ∧ e.level = level

/-- The analysis explains a conflict at `level` by its point and other literals below. -/
structure Analysis.Explains (a : Analysis) (f : Formula) (es : List Entry) (level : Int)
    (rest : List Literal) : Prop where
  literals : a.clause.literals = a.point.negate :: rest
  learned : a.clause.learned = true
  point : ∃ e ∈ es, e.level = level ∧ e.literal = a.point
  others : ∀ l ∈ rest, ∃ e ∈ es, e.level < level ∧ l = e.literal.negate
  target : Highest es rest a.target
  entailed : ∀ m, f.TrueIn m → a.clause.TrueIn m

variable {s : Solver} {clash : Option Clash} {k : Clash} {es ahead passed : List Entry}
  {e point : Entry} {cut : Analysis.Cut} {ls rest : List Literal} {l : Literal} {level n : Int}
  {a : Analysis} {f : Formula}

theorem negate_injective {l k : Literal} (same : l.negate = k.negate) : l = k := by
  rw [← l.negate_negate, same, k.negate_negate]

theorem eq_of_literal (distinct : (es.map Entry.symbol).Nodup) {e' : Entry} (member : e ∈ es)
    (member' : e' ∈ es) (same : e.literal.negate = e'.literal.negate) : e = e' :=
  List.inj_on_of_nodup_map distinct member member' (congrArg Literal.symbol (negate_injective same))

namespace Highest

theorem nil : Highest es [] 0 := ⟨by simp, .inl ⟨rfl, rfl⟩⟩

theorem singleton (distinct : (es.map Entry.symbol).Nodup) (member : e ∈ es) :
    Highest es [e.literal.negate] e.level where
  le := by
    intro e' member' same
    exact Int.le_of_eq (congrArg _ (eq_of_literal distinct member' member (List.mem_singleton.mp same)))
  attained := .inr ⟨e, member, by simp, rfl⟩

theorem cons (distinct : (es.map Entry.symbol).Nodup) (member : e ∈ es) (highest : Highest es ls n)
    (nonempty : ls ≠ []) : Highest es (e.literal.negate :: ls) (max e.level n) where
  le := by
    intro e' member' listed
    rcases List.mem_cons.mp listed with same | old
    · rw [eq_of_literal distinct member' member same]
      exact Int.le_max_left ..
    · exact Int.le_trans (highest.le e' member' old) (Int.le_max_right ..)
  attained := by
    right
    obtain ⟨empty, -⟩ | ⟨e', member', old, rfl⟩ := highest.attained
    · exact absurd empty nonempty
    · rcases Int.le_total e.level e'.level with low | high
      · exact ⟨e', member', List.mem_cons_of_mem _ old, (Int.max_eq_right low).symm⟩
      · exact ⟨e, member, List.mem_cons_self, (Int.max_eq_left high).symm⟩

theorem congr {ks : List Literal} (highest : Highest es ls n) (same : ∀ l, l ∈ ls ↔ l ∈ ks) :
    Highest es ks n where
  le := fun e member listed => highest.le e member ((same _).mpr listed)
  attained := by
    obtain ⟨rfl, zero⟩ | ⟨e, member, listed, level⟩ := highest.attained
    · exact .inl ⟨List.eq_nil_iff_forall_not_mem.mpr fun l => by simp [← same], zero⟩
    · exact .inr ⟨e, member, (same _).mp listed, level⟩

end Highest

namespace Analysis

/-- From the falsified clause the walk comes over the entries passed to its point and reads nothing
that stands before. -/
def Reads (s : Solver) (point : Entry) (cut : Cut) (passed : List Entry) : Prop :=
  ∃ keys start, s.graph.predecessors none = .ok keys ∧
    Cut.visit s.graph s.level keys .start = .ok start ∧ start.pending ≠ 0 ∧
    ∀ others, resolve s.graph s.level (passed.reverse ++ point :: others) start = .ok (point, cut)

theorem highestLevel_eq_ok {t : Trail} (recorded : t.Recorded)
    (held : ∀ l ∈ ls, ∃ e ∈ t.entries, l = e.literal.negate) :
    ∃ n, highestLevel t ls = .ok n ∧ Highest t.entries ls n := by
  induction ls with
  | nil => exact ⟨0, rfl, .nil⟩
  | cons l rest ih =>
    rw [List.forall_mem_cons] at held
    obtain ⟨⟨e, member, rfl⟩, heldRest⟩ := held
    obtain ⟨n, found, highest⟩ := ih heldRest
    have entry : t.entryFor? e.literal.negate.symbol = some e := recorded.entryFor?_of_mem member
    cases rest with
    | nil =>
      exact ⟨e.level, by simp only [highestLevel, entry], .singleton recorded.distinct member⟩
    | cons k rest =>
      refine ⟨max e.level n, ?_, highest.cons recorded.distinct member (List.cons_ne_nil _ _)⟩
      rw [highestLevel, entry]
      simp only [found, Except.map]

section Start

variable (coherent : s.Coherent (some k)) (behind : k.position = s.trail.entries.length)
  (involved : ¬k.clause.Falsified (valuationOf (upTo (s.level - 1) s.trail.entries)))

include coherent behind involved

/-- The walk starts with the variables of the falsified clause, one of which is of the level. -/
theorem visit_conflict :
    ∃ cut, Cut.visit s.graph s.level (k.clause.symbols.map some) Cut.start = .ok cut ∧
      Walk s k cut s.trail.entries.reverse [] ∧ cut.pending ≠ 0 := by
  have falsified := falsified_of_behind coherent behind
  have tracks : Cut.start.Tracks s.trail.entries s.level s.trail.entries.reverse :=
    ⟨by simp [Cut.start], by simp [Cut.start, waitingIn]⟩
  have inside : ∀ key ∈ k.clause.symbols.map some,
      ∃ e ∈ s.trail.entries.reverse, key = some e.symbol := by
    intro key member
    obtain ⟨e, held, same⟩ := exists_entry_of_falsified falsified member
    exact ⟨e, List.mem_reverse.mpr held, same⟩
  have whole : s.trail.entries = s.trail.entries.reverse.reverse ++ [] := by simp
  obtain ⟨cut, visited, tracks', -, seen⟩ := visit_eq_ok coherent whole tracks inside
  have seen' : ∀ key, key ∈ cut.seen ↔ key ∈ k.clause.symbols.map some := by simp [seen, Cut.start]
  refine ⟨cut, visited, .start seen' tracks', ?_⟩
  intro zero
  rw [tracks'.pending, waitingIn, List.countP_eq_zero] at zero
  apply involved
  intro l member
  obtain ⟨e, held, against⟩ := mem_of_value_false (falsified l member)
  have met : some e.symbol ∈ cut.seen := by
    rw [seen', Entry.symbol, against, Literal.symbol_negate]
    exact List.mem_map_of_mem (List.mem_map_of_mem member)
  have elsewhere := zero e (List.mem_reverse.mpr held)
  simp only [met, and_true, decide_eq_true_eq] at elsewhere
  have top := coherent.level_le e held
  exact value_false_of_mem (distinct_upTo coherent.trail.distinct)
    (mem_upTo.mpr ⟨held, by omega⟩) against

theorem exists_walk :
    ∃ point cut ahead passed, Concludes s k point cut ahead passed ∧ Reads s point cut passed := by
  obtain ⟨start, visited, walk, waiting⟩ := visit_conflict coherent behind involved
  obtain ⟨point, cut, front, ahead, passed, concludes, split, resolved⟩ :=
    walk.resolve_eq_ok coherent waiting
  have same : front = passed.reverse :=
    List.append_cancel_right (split.symm.trans concludes.reverse_entries)
  subst same
  exact ⟨point, cut, ahead, passed, concludes, _, start, coherent.predecessors_conflict, visited,
    waiting, resolved⟩

end Start

/-- The literal of the point occurs once: the others are of lower levels. -/
theorem literals_ofLiterals_cons (coherent : s.Coherent clash)
    (concludes : Concludes s k point cut ahead passed) :
    (Clause.ofLiterals (point.literal.negate :: cut.learned) true).literals =
      point.literal.negate :: cut.learned.eraseDups := by
  have apart : point.literal.negate ∉ cut.learned := by
    intro listed
    obtain ⟨e, held, low, same⟩ := concludes.below _ listed
    rw [← eq_of_literal coherent.trail.distinct concludes.member held same, concludes.level] at low
    exact Int.lt_irrefl _ low
  change (point.literal.negate :: cut.learned).eraseDups = _
  rw [List.eraseDups_cons, List.filter_eq_self.mpr]
  intro l listed
  simpa using fun same : l = point.literal.negate => apart (same ▸ listed)

/-- The analysis of a conflict answers what its walk concludes. -/
structure Answers (a : Analysis) (s : Solver) (k : Clash) (point : Entry) (cut : Cut)
    (ahead passed : List Entry) : Prop where
  answered : analyzeConflict s.graph s.trail s.level = .ok a
  concludes : Concludes s k point cut ahead passed
  reads : Reads s point cut passed
  point : a.point = point.literal
  explains : a.Explains s.formula s.trail.entries s.level cut.learned.eraseDups

theorem Answers.literals (answers : a.Answers s k point cut ahead passed) :
    a.clause.literals = point.literal.negate :: cut.learned.eraseDups := by
  rw [← answers.point]
  exact answers.explains.literals

/-- Analysis of a conflict that involves the current level succeeds. -/
theorem exists_answer (coherent : s.Coherent (some k))
    (behind : k.position = s.trail.entries.length) (positive : 0 < s.level)
    (involved : ¬k.clause.Falsified (valuationOf (upTo (s.level - 1) s.trail.entries))) :
    ∃ a point cut ahead passed, Answers a s k point cut ahead passed := by
  obtain ⟨point, cut, ahead, passed, concludes, reads⟩ := exists_walk coherent behind involved
  obtain ⟨keys, start, named, visited, waiting, resolved⟩ := reads
  have walked : resolve s.graph s.level (s.trail.entries.reverse ++ s.trail.entries.reverse) start =
      .ok (point, cut) := by
    have ended := resolved (ahead ++ s.trail.entries.reverse)
    rwa [← List.cons_append, ← List.append_assoc, ← concludes.reverse_entries] at ended
  have held : ∀ l ∈ cut.learned, ∃ e ∈ s.trail.entries, l = e.literal.negate := by
    intro l listed
    obtain ⟨e, member, -, same⟩ := concludes.below l listed
    exact ⟨e, member, same⟩
  obtain ⟨target, found, highest⟩ := highestLevel_eq_ok coherent.trail held
  have range : ¬(target < 0 ∨ s.level ≤ target) := by
    obtain ⟨-, zero⟩ | ⟨e, member, listed, rfl⟩ := highest.attained
    · omega
    · have nonneg := coherent.layered.level_nonneg e member
      obtain ⟨e', member', low, same⟩ := concludes.below _ listed
      rw [← eq_of_literal coherent.trail.distinct member member' same] at low
      omega
  have isSome : s.graph.conflict?.isNone = false := by
    rw [← Option.not_isSome, coherent.isSome_conflict?]
    rfl
  refine ⟨⟨point.literal, target, .ofLiterals (point.literal.negate :: cut.learned) true⟩,
    point, cut, ahead, passed, ?_, concludes, ⟨keys, start, named, visited, waiting, resolved⟩, rfl, ?_⟩
  · simp only [analyzeConflict, if_neg (Int.not_le.mpr positive), isSome, Bool.false_eq_true, if_false,
      named, visited, if_neg waiting, walked, found, if_neg range,
      bind, Except.bind, pure, Except.pure]
  · exact
      { literals := literals_ofLiterals_cons coherent concludes
        learned := rfl
        point := ⟨point, concludes.member, concludes.level, rfl⟩
        others := fun l listed => concludes.below l (List.mem_eraseDups.mp listed)
        target := highest.congr fun l => List.mem_eraseDups.symm
        entailed := by
          intro m model
          simp only [Clause.TrueIn, Clause.ofLiterals, List.mem_eraseDups, List.mem_cons]
          rcases concludes.entailed coherent behind model with made | ⟨l, listed, made⟩
          · exact ⟨_, .inl rfl, made⟩
          · exact ⟨l, .inr listed, made⟩ }

namespace Explains

theorem member_point (explains : a.Explains f es level rest) : a.point.negate ∈ a.clause.literals := by
  rw [explains.literals]
  exact List.mem_cons_self

theorem exists_entry (explains : a.Explains f es level rest) (listed : l ∈ a.clause.literals) :
    ∃ e ∈ es, e.symbol = l.symbol := by
  rw [explains.literals, List.mem_cons] at listed
  rcases listed with rfl | listed
  · obtain ⟨e, member, -, point⟩ := explains.point
    exact ⟨e, member, by rw [Entry.symbol, point, Literal.symbol_negate]⟩
  · obtain ⟨e, member, -, rfl⟩ := explains.others l listed
    exact ⟨e, member, rfl⟩

theorem target_nonneg (explains : a.Explains f es level rest) (nonneg : ∀ e ∈ es, 0 ≤ e.level) :
    0 ≤ a.target := by
  obtain ⟨-, zero⟩ | ⟨e, member, -, same⟩ := explains.target.attained
  · exact Int.le_of_eq zero.symm
  · exact same ▸ nonneg e member

theorem target_lt (explains : a.Explains f es level rest) (distinct : (es.map Entry.symbol).Nodup)
    (positive : 0 < level) : a.target < level := by
  obtain ⟨-, zero⟩ | ⟨e, member, listed, same⟩ := explains.target.attained
  · exact zero ▸ positive
  · obtain ⟨e', member', low, against⟩ := explains.others _ listed
    rw [← same, eq_of_literal distinct member member' against]
    exact low

theorem undecided_point (explains : a.Explains f es level rest)
    (distinct : (es.map Entry.symbol).Nodup) (below : n < level) :
    a.point.negate.value (valuationOf (upTo n es)) = none := by
  rw [Literal.value_eq_none, valuationOf_eq_none]
  intro e member same
  obtain ⟨held, low⟩ := mem_upTo.mp member
  obtain ⟨e', held', here, point⟩ := explains.point
  have sameEntry : e = e' := by
    apply List.inj_on_of_nodup_map distinct held held'
    rw [same, Entry.symbol, point, Literal.symbol_negate]
  rw [sameEntry] at low
  omega

/-- At the target the clause forces the negation of the point. -/
theorem forces (explains : a.Explains f es level rest) (distinct : (es.map Entry.symbol).Nodup)
    (positive : 0 < level) : a.clause.Forces (valuationOf (upTo a.target es)) a.point.negate where
  member := explains.member_point
  undecided := explains.undecided_point distinct (explains.target_lt distinct positive)
  others := by
    intro l member different
    rw [explains.literals, List.mem_cons] at member
    have listed : l ∈ rest := member.resolve_left different
    obtain ⟨e, held, -, rfl⟩ := explains.others l listed
    have low := explains.target.le e held listed
    exact value_false_of_mem (distinct_upTo distinct) (mem_upTo.mpr ⟨held, low⟩)
      (Literal.negate_negate _).symm

/-- Below the target two literals of the clause are undecided. -/
theorem not_urgent (explains : a.Explains f es level rest) (distinct : (es.map Entry.symbol).Nodup)
    (positive : 0 < level) (nonneg : 0 ≤ n) (below : n < a.target) :
    ¬a.clause.Urgent (valuationOf (upTo n es)) := by
  obtain ⟨-, zero⟩ | ⟨e, member, listed, same⟩ := explains.target.attained
  · omega
  have lower := explains.target_lt distinct positive
  have inClause : e.literal.negate ∈ a.clause.literals := by
    rw [explains.literals]
    exact List.mem_cons_of_mem _ listed
  apply Clause.not_urgent_of_two explains.member_point inClause
  · intro isPoint
    obtain ⟨e', member', here, point⟩ := explains.point
    rw [← point] at isPoint
    rw [eq_of_literal distinct member member' isPoint] at same
    omega
  · exact explains.undecided_point distinct (by omega)
  · rw [Literal.value_eq_none, valuationOf_eq_none]
    intro e' member' sameSymbol
    obtain ⟨held, low⟩ := mem_upTo.mp member'
    rw [List.inj_on_of_nodup_map distinct held member sameSymbol, same] at low
    omega

end Explains

end Analysis

end Backjump
