import Backjump.Proofs.Graph.Removal
import Backjump.Proofs.Trail.Record
import Backjump.Solver.Search

/-! Trail and graph of a solver as two views of one list of entries. Each implied
entry was forced by its antecedent under the entries before it, and the graph
draws every entry with the other variables of its antecedent as sources. A
conflict is drawn after the entries that falsified its clause; a decision made
while it stands would come after it. -/
namespace Backjump

/-- An entry that is no decision was forced by its antecedent under the entries before it. -/
def Justified (f : Formula) (before : List Entry) (e : Entry) : Prop :=
  ∀ i, e.antecedent = some i → ∃ (place : Nat) (c : Clause),
    i = place ∧ f.clauses[place]? = some c ∧ c.Forces (valuationOf before) e.literal

/-- The other variables of an entry's antecedent. -/
def Entry.sources (f : Formula) (e : Entry) : List Key :=
  match e.antecedent with
  | none => []
  | some i => (f.clauseAt? i).elim [] fun c => Solver.reasons c e.literal

def Entry.vertex (e : Entry) : Vertex := ⟨some e.literal, e.level, e.isDecision, e.antecedent⟩

theorem Entry.exists_antecedent {e : Entry} (implied : e.isDecision = false) :
    ∃ i, e.antecedent = some i := by
  rwa [isDecision, Option.isNone_eq_false_iff, Option.isSome_iff_exists] at implied

@[simp] theorem Entry.literal_vertex (e : Entry) : e.vertex.literal = some e.literal := rfl

@[simp] theorem Entry.level_vertex (e : Entry) : e.vertex.level = e.level := rfl

@[simp] theorem Entry.isDecision_vertex (e : Entry) : e.vertex.isDecision = e.isDecision := rfl

def Entry.arrival (f : Formula) (e : Entry) : Arrival := ⟨e.vertex, e.sources f⟩

/-- A falsified clause, and how many entries there were when it was found. -/
structure Clash where
  position : Nat
  level : Int
  place : Nat
  clause : Clause

namespace Clash

def arrival (k : Clash) : Arrival :=
  ⟨ImplicationGraph.conflictVertex k.level (some k.place), k.clause.symbols.map some⟩

structure Witnessed (k : Clash) (f : Formula) (es : List Entry) : Prop where
  clause : f.clauses[k.place]? = some k.clause
  position : k.position ≤ es.length
  level : k.level = decisionCount (es.take k.position)
  falsified : k.clause.Falsified (valuationOf (es.take k.position))

end Clash

/-- What a graph shows of the entries and of the conflict, in order of arrival. -/
def arrivals (f : Formula) (es : List Entry) : Option Clash → List Arrival
  | none => es.map (Entry.arrival f)
  | some k => (es.take k.position).map (Entry.arrival f) ++
      k.arrival :: (es.drop k.position).map (Entry.arrival f)

variable {f g : Formula} {es front : List Entry} {e : Entry} {c : Clause} {l : Literal}
  {clash : Option Clash} {k : Clash} {x : Symbol} {level : Int}

theorem Formula.clauseAt?_natCast (f : Formula) (place : Nat) :
    f.clauseAt? place = f.clauses[place]? :=
  elementAt?_natCast _ _

theorem Formula.clauses_prefix_add (f : Formula) (c : Clause) (learned : Bool) :
    f.clauses <+: (f.add c learned).clauses :=
  List.prefix_append ..

theorem Formula.getElem?_of_prefix {place : Nat} (extended : f.clauses <+: g.clauses)
    (found : f.clauses[place]? = some c) : g.clauses[place]? = some c := by
  obtain ⟨inside, rfl⟩ := List.getElem?_eq_some_iff.mp found
  exact List.prefix_iff_getElem?.mp extended place inside

namespace Clause

theorem symbols_nodup (c : Clause)
    (apart : ∀ l ∈ c.literals, ∀ k ∈ c.literals, l.symbol = k.symbol → l = k) : c.symbols.Nodup :=
  c.nodup.map_on apart

theorem eq_of_value_false {v : Valuation} {k : Literal} (hl : l.value v = some false)
    (hk : k.value v = some false) (same : l.symbol = k.symbol) : l = k := by
  rw [Literal.value_eq_false, same] at hl
  rw [Literal.value_eq_false, hl] at hk
  obtain ⟨_, _⟩ := l
  obtain ⟨_, _⟩ := k
  simp_all

theorem Falsified.symbols_nodup {v : Valuation} (falsified : c.Falsified v) : c.symbols.Nodup :=
  c.symbols_nodup fun l member k member' same =>
    eq_of_value_false (falsified l member) (falsified k member') same

theorem Forces.symbols_nodup {v : Valuation} (forces : c.Forces v l) : c.symbols.Nodup := by
  apply c.symbols_nodup
  intro j member k member' same
  by_cases isForced : j = l
  · subst isForced
    by_contra different
    exact forces.symbol_ne member' (Ne.symm different) same.symm
  · by_cases isForced' : k = l
    · subst isForced'
      exact absurd same (forces.symbol_ne member isForced)
    · exact eq_of_value_false (forces.others j member isForced) (forces.others k member' isForced') same

end Clause

theorem mem_reasons {key : Key} : key ∈ Solver.reasons c l ↔
    ∃ k ∈ c.literals, k.symbol ≠ l.symbol ∧ key = some k.symbol := by
  simp only [Solver.reasons, Clause.symbols, List.mem_map, List.mem_filter, bne_iff_ne]
  constructor
  · rintro ⟨_, ⟨⟨k, member, rfl⟩, other⟩, rfl⟩
    exact ⟨k, member, other, rfl⟩
  · rintro ⟨k, member, other, rfl⟩
    exact ⟨k.symbol, ⟨⟨k, member, rfl⟩, other⟩, rfl⟩

theorem reasons_nodup (distinct : c.symbols.Nodup) : (Solver.reasons c l).Nodup :=
  (distinct.filter _).map fun _ _ same => Option.some.inj same

/-- Each variable that forced a literal is held by an entry before it, against the clause. -/
theorem exists_entry_of_reason {key : Key} (forces : c.Forces (valuationOf front) l)
    (reason : key ∈ Solver.reasons c l) : ∃ e ∈ front, key = some e.symbol := by
  obtain ⟨k, member, other, rfl⟩ := mem_reasons.mp reason
  have different : k ≠ l := fun same => other (congrArg Literal.symbol same)
  obtain ⟨e, inFront, negated⟩ := mem_of_value_false (forces.others k member different)
  exact ⟨e, inFront, by rw [Entry.symbol, negated, Literal.symbol_negate]⟩

theorem exists_entry_of_falsified {key : Key} (falsified : c.Falsified (valuationOf es))
    (member : key ∈ c.symbols.map some) : ∃ e ∈ es, key = some e.symbol := by
  obtain ⟨x, inClause, rfl⟩ := List.mem_map.mp member
  obtain ⟨l, literal, rfl⟩ := List.mem_map.mp inClause
  obtain ⟨e, held, negated⟩ := mem_of_value_false (falsified l literal)
  exact ⟨e, held, by rw [Entry.symbol, negated, Literal.symbol_negate]⟩

namespace Justified

theorem sources_eq {place : Nat} (antecedent : e.antecedent = some (place : Int))
    (found : f.clauses[place]? = some c) : e.sources f = Solver.reasons c e.literal := by
  rw [Entry.sources, antecedent]
  simp only [Formula.clauseAt?_natCast, found, Option.elim_some]

theorem sources_of_decision (decision : e.antecedent = none) : e.sources f = [] := by
  rw [Entry.sources, decision]

/-- The sources of an entry are held by entries before it. -/
theorem exists_entry_of_source {key : Key} (justified : Justified f front e)
    (source : key ∈ e.sources f) : ∃ e' ∈ front, key = some e'.symbol := by
  cases antecedent : e.antecedent with
  | none => simp [sources_of_decision antecedent] at source
  | some i =>
    obtain ⟨place, c, rfl, found, forces⟩ := justified i antecedent
    rw [sources_eq antecedent found] at source
    exact exists_entry_of_reason forces source

/-- Each other literal of the antecedent is made false by a source. -/
theorem exists_source_of_literal {place : Nat} (antecedent : e.antecedent = some (place : Int))
    (found : f.clauses[place]? = some c) (forces : c.Forces (valuationOf front) e.literal)
    (member : l ∈ c.literals) (different : l ≠ e.literal) :
    ∃ source ∈ front, source.literal = l.negate ∧ some source.symbol ∈ e.sources f := by
  obtain ⟨source, earlier, against⟩ := mem_of_value_false (forces.others l member different)
  refine ⟨source, earlier, against, ?_⟩
  rw [sources_eq antecedent found, mem_reasons]
  exact ⟨l, member, forces.symbol_ne member different, by
    rw [Entry.symbol, against, Literal.symbol_negate]⟩

theorem extend (justified : Justified f front e) (extended : f.clauses <+: g.clauses) :
    Justified g front e := by
  intro i antecedent
  obtain ⟨place, c, rfl, found, forces⟩ := justified i antecedent
  exact ⟨place, c, rfl, Formula.getElem?_of_prefix extended found, forces⟩

theorem arrival_eq (justified : Justified f front e) (extended : f.clauses <+: g.clauses) :
    e.arrival g = e.arrival f := by
  rw [Entry.arrival, Entry.arrival]
  cases antecedent : e.antecedent with
  | none => rw [sources_of_decision antecedent, sources_of_decision antecedent]
  | some i =>
    obtain ⟨place, c, rfl, found, _⟩ := justified i antecedent
    rw [sources_eq antecedent found, sources_eq antecedent (Formula.getElem?_of_prefix extended found)]

end Justified

theorem Clash.key_arrival (k : Clash) : k.arrival.key = none := rfl

theorem mem_arrivals {a : Arrival} : a ∈ arrivals f es clash ↔
    (∃ e ∈ es, e.arrival f = a) ∨ ∃ k, clash = some k ∧ k.arrival = a := by
  cases clash with
  | none => simp [arrivals]
  | some k =>
    rw [arrivals, List.mem_append, List.mem_cons, List.mem_map, List.mem_map]
    constructor
    · rintro (⟨e, member, same⟩ | rfl | ⟨e, member, same⟩)
      · exact .inl ⟨e, List.mem_of_mem_take member, same⟩
      · exact .inr ⟨k, rfl, rfl⟩
      · exact .inl ⟨e, List.mem_of_mem_drop member, same⟩
    · rintro (⟨e, member, same⟩ | ⟨_, same, rfl⟩)
      · rw [← List.take_append_drop k.position es] at member
        rcases List.mem_append.mp member with early | late
        · exact .inl ⟨e, early, same⟩
        · exact .inr (.inr ⟨e, late, same⟩)
      · cases same
        exact .inr (.inl rfl)

theorem mem_keys_arrivals : some x ∈ (arrivals f es clash).map Arrival.key ↔
    ∃ e ∈ es, e.symbol = x := by
  rw [List.mem_map]
  constructor
  · rintro ⟨a, member, key⟩
    rcases mem_arrivals.mp member with ⟨e, held, rfl⟩ | ⟨k, _, rfl⟩
    · exact ⟨e, held, Option.some.inj key⟩
    · contradiction
  · rintro ⟨e, held, rfl⟩
    exact ⟨e.arrival f, mem_arrivals.mpr (.inl ⟨e, held, rfl⟩), rfl⟩

theorem none_mem_keys_arrivals : none ∈ (arrivals f es clash).map Arrival.key ↔ clash.isSome := by
  rw [List.mem_map]
  constructor
  · rintro ⟨a, member, key⟩
    rcases mem_arrivals.mp member with ⟨e, _, rfl⟩ | ⟨k, rfl, _⟩
    · contradiction
    · rfl
  · intro conflict
    obtain ⟨k, rfl⟩ := Option.isSome_iff_exists.mp conflict
    exact ⟨k.arrival, mem_arrivals.mpr (.inr ⟨k, rfl, rfl⟩), rfl⟩

theorem arrivals_snoc (inside : ∀ k, clash = some k → k.position ≤ es.length) :
    arrivals f (es ++ [e]) clash = arrivals f es clash ++ [e.arrival f] := by
  cases clash with
  | none => simp [arrivals]
  | some k =>
    have inside := inside k rfl
    simp [arrivals, List.take_append_of_le_length inside, List.drop_append_of_le_length inside]

theorem arrivals_clash (behind : k.position = es.length) :
    arrivals f es (some k) = arrivals f es none ++ [k.arrival] := by
  simp [arrivals, behind]

/-- Further clauses at the end of the formula change nothing in the drawing of justified entries. -/
theorem arrivals_of_prefix (justified : Built (Justified f) es) (extended : f.clauses <+: g.clauses) :
    arrivals g es none = arrivals f es none := by
  apply List.map_congr_left
  intro e member
  obtain ⟨_, _, _, holds⟩ := justified.exists_split member
  exact holds.arrival_eq extended

theorem staysAt_arrival : (e.arrival f).staysAt level = decide (e.level ≤ level) := Bool.and_true _

theorem filter_staysAt_map :
    (es.map (Entry.arrival f)).filter (Arrival.staysAt level) =
      (upTo level es).map (Entry.arrival f) := by
  rw [List.filter_map, upTo]
  congr 1
  apply List.filter_congr
  intro e _
  exact staysAt_arrival

/-- A cut at a level drops the conflict and the entries above. -/
theorem filter_staysAt_arrivals :
    (arrivals f es clash).filter (Arrival.staysAt level) = arrivals f (upTo level es) none := by
  cases clash with
  | none => exact filter_staysAt_map
  | some k =>
    have drops : Arrival.staysAt level k.arrival = false := by
      simp [Arrival.staysAt, Clash.arrival, ImplicationGraph.conflictVertex, Vertex.isConflict]
    rw [arrivals, arrivals, List.filter_append, List.filter_cons_of_neg (by simp [drops]),
      filter_staysAt_map, filter_staysAt_map, ← List.map_append, ← upTo_append,
      List.take_append_drop]

namespace Solver

/-- Trail and graph show the same entries, and the graph shows the conflict if there is one. -/
structure Coherent (s : Solver) (clash : Option Clash) : Prop where
  trail : s.trail.Recorded
  layered : Layered s.trail.entries
  level : s.level = decisionCount s.trail.entries
  justified : Built (Justified s.formula) s.trail.entries
  graph : s.graph.Draws (arrivals s.formula s.trail.entries clash)
  clash : ∀ k, clash = some k → k.Witnessed s.formula s.trail.entries

namespace Coherent

variable {s : Solver}

theorem level_le (coherent : s.Coherent clash) : ∀ e ∈ s.trail.entries, e.level ≤ s.level := by
  rw [coherent.level]
  exact coherent.layered.level_le

theorem level_nonneg (coherent : s.Coherent clash) : 0 ≤ s.level := by
  rw [coherent.level]
  exact Int.natCast_nonneg _

theorem conflict?_eq (coherent : s.Coherent clash) :
    s.graph.conflict? = clash.map fun k => k.arrival.vertex := by
  rw [ImplicationGraph.conflict?]
  cases clash with
  | none =>
    have absent : none ∉ (arrivals s.formula s.trail.entries none).map Arrival.key := by
      simp [none_mem_keys_arrivals]
    rw [coherent.graph.get?_of_not_mem absent]
    rfl
  | some k =>
    have member : k.arrival ∈ arrivals s.formula s.trail.entries (some k) :=
      mem_arrivals.mpr (.inr ⟨k, rfl, rfl⟩)
    have found := coherent.graph.get?_of_mem member
    rw [k.key_arrival] at found
    rw [found]
    rfl

theorem isSome_conflict? (coherent : s.Coherent clash) :
    s.graph.conflict?.isSome = clash.isSome := by
  rw [coherent.conflict?_eq, Option.isSome_map]

theorem vertex_eq_ok (coherent : s.Coherent clash) (member : e ∈ s.trail.entries) :
    s.graph.vertex (some e.symbol) = .ok e.vertex :=
  coherent.graph.vertex_eq_ok (mem_arrivals.mpr (.inl ⟨e, member, rfl⟩))

theorem predecessors_eq_ok (coherent : s.Coherent clash) (member : e ∈ s.trail.entries) :
    s.graph.predecessors (some e.symbol) = .ok (e.sources s.formula) :=
  coherent.graph.predecessors_eq_ok (mem_arrivals.mpr (.inl ⟨e, member, rfl⟩))

theorem predecessors_conflict (coherent : s.Coherent (some k)) :
    s.graph.predecessors none = .ok (k.clause.symbols.map some) :=
  coherent.graph.predecessors_eq_ok (mem_arrivals.mpr (.inr ⟨k, rfl, rfl⟩))

theorem exists_source_entry (coherent : s.Coherent clash) (member : e ∈ s.trail.entries)
    {key : Key} (source : key ∈ e.sources s.formula) :
    ∃ e' ∈ s.trail.entries, key = some e'.symbol ∧ e'.level ≤ e.level := by
  obtain ⟨before, after, split, justified⟩ := coherent.justified.exists_split member
  obtain ⟨e', earlier, rfl⟩ := justified.exists_entry_of_source source
  refine ⟨e', by simp [split, earlier], rfl, ?_⟩
  have sorted := coherent.layered.sorted
  rw [split, List.pairwise_append] at sorted
  exact sorted.2.2 e' earlier e (by simp)

theorem eq_of_symbol (coherent : s.Coherent clash) {e' : Entry} (member : e ∈ s.trail.entries)
    (member' : e' ∈ s.trail.entries) (same : e.symbol = e'.symbol) : e = e' :=
  List.inj_on_of_nodup_map coherent.trail.distinct member member' same

/-- What stays at a level has its sources there. -/
theorem staysAt_closed (coherent : s.Coherent clash) :
    ∀ a ∈ arrivals s.formula s.trail.entries clash, a.staysAt level = true →
      ∀ b ∈ arrivals s.formula s.trail.entries clash, b.key ∈ a.sources → b.staysAt level = true := by
  intro a arrived stays b arrived' source
  rcases mem_arrivals.mp arrived with ⟨e, member, rfl⟩ | ⟨k, _, rfl⟩
  · obtain ⟨e', member', key, low⟩ := coherent.exists_source_entry member source
    rcases mem_arrivals.mp arrived' with ⟨e'', member'', rfl⟩ | ⟨k, _, rfl⟩
    · obtain rfl := coherent.eq_of_symbol member'' member' (Option.some.inj key)
      rw [staysAt_arrival, decide_eq_true_iff] at stays ⊢
      exact Int.le_trans low stays
    · contradiction
  · simp [Arrival.staysAt, Clash.arrival, ImplicationGraph.conflictVertex, Vertex.isConflict] at stays

end Coherent

end Solver

end Backjump
