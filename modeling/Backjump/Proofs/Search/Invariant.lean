import Backjump.Proofs.Analysis.Explanation
import Backjump.Proofs.Decider
import Backjump.Proofs.Solver.Propagation
import Backjump.Solver.Step

/-! The invariant of a search. Beside a coherent state it says where the search
comes from: the formula starts with the input and follows from it, every decision
was the decider's choice at its time, and no clause, learned ones included, was
left urgent below the current level. Each phase adds what its transition may rely
on. -/
namespace Backjump

/-- The literal is the decider's choice once the entries are made. -/
def Decider.Chooses (d : Decider) (es : List Entry) (l : Literal) : Prop :=
  l.positive = d.prefers l.symbol ∧ ∃ before after, d.priority = before ++ l.symbol :: after ∧
    ∀ x ∈ before, ∃ e ∈ es, e.symbol = x

/-- What holds in every phase of a search for the formula. -/
structure Searching (setup : Setup) (f : Formula) (s : Solver) (clash : Option Clash) : Prop
    extends s.Coherent clash where
  setup_eq : s.setup = setup
  scope_eq : s.trail.scope = f.symbols
  decider_eq : s.decider = Decider.make setup.strategy f
  input : f.clauses <+: s.formula.clauses
  known : s.Known
  entailed : ∀ m, f.TrueIn m → s.formula.TrueIn m
  chosen : Built (fun before e => e.isDecision = true → s.decider.Chooses before e.literal)
    s.trail.entries
  settled : ∀ n, 0 ≤ n → n < s.level → Settled s.formula (upTo n s.trail.entries)

/-- The same search at the same point of its trail. -/
structure Solver.SameTrail (s' s : Solver) : Prop where
  setup : s'.setup = s.setup
  decider : s'.decider = s.decider
  trail : s'.trail = s.trail
  formula : s'.formula = s.formula
  level : s'.level = s.level

/-- What a search relies on in each phase. -/
inductive Stage (setup : Setup) (f : Formula) (s : Solver) : Prop where
  | propagate : s.phase = .propagate → Searching setup f s none → Stage setup f s
  | fixpoint : s.phase = .fixpoint → Searching setup f s none →
      Settled s.formula s.trail.entries → Stage setup f s
  | decide : s.phase = .decide → Searching setup f s none → Settled s.formula s.trail.entries →
      s.trail.unassigned ≠ [] → Stage setup f s
  | conflict {k : Clash} : s.phase = .conflict → Searching setup f s (some k) →
      k.position = s.trail.entries.length → Stage setup f s
  | backtrack {k : Clash} {a : Analysis} {rest : List Literal} : s.phase = .backtrack →
      Searching setup f s (some k) → k.position = s.trail.entries.length → 0 < s.level →
      s.pending = some a → a.Explains s.formula s.trail.entries s.level rest → Stage setup f s
  | satisfied {m : OrderedMap Symbol Bool} : s.phase = .satisfied → Searching setup f s none →
      Settled s.formula s.trail.entries → s.trail.unassigned = [] →
      s.verdict = some (.satisfiable m) → m.keys = f.symbols →
      m.get? = valuationOf s.trail.entries → Stage setup f s
  | unsatisfiable {k : Clash} : s.phase = .unsatisfiable → Searching setup f s (some k) →
      k.position = s.trail.entries.length → s.level = 0 → s.verdict = some .unsatisfiable →
      Stage setup f s

variable {setup : Setup} {f : Formula} {s s' : Solver} {clash clash' : Option Clash} {k : Clash}
  {c : Clause} {l : Literal} {place : Nat} {graph : ImplicationGraph} {new : List Entry}

namespace Solver

/-- The state after a transition to a phase. -/
def enter (s : Solver) (phase : Phase) : Solver := { s with phase := phase, steps := s.steps + 1 }

/-- A new solver before its first snapshot. -/
def blank (setup : Setup) (f : Formula) : Solver :=
  { setup := setup, formula := f, inputSize := f.size, trail := Trail.start f.symbols,
    graph := .empty, decider := Decider.make setup.strategy f, level := 0, phase := .propagate,
    pending := none, lastLearned := none, verdict := none, steps := 0, decisions := 0,
    conflicts := 0, propagations := 0, history := #[], log := #[] }

theorem sameTrail_record (s : Solver) : s.record.SameTrail s := by
  unfold record
  split <;> exact ⟨rfl, rfl, rfl, rfl, rfl⟩

theorem graph_record (s : Solver) : s.record.graph = s.graph := by
  unfold record
  split <;> rfl

theorem pending_record (s : Solver) : s.record.pending = s.pending := by
  unfold record
  split <;> rfl

theorem Coherent.congr (coherent : s.Coherent clash) (trail : s'.trail = s.trail)
    (formula : s'.formula = s.formula) (level : s'.level = s.level) (graph : s'.graph = s.graph) :
    s'.Coherent clash where
  trail := trail ▸ coherent.trail
  layered := trail ▸ coherent.layered
  level := by rw [trail, level, coherent.level]
  justified := by rw [trail, formula]; exact coherent.justified
  graph := by rw [trail, formula, graph]; exact coherent.graph
  clash := by rw [trail, formula]; exact coherent.clash

end Solver

namespace Searching

/-- A coherent state at the same point of the trail is of the same search. -/
theorem redraw (searching : Searching setup f s clash) (coherent : s'.Coherent clash')
    (same : s'.SameTrail s) : Searching setup f s' clash' where
  toCoherent := coherent
  setup_eq := same.setup.trans searching.setup_eq
  scope_eq := by rw [same.trail, searching.scope_eq]
  decider_eq := same.decider.trans searching.decider_eq
  input := by rw [same.formula]; exact searching.input
  known := by rw [Solver.Known, same.formula, same.trail]; exact searching.known
  entailed := by rw [same.formula]; exact searching.entailed
  chosen := by rw [same.decider, same.trail]; exact searching.chosen
  settled := by rw [same.formula, same.trail, same.level]; exact searching.settled

theorem congr (searching : Searching setup f s clash) (same : s'.SameTrail s)
    (graph : s'.graph = s.graph) : Searching setup f s' clash :=
  searching.redraw (searching.toCoherent.congr same.trail same.formula same.level graph) same

theorem enter (searching : Searching setup f s clash) (phase : Phase) :
    Searching setup f (s.enter phase) clash :=
  searching.congr ⟨rfl, rfl, rfl, rfl, rfl⟩ rfl

theorem nodup_scope (searching : Searching setup f s clash) : s.trail.scope.Nodup := by
  rw [searching.scope_eq]
  exact f.symbols_nodup

theorem mem_priority (searching : Searching setup f s clash) {x : Symbol} :
    x ∈ s.decider.priority ↔ x ∈ s.trail.scope := by
  rw [searching.decider_eq, (Decider.priority_perm _ _).mem_iff, searching.scope_eq]

theorem start (setup : Setup) (f : Formula) : Searching setup f (Solver.start setup f) none := by
  have blank : Searching setup f (Solver.blank setup f) none :=
    { trail := Trail.recorded_start _
      layered := Built.nil
      level := rfl
      justified := Built.nil
      graph := ImplicationGraph.Draws.empty
      clash := by simp
      setup_eq := rfl
      scope_eq := rfl
      decider_eq := rfl
      input := List.prefix_refl _
      known := fun c member l listed =>
        List.mem_eraseDups.mpr (List.mem_flatMap.mpr ⟨c, member, List.mem_map_of_mem listed⟩)
      entailed := fun _ model => model
      chosen := Built.nil
      settled := fun n nonneg below => absurd below (Int.not_lt.mpr nonneg) }
  exact blank.congr (Solver.sameTrail_record _) (Solver.graph_record _)

/-- A model that makes the decisions up to a level true makes all entries up to it true. -/
theorem trueIn_of_decisions {m : Interpretation} (searching : Searching setup f s clash)
    (model : f.TrueIn m) {n : Int} (agrees : ∀ e ∈ s.trail.entries, e.isDecision = true →
      e.level ≤ n → e.literal.TrueIn m) :
    ∀ e ∈ s.trail.entries, e.level ≤ n → e.literal.TrueIn m := by
  have calm : ∀ c ∈ s.formula.clauses, ¬c.Urgent m.valuation := fun c listed =>
    Clause.not_urgent_of_trueIn (searching.entailed m model c listed)
  let low (key : Key) : Prop := ∃ e ∈ s.trail.entries, key = some e.symbol ∧ e.level ≤ n
  have closed : ∀ e ∈ s.trail.entries, low (some e.symbol) →
      e.literal.value m.valuation = some true ∨
        e.isDecision = false ∧ ∀ key ∈ e.sources s.formula, low key := by
    rintro e member ⟨e', member', same, below⟩
    obtain rfl := searching.eq_of_symbol member member' (Option.some.inj same)
    cases decision : e.isDecision with
    | true => exact .inl (Literal.value_valuation_eq_true.mpr (agrees e member decision below))
    | false =>
      refine .inr ⟨rfl, fun key source => ?_⟩
      obtain ⟨e', member', same, lower⟩ := searching.exists_source_entry member source
      exact ⟨e', member', same, Int.le_trans lower below⟩
  intro e member below
  have made := value_eq_true_of_closed searching.justified calm closed e member ⟨e, member, rfl, below⟩
  exact Literal.value_valuation_eq_true.mp made

end Searching

end Backjump
