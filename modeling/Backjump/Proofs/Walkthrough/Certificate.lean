import Backjump.Proofs.Search.Canonical
import Backjump.Proofs.Walkthrough.Run

/-! The line about a model. It is a layout of its integers, so what it is read back as is what
was printed: one clause, which has a literal for each variable of the file, in the order in
which they appear first, and a literal of every clause of the file. -/
namespace Backjump

variable {files : FileAccess} {r : Walkthrough.Request} {setup : Setup} {clauses : List (List Int)}
  {clause ns : List Int} {a : OrderedMap Symbol Bool} {x : Nat}
  {f : Formula} {s : Solver}

namespace Dimacs

/-- The variables of clauses, each once, in the order of first appearance. -/
def variablesOf (clauses : List (List Int)) : List Nat := (clauses.flatten.map Int.natAbs).eraseDups

/-- A literal for each variable of the clauses, among them one of every clause. -/
structure Certifies (clauses : List (List Int)) (ns : List Int) : Prop where
  complete : ns.map Int.natAbs = variablesOf clauses
  satisfies : ∀ clause ∈ clauses, ∃ n ∈ clause, n ∈ ns

theorem mem_variablesOf : x ∈ variablesOf clauses ↔ ∃ clause ∈ clauses, ∃ n ∈ clause, n.natAbs = x := by
  simp [variablesOf]

/-- Numbers with blanks between them. -/
theorem layout_intercalate (below : ∀ n ∈ ns, n.natAbs < 10 ^ Text.maxDigits) :
    Layout ns (String.intercalate " " (ns.map Text.signedNumeral)).toList := by
  have blank : Gap ' ' := .inl rfl
  induction ns with
  | nil => exact .empty
  | cons n ns ih =>
    have spelled := spells_signedNumeral (below n List.mem_cons_self)
    have behind := ih fun m mem => below m (List.mem_cons_of_mem n mem)
    cases ns with
    | nil =>
      rw [List.map_singleton, String.intercalate_singleton, ← List.append_nil (String.toList _)]
      exact .token spelled (fun _ => nofun) .empty
    | cons m ns =>
      rw [List.map_cons, List.map_cons, String.intercalate_cons_cons, ← List.map_cons,
        String.toList_append, String.toList_append, List.append_assoc]
      exact .token spelled (by rintro c ⟨⟩; exact blank) (.gap blank behind)

/-- A line of non-zero numbers without repeats is read as one clause. -/
theorem Layout.parse_singleton {text : List Char} (layout : Layout ns text) (filled : ns ≠ [])
    (nonzero : 0 ∉ ns) (nodup : ns.Nodup) : parse text = .ok [ns] := by
  have lists : Lists ns [ns] := .inr ⟨[], ns, rfl, filled, rfl⟩
  rw [layout.parse_eq, lists.group_eq (List.forall_mem_singleton.mpr nonzero), List.map_singleton,
    eraseDups_of_nodup nodup]

namespace Certifies

variable (certifies : Certifies clauses ns)
include certifies

/-- The variable of each literal comes from a clause. -/
theorem exists_source {n : Int} (mem : n ∈ ns) :
    ∃ clause ∈ clauses, ∃ k ∈ clause, k.natAbs = n.natAbs := by
  rw [← mem_variablesOf, ← certifies.complete]
  exact List.mem_map_of_mem mem

variable {text : List Char} (read : parse text = .ok clauses)
include read

/-- A certificate for the clauses of a text can be written down. -/
theorem layout : Layout ns (String.intercalate " " (ns.map Text.signedNumeral)).toList := by
  apply layout_intercalate
  intro n mem
  obtain ⟨clause, listed, k, mem, same⟩ := certifies.exists_source mem
  exact same ▸ (clauses_of_parse read listed).2.2 k mem

/-- On a line, it is read back as one clause. -/
theorem parse_line (filled : ∃ clause ∈ clauses, clause ≠ []) :
    parse (String.intercalate " " (ns.map Text.signedNumeral)).toList = .ok [ns] := by
  have nonzero : 0 ∉ ns := by
    intro mem
    obtain ⟨clause, listed, k, mem, zero⟩ := certifies.exists_source mem
    exact (clauses_of_parse read listed).1 (Int.natAbs_eq_zero.mp zero ▸ mem)
  have nodup : ns.Nodup := by
    apply List.Nodup.of_map Int.natAbs
    rw [certifies.complete]
    exact nodup_eraseDups _
  obtain ⟨clause, listed, -⟩ := filled
  obtain ⟨n, -, held⟩ := certifies.satisfies clause listed
  exact (certifies.layout read).parse_singleton (List.ne_nil_of_mem held) nonzero nodup

end Certifies

end Dimacs

theorem Problem.symbols_ofInts (nonzero : ∀ clause ∈ clauses, 0 ∉ clause) :
    (ofInts clauses).symbols = (Dimacs.variablesOf clauses).map fun x => .number x := by
  have byClause : (ofInts clauses).flatMap (·.map Literal.symbol) =
      (clauses.flatten.map Int.natAbs).map fun x : Nat => Symbol.number x := by
    induction clauses with
    | nil => rfl
    | cons clause clauses ih =>
      rw [List.forall_mem_cons] at nonzero
      have literals : clause.filterMap Literal.ofInt? = clause.map _ :=
        List.filterMap_eq_map_iff_forall_eq_some.mpr fun n mem => Literal.ofInt?_of_mem nonzero.1 mem
      rw [ofInts, List.map_cons, List.flatMap_cons, ← ofInts, ih nonzero.2, literals,
        List.flatten_cons, List.map_append, List.map_append, List.map_map, List.map_map, List.map_map]
      rfl
  have injective : Function.Injective fun x : Nat => Symbol.number x :=
    fun _ _ same => Int.ofNat.inj (Symbol.number.inj same)
  rw [symbols, byClause, eraseDups_map_of_injective injective, Dimacs.variablesOf]

namespace Interpretation

/-- A variable or its negation, whichever is true. -/
def literalOf (m : Interpretation) (x : Nat) : Int := if m (.number x) then x else -x

variable {m : Interpretation}

theorem natAbs_literalOf : (m.literalOf x).natAbs = x := by
  rw [literalOf]
  split <;> simp

theorem literalOf_natAbs {n : Int} (value : m (.number n.natAbs) = decide (0 < n)) :
    m.literalOf n.natAbs = n := by
  rw [literalOf, value]
  by_cases positive : 0 < n
  · rw [if_pos (decide_eq_true positive)]
    omega
  · rw [if_neg (by simpa using positive)]
    omega

end Interpretation

namespace Walkthrough

theorem modelLine_eq {numbers : List Nat} (keys : a.keys = numbers.map fun x => .number x) :
    modelLine a = String.intercalate " "
      ((numbers.map (Interpretation.ofMap a).literalOf).map Text.signedNumeral) := by
  rw [modelLine, entries_eq_map, keys, List.map_map, List.map_map, List.map_map]
  rfl

theorem certifies_of_solvedBy (nonzero : ∀ clause ∈ clauses, 0 ∉ clause)
    (solved : (Problem.ofInts clauses).SolvedBy a) : Dimacs.Certifies clauses
      ((Dimacs.variablesOf clauses).map (Interpretation.ofMap a).literalOf) where
  complete := by
    rw [List.map_map]
    exact (List.map_congr_left fun _ _ => Interpretation.natAbs_literalOf).trans (List.map_id _)
  satisfies clause listed := by
    obtain ⟨l, literal, found⟩ := solved.satisfied _ (List.mem_map_of_mem listed)
    obtain ⟨n, mem, isLiteral⟩ := List.mem_filterMap.mp literal
    rw [Literal.ofInt?_of_mem (nonzero clause listed) mem] at isLiteral
    cases isLiteral
    have value := Interpretation.ofMap_of_get? found
    refine ⟨n, mem, List.mem_map.mpr ⟨n.natAbs, ?_, Interpretation.literalOf_natAbs value⟩⟩
    exact Dimacs.mem_variablesOf.mpr ⟨clause, listed, n, mem, rfl⟩

/-- The line about the model of a finished search is a certificate. -/
theorem Finished.exists_certificate (finished : Finished files r setup f s)
    (renders : f.Renders (.ofInts clauses)) (nonzero : ∀ clause ∈ clauses, 0 ∉ clause)
    (verdict : s.verdict = some (.satisfiable a)) :
    ∃ ns, modelLine a = String.intercalate " " (ns.map Text.signedNumeral) ∧
      Dimacs.Certifies clauses ns := by
  have solved := finished.reached.correctFor renders finished.halted verdict
  have keys := (finished.reached.bestModel renders finished.halted verdict).2
  rw [Problem.symbols_ofInts nonzero] at keys
  exact ⟨_, modelLine_eq keys, certifies_of_solvedBy nonzero solved⟩

/-- A walk through a file with variables and a model prints the model as a line that, read as a
file, is one clause: a certificate for the clauses of the file. Otherwise its budget is spent. -/
theorem model_line_certifies (parsed : Dimacs.clausesOfFile files r.file = .ok clauses)
    (configured : r.setup = .ok setup) (filled : ∃ clause ∈ clauses, clause ≠ [])
    (satisfiable : ∃ m, (Problem.ofInts clauses).Models m) :
    (∃ k, setup.budget = some k ∧ (walk files r).output = [] ∧
        (walk files r).fault = some (.search (.budgetExhausted k))) ∨
      ∃ line rest ns, (walk files r).output = "Satisfiable" :: line :: rest ∧
        Dimacs.parse line.toList = .ok [ns] ∧ Dimacs.Certifies clauses ns := by
  obtain ⟨k, log, budget, stopped⟩ | ⟨f, s, renders, finished⟩ := walk_cases parsed configured
  · rw [stopped]
    exact .inl ⟨k, budget, rfl, rfl⟩
  right
  obtain ⟨v, verdict⟩ := finished.reached.exists_verdict finished.halted
  have correct := finished.reached.correctFor renders finished.halted verdict
  cases v with
  | unsatisfiable =>
    obtain ⟨m, models⟩ := satisfiable
    exact absurd models (correct m)
  | satisfiable a =>
    obtain ⟨text, read⟩ := Dimacs.exists_text parsed
    obtain ⟨ns, printed, certifies⟩ := finished.exists_certificate renders
      (fun clause listed => (Dimacs.clauses_of_parse read listed).1) verdict
    obtain ⟨log, report⟩ := finished.report
    obtain ⟨rest, output⟩ : ∃ rest, (walk files r).output = "Satisfiable" :: modelLine a :: rest := by
      rw [report, output_reportSearch, resultLines, verdict]
      exact ⟨_, rfl⟩
    exact ⟨_, rest, ns, output, printed ▸ certifies.parse_line read filled, certifies⟩

theorem model_line_certifies_of_unsorted :
    let text := "c signs\n07 -12 0 -7 -12 0\n12 -7 3\n"
    let files : FileAccess := ⟨fun _ => .ok text.toByteArray, fun _ => .ok (), fun _ => .ok ()⟩
    let r : Request := ⟨"signs.cnf", .value .jeroslow, .unset, .unset, false⟩
    Dimacs.clausesOfFile files r.file = .ok [[7, -12], [-7, -12], [12, -7, 3]] ∧
      ∃ line rest ns, (walk files r).output = "Satisfiable" :: line :: rest ∧
        Dimacs.parse line.toList = .ok [ns] ∧
        Dimacs.Certifies [[7, -12], [-7, -12], [12, -7, 3]] ns ∧ ns = [-7, -12, 3] := by
  intro text files r
  have parsed : Dimacs.clausesOfFile files r.file = .ok [[7, -12], [-7, -12], [12, -7, 3]] := by
    decide +kernel
  have configured : r.setup = .ok ⟨.jeroslow, none, true, true⟩ := by decide
  have models : (Problem.ofInts [[7, -12], [-7, -12], [12, -7, 3]]).Models fun x => x == .number 3 := by
    unfold Problem.Models
    decide
  have printed : (walk files r).output[1]? = some "-7 -12 3" := by decide +kernel
  obtain ⟨k, budget, -⟩ | ⟨line, rest, ns, output, read, certifies⟩ :=
    model_line_certifies parsed configured ⟨_, List.mem_cons_self, List.cons_ne_nil _ _⟩ ⟨_, models⟩
  · contradiction
  obtain rfl : line = "-7 -12 3" := by simpa [output] using printed
  refine ⟨parsed, _, rest, ns, output, read, certifies, ?_⟩
  have written : Dimacs.parse "-7 -12 3".toList = .ok [[-7, -12, 3]] := by decide +kernel
  rw [written] at read
  cases read
  rfl

end Walkthrough

end Backjump
