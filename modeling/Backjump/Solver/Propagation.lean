import Backjump.Solver

/-! Unit propagation. Clauses are scanned in formula order, and the scan starts
over after every forced assignment, so each is forced by the lowest clause that
was unit or false at the time. A false clause stops the scan and becomes the
conflict vertex. Each assignment closes an open variable, which bounds the scan. -/
namespace Backjump

/-- The first clause of a list, numbered from `place`, that is false or has one literal
left to make true. -/
def firstUrgent (v : Valuation) (place : Nat) : List Clause → Option (Nat × Clause × Option Literal)
  | [] => none
  | c :: rest =>
    match c.openLiterals? v with
    | some [] => some (place, c, none)
    | some [l] => some (place, c, some l)
    | _ => firstUrgent v (place + 1) rest

namespace Solver

/-- The variables of a clause other than the one it forces. -/
def reasons (c : Clause) (l : Literal) : List Key :=
  (c.symbols.filter (· != l.symbol)).map some

/-- Makes a literal true because of a clause, and draws that in the graph. -/
def imply (s : Solver) (l : Literal) (place : Nat) (c : Clause) : Attempt Solver Unit :=
  match s.trail.assign l s.level (some place) with
  | .error f => (.error f, s)
  | .ok trail =>
    let s := { s with trail := trail }
    match s.graph.addVertex l s.level false (some place) with
    | .error f => (.error f, s)
    | .ok graph =>
      match graph.addEdgesInto (some l.symbol) (reasons c l) with
      | (.error f, graph) => (.error f, { s with graph := graph })
      | (.ok (), graph) =>
        (.ok (), report { s with graph := graph, propagations := s.propagations + 1 }
          (.implied place l s.level))

/-- Draws a false clause as the conflict. -/
def raiseConflict (s : Solver) (place : Nat) (c : Clause) : Attempt Solver Nat :=
  match s.graph.addConflict s.level (some place) (c.symbols.map some) with
  | (.error f, graph) => (.error f, { s with graph := graph })
  | (.ok (), graph) =>
    (.ok place, report { s with graph := graph } (.falsified place c s.level))

theorem trail_of_imply {s s' : Solver} {l : Literal} {place : Nat} {c : Clause}
    (h : s.imply l place c = (.ok (), s')) :
    s.trail.assign l s.level (some place) = .ok s'.trail := by
  unfold imply at h
  split at h
  · simp at h
  · rename_i trail assigned
    simp only at h
    split at h
    · simp at h
    · split at h
      · simp at h
      · cases h
        simpa [report] using assigned

/-- Scans until no clause is urgent or one is false. -/
def scan (s : Solver) : Attempt Solver (Option Nat) :=
  match firstUrgent s.trail.valuation 0 s.formula.clauses with
  | none => (.ok none, s)
  | some (place, c, none) => (s.raiseConflict place c).andThen fun i s => (.ok (some i), s)
  | some (place, c, some l) =>
    match _implied : s.imply l place c with
    | (.error f, s') => (.error f, s')
    | (.ok (), s') => scan s'
termination_by s.trail.unassigned.length
decreasing_by exact Trail.length_unassigned_assign_lt (trail_of_imply _implied)

/-- Makes all implications; answers the place of a false clause, `none` at a fixpoint. -/
def propagate (s : Solver) : Attempt Solver (Option Nat) :=
  if s.graph.conflict?.isSome then (.error (.violation .conflictPending), s) else s.scan

end Solver

end Backjump
