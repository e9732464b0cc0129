import Backjump.Decider.Score
import Backjump.Trail

/-! Decision heuristics. The ordered one takes the first open variable and makes
it true. The other one takes the open variable with the best score, the first
of them on a tie, and the polarity that scores better. Order and scores are
those of the formula the decider was made for, whatever is learned later. -/
namespace Backjump

inductive Strategy where
  | ordered
  | jeroslow
  deriving DecidableEq

namespace Strategy

def all : List Strategy := [ordered, jeroslow]

def name : Strategy → String
  | ordered => "ORDERED"
  | jeroslow => "JEROSLOW"

def lowerName : Strategy → String
  | ordered => "ordered"
  | jeroslow => "jeroslow"

def ofName? (name : String) : Option Strategy := all.find? fun s => s.name == name

end Strategy

inductive Decider where
  | ordered (order : List Symbol)
  | jeroslow (weights : OrderedMap Symbol Weights)
  deriving DecidableEq

namespace Decider

def make (strategy : Strategy) (f : Formula) : Decider :=
  match strategy with
  | .ordered => ordered f.symbols
  | .jeroslow => jeroslow f.weights

/-- The first candidate of the highest score. -/
def best : List (Symbol × Weights) → Option (Symbol × Weights)
  | [] => none
  | p :: rest =>
    match best rest with
    | none => some p
    | some q => if p.2.score < q.2.score then some q else some p

/-- The literal to decide next; `none` when no variable of the formula is open. -/
def pick (d : Decider) (t : Trail) : Option Literal :=
  match d with
  | ordered order => (order.find? t.unassigned.contains).map (⟨·, true⟩)
  | jeroslow weights =>
    (best (weights.entries.filter fun p => t.unassigned.contains p.1)).map fun p =>
      ⟨p.1, p.2.polarity⟩

/-- The score of a variable, where the heuristic has scores. -/
def score (d : Decider) (s : Symbol) : Except Fault Score :=
  match d with
  | ordered _ => .error .noScores
  | jeroslow weights =>
    match weights.get? s with
    | some w => .ok w.score
    | none => .error (.absentKey (some s))

end Decider

theorem Trail.length_unassigned_push_lt {t : Trail} {e : Entry} (h : e.symbol ∈ t.unassigned) :
    (t.push e).unassigned.length < t.unassigned.length := by
  have : (t.unassigned.filter (· != e.symbol)).length < t.unassigned.length :=
    List.length_filter_lt_length_iff_exists.mpr ⟨e.symbol, h, by simp⟩
  simpa [Trail.push] using this

/-- An assignment that succeeds takes its variable from the open ones. -/
theorem Trail.length_unassigned_assign_lt {t t' : Trail} {l : Literal} {level : Int}
    {antecedent : Option Int} (h : t.assign l level antecedent = .ok t') :
    t'.unassigned.length < t.unassigned.length := by
  unfold Trail.assign at h
  split at h
  · split at h <;> simp at h
  · split at h
    · simp at h
    · rename_i open_
      split at h
      · simp at h
      · cases h
        exact length_unassigned_push_lt (by simpa [nextEntry, Entry.symbol] using open_)

namespace Decider

/-- Decides and assigns, each on a level of its own, until nothing is open. -/
def pickAll (d : Decider) (t : Trail) : Attempt Trail (List Literal) :=
  match d.pick t with
  | none => (.ok [], t)
  | some l =>
    match _assigned : t.assign l (t.topLevel + 1) none with
    | .error f => (.error f, t)
    | .ok t' => (pickAll d t').andThen fun ls t => (.ok (l :: ls), t)
termination_by t.unassigned.length
decreasing_by exact Trail.length_unassigned_assign_lt _assigned

end Decider

end Backjump
