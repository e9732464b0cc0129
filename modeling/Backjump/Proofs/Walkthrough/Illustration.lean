import Backjump.Proofs.Disk
import Backjump.Proofs.Text.Numeral
import Backjump.Proofs.Walkthrough.Certificate
import Backjump.Proofs.Walkthrough.Chronicle

/-! The pictures of a walk. Every conflict is drawn once, in the order in which they arise, under
names that tell them apart. The graph of a conflict has a place for everything in it, so
drawing it does not fail, and what remains is that a picture may not be saved. The clauses are
printed in the order of the pictures from which they were learned; only the conflict that
refutes teaches nothing, so there is one picture more exactly if there is no model. -/
namespace Backjump

variable {files : FileAccess} {r : Walkthrough.Request} {setup : Setup} {clauses : List (List Int)}
  {f : Formula} {s : Solver} {out : String}

namespace Walkthrough

variable {ps told current : List Snapshot} {figs : List Figure} {line : String}

/-- When the search is over, each learned clause has its snapshot, and a conflict that refutes has
one more. -/
theorem Chronicle.length_eq (chronicle : Chronicle s told current) (shown : Shown s current)
    (halted : s.phase.isTerminal = true) : (conflictSnapshots s).length =
      s.learnedClauses.length + if s.phase = .unsatisfiable then 1 else 0 := by
  rw [chronicle.conflicts, List.length_append, chronicle.taught.length_eq,
    shown.length_of_halted halted]

end Walkthrough

end Backjump
