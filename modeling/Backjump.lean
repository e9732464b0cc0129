import Backjump.Benchmark
import Backjump.Chart
import Backjump.Main
import Backjump.Proofs.Benchmark.Completion
import Backjump.Proofs.Benchmark.Restart
import Backjump.Proofs.Benchmark.TableName
import Backjump.Proofs.Benchmark.Totals
import Backjump.Proofs.Chart.Folders
import Backjump.Proofs.Dimacs.Comment
import Backjump.Proofs.Dimacs.File
import Backjump.Proofs.Dimacs.Layout
import Backjump.Proofs.Search.Accounting
import Backjump.Proofs.Search.Assertion
import Backjump.Proofs.Search.Budget
import Backjump.Proofs.Search.Calls
import Backjump.Proofs.Search.Canonical
import Backjump.Proofs.Search.Confluence
import Backjump.Proofs.Search.Entailment
import Backjump.Proofs.Search.FirstCut
import Backjump.Proofs.Search.Fixpoint
import Backjump.Proofs.Search.Learning
import Backjump.Proofs.Search.Novelty
import Backjump.Proofs.Search.Placement
import Backjump.Proofs.Search.Progress
import Backjump.Proofs.Search.Restoration
import Backjump.Proofs.Search.Safety
import Backjump.Proofs.Solver.Checker
import Backjump.Proofs.Walkthrough.Certificate
import Backjump.Proofs.Walkthrough.Illustration
