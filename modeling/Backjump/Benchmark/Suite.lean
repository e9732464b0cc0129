import Backjump.Disk
import Backjump.OrderedMap

/-! The instances of a benchmark, by folder. A location is a path in normal form:
slashes are not repeated and no name is `.`, while `..` stays. Instances are
grouped by the name of the directory they lie in, wherever that directory is. -/
namespace Backjump.Benchmark

/-- `root` is empty, one slash, or exactly two. -/
structure Location where
  root : String
  names : List String
  deriving DecidableEq

namespace Location

def ofText (path : String) : Location :=
  let slashes := (path.toList.takeWhile (· == '/')).length
  let root := if slashes = 0 then "" else if slashes = 2 then "//" else "/"
  ⟨root, Disk.components path⟩

def text (l : Location) : String :=
  let path := l.root ++ String.intercalate "/" l.names
  if path.isEmpty then "." else path

def name (l : Location) : String := l.names.getLast?.getD ""

/-- The name of the directory that holds it; empty for the outermost. -/
def folder (l : Location) : String := l.names.dropLast.getLast?.getD ""

end Location

/-- Groups in order of first appearance, each in the order given. -/
def groupByFolder (locations : List Location) : OrderedMap String (List Location) :=
  locations.foldl
    (fun groups l => groups.insert l.folder ((groups.get? l.folder).getD [] ++ [l])) .empty

/-- The order of paths name by name, each by its characters. -/
def namesLe : List String → List String → Bool
  | [], _ => true
  | _ :: _, [] => false
  | a :: as, b :: bs => a < b || (a == b && namesLe as bs)

/-- The outermost directory of instances. -/
def suiteDirectory : String := "benchmarks"

def isInstanceName (name : String) : Bool := name.endsWith ".cnf"

/-- Whatever lies on the way to a file, the file included. -/
def onTheWay (names : List String) : List (List String) :=
  (List.range names.length).map fun n => names.take (n + 1)

/-- The instances below the outermost directory of instances, in order. -/
def findInstances (d : Disk) : List Location :=
  let found := (d.files.keys.flatMap onTheWay).filter fun names =>
    names.head? == some suiteDirectory && 1 < names.length && isInstanceName (names.getLast?.getD "")
  (found.eraseDups.mergeSort namesLe).map (⟨"", ·⟩)

end Backjump.Benchmark
