import Backjump.Dimacs
import Backjump.Disk
import Backjump.Text.Utf8

/-! DIMACS files: UTF-8 text in which every kind of line break counts as one. -/
namespace Backjump.Dimacs

inductive FileFault where
  | disk (fault : DiskFault)
  | encoding (fault : Text.Utf8.Fault)
  | content (fault : Fault)
  deriving DecidableEq

def FileFault.message : FileFault → String
  | disk fault => fault.message
  | encoding fault => fault.message
  | content fault => fault.message

/-- Reads the clauses of a file from its bytes. -/
def clausesOfBytes (bytes : List Nat) : Except FileFault (List (List Int)) :=
  match Text.Utf8.decode bytes with
  | .error fault => .error (.encoding fault)
  | .ok text => (parse (Text.universalNewlines text)).mapError .content

/-- Reads the clauses of the file at a path. -/
def clausesOfFile (files : FileAccess) (path : String) : Except FileFault (List (List Int)) :=
  match files.read path with
  | .error fault => .error (.disk fault)
  | .ok content => clausesOfBytes (content.toList.map UInt8.toNat)

end Backjump.Dimacs
