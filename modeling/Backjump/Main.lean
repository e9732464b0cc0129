import Backjump.Walkthrough

/-! The walkthrough as a command of the system. Only this module reads files, makes
directories and prints. Pictures are laid out, but painting them is left to
whoever shows them. -/
namespace Backjump.Command

/-- The system's refusal of a path. -/
def refusal (path : String) : IO.Error → DiskFault
  | .alreadyExists .. => .exists path
  | .inappropriateType _ code _ => if code = 21 then .isDirectory path else .notDirectory path
  | .invalidArgument .. => .nameTooLong path
  | _ => .missing path

def read (path : String) : IO (Except DiskFault ByteArray) := do
  try return .ok (← IO.FS.readBinFile path)
  catch e => return .error (refusal path e)

def makeDirectories (path : String) : IO (Except DiskFault Unit) := do
  try
    IO.FS.createDirAll path
    return .ok ()
  catch e => return .error (refusal path e)

/-- What a request needs of the file system, asked for in advance. -/
def access (words : List String) : IO FileAccess := do
  match Walkthrough.readArguments words with
  | .ok (.walk r) =>
    let content ← read r.file
    let made ← match content, r.out with
      | .ok _, .value out => makeDirectories out
      | _, _ => pure (.ok ())
    return ⟨fun _ => content, fun _ => made, fun _ => .ok ()⟩
  | _ => return (Disk.ofFiles []).access

/-- The kind and the message of what ended a walkthrough. -/
def finalWords (e : Walkthrough.Exit) : String :=
  e.errors ++ e.fault.elim "" fun fault => fault.message ++ "\n"

end Backjump.Command

open Backjump in
def main (words : List String) : IO UInt32 := do
  let e := Walkthrough.runCommand (← Command.access words) words
  (← IO.getStdout).putStr e.output
  (← IO.getStderr).putStr (Command.finalWords e)
  return e.status.toUInt32
