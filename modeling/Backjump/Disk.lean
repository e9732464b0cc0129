import Backjump.OrderedMap
import Backjump.Text.Quoted

/-! A directory tree, seen from its root: the bytes of files by the components of
their paths, and directories that were made. Directories are also there when a file
lies below them. A path is followed name by name, and only a directory can be
looked into, be it for `.` or `..`. What lies above the root is directories in which
nothing else is known. -/
namespace Backjump

-- The core library's test of equality, whatever else is imported.
scoped instance byteArrayEq : DecidableEq ByteArray := ByteArray.instDecidableEq

structure Disk where
  files : OrderedMap (List String) ByteArray
  made : List (List String)
  deriving DecidableEq

/-- Why a path cannot be used; each carries the path as it was given. -/
inductive DiskFault where
  | missing (path : String)
  | exists (path : String)
  | notDirectory (path : String)
  | isDirectory (path : String)
  | nameTooLong (path : String)
  | holdsNul
  deriving DecidableEq

def DiskFault.message : DiskFault → String
  | missing path => "[Errno 2] No such file or directory: " ++ Text.quoted path
  | .exists path => "[Errno 17] File exists: " ++ Text.quoted path
  | notDirectory path => "[Errno 20] Not a directory: " ++ Text.quoted path
  | isDirectory path => "[Errno 21] Is a directory: " ++ Text.quoted path
  | nameTooLong path => "[Errno 36] File name too long: " ++ Text.quoted path
  | holdsNul => "embedded null byte"

namespace Disk

/-- The longest name, in bytes. -/
def nameLimit : Nat := 255

/-- What a path has to stay below, in bytes. -/
def pathLimit : Nat := 4096

def ofFiles (files : List (List String × ByteArray)) : Disk := ⟨.ofList files, []⟩

/-- The names along a path that are no `.`. -/
def components (path : String) : List String :=
  (path.splitOn "/").filter fun c => c != "" && c != "."

/-- The names along a path. -/
def names (path : String) : List String := (path.splitOn "/").filter (· != "")

/-- Where a path starts: the location `/` is the top, and the empty one the root. -/
def origin (path : String) : List String := if path.startsWith "/" then ["/"] else []

/-- Whether a location is the root, above it, or the top. -/
def isOutermost (location : List String) : Bool :=
  location.all (· == "..") || location == ["/"]

/-- The directory that holds a location. -/
def above (location : List String) : List String :=
  if location == ["/"] then location
  else if isOutermost location then ".." :: location
  else location.dropLast

def hasDirectory (d : Disk) (location : List String) : Bool :=
  isOutermost location || location ∈ d.made ||
    d.files.keys.any fun p => location.isPrefixOf p && location.length < p.length

/-- Follows names from a location, for the sake of `path`; whether there is anything at
the last of them is left open. -/
def follow (d : Disk) (path : String) (location : List String) :
    List String → Except DiskFault (List String)
  | [] => .ok location
  | name :: rest =>
    if location ∈ d.files then .error (.notDirectory path)
    else if !d.hasDirectory location then .error (.missing path)
    else if name = "." then follow d path location rest
    else if name = ".." then follow d path (above location) rest
    else if nameLimit < name.utf8ByteSize then .error (.nameTooLong path)
    else follow d path (location ++ [name]) rest

/-- What keeps a path from being followed at all. -/
def checkPath (path : String) : Except DiskFault Unit :=
  if path.contains '\x00' then .error .holdsNul
  else if path.isEmpty then .error (.missing path)
  else if pathLimit ≤ path.utf8ByteSize then .error (.nameTooLong path)
  else .ok ()

/-- Where a path leads. A slash at its end asks for a directory, as a `.` does. -/
def locate (d : Disk) (path : String) : Except DiskFault (List String) := do
  checkPath path
  d.follow path (origin path) (names path ++ if path.endsWith "/" then ["."] else [])

/-- The bytes of the file at a path. -/
def read (d : Disk) (path : String) : Except DiskFault ByteArray := do
  let location ← d.locate path
  match d.files.get? location with
  | some content => return content
  | none => throw (if d.hasDirectory location then .isDirectory path else .missing path)

/-- Whether a path leads to a directory. -/
def isDirectory (d : Disk) (path : String) : Bool :=
  match d.locate path with
  | .ok location => location ∉ d.files && d.hasDirectory location
  | .error _ => false

/-- Whether a path leads anywhere. -/
def isThere (d : Disk) (path : String) : Bool :=
  match d.locate path with
  | .ok location => location ∈ d.files || d.hasDirectory location
  | .error _ => false

/-- Puts a file at a path, in place of one that is there. -/
def write (d : Disk) (path : String) (content : ByteArray) : Disk :=
  { d with files := d.files.insert (components path) content }

/-- Makes a directory in one that is there. -/
def makeDirectory (d : Disk) (path : String) : Except DiskFault Disk := do
  checkPath path
  let names := names path
  let parent ← d.follow path (origin path) (names.dropLast ++ ["."])
  let name := names.getLast?.getD "."
  if name = "." || name = ".." then throw (.exists path)
  if nameLimit < name.utf8ByteSize then throw (.nameTooLong path)
  let location := parent ++ [name]
  if location ∈ d.files || d.hasDirectory location then throw (.exists path)
  return { d with made := location :: d.made }

/-- Makes a directory unless it is there. -/
def ensureDirectory (d : Disk) (path : String) : Except DiskFault Unit × Disk :=
  match d.makeDirectory path with
  | .ok d => (.ok (), d)
  | .error f => (if d.isDirectory path then .ok () else .error f, d)

/-- Splits a path at its last slash; slashes at the end of the first part are dropped, but
not from one that has nothing else. -/
def splitLast (path : String) : String × String :=
  let reversed := path.toList.reverse
  let head := reversed.dropWhile (· != '/')
  let bare := head.dropWhile (· == '/')
  (String.ofList (if bare.isEmpty then head else bare).reverse,
    String.ofList (reversed.takeWhile (· != '/')).reverse)

/-- Makes a directory and those above it, the outermost first, for paths of at most
`depth` names. That one above is there after all does not matter, and a path that
ends in `.` is done with the one above. -/
def makeDirectoriesWithin : Nat → String → Disk → Except DiskFault Unit × Disk
  | 0, _, d => (.ok (), d)
  | depth + 1, path, d =>
    let (head, name) :=
      match splitLast path with
      | (head, "") => splitLast head
      | found => found
    if head.isEmpty || name.isEmpty || d.isThere head then d.ensureDirectory path
    else
      match makeDirectoriesWithin depth head d with
      | (.ok (), d) | (.error (.exists _), d) =>
        if name = "." then (.ok (), d) else d.ensureDirectory path
      | failed => failed

/-- Makes a directory and those above it; one that is there already is fine. -/
def makeDirectories (d : Disk) (path : String) : Except DiskFault Unit × Disk :=
  makeDirectoriesWithin (path.length + 1) path d

/-- A path to `name` in a directory. -/
def join (directory name : String) : String :=
  if directory.isEmpty || directory.endsWith "/" then directory ++ name
  else directory ++ "/" ++ name

end Disk

/-- What a program asks of a file system: the bytes at a path, a directory there, and that a picture
is saved there; if it is not, a message says why. -/
structure FileAccess where
  read : String → Except DiskFault ByteArray
  makeDirectories : String → Except DiskFault Unit
  save : String → Except String Unit

/-- The disk as programs see it; it has room for pictures, but does not keep them. -/
def Disk.access (d : Disk) : FileAccess where
  read := d.read
  makeDirectories path := (d.makeDirectories path).1
  save _ := .ok ()

end Backjump
