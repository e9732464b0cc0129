import Backjump.Decider
import Backjump.Text.Numeral
import Backjump.Text.Quoted

/-! The command line of the walkthrough. Flags may be written in full, shortened
as long as only one fits, and with their value behind an equals sign; `--` ends
the flags. A word that looks like a negative number or contains a space is
never a flag. Words are classified first, from the left, then consumed from the
left; the first word that does not fit decides the error. A mark `--` is dropped
from whatever a flag or the file is given, also from behind an equals sign, where
it leaves the flag without a value. -/
namespace Backjump.Walkthrough

/-- What a flag that takes a value is left with: it was not there, its value was
dropped, or it has one. -/
inductive Setting (α : Type) where
  | unset
  | dropped
  | value (a : α)
  deriving DecidableEq

/-- `maxSteps` bounds the steps of the search, `out` is where pictures go. -/
structure Request where
  file : String
  strategy : Setting Strategy
  out : Setting String
  maxSteps : Setting Int
  verbose : Bool
  deriving DecidableEq

inductive Flag where
  | help
  | strategy
  | out
  | maxSteps
  | verbose
  deriving DecidableEq

namespace Flag

/-- All spellings, in the order in which they are tried. -/
def spellings : List (String × Flag) :=
  [("-h", help), ("--help", help), ("--strategy", strategy), ("--out", out),
    ("--max-steps", maxSteps), ("--verbose", verbose)]

def label : Flag → String
  | help => "-h/--help"
  | strategy => "--strategy"
  | out => "--out"
  | maxSteps => "--max-steps"
  | verbose => "--verbose"

def takesValue : Flag → Bool
  | strategy | out | maxSteps => true
  | help | verbose => false

end Flag

inductive UsageFault where
  | ambiguous (word : String) (candidates : List String)
  | valueMissing (flag : Flag)
  | valueIgnored (flag : Flag) (value : String)
  | unknownChoice (value : String)
  | notInteger (value : String)
  | fileMissing
  | unrecognized (words : List String)
  deriving DecidableEq

def usage : String :=
  "usage: walkthrough.py [-h] [--strategy \x7bORDERED,JEROSLOW\x7d] [--out OUT]\n" ++
  "                      [--max-steps MAX_STEPS] [--verbose]\n" ++
  "                      file\n"

def help : String :=
  usage ++
  "\nStep through a CDCL solve and draw its implication graphs\n\n" ++
  "positional arguments:\n" ++
  "  file                  path to a DIMACS CNF file\n\n" ++
  "options:\n" ++
  "  -h, --help            show this help message and exit\n" ++
  "  --strategy \x7bORDERED,JEROSLOW\x7d\n" ++
  "                        decision heuristic\n" ++
  "  --out OUT             directory for conflict graph images\n" ++
  "  --max-steps MAX_STEPS\n" ++
  "                        give up after that many steps\n" ++
  "  --verbose             log every propagation, decision and backjump\n"

def UsageFault.reason : UsageFault → String
  | ambiguous word candidates =>
    "ambiguous option: " ++ word ++ " could match " ++ String.intercalate ", " candidates
  | valueMissing flag => "argument " ++ flag.label ++ ": expected one argument"
  | valueIgnored flag value =>
    "argument " ++ flag.label ++ ": ignored explicit argument " ++ Text.quoted value
  | unknownChoice value =>
    "argument --strategy: invalid choice: " ++ Text.quoted value ++ " (choose from " ++
      String.intercalate ", " (Strategy.all.map fun s => Text.quoted s.name) ++ ")"
  | notInteger value => "argument --max-steps: invalid int value: " ++ Text.quoted value
  | fileMissing => "the following arguments are required: file"
  | unrecognized words => "unrecognized arguments: " ++ String.intercalate " " words

def UsageFault.message (f : UsageFault) : String :=
  usage ++ "walkthrough.py: error: " ++ f.reason ++ "\n"

/-- A word of the command line: text, the end of the flags, a flag with what is
attached to it, or something that looks like a flag and is none. -/
inductive Word where
  | plain (text : String)
  | endOfFlags
  | flag (flag : Flag) (spelling : String) (attached : Option String)
  | unknown (text : String)
  deriving DecidableEq

/-- The text before the first equals sign and what follows it. -/
def splitAtEquals (text : String) : Option (String × String) :=
  let chars := text.toList
  if chars.contains '=' then
    some (String.ofList (chars.takeWhile (· != '=')),
      String.ofList ((chars.dropWhile (· != '=')).drop 1))
  else none

/-- A minus sign and digits, with a point among them or without. -/
def looksNegative (text : String) : Bool :=
  match text.toList with
  | '-' :: rest =>
    let rest := if rest.getLast? = some '\n' then rest.dropLast else rest
    let fraction := rest.dropWhile Text.isDigit
    (!rest.isEmpty && fraction.isEmpty) ||
      (match fraction with
       | '.' :: digits => !digits.isEmpty && digits.all Text.isDigit
       | _ => false)
  | _ => false

/-- The flags that a word may stand for without being one in full, with what each is
called. Anything may follow the short flag, and a long one may be cut short. -/
def candidates (word : String) : List (String × Word) :=
  match word.toList with
  | '-' :: '-' :: _ =>
    let (start, attached) := match splitAtEquals word with
      | some (start, value) => (start, some value)
      | none => (word, none)
    (Flag.spellings.filter fun p => p.1.startsWith start).map fun p =>
      (p.1, .flag p.2 p.1 attached)
  | '-' :: 'h' :: letters => [("-h", .flag .help "-h" (some (String.ofList letters)))]
  | _ => []

/-- What a word in front of `--` is. -/
def classify (word : String) : Except UsageFault Word :=
  if !word.startsWith "-" then .ok (.plain word)
  else
    match Flag.spellings.lookup word with
    | some flag => .ok (.flag flag word none)
    | none =>
      if word.length = 1 then .ok (.plain word)
      else
        match (splitAtEquals word).bind fun p =>
            (Flag.spellings.lookup p.1).map fun flag => Word.flag flag p.1 (some p.2) with
        | some found => .ok found
        | none =>
          match candidates word with
          | [] =>
            if looksNegative word || word.contains ' ' then .ok (.plain word)
            else .ok (.unknown word)
          | [(_, found)] => .ok found
          | several => .error (.ambiguous word (several.map Prod.fst))

def classifyAll : List String → Except UsageFault (List Word)
  | [] => .ok []
  | "--" :: rest => .ok (.endOfFlags :: rest.map .plain)
  | word :: rest => do return (← classify word) :: (← classifyAll rest)

/-- What has been consumed so far. -/
structure Collected where
  file : Option String
  strategy : Setting Strategy
  out : Setting String
  maxSteps : Setting Int
  verbose : Bool
  extras : List String
  deriving DecidableEq

def Collected.start : Collected := ⟨none, .unset, .unset, .unset, false, []⟩

/-- Stores the value of a flag that takes one. -/
def Collected.store (c : Collected) (flag : Flag) (value : String) :
    Except UsageFault Collected :=
  match flag with
  | .strategy =>
    match Strategy.ofName? value with
    | some s => .ok { c with strategy := .value s }
    | none => .error (.unknownChoice value)
  | .maxSteps =>
    match Text.readInteger? value with
    | some n => .ok { c with maxSteps := .value n }
    | none => .error (.notInteger value)
  | .out => .ok { c with out := .value value }
  | .help | .verbose => .ok c

/-- Leaves a flag without its value. -/
def Collected.drop (c : Collected) : Flag → Collected
  | .strategy => { c with strategy := .dropped }
  | .maxSteps => { c with maxSteps := .dropped }
  | .out => { c with out := .dropped }
  | .help | .verbose => c

/-- Stores what is attached to a flag by an equals sign. -/
def Collected.storeAttached (c : Collected) (flag : Flag) (value : String) :
    Except UsageFault Collected :=
  if value = "--" then .ok (c.drop flag) else c.store flag value

/-- What a command line asks for. -/
inductive Command where
  | help
  | walk (request : Request)
  deriving DecidableEq

def Collected.finish (c : Collected) : Except UsageFault Command :=
  match c.file with
  | none => .error .fileMissing
  | some file =>
    if c.extras.isEmpty then .ok (.walk ⟨file, c.strategy, c.out, c.maxSteps, c.verbose⟩)
    else .error (.unrecognized c.extras)

/-- Text behind `--`: the first is the file, if that is still due. -/
def Collected.rest (c : Collected) (texts : List String) : Collected :=
  match c.file, texts with
  | none, text :: texts => { c with file := some text, extras := c.extras ++ texts }
  | none, [] => { c with extras := c.extras ++ ["--"] }
  | some _, texts => { c with extras := c.extras ++ "--" :: texts }

def Word.text : Word → String
  | .plain text => text
  | .endOfFlags => "--"
  | .flag _ spelling _ => spelling
  | .unknown text => text

/-- What is attached to the short flag for help. Each character is a short flag of its own,
and there is only the one for help; an equals sign is a character like the others. -/
def helpOfLetters (attached : String) : Except UsageFault Command :=
  match attached.toList.dropWhile (· == 'h') with
  | [] => if attached.isEmpty then .error (.valueIgnored .help "") else .ok .help
  | rest => .error (.valueIgnored .help (String.ofList rest))

/-- Consumes words from the left. -/
def consume (c : Collected) : List Word → Except UsageFault Command
  | [] => c.finish
  | .plain text :: rest =>
    match c.file, rest with
    | none, .endOfFlags :: rest =>
      Collected.finish { c with file := some text, extras := c.extras ++ rest.map Word.text }
    | none, rest => consume { c with file := some text } rest
    | some _, rest => consume { c with extras := c.extras ++ [text] } rest
  | .endOfFlags :: rest => (c.rest (rest.map Word.text)).finish
  | .unknown text :: rest => consume { c with extras := c.extras ++ [text] } rest
  | .flag flag spelling (some attached) :: rest =>
    if flag.takesValue then do consume (← c.storeAttached flag attached) rest
    else if spelling = "-h" then helpOfLetters attached
    else .error (.valueIgnored flag attached)
  | .flag .help _ none :: _ => .ok .help
  | .flag .verbose _ none :: rest => consume { c with verbose := true } rest
  | .flag flag _ none :: .plain value :: rest => do consume (← c.store flag value) rest
  | .flag flag _ none :: _ => .error (.valueMissing flag)

/-- Reads a command line. -/
def readArguments (words : List String) : Except UsageFault Command := do
  consume .start (← classifyAll words)

end Backjump.Walkthrough
