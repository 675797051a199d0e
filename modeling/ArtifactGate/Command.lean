import ArtifactGate.Fault
import ArtifactGate.Text.Split

/-!
The far half of a copy, as the client's copy program asks for it: `scp -r -t /libs/com/`. Options and
paths may be mixed; after `--` everything is a path.
-/
namespace ArtifactGate

inductive Direction
  | source
  | sink
  deriving DecidableEq, Repr, Inhabited

structure Command where
  direction : Direction
  recursive : Bool
  preserve : Bool
  targetIsDirectory : Bool
  verbose : Bool
  paths : List String
  deriving DecidableEq, Repr, Inhabited

namespace Command

def isOption (argument : String) : Bool :=
  argument.toList.head? == some '-' && argument != "-"

def sortArguments : List String → List String × List String
  | [] => ([], [])
  | argument :: rest =>
    if argument == "--" then ([], rest)
    else
      let (options, paths) := sortArguments rest
      if isOption argument then (argument :: options, paths) else (options, argument :: paths)

def flags (options : List String) : List Char :=
  options.flatMap fun option => option.toList.drop 1

def flagDirection? : Char → Option Direction
  | 't' => some .sink
  | 'f' => some .source
  | _ => none

def direction? (letters : List Char) : Option Direction :=
  letters.reverse.findSome? flagDirection?

def ofArguments (arguments : List String) : Except Fault Command :=
  let (options, paths) := sortArguments arguments
  let letters := flags options
  match direction? letters with
  | none => .error (.protocol "missing -t or -f")
  | some direction =>
    if paths.isEmpty then .error (.protocol "missing path")
    else if direction == .sink && paths.length > 1 then
      .error (.protocol "only one target path allowed with -t")
    else
      .ok
        { direction
          recursive := letters.contains 'r'
          preserve := letters.contains 'p'
          targetIsDirectory := letters.contains 'd'
          verbose := letters.contains 'v'
          paths }

def parse (line : String) : Except Fault Command :=
  match Text.words line with
  | [] => .error (.protocol "empty command")
  | program :: arguments =>
    if program == "scp" then ofArguments arguments
    else .error (.protocol ("not an scp command: " ++ program))

end Command

end ArtifactGate
