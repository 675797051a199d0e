import ArtifactGate.Glob.Pattern
import ArtifactGate.Glob.Split
import ArtifactGate.Node

/-!
The files below a directory whose path matches a pattern. Directories are listed level by level; one that
matches is a result itself when directories are wanted, and is not searched.
-/
namespace ArtifactGate.Glob

/-- A node with its path relative to the directory that is searched. -/
structure Candidate where
  path : String
  node : Node
  deriving DecidableEq, Repr, Inhabited

/-- A pattern matches no deeper than it has segments, unless it holds `**`. -/
def levelLimit? (pattern : String) : Option Nat :=
  if Text.occursIn "**".toList pattern.toList then none
  else
    some (((Text.pieces Location.isSlash pattern.toList).filter fun segment =>
      !segment.isEmpty).length)

def selects (pattern : Pattern) (recursive : Bool) (candidate : Candidate) : Bool :=
  pattern.isMatch candidate.path && (candidate.node.isFile || recursive)

def below (candidate : Candidate) : Action (List Candidate) := do
  let children ← candidate.node.children
  return children.map fun node => ⟨candidate.path ++ "/" ++ node.name, node⟩

def belowAll : List Candidate → Action (List Candidate)
  | [] => return []
  | candidate :: rest => do
    let first ← below candidate
    return first ++ (← belowAll rest)

/-- Searches the candidates of one level, and the levels below it while there are more to go. -/
def search (pattern : Pattern) (recursive : Bool) (endless : Bool) :
    Nat → List Candidate → Action (List Candidate)
  | more, level => do
    let results := level.filter (selects pattern recursive)
    let directories := level.filter fun candidate =>
      !selects pattern recursive candidate && candidate.node.isDirectory
    if directories.isEmpty then return results
    else
      match more with
      | 0 => if endless then nomatch ← Action.request .diverge else return results
      | more + 1 =>
        return results ++ (← search pattern recursive endless more (← belowAll directories))

def sortResults (results : List Candidate) : List Candidate :=
  results.mergeSort fun a b => a.path ≤ b.path

/-- The nodes below `base` whose path relative to it matches the text of a pattern, in ascending order
of that path. -/
def scan (base : Node) (text : String) (recursive : Bool) : Attempt (List Node) := do
  match Pattern.parse text with
  | .error flaw => throw (.protocol ("invalid pattern " ++ text ++ ": " ++ flaw.message))
  | .ok pattern =>
    let children ← base.children
    let level := children.map fun node => ⟨node.name, node⟩
    let results ←
      match levelLimit? text with
      | some limit => search pattern recursive false (limit - 1) level
      | none => do search pattern recursive true (← Action.request .listingDepth) level
    return (sortResults results).map Candidate.node

end ArtifactGate.Glob
