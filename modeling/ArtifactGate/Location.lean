import ArtifactGate.Text.Split

/-!
Where an artifact is kept: a repository and a path inside it. A client names both in one text, the
repository up to the first slash and the path after it. The pseudo-repository `/dev/null` is the
sink; its name holds a slash, so it is recognised before the text is split.
-/
namespace ArtifactGate

/-- A repository and a path inside it. -/
structure Location where
  repository : String
  path : String
  deriving DecidableEq, Repr, Inhabited

namespace Location

instance : Ord Location := ⟨compareLex (compareOn repository) (compareOn path)⟩

instance : Std.TransOrd Location :=
  inferInstanceAs (Std.TransCmp (compareLex (compareOn repository) (compareOn path)))

instance : Std.LawfulEqOrd Location where
  eq_of_compare {first second} same := by
    obtain ⟨repository, path⟩ := compareLex_eq_eq.1 same
    cases first
    cases second
    cases Std.LawfulEqOrd.eq_of_compare repository
    cases Std.LawfulEqOrd.eq_of_compare path
    rfl

/-- The repository that discards what is written to it and reads back as nothing. -/
def sinkRepository : String := "/dev/null"

def empty : Location := ⟨"", ""⟩

def isEmpty (location : Location) : Bool :=
  location.repository.isEmpty && location.path.isEmpty

def isSink (location : Location) : Bool :=
  location.repository == sinkRepository

def isSlash (c : Char) : Bool := c == '/'

def trimmedPath (location : Location) : List Char :=
  Text.dropTrailing isSlash location.path.toList

/-- The root of a repository and a path that ends in a slash can only be directories. -/
def namesDirectory (location : Location) : Bool :=
  location.path.isEmpty || location.path.toList.getLast? == some '/'

/-- The last segment of the path that is not empty, or the repository at its root. -/
def name (location : Location) : String :=
  match Text.takeTrailing (fun c => !isSlash c) location.trimmedPath with
  | [] => location.repository
  | segment => String.ofList segment

def child (location : Location) (name : String) : Location :=
  match location.trimmedPath with
  | [] => { location with path := name }
  | parent => { location with path := String.ofList (parent ++ '/' :: name.toList) }

/-- The location one segment further down, with the slash that marks a directory. -/
def childDirectory (location : Location) (name : String) : Location :=
  let below := location.child name
  { below with path := below.path ++ "/" }

def parent? (location : Location) : Option Location :=
  match location.trimmedPath with
  | [] => none
  | trimmed =>
    some { location with
      path := String.ofList (Text.dropTrailing (fun c => !isSlash c) trimmed) }

def display (location : Location) : String :=
  location.repository ++ "/" ++ location.path

instance : ToString Location := ⟨display⟩

/-- The enclosing directories from the nearest to the root, at most `limit` of them. -/
def ancestors (limit : Nat) (location : Location) : List Location :=
  match limit, location.parent? with
  | limit + 1, some parent => parent :: parent.ancestors limit
  | _, _ => []

/-- The text after the sink's name, when the text is that name or goes on below it. -/
def belowSink? (cs : List Char) : Option (List Char) :=
  if "dev/null".toList.isPrefixOf cs then
    match cs.drop "dev/null".length with
    | [] => some []
    | '/' :: path => some path
    | _ => none
  else none

/-- The location a client's text names. One slash before it is not counted; a text without a slash
after its first segment names no repository. -/
def resolve (text : String) : Location :=
  let cs :=
    match text.toList with
    | '/' :: rest => rest
    | cs => cs
  match belowSink? cs with
  | some path => ⟨sinkRepository, String.ofList path⟩
  | none =>
    match Text.splitFirst '/' cs with
    | some (repository, path) => ⟨String.ofList repository, String.ofList path⟩
    | none => empty

end Location

end ArtifactGate
