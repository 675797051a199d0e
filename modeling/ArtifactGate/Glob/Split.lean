import ArtifactGate.Location

/-!
Where a path's pattern begins. The path is cut before its first segment that holds a glob character; what
stands before it names the directory to search.
-/
namespace ArtifactGate.Glob

def isGlobChar (c : Char) : Bool := c == '*' || c == '?' || c == '['

def hasGlob (path : String) : Bool := path.toList.any isGlobChar

def segments : List Char → List (List Char)
  | [] => []
  | c :: cs =>
    if c = '/' then ['/'] :: segments cs
    else
      match segments cs with
      | [] => [[c]]
      | segment :: more => (c :: segment) :: more

/-- The segments before the first with a glob character, and the rest. -/
def splitSegments (path : List Char) : List (List Char) × List (List Char) :=
  (segments path).span fun segment => !segment.any isGlobChar

def splitPattern (path : String) : String × String :=
  let (base, pattern) := splitSegments path.toList
  (String.ofList base.flatten, String.ofList pattern.flatten)

end ArtifactGate.Glob
