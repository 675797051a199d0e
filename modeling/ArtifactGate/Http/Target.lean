import ArtifactGate.Http.Url
import ArtifactGate.Text.Numeral

/-!
A url taken apart: the host to connect to and the target to ask it for. The segments `.` and `..` of the
path are resolved on the way, so the target holds none; a fragment is not sent.
-/
namespace ArtifactGate.Http

def dots (segment : List Char) : List Char :=
  match segment with
  | '%' :: '2' :: e :: rest => if e = 'e' || e = 'E' then '.' :: dots rest else segment
  | '.' :: rest => '.' :: dots rest
  | _ => segment

def isHere (segment : List Char) : Bool :=
  dots segment == ['.']

def isAbove (segment : List Char) : Bool :=
  dots segment == ['.', '.']

/-- Resolves dot segments after the segments `kept`, the last of them first. One at the end leaves
an empty segment, so the path goes on naming a directory. -/
def resolveAfter (kept : List (List Char)) : List (List Char) → List (List Char)
  | [] => kept.reverse
  | segment :: rest =>
    if isAbove segment then
      resolveAfter (if rest.isEmpty then [] :: kept.tail else kept.tail) rest
    else if isHere segment then
      resolveAfter (if rest.isEmpty then [] :: kept else kept) rest
    else resolveAfter (segment :: kept) rest

def resolveDots (segments : List (List Char)) : List (List Char) :=
  resolveAfter [] segments

def renderPath (segments : List (List Char)) : List Char :=
  segments.flatMap ('/' :: ·)

def isSeparator (c : Char) : Bool :=
  c == '/' || c == '\\'

/-- The visible characters that a url's path does not show as they are. -/
def hiddenInPath : List Char := ['"', '#', '<', '>', '?', '^', '\x60', '\x7b', '\x7d']

/-- The visible characters that a url's query does not show as they are. -/
def hiddenInQuery : List Char := ['"', '#', '<', '>', '\'']

def isShown (hidden : List Char) (c : Char) : Bool :=
  ' ' < c && c < '\x7f' && !hidden.contains c

/-- The part of a request that names the item: the path and the query after the host. -/
def targetOf (afterHost : List Char) : List Char :=
  let (resource, _) := afterHost.span (· != '#')
  let (path, query) := resource.span (· != '?')
  let segments := Text.pieces isSeparator (path.drop 1)
  let shownSegment (segment : List Char) : List Char :=
    encodeText (isShown hiddenInPath) (String.ofList segment)
  renderPath (resolveDots (segments.map shownSegment)) ++
    encodeText (isShown hiddenInQuery) (String.ofList query)

/-- Where a url leads. -/
structure Address where
  secure : Bool
  host : String
  port : Nat
  target : String
  deriving DecidableEq, Repr, Inhabited

/-- Control characters and spaces around a url do not belong to it, tabs and line ends nowhere. -/
def stripUrl (url : List Char) : List Char :=
  let isEdge (c : Char) : Bool := c ≤ ' '
  (Text.dropTrailing isEdge (url.dropWhile isEdge)).filter fun c =>
    c != '\t' && c != '\n' && c != '\r'

/-- The url after its scheme, and whether the scheme asks for encryption. -/
def scheme? (url : List Char) : Option (Bool × List Char) :=
  (Text.splitFirst ':' url).bind fun (scheme, rest) =>
    match (String.ofList scheme).toLower with
    | "http" => some (false, rest)
    | "https" => some (true, rest)
    | _ => none

def hostAndPort? (standardPort : Nat) (authority : List Char) : Option (String × Nat) :=
  let port := Text.takeTrailing (· != ':') authority
  let host := authority.take (authority.length - port.length - 1)
  if authority.contains ':' && !port.contains ']' then
    if host.isEmpty then none
    else if port.isEmpty then some ((String.ofList host).toLower, standardPort)
    else
      ((Text.readDigits port).filter (· < UInt16.size)).map fun number =>
        ((String.ofList host).toLower, number)
  else if authority.isEmpty then none
  else some ((String.ofList authority).toLower, standardPort)

def Address.parse? (url : String) : Option Address := do
  let (secure, rest) ← scheme? (stripUrl url.toList)
  let (authority, afterHost) := (rest.dropWhile isSeparator).span fun c =>
    !isSeparator c && c != '?' && c != '#'
  let (host, port) ←
    hostAndPort? (if secure then 443 else 80) (Text.takeTrailing (· != '@') authority)
  return { secure, host, port, target := String.ofList (targetOf afterHost) }

end ArtifactGate.Http
