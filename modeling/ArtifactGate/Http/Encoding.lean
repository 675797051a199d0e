import ArtifactGate.Http.Message
import ArtifactGate.Http.Target
import ArtifactGate.Json.Parse
import ArtifactGate.Text.Utf8

/-!
Requests and answers as bytes. One connection carries one request: the server closes it after the answer,
so the answer is all that comes, and a body that announced more than came was cut short.
-/
namespace ArtifactGate.Http

def lineEnd : List UInt8 := [13, 10]

def headerLine (name value : String) : List UInt8 :=
  Text.encode (name ++ ": " ++ value) ++ lineEnd

/-- The host as a request names it; the standard port is left out. -/
def Address.authority (address : Address) : String :=
  if address.port = 80 then address.host else address.host ++ ":" ++ toString address.port

def Request.encode (request : Request) (address : Address) : List UInt8 :=
  Text.encode (request.verb.name ++ " " ++ address.target ++ " HTTP/1.1") ++ lineEnd ++
    headerLine "host" address.authority ++
    headerLine "user-agent" userAgent ++
    headerLine "accept" "*/*" ++
    headerLine "connection" "close" ++
    (match request.authorization with
      | some value => headerLine "authorization" value
      | none => []) ++
    (match request.verb with
      | .get => []
      | .put => headerLine "content-length" (toString request.body.length)) ++
    lineEnd ++ request.body

/-- What an answer says before its body. -/
structure Head where
  status : Nat
  headers : List (String × String)
  deriving DecidableEq, Repr, Inhabited

namespace Head

/-- The lines up to the first empty one, each without its end, and the bytes after it. `line` holds the
bytes of the line that is being read, the last of them first. -/
def splitLines (line : List UInt8) : List UInt8 → Option (List (List UInt8) × List UInt8)
  | [] => none
  | 10 :: rest =>
    let whole :=
      match line with
      | 13 :: before => before.reverse
      | _ => line.reverse
    if whole.isEmpty then some ([], rest)
    else (splitLines [] rest).map fun (lines, rest) => (whole :: lines, rest)
  | byte :: rest => splitLines (byte :: line) rest

def status? (line : List UInt8) : Option Nat :=
  match Text.words (Text.decodeLossy line) with
  | version :: code :: _ =>
    if "HTTP/1.".toList.isPrefixOf version.toList && code.length == 3 then
      Text.readDigits code.toList
    else none
  | _ => none

def header? (line : List UInt8) : Option (String × String) :=
  (Text.splitFirst ':' (Text.decodeLossy line).toList).map fun (name, value) =>
    ((String.ofList name).toLower, Text.trim (String.ofList value))

def parse? (bytes : List UInt8) : Option (Head × List UInt8) := do
  let (lines, rest) ← splitLines [] bytes
  match lines with
  | [] => none
  | first :: lines => return ({ status := ← status? first, headers := ← lines.mapM header? }, rest)

def isChunked (head : Head) : Bool :=
  (head.headers.lookup "transfer-encoding").any fun value => value.toLower == "chunked"

/-- The length that is announced for the body; one that is no number makes the answer useless. -/
def length? (head : Head) : Option (Option Nat) :=
  match head.headers.lookup "content-length" with
  | none => some none
  | some value => (Text.readDigits value.toList).map some

def isInterim (head : Head) : Bool :=
  100 ≤ head.status && head.status < 200

def isBodiless (head : Head) : Bool :=
  head.status == 204 || head.status == 304

end Head

def chunkLength? (line : List UInt8) : Option Nat :=
  match line.takeWhile fun byte => (Json.hexValue? byte).isSome with
  | [] => none
  | digits => some (digits.foldl (fun n byte => n * 16 + (Json.hexValue? byte).getD 0) 0)

/-- The bytes of a body that comes in chunks, and whether it was cut short; at most `fuel` chunks are
read. -/
def joinChunks : (fuel : Nat) → List UInt8 → List UInt8 × Bool
  | 0, _ => ([], true)
  | fuel + 1, bytes =>
    let (line, rest) := bytes.span (· != 10)
    match chunkLength? line, rest with
    | some 0, _ => ([], false)
    | some length, 10 :: rest =>
      let chunk := rest.take length
      if chunk.length < length then (chunk, true)
      else
        let (more, cutShort) := joinChunks fuel ((rest.drop length).dropWhile fun byte =>
          byte == 13 || byte == 10)
        (chunk ++ more, cutShort)
    | _, _ => ([], true)

def Head.response? (head : Head) (bytes : List UInt8) : Option Response := do
  let status := head.status
  if head.isBodiless then return { status, length := some 0 }
  else if head.isChunked then
    let (body, cutShort) := joinChunks (bytes.length + 1) bytes
    return { status, body, cutShort }
  else
    match ← head.length? with
    | some length =>
      return { status, length := some length, body := bytes.take length
               cutShort := bytes.length < length }
    | none => return { status, body := bytes }

/-- The answer that these bytes are; at most `fuel` heads are read. -/
def readResponse? : (fuel : Nat) → List UInt8 → Option Response
  | 0, _ => none
  | fuel + 1, bytes => do
    let (head, rest) ← Head.parse? bytes
    if head.isInterim then readResponse? fuel rest else head.response? rest

def Reply.ofBytes (bytes : List UInt8) : Reply :=
  match readResponse? (bytes.length + 1) bytes with
  | some answer => .response answer
  | none => .lost "the server's answer cannot be read"

end ArtifactGate.Http
