import ArtifactGate.Fault
import ArtifactGate.Text.Utf8

/-!
Status bytes and lines. Every line and every file is answered by one status byte; a warning or an error
is followed by a message line. Both are read one byte at a time: a reader takes a byte and either
wants more or has its result.
-/
namespace ArtifactGate.Wire

def okStatus : UInt8 := 0
def warningStatus : UInt8 := 1
def errorStatus : UInt8 := 2
def newline : UInt8 := 10

def maxLineLength : Nat := 64 * 1024

def lineBytes (line : String) : List UInt8 :=
  Text.encode line ++ [newline]

def oneLine (message : String) : String :=
  String.ofList (message.toList.map fun c => if c = '\n' then ' ' else c)

/-- The bytes of a status and, unless it is good, of the message that follows it. -/
def statusBytes (status : UInt8) (message : String) : List UInt8 :=
  if status = okStatus then [status] else status :: lineBytes (oneLine message)

/-- What a reader has after a byte: it wants more, or it is done. -/
inductive Reading (σ α : Type)
  | more (state : σ)
  | done (result : Except Fault α)
  deriving Repr, Inhabited

/-- The bytes of a line read so far. -/
structure Line where
  bytes : Array UInt8 := #[]
  deriving DecidableEq, Repr, Inhabited

namespace Line

def text (line : Line) : Except Fault String :=
  match Text.decode? line.bytes.toList with
  | some text => .ok text
  | none => .error (.protocol "header is not valid UTF-8")

def push (line : Line) (byte : UInt8) : Reading Line String :=
  if byte = newline then .done line.text
  else if line.bytes.size ≥ maxLineLength then .done (.error (.protocol "header line too long"))
  else .more ⟨line.bytes.push byte⟩

def unended : Fault := .protocol "unexpected end of stream in header"

end Line

/-- The wait for a status: for the byte itself, or for the line after it. -/
inductive Acknowledgement
  | status
  | message (isError : Bool) (line : Line)
  deriving DecidableEq, Repr, Inhabited

namespace Acknowledgement

/-- Bytes that are no status count as good; a warning is as good, an error is the client's. -/
def push : Acknowledgement → UInt8 → Reading Acknowledgement Unit
  | .status, byte =>
    if byte = warningStatus then .more (.message false {})
    else if byte = errorStatus then .more (.message true {})
    else .done (.ok ())
  | .message isError line, byte =>
    match line.push byte with
    | .more line => .more (.message isError line)
    | .done (.error fault) => .done (.error fault)
    | .done (.ok text) => .done (if isError then .error (.peer text) else .ok ())

def atEnd (mayEnd : Bool) : Acknowledgement → Except Fault Unit
  | .status =>
    if mayEnd then .ok ()
    else .error (.protocol "unexpected end of stream waiting for ack")
  | .message _ _ => .error Line.unended

end Acknowledgement

/-- Feeds a reader until it has its result; the bytes after that are left. -/
def drive {σ α : Type} (push : σ → UInt8 → Reading σ α) (atEnd : σ → Except Fault α) :
    σ → List UInt8 → Except Fault α × List UInt8
  | state, [] => (atEnd state, [])
  | state, byte :: rest =>
    match push state byte with
    | .more state => drive push atEnd state rest
    | .done result => (result, rest)

def readByte : List UInt8 → Option UInt8 × List UInt8
  | [] => (none, [])
  | byte :: rest => (some byte, rest)

def readLine (input : List UInt8) : Except Fault String × List UInt8 :=
  drive Line.push (fun _ => .error Line.unended) {} input

def readStatus (mayEnd : Bool) (input : List UInt8) : Except Fault Unit × List UInt8 :=
  drive Acknowledgement.push (Acknowledgement.atEnd mayEnd) .status input

end ArtifactGate.Wire
