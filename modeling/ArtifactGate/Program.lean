import ArtifactGate.CommandLine
import ArtifactGate.Config.Document
import ArtifactGate.Session.Basic

/-!
One run of the program: one session for the user who logged in, with what the login left in the
environment. What the client is sent goes to the standard output.
-/
namespace ArtifactGate

/-- How a run ends: its status, and what it has put out. -/
structure Outcome where
  status : Nat
  output : List UInt8 := []
  deriving DecidableEq, Repr, Inhabited

namespace Outcome

def refused : Outcome := { status := 1 }

def ofMisuse (environment : Environment) : Misuse → Outcome
  | .helpWanted => { status := 0, output := Text.encode (CommandLine.helpText environment) }
  | .versionWanted => { status := 0, output := Text.encode CommandLine.versionText }
  | _ => { status := 2 }

end Outcome

/-- What a run is to do. -/
structure Invocation where
  configFile : String
  login : Login
  command : String
  deriving DecidableEq, Repr, Inhabited

namespace Invocation

def commandVariable : String := "SSH_ORIGINAL_COMMAND"

def userVariable : String := "USER"

def clientVariable : String := "SSH_CLIENT"

def unknownAddress : String := "-"

def command? (environment : Environment) (arguments : Arguments) : Option String :=
  match arguments.command with
  | [] => environment.get? commandVariable
  | command => some (" ".intercalate command)

def user? (environment : Environment) (arguments : Arguments) : Option String :=
  arguments.user <|> environment.get? userVariable

def address (environment : Environment) (arguments : Arguments) : String :=
  let first (client : String) : Option String := (Text.words client).head?
  (arguments.remoteAddress <|> (environment.get? clientVariable).bind first).getD unknownAddress

def parse (environment : Environment) (arguments : List String) : Except Outcome Invocation :=
  match CommandLine.parse environment arguments with
  | .error misuse => .error (.ofMisuse environment misuse)
  | .ok arguments =>
    match command? environment arguments, user? environment arguments with
    | some command, some user =>
      .ok {
        configFile := arguments.config
        login := { user, address := address environment arguments, environment }
        command }
    | _, _ => .error .refused

def start (invocation : Invocation) (live : Live HttpStore) : Session × Live HttpStore :=
  Session.start invocation.login invocation.command live

end Invocation

/-- The gateway that a configuration file describes, with the client connected. -/
def Live.ofConfigFile (file : Option (List UInt8)) (transport : Transport) (now : Instant) :
    Except Outcome (Live HttpStore) :=
  match Config.load file with
  | .error _ => .error .refused
  | .ok config =>
    match config.gateway transport now with
    | .error _ => .error .refused
    | .ok gateway => .ok { gateway }

def Outcome.ofSession : Session × Live HttpStore → Outcome
  | (session, live) =>
    { status := exitValue (session.result?.getD (.error .cancelled))
      output := live.outlet.taken.toList }

/-- A whole run, with the files that can be read and all of the standard input. -/
def runProgram (environment : Environment) (arguments : List String)
    (files : String → Option (List UInt8)) (input : List UInt8) (transport : Transport)
    (now : Instant) : Outcome :=
  let run : Except Outcome Outcome := do
    let invocation ← Invocation.parse environment arguments
    let live ← Live.ofConfigFile (files invocation.configFile) transport now
    return .ofSession (Session.finish .closed (Session.feedAll input (invocation.start live)))
  match run with
  | .ok outcome => outcome
  | .error outcome => outcome

end ArtifactGate
