import ArtifactGate.Command
import ArtifactGate.Node
import ArtifactGate.Wire.Frame
import ArtifactGate.Wire.Header

/-!
What both directions of a transfer have in common: who transfers what, and where a fault is logged.
Every fault ends the session. One that befalls a file is logged where the file's transfer ends, and the
failure it becomes says so; what is not logged there is logged by the session, at the first path of the
command.
-/
namespace ArtifactGate

/-- What is known of the connected user. -/
structure Login where
  user : String
  address : String
  environment : SortedMap String String := .empty
  deriving DecidableEq, Repr, Inhabited

/-- One command of one user. -/
structure Transfer where
  login : Login
  command : Command
  properties : Properties
  deriving DecidableEq, Repr, Inhabited

/-- The place that a transfer is logged under, and its size. -/
structure Site where
  location : Location
  size : Nat
  deriving DecidableEq, Repr, Inhabited

def Node.site (node : Node) : Site := ⟨node.location, node.size⟩

/-- A fault on its way to the end of a session, and whether it is in the log already. -/
structure Failure where
  fault : Fault
  logged : Bool := false
  deriving DecidableEq, Repr, Inhabited

abbrev Step := ExceptT Failure Action

/-- What a session does after a part of it: it waits for the client in some state, or it is over. -/
inductive Progress (α : Type)
  | waiting (state : α)
  | over
  deriving Repr, Inhabited

namespace Step

variable {α : Type}

def unlogged (attempt : Attempt α) : Step α :=
  attempt.adapt fun fault => { fault }

def ofExcept : Except Fault α → Step α
  | .ok value => return value
  | .error fault => throw { fault }

end Step

def send (bytes : List UInt8) : Attempt Unit :=
  ExceptT.mk (Action.request (.send bytes))

def sendOk : Attempt Unit := send (Wire.statusBytes Wire.okStatus "")

def sendLine (line : String) : Attempt Unit := send (Wire.lineBytes line)

namespace Transfer

def method (transfer : Transfer) : Method :=
  match transfer.command.direction with
  | .source => .get
  | .sink => .put

def successRecord (transfer : Transfer) (site : Site) : AccessRecord :=
  { user := transfer.login.user
    address := transfer.login.address
    method := transfer.method
    location := site.location
    size := site.size
    status := transfer.method.successStatus
    exitValue := 0 }

def defaultSite (transfer : Transfer) : Site :=
  match transfer.command.paths with
  | path :: _ => ⟨Location.resolve path, 0⟩
  | [] => ⟨Location.empty, 0⟩

def failureRecord (transfer : Transfer) (site : Site) (fault : Fault) : AccessRecord :=
  { user := transfer.login.user
    address := transfer.login.address
    method := transfer.method
    location := site.location
    size := site.size
    status := fault.statusCode
    exitValue := 1 }

def logSuccess (transfer : Transfer) (site : Site) : Step Unit :=
  liftM (Action.request (.log (transfer.successRecord site)))

/-- Logs the fault of an attempt at a site. -/
def logging {α : Type} (transfer : Transfer) (site : Site) (attempt : Attempt α) : Step α :=
  ExceptT.mk do
    match ← attempt.run with
    | .ok value => return .ok value
    | .error fault =>
      Action.request (.log (transfer.failureRecord site fault))
      return .error { fault, logged := true }

/-- Logs the fault of an attempt at the file it befalls, if it befalls one. -/
def loggingIn {α : Type} (transfer : Transfer) : Option Site → Attempt α → Step α
  | some site, attempt => transfer.logging site attempt
  | none, attempt => Step.unlogged attempt

end Transfer

end ArtifactGate
