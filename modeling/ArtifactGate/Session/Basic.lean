import ArtifactGate.Gateway.Live
import ArtifactGate.Session.Receiver
import ArtifactGate.Session.Sender

/-!
One session: a command line, the bytes the client sends one after the other, and the end of them. A
session that fails gives up what it was uploading, logs a failure that is not in the log yet, and tells
the client unless the client knows. A session that would wait for ever is cancelled.
-/
namespace ArtifactGate

inductive Session
  | receiving (transfer : Transfer) (mark : Nat) (receiver : Receiver)
  | sending (transfer : Transfer) (sender : Sender)
  | ended (result : Except Fault Unit)
  deriving Repr, Inhabited

/-- How the client's bytes end. -/
inductive Ending
  | closed
  | broken (reason : String)
  | silent
  deriving DecidableEq, Repr, Inhabited

def exitValue : Except Fault Unit → Nat
  | .ok () => 0
  | .error _ => 1

namespace Session

variable {σ : Type} [RemoteStore σ]

/-- The client already knows about errors that it reported itself. -/
def isReported : Fault → Bool
  | .peer _ => false
  | _ => true

/-- Tells the client about a fault. Whether it takes the message makes no difference. -/
def report (fault : Fault) (live : Live σ) : Live σ :=
  (live.run (sendError fault).run).2
where
  sendError (fault : Fault) : Attempt Unit :=
    send (Wire.statusBytes Wire.errorStatus fault.message)

/-- Ends a session that failed; the uploads it began have numbers from `mark` on. -/
def fail (transfer : Transfer) (mark : Nat) (failure : Failure) (live : Live σ) :
    Session × Live σ :=
  let gateway := live.gateway.abandonSince mark
  let gateway :=
    if failure.logged then gateway
    else
      let entry := transfer.failureRecord transfer.defaultSite failure.fault
      { gateway with log := gateway.log ++ [entry] }
  let live := { live with gateway }
  (.ended (.error failure.fault),
    if isReported failure.fault then report failure.fault live else live)

/-- Ends a session that waits for ever, after the tasks have gone as far as they can. -/
def cancel (transfer : Transfer) (mark : Nat) (live : Live σ) : Session × Live σ :=
  fail transfer mark { fault := .cancelled } { live with gateway := live.gateway.settle }

def carryOut {α : Type} (transfer : Transfer) (mark : Nat) (step : Step α) (next : α → Session)
    (live : Live σ) : Session × Live σ :=
  match live.run step.run with
  | (some (.ok value), live) => (next value, live)
  | (some (.error failure), live) => fail transfer mark failure live
  | (none, live) => cancel transfer mark live

def ofProgress {α : Type} (waiting : α → Session) : Progress α → Session
  | .waiting state => waiting state
  | .over => .ended (.ok ())

/-- Starts a session for a command line. A command that is not understood is refused and not
logged. -/
def start (login : Login) (line : String) (live : Live σ) : Session × Live σ :=
  match Command.parse line with
  | .error fault => (.ended (.error fault), report fault live)
  | .ok command =>
    let properties :=
      Gateway.environmentProperties live.gateway.settings login.environment
    let transfer : Transfer := { login, command, properties }
    match command.direction with
    | .source => (.sending transfer (Sender.start transfer), live)
    | .sink =>
      let mark := live.gateway.nextUpload
      let path := command.paths.headD ""
      carryOut transfer mark (Receiver.start transfer path) (receiving transfer mark) live

def feed (byte : UInt8) : Session × Live σ → Session × Live σ
  | (.receiving transfer mark receiver, live) =>
    carryOut transfer mark (receiver.push transfer byte)
      (ofProgress (receiving transfer mark)) live
  | (.sending transfer sender, live) =>
    carryOut transfer live.gateway.nextUpload (sender.push transfer byte)
      (ofProgress (sending transfer)) live
  | (.ended result, live) => (.ended result, live)

def feedAll (bytes : List UInt8) (state : Session × Live σ) : Session × Live σ :=
  bytes.foldl (fun state byte => feed byte state) state

def breakOff (transfer : Transfer) (site : Option Site) (reason : String) : Step Unit :=
  transfer.loggingIn site (throw (.io reason))

def finish (ending : Ending) : Session × Live σ → Session × Live σ
  | (.receiving transfer mark receiver, live) =>
    match ending with
    | .closed =>
      carryOut transfer mark (receiver.atEnd transfer) (fun _ => .ended (.ok ())) live
    | .broken reason =>
      carryOut transfer mark (breakOff transfer receiver.site? reason) (fun _ => .ended (.ok ())) live
    | .silent => cancel transfer mark live
  | (.sending transfer sender, live) =>
    let mark := live.gateway.nextUpload
    match ending with
    | .closed => carryOut transfer mark (sender.atEnd transfer) (fun _ => .ended (.ok ())) live
    | .broken reason =>
      carryOut transfer mark (breakOff transfer sender.pending.site? reason)
        (fun _ => .ended (.ok ())) live
    | .silent => cancel transfer mark live
  | (.ended result, live) => (.ended result, live)

def result? : Session → Option (Except Fault Unit)
  | .ended result => some result
  | _ => none

/-- Runs a session with a client that sends some bytes and then no more. -/
def run (login : Login) (line : String) (input : List UInt8) (ending : Ending) (live : Live σ) :
    Except Fault Unit × Live σ :=
  match finish ending (feedAll input (start login line live)) with
  | (.ended result, live) => (result, live)
  | (_, live) => (.error .cancelled, live)

end Session

end ArtifactGate
