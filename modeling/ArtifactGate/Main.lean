import ArtifactGate.Http.Encoding
import ArtifactGate.Program
import Std.Async.DNS
import Std.Async.TCP
import Std.Internal.UV.System

/-!
The command line. Bytes are read, handed to the session and what it puts out is written; where the session
needs an answer of the server that has not come yet, the request is made and the step is carried out
again with the answer.
-/
namespace ArtifactGate.Main

open Std.Async Std.Net

def readEnvironment : IO Environment := do
  return .ofList (← Std.Internal.UV.System.osEnviron).toList

def readNow : IO Instant := do
  let now ← Std.Time.Timestamp.now
  return { seconds := now.toSecondsSinceUnixEpoch.val }

def readFile? (path : String) : IO (Option (List UInt8)) := do
  try
    return some (← IO.FS.readBinFile path).toList
  catch _ => return none

partial def receiveAll (client : TCP.Socket.Client) (received : ByteArray) : IO ByteArray := do
  match ← (client.recv? 65536).block with
  | some data => receiveAll client (received ++ data)
  | none => return received

def bareHost (host : String) : String :=
  String.ofList (host.toList.filter fun c => c != '[' && c != ']')

def exchange (request : Http.Request) : IO Http.Reply := do
  match Http.Address.parse? request.url with
  | none => return .lost "the url cannot be read"
  | some address =>
    if address.secure then return .lost "encrypted connections are not supported"
    else
      try
        let hosts ← (DNS.getAddrInfo (bareHost address.host) "").block
        match hosts[0]? with
        | none => return .lost "the server has no address"
        | some host =>
          let port := address.port.toUInt16
          let place : SocketAddress :=
            match host with
            | .v4 addr => .v4 { addr, port }
            | .v6 addr => .v6 { addr, port }
          let client ← TCP.Socket.Client.mk
          (client.connect place).block
          (client.send ⟨(request.encode address).toArray⟩).block
          return .ofBytes (← receiveAll client .empty).toList
      catch error => return .lost (toString error)

def replay (replies : Array Http.Reply) : Transport :=
  { reply := fun requests => replies[requests.length - 1]? }

abbrev Running := Session × Live HttpStore

def reachedThrough (transport : Transport) (running : Running) : Running :=
  let (session, live) := running
  let store := { live.gateway.store with transport, requests := [], isHalted := false }
  (session, { live with gateway := { live.gateway with store } })

/-- Carries out a step, with the replies of the server that it takes. -/
partial def carryOut (step : Running → Running) (running : Running)
    (replies : Array Http.Reply) : IO Running := do
  let after := step (reachedThrough (replay replies) running)
  let store := after.2.gateway.store
  match store.isHalted, store.requests with
  | true, request :: _ => carryOut step running (replies.push (← exchange request))
  | _, _ => return after

def flush (output : IO.FS.Stream) (running : Running) : IO Running := do
  let (session, live) := running
  unless live.outlet.taken.isEmpty do
    output.write ⟨live.outlet.taken⟩
    output.flush
  return (session, { live with outlet := { live.outlet with taken := #[] } })

def advance (output : IO.FS.Stream) (step : Running → Running) (running : Running) :
    IO Running := do
  flush output (← carryOut step running #[])

/-- Feeds a session the standard input until the session or the input ends. -/
partial def serve (input output : IO.FS.Stream) (running : Running) : IO Running := do
  if running.1.result?.isSome then return running
  else
    let data ← input.read 65536
    if data.isEmpty then advance output (Session.finish .closed) running
    else
      let mut running := running
      for byte in data.toList do
        running ← advance output (Session.feed byte) running
      serve input output running

def report (record : AccessRecord) : IO Unit :=
  IO.eprintln (record.user ++ " " ++ record.address ++ " " ++ record.method.display ++ " " ++
    record.location.display ++ " " ++ toString record.size ++ " " ++ toString record.status)

def put (output : IO.FS.Stream) (outcome : Outcome) : IO UInt32 := do
  output.write ⟨outcome.output.toArray⟩
  output.flush
  return outcome.status.toUInt32

end ArtifactGate.Main

open ArtifactGate ArtifactGate.Main in
def main (arguments : List String) : IO UInt32 := do
  let output ← IO.getStdout
  let environment ← readEnvironment
  match Invocation.parse environment arguments with
  | .error outcome => put output outcome
  | .ok invocation =>
    match Live.ofConfigFile (← readFile? invocation.configFile) (replay #[]) (← readNow) with
    | .error outcome => put output outcome
    | .ok live =>
      let start (running : Running) : Running := invocation.start running.2
      let running ← advance output start (.ended (.ok ()), live)
      let running ← serve (← IO.getStdin) output running
      running.2.gateway.log.forM report
      return (Outcome.ofSession running).status.toUInt32
