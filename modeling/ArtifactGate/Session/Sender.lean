import ArtifactGate.Glob.Scan
import ArtifactGate.Session.Transfer

/-!
The gate's side of a download. Whatever it sends it waits to be acknowledged; an agenda says what is to be
sent after that.
-/
namespace ArtifactGate

inductive Job
  | path (text : String)
  | node (node : Node)
  | leave
  deriving DecidableEq, Repr, Inhabited

/-- A file that is being sent. -/
structure Outgoing where
  node : Node
  content : OpenedContent
  deriving DecidableEq, Repr, Inhabited

/-- What the client is to acknowledge. -/
inductive Pending
  | request
  | fileTimes (file : Outgoing)
  | fileHeader (file : Outgoing)
  | fileBody (file : Outgoing)
  | directoryTimes (node : Node)
  | directoryHeader (node : Node)
  | directoryEnd
  deriving DecidableEq, Repr, Inhabited

structure Sender where
  pending : Pending := .request
  state : Wire.Acknowledgement := .status
  agenda : List Job
  deriving DecidableEq, Repr, Inhabited

def filePermissions : String := "0644"
def directoryPermissions : String := "0755"

/-- The file whose transfer goes on while this is awaited. -/
def Pending.site? : Pending → Option Site
  | .fileTimes file | .fileHeader file | .fileBody file => some file.node.site
  | .request | .directoryTimes _ | .directoryHeader _ | .directoryEnd => none

def timesLine (node : Node) : String :=
  let seconds (moment : Option Instant) : Int := (moment.map Instant.seconds).getD 0
  ({ modified := seconds node.modified?, accessed := seconds node.accessed? } :
    Wire.Timestamps).format

def fileHeader (file : Outgoing) : String :=
  ({ name := file.node.wireName, length := file.content.length, permissions := filePermissions } :
    Wire.Header).format 'C'

def directoryHeader (node : Node) : String :=
  ({ name := node.wireName, length := 0, permissions := directoryPermissions } :
    Wire.Header).format 'D'

namespace Sender

def start (transfer : Transfer) : Sender :=
  { agenda := transfer.command.paths.map .path }

def await (pending : Pending) (agenda : List Job) : Progress Sender :=
  .waiting { pending, agenda }

def nodesOf (transfer : Transfer) (path : String) : Attempt (List Node) := do
  if Glob.hasGlob path then
    let (base, pattern) := Glob.splitPattern path
    let base ← Node.resolve transfer.login.user base
    match ← Glob.scan base pattern transfer.command.recursive with
    | [] => throw (.notFound path)
    | nodes => return nodes
  else return [← Node.resolve transfer.login.user path]

def sendFileHeader (file : Outgoing) (agenda : List Job) : Attempt (Progress Sender) := do
  sendLine (fileHeader file)
  return await (.fileHeader file) agenda

def beginFile (transfer : Transfer) (node : Node) (agenda : List Job) : Attempt (Progress Sender) := do
  let content ← node.openRead 0
  let file : Outgoing := { node, content }
  if transfer.command.preserve then
    sendLine (timesLine node)
    return await (.fileTimes file) agenda
  else sendFileHeader file agenda

def contentEnded (file : Outgoing) : Fault :=
  .io (file.node.location.display ++ ": content ended after " ++
    toString file.content.bytes.length ++ " of " ++ toString file.content.length ++ " bytes")

/-- Sends as many bytes as the header announced. What the store sends beyond them is not read. -/
def sendBody (file : Outgoing) (agenda : List Job) : Attempt (Progress Sender) := do
  send (file.content.bytes.take file.content.length)
  if file.content.bytes.length < file.content.length then
    throw
      (match file.content.breakage with
      | some reason => .io reason
      | none => contentEnded file)
  sendOk
  return await (.fileBody file) agenda

def sendDirectoryHeader (node : Node) (agenda : List Job) : Step (Progress Sender) := do
  Step.unlogged (sendLine (directoryHeader node))
  return await (.directoryHeader node) agenda

def beginDirectory (transfer : Transfer) (node : Node) (agenda : List Job) :
    Step (Progress Sender) := do
  if transfer.command.preserve then
    Step.unlogged (sendLine (timesLine node))
    return await (.directoryTimes node) agenda
  else sendDirectoryHeader node agenda

def refusal? (transfer : Transfer) (node : Node) : Action (Option Fault) := do
  if !node.exists? then return some (.notFound node.location.display)
  else if !transfer.command.recursive then
    return some (.protocol (node.location.display ++ ": is a directory, use -r"))
  else if !(← node.isReadable) then return some (.readDenied node.location.display)
  else return none

def beginNode (transfer : Transfer) (node : Node) (agenda : List Job) : Step (Progress Sender) := do
  if node.isFile then transfer.logging node.site (beginFile transfer node agenda)
  else
    match ← refusal? transfer node with
    | some fault => transfer.logging ⟨node.location, 0⟩ (throw fault)
    | none => beginDirectory transfer node agenda

/-- Begins with the first of some nodes; the others go on the agenda. -/
def beginNodes (transfer : Transfer) (nodes : List Node) (agenda : List Job) :
    Step (Progress Sender) :=
  match nodes with
  | [] => return .over
  | node :: rest => beginNode transfer node (rest.map .node ++ agenda)

def proceed (transfer : Transfer) : List Job → Step (Progress Sender)
  | [] => return .over
  | .path text :: agenda => do
    beginNodes transfer (← Step.unlogged (nodesOf transfer text)) agenda
  | .node node :: agenda => beginNode transfer node agenda
  | .leave :: agenda => do
    Step.unlogged (sendLine "E")
    return await .directoryEnd agenda

def acknowledged (transfer : Transfer) (agenda : List Job) : Pending → Step (Progress Sender)
  | .request => proceed transfer agenda
  | .fileTimes file => transfer.logging file.node.site (sendFileHeader file agenda)
  | .fileHeader file => transfer.logging file.node.site (sendBody file agenda)
  | .fileBody file => do
    transfer.logSuccess ⟨file.node.location, file.content.length⟩
    proceed transfer agenda
  | .directoryTimes node => sendDirectoryHeader node agenda
  | .directoryHeader node => do
    let children ← node.children
    proceed transfer (children.map .node ++ .leave :: agenda)
  | .directoryEnd => proceed transfer agenda

def push (transfer : Transfer) (sender : Sender) (byte : UInt8) : Step (Progress Sender) := do
  match sender.state.push byte with
  | .more state => return .waiting { sender with state }
  | .done word =>
    transfer.loggingIn sender.pending.site? (ExceptT.mk (pure word))
    acknowledged transfer sender.agenda sender.pending

/-- The client has nothing more to send, but the gate waits for it. -/
def atEnd (transfer : Transfer) (sender : Sender) : Step Unit :=
  transfer.loggingIn sender.pending.site? (ExceptT.mk (pure (sender.state.atEnd false)))

end Sender

end ArtifactGate
