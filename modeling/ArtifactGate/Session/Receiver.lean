import ArtifactGate.Session.Transfer

/-!
The gate's side of an upload. Between files it waits for a control byte; a header line opens a file or a
directory, or closes one; the bytes of a file go to a writer, and the file is acknowledged only after
the writer has been told by the store that it has the file.
-/
namespace ArtifactGate

/-- A directory the client is in: the node it writes to, and the times of the next header. -/
structure Level where
  target : Node
  times : Option Wire.Timestamps := none
  deriving DecidableEq, Repr, Inhabited

/-- What the line after a control byte says. -/
inductive LineKind
  | times
  | file
  | directory
  | leave
  | warning
  | error
  deriving DecidableEq, Repr, Inhabited

/-- A file whose bytes are coming in. -/
structure Incoming where
  node : Node
  length : Nat
  writer : Writer
  remaining : Nat
  deriving DecidableEq, Repr, Inhabited

inductive Reception
  | control
  | line (kind : LineKind) (line : Wire.Line)
  | body (file : Incoming)
  | lastWord (site : Site) (state : Wire.Acknowledgement)
  deriving DecidableEq, Repr, Inhabited

structure Receiver where
  level : Level
  outer : List Level := []
  phase : Reception := .control
  deriving DecidableEq, Repr, Inhabited

/-- The properties by which an upload keeps a file's times and permissions. -/
def modifiedProperty : String := "scp.modified"
def accessedProperty : String := "scp.accessed"
def permissionsProperty : String := "scp.permissions"

def isFileName (name : String) : Bool :=
  !name.isEmpty && name != "." && name != ".." && !name.toList.contains '/'

def checkName (name : String) : Except Fault Unit :=
  if isFileName name then .ok ()
  else .error (.protocol ("invalid file name " ++ Text.quoted name))

def notDirectory (node : Node) : Fault :=
  .protocol (node.location.display ++ ": not a directory")

/-- The node that an incoming file is written to, before it is checked. Directories receive a child
of that name, existing files are overwritten, and what is missing is made unless its parent is a
file. -/
def chooseFileTarget (target : Node) (name : String) : Attempt Node := do
  if target.isFile then return target
  else if target.exists? || target.location.namesDirectory then target.child name
  else
    match ← target.parent? with
    | some parent => if parent.isFile then throw (notDirectory parent) else return target
    | none => return target

def fileTarget (target : Node) (name : String) : Attempt Node := do
  ExceptT.mk (pure (checkName name))
  let node ← chooseFileTarget target name
  if node.exists? && node.isDirectory then
    throw (.protocol (node.location.display ++ ": is a directory"))
  if !(← node.isWritable) then throw (.writeDenied node.location.display)
  return node

def directoryTarget (target : Node) (name : String) : Attempt Node := do
  ExceptT.mk (pure (checkName name))
  if !target.isDirectory && !target.isSink then throw (notDirectory target)
  let directory ← target.childDirectory name
  if !directory.isDirectory && !directory.isSink then
    throw (.protocol (directory.location.display ++ ": exists and is not a directory"))
  if !(← directory.isWritable) then throw (.writeDenied directory.location.display)
  return directory

namespace Receiver

/-- What an upload keeps of a file: what the environment gives, and with `-p` its times and
permissions if times were sent. -/
def fileProperties (transfer : Transfer) (header : Wire.Header) (times : Option Wire.Timestamps) :
    Properties :=
  match transfer.command.preserve, times with
  | true, some times =>
    ((transfer.properties.insert modifiedProperty (toString times.modified)).insert
      accessedProperty (toString times.accessed)).insert permissionsProperty header.permissions
  | _, _ => transfer.properties

/-- The first step of an upload: the target of the command is accepted. -/
def start (transfer : Transfer) (path : String) : Step Receiver := do
  let target ← Step.unlogged (Node.resolve transfer.login.user path)
  if transfer.command.targetIsDirectory && !target.isDirectory && !target.isSink then
    throw { fault := notDirectory target }
  Step.unlogged sendOk
  return { level := { target } }

def atControl (receiver : Receiver) : Progress Receiver :=
  .waiting { receiver with phase := .control }

def finishFile (receiver : Receiver) (file : Incoming) : Attempt (Progress Receiver) := do
  let _ ← file.writer.finish
  sendOk
  return .waiting { receiver with phase := .lastWord file.node.site .status }

/-- The gate waits for the bytes of a file that are still to come. -/
def awaitBody (receiver : Receiver) (file : Incoming) : Attempt (Progress Receiver) :=
  if file.remaining = 0 then receiver.finishFile file
  else return .waiting { receiver with phase := .body file }

def beginFile (receiver : Receiver) (node : Node) (length : Nat) : Attempt (Progress Receiver) := do
  let writer ← node.openWrite 0
  sendOk
  receiver.awaitBody { node, length, writer, remaining := length }

/-- A file is announced. The times that were sent apply to it and to no other. -/
def openFile (transfer : Transfer) (receiver : Receiver) (header : Wire.Header) :
    Step (Progress Receiver) := do
  let level := receiver.level
  let target ←
    transfer.logging ⟨level.target.location.child header.name, header.length⟩
      (fileTarget level.target header.name)
  let node := (target.withSize header.length).withProperties
    (fileProperties transfer header level.times)
  transfer.logging node.site
    (beginFile { receiver with level := { level with times := none } } node header.length)

def pushBody (receiver : Receiver) (file : Incoming) (byte : UInt8) : Attempt (Progress Receiver) := do
  let writer ← file.writer.write [byte]
  receiver.awaitBody { file with writer, remaining := file.remaining - 1 }

def enter (transfer : Transfer) (receiver : Receiver) (header : Wire.Header) :
    Step (Progress Receiver) := do
  if !transfer.command.recursive then
    throw { fault := .protocol (header.name ++ ": directory upload requires -r") }
  let directory ← Step.unlogged (directoryTarget receiver.level.target header.name)
  Step.unlogged sendOk
  return .waiting
    { level := { target := directory }
      outer := { receiver.level with times := none } :: receiver.outer
      phase := .control }

/-- A directory is left; leaving the outermost one ends the session. -/
def leave (receiver : Receiver) : Step (Progress Receiver) := do
  Step.unlogged sendOk
  match receiver.outer with
  | [] => return .over
  | level :: outer => return .waiting { level, outer, phase := .control }

def onLine (transfer : Transfer) (receiver : Receiver) : LineKind → String →
    Step (Progress Receiver)
  | .times, text => do
    let times ← Step.ofExcept (Wire.Timestamps.parse ("T" ++ text))
    Step.unlogged sendOk
    return ({ receiver with level := { receiver.level with times := some times } } :
      Receiver).atControl
  | .file, text => do
    receiver.openFile transfer (← Step.ofExcept (Wire.Header.parse ("C" ++ text)))
  | .directory, text => do
    receiver.enter transfer (← Step.ofExcept (Wire.Header.parse ("D" ++ text)))
  | .leave, _ => receiver.leave
  | .warning, _ => return receiver.atControl
  | .error, text => throw { fault := .peer text }

def lineKind? (byte : UInt8) : Option LineKind :=
  if byte = 84 then some .times
  else if byte = 67 then some .file
  else if byte = 68 then some .directory
  else if byte = 69 then some .leave
  else if byte = Wire.warningStatus then some .warning
  else if byte = Wire.errorStatus then some .error
  else none

def hexByte (byte : UInt8) : String :=
  let digits := Nat.toDigits 16 byte.toNat
  String.ofList ("0x".toList ++ List.replicate (2 - digits.length) '0' ++ digits)

def unexpectedControl (byte : UInt8) : Fault :=
  .protocol ("unexpected control byte " ++ hexByte byte)

def push (transfer : Transfer) : Receiver → UInt8 → Step (Progress Receiver)
  | ⟨level, outer, .control⟩, byte =>
    match lineKind? byte with
    | some kind => return .waiting ⟨level, outer, .line kind {}⟩
    | none => throw { fault := unexpectedControl byte }
  | ⟨level, outer, .line kind line⟩, byte =>
    match line.push byte with
    | .more line => return .waiting ⟨level, outer, .line kind line⟩
    | .done text => do
      onLine transfer ⟨level, outer, .control⟩ kind (← Step.ofExcept text)
  | ⟨level, outer, .body file⟩, byte =>
    transfer.logging file.node.site (pushBody ⟨level, outer, .control⟩ file byte)
  | ⟨level, outer, .lastWord site state⟩, byte =>
    match state.push byte with
    | .more state => return .waiting ⟨level, outer, .lastWord site state⟩
    | .done word => do
      transfer.logging site (ExceptT.mk (pure word))
      transfer.logSuccess site
      return .waiting ⟨level, outer, .control⟩

def site? (receiver : Receiver) : Option Site :=
  match receiver.phase with
  | .control | .line _ _ => none
  | .body file => some file.node.site
  | .lastWord site _ => some site

def cutShort (file : Incoming) : Fault :=
  .protocol ("stream ended after " ++ toString (file.length - file.remaining) ++ " of " ++
    toString file.length ++ " bytes")

/-- The client has nothing more to send. That is in order between files and in place of a last
word. -/
def atEnd (transfer : Transfer) (receiver : Receiver) : Step Unit := do
  match receiver.phase with
  | .control => return ()
  | .line _ _ => throw { fault := Wire.Line.unended }
  | .body file => transfer.logging file.node.site (throw (cutShort file))
  | .lastWord site state =>
    transfer.logging site (ExceptT.mk (pure (state.atEnd true)))
    transfer.logSuccess site

end Receiver

end ArtifactGate
