import ArtifactGate.Action
import ArtifactGate.Text.Printable

/-!
One path as a client sees it. Metadata is fetched once, when the node is made; a node without metadata
does not exist yet, which is where every new upload starts. The sink exists always, reads as an
empty file and takes whatever is written.
-/
namespace ArtifactGate

inductive Backing
  /-- Reads are empty, writes are dropped, and the store is never asked. -/
  | sink
  | remote
  deriving DecidableEq, Repr, Inhabited

def Backing.display : Backing → String
  | .sink => "Sink"
  | .remote => "Remote"

structure Node where
  location : Location
  user : String
  backing : Backing
  metadata : Option Metadata
  /-- The size that an incoming file announced, which counts for more than what the store said. -/
  announcedSize : Option Nat := none
  properties : Properties := .empty
  deriving DecidableEq, Repr, Inhabited

/-- Content opened for a download: the bytes after a skipped part, and how many were announced. -/
structure OpenedContent where
  length : Nat
  bytes : List UInt8
  breakage : Option String := none
  deriving DecidableEq, Repr, Inhabited

/-- Where the bytes of an incoming file go. -/
inductive Writer
  | sink (written : Nat)
  | upload (number : Nat)
  deriving DecidableEq, Repr, Inhabited

namespace Node

def uploadedBy : String := "uploaded-by"

def name (node : Node) : String := node.location.name

def wireName (node : Node) : String :=
  String.ofList (Text.takeTrailing (fun c => !Location.isSlash c) node.name.toList)

def isSink (node : Node) : Bool := node.backing == .sink

def exists? (node : Node) : Bool := node.metadata.isSome

/-- Missing nodes count as directories, so that paths can be made below them. -/
def isDirectory (node : Node) : Bool :=
  match node.metadata with
  | some metadata => metadata.isDirectory
  | none => true

def isFile (node : Node) : Bool :=
  match node.metadata with
  | some metadata => !metadata.isDirectory
  | none => false

def size (node : Node) : Nat :=
  match node.announcedSize, node.metadata with
  | some size, _ => size
  | none, some metadata => metadata.size
  | none, none => 0

def withSize (node : Node) (size : Nat) : Node :=
  { node with announcedSize := some size }

def withProperties (node : Node) (properties : Properties) : Node :=
  { node with properties := node.properties.insertAll properties.entries }

def modified? (node : Node) : Option Instant :=
  node.metadata.bind Metadata.modified

def accessed? (node : Node) : Option Instant :=
  node.metadata.bind fun metadata => metadata.updated <|> metadata.modified

def ofSink (now : Instant) (user : String) (location : Location) : Node :=
  { location, user, backing := .sink
    metadata := some (Metadata.file now location.repository location.path 0) }

def ofRemote (user : String) (location : Location) (metadata : Option Metadata) : Node :=
  { location, user, backing := .remote, metadata }

def found? {α : Type} : Except Fault α → Except Fault (Option α)
  | .ok value => .ok (some value)
  | .error fault => if fault.isNotFound then .ok none else .error fault

/-- The metadata of a location; what the store does not have has none. -/
def fetchMetadata (location : Location) : Attempt (Option Metadata) :=
  ExceptT.mk (found? <$> Action.request (.metadata location))

def fetchContent (location : Location) : Attempt (Option Content) :=
  ExceptT.mk (found? <$> Action.request (.content location))

/-- The node at a location. A fault in fetching its metadata is a fault. -/
def fetch (user : String) (location : Location) : Attempt Node := do
  if location.isSink then
    return ofSink (← Action.request .now) user location
  else
    return ofRemote user location (← fetchMetadata location)

/-- The node at a location. A fault in fetching its metadata means that it does not exist. -/
def lookUp (user : String) (location : Location) : Action Node := do
  match ← (fetch user location).run with
  | .ok node => return node
  | .error _ => return ofRemote user location none

def resolve (user text : String) : Attempt Node := do
  let location := Location.resolve text
  if location.isEmpty then
    throw (.protocol (text ++ ": path does not name a repository"))
  lookUp user location

def allows (node : Node) (access : Access) : Action Bool :=
  match node.backing with
  | .sink => return true
  | .remote => Action.request (.authorize node.location.repository node.user access)

def isReadable (node : Node) : Action Bool := node.allows .read

def isWritable (node : Node) : Action Bool := node.allows .write

def child (node : Node) (name : String) : Action Node :=
  lookUp node.user (node.location.child name)

def childDirectory (node : Node) (name : String) : Action Node :=
  lookUp node.user (node.location.childDirectory name)

def parent? (node : Node) : Action (Option Node) := do
  match node.location.parent? with
  | some location => return some (← lookUp node.user location)
  | none => return none

def entryLocation (node : Node) (entry : Entry) : Location :=
  if entry.isFolder then node.location.childDirectory entry.name
  else node.location.child entry.name

/-- The nodes of some entries, in order, without those whose metadata cannot be fetched. -/
def childrenOf (node : Node) : List Entry → Action (List Node)
  | [] => return []
  | entry :: rest => do
    match ← (fetch node.user (node.entryLocation entry)).run with
    | .ok child => return child :: (← node.childrenOf rest)
    | .error _ => node.childrenOf rest

/-- What the directory holds, in the order in which the store lists it. -/
def children (node : Node) : Action (List Node) :=
  match node.metadata with
  | some metadata => node.childrenOf metadata.entries
  | none => return []

def skip (offset length : Nat) (content : Content) : Except Fault OpenedContent :=
  match content.breakage with
  | some reason =>
    if content.bytes.length < offset then .error (.io reason)
    else
      .ok { length := length - offset, bytes := content.bytes.drop offset, breakage := some reason }
  | none =>
    .ok
      { length := length - min offset content.bytes.length
        bytes := content.bytes.drop offset }

/-- Opens the content after its first `offset` bytes. What the store does not have reads as empty. -/
def openRead (node : Node) (offset : Nat) : Attempt OpenedContent := do
  if !(← node.isReadable) then throw (.readDenied node.location.display)
  if node.isSink then return { length := 0, bytes := [] }
  match ← fetchContent node.location with
  | some content => ExceptT.mk (pure (skip offset (content.length.getD node.size) content))
  | none => return { length := 0, bytes := [] }

def openWrite (node : Node) (offset : Nat) : Attempt Writer := do
  if !(← node.isWritable) then throw (.writeDenied node.location.display)
  if offset ≠ 0 then throw (.unsupportedOffset offset)
  if node.isSink then return .sink 0
  let properties := node.properties.insert uploadedBy node.user
  return .upload (← ExceptT.mk (Action.request (.beginUpload node.location properties)))

def inspect (node : Node) : String :=
  "VirtualFileNode \x7b location: RepositoryAndPath \x7b repository: " ++
    Text.quoted node.location.repository ++ ", path: " ++ Text.quoted node.location.path ++
    " \x7d, username: " ++ Text.quoted node.user ++ ", backing: " ++ node.backing.display ++
    ", exists: " ++ toString node.exists? ++ ", size: " ++ toString node.size ++ " \x7d"

end Node

namespace Writer

def write (writer : Writer) (chunk : List UInt8) : Attempt Writer := do
  match writer with
  | .sink written => return .sink (written + chunk.length)
  | .upload number =>
    ExceptT.mk (Action.request (.writeUpload number chunk))
    return .upload number

/-- Ends the file and waits until the store has it: how many bytes were written. -/
def finish (writer : Writer) : Attempt Nat :=
  match writer with
  | .sink written => return written
  | .upload number => ExceptT.mk (Action.request (.finishUpload number))

end Writer

end ArtifactGate
