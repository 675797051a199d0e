import ArtifactGate.Store.Memory

/-!
A store in memory that follows a script: chosen calls fail, chosen contents break off, and the times it
shows are set. It keeps what was asked of it.
-/
namespace ArtifactGate

inductive StoreCall
  | metadata
  | content
  | put
  deriving DecidableEq, Repr, Inhabited

/-- Calls of one kind at one location that fail; without a count all of them do. -/
structure ScriptedFault where
  call : StoreCall
  location : Location
  fault : Fault
  remaining : Option Nat
  deriving DecidableEq, Repr, Inhabited

/-- An upload the store has answered, with the body it read. -/
structure PutOutcome where
  location : Location
  properties : Properties
  bytes : List UInt8 := []
  result : Except Fault Unit
  deriving Repr, Inhabited

structure ScriptedStore where
  memory : MemoryStore := {}
  faults : List ScriptedFault := []
  moment : Instant := ⟨1600000000, 0⟩
  /-- Times of modification and update, by location without slashes at the end. -/
  times : SortedMap Location (Option Instant × Option Instant) := .empty
  breaks : SortedMap Location Nat := .empty
  metadataCalls : Nat := 0
  contentCalls : Nat := 0
  puts : List PutOutcome := []
  deriving Repr, Inhabited

namespace ScriptedStore

def spend (call : StoreCall) (location : Location) :
    List ScriptedFault → Option Fault × List ScriptedFault
  | [] => (none, [])
  | entry :: rest =>
    if entry.call == call && entry.location == location && entry.remaining != some 0 then
      (some entry.fault, { entry with remaining := entry.remaining.map (· - 1) } :: rest)
    else
      let (fault, rest) := spend call location rest
      (fault, entry :: rest)

def takeFault (store : ScriptedStore) (call : StoreCall) (location : Location) :
    Option Fault × ScriptedStore :=
  let (fault, faults) := spend call location store.faults
  (fault, { store with faults })

def dated (store : ScriptedStore) (location : Location) (metadata : Metadata) : Metadata :=
  let key : Location := { location with path := String.ofList location.trimmedPath }
  let (modified, updated) :=
    (store.times.get? key).getD (some store.moment, some store.moment)
  { metadata with created := some store.moment, modified, updated }

def metadata (location : Location) (store : ScriptedStore) :
    Except Fault Metadata × ScriptedStore :=
  match ({ store with metadataCalls := store.metadataCalls + 1 } : ScriptedStore).takeFault
      .metadata location with
  | (some fault, store) => (.error fault, store)
  | (none, store) =>
    let (answer, memory) := store.memory.metadata location
    (answer.map (store.dated location), { store with memory })

/-- A content cut where the script breaks it off; one that is shorter is whole. -/
def cut (store : ScriptedStore) (location : Location) (content : Content) : Content :=
  match store.breaks.get? location with
  | some after =>
    if after ≤ content.bytes.length then
      { content with bytes := content.bytes.take after, breakage := some "connection reset" }
    else content
  | none => content

def content (location : Location) (store : ScriptedStore) :
    Except Fault Content × ScriptedStore :=
  match ({ store with contentCalls := store.contentCalls + 1 } : ScriptedStore).takeFault
      .content location with
  | (some fault, store) => (.error fault, store)
  | (none, store) =>
    let (answer, memory) := store.memory.content location
    (answer.map (store.cut location), { store with memory })

/-- Keeps the answer to an upload, and the body that was read for it. -/
def answered (store : ScriptedStore) (location : Location) (properties : Properties)
    (bytes : List UInt8) (result : Except Fault Unit) : ScriptedStore :=
  { store with puts := store.puts ++ [{ location, properties, bytes, result }] }

def openUpload (location : Location) (properties : Properties) (store : ScriptedStore) :
    Except Fault Unit × ScriptedStore :=
  match store.takeFault .put location with
  | (some fault, store) => (.error fault, store.answered location properties [] (.error fault))
  | (none, store) => (.ok (), { store with memory := store.memory.openUpload })

def admitUpload (location : Location) (properties : Properties) (store : ScriptedStore) :
    Option (Except Fault Unit) × ScriptedStore :=
  match store.memory.admitUpload with
  | (some (.error fault), memory) =>
    (some (.error fault),
      ({ store with memory } : ScriptedStore).answered location properties [] (.error fault))
  | (answer, memory) => (answer, { store with memory })

def storeBody (location : Location) (properties : Properties) (bytes : List UInt8)
    (store : ScriptedStore) : Except Fault Unit × ScriptedStore :=
  let (result, memory) := store.memory.storeBody location properties bytes
  (result, ({ store with memory } : ScriptedStore).answered location properties bytes result)

instance : RemoteStore ScriptedStore where
  metadata
  content
  openUpload
  admitUpload
  storeBody
  dropAdmitted store := { store with memory := store.memory.leaveTurnstile }
  listingDepth store := store.memory.listingDepth

end ScriptedStore

end ArtifactGate
