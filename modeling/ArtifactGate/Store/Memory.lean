import ArtifactGate.Artifact
import ArtifactGate.Text.Split

/-!
A store kept in memory. Folders are not stored: they are implied by the paths of the objects. Calls
can be made to fail, uploads to be refused, and admission to wait for permits.
-/
namespace ArtifactGate

structure StoredObject where
  bytes : List UInt8
  properties : Properties
  created : Instant
  deriving DecidableEq, Repr, Inhabited

/-- The permits that admit uploads, one upload each. -/
structure Turnstile where
  permits : Nat
  isClosed : Bool := false
  deriving DecidableEq, Repr, Inhabited

structure MemoryStore where
  objects : SortedMap Location StoredObject := .empty
  /-- Lengths announced in place of the true ones; `none` announces no length. -/
  announced : SortedMap Location (Option Nat) := .empty
  failuresPending : Nat := 0
  refusesUploads : Bool := false
  turnstile : Option Turnstile := none
  metadataCalls : Nat := 0
  contentCalls : Nat := 0
  putCalls : Nat := 0
  now : Instant := ⟨0, 0⟩
  deriving DecidableEq, Repr, Inhabited

namespace MemoryStore

def insert (store : MemoryStore) (location : Location) (bytes : List UInt8)
    (properties : Properties) : MemoryStore :=
  { store with objects := store.objects.insert location ⟨bytes, properties, store.now⟩ }

def injectedFault : Fault := .remote "503 Service Unavailable" "injected failure"

def takeFailure (store : MemoryStore) : Option Fault × MemoryStore :=
  match store.failuresPending with
  | 0 => (none, store)
  | pending + 1 => (some injectedFault, { store with failuresPending := pending })

/-- The entry of a directory by which an object's path goes on, when the path lies below `above`. -/
def entryBelow? (above path : List Char) : Option Entry :=
  if above.isPrefixOf path then
    let rest := path.drop above.length
    match Text.splitFirst '/' rest with
    | some (folder, _) => some ⟨String.ofList folder, true⟩
    | none => some ⟨String.ofList rest, false⟩
  else none

def insertEntry (entry : Entry) : List Entry → List Entry
  | [] => [entry]
  | other :: rest =>
    match compare entry other with
    | .lt => entry :: other :: rest
    | .eq => other :: rest
    | .gt => other :: insertEntry entry rest

/-- What the directory at a path without slashes at its end lists, in ascending order. -/
def entriesOf (store : MemoryStore) (repository : String) (key : List Char) : List Entry :=
  let above := if key.isEmpty then [] else key ++ ['/']
  store.objects.entries.foldl (fun entries (location, _) =>
    if location.repository == repository then
      match entryBelow? above location.path.toList with
      | some entry => insertEntry entry entries
      | none => entries
    else entries) []

/-- What the store holds at a location; slashes at the end of its path do not count. -/
def describe (store : MemoryStore) (location : Location) : Except Fault Metadata :=
  let key := location.trimmedPath
  let uri := String.ofList ('/' :: key)
  match store.objects.get? ⟨location.repository, String.ofList key⟩ with
  | some object =>
    .ok (Metadata.file object.created location.repository uri object.bytes.length)
  | none =>
    match store.entriesOf location.repository key with
    | [] => .error (.notFound location.display)
    | entries => .ok (Metadata.directory store.now location.repository uri entries)

def metadata (location : Location) (store : MemoryStore) : Except Fault Metadata × MemoryStore :=
  match ({ store with metadataCalls := store.metadataCalls + 1 } : MemoryStore).takeFailure with
  | (some fault, store) => (.error fault, store)
  | (none, store) => (store.describe location, store)

/-- The object stored under exactly this path, with its announced length. -/
def retrieve (store : MemoryStore) (location : Location) : Except Fault Content :=
  match store.objects.get? location with
  | some object =>
    let length := (store.announced.get? location).getD (some object.bytes.length)
    .ok { length, bytes := object.bytes }
  | none => .error (.notFound location.display)

def content (location : Location) (store : MemoryStore) : Except Fault Content × MemoryStore :=
  match ({ store with contentCalls := store.contentCalls + 1 } : MemoryStore).takeFailure with
  | (some fault, store) => (.error fault, store)
  | (none, store) => (store.retrieve location, store)

def openUpload (store : MemoryStore) : MemoryStore :=
  { store with putCalls := store.putCalls + 1 }

/-- An upload goes through the turnstile, waits before it, or finds it closed. -/
def admitUpload (store : MemoryStore) : Option (Except Fault Unit) × MemoryStore :=
  match store.turnstile with
  | none => (some (.ok ()), store)
  | some ⟨permits, isClosed⟩ =>
    if isClosed then (some (.error (.uploadRejected "semaphore closed")), store)
    else
      match permits with
      | 0 => (none, store)
      | permits + 1 => (some (.ok ()), { store with turnstile := some ⟨permits, false⟩ })

def leaveTurnstile (store : MemoryStore) : MemoryStore :=
  { store with
    turnstile := store.turnstile.map fun turnstile =>
      { turnstile with permits := turnstile.permits + 1 } }

def storeBody (location : Location) (properties : Properties) (bytes : List UInt8)
    (store : MemoryStore) : Except Fault Unit × MemoryStore :=
  let store := store.leaveTurnstile
  if store.refusesUploads then
    (.error (.remote "409 Conflict" (location.display ++ " is locked")), store)
  else (.ok (), store.insert location bytes properties)

def listingDepth (store : MemoryStore) : Nat :=
  store.objects.entries.foldl (fun depth (location, _) =>
    max depth ((Text.pieces Location.isSlash location.path.toList).length + 1)) 1

def addPermits (store : MemoryStore) (permits : Nat) : MemoryStore :=
  { store with
    turnstile := store.turnstile.map fun turnstile =>
      { turnstile with permits := turnstile.permits + permits } }

def closeTurnstile (store : MemoryStore) : MemoryStore :=
  { store with
    turnstile := store.turnstile.map fun turnstile => { turnstile with isClosed := true } }

instance : RemoteStore MemoryStore where
  metadata
  content
  openUpload _ _ store := (.ok (), store.openUpload)
  admitUpload _ _ store := store.admitUpload
  storeBody
  dropAdmitted := leaveTurnstile
  listingDepth

end MemoryStore

end ArtifactGate
