import ArtifactGate.AccessRecord
import ArtifactGate.Config.Permissions
import ArtifactGate.Gateway.ClientCache
import ArtifactGate.Gateway.Upload
import ArtifactGate.Retry

/-!
What the sessions of a gateway share: the remote store and the clients for it, the authorizer, the
access log, and the uploads in progress with the slots they occupy. A slot is taken when an upload is
begun. Its task gives the slot back last of all: the store has answered by then and the writer may know
it, or the upload was abandoned.
-/
namespace ArtifactGate

structure Settings where
  retries : Nat := 5
  clientCapacity : Nat := 10
  uploadBuffer : Nat := 16 * 1024
  uploadSlots : Nat := 64
  /-- Environment variables, and the properties their values are attached to uploads under. -/
  environmentProperties : SortedMap String String := .empty
  deriving DecidableEq, Repr, Inhabited

structure Gateway (σ : Type) where
  settings : Settings
  store : σ
  authorizer : Authorizer
  now : Instant
  clients : ClientCache
  log : List AccessRecord := []
  freeSlots : Nat
  acceptsUploads : Bool := true
  /-- The uploads in progress by number, in the order in which they were begun. -/
  uploads : List (Nat × Upload) := []
  /-- The uploads whose tasks have answered or were aborted, and have yet to let go of their slots. -/
  leaving : List Nat := []
  nextUpload : Nat := 0

namespace Gateway

variable {σ : Type}

def new (settings : Settings) (store : σ) (authorizer : Authorizer) (now : Instant) :
    Gateway σ :=
  { settings, store, authorizer, now
    clients := { capacity := settings.clientCapacity }
    freeSlots := max 1 settings.uploadSlots }

def pipeCapacity (gateway : Gateway σ) : Nat :=
  max 1 gateway.settings.uploadBuffer

/-- The properties that a session's environment gives to its uploads: variables that the settings
name and that have a value. -/
def environmentProperties (settings : Settings) (environment : SortedMap String String) :
    Properties :=
  settings.environmentProperties.entries.foldl (fun properties (name, property) =>
    match environment.get? name with
    | some value => if value.isEmpty then properties else properties.insert property value
    | none => properties) .empty

/-- Refuses new uploads and forgets the clients; uploads in progress go on. -/
def shutdown (gateway : Gateway σ) : Gateway σ :=
  { gateway with acceptsUploads := false, clients := gateway.clients.clear }

def useClient (gateway : Gateway σ) (repository : String) : Gateway σ :=
  { gateway with clients := (gateway.clients.use repository).2 }

section Calls

variable [RemoteStore σ]

/-- The suffixes of checksum files, which the store serves without describing them, and their
sizes. -/
def checksumSizes : List (String × Nat) :=
  [(".md5", 32), (".sha1", 40), (".sha256", 64)]

def checksumSize? (path : String) : Option Nat :=
  (checksumSizes.find? fun entry => entry.1.toList.isSuffixOf path.toList).map Prod.snd

def policy (gateway : Gateway σ) : RetryPolicy :=
  { attempts := gateway.settings.retries }

def retrying {α : Type} (gateway : Gateway σ) (operation : String)
    (call : StateM σ (Except Fault α)) : Except Fault α × Gateway σ :=
  let (answer, store) :=
    (gateway.policy.execute operation (fun _ => Pure.pure ()) call).run gateway.store
  (answer, { gateway with store })

def metadata (location : Location) (gateway : Gateway σ) : Except Fault Metadata × Gateway σ :=
  let gateway := gateway.useClient location.repository
  match checksumSize? location.path with
  | some size =>
    (.ok (Metadata.file gateway.now location.repository ("/" ++ location.path) size), gateway)
  | none => gateway.retrying "get metadata" (RemoteStore.metadata location)

def content (location : Location) (gateway : Gateway σ) : Except Fault Content × Gateway σ :=
  (gateway.useClient location.repository).retrying "get content" (RemoteStore.content location)

/-- Polls the tasks of some uploads in turn: what they become, and which of them are answered. -/
def pollEach : List (Nat × Upload) → σ → List (Nat × Upload) × σ × List Nat
  | [], store => ([], store, [])
  | (number, upload) :: rest, store =>
    let (polled, store) := upload.poll store
    let (rest, store, answered) := pollEach rest store
    ((number, polled) :: rest, store,
      if polled.isAnswered && !upload.isAnswered then number :: answered else answered)

/-- Polls all tasks. One that answers holds its slot on. -/
def pollAll (gateway : Gateway σ) : Gateway σ :=
  let (uploads, store, answered) := pollEach gateway.uploads gateway.store
  { gateway with uploads, store, leaving := gateway.leaving ++ answered }

def settle (gateway : Gateway σ) : Gateway σ :=
  (gateway.uploads.length + 1).repeat pollAll gateway

def upload? (gateway : Gateway σ) (number : Nat) : Option Upload :=
  gateway.uploads.lookup number

def setUpload (gateway : Gateway σ) (number : Nat) (upload : Upload) : Gateway σ :=
  { gateway with
    uploads := gateway.uploads.map fun entry =>
      if entry.1 = number then (number, upload) else entry }

def removeUpload (gateway : Gateway σ) (number : Nat) : Gateway σ :=
  { gateway with uploads := gateway.uploads.filter fun entry => entry.1 != number }

/-- The task of an upload that is over goes on to its end, and gives the slot back. -/
def letGo (gateway : Gateway σ) (number : Nat) : Gateway σ :=
  if number ∈ gateway.leaving then
    { gateway with
      leaving := gateway.leaving.erase number
      freeSlots := gateway.freeSlots + 1 }
  else gateway

def letAllGo (gateway : Gateway σ) : Gateway σ :=
  gateway.leaving.foldl letGo gateway

/-- Waits for a slot. The tasks that only have to let go of one do so; if there are none, all tasks go
on. -/
def awaitSlot (gateway : Gateway σ) : Gateway σ :=
  let gateway := gateway.letAllGo
  if gateway.freeSlots = 0 then gateway.settle.letAllGo else gateway

def takeSlot (gateway : Gateway σ) : Option (Except Fault Unit) × Gateway σ :=
  if !gateway.acceptsUploads then
    (some (.error (.uploadRejected "gateway is shutting down")), gateway)
  else
    let gateway := if gateway.freeSlots = 0 then gateway.awaitSlot else gateway
    match gateway.freeSlots with
    | 0 => (none, gateway)
    | slots + 1 => (some (.ok ()), { gateway with freeSlots := slots })

def startUpload (gateway : Gateway σ) (location : Location) (properties : Properties)
    (capacity : Nat) : Nat × Gateway σ :=
  let gateway := gateway.useClient location.repository
  (gateway.nextUpload,
    { gateway with
      uploads := gateway.uploads ++ [(gateway.nextUpload, { location, properties, capacity })]
      nextUpload := gateway.nextUpload + 1 })

def beginUpload (location : Location) (properties : Properties) (capacity : Nat)
    (gateway : Gateway σ) : Option (Except Fault Nat) × Gateway σ :=
  match gateway.takeSlot with
  | (none, gateway) => (none, gateway)
  | (some (.error fault), gateway) => (some (.error fault), gateway)
  | (some (.ok ()), gateway) =>
    let (number, gateway) := gateway.startUpload location properties capacity
    (some (.ok number), gateway)

/-- How a write ended. -/
inductive Written
  | whole
  | failed (fault : Fault)
  | blocked (rest : List UInt8)
  deriving DecidableEq, Repr, Inhabited

def uploadClosed : Fault := .io "upload stream already closed"

def offerNow (gateway : Gateway σ) (number : Nat) (byte : UInt8) : Option Upload.Offer :=
  (gateway.upload? number).map fun upload => upload.offer byte

def offer (number : Nat) (byte : UInt8) (gateway : Gateway σ) :
    Option Upload.Offer × Gateway σ :=
  match gateway.offerNow number byte with
  | some .full =>
    let gateway := gateway.settle
    (gateway.offerNow number byte, gateway)
  | offer => (offer, gateway)

def pour (number : Nat) : List UInt8 → Gateway σ → Written × Gateway σ
  | [], gateway => (.whole, gateway)
  | byte :: rest, gateway =>
    match gateway.offer number byte with
    | (some (.taken upload), gateway) => pour number rest (gateway.setUpload number upload)
    | (some (.refused fault upload), gateway) => (.failed fault, gateway.setUpload number upload)
    | (some .full, gateway) => (.blocked (byte :: rest), gateway)
    | (none, gateway) => (.failed uploadClosed, gateway)

def countWritten (gateway : Gateway σ) (number size : Nat) : Gateway σ :=
  match gateway.upload? number with
  | some upload => gateway.setUpload number { upload with written := upload.written + size }
  | none => gateway

def writeRest (number size : Nat) (rest : List UInt8) (gateway : Gateway σ) :
    Written × Gateway σ :=
  match gateway.upload? number with
  | none => (.failed uploadClosed, gateway)
  | some upload =>
    if upload.writer = .writing then
      match pour number rest gateway with
      | (.whole, gateway) => (.whole, gateway.countWritten number size)
      | stopped => stopped
    else (.failed uploadClosed, gateway)

def write (number : Nat) (chunk : List UInt8) (gateway : Gateway σ) : Written × Gateway σ :=
  gateway.writeRest number chunk.length chunk

/-- The fault of an upload whose store's answer was given out before. -/
def answerGone : Fault := .uploadFailed .cancelled

/-- Ends an upload's body and waits for the store's answer; without one the wait does not end. -/
def finish (number : Nat) (gateway : Gateway σ) : Option (Except Fault Nat) × Gateway σ :=
  match gateway.upload? number with
  | none => (some (.error answerGone), gateway)
  | some upload =>
    if upload.writer = .broken then (some (.error answerGone), gateway.removeUpload number)
    else
      let gateway := (gateway.setUpload number upload.endBody).settle
      match gateway.upload? number with
      | none => (some (.error answerGone), gateway)
      | some upload =>
        match upload.outcome? with
        | some outcome => (some outcome, gateway.removeUpload number)
        | none => (none, gateway)

/-- Gives an upload up. What the store has not answered is not stored; the task is aborted, and lets go
of its slot when it comes to that. -/
def abandon (number : Nat) (gateway : Gateway σ) : Gateway σ :=
  match gateway.upload? number with
  | none => gateway
  | some upload =>
    let leaving := if upload.isAnswered then gateway.leaving else gateway.leaving ++ [number]
    ({ gateway with store := upload.abort gateway.store, leaving } :
      Gateway σ).removeUpload number

/-- Gives up the uploads begun since the one numbered `mark` was the next. -/
def abandonSince (mark : Nat) (gateway : Gateway σ) : Gateway σ :=
  (gateway.uploads.filter fun entry => mark ≤ entry.1).foldl
    (fun gateway entry => gateway.abandon entry.1) gateway

end Calls

end Gateway

end ArtifactGate
