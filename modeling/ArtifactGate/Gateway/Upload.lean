import ArtifactGate.Artifact
import ArtifactGate.ByteQueue

/-!
An upload in progress: a writer, a pipe of bounded capacity, and a task that hands what comes through
the pipe to the store. The writer's steps are `offer` and `endBody`; the task moves only when it is
polled, and its steps are `receive` and `answer`. The store has the whole body or nothing: it gets the
body when the writer has ended it and the task has drained the pipe.
-/
namespace ArtifactGate

inductive WriterState
  | writing
  | ended
  | broken
  deriving DecidableEq, Repr, Inhabited

/-- How far the task has come with the store. -/
inductive PutStage
  | unstarted
  | waiting
  | reading (body : ByteQueue)
  | answered (verdict : Except Fault Unit)
  deriving Repr, Inhabited

structure Upload where
  location : Location
  properties : Properties
  capacity : Nat
  pipe : ByteQueue := .empty
  writer : WriterState := .writing
  stage : PutStage := .unstarted
  written : Nat := 0
  deriving Repr, Inhabited

namespace Upload

def verdict? (upload : Upload) : Option (Except Fault Unit) :=
  match upload.stage with
  | .answered verdict => some verdict
  | _ => none

def isAnswered (upload : Upload) : Bool :=
  upload.verdict?.isSome

/-- What the writer learns when the store answers before the body has ended. -/
def failure : Except Fault Unit → Fault
  | .error fault => .uploadFailed fault
  | .ok () => .io "broken pipe"

/-- What becomes of a byte that the writer offers. -/
inductive Offer
  | taken (upload : Upload)
  | full
  | refused (fault : Fault) (upload : Upload)
  deriving Repr, Inhabited

/-- The writer offers a byte. An upload that the store has answered takes no more. -/
def offer (upload : Upload) (byte : UInt8) : Offer :=
  match upload.verdict? with
  | some verdict => .refused (failure verdict) { upload with writer := .broken }
  | none =>
    if upload.pipe.size < upload.capacity then
      .taken { upload with pipe := upload.pipe.push byte }
    else .full

def endBody (upload : Upload) : Upload :=
  { upload with writer := .ended }

/-- What the writer of an ended body learns once the store has answered: how many bytes were
written. -/
def outcome? (upload : Upload) : Option (Except Fault Nat) :=
  upload.verdict?.map fun
    | .ok () => .ok upload.written
    | .error fault => .error (.uploadFailed fault)

/-- The task takes all that is in the pipe, after the part of the body that it has. -/
def receive (upload : Upload) (body : ByteQueue) : Upload :=
  { upload with pipe := .empty, stage := .reading (body.append upload.pipe) }

def answer (upload : Upload) (verdict : Except Fault Unit) : Upload :=
  { upload with stage := .answered verdict }

section Task

variable {σ : Type} [RemoteStore σ]

def storeComplete (upload : Upload) (store : σ) : Upload × σ :=
  match upload.stage, upload.writer with
  | .reading body, .ended =>
    let (verdict, store) :=
      RemoteStore.storeBody upload.location upload.properties body.toList store
    (upload.answer verdict, store)
  | _, _ => (upload, store)

def drain (upload : Upload) (body : ByteQueue) (store : σ) : Upload × σ :=
  (upload.receive body).storeComplete store

def enter (upload : Upload) (store : σ) : Upload × σ :=
  match RemoteStore.admitUpload upload.location upload.properties store with
  | (none, store) => ({ upload with stage := .waiting }, store)
  | (some (.error fault), store) => (upload.answer (.error fault), store)
  | (some (.ok ()), store) => upload.drain .empty store

def poll (upload : Upload) (store : σ) : Upload × σ :=
  match upload.stage with
  | .unstarted =>
    match RemoteStore.openUpload upload.location upload.properties store with
    | (.error fault, store) => (upload.answer (.error fault), store)
    | (.ok (), store) => upload.enter store
  | .waiting => upload.enter store
  | .reading body => upload.drain body store
  | .answered _ => (upload, store)

def abort (upload : Upload) (store : σ) : σ :=
  match upload.stage with
  | .reading _ => RemoteStore.dropAdmitted store
  | _ => store

end Task

end Upload

end ArtifactGate
