import ArtifactGate.Action
import ArtifactGate.Gateway.Basic

/-!
A gateway with a client connected to it: how the effects of a transfer are carried out.
-/
namespace ArtifactGate

/-- The client's end for what it is sent. It takes at most `limit` bytes; a write that goes beyond fails,
or waits for ever. -/
structure Outlet where
  limit : Option Nat := none
  stalls : Bool := false
  taken : Array UInt8 := #[]
  deriving DecidableEq, Repr, Inhabited

namespace Outlet

def writeFault : Fault := .io "write failed"

/-- Takes bytes as far as the limit allows; a write that waits for ever has no answer. -/
def take (outlet : Outlet) (bytes : List UInt8) : Option (Except Fault Unit) × Outlet :=
  match outlet.limit with
  | none => (some (.ok ()), { outlet with taken := outlet.taken ++ bytes.toArray })
  | some limit =>
    let accepted := bytes.take (limit - outlet.taken.size)
    let outlet := { outlet with taken := outlet.taken ++ accepted.toArray }
    if accepted.length = bytes.length then (some (.ok ()), outlet)
    else if outlet.stalls then (none, outlet)
    else (some (.error writeFault), outlet)

end Outlet

structure Live (σ : Type) where
  gateway : Gateway σ
  outlet : Outlet := {}

namespace Live

variable {σ : Type}

/-- What an operation on the gateway answers, with the gateway after it put back. -/
def answer {α : Type} (live : Live σ) (result : α × Gateway σ) : α × Live σ :=
  (result.1, { live with gateway := result.2 })

variable [RemoteStore σ]

/-- Carries out an effect; one without an answer leaves the session waiting for ever. -/
def perform (effect : Effect) (live : Live σ) : Option effect.Answer × Live σ :=
  match effect with
  | .authorize repository user access =>
    (some (live.gateway.authorizer repository user access), live)
  | .metadata location =>
    let (answer, live) := live.answer (live.gateway.metadata location)
    (some answer, live)
  | .content location =>
    let (answer, live) := live.answer (live.gateway.content location)
    (some answer, live)
  | .beginUpload location properties =>
    live.answer (live.gateway.beginUpload location properties live.gateway.pipeCapacity)
  | .writeUpload upload chunk =>
    match live.gateway.write upload chunk with
    | (.whole, gateway) => (some (.ok ()), { live with gateway })
    | (.failed fault, gateway) => (some (.error fault), { live with gateway })
    | (.blocked _, gateway) => (none, { live with gateway })
  | .finishUpload upload => live.answer (live.gateway.finish upload)
  | .send bytes =>
    let (answer, outlet) := live.outlet.take bytes
    (answer, { live with outlet })
  | .log entry =>
    (some (), { live with
      gateway := { live.gateway with log := live.gateway.log ++ [entry] } })
  | .now => (some live.gateway.now, live)
  | .listingDepth => (some (RemoteStore.listingDepth live.gateway.store), live)
  | .diverge => (none, live)

@[irreducible]
def run {α : Type} (action : Action α) (live : Live σ) : Option α × Live σ :=
  action.run perform live

end Live

end ArtifactGate
