import ArtifactGate.AccessRecord
import ArtifactGate.Artifact
import ArtifactGate.Config.Permissions

/-!
What a transfer does, as a tree: each inner node asks for one effect, and what follows depends on the
answer alone. What can be said about a transfer for every store, clock and client is said by
induction on its tree; running it is another such induction.
-/
namespace ArtifactGate

inductive Effect
  | authorize (repository user : String) (access : Access)
  | metadata (location : Location)
  | content (location : Location)
  | beginUpload (location : Location) (properties : Properties)
  | writeUpload (upload : Nat) (chunk : List UInt8)
  | finishUpload (upload : Nat)
  | send (bytes : List UInt8)
  | log (entry : AccessRecord)
  | now
  /-- How many levels of directories a listing that ends can go down. -/
  | listingDepth
  | diverge
  deriving Repr, Inhabited

@[reducible] def Effect.Answer : Effect → Type
  | .authorize _ _ _ => Bool
  | .metadata _ => Except Fault Metadata
  | .content _ => Except Fault Content
  | .beginUpload _ _ => Except Fault Nat
  | .writeUpload _ _ => Except Fault Unit
  | .finishUpload _ => Except Fault Nat
  | .send _ => Except Fault Unit
  | .log _ => Unit
  | .now => Instant
  | .listingDepth => Nat
  | .diverge => Empty

inductive Action (α : Type) : Type
  | done (value : α)
  | ask (effect : Effect) (resume : effect.Answer → Action α)

namespace Action

variable {α β γ : Type}

def andThen : Action α → (α → Action β) → Action β
  | .done value, next => next value
  | .ask effect resume, next => .ask effect fun answer => (resume answer).andThen next

instance : Monad Action where
  pure := .done
  bind := andThen

theorem bind_eq (action : Action α) (next : α → Action β) :
    (action >>= next) = action.andThen next := rfl

theorem andThen_done (action : Action α) : action.andThen .done = action := by
  induction action with
  | done value => rfl
  | ask effect resume ih => simp only [andThen, ih]

theorem andThen_assoc (action : Action α) (next : α → Action β) (last : β → Action γ) :
    (action.andThen next).andThen last = action.andThen fun value => (next value).andThen last := by
  induction action with
  | done value => rfl
  | ask effect resume ih => simp only [andThen, ih]

instance : LawfulMonad Action :=
  LawfulMonad.mk' Action
    (fun action => andThen_done action)
    (fun _ _ => rfl)
    andThen_assoc

def request (effect : Effect) : Action effect.Answer :=
  .ask effect .done

/-- Runs an action on a world. An effect that gives no answer ends the run. -/
def run {ω : Type} (perform : (effect : Effect) → ω → Option effect.Answer × ω) :
    Action α → ω → Option α × ω
  | .done value, world => (some value, world)
  | .ask effect resume, world =>
    match perform effect world with
    | (some answer, world) => (resume answer).run perform world
    | (none, world) => (none, world)

theorem run_andThen {ω : Type} (perform : (effect : Effect) → ω → Option effect.Answer × ω)
    (action : Action α) (next : α → Action β) (world : ω) :
    (action.andThen next).run perform world =
      match action.run perform world with
      | (some value, world) => (next value).run perform world
      | (none, world) => (none, world) := by
  induction action generalizing world with
  | done value => rfl
  | ask effect resume ih =>
      simp only [andThen, run]
      split
      · rename_i answer after performed
        exact ih answer after
      · rfl

end Action

abbrev Attempt := ExceptT Fault Action

end ArtifactGate
