import ArtifactGate.Proofs.Action
import ArtifactGate.Proofs.Live
import ArtifactGate.Session.Transfer

/-!
An action beside one that leaves out asking about some places. Over stores of which the one does not list these
places, both end alike; what they end with differs only in what directories list.
-/
namespace ArtifactGate

/-- The place of an entry of a directory. -/
def Location.ofEntry (location : Location) (entry : Entry) : Location :=
  if entry.isFolder then location.childDirectory entry.name else location.child entry.name

/-- What a directory's metadata says when it does not list the places that are gone. -/
def Metadata.without (gone : Location → Bool) (location : Location) (metadata : Metadata) : Metadata :=
  { metadata with entries := metadata.entries.filter fun entry => !gone (location.ofEntry entry) }

def Node.without (gone : Location → Bool) (node : Node) : Node :=
  { node with metadata := node.metadata.map (Metadata.without gone node.location) }

/-- The places that are gone are asked for when they are listed, and cannot be described; that they do not exist
is not said. -/
def Loses (describes : Location → Except Fault Metadata) (gone : Location → Bool) : Prop :=
  ∀ location, gone location = true → location.isSink = false ∧
    ∃ fault, describes location = .error fault ∧ fault.isNotFound = false

/-- An effect whose answer does not depend on which places are gone. -/
def Effect.Plain : Effect → Prop
  | .metadata _ => False
  | effect => effect.Quiet

namespace Action

variable {α β γ δ : Type} {describes : Location → Except Fault Metadata} {gone : Location → Bool}

/-- One action does what the other does, over a store that does not list what is gone. It may leave out asking
for metadata; its value is a view of the other's. -/
inductive Omits (describes : Location → Except Fault Metadata) (gone : Location → Bool) (view : α → β) :
    Action α → Action β → Prop
  | done (value : α) : Omits describes gone view (.done value) (.done (view value))
  | same {effect : Effect} {resume : effect.Answer → Action α} {other : effect.Answer → Action β}
      (plain : effect.Plain) (rest : ∀ answer, Omits describes gone view (resume answer) (other answer)) :
    Omits describes gone view (.ask effect resume) (.ask effect other)
  | described {location : Location} {resume : Except Fault Metadata → Action α}
      {other : Except Fault Metadata → Action β}
      (rest : Omits describes gone view (resume (describes location))
        (other ((describes location).map (Metadata.without gone location)))) :
    Omits describes gone view (.ask (.metadata location) resume) (.ask (.metadata location) other)
  | skipped {location : Location} {resume : Except Fault Metadata → Action α} {other : Action β}
      (rest : Omits describes gone view (resume (describes location)) other) :
    Omits describes gone view (.ask (.metadata location) resume) other

theorem Omits.bind {view : α → β} {last : γ → δ} {left : Action α} {right : Action β} {next : α → Action γ}
    {other : β → Action δ} (first : Omits describes gone view left right)
    (rest : ∀ value, Omits describes gone last (next value) (other (view value))) :
    Omits describes gone last (left >>= next) (right >>= other) := by
  simp only [bind_eq]
  induction first with
  | done value => exact rest value
  | same plain _ ih => exact .same plain ih
  | described _ ih => exact .described ih
  | skipped _ ih => exact .skipped ih

theorem Omits.pure {view : α → β} (value : α) :
    Omits describes gone view (Pure.pure value) (Pure.pure (view value)) :=
  .done value

theorem Omits.request {effect : Effect} (plain : effect.Plain) :
    Omits describes gone id (Action.request effect) (Action.request effect) :=
  .same plain fun answer => .done answer

theorem Omits.of_heeds {holds : α → Prop} {action : Action α} (heeds : action.Respects Effect.Plain holds) :
    Omits describes gone id action action := by
  induction action with
  | done value => exact .done value
  | ask effect resume ih => exact .same heeds.1 fun answer => ih answer (heeds.2 answer trivial)

/-- Where plain effects are answered alike and places are described as they are, two such runs end alike. -/
theorem Omits.run {ω ξ : Type} {perform : (effect : Effect) → ω → Option effect.Answer × ω}
    {other : (effect : Effect) → ξ → Option effect.Answer × ξ} {related : ω → ξ → Prop} {view : α → β}
    {left : Action α} {right : Action β} (omits : Omits describes gone view left right)
    (plain : ∀ effect : Effect, effect.Plain → ∀ one two, related one two →
      (other effect two).1 = (perform effect one).1 ∧ related (perform effect one).2 (other effect two).2)
    (described : ∀ location one two, related one two →
      (perform (.metadata location) one).1 = some (describes location) ∧
        related (perform (.metadata location) one).2 two)
    (listed : ∀ location one two, related one two →
      (other (.metadata location) two).1 = some ((describes location).map (Metadata.without gone location)) ∧
        related one (other (.metadata location) two).2)
    {one : ω} {two : ξ} (initial : related one two) :
    (right.run other two).1 = (left.run perform one).1.map view ∧
      related (left.run perform one).2 (right.run other two).2 := by
  induction omits generalizing one two with
  | done value => exact ⟨rfl, initial⟩
  | @same effect _ _ quiet _ ih =>
      obtain ⟨answer, next⟩ := plain effect quiet one two initial
      rw [Action.run, Action.run]
      rcases performed : perform effect one with ⟨_ | given, after⟩ <;>
        rcases also : other effect two with ⟨_ | given', after'⟩ <;>
          simp only [performed, also] at answer next ⊢
      · exact ⟨rfl, next⟩
      · cases answer
      · cases answer
      · obtain rfl := Option.some.inj answer
        exact ih given' next
  | @described location _ _ _ ih =>
      obtain ⟨answer, next⟩ := described location one two initial
      obtain ⟨again, last⟩ := listed location _ two next
      rw [Action.run, Action.run]
      rcases performed : perform (.metadata location) one with ⟨given, after⟩
      rcases also : other (.metadata location) two with ⟨given', after'⟩
      simp only [performed, also] at answer again last ⊢
      subst answer again
      exact ih last
  | @skipped location _ _ _ ih =>
      obtain ⟨answer, next⟩ := described location one two initial
      rw [Action.run]
      rcases performed : perform (.metadata location) one with ⟨given, after⟩
      simp only [performed] at answer next ⊢
      subst answer
      exact ih next

end Action

/-- The same of actions that can fail: their failures are the same. -/
def Omitting {α β ε : Type} (describes : Location → Except Fault Metadata) (gone : Location → Bool) (view : α → β)
    (left : ExceptT ε Action α) (right : ExceptT ε Action β) : Prop :=
  Action.Omits describes gone (Except.map view) left.run right.run

namespace Omitting

variable {α β γ δ ε : Type} {describes : Location → Except Fault Metadata} {gone : Location → Bool}
  {view : α → β} {last : γ → δ} {left : ExceptT ε Action α} {right : ExceptT ε Action β}

theorem pure (value : α) :
    Omitting describes gone view (Pure.pure value : ExceptT ε Action α) (Pure.pure (view value)) :=
  .done (Except.ok value)

theorem throw (failure : ε) :
    Omitting describes gone view (MonadExcept.throw failure : ExceptT ε Action α) (MonadExcept.throw failure) :=
  .done (Except.error failure)

theorem result (result : Except Fault α) :
    Omitting describes gone id (ExceptT.mk (Pure.pure result) : Attempt α) (ExceptT.mk (Pure.pure result)) := by
  cases result with
  | error fault => exact throw _
  | ok value => exact pure value

theorem bind {next : α → ExceptT ε Action γ} {other : β → ExceptT ε Action δ}
    (first : Omitting describes gone view left right)
    (rest : ∀ value, Omitting describes gone last (next value) (other (view value))) :
    Omitting describes gone last (left >>= next) (right >>= other) := by
  rw [Omitting, ExceptT.run_bind, ExceptT.run_bind]
  apply Action.Omits.bind first
  intro result
  cases result with
  | error failure => exact .done (Except.error failure)
  | ok value => exact rest value

theorem lift {action : Action α} {other : Action β} (omits : Action.Omits describes gone view action other) :
    Omitting describes gone view (liftM action : ExceptT ε Action α) (liftM other) :=
  omits.bind fun value => .done (Except.ok value)

theorem adapt {φ : Type} {translate : ε → φ} (omitting : Omitting describes gone view left right) :
    Omitting describes gone view (left.adapt translate) (right.adapt translate) := by
  rw [Omitting, run_adapt, run_adapt]
  apply Action.Omits.bind omitting
  intro result
  cases result with
  | error failure => exact .done (Except.error (translate failure))
  | ok value => exact .done (Except.ok value)

theorem logging {transfer : Transfer} {site : Site} {left : Attempt α} {right : Attempt β}
    (omitting : Omitting describes gone view left right) :
    Omitting describes gone view (transfer.logging site left) (transfer.logging site right) := by
  apply Action.Omits.bind omitting
  intro result
  cases result with
  | error fault => exact .same trivial fun _ => .done (Except.error _)
  | ok value => exact .done (Except.ok value)

theorem loggingIn {transfer : Transfer} {site? : Option Site} {left : Attempt α} {right : Attempt β}
    (omitting : Omitting describes gone view left right) :
    Omitting describes gone view (transfer.loggingIn site? left) (transfer.loggingIn site? right) := by
  cases site? with
  | none => exact omitting.adapt
  | some site => exact omitting.logging

theorem ite {condition : Prop} [Decidable condition] {left' : ExceptT ε Action α} {right' : ExceptT ε Action β}
    (yes : condition → Omitting describes gone view left right)
    (no : ¬condition → Omitting describes gone view left' right') :
    Omitting describes gone view (if condition then left else left') (if condition then right else right') := by
  split
  · exact yes ‹_›
  · exact no ‹_›

theorem refuse {condition : Prop} [Decidable condition] {failure : ε} {next : β → ExceptT ε Action γ}
    {other : β → ExceptT ε Action δ} {left : ExceptT ε Action γ} {right : ExceptT ε Action δ}
    (go : ¬condition → Omitting describes gone last left right) :
    Omitting describes gone last
      (if condition then (MonadExcept.throw failure : ExceptT ε Action β) >>= next else left)
      (if condition then (MonadExcept.throw failure : ExceptT ε Action β) >>= other else right) := by
  split
  · exact .done (Except.error failure)
  · exact go ‹_›

theorem of_attempts {holds : α → Prop} {attempt : ExceptT ε Action α} (attempts : Attempts Effect.Plain holds attempt) :
    Omitting describes gone id attempt attempt := by
  rw [Omitting, Except.map_id]
  exact .of_heeds attempts.heeds

theorem send (bytes : List UInt8) : Omitting describes gone id (send bytes) (send bytes) := by
  have attempts : Attempts Effect.Plain (fun _ => True) (ArtifactGate.send bytes) :=
    Complies.mk ⟨trivial, fun _ _ _ _ => trivial⟩
  exact of_attempts attempts

end Omitting

end ArtifactGate
