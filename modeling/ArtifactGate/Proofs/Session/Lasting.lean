import ArtifactGate.Proofs.Session.Transcript

/-!
What lasts. Where every effect keeps something, and the tasks and the giving up of uploads keep it too, a
session keeps it whatever its client sends: on every byte, wherever it waits for an answer, and at its end.
-/
namespace ArtifactGate

theorem Action.heeds_all {α : Type} {possible : (effect : Effect) → effect.Answer → Prop} (action : Action α) :
    action.Heeds possible (fun _ => True) fun _ => True := by
  induction action with
  | done value => trivial
  | ask effect resume ih => exact ⟨trivial, fun answer _ => ih answer⟩

variable {σ : Type} [RemoteStore σ]

/-- What every effect keeps, and what the tasks keep and the giving up of uploads. -/
structure Live.Lasting (invariant : Live σ → Prop) : Prop where
  perform : ∀ live effect, invariant live → invariant (live.perform effect).2
  settle : ∀ live, invariant live → invariant { live with gateway := live.gateway.settle }
  abandon : ∀ live mark, invariant live → invariant { live with gateway := live.gateway.abandonSince mark }

namespace Live.Lasting

variable {invariant : Live σ → Prop} {live : Live σ} (lasting : Lasting invariant)

include lasting

theorem run {α : Type} (action : Action α) (holds : invariant live) : invariant (live.run action).2 := by
  rw [Live.run]
  exact (action.heeds_all.run Live.perform invariant
    (fun effect _ world kept => ⟨lasting.perform world effect kept, fun _ _ => trivial⟩) holds).1

theorem asked {α ε : Type} (part : ExceptT ε Action α) (holds : invariant live) :
    ∀ entry ∈ live.asked part, invariant entry.2 := by
  intro entry member
  exact (part.run.heeds_all.asked Live.perform invariant
    (fun effect _ world kept => ⟨lasting.perform world effect kept, fun _ _ => trivial⟩) holds entry member).2

theorem report (fault : Fault) (holds : invariant live) : invariant (Session.report fault live) :=
  lasting.run _ holds

theorem fail (transfer : Transfer) (mark : Nat) (failure : Failure) (holds : invariant live) :
    invariant (Session.fail transfer mark failure live).2 := by
  apply Session.fail_keeps invariant transfer failure (lasting.abandon live mark holds)
  · exact fun world entry kept => lasting.perform world (.log entry) kept
  · exact fun world kept => lasting.report failure.fault kept

theorem cancel (transfer : Transfer) (mark : Nat) (holds : invariant live) :
    invariant (Session.cancel transfer mark live).2 :=
  lasting.fail transfer mark _ (lasting.settle live holds)

theorem carryOut {α : Type} (transfer : Transfer) (mark : Nat) (step : Step α) (next : α → Session)
    (holds : invariant live) : invariant (Session.carryOut transfer mark step next live).2 := by
  have reached := lasting.run step.run holds
  rw [Session.carryOut]
  rcases ran : live.run step.run with ⟨_ | failure | value, after⟩ <;> rw [ran] at reached
  · exact lasting.cancel transfer mark reached
  · exact lasting.fail transfer mark failure reached
  · exact reached

theorem start (login : Login) (line : String) (holds : invariant live) :
    invariant (Session.start login line live).2 := by
  rw [Session.start]
  cases Command.parse line with
  | error fault => exact lasting.report fault holds
  | ok command =>
      dsimp only
      cases command.direction with
      | source => exact holds
      | sink => exact lasting.carryOut _ _ _ _ holds

theorem feed {state : Session × Live σ} (holds : invariant state.2) (byte : UInt8) :
    invariant (Session.feed byte state).2 := by
  obtain ⟨session, live⟩ := state
  cases session with
  | receiving transfer mark receiver => exact lasting.carryOut _ _ _ _ holds
  | sending transfer sender => exact lasting.carryOut _ _ _ _ holds
  | ended result => exact holds

theorem finish {state : Session × Live σ} (holds : invariant state.2) (ending : Ending) :
    invariant (Session.finish ending state).2 := by
  obtain ⟨session, live⟩ := state
  cases session with
  | receiving transfer mark receiver =>
      cases ending with
      | silent => exact lasting.cancel _ _ holds
      | _ => exact lasting.carryOut _ _ _ _ holds
  | sending transfer sender =>
      cases ending with
      | silent => exact lasting.cancel _ _ holds
      | _ => exact lasting.carryOut _ _ _ _ holds
  | ended result => exact holds

theorem feed_asked {state : Session × Live σ} (holds : invariant state.2) (byte : UInt8) :
    ∀ entry ∈ Session.asked byte state, invariant entry.2 := by
  obtain ⟨session, live⟩ := state
  cases session with
  | ended result => exact List.forall_mem_nil _
  | _ => exact lasting.asked _ holds

theorem opening_asked (login : Login) (line : String) (holds : invariant live) :
    ∀ entry ∈ Session.opening login line live, invariant entry.2 := by
  rw [Session.opening]
  split
  · exact List.forall_mem_nil _
  · split
    · exact List.forall_mem_nil _
    · exact lasting.asked _ holds

theorem closing_asked {state : Session × Live σ} (holds : invariant state.2) (ending : Ending) :
    ∀ entry ∈ Session.closing ending state, invariant entry.2 := by
  obtain ⟨session, live⟩ := state
  cases session <;> cases ending <;> first | exact List.forall_mem_nil _ | exact lasting.asked _ holds

end Live.Lasting

end ArtifactGate
