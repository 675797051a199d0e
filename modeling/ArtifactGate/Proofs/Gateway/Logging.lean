import ArtifactGate.Proofs.Gateway.Calls

/-!
The access log. Nothing a gateway does with its store or for its uploads touches the log, so what a part of
a session adds to it are the records that the part asks to be logged, in turn.
-/
namespace ArtifactGate

variable {σ : Type} [RemoteStore σ]

namespace Gateway

variable {before after : Gateway σ} {permitted : Call → Prop}

theorem Works.log (works : before.Works permitted after) : after.log = before.log := by
  cases works with
  | letGo number =>
      obtain ⟨freeSlots, leaving, gone⟩ := before.letGo_cases number
      rw [gone]
  | _ => rfl

theorem Steps.log (steps : before.Steps permitted after) : after.log = before.log := by
  cases steps with
  | works works => exact works.log
  | abandoned number =>
      rw [abandon]
      split <;> rfl
  | _ => rfl

theorem Operates.log (operates : before.Operates permitted after) : after.log = before.log := by
  induction operates with
  | refl => rfl
  | tail _ steps ih => exact steps.log.trans ih

@[simp] theorem settle_log (gateway : Gateway σ) : gateway.settle.log = gateway.log := by
  have works : gateway.WorksOn (fun _ => True) gateway.settle := gateway.settle_works
  exact works.operates.log

@[simp] theorem abandonSince_log (mark : Nat) (gateway : Gateway σ) :
    (gateway.abandonSince mark).log = gateway.log := by
  have operates : gateway.Operates (fun _ => True) (gateway.abandonSince mark) := gateway.abandonSince_operates mark
  exact operates.log

end Gateway

/-- The record that an effect adds to the log. -/
def Effect.record? : Effect → Option AccessRecord
  | .log entry => some entry
  | _ => none

/-- The effect is none of the log. -/
def Effect.Unlogged (effect : Effect) : Prop :=
  effect.record? = none

/-- The records that some effects add to the log, in turn. -/
def recorded (asked : List (Effect × Live σ)) : List AccessRecord :=
  asked.flatMap fun entry => entry.1.record?.toList

omit [RemoteStore σ] in
theorem recorded_of_unlogged {asked : List (Effect × Live σ)} (unlogged : ∀ entry ∈ asked, entry.1.Unlogged) :
    recorded asked = [] := by
  apply List.flatMap_eq_nil_iff.2
  intro entry member
  rw [unlogged entry member]
  rfl

namespace Live

variable {α ε : Type} {live world : Live σ} {part : ExceptT ε Action α}

theorem perform_log (effect : Effect) (live : Live σ) :
    (live.perform effect).2.gateway.log = live.gateway.log ++ effect.record?.toList := by
  have permits : effect.Permitted (fun _ => True) fun _ => True := by
    cases effect <;> trivial
  cases effect with
  | log entry => rfl
  | _ =>
      rcases perform_operates permits live with ⟨entry, logs⟩ | operates
      · cases logs
      · exact operates.log.trans (List.append_nil _).symm

/-- A part of a session adds to the log what it asks to be logged. -/
theorem run_log (part : ExceptT ε Action α) (live : Live σ) :
    (live.run part.run).2.gateway.log = live.gateway.log ++ recorded (live.asked part) :=
  run_adds (fun live => live.gateway.log) (fun effect => effect.record?.toList) (fun _ => True)
    (fun effect world _ => ⟨trivial, perform_log effect world⟩) part trivial

/-- Where an effect is asked for, the log holds what was asked to be logged before. -/
theorem log_of_asked {earlier later : List (Effect × Live σ)} {effect : Effect}
    (split : live.asked part = earlier ++ (effect, world) :: later) :
    world.gateway.log = live.gateway.log ++ recorded earlier :=
  adds_of_asked (fun live => live.gateway.log) (fun effect => effect.record?.toList) (fun _ => True)
    (fun effect world _ => ⟨trivial, perform_log effect world⟩) trivial split

end Live

end ArtifactGate
