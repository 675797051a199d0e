import ArtifactGate.Proofs.Live
import ArtifactGate.Session.Basic

/-!
Where a fault is logged. A part of a session that logs its fault does what it does without the log, and if
it fails it asks for one thing more. Whatever ends a session that failed, it first gives up what the session
was uploading, then logs what is not in the log yet, and then tells the client.
-/
namespace ArtifactGate

variable {α : Type} {possible : (effect : Effect) → effect.Answer → Prop} {allowed : Effect → Prop}
  {holds : α → Prop} {attempt : Attempt α} {transfer : Transfer} {site : Site} {site? : Option Site}

namespace Transfer

@[simp] theorem logging_ok (transfer : Transfer) (site : Site) (value : α) :
    transfer.logging site (ExceptT.mk (pure (.ok value))) = pure value :=
  rfl

@[simp] theorem loggingIn_ok (transfer : Transfer) (site? : Option Site) (value : α) :
    transfer.loggingIn site? (ExceptT.mk (pure (.ok value))) = pure value := by
  cases site? <;> rfl

end Transfer

namespace Complies

theorem unlogged (complies : Complies possible allowed holds attempt) :
    Complies possible allowed holds (Step.unlogged attempt) :=
  complies.adapt

theorem logging (complies : Complies possible allowed holds attempt)
    (logs : ∀ fault, allowed (.log (transfer.failureRecord site fault))) :
    Complies possible allowed holds (transfer.logging site attempt) := by
  refine Complies.mk (Action.Heeds.bind complies.heeds ?_)
  intro result valid
  cases result with
  | ok value => exact fun _ same => Except.ok.inj same ▸ valid value rfl
  | error fault => exact ⟨logs fault, fun _ _ => nofun⟩

theorem loggingIn (complies : Complies possible allowed holds attempt)
    (logs : ∀ site fault, site? = some site → allowed (.log (transfer.failureRecord site fault))) :
    Complies possible allowed holds (transfer.loggingIn site? attempt) := by
  cases site? with
  | none => exact complies.unlogged
  | some site => exact complies.logging fun fault => logs site fault rfl

end Complies

namespace Ensures

variable {fails : Fault → Prop} {fail : Failure → Prop}

theorem unlogged (ensures : Ensures possible allowed holds fails attempt)
    (lose : ∀ fault, fails fault → fail ⟨fault, false⟩) :
    Ensures possible allowed holds fail (Step.unlogged attempt) :=
  Ensures.adapt (ensures.mono (fun _ valid => valid) lose)

theorem logging (ensures : Ensures possible allowed holds fails attempt)
    (logs : ∀ fault, allowed (.log (transfer.failureRecord site fault)))
    (lose : ∀ fault, fails fault → fail ⟨fault, true⟩) :
    Ensures possible allowed holds fail (transfer.logging site attempt) := by
  refine Ensures.mk (Action.Heeds.bind ensures.heeds ?_)
  intro result valid
  cases result with
  | ok value => exact valid
  | error fault => exact ⟨logs fault, fun _ _ => lose fault valid⟩

theorem loggingIn (ensures : Ensures possible allowed holds fails attempt)
    (logs : ∀ site fault, allowed (.log (transfer.failureRecord site fault)))
    (lose : ∀ fault logged, fails fault → fail ⟨fault, logged⟩) :
    Ensures possible allowed holds fail (transfer.loggingIn site? attempt) := by
  cases site? with
  | none => exact ensures.unlogged fun fault => lose fault false
  | some site => exact ensures.logging (logs site) fun fault => lose fault true

end Ensures

namespace Live

variable {σ : Type}

/-- The log with one record more. -/
def withEntry (live : Live σ) (entry : AccessRecord) : Live σ :=
  { live with gateway := { live.gateway with log := live.gateway.log ++ [entry] } }

variable [RemoteStore σ] {live : Live σ}

theorem run_unlogged (attempt : Attempt α) (live : Live σ) :
    live.run (Step.unlogged attempt).run =
      match live.run attempt.run with
      | (some (.ok value), after) => (some (.ok value), after)
      | (some (.error fault), after) => (some (.error ⟨fault, false⟩), after)
      | (none, after) => (none, after) := by
  rw [Step.unlogged, ArtifactGate.run_adapt, run_bind]
  rcases live.run attempt.run with ⟨_ | _ | value, after⟩
  · rfl
  · exact run_pure _ after
  · exact run_pure _ after

theorem run_logging (transfer : Transfer) (site : Site) (attempt : Attempt α) (live : Live σ) :
    live.run (transfer.logging site attempt).run =
      match live.run attempt.run with
      | (some (.ok value), after) => (some (.ok value), after)
      | (some (.error fault), after) =>
        (some (.error ⟨fault, true⟩), after.withEntry (transfer.failureRecord site fault))
      | (none, after) => (none, after) := by
  rw [Transfer.logging, ExceptT.run_mk, run_bind]
  rcases live.run attempt.run with ⟨_ | fault | value, after⟩
  · rfl
  · have logs : after.run (Action.request (.log (transfer.failureRecord site fault))) =
        (some (), after.withEntry (transfer.failureRecord site fault)) := run_request _ after
    simp only [run_bind, logs, run_pure]
  · exact run_pure _ after

theorem asked_logging (transfer : Transfer) (site : Site) (attempt : Attempt α) (live : Live σ) :
    live.asked (transfer.logging site attempt) =
      live.asked attempt ++
        match live.run attempt.run with
        | (some (.error fault), after) => [(.log (transfer.failureRecord site fault), after)]
        | _ => [] := by
  rw [asked, Transfer.logging, ExceptT.run_mk, Action.asked_bind, asked, Live.run]
  rcases Action.run perform attempt.run live with ⟨_ | _ | value, after⟩ <;> rfl

/-- What is asked for is asked for by the attempt, or it is the record of its fault. -/
theorem mem_asked_logging {effect : Effect} {world : Live σ}
    (member : (effect, world) ∈ live.asked (transfer.logging site attempt)) :
    (effect, world) ∈ live.asked attempt ∨ ∃ fault, effect = .log (transfer.failureRecord site fault) ∧
      live.run attempt.run = (some (.error fault), world) := by
  rw [asked_logging] at member
  rcases List.mem_append.1 member with asks | logs
  · exact .inl asks
  · rcases ran : live.run attempt.run with ⟨_ | fault | value, after⟩ <;> simp only [ran] at logs
    · cases logs
    · obtain ⟨rfl, rfl⟩ := Prod.mk.inj (List.mem_singleton.1 logs)
      exact .inr ⟨fault, rfl, rfl⟩
    · cases logs

theorem run_logging_of_ok {value : α} {after : Live σ} (ran : live.run attempt.run = (some (.ok value), after)) :
    live.run (transfer.logging site attempt).run = (some (.ok value), after) := by
  rw [run_logging, ran]

/-- What the log is no part of is as the attempt leaves it. -/
theorem view_logging {β : Type} (view : Live σ → β) (apart : ∀ world entry, view (world.withEntry entry) = view world)
    (transfer : Transfer) (site : Site) (attempt : Attempt α) (live : Live σ) :
    view (live.run (transfer.logging site attempt).run).2 = view (live.run attempt.run).2 := by
  rw [run_logging]
  rcases live.run attempt.run with ⟨_ | fault | value, after⟩
  · rfl
  · exact apart after _
  · rfl

theorem Ends.unlogged {holds : α → Live σ → Prop} {lost : Option Failure → Live σ → Prop}
    (ends : live.Ends attempt holds fun fault after => lost (fault.map ({ fault := · })) after) :
    live.Ends (Step.unlogged attempt) holds lost :=
  ends.adapt

theorem Ends.logging {holds : α → Live σ → Prop} {failed : Option Fault → Live σ → Prop}
    {lost : Option Failure → Live σ → Prop} (ends : live.Ends attempt holds failed)
    (logs : ∀ fault after, failed (some fault) after →
      lost (some ⟨fault, true⟩) (after.withEntry (transfer.failureRecord site fault)))
    (stuck : ∀ after, failed none after → lost none after) :
    live.Ends (transfer.logging site attempt) holds lost := by
  rw [Ends] at ends ⊢
  rw [run_logging]
  rcases ran : live.run attempt.run with ⟨_ | fault | value, after⟩ <;> simp only [ran] at ends ⊢
  · exact stuck after ends
  · exact logs fault after ends
  · exact ends

/-- What a fault leaves is left by the record of it. -/
theorem Ends.logs {holds : α → Live σ → Prop} {lost : Live σ → Prop}
    (ends : live.Ends attempt holds fun _ after => lost after)
    (kept : ∀ after entry, lost after → lost (after.withEntry entry)) :
    live.Ends (transfer.logging site attempt) holds fun _ after => lost after :=
  ends.logging (fun _ after failed => kept after _ failed) fun _ failed => failed

theorem Ends.logsIn {holds : α → Live σ → Prop} {lost : Live σ → Prop}
    (ends : live.Ends attempt holds fun _ after => lost after)
    (kept : ∀ after entry, lost after → lost (after.withEntry entry)) :
    live.Ends (transfer.loggingIn site? attempt) holds fun _ after => lost after := by
  cases site? with
  | none => exact ends.unlogged
  | some site => exact ends.logs kept

theorem Gives.logging {holds : α → Live σ → Prop} (gives : live.Gives attempt holds) :
    live.Gives (transfer.logging site attempt) holds := by
  obtain ⟨value, after, ran, valid⟩ := gives
  exact ⟨value, after, run_logging_of_ok ran, valid⟩

/-- A fault is logged at the site, in the world that it leaves. -/
theorem Results.logging {holds : α → Live σ → Prop} {failed : List (Effect × Live σ) → Option Fault → Live σ → Prop}
    {lost : List (Effect × Live σ) → Option Failure → Live σ → Prop} (results : live.Results attempt holds failed)
    (logs : ∀ asked fault after, failed asked (some fault) after →
      lost (asked ++ [(.log (transfer.failureRecord site fault), after)]) (some ⟨fault, true⟩)
        (after.withEntry (transfer.failureRecord site fault)))
    (stuck : ∀ asked after, failed asked none after → lost asked none after) :
    live.Results (transfer.logging site attempt) holds lost := by
  rw [Results] at results ⊢
  rw [run_logging, asked_logging]
  rcases ran : live.run attempt.run with ⟨_ | fault | value, after⟩ <;> simp only [ran] at results ⊢
  · rw [List.append_nil]
    exact stuck _ after results
  · exact logs _ fault after results
  · exact results

theorem Traces.logging {holds : List (Effect × Live σ) → α → Prop} (traces : live.Traces attempt holds) :
    live.Traces (transfer.logging site attempt) holds := by
  rw [Traces]
  intro value after ran
  rw [run_logging] at ran
  rw [asked_logging]
  rcases began : live.run attempt.run with ⟨_ | fault | given, reached⟩ <;> simp only [began] at ran
  · cases ran
  · cases ran
  · cases ran
    rw [List.append_nil]
    exact traces.of_run began

end Live

namespace Session

theorem breakOff_complies (logs : ∀ entry, allowed (.log entry)) (transfer : Transfer) (site? : Option Site)
    (reason : String) : Complies possible allowed (fun _ => False) (breakOff transfer site? reason) :=
  Complies.throw.loggingIn fun _ _ _ => logs _

variable {σ : Type} [RemoteStore σ] {live : Live σ}

/-- What holds when a session's uploads are given up, and is kept by what is logged and told, holds when the session
has failed. -/
theorem fail_keeps (invariant : Live σ → Prop) (transfer : Transfer) {mark : Nat} (failure : Failure)
    (abandoned : invariant { live with gateway := live.gateway.abandonSince mark })
    (logs : ∀ world entry, invariant world → invariant (world.withEntry entry))
    (tells : ∀ world, invariant world → invariant (report failure.fault world)) :
    invariant (fail transfer mark failure live).2 := by
  have logged : invariant { live with
      gateway := if failure.logged then live.gateway.abandonSince mark
        else { live.gateway.abandonSince mark with
          log := (live.gateway.abandonSince mark).log ++
            [transfer.failureRecord transfer.defaultSite failure.fault] } } := by
    cases failure.logged with
    | true => exact abandoned
    | false => exact logs _ _ abandoned
  rw [fail]
  dsimp only
  split
  · exact tells _ logged
  · exact logged

end Session

end ArtifactGate
