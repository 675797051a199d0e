import ArtifactGate.Gateway.Live
import ArtifactGate.Proofs.Action
import ArtifactGate.Proofs.Retry
import ArtifactGate.Proofs.Store.Deposits

/-!
Running a part of a session. `Ends` says what holds when a part has given its value and what holds when
it has not; it is put together along the binds of the part. Effects that do not concern uploads leave
a gateway unmoved.
-/
namespace ArtifactGate

def Effect.Quiet : Effect → Prop
  | .beginUpload _ _ | .writeUpload _ _ | .finishUpload _ => False
  | _ => True

namespace Live

variable {α β ε σ : Type} [RemoteStore σ]

theorem run_bind (action : Action α) (next : α → Action β) (live : Live σ) :
    live.run (action >>= next) =
      match live.run action with
      | (some value, live) => live.run (next value)
      | (none, live) => (none, live) := by
  simp only [Live.run, Action.run_bind]
  rcases Action.run perform action live with ⟨_ | value, after⟩ <;> rfl

theorem run_pure (value : α) (live : Live σ) :
    live.run (Pure.pure value : Action α) = (some value, live) := by
  rw [Live.run]
  rfl

theorem run_throw (failure : ε) (live : Live σ) :
    live.run (MonadExcept.throw failure : ExceptT ε Action α).run =
      (some (.error failure), live) :=
  run_pure (Except.error failure) live

theorem run_request (effect : Effect) (live : Live σ) :
    live.run (Action.request effect) = live.perform effect := by
  rw [Live.run, Action.request, Action.run]
  rcases live.perform effect with ⟨_ | answer, after⟩ <;> rfl

/-- The effects a part of a session asks for in turn, each with the world it is asked of. -/
def asked (part : ExceptT ε Action α) (live : Live σ) : List (Effect × Live σ) :=
  part.run.asked perform live

theorem asked_bind (part : ExceptT ε Action α) (next : α → ExceptT ε Action β) (live : Live σ) :
    live.asked (part >>= next) =
      live.asked part ++
        match live.run part.run with
        | (some (.ok value), after) => after.asked (next value)
        | _ => [] := by
  rw [asked, ExceptT.run_bind, Action.asked_bind, asked, Live.run]
  rcases Action.run perform part.run live with ⟨_ | _ | value, after⟩ <;> rfl

theorem asked_adapt {δ : Type} (translate : ε → δ) (part : ExceptT ε Action α) (live : Live σ) :
    live.asked (part.adapt translate) = live.asked part := by
  rw [asked, run_adapt, Action.asked_bind, asked]
  rcases Action.run perform part.run live with ⟨_ | result, after⟩ <;> exact List.append_nil _

theorem allowed_of_asked {allowed : Effect → Prop} {valid : α → Prop} {part : ExceptT ε Action α}
    (attempts : Attempts allowed valid part) {live world : Live σ} {effect : Effect}
    (member : (effect, world) ∈ live.asked part) : allowed effect :=
  (Action.Heeds.asked attempts.heeds perform (fun _ => True) (fun _ _ _ _ => ⟨trivial, fun _ _ => trivial⟩) trivial
    _ member).1

section Added

variable {γ : Type} (read : Live σ → List γ) (added : Effect → List γ) (invariant : Live σ → Prop)

/-- Where every effect adds something to a list, a part of a session adds what its effects add, in turn. -/
theorem run_adds (adds : ∀ effect world, invariant world → invariant (perform effect world).2 ∧
      read (perform effect world).2 = read world ++ added effect)
    (part : ExceptT ε Action α) {live : Live σ} (initial : invariant live) :
    read (live.run part.run).2 = read live ++ (live.asked part).flatMap fun entry => added entry.1 := by
  rw [Live.run, asked]
  generalize part.run = action
  induction action generalizing live with
  | done value => exact (List.append_nil _).symm
  | ask effect resume ih =>
      obtain ⟨kept, first⟩ := adds effect live initial
      rw [Action.run, Action.asked, List.flatMap_cons, ← List.append_assoc, ← first]
      rcases performed : perform effect live with ⟨_ | answer, after⟩ <;> rw [performed] at kept
      · exact (List.append_nil _).symm
      · exact ih answer kept

/-- Where an effect is asked for, what was asked for before has been added. -/
theorem adds_of_asked (adds : ∀ effect world, invariant world → invariant (perform effect world).2 ∧
      read (perform effect world).2 = read world ++ added effect)
    {part : ExceptT ε Action α} {live world : Live σ} (initial : invariant live)
    {earlier later : List (Effect × Live σ)} {effect : Effect}
    (split : live.asked part = earlier ++ (effect, world) :: later) :
    read world = read live ++ earlier.flatMap fun entry => added entry.1 := by
  rw [asked] at split
  generalize part.run = action at split
  induction action generalizing live earlier with
  | done value => exact absurd split.symm (List.append_ne_nil_of_right_ne_nil _ (List.cons_ne_nil _ _))
  | ask asking resume ih =>
      rw [Action.asked] at split
      cases earlier with
      | nil =>
          obtain ⟨rfl, rfl⟩ := Prod.mk.inj (List.cons.inj split).1
          exact (List.append_nil _).symm
      | cons entry rest =>
          obtain ⟨rfl, tail⟩ := List.cons.inj split
          obtain ⟨kept, first⟩ := adds asking live initial
          rw [List.flatMap_cons, ← List.append_assoc, ← first]
          rcases performed : perform asking live with ⟨_ | answer, after⟩ <;> rw [performed] at kept <;>
            simp only [performed] at tail
          · exact absurd tail.symm (List.append_ne_nil_of_right_ne_nil _ (List.cons_ne_nil _ _))
          · exact ih answer kept tail

end Added

/-- What holds when a part of a session has given its value, and what holds when it has failed or
would wait for ever. -/
@[irreducible]
def Ends (part : ExceptT ε Action α) (live : Live σ) (holds : α → Live σ → Prop)
    (lost : Option ε → Live σ → Prop) : Prop :=
  match live.run part.run with
  | (some (.ok value), after) => holds value after
  | (some (.error failure), after) => lost (some failure) after
  | (none, after) => lost none after

namespace Ends

variable {live : Live σ} {part : ExceptT ε Action α} {holds middle : α → Live σ → Prop}
  {lost : Option ε → Live σ → Prop}

theorem pure {value : α} (valid : holds value live) :
    live.Ends (Pure.pure value : ExceptT ε Action α) holds lost := by
  rw [Ends, ExceptT.run_pure, run_pure]
  exact valid

theorem throw {failure : ε} (valid : lost (some failure) live) :
    live.Ends (MonadExcept.throw failure : ExceptT ε Action α) holds lost := by
  rw [Ends, run_throw]
  exact valid

theorem bind {next : α → ExceptT ε Action β} {after : β → Live σ → Prop}
    (first : live.Ends part middle lost)
    (rest : ∀ value live, middle value live → live.Ends (next value) after lost) :
    live.Ends (part >>= next) after lost := by
  rw [Ends, ExceptT.run_bind, run_bind]
  rw [Ends] at first
  rcases ran : live.run part.run with ⟨_ | _ | value, reached⟩ <;> simp only [ran] at first
  · exact first
  · simp only [run_pure]
    exact first
  · have last := rest value reached first
    rw [Ends] at last
    exact last

theorem mono {wider : α → Live σ → Prop} {more : Option ε → Live σ → Prop}
    (ends : live.Ends part holds lost) (widen : ∀ value after, holds value after → wider value after)
    (lose : ∀ failure after, lost failure after → more failure after) :
    live.Ends part wider more := by
  rw [Ends] at ends ⊢
  rcases ran : live.run part.run with ⟨_ | _ | value, reached⟩ <;> simp only [ran] at ends
  · exact lose _ _ ends
  · exact lose _ _ ends
  · exact widen _ _ ends

theorem ite {condition : Prop} [Decidable condition] {other : ExceptT ε Action α}
    (yes : condition → live.Ends part holds lost) (no : ¬condition → live.Ends other holds lost) :
    live.Ends (if condition then part else other) holds lost := by
  split
  · exact yes ‹_›
  · exact no ‹_›

theorem refuse {condition : Prop} [Decidable condition] {failure : ε} {next : β → ExceptT ε Action α}
    (lose : condition → lost (some failure) live) (go : ¬condition → live.Ends part holds lost) :
    live.Ends (if condition then (MonadExcept.throw failure : ExceptT ε Action β) >>= next else part)
      holds lost := by
  split
  · have refused : live.Ends (MonadExcept.throw failure : ExceptT ε Action β)
        (fun _ _ => False) lost := throw (lose ‹_›)
    exact refused.bind fun _ _ impossible => impossible.elim
  · exact go ‹_›

theorem and {also : α → Live σ → Prop} {more : Option ε → Live σ → Prop} (ends : live.Ends part holds lost)
    (others : live.Ends part also more) :
    live.Ends part (fun value after => holds value after ∧ also value after)
      (fun failure after => lost failure after ∧ more failure after) := by
  rw [Ends] at ends others ⊢
  rcases ran : live.run part.run with ⟨_ | _ | value, after⟩ <;> simp only [ran] at ends others <;>
    exact ⟨ends, others⟩

/-- What holds however a part ends holds of the world it leaves. -/
theorem reached {invariant : Live σ → Prop}
    (ends : live.Ends part (fun _ after => invariant after) (fun _ after => invariant after)) :
    invariant (live.run part.run).2 := by
  rw [Ends] at ends
  rcases ran : live.run part.run with ⟨_ | _ | value, after⟩ <;> simp only [ran] at ends <;> exact ends

theorem adapt {δ : Type} {translate : ε → δ} {lost : Option δ → Live σ → Prop}
    (ends : live.Ends part holds fun failure after => lost (failure.map translate) after) :
    live.Ends (part.adapt translate) holds lost := by
  rw [Ends] at ends
  rw [Ends, run_adapt, run_bind]
  rcases ran : live.run part.run with ⟨_ | _ | value, reached⟩ <;> simp only [ran, run_pure] at ends ⊢ <;>
    exact ends

end Ends

/-- What every effect that a part of a session may ask for keeps holds when the part has ended. -/
theorem ends_of_complies {possible : (effect : Effect) → effect.Answer → Prop} {allowed : Effect → Prop}
    {valid : α → Prop} {part : ExceptT ε Action α} {live : Live σ}
    (complies : Complies possible allowed valid part) (invariant : Live σ → Prop)
    (kept : ∀ effect, allowed effect → ∀ world, invariant world →
      invariant (perform effect world).2 ∧
        ∀ answer, (perform effect world).1 = some answer → possible effect answer)
    (initial : invariant live) :
    live.Ends part (fun value after => valid value ∧ invariant after) (fun _ after => invariant after) := by
  obtain ⟨held, results⟩ := Action.Heeds.run complies.heeds perform invariant kept initial
  rw [Ends, Live.run]
  rcases ran : Action.run perform part.run live with ⟨_ | _ | value, after⟩ <;> rw [ran] at held results
  · exact held
  · exact held
  · exact ⟨results _ rfl _ rfl, held⟩

/-- The same of a part whose failures are known as well. -/
theorem ends_of_ensures {possible : (effect : Effect) → effect.Answer → Prop} {allowed : Effect → Prop}
    {valid : α → Prop} {fails : ε → Prop} {part : ExceptT ε Action α} {live : Live σ}
    (ensures : Ensures possible allowed valid fails part) (invariant : Live σ → Prop)
    (kept : ∀ effect, allowed effect → ∀ world, invariant world →
      invariant (perform effect world).2 ∧
        ∀ answer, (perform effect world).1 = some answer → possible effect answer)
    (initial : invariant live) :
    live.Ends part (fun value after => valid value ∧ invariant after)
      (fun failure after => (∀ known, failure = some known → fails known) ∧ invariant after) := by
  obtain ⟨held, results⟩ := Action.Heeds.run ensures.heeds perform invariant kept initial
  rw [Ends, Live.run]
  rcases ran : Action.run perform part.run live with ⟨_ | failure | value, after⟩ <;> rw [ran] at held results
  · refine ⟨?_, held⟩
    intro _ absent
    cases absent
  · exact ⟨fun known same => Option.some.inj same ▸ results _ rfl, held⟩
  · exact ⟨results _ rfl, held⟩

/-- What holds of all that a part of a session asks for, if it comes to a value. -/
@[irreducible]
def Traces (part : ExceptT ε Action α) (live : Live σ) (holds : List (Effect × Live σ) → α → Prop) : Prop :=
  ∀ value after, live.run part.run = (some (.ok value), after) → holds (live.asked part) value

namespace Traces

variable {live : Live σ} {part : ExceptT ε Action α} {holds middle : List (Effect × Live σ) → α → Prop}

theorem of_run {value : α} {after : Live σ} (traces : live.Traces part holds)
    (ran : live.run part.run = (some (.ok value), after)) : holds (live.asked part) value := by
  rw [Traces] at traces
  exact traces value after ran

theorem pure {value : α} (valid : holds [] value) :
    live.Traces (Pure.pure value : ExceptT ε Action α) holds := by
  rw [Traces]
  intro same after ran
  rw [ExceptT.run_pure, run_pure] at ran
  cases ran
  exact valid

theorem throw {failure : ε} : live.Traces (MonadExcept.throw failure : ExceptT ε Action α) holds := by
  rw [Traces]
  intro value after ran
  rw [run_throw] at ran
  cases ran

theorem bind {next : α → ExceptT ε Action β} {last : List (Effect × Live σ) → β → Prop}
    (first : live.Traces part middle)
    (rest : ∀ asked value (after : Live σ), middle asked value →
      after.Traces (next value) fun more final => last (asked ++ more) final) :
    live.Traces (part >>= next) last := by
  rw [Traces]
  intro final after ran
  rw [ExceptT.run_bind, run_bind] at ran
  rw [asked_bind]
  rcases began : live.run part.run with ⟨_ | _ | value, reached⟩ <;> simp only [began] at ran ⊢
  · cases ran
  · rw [run_pure] at ran
    cases ran
  · exact (rest _ value reached (first.of_run began)).of_run ran

theorem mono {wider : List (Effect × Live σ) → α → Prop} (traces : live.Traces part holds)
    (widen : ∀ asked value, holds asked value → wider asked value) : live.Traces part wider := by
  rw [Traces]
  exact fun value after ran => widen _ value (traces.of_run ran)

theorem ite {condition : Prop} [Decidable condition] {other : ExceptT ε Action α}
    (yes : condition → live.Traces part holds) (no : ¬condition → live.Traces other holds) :
    live.Traces (if condition then part else other) holds := by
  split
  · exact yes ‹_›
  · exact no ‹_›

theorem refuse {condition : Prop} [Decidable condition] {failure : ε} {next : β → ExceptT ε Action α}
    (go : ¬condition → live.Traces part holds) :
    live.Traces (if condition then (MonadExcept.throw failure : ExceptT ε Action β) >>= next else part) holds := by
  split
  · have refused : live.Traces (MonadExcept.throw failure : ExceptT ε Action β) fun _ _ => False := throw
    exact refused.bind fun _ _ _ impossible => impossible.elim
  · exact go ‹_›

theorem adapt {δ : Type} {translate : ε → δ} (traces : live.Traces part holds) :
    live.Traces (part.adapt translate) holds := by
  rw [Traces]
  intro value after ran
  rw [run_adapt, run_bind] at ran
  rw [asked_adapt]
  rcases began : live.run part.run with ⟨_ | _ | given, reached⟩ <;> simp only [began, run_pure] at ran
  · cases ran
  · cases ran
  · cases ran
    exact traces.of_run began

end Traces

/-- A part that asks for what it may, and comes to such a value as it may. -/
theorem traces_of_attempts {valid : α → Prop} {allowed : Effect → Prop} {part : ExceptT ε Action α}
    (attempts : Attempts allowed valid part) (live : Live σ) :
    live.Traces part fun asked value => (∀ entry ∈ asked, allowed entry.1) ∧ valid value := by
  rw [Traces]
  intro value after ran
  refine ⟨fun entry member => allowed_of_asked attempts member, ?_⟩
  have ends : live.Ends part _ _ :=
    ends_of_complies attempts (fun _ => True) (fun _ _ _ _ => ⟨trivial, fun _ _ => trivial⟩) trivial
  rw [Ends, ran] at ends
  exact ends.1

/-- As `Ends`, with what a part of a session has asked for when it fails or would wait for ever. -/
@[irreducible]
def Results (part : ExceptT ε Action α) (live : Live σ) (holds : α → Live σ → Prop)
    (lost : List (Effect × Live σ) → Option ε → Live σ → Prop) : Prop :=
  match live.run part.run with
  | (some (.ok value), after) => holds value after
  | (some (.error failure), after) => lost (live.asked part) (some failure) after
  | (none, after) => lost (live.asked part) none after

theorem Ends.results {live : Live σ} {part : ExceptT ε Action α} {holds : α → Live σ → Prop}
    {lost : Option ε → Live σ → Prop} {lose : List (Effect × Live σ) → Option ε → Live σ → Prop}
    (ends : live.Ends part holds lost) (loses : ∀ asked failure after, lost failure after → lose asked failure after) :
    live.Results part holds lose := by
  rw [Ends] at ends
  rw [Results]
  rcases ran : live.run part.run with ⟨_ | _ | value, after⟩ <;> simp only [ran] at ends ⊢
  · exact loses _ _ _ ends
  · exact loses _ _ _ ends
  · exact ends

namespace Results

variable {live : Live σ} {part : ExceptT ε Action α} {holds middle : α → Live σ → Prop}
  {lost : List (Effect × Live σ) → Option ε → Live σ → Prop}

theorem pure {value : α} (valid : holds value live) :
    live.Results (Pure.pure value : ExceptT ε Action α) holds lost := by
  rw [Results, ExceptT.run_pure, run_pure]
  exact valid

theorem bind {next : α → ExceptT ε Action β} {after : β → Live σ → Prop} (first : live.Results part middle lost)
    (prepend : ∀ earlier asked failure last, lost asked failure last → lost (earlier ++ asked) failure last)
    (rest : ∀ value live, middle value live → live.Results (next value) after lost) :
    live.Results (part >>= next) after lost := by
  rw [Results, ExceptT.run_bind, run_bind, asked_bind]
  rw [Results] at first
  rcases ran : live.run part.run with ⟨_ | failure | value, reached⟩ <;> simp only [ran] at first ⊢
  · rw [List.append_nil]
    exact first
  · rw [run_pure, List.append_nil]
    exact first
  · have last := rest value reached first
    rw [Results] at last
    rcases ended : reached.run (next value).run with ⟨_ | failure | final, final'⟩ <;> simp only [ended] at last ⊢
    · exact prepend _ _ _ _ last
    · exact prepend _ _ _ _ last
    · exact last

theorem mono {wider : α → Live σ → Prop} {lose : List (Effect × Live σ) → Option ε → Live σ → Prop}
    (results : live.Results part holds lost) (widen : ∀ value after, holds value after → wider value after)
    (loses : ∀ asked failure after, lost asked failure after → lose asked failure after) :
    live.Results part wider lose := by
  rw [Results] at results ⊢
  rcases ran : live.run part.run with ⟨_ | _ | value, reached⟩ <;> simp only [ran] at results ⊢
  · exact loses _ _ _ results
  · exact loses _ _ _ results
  · exact widen _ _ results

theorem ite {condition : Prop} [Decidable condition] {other : ExceptT ε Action α}
    (yes : condition → live.Results part holds lost) (no : ¬condition → live.Results other holds lost) :
    live.Results (if condition then part else other) holds lost := by
  split
  · exact yes ‹_›
  · exact no ‹_›

/-- What a part comes to is what it does by another account as well. -/
theorem and_ends {also : α → Live σ → Prop} {lose : Option ε → Live σ → Prop} (results : live.Results part holds lost)
    (ends : live.Ends part also lose) :
    live.Results part (fun value after => holds value after ∧ also value after) lost := by
  rw [Ends] at ends
  rw [Results] at results ⊢
  rcases ran : live.run part.run with ⟨_ | _ | value, reached⟩ <;> simp only [ran] at ends results ⊢
  · exact results
  · exact results
  · exact ⟨results, ends⟩

end Results

theorem run_attempt_bind {part : ExceptT ε Action α} {live after : Live σ} {value : α}
    (next : α → ExceptT ε Action β) (ran : live.run part.run = (some (.ok value), after)) :
    live.run (part >>= next).run = after.run (next value).run := by
  rw [ExceptT.run_bind, run_bind, ran]

/-- An action that comes to its end, and what holds there. -/
def Yields (action : Action α) (live : Live σ) (holds : α → Live σ → Prop) : Prop :=
  ∃ value after, live.run action = (some value, after) ∧ holds value after

/-- A part of a session that comes to its end without a failure, and what holds there. -/
def Gives (part : ExceptT ε Action α) (live : Live σ) (holds : α → Live σ → Prop) : Prop :=
  ∃ value after, live.run part.run = (some (.ok value), after) ∧ holds value after

section Giving

variable {live : Live σ} {holds middle : α → Live σ → Prop} {after : β → Live σ → Prop}

theorem Yields.bind {action : Action α} {next : α → Action β} (first : live.Yields action middle)
    (rest : ∀ value live, middle value live → live.Yields (next value) after) :
    live.Yields (action >>= next) after := by
  obtain ⟨value, reached, ran, valid⟩ := first
  obtain ⟨last, final, ranNext, holds⟩ := rest value reached valid
  refine ⟨last, final, ?_, holds⟩
  rw [run_bind, ran]
  exact ranNext

theorem Yields.pure {value : α} (valid : holds value live) :
    live.Yields (Pure.pure value : Action α) holds :=
  ⟨value, live, live.run_pure value |>.trans rfl, valid⟩

namespace Gives

variable {part : ExceptT ε Action α} {next : α → ExceptT ε Action β}

theorem bind (first : live.Gives part middle)
    (rest : ∀ value live, middle value live → live.Gives (next value) after) :
    live.Gives (part >>= next) after := by
  obtain ⟨value, reached, ran, valid⟩ := first
  obtain ⟨last, final, ranNext, holds⟩ := rest value reached valid
  exact ⟨last, final, (run_attempt_bind next ran).trans ranNext, holds⟩

theorem pure {value : α} (valid : holds value live) :
    live.Gives (Pure.pure value : ExceptT ε Action α) holds :=
  ⟨value, live, run_pure (Except.ok value) live, valid⟩

theorem mono {wider : α → Live σ → Prop} (gives : live.Gives part holds)
    (widen : ∀ value after, holds value after → wider value after) : live.Gives part wider := by
  obtain ⟨value, reached, ran, valid⟩ := gives
  exact ⟨value, reached, ran, widen value reached valid⟩

theorem lift {action : Action α} (yields : live.Yields action holds) :
    live.Gives (liftM action : ExceptT ε Action α) holds := by
  obtain ⟨value, reached, ran, valid⟩ := yields
  refine ⟨value, reached, ?_, valid⟩
  change live.run (action >>= fun value => Pure.pure (Except.ok value)) = _
  rw [run_bind, ran]
  exact run_pure _ reached

theorem adapt {δ : Type} {translate : ε → δ} (gives : live.Gives part holds) :
    live.Gives (part.adapt translate) holds := by
  obtain ⟨value, reached, ran, valid⟩ := gives
  refine ⟨value, reached, ?_, valid⟩
  rw [run_adapt, run_bind, ran]
  exact run_pure _ reached

theorem accepted {condition : Prop} [Decidable condition] {refused : ExceptT ε Action α}
    (allowed : ¬condition) (gives : live.Gives part holds) :
    live.Gives (if condition then refused else part) holds := by
  rw [if_neg allowed]
  exact gives

theorem and_ends {lost : Option ε → Live σ → Prop} {also : α → Live σ → Prop}
    (gives : live.Gives part holds) (ends : live.Ends part also lost) :
    live.Gives part fun value after => holds value after ∧ also value after := by
  obtain ⟨value, reached, ran, valid⟩ := gives
  rw [Ends, ran] at ends
  exact ⟨value, reached, ran, valid, ends⟩

end Gives

end Giving

end Live

namespace Gateway

variable {σ : Type}

theorem attemptsFrom_apply {α : Type} (operation : String) (call : StateM σ (Except Fault α))
    (attempt left : Nat) (store : σ) :
    RetryPolicy.attemptsFrom operation (Pure.pure ()) call attempt left store =
      match call store, left with
      | (.ok value, store), _ => (.ok value, store)
      | (.error fault, store), 0 =>
        (.error (if fault.retryable then .retriesExhausted operation attempt fault else fault), store)
      | (.error fault, store), left + 1 =>
        if fault.retryable then
          RetryPolicy.attemptsFrom operation (Pure.pure ()) call (attempt + 1) left store
        else (.error fault, store) := by
  rw [RetryPolicy.attemptsFrom_apply, RetryPolicy.next]
  rcases call store with ⟨fault | value, after⟩ <;> cases left <;> rfl

theorem retrying_eq {α : Type} (gateway : Gateway σ) (operation : String)
    (call : StateM σ (Except Fault α)) :
    gateway.retrying operation call =
      let (answer, store) := RetryPolicy.attemptsFrom operation (Pure.pure ()) call 1
        (max 1 gateway.settings.retries - 1) gateway.store
      (answer, { gateway with store }) := rfl

variable [RemoteStore σ] [DepositStore σ]

/-- Uploads, slots and rights are as before, and the store has accepted nothing. -/
structure Unmoved (before after : Gateway σ) : Prop where
  uploads : after.uploads = before.uploads
  nextUpload : after.nextUpload = before.nextUpload
  freeSlots : after.freeSlots = before.freeSlots
  acceptsUploads : after.acceptsUploads = before.acceptsUploads
  settings : after.settings = before.settings
  authorizer : after.authorizer = before.authorizer
  now : after.now = before.now
  store : Gains before.store [] after.store

theorem Unmoved.refl (gateway : Gateway σ) : gateway.Unmoved gateway :=
  ⟨rfl, rfl, rfl, rfl, rfl, rfl, rfl, DepositStore.gains_refl _⟩

theorem Unmoved.trans {first middle last : Gateway σ} (start : first.Unmoved middle)
    (rest : middle.Unmoved last) : first.Unmoved last where
  uploads := rest.uploads.trans start.uploads
  nextUpload := rest.nextUpload.trans start.nextUpload
  freeSlots := rest.freeSlots.trans start.freeSlots
  acceptsUploads := rest.acceptsUploads.trans start.acceptsUploads
  settings := rest.settings.trans start.settings
  authorizer := rest.authorizer.trans start.authorizer
  now := rest.now.trans start.now
  store := DepositStore.gains_trans start.store rest.store

theorem attemptsFrom_gains {α : Type} {operation : String} {call : StateM σ (Except Fault α)}
    (once : ∀ store, Gains store [] (call store).2) (left attempt : Nat) (store : σ) :
    Gains store []
      (RetryPolicy.attemptsFrom operation (Pure.pure ()) call attempt left store).2 := by
  induction left generalizing attempt store with
  | zero =>
      have first := once store
      rw [attemptsFrom_apply]
      rcases called : call store with ⟨fault | value, after⟩ <;> rw [called] at first <;> exact first
  | succ left ih =>
      have first := once store
      rw [attemptsFrom_apply]
      rcases called : call store with ⟨fault | value, after⟩ <;> rw [called] at first
      · simp only
        split
        · exact DepositStore.gains_trans first (ih (attempt + 1) after)
        · exact first
      · exact first

theorem retrying_unmoved {α : Type} {gateway : Gateway σ} {operation : String}
    {call : StateM σ (Except Fault α)} (once : ∀ store, Gains store [] (call store).2) :
    gateway.Unmoved (gateway.retrying operation call).2 := by
  rw [retrying_eq]
  exact ⟨rfl, rfl, rfl, rfl, rfl, rfl, rfl, attemptsFrom_gains once _ _ _⟩

theorem useClient_unmoved (gateway : Gateway σ) (repository : String) :
    gateway.Unmoved (gateway.useClient repository) :=
  ⟨rfl, rfl, rfl, rfl, rfl, rfl, rfl, DepositStore.gains_refl _⟩

theorem metadata_unmoved (location : Location) (gateway : Gateway σ) :
    gateway.Unmoved (gateway.metadata location).2 := by
  have used := gateway.useClient_unmoved location.repository
  simp only [metadata]
  split
  · exact used
  · exact used.trans (retrying_unmoved (DepositStore.metadata location))

theorem content_unmoved (location : Location) (gateway : Gateway σ) :
    gateway.Unmoved (gateway.content location).2 :=
  (gateway.useClient_unmoved location.repository).trans
    (retrying_unmoved (DepositStore.content location))

end Gateway

namespace Live

variable {α ε σ : Type} [RemoteStore σ] [DepositStore σ]

theorem perform_unmoved {effect : Effect} (quiet : effect.Quiet) (live : Live σ) :
    live.gateway.Unmoved (live.perform effect).2.gateway := by
  cases effect with
  | metadata location => exact live.gateway.metadata_unmoved location
  | content location => exact live.gateway.content_unmoved location
  | beginUpload location properties => exact quiet.elim
  | writeUpload upload chunk => exact quiet.elim
  | finishUpload upload => exact quiet.elim
  | log entry => exact ⟨rfl, rfl, rfl, rfl, rfl, rfl, rfl, DepositStore.gains_refl _⟩
  | _ => exact Gateway.Unmoved.refl live.gateway

theorem ends_of_attempts {part : ExceptT ε Action α} {valid : α → Prop} (live : Live σ)
    (attempts : Attempts Effect.Quiet valid part) :
    live.Ends part (fun value after => valid value ∧ live.gateway.Unmoved after.gateway)
      (fun _ after => live.gateway.Unmoved after.gateway) :=
  ends_of_complies attempts (fun after => live.gateway.Unmoved after.gateway)
    (fun _ quiet world before => ⟨before.trans (perform_unmoved quiet world), fun _ _ => trivial⟩)
    (Gateway.Unmoved.refl live.gateway)

theorem unmoved_of_attempts {part : ExceptT ε Action α} {valid : α → Prop} (live : Live σ)
    (attempts : Attempts Effect.Quiet valid part) :
    live.gateway.Unmoved (live.run part.run).2.gateway :=
  ((ends_of_attempts live attempts).mono (fun _ _ ended => ended.2) fun _ _ unmoved => unmoved).reached

end Live

end ArtifactGate
