import ArtifactGate.Action

/-!
What is said of an action by induction on its tree. `Heeds` bounds the effects it asks for and the
results it ends with, for every answer that is possible; `asked` lists the effects a run asks for, each
with the world it is asked of.
-/
namespace ArtifactGate

variable {α β ε ω : Type} {allowed : Effect → Prop} {possible : (effect : Effect) → effect.Answer → Prop}

namespace Action

/-- Asks for allowed effects only, and ends only with results that hold, as long as the answers it is given
are possible ones. -/
def Heeds (possible : (effect : Effect) → effect.Answer → Prop) (allowed : Effect → Prop) (holds : α → Prop) :
    Action α → Prop
  | .done value => holds value
  | .ask effect resume =>
    allowed effect ∧ ∀ answer, possible effect answer → (resume answer).Heeds possible allowed holds

def anyAnswer (effect : Effect) (_ : effect.Answer) : Prop := True

/-- Asks for allowed effects only, and ends only with results that hold, whatever it is answered. -/
abbrev Respects (allowed : Effect → Prop) (holds : α → Prop) (action : Action α) : Prop :=
  action.Heeds anyAnswer allowed holds

theorem Heeds.bind {middle : α → Prop} {holds : β → Prop} {action : Action α}
    {next : α → Action β} (first : action.Heeds possible allowed middle)
    (rest : ∀ value, middle value → (next value).Heeds possible allowed holds) :
    (action >>= next).Heeds possible allowed holds := by
  rw [bind_eq]
  induction action with
  | done value => exact rest value first
  | ask effect resume ih => exact ⟨first.1, fun answer given => ih answer (first.2 answer given)⟩

theorem Heeds.mono {narrow : Effect → Prop} {fewer : (effect : Effect) → effect.Answer → Prop}
    {holds wider : α → Prop} {action : Action α} (heeds : action.Heeds possible narrow holds)
    (answers : ∀ effect answer, fewer effect answer → possible effect answer)
    (allow : ∀ effect, narrow effect → allowed effect)
    (widen : ∀ value, holds value → wider value) : action.Heeds fewer allowed wider := by
  induction action with
  | done value => exact widen value heeds
  | ask effect resume ih =>
      exact ⟨allow effect heeds.1, fun answer given => ih answer (heeds.2 answer (answers effect answer given))⟩

theorem Heeds.run {holds : α → Prop} {action : Action α} (heeds : action.Heeds possible allowed holds)
    (perform : (effect : Effect) → ω → Option effect.Answer × ω) (invariant : ω → Prop)
    (kept : ∀ effect, allowed effect → ∀ world, invariant world →
      invariant (perform effect world).2 ∧
        ∀ answer, (perform effect world).1 = some answer → possible effect answer)
    {world : ω} (initial : invariant world) :
    invariant (action.run perform world).2 ∧
      ∀ value, (action.run perform world).1 = some value → holds value := by
  induction action generalizing world with
  | done value => exact ⟨initial, fun _ same => Option.some.inj same ▸ heeds⟩
  | ask effect resume ih =>
      obtain ⟨after, answers⟩ := kept effect heeds.1 world initial
      rw [Action.run]
      split
      · rename_i answer next performed
        rw [performed] at after answers
        exact ih answer (heeds.2 answer (answers answer rfl)) after
      · rename_i next performed
        rw [performed] at after
        refine ⟨after, ?_⟩
        intro _ absent
        cases absent

/-- An action that asks only for effects that are answered comes to its end. -/
theorem Heeds.ends {holds : α → Prop} {action : Action α} (heeds : action.Heeds possible allowed holds)
    (perform : (effect : Effect) → ω → Option effect.Answer × ω) (invariant : ω → Prop)
    (kept : ∀ effect, allowed effect → ∀ world, invariant world →
      invariant (perform effect world).2 ∧
        ∀ answer, (perform effect world).1 = some answer → possible effect answer)
    (answered : ∀ effect, allowed effect → ∀ world, invariant world → (perform effect world).1 ≠ none)
    {world : ω} (initial : invariant world) : ∃ value, (action.run perform world).1 = some value := by
  induction action generalizing world with
  | done value => exact ⟨value, rfl⟩
  | ask effect resume ih =>
      obtain ⟨after, answers⟩ := kept effect heeds.1 world initial
      have some := answered effect heeds.1 world initial
      rw [Action.run]
      rcases performed : perform effect world with ⟨_ | answer, next⟩ <;> rw [performed] at after answers some
      · exact absurd rfl some
      · exact ih answer (heeds.2 answer (answers answer rfl)) after

theorem run_bind (perform : (effect : Effect) → ω → Option effect.Answer × ω) (action : Action α)
    (next : α → Action β) (world : ω) :
    (action >>= next).run perform world =
      match action.run perform world with
      | (some value, world) => (next value).run perform world
      | (none, world) => (none, world) :=
  run_andThen perform action next world

/-- The effects a run asks for in turn, each with the world it is asked of. -/
def asked (perform : (effect : Effect) → ω → Option effect.Answer × ω) :
    Action α → ω → List (Effect × ω)
  | .done _, _ => []
  | .ask effect resume, world =>
    (effect, world) ::
      match perform effect world with
      | (some answer, world) => (resume answer).asked perform world
      | (none, _) => []

theorem asked_bind (perform : (effect : Effect) → ω → Option effect.Answer × ω) (action : Action α)
    (next : α → Action β) (world : ω) :
    (action >>= next).asked perform world =
      action.asked perform world ++
        match action.run perform world with
        | (some value, world) => (next value).asked perform world
        | (none, _) => [] := by
  rw [bind_eq]
  induction action generalizing world with
  | done value => rfl
  | ask effect resume ih =>
      simp only [andThen, asked, Action.run, List.cons_append]
      rcases performed : perform effect world with ⟨_ | answer, after⟩
      · rfl
      · exact congrArg _ (ih answer after)

/-- What holds of the world at first and is kept by every effect that is asked for holds of the world at last. -/
theorem run_keeps {perform : (effect : Effect) → ω → Option effect.Answer × ω}
    (invariant : ω → Prop) {action : Action α} {world : ω}
    (keeps : ∀ entry ∈ action.asked perform world, invariant entry.2 → invariant (perform entry.1 entry.2).2)
    (initial : invariant world) : invariant (action.run perform world).2 := by
  induction action generalizing world with
  | done value => exact initial
  | ask effect resume ih =>
      rw [Action.asked] at keeps
      obtain ⟨first, rest⟩ := List.forall_mem_cons.1 keeps
      have next := first initial
      rw [Action.run]
      rcases performed : perform effect world with ⟨_ | answer, after⟩ <;> simp only [performed] at next rest ⊢
      · exact next
      · exact ih answer rest next

/-- Two runs go alike, when one world is a view of the other and what is asked for does the same in both. -/
theorem run_map {ξ : Type} {perform : (effect : Effect) → ω → Option effect.Answer × ω}
    {other : (effect : Effect) → ξ → Option effect.Answer × ξ} {view : ω → ξ} {action : Action α} {world : ω}
    (same : ∀ entry ∈ action.asked perform world,
      other entry.1 (view entry.2) = (perform entry.1 entry.2).map id view) :
    action.run other (view world) = (action.run perform world).map id view := by
  induction action generalizing world with
  | done value => rfl
  | ask effect resume ih =>
      rw [Action.asked] at same
      obtain ⟨first, rest⟩ := List.forall_mem_cons.1 same
      rw [Action.run, Action.run, first]
      rcases performed : perform effect world with ⟨_ | answer, after⟩ <;> simp only [performed] at rest
      · rfl
      · exact ih answer rest

theorem Heeds.asked {holds : α → Prop} {action : Action α} (heeds : action.Heeds possible allowed holds)
    (perform : (effect : Effect) → ω → Option effect.Answer × ω) (invariant : ω → Prop)
    (kept : ∀ effect, allowed effect → ∀ world, invariant world →
      invariant (perform effect world).2 ∧
        ∀ answer, (perform effect world).1 = some answer → possible effect answer)
    {world : ω} (initial : invariant world) :
    ∀ entry ∈ action.asked perform world, allowed entry.1 ∧ invariant entry.2 := by
  induction action generalizing world with
  | done value => exact List.forall_mem_nil _
  | ask effect resume ih =>
      intro entry member
      rw [Action.asked] at member
      rcases List.mem_cons.1 member with rfl | member
      · exact ⟨heeds.1, initial⟩
      · obtain ⟨next, answers⟩ := kept effect heeds.1 world initial
        rcases performed : perform effect world with ⟨_ | answer, after⟩ <;>
          simp only [performed] at member next answers
        · cases member
        · exact ih answer (heeds.2 answer (answers answer rfl)) next entry member

end Action

theorem run_adapt {δ : Type} (translate : ε → δ) (attempt : ExceptT ε Action α) :
    (attempt.adapt translate).run = attempt.run >>= fun result => Pure.pure (result.mapError translate) :=
  map_eq_pure_bind _ _

/-- An action that can fail asks for allowed effects only, and its values hold, as long as the answers it is
given are possible ones. -/
def Complies (possible : (effect : Effect) → effect.Answer → Prop) (allowed : Effect → Prop) (holds : α → Prop)
    (attempt : ExceptT ε Action α) : Prop :=
  attempt.run.Heeds possible allowed fun result => ∀ value, result = .ok value → holds value

/-- An action that can fail asks for allowed effects only, and its values hold, whatever it is answered. -/
abbrev Attempts (allowed : Effect → Prop) (holds : α → Prop) (attempt : ExceptT ε Action α) : Prop :=
  Complies Action.anyAnswer allowed holds attempt

namespace Complies

variable {middle holds wider : α → Prop} {after : β → Prop} {attempt : ExceptT ε Action α}

theorem pure {value : α} (valid : holds value) :
    Complies possible allowed holds (Pure.pure value : ExceptT ε Action α) :=
  fun _ same => Except.ok.inj same ▸ valid

theorem throw {failure : ε} :
    Complies possible allowed holds (MonadExcept.throw failure : ExceptT ε Action α) := by
  intro _ absent
  cases absent

theorem bind {next : α → ExceptT ε Action β} (first : Complies possible allowed middle attempt)
    (rest : ∀ value, middle value → Complies possible allowed after (next value)) :
    Complies possible allowed after (attempt >>= next) := by
  rw [Complies, ExceptT.run_bind]
  apply Action.Heeds.bind first
  intro result valid
  cases result with
  | ok value => exact rest value (valid value rfl)
  | error failure =>
      intro _ absent
      cases absent

theorem mono (complies : Complies possible allowed holds attempt) (widen : ∀ value, holds value → wider value) :
    Complies possible allowed wider attempt :=
  Action.Heeds.mono complies (fun _ _ given => given) (fun _ allow => allow)
    fun _ valid value same => widen value (valid value same)

theorem weaken {narrow : Effect → Prop} (complies : Complies possible narrow holds attempt)
    (allow : ∀ effect, narrow effect → allowed effect) : Complies possible allowed holds attempt :=
  Action.Heeds.mono complies (fun _ _ given => given) allow fun _ valid => valid

/-- Whatever an action is answered, it may be answered what is possible. -/
theorem of_attempts (attempts : Attempts allowed holds attempt) : Complies possible allowed holds attempt := by
  rw [Attempts, Complies] at attempts
  exact attempts.mono (fun _ _ _ => trivial) (fun _ allow => allow) fun _ valid => valid

theorem ite {condition : Prop} [Decidable condition] {other : ExceptT ε Action α}
    (yes : condition → Complies possible allowed holds attempt)
    (no : ¬condition → Complies possible allowed holds other) :
    Complies possible allowed holds (if condition then attempt else other) := by
  split
  · exact yes ‹_›
  · exact no ‹_›

theorem refuse {condition : Prop} [Decidable condition] {failure : ε} {next : β → ExceptT ε Action α}
    (go : ¬condition → Complies possible allowed holds attempt) :
    Complies possible allowed holds
      (if condition then (MonadExcept.throw failure : ExceptT ε Action β) >>= next else attempt) := by
  split
  · intro _ absent
    cases absent
  · exact go ‹_›

theorem adapt {δ : Type} {translate : ε → δ} (complies : Complies possible allowed holds attempt) :
    Complies possible allowed holds (attempt.adapt translate) := by
  rw [Complies, run_adapt]
  apply Action.Heeds.bind complies
  intro result valid value same
  cases result with
  | ok given => exact Except.ok.inj same ▸ valid given rfl
  | error failure => cases same

theorem lift {action : Action α} (heeds : action.Heeds possible allowed holds) :
    Complies possible allowed holds (liftM action : ExceptT ε Action α) := by
  apply Action.Heeds.bind heeds
  intro value valid other same
  exact Except.ok.inj same ▸ valid

theorem mk {action : Action (Except ε α)}
    (heeds : action.Heeds possible allowed fun result => ∀ value, result = .ok value → holds value) :
    Complies possible allowed holds (ExceptT.mk action) :=
  heeds

theorem heeds (complies : Complies possible allowed holds attempt) :
    attempt.run.Heeds possible allowed fun result => ∀ value, result = .ok value → holds value :=
  complies

end Complies

attribute [irreducible] Complies

/-- An action that can fail asks for allowed effects only, and both its values and its failures hold, as long as
the answers it is given are possible ones. -/
def Ensures (possible : (effect : Effect) → effect.Answer → Prop) (allowed : Effect → Prop) (holds : α → Prop)
    (fails : ε → Prop) (attempt : ExceptT ε Action α) : Prop :=
  attempt.run.Heeds possible allowed fun
    | .ok value => holds value
    | .error failure => fails failure

namespace Ensures

variable {middle holds wider : α → Prop} {after : β → Prop} {fails : ε → Prop} {attempt : ExceptT ε Action α}

theorem pure {value : α} (valid : holds value) :
    Ensures possible allowed holds fails (Pure.pure value : ExceptT ε Action α) :=
  valid

theorem throw {failure : ε} (valid : fails failure) :
    Ensures possible allowed holds fails (MonadExcept.throw failure : ExceptT ε Action α) :=
  valid

theorem bind {next : α → ExceptT ε Action β} (first : Ensures possible allowed middle fails attempt)
    (rest : ∀ value, middle value → Ensures possible allowed after fails (next value)) :
    Ensures possible allowed after fails (attempt >>= next) := by
  rw [Ensures, ExceptT.run_bind]
  apply Action.Heeds.bind first
  intro result valid
  cases result with
  | ok value => exact rest value valid
  | error failure => exact valid

theorem mono {more : ε → Prop} (ensures : Ensures possible allowed holds fails attempt)
    (widen : ∀ value, holds value → wider value) (lose : ∀ failure, fails failure → more failure) :
    Ensures possible allowed wider more attempt := by
  apply Action.Heeds.mono ensures (fun _ _ given => given) fun _ allow => allow
  intro result valid
  cases result with
  | ok value => exact widen value valid
  | error failure => exact lose failure valid

theorem refuse {condition : Prop} [Decidable condition] {failure : ε} {next : β → ExceptT ε Action α}
    (lose : condition → fails failure) (go : ¬condition → Ensures possible allowed holds fails attempt) :
    Ensures possible allowed holds fails
      (if condition then (MonadExcept.throw failure : ExceptT ε Action β) >>= next else attempt) := by
  split
  · exact lose ‹_›
  · exact go ‹_›

theorem adapt {δ : Type} {translate : ε → δ} {fails : δ → Prop}
    (ensures : Ensures possible allowed holds (fun failure => fails (translate failure)) attempt) :
    Ensures possible allowed holds fails (attempt.adapt translate) := by
  rw [Ensures, run_adapt]
  apply Action.Heeds.bind ensures
  intro result valid
  cases result with
  | ok value => exact valid
  | error failure => exact valid

theorem lift {action : Action α} (heeds : action.Heeds possible allowed holds) :
    Ensures possible allowed holds fails (liftM action : ExceptT ε Action α) :=
  Action.Heeds.bind heeds fun _ valid => valid

theorem mk {action : Action (Except ε α)} (heeds : action.Heeds possible allowed fun
      | .ok value => holds value
      | .error failure => fails failure) : Ensures possible allowed holds fails (ExceptT.mk action) :=
  heeds

theorem heeds (ensures : Ensures possible allowed holds fails attempt) :
    attempt.run.Heeds possible allowed fun
      | .ok value => holds value
      | .error failure => fails failure :=
  ensures

end Ensures

attribute [irreducible] Ensures

end ArtifactGate
