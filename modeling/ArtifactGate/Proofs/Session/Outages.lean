import ArtifactGate.Proofs.Gateway.Views
import ArtifactGate.Proofs.Session.Transcript
import ArtifactGate.Proofs.Store.Outages

/-!
Sessions over a store with outages. As long as no call fails as many times in a row as it is attempted, a
session goes as it goes over the store without the outages.
-/
namespace ArtifactGate

variable {σ : Type} [RemoteStore σ]

theorem Faltering.uploadsThrough : UploadsThrough (Faltering.store (σ := σ)) where
  openUpload _ _ _ := rfl
  admitUpload _ _ _ := rfl
  storeBody _ _ _ _ := rfl
  dropAdmitted _ := rfl
  listingDepth _ := rfl

namespace Live

/-- The session's world without the outages. -/
def calm (live : Live (Faltering σ)) : Live σ :=
  live.map Faltering.store

/-- The session's world with outages that begin now. -/
def under (outages : Outages) (live : Live σ) : Live (Faltering σ) :=
  live.map fun store => { store, outages }

/-- The effect is a call that fails in a way that may pass at each of the attempts that the settings allow. -/
def Exhausts (effect : Effect) (world : Live (Faltering σ)) : Prop :=
  (world.perform effect).2.gateway.store.failed =
    world.gateway.store.failed ++ List.replicate (max 1 world.gateway.settings.retries) true

instance (effect : Effect) (world : Live (Faltering σ)) : Decidable (world.Exhausts effect) :=
  inferInstanceAs (Decidable (_ = _))

omit [RemoteStore σ] in
theorem retrying_calm {α : Type} {operation : String} {call : StateM σ (Except Fault α)}
    {gateway : Gateway (Faltering σ)}
    (withstood : (gateway.retrying operation (Faltering.attempt call)).2.store.failed ≠
      gateway.store.failed ++ List.replicate (max 1 gateway.settings.retries) true) :
    (gateway.map Faltering.store).retrying operation call =
      (gateway.retrying operation (Faltering.attempt call)).map id (Gateway.map Faltering.store) := by
  obtain ⟨made, failed, same⟩ := Faltering.attemptsFrom_store operation call
    (max 1 gateway.settings.retries - 1) gateway.store 1 1 _ (Nat.le_refl _)
  have budget : max 1 gateway.settings.retries - 1 + 1 = max 1 gateway.settings.retries :=
    Nat.sub_add_cancel (Nat.le_max_left _ _)
  rw [budget] at same
  rw [Gateway.retrying_eq] at withstood ⊢
  have answered := same fun all => withstood (all ▸ failed)
  exact congrArg (Prod.map id fun store => { gateway.map Faltering.store with store }) answered

/-- A call that some attempt of it gets through does what it does without the outages. -/
theorem perform_calm {effect : Effect} {world : Live (Faltering σ)} (withstood : ¬world.Exhausts effect) :
    world.calm.perform effect = (world.perform effect).map id calm := by
  have through : UploadsThrough (Faltering.store (σ := σ)) := Faltering.uploadsThrough
  cases effect with
  | metadata location =>
      rw [Exhausts] at withstood
      simp only [perform, Gateway.metadata] at withstood ⊢
      split
      · rfl
      · rename_i described
        simp only [described] at withstood
        exact congrArg (Prod.map some fun gateway => { world.calm with gateway }) (retrying_calm withstood)
  | content location =>
      exact congrArg (Prod.map some fun gateway => { world.calm with gateway }) (retrying_calm withstood)
  | beginUpload location properties =>
      exact congrArg (Prod.map id fun gateway => { world.calm with gateway })
        (Gateway.beginUpload_map through location properties _ world.gateway)
  | writeUpload upload chunk =>
      simp only [perform, calm, Live.map, Gateway.write_map through]
      rcases world.gateway.write upload chunk with ⟨_ | _ | _, after⟩ <;> rfl
  | finishUpload upload =>
      exact congrArg (Prod.map id fun gateway => { world.calm with gateway })
        (Gateway.finish_map through upload world.gateway)
  | _ => rfl

theorem run_calm {α ε : Type} {part : ExceptT ε Action α} {live : Live (Faltering σ)}
    (withstood : ∀ entry ∈ live.asked part, ¬entry.2.Exhausts entry.1) :
    live.calm.run part.run = (live.run part.run).map id calm := by
  rw [Live.run, Live.run]
  exact Action.run_map fun entry member => perform_calm (withstood entry member)

end Live

namespace Session

variable {transfer : Transfer} {mark : Nat} {live : Live (Faltering σ)}

theorem report_calm (fault : Fault) (live : Live (Faltering σ)) :
    report fault live.calm = (report fault live).calm := by
  have sent : live.calm.run (report.sendError fault).run =
      (live.run (report.sendError fault).run).map id Live.calm := by
    apply Live.run_calm
    intro entry member all
    rw [report.sendError, Live.asked_send] at member
    rw [List.mem_singleton.1 member] at all
    have lengths := congrArg List.length all
    have some : 1 ≤ max 1 live.gateway.settings.retries := Nat.le_max_left _ _
    simp only [Live.perform, List.length_append, List.length_replicate] at lengths
    omega
  exact congrArg Prod.snd sent

theorem fail_calm (failure : Failure) (live : Live (Faltering σ)) :
    fail transfer mark failure live.calm = (fail transfer mark failure live).map id Live.calm := by
  have given : live.calm.gateway.abandonSince mark = (live.gateway.abandonSince mark).map Faltering.store :=
    Gateway.abandonSince_map Faltering.uploadsThrough mark live.gateway
  rw [fail, fail, given]
  generalize live.gateway.abandonSince mark = after
  have told (log : List AccessRecord) := report_calm failure.fault { live with gateway := { after with log } }
  cases failure.logged with
  | true =>
      dsimp only
      split
      · exact congrArg (Prod.mk _) (told after.log)
      · rfl
  | false =>
      simp only [Bool.false_eq_true, if_false]
      split
      · exact congrArg (Prod.mk _) (told (after.log ++ [transfer.failureRecord transfer.defaultSite failure.fault]))
      · rfl

theorem cancel_calm (live : Live (Faltering σ)) :
    cancel transfer mark live.calm = (cancel transfer mark live).map id Live.calm := by
  have settled : live.calm.gateway.settle = live.gateway.settle.map Faltering.store :=
    Gateway.settle_map Faltering.uploadsThrough live.gateway
  rw [cancel, cancel, settled]
  exact fail_calm { fault := .cancelled } { live with gateway := live.gateway.settle }

theorem carryOut_calm {α : Type} {step : Step α} {next : α → Session}
    (withstood : ∀ entry ∈ live.asked step, ¬entry.2.Exhausts entry.1) :
    carryOut transfer mark step next live.calm = (carryOut transfer mark step next live).map id Live.calm := by
  rw [carryOut, carryOut, Live.run_calm withstood]
  rcases live.run step.run with ⟨_ | failure | value, after⟩
  · exact cancel_calm after
  · exact fail_calm failure after
  · rfl

theorem start_calm {login : Login} {line : String}
    (withstood : ∀ entry ∈ opening login line live, ¬entry.2.Exhausts entry.1) :
    start login line live.calm = (start login line live).map id Live.calm := by
  cases parsed : Command.parse line with
  | error fault =>
      rw [start_refused parsed, start_refused parsed, report_calm]
      rfl
  | ok command =>
      cases direction : command.direction with
      | source =>
          rw [start_source parsed direction, start_source parsed direction]
          rfl
      | sink =>
          rw [opening_sink parsed direction] at withstood
          rw [start_sink parsed direction, start_sink parsed direction]
          exact carryOut_calm withstood

theorem feed_calm {byte : UInt8} {state : Session × Live (Faltering σ)}
    (withstood : ∀ entry ∈ asked byte state, ¬entry.2.Exhausts entry.1) :
    feed byte (state.map id Live.calm) = (feed byte state).map id Live.calm := by
  obtain ⟨session, live⟩ := state
  cases session with
  | receiving transfer mark receiver => exact carryOut_calm withstood
  | sending transfer sender => exact carryOut_calm withstood
  | ended result => rfl

theorem feedAll_calm {bytes : List UInt8} {state : Session × Live (Faltering σ)}
    (withstood : ∀ entry ∈ transcript bytes state, ¬entry.2.Exhausts entry.1) :
    feedAll bytes (state.map id Live.calm) = (feedAll bytes state).map id Live.calm := by
  induction bytes generalizing state with
  | nil => rfl
  | cons byte rest ih =>
      rw [transcript] at withstood
      obtain ⟨first, others⟩ := List.forall_mem_append.1 withstood
      rw [feedAll, List.foldl_cons, feed_calm first]
      exact ih others

theorem finish_calm {ending : Ending} {state : Session × Live (Faltering σ)}
    (withstood : ∀ entry ∈ closing ending state, ¬entry.2.Exhausts entry.1) :
    finish ending (state.map id Live.calm) = (finish ending state).map id Live.calm := by
  obtain ⟨session, live⟩ := state
  cases session with
  | receiving transfer mark receiver =>
      cases ending with
      | closed => exact carryOut_calm withstood
      | broken reason => exact carryOut_calm withstood
      | silent => exact cancel_calm live
  | sending transfer sender =>
      cases ending with
      | closed => exact carryOut_calm withstood
      | broken reason => exact carryOut_calm withstood
      | silent => exact cancel_calm live
  | ended result => rfl

/-- Outages are not seen. While no call that a session makes fails as many times in a row as it is attempted,
the session ends as it does without the outages: with the same result, the same bytes sent to the client, the
same store and the same access log. -/
theorem outages_unseen {login : Login} {line : String} {input : List UInt8} {ending : Ending} {live : Live σ}
    {outages : Outages}
    (withstood : ∀ entry ∈ effects login line input ending (live.under outages), ¬entry.2.Exhausts entry.1) :
    run login line input ending live =
      (run login line input ending (live.under outages)).map id Live.calm := by
  rw [effects] at withstood
  obtain ⟨before, closed⟩ := List.forall_mem_append.1 withstood
  obtain ⟨opened, fed⟩ := List.forall_mem_append.1 before
  have same : finish ending (feedAll input (start login line live)) =
      (finish ending (feedAll input (start login line (live.under outages)))).map id Live.calm := by
    rw [← finish_calm closed, ← feedAll_calm fed, ← start_calm opened]
    rfl
  rw [finish_eq_run, finish_eq_run] at same
  obtain ⟨result, last⟩ := Prod.mk.inj same
  exact Prod.ext (Session.ended.inj result) last

/-- A directory with one file is sent, while two of three attempts to get its metadata and two of three to get the
file's content meet an outage. -/
theorem outages_unseen_of_directory :
    let store := MemoryStore.insert {} ⟨"libs", "d/a"⟩ [104, 105] .empty
    let live : Live MemoryStore :=
      { gateway := Gateway.new { retries := 3 } store (fun _ _ _ => true) ⟨0, 0⟩ }
    let outages : Outages :=
      ⟨fun attempt => if attempt ∈ [0, 1, 4, 5] then some MemoryStore.injectedFault else none, by
        intro attempt fault met
        obtain ⟨_, same⟩ := Option.ite_none_right_eq_some.1 met
        cases same
        rfl⟩
    let ended := run ⟨"ann", "::1", .empty⟩ "scp -r -f libs/d" [0, 0, 0, 0, 0] .closed (live.under outages)
    ended.2.gateway.store.failed = [true, true, false, false, true, true, false] ∧
      run ⟨"ann", "::1", .empty⟩ "scp -r -f libs/d" [0, 0, 0, 0, 0] .closed live = ended.map id Live.calm := by
  intro store live outages ended
  have withstood : ∀ entry ∈ effects ⟨"ann", "::1", .empty⟩ "scp -r -f libs/d" [0, 0, 0, 0, 0] .closed
      (live.under outages), ¬entry.2.Exhausts entry.1 := by
    decide +kernel
  exact ⟨by decide +kernel, outages_unseen withstood⟩

end Session

end ArtifactGate
