import ArtifactGate.Proofs.Gateway.Views
import ArtifactGate.Proofs.Session.Omission
import ArtifactGate.Proofs.Session.Twins

/-!
Downloads over a store that fails to describe some of what it lists. What the store cannot describe for another
reason than that it does not exist is left out of the children of a directory; a download goes on without it, as
if it were not listed.
-/
namespace ArtifactGate

variable {σ : Type}

/-- A store some of whose places are hidden: no directory lists them. -/
structure Veiled (σ : Type) where
  store : σ
  gone : Location → Bool

namespace Veiled

def after {α : Type} (veiled : Veiled σ) (result : α × σ) : α × Veiled σ :=
  (result.1, { veiled with store := result.2 })

instance [RemoteStore σ] : RemoteStore (Veiled σ) where
  metadata location veiled :=
    let (answer, next) := veiled.after (RemoteStore.metadata location veiled.store)
    (answer.map (Metadata.without veiled.gone location), next)
  content location veiled := veiled.after (RemoteStore.content location veiled.store)
  openUpload location properties veiled :=
    veiled.after (RemoteStore.openUpload location properties veiled.store)
  admitUpload location properties veiled :=
    veiled.after (RemoteStore.admitUpload location properties veiled.store)
  storeBody location properties bytes veiled :=
    veiled.after (RemoteStore.storeBody location properties bytes veiled.store)
  dropAdmitted veiled := { veiled with store := RemoteStore.dropAdmitted veiled.store }
  listingDepth veiled := RemoteStore.listingDepth veiled.store

end Veiled

namespace RetryPolicy

variable {τ α β : Type}

/-- Attempts of a call that is answered with a view of what another is answered with. -/
theorem attemptsFrom_view {view : σ → τ} {translate : α → β} {call : StateM σ (Except Fault α)}
    {other : StateM τ (Except Fault β)}
    (same : ∀ store, other (view store) = ((call store).1.map translate, view (call store).2)) (operation : String)
    (attempt left : Nat) (store : σ) :
    attemptsFrom operation (Pure.pure ()) other attempt left (view store) =
      ((attemptsFrom operation (Pure.pure ()) call attempt left store).1.map translate,
        view (attemptsFrom operation (Pure.pure ()) call attempt left store).2) := by
  induction left generalizing attempt store with
  | zero =>
      rw [Gateway.attemptsFrom_apply, Gateway.attemptsFrom_apply, same]
      rcases call store with ⟨fault | value, after⟩ <;> rfl
  | succ left ih =>
      rw [Gateway.attemptsFrom_apply, Gateway.attemptsFrom_apply, same]
      rcases call store with ⟨fault | value, after⟩
      · simp only [Except.map]
        split
        · exact ih (attempt + 1) after
        · rfl
      · rfl

/-- Attempts of a call that is always answered in the same way. -/
theorem attemptsFrom_constant {invariant : σ → Prop} {call : StateM σ (Except Fault α)} {answer : Except Fault α}
    (constant : ∀ store, invariant store → (call store).1 = answer ∧ invariant (call store).2) (operation : String)
    (left : Nat) : ∀ attempt, ∃ outcome, ∀ store, invariant store →
      (attemptsFrom operation (Pure.pure ()) call attempt left store).1 = outcome ∧
        invariant (attemptsFrom operation (Pure.pure ()) call attempt left store).2 := by
  induction left with
  | zero =>
      intro attempt
      refine ⟨answer.mapError fun fault =>
        if fault.retryable then .retriesExhausted operation attempt fault else fault, fun store held => ?_⟩
      obtain ⟨same, kept⟩ := constant store held
      rw [Gateway.attemptsFrom_apply]
      rcases called : call store with ⟨fault | value, after⟩ <;> rw [called] at same kept <;> subst same
      · exact ⟨rfl, kept⟩
      · exact ⟨rfl, kept⟩
  | succ left ih =>
      intro attempt
      obtain ⟨later, answered⟩ := ih (attempt + 1)
      refine ⟨match answer with
        | .ok value => .ok value
        | .error fault => if fault.retryable then later else .error fault, fun store held => ?_⟩
      obtain ⟨same, kept⟩ := constant store held
      rw [Gateway.attemptsFrom_apply]
      rcases called : call store with ⟨fault | value, after⟩ <;> rw [called] at same kept <;> subst same
      · dsimp only
        split
        · exact answered after kept
        · exact ⟨rfl, kept⟩
      · exact ⟨rfl, kept⟩

end RetryPolicy

variable [RemoteStore σ]

namespace Gateway

variable {gone : Location → Bool} {origin gateway : Gateway σ}

/-- A gateway over the store that hides some places. -/
def veil (gone : Location → Bool) (gateway : Gateway σ) : Gateway (Veiled σ) :=
  gateway.map fun store => { store, gone }

/-- The places that the store fails to describe, other than by saying that they do not exist. -/
def loses (gateway : Gateway σ) (location : Location) : Bool :=
  !location.isSink &&
    match (gateway.metadata location).1 with
    | .ok _ => false
    | .error fault => !fault.isNotFound

theorem lost_of_loses (origin : Gateway σ) :
    Loses (fun location => (origin.metadata location).1) origin.loses := by
  intro location lost
  rw [loses, Bool.and_eq_true, Bool.not_eq_true'] at lost
  obtain ⟨remote, failed⟩ := lost
  rcases answer : (origin.metadata location).1 with fault | metadata <;> rw [answer] at failed
  · exact ⟨remote, fault, answer, Bool.not_eq_true' _ |>.mp failed⟩
  · cases failed

theorem metadata_veil (location : Location) (gateway : Gateway σ) :
    (gateway.veil gone).metadata location =
      ((gateway.metadata location).1.map (Metadata.without gone location),
        (gateway.metadata location).2.veil gone) := by
  let view (store : σ) : Veiled σ := { store, gone }
  have same (store : σ) : RemoteStore.metadata location (view store) =
      ((RemoteStore.metadata location store).1.map (Metadata.without gone location),
        view (RemoteStore.metadata location store).2) := rfl
  simp only [metadata]
  split
  · rfl
  · exact congrArg (fun result => (result.1, { (gateway.useClient location.repository).veil gone with
      store := result.2 })) (RetryPolicy.attemptsFrom_view same _ _ _ _)

theorem content_veil (location : Location) (gateway : Gateway σ) :
    (gateway.veil gone).content location =
      ((gateway.content location).1, (gateway.content location).2.veil gone) := by
  let view (store : σ) : Veiled σ := { store, gone }
  have same (store : σ) : RemoteStore.content location (view store) =
      ((RemoteStore.content location store).1.map id, view (RemoteStore.content location store).2) := by
    rw [Except.map_id]
    rfl
  have called := RetryPolicy.attemptsFrom_view same "get content" 1 (max 1 gateway.settings.retries - 1) gateway.store
  rw [Except.map_id] at called
  exact congrArg (fun result => (result.1, { (gateway.useClient location.repository).veil gone with
    store := result.2 })) called

/-- What a store may have become by being asked about places and for contents. -/
inductive Queried (origin : Gateway σ) : σ → Prop
  | origin : Queried origin origin.store
  | metadata {store : σ} (queried : Queried origin store) (location : Location) :
    Queried origin (Gateway.metadata location { origin with store }).2.store
  | content {store : σ} (queried : Queried origin store) (location : Location) :
    Queried origin (Gateway.content location { origin with store }).2.store

/-- The gateway answers a question in the same way whenever it is asked. The answers may be anything, and a call
that fails may pass when it is repeated at once. -/
structure Constant (origin : Gateway σ) : Prop where
  metadata : ∀ store, origin.Queried store → ∀ location,
    (Gateway.metadata location { origin with store }).1 = (origin.metadata location).1
  content : ∀ store, origin.Queried store → ∀ location,
    (Gateway.content location { origin with store }).1 = (origin.content location).1
  listingDepth : ∀ store, origin.Queried store →
    RemoteStore.listingDepth store = RemoteStore.listingDepth origin.store

/-- A gateway that has been asked, and is otherwise as it was for what it answers. -/
structure Alike (origin gateway : Gateway σ) : Prop where
  settings : gateway.settings = origin.settings
  authorizer : gateway.authorizer = origin.authorizer
  now : gateway.now = origin.now
  queried : origin.Queried gateway.store

theorem Alike.refl (origin : Gateway σ) : origin.Alike origin :=
  ⟨rfl, rfl, rfl, .origin⟩

theorem metadata_moves (location : Location) (gateway : Gateway σ) :
    ∃ store clients, (gateway.metadata location).2 = { gateway with store, clients } := by
  simp only [Gateway.metadata]
  split <;> exact ⟨_, _, rfl⟩

theorem Alike.metadata (alike : origin.Alike gateway) (constant : origin.Constant) (location : Location) :
    (gateway.metadata location).1 = (origin.metadata location).1 ∧
      origin.Alike (gateway.metadata location).2 := by
  have same : (gateway.metadata location).1 =
        (Gateway.metadata location { origin with store := gateway.store }).1 ∧
      (gateway.metadata location).2.store =
        (Gateway.metadata location { origin with store := gateway.store }).2.store := by
    simp only [Gateway.metadata]
    split
    · exact ⟨by rw [useClient, useClient, alike.now], rfl⟩
    · exact retrying_twin (by exact alike.settings) (by rfl) _ _
  obtain ⟨answer, kept⟩ := same
  obtain ⟨store, clients, moved⟩ := gateway.metadata_moves location
  refine ⟨answer.trans (constant.metadata _ alike.queried location), ?_, ?_, ?_, ?_⟩
  · rw [moved]
    exact alike.settings
  · rw [moved]
    exact alike.authorizer
  · rw [moved]
    exact alike.now
  · rw [kept]
    exact alike.queried.metadata location

theorem Alike.content (alike : origin.Alike gateway) (constant : origin.Constant) (location : Location) :
    (gateway.content location).1 = (origin.content location).1 ∧
      origin.Alike (gateway.content location).2 := by
  have same : (gateway.content location).1 =
        (Gateway.content location { origin with store := gateway.store }).1 ∧
      (gateway.content location).2.store =
        (Gateway.content location { origin with store := gateway.store }).2.store :=
    retrying_twin (by exact alike.settings) (by rfl) _ _
  obtain ⟨answer, kept⟩ := same
  refine ⟨answer.trans (constant.content _ alike.queried location), alike.settings, alike.authorizer, alike.now, ?_⟩
  rw [kept]
  exact alike.queried.content location

end Gateway

namespace Gateway

/-- A store that answers every single call in the same way, whatever it was asked before. -/
theorem Constant.of_invariant {origin : Gateway σ} (invariant : σ → Prop) (initial : invariant origin.store)
    (metadata : ∀ location, ∃ answer, ∀ store, invariant store →
      (RemoteStore.metadata location store).1 = answer ∧ invariant (RemoteStore.metadata location store).2)
    (content : ∀ location, ∃ answer, ∀ store, invariant store →
      (RemoteStore.content location store).1 = answer ∧ invariant (RemoteStore.content location store).2)
    (listingDepth : ∀ store, invariant store →
      RemoteStore.listingDepth store = RemoteStore.listingDepth origin.store) : origin.Constant := by
  have described (location : Location) : ∃ outcome, ∀ store, invariant store →
      (Gateway.metadata location { origin with store }).1 = outcome ∧
        invariant (Gateway.metadata location { origin with store }).2.store := by
    obtain ⟨answer, constant⟩ := metadata location
    obtain ⟨outcome, answered⟩ :=
      RetryPolicy.attemptsFrom_constant constant "get metadata" (max 1 origin.settings.retries - 1) 1
    simp only [Gateway.metadata]
    split
    · rename_i size _
      exact ⟨.ok (Metadata.file origin.now location.repository ("/" ++ location.path) size), fun store held =>
        ⟨rfl, held⟩⟩
    · exact ⟨outcome, answered⟩
  have retrieved (location : Location) : ∃ outcome, ∀ store, invariant store →
      (Gateway.content location { origin with store }).1 = outcome ∧
        invariant (Gateway.content location { origin with store }).2.store := by
    obtain ⟨answer, constant⟩ := content location
    obtain ⟨outcome, answered⟩ :=
      RetryPolicy.attemptsFrom_constant constant "get content" (max 1 origin.settings.retries - 1) 1
    exact ⟨outcome, answered⟩
  have kept {store : σ} (queried : origin.Queried store) : invariant store := by
    induction queried with
    | origin => exact initial
    | metadata _ location ih =>
        obtain ⟨outcome, answered⟩ := described location
        exact (answered _ ih).2
    | content _ location ih =>
        obtain ⟨outcome, answered⟩ := retrieved location
        exact (answered _ ih).2
  refine ⟨fun store queried location => ?_, fun store queried location => ?_, fun store queried =>
    listingDepth store (kept queried)⟩
  · obtain ⟨outcome, answered⟩ := described location
    exact (answered store (kept queried)).1.trans (answered _ initial).1.symm
  · obtain ⟨outcome, answered⟩ := retrieved location
    exact (answered store (kept queried)).1.trans (answered _ initial).1.symm

end Gateway

namespace ScriptedStore

/-- The same store with no failures pending, but for how often it was called. -/
def Counted (store other : ScriptedStore) : Prop :=
  ∃ metadataCalls contentCalls memoryMetadataCalls memoryContentCalls,
    other = { store with
      metadataCalls, contentCalls
      memory := { store.memory with
        failuresPending := 0, metadataCalls := memoryMetadataCalls, contentCalls := memoryContentCalls } }

theorem spend_lasting {faults : List ScriptedFault} (lasting : ∀ fault ∈ faults, fault.remaining = none)
    (call : StoreCall) (location : Location) : (spend call location faults).2 = faults := by
  induction faults with
  | nil => rfl
  | cons entry rest ih =>
      obtain ⟨first, others⟩ := List.forall_mem_cons.1 lasting
      rw [spend]
      split
      · rw [first, Option.map_none, ← first]
      · exact congrArg (entry :: ·) (ih others)

/-- A store whose faults last answers every call in the same way. -/
theorem constant {origin : Gateway ScriptedStore} (lasting : ∀ fault ∈ origin.store.faults, fault.remaining = none)
    (reliable : origin.store.memory.failuresPending = 0) : origin.Constant := by
  have spent (call : StoreCall) (location : Location) :
      spend call location origin.store.faults = ((spend call location origin.store.faults).1, origin.store.faults) :=
    Prod.ext rfl (spend_lasting lasting call location)
  have same : origin.store.memory = { origin.store.memory with failuresPending := 0 } := by rw [← reliable]
  have initial : Counted origin.store origin.store :=
    ⟨_, _, _, _, congrArg (fun memory => { origin.store with memory }) same⟩
  apply Gateway.Constant.of_invariant (Counted origin.store) initial
  · intro location
    refine ⟨(spend .metadata location origin.store.faults).1.elim
      ((origin.store.memory.describe location).map (origin.store.dated location)) .error, ?_⟩
    rintro _ ⟨_, _, _, _, rfl⟩
    simp only [RemoteStore.metadata, metadata, takeFault]
    rw [spent]
    cases (spend .metadata location origin.store.faults).1 with
    | some fault => exact ⟨rfl, _, _, _, _, rfl⟩
    | none =>
        simp only [MemoryStore.metadata, MemoryStore.takeFailure]
        exact ⟨rfl, _, _, _, _, rfl⟩
  · intro location
    refine ⟨(spend .content location origin.store.faults).1.elim
      ((origin.store.memory.retrieve location).map (origin.store.cut location)) .error, ?_⟩
    rintro _ ⟨_, _, _, _, rfl⟩
    simp only [RemoteStore.content, content, takeFault]
    rw [spent]
    cases (spend .content location origin.store.faults).1 with
    | some fault => exact ⟨rfl, _, _, _, _, rfl⟩
    | none =>
        simp only [MemoryStore.content, MemoryStore.takeFailure]
        exact ⟨rfl, _, _, _, _, rfl⟩
  · rintro _ ⟨_, _, _, _, rfl⟩
    rfl

end ScriptedStore

namespace Live

variable {gone : Location → Bool} {origin : Gateway σ} {one two : Live σ}

def veil (gone : Location → Bool) (live : Live σ) : Live (Veiled σ) :=
  live.map fun store => { store, gone }

/-- Two gateways over stores that have been asked, with nothing in progress. They have told their clients and logged
the same. -/
structure Agree (origin : Gateway σ) (one two : Live σ) : Prop where
  outlet : two.outlet = one.outlet
  log : two.gateway.log = one.gateway.log
  idle : one.gateway.uploads = []
  idleToo : two.gateway.uploads = []
  here : origin.Alike one.gateway
  there : origin.Alike two.gateway

/-- The second of two such gateways is seen through a veil. -/
def AgreeVeiled (origin : Gateway σ) (gone : Location → Bool) (one : Live σ) (veiled : Live (Veiled σ)) : Prop :=
  ∃ two, veiled = two.veil gone ∧ Agree origin one two

/-- Asked something that does not depend on what is hidden, both answer the same. -/
theorem Agree.perform_plain {effect : Effect} (agree : Agree origin one two) (plain : effect.Plain)
    (constant : origin.Constant) :
    ((two.veil gone).perform effect).1 = (one.perform effect).1 ∧
      AgreeVeiled origin gone (one.perform effect).2 ((two.veil gone).perform effect).2 := by
  obtain ⟨outlet, log, idle, idleToo, here, there⟩ := agree
  cases effect with
  | authorize repository user access =>
      refine ⟨?_, two, rfl, outlet, log, idle, idleToo, here, there⟩
      have same : two.gateway.authorizer = one.gateway.authorizer := there.authorizer.trans here.authorizer.symm
      exact congrArg (fun rights : Authorizer => some (rights repository user access)) same
  | metadata location => exact plain.elim
  | content location =>
      obtain ⟨answer, next⟩ := here.content constant location
      obtain ⟨same, also⟩ := there.content constant location
      have called : (two.veil gone).gateway.content location = _ := two.gateway.content_veil location
      rw [perform, perform, Live.answer, Live.answer, called]
      exact ⟨congrArg some (same.trans answer.symm), { two with gateway := (two.gateway.content location).2 }, rfl,
        outlet, log, idle, idleToo, next, also⟩
  | beginUpload location properties => exact plain.elim
  | writeUpload upload chunk => exact plain.elim
  | finishUpload upload => exact plain.elim
  | send bytes =>
      have taken : (two.veil gone).outlet.take bytes = one.outlet.take bytes := congrArg (Outlet.take · bytes) outlet
      rw [perform, perform, taken]
      exact ⟨rfl, { two with outlet := (one.outlet.take bytes).2 }, rfl, rfl, log, idle, idleToo, here, there⟩
  | log entry =>
      refine ⟨rfl, { two with gateway := { two.gateway with log := two.gateway.log ++ [entry] } }, rfl, outlet,
        congrArg (· ++ [entry]) log, idle, idleToo, ?_, ?_⟩
      · exact ⟨here.settings, here.authorizer, here.now, here.queried⟩
      · exact ⟨there.settings, there.authorizer, there.now, there.queried⟩
  | now =>
      exact ⟨congrArg some (there.now.trans here.now.symm), two, rfl, outlet, log, idle, idleToo, here, there⟩
  | listingDepth =>
      have same := (constant.listingDepth _ there.queried).trans (constant.listingDepth _ here.queried).symm
      exact ⟨congrArg some same, two, rfl, outlet, log, idle, idleToo, here, there⟩
  | diverge => exact ⟨rfl, two, rfl, outlet, log, idle, idleToo, here, there⟩

theorem Agree.perform_metadata (agree : Agree origin one two) (constant : origin.Constant) (location : Location) :
    (one.perform (.metadata location)).1 = some (origin.metadata location).1 ∧
      Agree origin (one.perform (.metadata location)).2 two := by
  obtain ⟨answer, next⟩ := agree.here.metadata constant location
  obtain ⟨store, clients, moved⟩ := one.gateway.metadata_moves location
  refine ⟨congrArg some answer, agree.outlet, ?_, ?_, agree.idleToo, next, agree.there⟩
  · exact agree.log.trans (congrArg Gateway.log moved).symm
  · exact (congrArg Gateway.uploads moved).trans agree.idle

/-- The veiled store describes a place as the store does, but for the entries that are hidden. -/
theorem Agree.perform_listed (agree : Agree origin one two) (constant : origin.Constant) (location : Location) :
    ((two.veil gone).perform (.metadata location)).1 =
        some ((origin.metadata location).1.map (Metadata.without gone location)) ∧
      AgreeVeiled origin gone one ((two.veil gone).perform (.metadata location)).2 := by
  obtain ⟨answer, next⟩ := agree.there.metadata constant location
  obtain ⟨store, clients, moved⟩ := two.gateway.metadata_moves location
  have called : (two.veil gone).gateway.metadata location = _ := two.gateway.metadata_veil location
  rw [perform, Live.answer, called, answer]
  refine ⟨rfl, { two with gateway := (two.gateway.metadata location).2 }, rfl, agree.outlet, ?_, agree.idle, ?_,
    agree.here, next⟩
  · exact (congrArg Gateway.log moved).trans agree.log
  · exact (congrArg Gateway.uploads moved).trans agree.idleToo

/-- Parts of a session of which one leaves out asking about what is hidden. -/
theorem AgreeVeiled.run {α β : Type} {view : α → β} {left : Action α} {right : Action β}
    {veiled : Live (Veiled σ)}
    (omits : left.Omits (fun location => (origin.metadata location).1) gone view right) (constant : origin.Constant)
    (agree : AgreeVeiled origin gone one veiled) :
    (veiled.run right).1 = (one.run left).1.map view ∧
      AgreeVeiled origin gone (one.run left).2 (veiled.run right).2 := by
  rw [Live.run, Live.run]
  apply omits.run _ _ _ agree
  · rintro effect plain one _ ⟨two, rfl, agree⟩
    exact agree.perform_plain plain constant
  · rintro location one _ ⟨two, rfl, agree⟩
    obtain ⟨answer, next⟩ := agree.perform_metadata constant location
    exact ⟨answer, two, rfl, next⟩
  · rintro location one _ ⟨two, rfl, agree⟩
    exact agree.perform_listed constant location

end Live

namespace Session

variable {gone : Location → Bool} {origin : Gateway σ} {one : Live σ} {veiled : Live (Veiled σ)} {transfer : Transfer}

/-- Two runs of one download: the nodes that the second has in hand do not list what is hidden. -/
inductive Agree (origin : Gateway σ) (gone : Location → Bool) : Session × Live σ → Session × Live (Veiled σ) → Prop
  | sending {transfer : Transfer} {sender : Sender} {one : Live σ} {veiled : Live (Veiled σ)}
      (agree : Live.AgreeVeiled origin gone one veiled) :
    Agree origin gone (.sending transfer sender, one) (.sending transfer (sender.without gone), veiled)
  | ended {result : Except Fault Unit} {one : Live σ} {veiled : Live (Veiled σ)}
      (agree : Live.AgreeVeiled origin gone one veiled) :
    Agree origin gone (.ended result, one) (.ended result, veiled)

theorem report_agree (constant : origin.Constant) (fault : Fault) (agree : Live.AgreeVeiled origin gone one veiled) :
    Live.AgreeVeiled origin gone (report fault one) (report fault veiled) :=
  (agree.run (Omitting.send _) constant).2

theorem fail_agree (constant : origin.Constant) (mark other : Nat) (failure : Failure)
    (agree : Live.AgreeVeiled origin gone one veiled) :
    Agree origin gone (fail transfer mark failure one) (fail transfer other failure veiled) := by
  have idle {τ : Type} [RemoteStore τ] {live : Live τ} (none : live.gateway.uploads = []) (mark : Nat) :
      live.gateway.abandonSince mark = live.gateway := by
    rw [Gateway.abandonSince, none]
    rfl
  obtain ⟨two, rfl, agree⟩ := agree
  have idleToo : (two.veil gone).gateway.uploads = [] := agree.idleToo
  let entry := transfer.failureRecord transfer.defaultSite failure.fault
  have plain : (Effect.log entry).Plain := trivial
  obtain ⟨_, logged⟩ : ((two.veil gone).perform (.log entry)).1 = (one.perform (.log entry)).1 ∧
      Live.AgreeVeiled origin gone _ _ :=
    agree.perform_plain plain constant
  rw [fail, fail, idle agree.idle, idle idleToo]
  cases failure.logged with
  | true =>
      dsimp only
      split
      · exact .ended (report_agree constant _ ⟨two, rfl, agree⟩)
      · exact .ended ⟨two, rfl, agree⟩
  | false =>
      dsimp only
      split
      · exact .ended (report_agree constant _ logged)
      · exact .ended logged

theorem cancel_agree (constant : origin.Constant) (mark other : Nat)
    (agree : Live.AgreeVeiled origin gone one veiled) :
    Agree origin gone (cancel transfer mark one) (cancel transfer other veiled) := by
  obtain ⟨two, rfl, agree⟩ := agree
  have idleToo : (two.veil gone).gateway.uploads = [] := agree.idleToo
  rw [cancel, cancel, Gateway.settle_idle agree.idle, Gateway.settle_idle idleToo]
  exact fail_agree constant mark other _ ⟨two, rfl, agree⟩

theorem carryOut_agree {α β : Type} {view : α → β} {step : Step α} {other : Step β} {next : α → Session}
    {also : β → Session} (constant : origin.Constant) (mark begun : Nat)
    (omits : Omitting (fun location => (origin.metadata location).1) gone view step other)
    (agree : Live.AgreeVeiled origin gone one veiled)
    (goesOn : ∀ value (one : Live σ) (veiled : Live (Veiled σ)), Live.AgreeVeiled origin gone one veiled →
      Agree origin gone (next value, one) (also (view value), veiled)) :
    Agree origin gone (carryOut transfer mark step next one) (carryOut transfer begun other also veiled) := by
  obtain ⟨same, after⟩ := agree.run omits constant
  rw [carryOut, carryOut]
  rcases ran : one.run step.run with ⟨_ | failure | value, left⟩ <;>
    rcases again : veiled.run other.run with ⟨_ | failure' | value', right⟩ <;>
      simp only [ran, again] at same after ⊢
  all_goals try cases same
  · exact cancel_agree constant mark begun after
  · exact fail_agree constant mark begun failure after
  · exact goesOn value left right after

variable {left : Session × Live σ} {right : Session × Live (Veiled σ)}

theorem feed_agree (constant : origin.Constant) (loses : Loses (fun location => (origin.metadata location).1) gone)
    (agree : Agree origin gone left right) (byte : UInt8) :
    Agree origin gone (feed byte left) (feed byte right) := by
  cases agree with
  | sending agree =>
      apply carryOut_agree constant _ _ (Sender.push_follows loses _ byte) agree
      rintro (sender | _) one veiled agree
      · exact .sending agree
      · exact .ended agree
  | ended agree => exact .ended agree

theorem feedAll_agree (constant : origin.Constant) (loses : Loses (fun location => (origin.metadata location).1) gone)
    (agree : Agree origin gone left right) (input : List UInt8) :
    Agree origin gone (feedAll input left) (feedAll input right) := by
  induction input generalizing left right with
  | nil => exact agree
  | cons byte rest ih => exact ih (feed_agree constant loses agree byte)

theorem finish_agree (constant : origin.Constant) (agree : Agree origin gone left right) (ending : Ending) :
    Agree origin gone (finish ending left) (finish ending right) := by
  cases agree with
  | @sending transfer sender one veiled agree =>
      have last {step other : Step Unit} (mark begun : Nat)
          (omits : Omitting (fun location => (origin.metadata location).1) gone id step other) :
          Agree origin gone (carryOut transfer mark step (fun _ => .ended (.ok ())) one)
            (carryOut transfer begun other (fun _ => .ended (.ok ())) veiled) :=
        carryOut_agree constant mark begun omits agree fun _ _ _ => .ended
      have site : (sender.without gone).pending.site? = sender.pending.site? := Sender.site?_without sender.pending
      cases ending with
      | closed =>
          have same : (sender.without gone).atEnd transfer = sender.atEnd transfer := by
            rw [Sender.atEnd, site]
            rfl
          rw [finish, finish, same]
          exact last _ _ (Omitting.result _).loggingIn
      | broken reason =>
          rw [finish, finish, site]
          exact last _ _ (Omitting.throw _).loggingIn
      | silent => exact cancel_agree constant _ _ agree
  | ended agree => exact .ended agree

theorem start_agree (constant : origin.Constant) {login : Login} {line : String}
    (downloads : ∀ command, Command.parse line = .ok command → command.direction = .source)
    (agree : Live.AgreeVeiled origin gone one veiled) :
    Agree origin gone (start login line one) (start login line veiled) := by
  cases parsed : Command.parse line with
  | error fault =>
      rw [start_refused parsed, start_refused parsed]
      exact .ended (report_agree constant fault agree)
  | ok command =>
      obtain ⟨two, rfl, agree⟩ := agree
      have settings : (two.veil gone).gateway.settings = one.gateway.settings :=
        agree.there.settings.trans agree.here.settings.symm
      have begun : Agree origin gone
          (.sending (login.transfer command one.gateway.settings)
            (Sender.start (login.transfer command one.gateway.settings)), one) (.sending _ _, two.veil gone) :=
        .sending ⟨two, rfl, agree⟩
      rw [Sender.start_without] at begun
      rw [start_source parsed (downloads command parsed), start_source parsed (downloads command parsed), settings]
      exact begun

/-- A download over a store and one over the veiled store go alike. -/
theorem run_agree (constant : origin.Constant) (loses : Loses (fun location => (origin.metadata location).1) gone)
    {login : Login} {line : String}
    (downloads : ∀ command, Command.parse line = .ok command → command.direction = .source) (input : List UInt8)
    (ending : Ending) (agree : Live.AgreeVeiled origin gone one veiled) :
    (run login line input ending veiled).1 = (run login line input ending one).1 ∧
      Live.AgreeVeiled origin gone (run login line input ending one).2 (run login line input ending veiled).2 := by
  have started : Agree origin gone (start login line one) (start login line veiled) :=
    start_agree constant downloads agree
  have last := finish_agree constant (feedAll_agree constant loses started input) ending
  rw [finish_eq_run, finish_eq_run] at last
  generalize run login line input ending one = here at last ⊢
  generalize run login line input ending veiled = there at last ⊢
  obtain ⟨result, live⟩ := here
  obtain ⟨result', live'⟩ := there
  cases last with
  | ended agree => exact ⟨rfl, agree⟩

end Session

/-- What the store answers about places, asked about them in turn. -/
def Gateway.metadataEach : List Location → Gateway σ → List (Except Fault Metadata) × Gateway σ
  | [], gateway => ([], gateway)
  | location :: rest, gateway =>
    let (answer, gateway) := gateway.metadata location
    let (answers, gateway) := metadataEach rest gateway
    (answer :: answers, gateway)

namespace Node

/-- What becomes of a listed place: a node when it was described, a node without metadata when it is said not to
exist, and nothing when it could not be described. -/
def ofAnswer? (user : String) (location : Location) : Except Fault Metadata → Option Node
  | .ok metadata => some (ofRemote user location (some metadata))
  | .error fault => if fault.isNotFound then some (ofRemote user location none) else none

theorem ofAnswer?_eq (user : String) (location : Location) (answer : Except Fault Metadata) :
    ((found? answer).map (ofRemote user location)).toOption = ofAnswer? user location answer := by
  cases answer with
  | ok metadata => rfl
  | error fault =>
      rw [found?, ofAnswer?]
      split <;> rfl

theorem ofEntry_isSink (location : Location) (entry : Entry) :
    (location.ofEntry entry).isSink = location.isSink := by
  have within : (location.ofEntry entry).repository = location.repository := by
    rw [Location.ofEntry]
    split
    · exact location.childDirectory_repository entry.name
    · exact location.child_repository entry.name
  rw [Location.isSink, within, ← Location.isSink]

theorem run_childrenOf {node : Node} (outside : node.location.isSink = false) (entries : List Entry)
    (live : Live σ) :
    live.run (node.childrenOf entries) =
      let places := entries.map node.location.ofEntry
      let asked := live.gateway.metadataEach places
      (some ((places.zip asked.1).filterMap fun answered => ofAnswer? node.user answered.1 answered.2),
        { live with gateway := asked.2 }) := by
  induction entries generalizing live with
  | nil => exact Live.run_pure _ live
  | cons entry rest ih =>
      have remote : (node.entryLocation entry).isSink = false := (ofEntry_isSink _ _).trans outside
      have kept := ofAnswer?_eq node.user (node.location.ofEntry entry)
        (live.gateway.metadata (node.location.ofEntry entry)).1
      have fetched : live.run (fetch node.user (node.entryLocation entry)).run =
          (some ((found? (live.gateway.metadata (node.location.ofEntry entry)).1).map
              (ofRemote node.user (node.location.ofEntry entry))),
            { live with gateway := (live.gateway.metadata (node.location.ofEntry entry)).2 }) := by
        rw [fetch_remote remote, Live.run_bind, Live.run_request]
        exact Live.run_pure _ _
      rw [childrenOf, Live.run_bind, fetched]
      simp only [List.map_cons, Gateway.metadataEach, List.zip_cons_cons, List.filterMap_cons, ← kept]
      cases (found? (live.gateway.metadata (node.location.ofEntry entry)).1).map
        (ofRemote node.user (node.location.ofEntry entry)) with
      | error fault => exact ih _
      | ok child =>
          dsimp only [Except.toOption]
          rw [Live.run_bind, ih]
          exact Live.run_pure _ _

end Node

/-- A node without metadata cannot be sent: the download fails there. -/
theorem Sender.run_beginNode_missing {node : Node} (missing : node.metadata = none) (transfer : Transfer)
    (agenda : List Job) (live : Live σ) :
    live.run (beginNode transfer node agenda).run =
      (some (.error ⟨.notFound node.location.display, true⟩),
        live.withEntry (transfer.failureRecord ⟨node.location, 0⟩ (.notFound node.location.display))) := by
  have noFile : node.isFile = false := by rw [Node.isFile, missing]
  have absent : node.exists? = false := by rw [Node.exists?, missing]; rfl
  have refused : live.run (liftM (refusal? transfer node) : Step (Option Fault)).run =
      (some (.ok (some (.notFound node.location.display))), live) := by
    rw [refusal?, absent]
    exact Live.run_pure _ live
  rw [beginNode, if_neg (by rw [noFile]; exact Bool.false_ne_true), Live.run_attempt_bind _ refused]
  dsimp only
  rw [Live.run_logging, Live.run_throw]

/-- The children of a directory are the places that the store describes and those that it says do not exist, in the
order in which it lists them; the others are left out, and a download goes as if they were not listed, whatever
the reasons and however deep they are. A child that is said not to exist is a node without metadata, and a download
fails when it comes to it. -/
theorem undescribed_children_left_out :
    (∀ (node : Node) (metadata : Metadata) (live : Live σ), node.location.isSink = false →
      node.metadata = some metadata →
      let places := metadata.entries.map node.location.ofEntry
      let asked := live.gateway.metadataEach places
      live.run node.children =
        (some ((places.zip asked.1).filterMap fun answered => Node.ofAnswer? node.user answered.1 answered.2),
          { live with gateway := asked.2 })) ∧
    (∀ (node : Node) (transfer : Transfer) (agenda : List Job) (live : Live σ), node.metadata = none →
      live.run (Sender.beginNode transfer node agenda).run =
        (some (.error ⟨.notFound node.location.display, true⟩),
          live.withEntry (transfer.failureRecord ⟨node.location, 0⟩ (.notFound node.location.display)))) ∧
    ∀ (origin : Gateway σ), origin.Constant → origin.uploads = [] → ∀ (login : Login) (line : String),
      (∀ command, Command.parse line = .ok command → command.direction = .source) →
      ∀ (outlet : Outlet) (input : List UInt8) (ending : Ending),
        let sent := Session.run login line input ending { gateway := origin, outlet }
        let unlisted := Session.run login line input ending { gateway := origin.veil origin.loses, outlet }
        unlisted.1 = sent.1 ∧ unlisted.2.outlet = sent.2.outlet ∧
          unlisted.2.gateway.log = sent.2.gateway.log := by
  refine ⟨?_, ?_, ?_⟩
  · intro node metadata live outside known
    rw [Node.children, known]
    exact Node.run_childrenOf outside metadata.entries live
  · intro node transfer agenda live missing
    exact Sender.run_beginNode_missing missing transfer agenda live
  · intro origin constant idle login line downloads outlet input ending
    have agree : Live.AgreeVeiled origin origin.loses { gateway := origin, outlet }
        { gateway := origin.veil origin.loses, outlet } :=
      ⟨{ gateway := origin, outlet }, rfl, rfl, rfl, idle, idle, .refl origin, .refl origin⟩
    obtain ⟨same, two, veiled, after⟩ :=
      Session.run_agree constant origin.lost_of_loses downloads input ending agree
    dsimp only
    refine ⟨same, ?_, ?_⟩
    · rw [veiled]
      exact after.outlet
    · rw [veiled]
      exact after.log

/-- The metadata of one of two files cannot be had. The other one is sent, and the session succeeds. -/
theorem undescribed_children_left_out_of_directory :
    let memory := (MemoryStore.insert {} ⟨"libs", "d/a"⟩ [104] .empty).insert ⟨"libs", "d/b"⟩ [105] .empty
    let store : ScriptedStore :=
      { memory, faults := [⟨.metadata, ⟨"libs", "d/a"⟩, .remote "403 Forbidden" "hidden", none⟩] }
    let origin := Gateway.new {} store (fun _ _ _ => true) ⟨0, 0⟩
    let ended := Session.run ⟨"ann", "::1", .empty⟩ "scp -r -f libs/d" [0, 0, 0, 0, 0] .closed { gateway := origin }
    let unlisted := Session.run ⟨"ann", "::1", .empty⟩ "scp -r -f libs/d" [0, 0, 0, 0, 0] .closed
      { gateway := origin.veil origin.loses }
    ended.2.outlet.taken.toList = Text.encode "D0755 0 d\nC0644 1 b\ni" ++ [0] ++ Text.encode "E\n" ∧
      exitValue ended.1 = 0 ∧ unlisted.1 = ended.1 ∧ unlisted.2.outlet = ended.2.outlet := by
  intro memory store origin ended unlisted
  have lasting : ∀ fault ∈ origin.store.faults, fault.remaining = none := List.forall_mem_singleton.2 rfl
  have downloads : ∀ command, Command.parse "scp -r -f libs/d" = .ok command → command.direction = .source := by
    intro command same
    have parsed : Command.parse "scp -r -f libs/d" = .ok ⟨.source, true, false, false, false, ["libs/d"]⟩ := by
      decide +kernel
    rw [parsed] at same
    cases same
    rfl
  obtain ⟨_, _, alike⟩ := undescribed_children_left_out (σ := ScriptedStore)
  obtain ⟨result, outlet, _⟩ := alike origin (ScriptedStore.constant lasting rfl) rfl ⟨"ann", "::1", .empty⟩
    "scp -r -f libs/d" downloads {} [0, 0, 0, 0, 0] .closed
  exact ⟨by decide +kernel, by decide +kernel, result, outlet⟩

/-- The store says that one of two listed files does not exist. It is among the children all the same, the download
fails when it comes to it, and the other file is not sent. -/
theorem missing_child_ends_download :
    let memory := (MemoryStore.insert {} ⟨"libs", "d/a"⟩ [104] .empty).insert ⟨"libs", "d/b"⟩ [105] .empty
    let store : ScriptedStore :=
      { memory, faults := [⟨.metadata, ⟨"libs", "d/a"⟩, .notFound "libs/d/a", none⟩] }
    let live : Live ScriptedStore := { gateway := Gateway.new {} store (fun _ _ _ => true) ⟨0, 0⟩ }
    let children := live.run (Node.lookUp "ann" ⟨"libs", "d"⟩ >>= Node.children)
    let ended := Session.run ⟨"ann", "::1", .empty⟩ "scp -r -f libs/d" [0, 0, 0, 0, 0] .closed live
    children.1.map (List.map fun child => (child.name, child.metadata.isSome)) =
        some [("a", false), ("b", true)] ∧
      ended.2.outlet.taken.toList = Text.encode "D0755 0 d\n" ++ Wire.statusBytes Wire.errorStatus
        (Fault.notFound "libs/d/a").message ∧
      ended.2.gateway.log.map AccessRecord.status = [404] ∧ exitValue ended.1 = 1 := by
  decide +kernel

end ArtifactGate
