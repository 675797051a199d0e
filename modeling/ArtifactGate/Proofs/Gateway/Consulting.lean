import ArtifactGate.Proofs.Gateway.Serving
import ArtifactGate.Proofs.Store.Paths

/-!
What a gateway answers when no call of its store fails. Being asked changes its clients, its log and the
counts of its calls, and nothing that an upload or an answer depends on.
-/
namespace ArtifactGate

namespace Gateway

/-- Clients, log and the counts of calls aside, the gateway is as before. -/
def Consulted (before after : Gateway MemoryStore) : Prop :=
  ∃ clients log metadataCalls contentCalls,
    after = { before with clients, log, store := { before.store with metadataCalls, contentCalls } }

/-- What the store says of a location; checksum files are not asked for. -/
def described (gateway : Gateway MemoryStore) (location : Location) : Except Fault Metadata :=
  match checksumSize? location.path with
  | some size => .ok (Metadata.file gateway.now location.repository ("/" ++ location.path) size)
  | none => gateway.store.describe location

variable {gateway before middle after : Gateway MemoryStore} {number : Nat}

namespace Consulted

theorem refl (gateway : Gateway MemoryStore) : gateway.Consulted gateway :=
  ⟨_, _, _, _, rfl⟩

theorem trans (start : before.Consulted middle) (rest : middle.Consulted after) :
    before.Consulted after := by
  obtain ⟨_, _, _, _, rfl⟩ := start
  obtain ⟨_, _, _, _, rfl⟩ := rest
  exact ⟨_, _, _, _, rfl⟩

theorem ready (consulted : before.Consulted after) (ready : before.Ready) : after.Ready := by
  obtain ⟨_, _, _, _, rfl⟩ := consulted
  exact ⟨ready.idle, ready.slots, ready.accepts, ready.admits⟩

theorem busy (consulted : before.Consulted after) (busy : before.Busy number) : after.Busy number := by
  obtain ⟨_, _, _, _, rfl⟩ := consulted
  exact busy

theorem uploading {location : Location} {properties : Properties} {bytes : List UInt8}
    (consulted : before.Consulted after) (uploading : before.Uploading number location properties bytes) :
    after.Uploading number location properties bytes := by
  obtain ⟨_, _, _, _, rfl⟩ := consulted
  exact uploading

theorem gains (consulted : before.Consulted after) : Gains before.store [] after.store := by
  obtain ⟨_, _, _, _, rfl⟩ := consulted
  exact ⟨rfl, rfl⟩

theorem vacant {location : Location} (consulted : before.Consulted after)
    (vacant : before.store.Vacant location) : after.store.Vacant location := by
  obtain ⟨_, _, _, _, rfl⟩ := consulted
  exact vacant

end Consulted

theorem retrying_once {α : Type} {operation : String} {call : StateM MemoryStore (Except Fault α)}
    {answer : Except Fault α} {store : MemoryStore} (called : call gateway.store = (answer, store))
    (final : ∀ fault, answer = .error fault → fault.retryable = false) :
    gateway.retrying operation call = (answer, { gateway with store }) := by
  rw [retrying_eq, attemptsFrom_apply, called]
  cases answer with
  | ok value => rfl
  | error fault =>
      have stays := final fault rfl
      cases max 1 gateway.settings.retries - 1 <;>
        simp only [stays, Bool.false_eq_true, if_false]

theorem notFound_of_describe {store : MemoryStore} {location : Location} {fault : Fault}
    (failed : store.describe location = .error fault) : fault = .notFound location.display := by
  simp only [MemoryStore.describe] at failed
  split at failed
  · cases failed
  · split at failed <;> cases failed
    rfl

theorem notFound_of_retrieve {store : MemoryStore} {location : Location} {fault : Fault}
    (failed : store.retrieve location = .error fault) : fault = .notFound location.display := by
  rw [MemoryStore.retrieve] at failed
  split at failed <;> cases failed
  rfl

end Gateway

namespace MemoryStore

variable {store : MemoryStore}

theorem metadata_reliable (reliable : store.failuresPending = 0) (location : Location) :
    RemoteStore.metadata location store =
      (store.describe location, { store with metadataCalls := store.metadataCalls + 1 }) := by
  change store.metadata location = _
  simp only [metadata, takeFailure, reliable]
  rfl

theorem metadata_failing {more : Nat} (failing : store.failuresPending = more + 1) (location : Location) :
    RemoteStore.metadata location store =
      (.error injectedFault,
        { store with metadataCalls := store.metadataCalls + 1, failuresPending := more }) := by
  change store.metadata location = _
  simp only [metadata, takeFailure, failing]

theorem attemptsFrom_reliable (reliable : store.failuresPending = 0) (operation : String) (location : Location)
    (attempt left : Nat) :
    ∃ after, RetryPolicy.attemptsFrom (m := StateM MemoryStore) operation (Pure.pure ())
        (RemoteStore.metadata location) attempt left store = (store.describe location, after) ∧
      after.failuresPending = 0 := by
  rw [Gateway.attemptsFrom_apply, metadata_reliable reliable]
  cases described : store.describe location with
  | ok metadata => exact ⟨_, rfl, reliable⟩
  | error fault =>
      rw [Gateway.notFound_of_describe described]
      cases left <;> exact ⟨_, rfl, reliable⟩

/-- Attempts that outlast the failures of a store are answered with what the store has. -/
theorem attemptsFrom_absorbs {left : Nat} (enough : store.failuresPending ≤ left) (operation : String)
    (location : Location) (attempt : Nat) :
    ∃ after, RetryPolicy.attemptsFrom (m := StateM MemoryStore) operation (Pure.pure ())
        (RemoteStore.metadata location) attempt left store = (store.describe location, after) ∧
      after.failuresPending = 0 := by
  induction left generalizing store attempt with
  | zero => exact attemptsFrom_reliable (Nat.eq_zero_of_le_zero enough) operation location attempt 0
  | succ left ih =>
      cases failing : store.failuresPending with
      | zero => exact attemptsFrom_reliable failing operation location attempt (left + 1)
      | succ more =>
          rw [Gateway.attemptsFrom_apply, metadata_failing failing]
          let spent : MemoryStore :=
            { store with metadataCalls := store.metadataCalls + 1, failuresPending := more }
          have fewer : spent.failuresPending ≤ left :=
            Nat.le_of_succ_le_succ (Nat.le_trans (Nat.le_of_eq failing.symm) enough)
          exact ih fewer (attempt + 1)

end MemoryStore

namespace Gateway

variable {gateway : Gateway MemoryStore}

/-- A store that fails less often than a call is attempted is not seen to fail, and then fails no more. -/
theorem metadata_absorbs (absorbs : gateway.store.failuresPending < max 1 gateway.settings.retries)
    (location : Location) :
    (gateway.metadata location).1 = gateway.described location ∧
      (checksumSize? location.path = none → (gateway.metadata location).2.store.failuresPending = 0) := by
  rw [metadata, described]
  cases suffixed : checksumSize? location.path with
  | some size =>
      refine ⟨rfl, fun none => ?_⟩
      cases none
  | none =>
      have enough : gateway.store.failuresPending ≤ max 1 gateway.settings.retries - 1 :=
        Nat.le_sub_one_of_lt absorbs
      obtain ⟨after, answered, reliable⟩ :=
        MemoryStore.attemptsFrom_absorbs enough "get metadata" location 1
      have called : (gateway.useClient location.repository).retrying "get metadata" (RemoteStore.metadata location) =
          (gateway.store.describe location, { gateway.useClient location.repository with store := after }) := by
        rw [retrying_eq]
        exact congrArg (fun result : Except Fault Metadata × MemoryStore =>
          (result.1, { gateway.useClient location.repository with store := result.2 })) answered
      simp only [called]
      exact ⟨trivial, fun _ => reliable⟩

theorem metadata_described (reliable : gateway.store.failuresPending = 0) (location : Location) :
    ∃ after, gateway.metadata location = (gateway.described location, after) ∧
      after.log = gateway.log ∧ gateway.Consulted after := by
  rw [metadata, described]
  cases suffixed : checksumSize? location.path with
  | none =>
      refine ⟨_, retrying_once (MemoryStore.metadata_reliable reliable location) ?_, rfl, _, _, _, _, rfl⟩
      intro fault failed
      rw [notFound_of_describe failed]
      rfl
  | some size => exact ⟨_, rfl, rfl, _, _, _, _, rfl⟩

theorem content_retrieved (reliable : gateway.store.failuresPending = 0) (location : Location) :
    ∃ after, gateway.content location = (gateway.store.retrieve location, after) ∧
      after.log = gateway.log ∧ gateway.Consulted after := by
  have called : RemoteStore.content location gateway.store =
      (gateway.store.retrieve location,
        { gateway.store with contentCalls := gateway.store.contentCalls + 1 }) := by
    change gateway.store.content location = _
    simp only [MemoryStore.content, MemoryStore.takeFailure, reliable]
    rfl
  refine ⟨_, retrying_once called ?_, rfl, _, _, _, _, rfl⟩
  intro fault failed
  rw [notFound_of_retrieve failed]
  rfl

theorem checksumSize?_of_namesDirectory {location : Location} (names : location.namesDirectory = true) :
    checksumSize? location.path = none := by
  have endings : ∀ entry ∈ checksumSizes, ∃ c, entry.1.toList.getLast? = some c ∧ c ≠ '/' := by
    simp [checksumSizes]
  rw [checksumSize?, Option.map_eq_none_iff, List.find?_eq_none]
  intro entry member suffixed
  obtain ⟨front, path⟩ := List.isSuffixOf_iff_suffix.1 suffixed
  obtain ⟨c, last, other⟩ := endings entry member
  rw [Location.namesDirectory, Bool.or_eq_true, beq_iff_eq] at names
  rcases names with empty | slash
  · rw [String.isEmpty_iff] at empty
    rw [empty] at path
    rw [(List.append_eq_nil_iff.1 path).2] at last
    cases last
  · rw [← path, List.getLast?_append, last] at slash
    exact other (Option.some.inj slash)

theorem described_of_namesDirectory {location : Location} (names : location.namesDirectory = true) :
    gateway.described location = gateway.store.describe location := by
  rw [described, checksumSize?_of_namesDirectory names]

theorem isDirectory_of_vacant {location : Location} {metadata : Metadata}
    (vacant : gateway.store.Vacant location) (found : gateway.described location = .ok metadata) :
    metadata.isDirectory = false := by
  rw [described] at found
  split at found
  · cases found
    rfl
  · rw [MemoryStore.describe_vacant vacant] at found
    cases found

end Gateway

end ArtifactGate
