import Mathlib.Logic.Relation
import ArtifactGate.Proofs.Store.Deposits

/-!
The calls that are made on a store. A recorded store keeps a list of them, whatever the store is; what is
seen of a store in one place stays as it is while nothing is put there.
-/
namespace ArtifactGate

/-- A call that gets an item's content or puts it. -/
inductive Call
  | content (location : Location)
  | put (location : Location)
  deriving DecidableEq, Repr, Inhabited

/-- Calls that put nothing. -/
def Call.Gets : Call → Prop
  | .content _ => True
  | .put _ => False

def Call.location : Call → Location
  | .content location | .put location => location

/-- One step of a store: a call that is permitted, or a step of a put that is. Everyone may ask for
metadata. -/
inductive Moves {σ : Type} [RemoteStore σ] (permitted : Call → Prop) : σ → σ → Prop
  | metadata (location : Location) (store : σ) :
    Moves permitted store (RemoteStore.metadata location store).2
  | content {location : Location} (allowed : permitted (.content location)) (store : σ) :
    Moves permitted store (RemoteStore.content location store).2
  | openUpload {location : Location} (allowed : permitted (.put location)) (properties : Properties)
      (store : σ) : Moves permitted store (RemoteStore.openUpload location properties store).2
  | admitUpload {location : Location} (allowed : permitted (.put location)) (properties : Properties)
      (store : σ) : Moves permitted store (RemoteStore.admitUpload location properties store).2
  | storeBody {location : Location} (allowed : permitted (.put location)) (properties : Properties)
      (bytes : List UInt8) (store : σ) :
    Moves permitted store (RemoteStore.storeBody location properties bytes store).2
  | dropAdmitted (store : σ) : Moves permitted store (RemoteStore.dropAdmitted store)

/-- From one state of a store to another by permitted calls. -/
abbrev Reaches {σ : Type} [RemoteStore σ] (permitted : Call → Prop) : σ → σ → Prop :=
  Relation.ReflTransGen (Moves permitted)

/-- A store with the calls that were made on it. A put is noted when it is opened. -/
structure Recorded (σ : Type) where
  store : σ
  calls : List Call := []

namespace Recorded

variable {σ : Type} [RemoteStore σ] {permitted : Call → Prop} {before after : Recorded σ}

def noting {α : Type} (recorded : Recorded σ) (calls : List Call) (result : α × σ) : α × Recorded σ :=
  (result.1, { store := result.2, calls := recorded.calls ++ calls })

instance : RemoteStore (Recorded σ) where
  metadata location recorded := recorded.noting [] (RemoteStore.metadata location recorded.store)
  content location recorded :=
    recorded.noting [.content location] (RemoteStore.content location recorded.store)
  openUpload location properties recorded :=
    recorded.noting [.put location] (RemoteStore.openUpload location properties recorded.store)
  admitUpload location properties recorded :=
    recorded.noting [] (RemoteStore.admitUpload location properties recorded.store)
  storeBody location properties bytes recorded :=
    recorded.noting [] (RemoteStore.storeBody location properties bytes recorded.store)
  dropAdmitted recorded := { recorded with store := RemoteStore.dropAdmitted recorded.store }
  listingDepth recorded := RemoteStore.listingDepth recorded.store

/-- The calls that were made from one state to another are among the permitted ones. -/
def CallsOnly (permitted : Call → Prop) (before after : Recorded σ) : Prop :=
  ∃ made, after.calls = before.calls ++ made ∧ ∀ call ∈ made, permitted call

omit [RemoteStore σ] in
theorem CallsOnly.mono {wider : Call → Prop} (only : CallsOnly permitted before after)
    (widen : ∀ call, permitted call → wider call) : CallsOnly wider before after := by
  obtain ⟨made, calls, allowed⟩ := only
  exact ⟨made, calls, fun call member => widen call (allowed call member)⟩

theorem callsOnly_of_moves (moves : Moves permitted before after) : CallsOnly permitted before after := by
  cases moves with
  | metadata location => exact ⟨[], rfl, List.forall_mem_nil _⟩
  | content allowed => exact ⟨_, rfl, List.forall_mem_singleton.2 allowed⟩
  | openUpload allowed properties => exact ⟨_, rfl, List.forall_mem_singleton.2 allowed⟩
  | admitUpload allowed properties => exact ⟨[], rfl, List.forall_mem_nil _⟩
  | storeBody allowed properties bytes => exact ⟨[], rfl, List.forall_mem_nil _⟩
  | dropAdmitted => exact ⟨[], (List.append_nil _).symm, List.forall_mem_nil _⟩

theorem callsOnly_of_reaches (reaches : Reaches permitted before after) :
    CallsOnly permitted before after := by
  induction reaches with
  | refl => exact ⟨[], (List.append_nil _).symm, List.forall_mem_nil _⟩
  | tail _ moves ih =>
      obtain ⟨earlier, first, allowed⟩ := ih
      obtain ⟨later, last, also⟩ := callsOnly_of_moves moves
      exact ⟨earlier ++ later, by rw [last, first, List.append_assoc], List.forall_mem_append.2 ⟨allowed, also⟩⟩

end Recorded

/-- What is seen of a store changes by puts to certain places and by nothing else. -/
structure Confined {σ β : Type} [RemoteStore σ] (places : Location → Prop) (view : σ → β) : Prop where
  metadata : ∀ location store, view (RemoteStore.metadata location store).2 = view store
  content : ∀ location store, view (RemoteStore.content location store).2 = view store
  openUpload : ∀ location properties store, ¬places location →
    view (RemoteStore.openUpload location properties store).2 = view store
  admitUpload : ∀ location properties store, ¬places location →
    view (RemoteStore.admitUpload location properties store).2 = view store
  storeBody : ∀ location properties bytes store, ¬places location →
    view (RemoteStore.storeBody location properties bytes store).2 = view store
  dropAdmitted : ∀ store, view (RemoteStore.dropAdmitted store) = view store

section Confined

variable {σ β : Type} [RemoteStore σ] {places : Location → Prop} {view : σ → β} {permitted : Call → Prop}
  {before after : Recorded σ}

theorem Confined.kept (confined : Confined places view)
    (elsewhere : ∀ location, permitted (.put location) → ¬places location)
    (reaches : Reaches permitted before after) : view after.store = view before.store := by
  induction reaches with
  | refl => rfl
  | tail _ moves ih =>
      refine Eq.trans ?_ ih
      cases moves with
      | metadata location => exact confined.metadata _ _
      | content allowed => exact confined.content _ _
      | openUpload allowed properties => exact confined.openUpload _ _ _ (elsewhere _ allowed)
      | admitUpload allowed properties => exact confined.admitUpload _ _ _ (elsewhere _ allowed)
      | storeBody allowed properties bytes => exact confined.storeBody _ _ _ _ (elsewhere _ allowed)
      | dropAdmitted => exact confined.dropAdmitted _

end Confined

/-- The objects of a store change by puts only. -/
theorem MemoryStore.objects_confined : Confined (fun _ => True) MemoryStore.objects where
  metadata location store := (store.metadata_holds location).1
  content location store := (store.content_holds location).1
  openUpload _ _ _ elsewhere := absurd trivial elsewhere
  admitUpload _ _ _ elsewhere := absurd trivial elsewhere
  storeBody _ _ _ _ elsewhere := absurd trivial elsewhere
  dropAdmitted _ := rfl

namespace ScriptedStore

/-- The objects of a repository, by their places. -/
def objectsOf (repository : String) (store : ScriptedStore) (location : Location) : Option StoredObject :=
  if location.repository = repository then store.memory.objects.get? location else none

theorem objectsOf_of_holds {before after : ScriptedStore} {deposits : List Deposit} {repository : String}
    (holds : before.Holds deposits after)
    (elsewhere : ∀ deposit ∈ deposits, deposit.location.repository ≠ repository) :
    after.objectsOf repository = before.objectsOf repository := by
  funext location
  simp only [objectsOf]
  split
  · rename_i within
    rw [holds.2.1]
    rcases MemoryStore.get?_of_deposits before.memory.now deposits before.memory.objects location with
      kept | ⟨deposit, member, same, _⟩
    · exact kept
    · exact absurd (same ▸ within) (elsewhere deposit member)
  · rfl

/-- The objects of a repository change by puts to the repository only. -/
theorem objectsOf_confined (repository : String) :
    Confined (fun location => location.repository = repository) (objectsOf repository) where
  metadata location store := objectsOf_of_holds (store.metadata_holds location) (List.forall_mem_nil _)
  content location store := objectsOf_of_holds (store.content_holds location) (List.forall_mem_nil _)
  openUpload location properties store _ :=
    objectsOf_of_holds (store.openUpload_holds location properties) (List.forall_mem_nil _)
  admitUpload location properties store _ :=
    objectsOf_of_holds (store.admitUpload_holds location properties) (List.forall_mem_nil _)
  storeBody location properties bytes store elsewhere := by
    rcases stored : store.storeBody location properties bytes with ⟨fault | _, after⟩
    · have kept : after.objectsOf repository = store.objectsOf repository :=
        objectsOf_of_holds (storeBody_refuses stored) (List.forall_mem_nil _)
      exact (congrArg (fun result => objectsOf repository result.2) stored).trans kept
    · have kept : after.objectsOf repository = store.objectsOf repository :=
        objectsOf_of_holds (storeBody_accepts stored) (List.forall_mem_singleton.2 elsewhere)
      exact (congrArg (fun result => objectsOf repository result.2) stored).trans kept
  dropAdmitted store := rfl

end ScriptedStore

end ArtifactGate
