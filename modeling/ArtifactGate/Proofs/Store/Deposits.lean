import ArtifactGate.Store.Script

/-!
What a store takes in. A deposit is a body that the store has accepted; the objects of a store change
by deposits and by nothing else. `DepositStore` says so of every call once, so that what is proved of
uploads holds of a store in memory and of one that follows a script alike.
-/
namespace ArtifactGate

/-- A body that a store has accepted. -/
structure Deposit where
  location : Location
  properties : Properties
  bytes : List UInt8
  deriving DecidableEq, Repr, Inhabited

def Deposit.place (now : Instant) (objects : SortedMap Location StoredObject) (deposit : Deposit) :
    SortedMap Location StoredObject :=
  objects.insert deposit.location ⟨deposit.bytes, deposit.properties, now⟩

/-- A store whose state changes by the bodies it accepts. -/
class DepositStore (σ : Type) [RemoteStore σ] where
  /-- From one state to another these bodies were accepted, in this order, and no others. -/
  Gains : σ → List Deposit → σ → Prop
  gains_refl (store : σ) : Gains store [] store
  gains_trans {first middle last : σ} {earlier later : List Deposit} :
    Gains first earlier middle → Gains middle later last → Gains first (earlier ++ later) last
  metadata (location : Location) (store : σ) :
    Gains store [] (RemoteStore.metadata location store).2
  content (location : Location) (store : σ) : Gains store [] (RemoteStore.content location store).2
  openUpload (location : Location) (properties : Properties) (store : σ) :
    Gains store [] (RemoteStore.openUpload location properties store).2
  admitUpload (location : Location) (properties : Properties) (store : σ) :
    Gains store [] (RemoteStore.admitUpload location properties store).2
  /-- An upload that has to wait leaves the store as it is. -/
  admitUpload_waits {location : Location} {properties : Properties} {store after : σ} :
    RemoteStore.admitUpload location properties store = (none, after) → after = store
  storeBody_ok {location : Location} {properties : Properties} {bytes : List UInt8} {store after : σ} :
    RemoteStore.storeBody location properties bytes store = (.ok (), after) →
      Gains store [⟨location, properties, bytes⟩] after
  storeBody_error {location : Location} {properties : Properties} {bytes : List UInt8} {fault : Fault}
    {store after : σ} :
    RemoteStore.storeBody location properties bytes store = (.error fault, after) →
      Gains store [] after
  dropAdmitted (store : σ) : Gains store [] (RemoteStore.dropAdmitted store)

export DepositStore (Gains)

namespace MemoryStore

/-- The objects of one store are those of another with some deposits. -/
def Holds (before : MemoryStore) (deposits : List Deposit) (after : MemoryStore) : Prop :=
  after.objects = deposits.foldl (Deposit.place before.now) before.objects ∧ after.now = before.now

theorem get?_of_deposits (now : Instant) (deposits : List Deposit)
    (objects : SortedMap Location StoredObject) (location : Location) :
    (deposits.foldl (Deposit.place now) objects).get? location = objects.get? location ∨
      ∃ deposit ∈ deposits, deposit.location = location ∧
        (deposits.foldl (Deposit.place now) objects).get? location =
          some ⟨deposit.bytes, deposit.properties, now⟩ := by
  induction deposits generalizing objects with
  | nil => exact .inl rfl
  | cons deposit rest ih =>
      rw [List.foldl_cons]
      rcases ih (deposit.place now objects) with kept | ⟨last, member, same, found⟩
      · by_cases here : location = deposit.location
        · refine .inr ⟨deposit, List.mem_cons_self, here.symm, ?_⟩
          rw [kept, Deposit.place, here, SortedMap.get?_insert_self]
        · rw [kept, Deposit.place, SortedMap.get?_insert_of_ne _ here]
          exact .inl rfl
      · exact .inr ⟨last, List.mem_cons_of_mem _ member, same, found⟩

/-- A place holds what was put there, if nothing else was. -/
theorem get?_of_only {deposit : Deposit} {deposits : List Deposit} (now : Instant)
    (objects : SortedMap Location StoredObject) (member : deposit ∈ deposits)
    (only : ∀ other ∈ deposits, other.location = deposit.location → other = deposit) :
    (deposits.foldl (Deposit.place now) objects).get? deposit.location =
      some ⟨deposit.bytes, deposit.properties, now⟩ := by
  induction deposits generalizing objects with
  | nil => cases member
  | cons first rest ih =>
      rw [List.foldl_cons]
      by_cases later : deposit ∈ rest
      · exact ih _ later fun other among => only other (List.mem_cons_of_mem _ among)
      · obtain rfl : deposit = first := (List.mem_cons.1 member).resolve_right later
        rcases get?_of_deposits now rest (deposit.place now objects) deposit.location with
          kept | ⟨last, among, same, _⟩
        · rw [kept, Deposit.place, SortedMap.get?_insert_self]
        · exact absurd (only last (List.mem_cons_of_mem _ among) same ▸ among) later

theorem get?_of_distinct {now : Instant} {deposits : List Deposit} {objects : SortedMap Location StoredObject}
    (distinct : (deposits.map Deposit.location).Nodup) {location : Location} {object : StoredObject} :
    (deposits.foldl (Deposit.place now) objects).get? location = some object ↔
      (∃ deposit ∈ deposits, deposit.location = location ∧
        object = ⟨deposit.bytes, deposit.properties, now⟩) ∨
      (∀ deposit ∈ deposits, deposit.location ≠ location) ∧ objects.get? location = some object := by
  induction deposits generalizing objects with
  | nil => simp
  | cons deposit rest ih =>
      obtain ⟨fresh, distinct⟩ := List.nodup_cons.1 distinct
      rw [List.foldl_cons, ih distinct, Deposit.place]
      have others : deposit.location = location → ∀ later ∈ rest, later.location ≠ location :=
        fun here later member same => fresh (here ▸ same ▸ List.mem_map_of_mem member)
      by_cases here : deposit.location = location
      · rw [here, SortedMap.get?_insert_self]
        simp only [List.mem_cons, exists_eq_or_imp, forall_eq_or_imp, here, ne_eq, not_true_eq_false, false_and,
          or_false, true_and, Option.some.injEq]
        constructor
        · rintro (⟨later, member, same, _⟩ | ⟨_, stored⟩)
          · exact absurd same (others here later member)
          · exact .inl stored.symm
        · rintro (stored | ⟨later, member, same, _⟩)
          · exact .inr ⟨others here, stored.symm⟩
          · exact absurd same (others here later member)
      · rw [SortedMap.get?_insert_of_ne _ (Ne.symm here)]
        simp [here]

/-- What a repository holds: the places of its objects, and their bytes. -/
def held (store : MemoryStore) (repository : String) : List (Location × List UInt8) :=
  (store.objects.entries.filter fun entry => entry.1.repository == repository).map
    fun entry => (entry.1, entry.2.bytes)

theorem mem_held {store : MemoryStore} {repository : String} {location : Location} {bytes : List UInt8} :
    (location, bytes) ∈ store.held repository ↔ location.repository = repository ∧
      ∃ object, store.objects.get? location = some object ∧ object.bytes = bytes := by
  simp only [held, List.mem_map, List.mem_filter, beq_iff_eq, Prod.mk.injEq, SortedMap.get?_eq_some]
  constructor
  · rintro ⟨entry, ⟨member, within⟩, rfl, rfl⟩
    exact ⟨within, entry.2, member, rfl⟩
  · rintro ⟨within, object, member, rfl⟩
    exact ⟨(location, object), ⟨member, within⟩, rfl, rfl⟩

theorem held_nodup (store : MemoryStore) (repository : String) : (store.held repository).Nodup := by
  apply (store.objects.sorted.filter _).map _
  intro first second order same
  rw [(Prod.mk.inj same).1, Std.LawfulEqOrd.compare_eq_iff_eq.2 rfl] at order
  cases order

theorem Holds.trans {first middle last : MemoryStore} {earlier later : List Deposit}
    (start : first.Holds earlier middle) (rest : middle.Holds later last) :
    first.Holds (earlier ++ later) last := by
  refine ⟨?_, rest.2.trans start.2⟩
  rw [rest.1, start.1, start.2, List.foldl_append]

theorem takeFailure_holds (store : MemoryStore) : store.Holds [] store.takeFailure.2 := by
  rw [takeFailure]
  split <;> exact ⟨rfl, rfl⟩

theorem metadata_holds (location : Location) (store : MemoryStore) :
    store.Holds [] (store.metadata location).2 := by
  have spent := takeFailure_holds { store with metadataCalls := store.metadataCalls + 1 }
  rw [metadata]
  split <;> rename_i taken <;> rw [taken] at spent <;> exact spent

theorem content_holds (location : Location) (store : MemoryStore) :
    store.Holds [] (store.content location).2 := by
  have spent := takeFailure_holds { store with contentCalls := store.contentCalls + 1 }
  rw [content]
  split <;> rename_i taken <;> rw [taken] at spent <;> exact spent

theorem admitUpload_holds (store : MemoryStore) : store.Holds [] store.admitUpload.2 := by
  rw [admitUpload]
  split
  · exact ⟨rfl, rfl⟩
  · split
    · exact ⟨rfl, rfl⟩
    · split <;> exact ⟨rfl, rfl⟩

theorem admitUpload_waits {store after : MemoryStore} (waits : store.admitUpload = (none, after)) :
    after = store := by
  rw [admitUpload] at waits
  split at waits
  · cases waits
  · split at waits
    · cases waits
    · split at waits <;> cases waits
      rfl

theorem storeBody_accepts {location : Location} {properties : Properties} {bytes : List UInt8}
    {store after : MemoryStore}
    (stored : store.storeBody location properties bytes = (.ok (), after)) :
    store.Holds [⟨location, properties, bytes⟩] after := by
  simp only [storeBody] at stored
  split at stored
  · cases stored
  · cases stored
    exact ⟨rfl, rfl⟩

theorem storeBody_refuses {location : Location} {properties : Properties} {bytes : List UInt8}
    {fault : Fault} {store after : MemoryStore}
    (refused : store.storeBody location properties bytes = (.error fault, after)) :
    store.Holds [] after := by
  simp only [storeBody] at refused
  split at refused
  · cases refused
    exact ⟨rfl, rfl⟩
  · cases refused

instance : DepositStore MemoryStore where
  Gains := Holds
  gains_refl _ := ⟨rfl, rfl⟩
  gains_trans := Holds.trans
  metadata := metadata_holds
  content := content_holds
  openUpload _ _ _ := ⟨rfl, rfl⟩
  admitUpload _ _ := admitUpload_holds
  admitUpload_waits := admitUpload_waits
  storeBody_ok := storeBody_accepts
  storeBody_error := storeBody_refuses
  dropAdmitted _ := ⟨rfl, rfl⟩

end MemoryStore

/-- The deposit of an upload that the store has accepted. -/
def PutOutcome.deposit? (outcome : PutOutcome) : Option Deposit :=
  match outcome.result with
  | .ok () => some ⟨outcome.location, outcome.properties, outcome.bytes⟩
  | .error _ => none

namespace ScriptedStore

def deposits (store : ScriptedStore) : List Deposit :=
  store.puts.filterMap PutOutcome.deposit?

/-- The store in memory and the list of what was asked of it agree on what was accepted. -/
def Holds (before : ScriptedStore) (new : List Deposit) (after : ScriptedStore) : Prop :=
  after.deposits = before.deposits ++ new ∧ before.memory.Holds new after.memory

theorem Holds.trans {first middle last : ScriptedStore} {earlier later : List Deposit}
    (start : first.Holds earlier middle) (rest : middle.Holds later last) :
    first.Holds (earlier ++ later) last := by
  refine ⟨?_, start.2.trans rest.2⟩
  rw [rest.1, start.1, List.append_assoc]

theorem takeFault_holds (call : StoreCall) (location : Location) (store : ScriptedStore) :
    store.Holds [] (store.takeFault call location).2 :=
  ⟨(List.append_nil _).symm, rfl, rfl⟩

theorem deposits_answered (store : ScriptedStore) (location : Location) (properties : Properties)
    (bytes : List UInt8) (result : Except Fault Unit) :
    (store.answered location properties bytes result).deposits =
      store.deposits ++ (PutOutcome.deposit? ⟨location, properties, bytes, result⟩).toList := by
  rw [deposits, answered, List.filterMap_append]
  rfl

theorem answered_error_holds {store before : ScriptedStore} (kept : before.Holds [] store)
    (location : Location) (properties : Properties) (bytes : List UInt8) (fault : Fault) :
    before.Holds [] (store.answered location properties bytes (.error fault)) := by
  refine ⟨?_, kept.2⟩
  rw [deposits_answered, kept.1, PutOutcome.deposit?, Option.toList_none, List.append_nil]

theorem metadata_holds (location : Location) (store : ScriptedStore) :
    store.Holds [] (store.metadata location).2 := by
  have spent := takeFault_holds .metadata location
    { store with metadataCalls := store.metadataCalls + 1 }
  rw [metadata]
  split <;> rename_i scripted taken <;> rw [taken] at spent
  · exact spent
  · exact ⟨spent.1, spent.2.trans (scripted.memory.metadata_holds location)⟩

theorem content_holds (location : Location) (store : ScriptedStore) :
    store.Holds [] (store.content location).2 := by
  have spent := takeFault_holds .content location
    { store with contentCalls := store.contentCalls + 1 }
  rw [content]
  split <;> rename_i scripted taken <;> rw [taken] at spent
  · exact spent
  · exact ⟨spent.1, spent.2.trans (scripted.memory.content_holds location)⟩

theorem openUpload_holds (location : Location) (properties : Properties) (store : ScriptedStore) :
    store.Holds [] (store.openUpload location properties).2 := by
  have spent := takeFault_holds .put location store
  rw [openUpload]
  split <;> rename_i taken <;> rw [taken] at spent
  · exact answered_error_holds spent _ _ _ _
  · exact ⟨spent.1, spent.2⟩

theorem admitUpload_holds (location : Location) (properties : Properties) (store : ScriptedStore) :
    store.Holds [] (store.admitUpload location properties).2 := by
  have admitted : store.Holds [] { store with memory := store.memory.admitUpload.2 } :=
    ⟨(List.append_nil _).symm, store.memory.admitUpload_holds⟩
  rw [admitUpload]
  split <;> rename_i answer <;> rw [answer] at admitted
  · exact answered_error_holds admitted _ _ _ _
  · exact admitted

theorem admitUpload_waits {location : Location} {properties : Properties}
    {store after : ScriptedStore}
    (waits : store.admitUpload location properties = (none, after)) : after = store := by
  rw [admitUpload] at waits
  split at waits
  · cases waits
  · rename_i answer memory _ admitted
    cases waits
    rw [MemoryStore.admitUpload_waits admitted]

theorem storeBody_accepts {location : Location} {properties : Properties} {bytes : List UInt8}
    {store after : ScriptedStore}
    (stored : store.storeBody location properties bytes = (.ok (), after)) :
    store.Holds [⟨location, properties, bytes⟩] after := by
  rw [storeBody] at stored
  rcases answer : store.memory.storeBody location properties bytes with ⟨result, memory⟩
  simp only [answer] at stored
  cases stored
  exact ⟨deposits_answered _ _ _ _ _, MemoryStore.storeBody_accepts answer⟩

theorem storeBody_refuses {location : Location} {properties : Properties} {bytes : List UInt8}
    {fault : Fault} {store after : ScriptedStore}
    (refused : store.storeBody location properties bytes = (.error fault, after)) :
    store.Holds [] after := by
  rw [storeBody] at refused
  rcases answer : store.memory.storeBody location properties bytes with ⟨result, memory⟩
  simp only [answer] at refused
  cases refused
  have kept : store.Holds [] { store with memory } :=
    ⟨(List.append_nil _).symm, MemoryStore.storeBody_refuses answer⟩
  exact answered_error_holds kept _ _ _ _

instance : DepositStore ScriptedStore where
  Gains := Holds
  gains_refl _ := ⟨(List.append_nil _).symm, rfl, rfl⟩
  gains_trans := Holds.trans
  metadata := metadata_holds
  content := content_holds
  openUpload := openUpload_holds
  admitUpload := admitUpload_holds
  admitUpload_waits := admitUpload_waits
  storeBody_ok := storeBody_accepts
  storeBody_error := storeBody_refuses
  dropAdmitted _ := ⟨(List.append_nil _).symm, rfl, rfl⟩

end ScriptedStore

end ArtifactGate
