import ArtifactGate.Proofs.Gateway.Uploads

/-!
A gateway at work on a store in memory that fails no call. What is asked of it is answered from what the store
holds, and an upload that is begun is written, ended and stored.
-/
namespace ArtifactGate

namespace MemoryStore

def Willing (store : MemoryStore) : Prop :=
  store.refusesUploads = false ∧ ∀ turnstile, store.turnstile = some turnstile → turnstile.isClosed = false

def Admits (store : MemoryStore) : Prop :=
  store.Willing ∧ ∀ turnstile, store.turnstile = some turnstile → 0 < turnstile.permits

/-- What a store does for uploads leaves this as it is. -/
structure Steady (before after : MemoryStore) : Prop where
  failuresPending : after.failuresPending = before.failuresPending
  announced : after.announced = before.announced

theorem Steady.refl (store : MemoryStore) : store.Steady store := ⟨rfl, rfl⟩

theorem Steady.trans {first middle last : MemoryStore} (start : first.Steady middle)
    (rest : middle.Steady last) : first.Steady last :=
  ⟨rest.failuresPending.trans start.failuresPending, rest.announced.trans start.announced⟩

variable {store : MemoryStore}

theorem admitUpload_admits (admits : store.Admits) :
    ∃ after, store.admitUpload = (some (.ok ()), after) ∧ after.Willing ∧ store.Steady after := by
  obtain ⟨⟨accepts, opened⟩, permits⟩ := admits
  rcases turnstile : store.turnstile with _ | ⟨count, closed⟩ <;> rw [admitUpload, turnstile]
  · exact ⟨store, rfl, ⟨accepts, opened⟩, Steady.refl store⟩
  · have isOpen : closed = false := opened _ turnstile
    have some : 0 < count := permits _ turnstile
    subst isOpen
    cases count with
    | zero => exact absurd some (Nat.lt_irrefl 0)
    | succ count =>
        refine ⟨_, rfl, ⟨accepts, ?_⟩, ⟨rfl, rfl⟩⟩
        rintro other same
        rw [← Option.some.inj same]

theorem storeBody_willing (willing : store.Willing) (location : Location) (properties : Properties)
    (bytes : List UInt8) :
    ∃ after, store.storeBody location properties bytes = (.ok (), after) ∧ after.Admits ∧
      store.Steady after := by
  obtain ⟨accepts, opened⟩ := willing
  refine ⟨store.leaveTurnstile.insert location bytes properties, ?_, ⟨⟨accepts, ?_⟩, ?_⟩, ⟨rfl, rfl⟩⟩
  · simp only [storeBody, leaveTurnstile, accepts, Bool.false_eq_true, if_false]
  · intro turnstile same
    obtain ⟨before, known, rfl⟩ := Option.map_eq_some_iff.1 same
    exact opened before known
  · intro turnstile same
    obtain ⟨before, known, rfl⟩ := Option.map_eq_some_iff.1 same
    exact Nat.succ_pos _

end MemoryStore

namespace Upload

/-- The store has not refused the upload and will not. -/
def Going (upload : Upload) (store : MemoryStore) : Prop :=
  0 < upload.capacity ∧
    match upload.stage with
    | .unstarted => store.Admits
    | .reading _ => store.Willing
    | _ => False

variable {upload : Upload} {store : MemoryStore}

theorem enter_admits (admits : store.Admits) :
    ∃ after, upload.enter store = upload.drain .empty after ∧ after.Willing ∧ store.Steady after := by
  obtain ⟨after, admitted, willing, steady⟩ := MemoryStore.admitUpload_admits admits
  have answer : RemoteStore.admitUpload upload.location upload.properties store =
      (some (.ok ()), after) := admitted
  refine ⟨after, ?_, willing, steady⟩
  rw [enter, answer]

theorem poll_going (going : upload.Going store) :
    ∃ body after, upload.poll store = upload.drain body after ∧ after.Willing ∧ store.Steady after := by
  obtain ⟨_, standing⟩ := going
  rw [poll]
  rcases stage : upload.stage with _ | _ | body | verdict <;> simp only [stage] at standing ⊢
  · have admits : store.openUpload.Admits := standing
    obtain ⟨after, entered, willing, steady⟩ := enter_admits admits
    exact ⟨.empty, after, entered, willing, steady.failuresPending, steady.announced⟩
  · exact ⟨body, store, rfl, standing, MemoryStore.Steady.refl store⟩

theorem poll_going_open (going : upload.Going store) (writing : upload.writer ≠ .ended) :
    ∃ body after, upload.poll store = (upload.receive body, after) ∧ after.Willing ∧
      store.Steady after := by
  obtain ⟨body, after, polled, willing, steady⟩ := poll_going going
  refine ⟨body, after, ?_, willing, steady⟩
  rw [polled, drain_open writing]

theorem poll_going_ended (going : upload.Going store) (ended : upload.writer = .ended) :
    ∃ last after, upload.poll store = (last, after) ∧ last.stage = .answered (.ok ()) ∧
      after.Admits ∧ store.Steady after := by
  obtain ⟨body, middle, polled, willing, steady⟩ := poll_going going
  obtain ⟨after, stored, admits, steadyAfter⟩ := MemoryStore.storeBody_willing willing upload.location
    upload.properties (body.append upload.pipe).toList
  have answer : RemoteStore.storeBody upload.location upload.properties
      (body.append upload.pipe).toList middle = (.ok (), after) := stored
  refine ⟨(upload.receive body).answer (.ok ()), after, ?_, rfl, admits, steady.trans steadyAfter⟩
  have finished : (upload.receive body).writer = .ended := ended
  have stage : (upload.receive body).stage = .reading (body.append upload.pipe) := rfl
  rw [polled, drain, storeComplete, stage, finished]
  dsimp only
  have place : (upload.receive body).location = upload.location := rfl
  have kept : (upload.receive body).properties = upload.properties := rfl
  rw [place, kept, answer]

end Upload

namespace Gateway

/-- What a gateway does for uploads leaves this as it is. -/
structure Steady (before after : Gateway MemoryStore) : Prop where
  authorizer : after.authorizer = before.authorizer
  now : after.now = before.now
  log : after.log = before.log
  store : before.store.Steady after.store

theorem Steady.refl (gateway : Gateway MemoryStore) : gateway.Steady gateway :=
  ⟨rfl, rfl, rfl, .refl _⟩

theorem Steady.trans {first middle last : Gateway MemoryStore} (start : first.Steady middle)
    (rest : middle.Steady last) : first.Steady last where
  authorizer := rest.authorizer.trans start.authorizer
  now := rest.now.trans start.now
  log := rest.log.trans start.log
  store := start.store.trans rest.store

/-- Nothing is in progress, and an upload can be begun that will be stored. -/
structure Ready (gateway : Gateway MemoryStore) : Prop where
  idle : gateway.uploads = []
  /-- A slot is free, or held by a task that only has to let go of it. -/
  slots : 0 < gateway.freeSlots + gateway.leaving.length
  accepts : gateway.acceptsUploads = true
  admits : gateway.store.Admits

/-- One upload is in progress that the store will take. -/
def Busy (gateway : Gateway MemoryStore) (number : Nat) : Prop :=
  gateway.acceptsUploads = true ∧ ∃ upload, gateway.uploads = [(number, upload)] ∧
    upload.writer = .writing ∧ upload.Going gateway.store

variable {gateway : Gateway MemoryStore} {number : Nat}

theorem beginUpload_ready (ready : gateway.Ready) (location : Location) (properties : Properties)
    {capacity : Nat} (room : 0 < capacity) :
    ∃ number after, gateway.beginUpload location properties capacity = (some (.ok number), after) ∧
      after.Busy number ∧ gateway.Steady after := by
  obtain ⟨freeSlots, leaving, taken⟩ := takeSlot_idle ready.idle ready.accepts ready.slots
  rw [beginUpload, taken]
  refine ⟨_, _, rfl, ⟨ready.accepts, { location, properties, capacity }, ?_, rfl, room, ready.admits⟩, ?_⟩
  · simp only [useClient, ready.idle, List.nil_append]
  · exact ⟨rfl, rfl, rfl, .refl _⟩

/-- The task of an upload in progress has emptied the pipe. -/
def Drained (gateway : Gateway MemoryStore) (number : Nat) : Prop :=
  gateway.acceptsUploads = true ∧ ∃ upload, gateway.uploads = [(number, upload)] ∧ upload.writer = .writing ∧
    upload.Going gateway.store ∧ upload.verdict? = none ∧ upload.pipe.size < upload.capacity

theorem pollAll_busy (busy : gateway.Busy number) :
    gateway.pollAll.Drained number ∧ gateway.Steady gateway.pollAll := by
  obtain ⟨accepts, upload, uploads, writing, going⟩ := busy
  have unended : upload.writer ≠ .ended := by rw [writing]; decide
  obtain ⟨body, after, polled, willing, steady⟩ := Upload.poll_going_open going unended
  rw [pollAll_single uploads, polled]
  exact ⟨⟨accepts, _, rfl, writing, ⟨going.1, willing⟩, rfl, going.1⟩, rfl, rfl, rfl, steady⟩

theorem settle_busy (busy : gateway.Busy number) :
    gateway.settle.Drained number ∧ gateway.Steady gateway.settle := by
  obtain ⟨⟨accepts, upload, uploads, writing, going, _⟩, steady⟩ := pollAll_busy busy
  obtain ⟨drained, steadyAfter⟩ := pollAll_busy ⟨accepts, upload, uploads, writing, going⟩
  obtain ⟨_, first, single, _⟩ := busy
  rw [settle_single single]
  exact ⟨drained, steady.trans steadyAfter⟩

theorem Drained.busy (drained : gateway.Drained number) : gateway.Busy number := by
  obtain ⟨accepts, upload, uploads, writing, going, _⟩ := drained
  exact ⟨accepts, upload, uploads, writing, going⟩

theorem Busy.taken {byte : UInt8} {upload : Upload} (busy : gateway.Busy number)
    (offered : gateway.offerNow number byte = some (.taken upload)) :
    (gateway.setUpload number upload).Busy number := by
  obtain ⟨accepts, earlier, uploads, writing, going⟩ := busy
  rw [offerNow, upload?_single uploads, Option.map_some, Option.some.injEq] at offered
  obtain ⟨_, _, rfl⟩ := Upload.offer_taken offered
  rw [setUpload_single uploads]
  exact ⟨accepts, _, rfl, writing, going⟩

/-- The upload is there, and not refused. -/
theorem Busy.offerNow (busy : gateway.Busy number) (byte : UInt8) :
    gateway.offerNow number byte = some .full ∨ ∃ upload, gateway.offerNow number byte = some (.taken upload) := by
  obtain ⟨accepts, upload, uploads, writing, going⟩ := busy
  have unanswered : upload.verdict? = none := by
    obtain ⟨_, standing⟩ := going
    rw [Upload.verdict?]
    cases stage : upload.stage <;> simp_all
  rw [Gateway.offerNow, upload?_single uploads, Option.map_some]
  cases offered : upload.offer byte with
  | taken next => exact .inr ⟨next, rfl⟩
  | full => exact .inl rfl
  | refused fault next =>
      obtain ⟨verdict, told, _⟩ := Upload.offer_refused offered
      cases unanswered.symm.trans told

/-- Where the pipe is empty there is room. -/
theorem Drained.room (drained : gateway.Drained number) (byte : UInt8) : gateway.offerNow number byte ≠ some .full := by
  obtain ⟨accepts, upload, uploads, writing, going, unanswered, room⟩ := drained
  rw [Gateway.offerNow, upload?_single uploads, Option.map_some]
  intro full
  exact Upload.offer_full (Option.some.inj full) room

theorem Takes.busy {bytes : List UInt8} {after : Gateway MemoryStore} (takes : gateway.Takes number bytes after)
    (busy : gateway.Busy number) : after.Busy number ∧ gateway.Steady after := by
  induction takes with
  | none => exact ⟨busy, .refl _⟩
  | polled _ ih =>
      obtain ⟨drained, polled⟩ := pollAll_busy ih.1
      exact ⟨drained.busy, ih.2.trans polled⟩
  | taken _ offered ih =>
      obtain ⟨still, steady⟩ := ih
      exact ⟨still.taken offered, steady.authorizer, steady.now, steady.log, steady.store⟩

/-- Every write to an upload that the store takes goes through. -/
theorem write_busy (chunk : List UInt8) (busy : gateway.Busy number) :
    ∃ after, gateway.write number chunk = (.whole, after) ∧ after.Busy number ∧
      gateway.Steady after := by
  have writes := gateway.write_writes number chunk
  revert writes
  generalize gateway.write number chunk = result
  intro writes
  cases writes with
  | closed closed =>
      obtain ⟨_, upload, uploads, writing, _⟩ := busy
      exact absurd writing (closed upload (upload?_single uploads))
  | @whole _ after _ _ takes =>
      obtain ⟨⟨accepts, last, uploads, writing, going⟩, steady⟩ := takes.busy busy
      refine ⟨_, rfl, ?_⟩
      rw [countWritten, upload?_single uploads]
      simp only [setUpload_single uploads]
      exact ⟨⟨accepts, _, rfl, writing, going⟩, steady.authorizer, steady.now, steady.log, steady.store⟩
  | stopped _ _ short pours =>
      have answered {middle : Gateway MemoryStore} {byte : UInt8} {part : List UInt8}
          (takes : gateway.Takes number part middle) := (takes.busy busy).1.offerNow byte
      cases pours with
      | whole => exact absurd rfl short
      | refused _ takes offered =>
          rcases answered takes with full | ⟨_, taken⟩
          · cases offered.symm.trans full
          · cases offered.symm.trans taken
      | unknown _ takes missing =>
          rcases answered takes with full | ⟨_, taken⟩
          · cases missing.symm.trans full
          · cases missing.symm.trans taken
      | blocked _ takes full => exact absurd full ((settle_busy (takes.busy busy).1).1.room _)

theorem finish_busy (busy : gateway.Busy number) :
    ∃ size after, gateway.finish number = (some (.ok size), after) ∧ after.Ready ∧
      gateway.Steady after := by
  obtain ⟨accepts, upload, uploads, writing, going⟩ := busy
  have ended : upload.endBody.writer = .ended := rfl
  have goingOn : upload.endBody.Going gateway.store := going
  obtain ⟨last, store, polled, answered, admits, steady⟩ := Upload.poll_going_ended goingOn ended
  have again : last.poll store = (last, store) := by
    rw [Upload.poll, answered]
  have unanswered : upload.isAnswered = false := by
    obtain ⟨_, standing⟩ := going
    rw [Upload.isAnswered, Upload.verdict?]
    cases stage : upload.stage <;> simp_all
  have verdict : last.isAnswered = true := by
    rw [Upload.isAnswered, Upload.verdict?, answered]
    rfl
  have told : last.outcome? = some (.ok last.written) := by
    rw [Upload.outcome?, Upload.verdict?, answered]
    rfl
  obtain ⟨leaving, held, finished⟩ := finish_single uploads (by rw [writing]; decide) polled again
  rw [told] at finished
  refine ⟨_, _, finished, ⟨rfl, ?_, accepts, admits⟩, rfl, rfl, rfl, steady⟩
  rw [held verdict unanswered, List.length_append]
  exact Nat.succ_pos _

end Gateway

end ArtifactGate
