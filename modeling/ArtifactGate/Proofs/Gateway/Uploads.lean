import ArtifactGate.Proofs.Gateway.InProgress

/-!
What becomes of the bytes of an upload, whatever the store answers. While the writer writes, the task
and the pipe together carry what was written, and the store has accepted nothing; once the body has
ended the store has accepted exactly what was written, or nothing.
-/
namespace ArtifactGate

variable {σ : Type} [RemoteStore σ] [DepositStore σ]

namespace Upload

/-- The task and the pipe hold these bytes between them, unless the store has refused the upload. -/
def Carries (upload : Upload) (bytes : List UInt8) : Prop :=
  match upload.stage with
  | .unstarted | .waiting => upload.pipe.toList = bytes
  | .reading body => body.toList ++ upload.pipe.toList = bytes
  | .answered (.error _) => True
  | .answered (.ok ()) => False

/-- The body is complete and waits to be admitted to a store that admits nobody. -/
def Stuck (upload : Upload) (store : σ) : Prop :=
  upload.stage = .waiting ∧
    RemoteStore.admitUpload upload.location upload.properties store = (none, store)

/-- Two moments of one upload: what the task does leaves the writer's side as it is. -/
def SameWriter (before after : Upload) : Prop :=
  ∃ pipe stage, after = { before with pipe, stage }

/-- What the task has made of an upload whose body has ended, with the store it has left. -/
inductive Resolved (upload : Upload) (bytes : List UInt8) (store : σ) : Upload × σ → Prop
  | accepted {pipe : ByteQueue} {after : σ}
      (gains : Gains store [⟨upload.location, upload.properties, bytes⟩] after) :
      Resolved upload bytes store ({ upload with pipe, stage := .answered (.ok ()) }, after)
  | refused {pipe : ByteQueue} {fault : Fault} {after : σ} (gains : Gains store [] after) :
      Resolved upload bytes store ({ upload with pipe, stage := .answered (.error fault) }, after)
  | stuck {pipe : ByteQueue} {after : σ} (gains : Gains store [] after)
      (stuck : Stuck { upload with pipe, stage := .waiting } after) :
      Resolved upload bytes store ({ upload with pipe, stage := .waiting }, after)

section Task

variable {upload : Upload} {bytes : List UInt8}

omit [DepositStore σ] in
theorem storeComplete_open (upload : Upload) (writing : upload.writer ≠ .ended) (store : σ) :
    upload.storeComplete store = (upload, store) := by
  rw [storeComplete]
  split
  · rename_i ended
    exact absurd ended writing
  · rfl

omit [DepositStore σ] in
theorem drain_open (writing : upload.writer ≠ .ended) (body : ByteQueue) (store : σ) :
    upload.drain body store = (upload.receive body, store) :=
  (upload.receive body).storeComplete_open writing store

theorem receive_carries (body : ByteQueue) (carries : body.toList ++ upload.pipe.toList = bytes) :
    (upload.receive body).Carries bytes := by
  simp only [Carries, receive, ByteQueue.toList_append, ByteQueue.toList_empty, List.append_nil]
  exact carries

theorem enter_open (writing : upload.writer ≠ .ended) (carries : upload.pipe.toList = bytes)
    (store : σ) :
    SameWriter upload (upload.enter store).1 ∧ (upload.enter store).1.Carries bytes ∧
      Gains store [] (upload.enter store).2 := by
  have gains := DepositStore.admitUpload upload.location upload.properties store
  rw [enter]
  split <;> rename_i admitted <;> rw [admitted] at gains
  · exact ⟨⟨_, _, rfl⟩, carries, gains⟩
  · exact ⟨⟨_, _, rfl⟩, trivial, gains⟩
  · rw [drain_open writing]
    exact ⟨⟨_, _, rfl⟩, receive_carries .empty carries, gains⟩

theorem poll_open (writing : upload.writer ≠ .ended) (carries : upload.Carries bytes) (store : σ) :
    SameWriter upload (upload.poll store).1 ∧ (upload.poll store).1.Carries bytes ∧
      Gains store [] (upload.poll store).2 := by
  rw [Carries] at carries
  rw [poll]
  rcases stage : upload.stage with _ | _ | body | verdict <;> simp only [stage] at carries ⊢
  · have gains := DepositStore.openUpload upload.location upload.properties store
    split <;> rename_i after opened <;> rw [opened] at gains
    · exact ⟨⟨_, _, rfl⟩, trivial, gains⟩
    · obtain ⟨same, carried, entered⟩ := enter_open writing carries after
      exact ⟨same, carried, DepositStore.gains_trans gains entered⟩
  · exact enter_open writing carries store
  · rw [drain_open writing]
    exact ⟨⟨_, _, rfl⟩, receive_carries _ carries, DepositStore.gains_refl store⟩
  · refine ⟨⟨upload.pipe, upload.stage, rfl⟩, ?_, DepositStore.gains_refl store⟩
    rw [Carries, stage]
    exact carries

theorem drain_ended (ended : upload.writer = .ended) (body : ByteQueue)
    (carries : body.toList ++ upload.pipe.toList = bytes) (store : σ) :
    Resolved upload bytes store (upload.drain body store) := by
  have whole : (body.append upload.pipe).toList = bytes := by
    rw [ByteQueue.toList_append, carries]
  have stage : (upload.receive body).stage = .reading (body.append upload.pipe) := rfl
  have finished : (upload.receive body).writer = .ended := ended
  rw [drain, storeComplete, stage, finished]
  dsimp only
  rw [whole]
  rcases answer : RemoteStore.storeBody (upload.receive body).location (upload.receive body).properties
    bytes store with ⟨fault | _, after⟩
  · exact .refused (DepositStore.storeBody_error answer)
  · exact .accepted (DepositStore.storeBody_ok answer)

theorem Resolved.after_call {store middle : σ} {result : Upload × σ}
    (first : Gains store [] middle) (resolved : Resolved upload bytes middle result) :
    Resolved upload bytes store result := by
  cases resolved with
  | accepted gains => exact .accepted (DepositStore.gains_trans first gains)
  | refused gains => exact .refused (DepositStore.gains_trans first gains)
  | stuck gains stuck => exact .stuck (DepositStore.gains_trans first gains) stuck

theorem enter_ended (ended : upload.writer = .ended) (carries : upload.pipe.toList = bytes)
    (store : σ) : Resolved upload bytes store (upload.enter store) := by
  have gains := DepositStore.admitUpload upload.location upload.properties store
  rw [enter]
  split <;> rename_i admitted
  · have same := DepositStore.admitUpload_waits admitted
    subst same
    exact .stuck (DepositStore.gains_refl _) ⟨rfl, admitted⟩
  · rw [admitted] at gains
    exact .refused gains
  · rw [admitted] at gains
    exact (drain_ended ended .empty carries _).after_call gains

theorem poll_ended (ended : upload.writer = .ended) (carries : upload.Carries bytes) (store : σ) :
    Resolved upload bytes store (upload.poll store) := by
  rw [Carries] at carries
  rw [poll]
  rcases stage : upload.stage with _ | _ | body | _ | _ <;> simp only [stage] at carries ⊢
  · have gains := DepositStore.openUpload upload.location upload.properties store
    split <;> rename_i opened <;> rw [opened] at gains
    · exact .refused gains
    · exact (enter_ended ended carries _).after_call gains
  · exact enter_ended ended carries store
  · exact drain_ended ended body carries store
  · rename_i fault
    have same : upload = { upload with stage := .answered (.error fault) } := by rw [← stage]
    rw [same]
    exact .refused (DepositStore.gains_refl store)

theorem Resolved.poll {store : σ} {result : Upload × σ} (resolved : Resolved upload bytes store result) :
    result.1.poll result.2 = result := by
  cases resolved with
  | accepted gains => rfl
  | refused gains => rfl
  | stuck gains stuck =>
      rw [Upload.poll]
      simp only [enter]
      rw [stuck.2]

omit [DepositStore σ] in
theorem Stuck.poll {store : σ} (stuck : upload.Stuck store) : upload.poll store = (upload, store) := by
  have same : ({ upload with stage := .waiting } : Upload) = upload := by rw [← stuck.1]
  rw [Upload.poll, stuck.1]
  simp only [enter]
  rw [stuck.2, same]

theorem abort_gains (upload : Upload) (store : σ) : Gains store [] (upload.abort store) := by
  rw [abort]
  split
  · exact DepositStore.dropAdmitted store
  · exact DepositStore.gains_refl store

end Task

end Upload

namespace Gateway

/-- One upload is in progress, still written to, and carries these bytes. -/
def Uploading (gateway : Gateway σ) (number : Nat) (location : Location) (properties : Properties)
    (bytes : List UInt8) : Prop :=
  number < gateway.nextUpload ∧ ∃ upload, gateway.uploads = [(number, upload)] ∧
    upload.location = location ∧ upload.properties = properties ∧ upload.writer = .writing ∧
    upload.Carries bytes

/-- What is in progress, if anything, began with the number `mark` or after it, and the tasks will
not bring it into the store. -/
def Droppable (gateway : Gateway σ) (mark : Nat) : Prop :=
  gateway.uploads = [] ∨ ∃ number upload, gateway.uploads = [(number, upload)] ∧ mark ≤ number ∧
    ((upload.writer ≠ .ended ∧ ∃ bytes, upload.Carries bytes) ∨ upload.Stuck gateway.store)

omit [DepositStore σ] in
theorem Uploading.droppable {gateway : Gateway σ} {number mark : Nat} {location : Location}
    {properties : Properties} {bytes : List UInt8}
    (uploading : gateway.Uploading number location properties bytes) (begun : mark ≤ number) :
    gateway.Droppable mark := by
  obtain ⟨_, upload, uploads, _, _, writing, carries⟩ := uploading
  exact .inr ⟨number, upload, uploads, begun, .inl ⟨by rw [writing]; decide, bytes, carries⟩⟩

omit [DepositStore σ] in
theorem Droppable.since {gateway : Gateway σ} {mark earlier : Nat}
    (droppable : gateway.Droppable mark) (before : earlier ≤ mark) : gateway.Droppable earlier := by
  rcases droppable with idle | ⟨number, upload, uploads, begun, lost⟩
  · exact .inl idle
  · exact .inr ⟨number, upload, uploads, Nat.le_trans before begun, lost⟩

section Polling

variable {gateway : Gateway σ} {number mark : Nat} {upload : Upload} {location : Location} {properties : Properties}
  {bytes : List UInt8}

omit [DepositStore σ] in
theorem pollAll_single (single : gateway.uploads = [(number, upload)]) :
    gateway.pollAll =
      { gateway with
        uploads := [(number, (upload.poll gateway.store).1)]
        store := (upload.poll gateway.store).2
        leaving := gateway.leaving ++
          if (upload.poll gateway.store).1.isAnswered && !upload.isAnswered then [number] else [] } := by
  simp only [pollAll, single, pollEach]

omit [DepositStore σ] in
theorem settle_single (single : gateway.uploads = [(number, upload)]) :
    gateway.settle = gateway.pollAll.pollAll := by
  rw [settle, single]
  rfl

omit [DepositStore σ] in
/-- A single task that has nothing more to do has settled. -/
theorem settle_eq_pollAll (single : gateway.uploads = [(number, upload)])
    (again : (upload.poll gateway.store).1.poll (upload.poll gateway.store).2 = upload.poll gateway.store) :
    gateway.settle = gateway.pollAll := by
  rw [settle_single single, pollAll_single single, pollAll_single rfl, again, Bool.and_not_self]
  simp only [Bool.false_eq_true, if_false, List.append_nil]

omit [DepositStore σ] in
/-- The end of a single upload, whose task does all it can when it is polled. -/
theorem finish_single (single : gateway.uploads = [(number, upload)]) (whole : upload.writer ≠ .broken)
    {last : Upload} {store : σ} (polled : upload.endBody.poll gateway.store = (last, store))
    (again : last.poll store = (last, store)) :
    ∃ leaving, (last.isAnswered = true → upload.isAnswered = false → leaving = gateway.leaving ++ [number]) ∧
      gateway.finish number =
        match last.outcome? with
        | some outcome => (some outcome, { gateway with uploads := [], store, leaving })
        | none => (none, { gateway with uploads := [(number, last)], store, leaving }) := by
  let leaving := gateway.leaving ++ if last.isAnswered && !upload.endBody.isAnswered then [number] else []
  have settled : (gateway.setUpload number upload.endBody).settle =
      { gateway with uploads := [(number, last)], store, leaving } := by
    have ended : ({ gateway with uploads := [(number, upload.endBody)] } : Gateway σ).uploads =
        [(number, upload.endBody)] := rfl
    rw [setUpload_single single, settle_eq_pollAll ended (by rw [polled, again]), pollAll_single ended, polled]
  have present : (gateway.setUpload number upload.endBody).settle.upload? number = some last := by
    rw [settled]
    exact upload?_single rfl
  refine ⟨leaving, fun answered unanswered => ?_, ?_⟩
  · have before : upload.endBody.isAnswered = false := unanswered
    simp only [leaving, answered, before, Bool.not_false, Bool.and_self, if_true]
  · have finishes := gateway.finish_finishes number
    revert finishes
    generalize gateway.finish number = result
    intro finishes
    cases finishes with
    | unknown missing => cases missing.symm.trans (upload?_single single)
    | broken found broken =>
        cases (upload?_single single).symm.trans found
        exact absurd broken whole
    | told found _ left told =>
        cases (upload?_single single).symm.trans found
        cases present.symm.trans left
        rw [told, settled, removeUpload_single rfl]
    | waits found _ left untold =>
        cases (upload?_single single).symm.trans found
        cases present.symm.trans left
        rw [untold, settled]

theorem Uploading.pollAll (uploading : gateway.Uploading number location properties bytes) :
    gateway.pollAll.Uploading number location properties bytes ∧
      Gains gateway.store [] gateway.pollAll.store := by
  obtain ⟨below, upload, uploads, location_eq, properties_eq, writing, carries⟩ := uploading
  have going : upload.writer ≠ .ended := by rw [writing]; decide
  obtain ⟨⟨pipe, stage, same⟩, carried, gains⟩ := upload.poll_open going carries gateway.store
  rw [pollAll_single uploads]
  rw [same] at carried
  refine ⟨⟨below, _, rfl, ?_⟩, gains⟩
  rw [same]
  exact ⟨location_eq, properties_eq, writing, carried⟩

theorem Droppable.pollAll (droppable : gateway.Droppable mark) :
    gateway.pollAll.Droppable mark ∧ Gains gateway.store [] gateway.pollAll.store := by
  rcases droppable with idle | ⟨number, upload, uploads, begun, ⟨going, bytes, carries⟩ | stuck⟩
  · have still : gateway.pollAll = gateway := pollAll_idle idle
    rw [still]
    exact ⟨.inl idle, DepositStore.gains_refl _⟩
  · obtain ⟨⟨pipe, stage, same⟩, carried, gains⟩ := upload.poll_open going carries gateway.store
    rw [pollAll_single uploads]
    refine ⟨.inr ⟨number, _, rfl, begun, .inl ⟨?_, bytes, carried⟩⟩, gains⟩
    rw [same]
    exact going
  · rw [pollAll_single uploads, stuck.poll]
    exact ⟨.inr ⟨number, upload, rfl, begun, .inr stuck⟩, DepositStore.gains_refl _⟩

end Polling

/-- What has become of a gateway on which a part of an upload could not be carried out. -/
def Interrupted (before : Gateway σ) (mark : Nat) (after : Gateway σ) : Prop :=
  after.Droppable mark ∧ Gains before.store [] after.store

theorem Droppable.settle {gateway : Gateway σ} {mark : Nat} (droppable : gateway.Droppable mark) :
    gateway.Interrupted mark gateway.settle :=
  settle_keeps (gateway.Interrupted mark)
    (fun _ interrupted => interrupted.1.pollAll.imp_right (DepositStore.gains_trans interrupted.2))
    ⟨droppable, DepositStore.gains_refl _⟩

theorem beginUpload_idle {gateway : Gateway σ} (idle : gateway.uploads = []) (location : Location)
    (properties : Properties) (capacity : Nat) :
    match gateway.beginUpload location properties capacity with
    | (some (.ok number), after) => number = gateway.nextUpload ∧
        after.Uploading number location properties [] ∧ Gains gateway.store [] after.store
    | (_, after) => gateway.Interrupted gateway.nextUpload after := by
  obtain ⟨freeSlots, leaving, waited⟩ := slotAwaited_idle idle
  have begins := gateway.beginUpload_begins location properties capacity
  revert begins
  generalize gateway.beginUpload location properties capacity = result
  intro begins
  cases begins with
  | refused shut => exact ⟨.inl idle, DepositStore.gains_refl _⟩
  | begun accepts free =>
      rw [waited]
      refine ⟨rfl, ⟨Nat.lt_succ_self _, { location, properties, capacity }, ?_, rfl, rfl, rfl, rfl⟩,
        DepositStore.gains_refl _⟩
      simp only [startUpload, useClient, idle, List.nil_append]
  | waits accepts full =>
      rw [waited]
      exact ⟨.inl idle, DepositStore.gains_refl _⟩

theorem Interrupted.after_call {before middle after : Gateway σ} {mark : Nat}
    (first : Gains before.store [] middle.store) (interrupted : middle.Interrupted mark after) :
    before.Interrupted mark after :=
  ⟨interrupted.1, DepositStore.gains_trans first interrupted.2⟩

section Writing

variable {gateway after : Gateway σ} {number : Nat} {upload : Upload} {location : Location} {properties : Properties}
  {bytes part : List UInt8} {byte : UInt8}

omit [RemoteStore σ] [DepositStore σ] in
theorem Uploading.taken (uploading : gateway.Uploading number location properties bytes)
    (offered : gateway.offerNow number byte = some (.taken upload)) :
    (gateway.setUpload number upload).Uploading number location properties (bytes ++ [byte]) := by
  obtain ⟨below, earlier, uploads, location_eq, properties_eq, writing, carries⟩ := uploading
  rw [offerNow, upload?_single uploads, Option.map_some, Option.some.injEq] at offered
  obtain ⟨unanswered, _, rfl⟩ := Upload.offer_taken offered
  rw [setUpload_single uploads]
  refine ⟨below, _, rfl, location_eq, properties_eq, writing, ?_⟩
  rw [Upload.Carries] at carries ⊢
  rw [Upload.verdict?] at unanswered
  rcases stage : earlier.stage with _ | _ | body | _ <;>
    simp only [stage, ByteQueue.toList_push] at carries unanswered ⊢
  · rw [carries]
  · rw [carries]
  · rw [← List.append_assoc, carries]
  · cases unanswered

omit [DepositStore σ] in
theorem Uploading.refused {fault : Fault} (uploading : gateway.Uploading number location properties bytes)
    (offered : gateway.offerNow number byte = some (.refused fault upload)) :
    (gateway.setUpload number upload).Droppable number := by
  obtain ⟨below, earlier, uploads, _, _, _, carries⟩ := uploading
  rw [offerNow, upload?_single uploads, Option.map_some, Option.some.injEq] at offered
  obtain ⟨_, _, _, rfl⟩ := Upload.offer_refused offered
  rw [setUpload_single uploads]
  exact .inr ⟨number, _, rfl, Nat.le_refl _, .inl ⟨nofun, bytes, carries⟩⟩

/-- What is taken for an upload is carried, after what was carried before. -/
theorem Takes.uploading (takes : gateway.Takes number part after)
    (uploading : gateway.Uploading number location properties bytes) :
    after.Uploading number location properties (bytes ++ part) ∧ Gains gateway.store [] after.store := by
  induction takes with
  | none =>
      rw [List.append_nil]
      exact ⟨uploading, DepositStore.gains_refl _⟩
  | polled _ ih =>
      obtain ⟨carried, gains⟩ := ih
      exact carried.pollAll.imp_right (DepositStore.gains_trans gains)
  | taken _ offered ih =>
      obtain ⟨carried, gains⟩ := ih
      rw [← List.append_assoc]
      exact ⟨carried.taken offered, gains⟩

theorem Pours.interrupted {written : Written} (pours : gateway.Pours number part (written, after))
    (short : written ≠ .whole) (uploading : gateway.Uploading number location properties bytes) :
    gateway.Interrupted number after := by
  cases pours with
  | whole => exact absurd rfl short
  | refused _ takes offered =>
      obtain ⟨carried, gains⟩ := takes.uploading uploading
      exact ⟨carried.refused offered, gains⟩
  | unknown _ takes =>
      obtain ⟨carried, gains⟩ := takes.uploading uploading
      exact ⟨carried.droppable (Nat.le_refl _), gains⟩
  | blocked _ takes =>
      obtain ⟨carried, gains⟩ := takes.settled.uploading uploading
      exact ⟨carried.droppable (Nat.le_refl _), gains⟩

theorem write_uploading (chunk : List UInt8)
    (uploading : gateway.Uploading number location properties bytes) :
    match gateway.write number chunk with
    | (.whole, after) => after.Uploading number location properties (bytes ++ chunk) ∧
        Gains gateway.store [] after.store
    | (_, after) => gateway.Interrupted number after := by
  have writes := gateway.write_writes number chunk
  revert writes
  generalize gateway.write number chunk = result
  intro writes
  cases writes with
  | closed => exact ⟨uploading.droppable (Nat.le_refl _), DepositStore.gains_refl _⟩
  | whole _ _ takes =>
      obtain ⟨⟨below, upload, uploads, carried⟩, gains⟩ := takes.uploading uploading
      rw [countWritten, upload?_single uploads]
      simp only [setUpload_single uploads]
      exact ⟨⟨below, _, rfl, carried⟩, gains⟩
  | @stopped _ written after _ _ short pours =>
      have interrupted := pours.interrupted short uploading
      cases written with
      | whole => exact absurd rfl short
      | _ => exact interrupted

theorem finish_uploading (uploading : gateway.Uploading number location properties bytes) :
    match gateway.finish number with
    | (some (.ok _), after) => after.uploads = [] ∧ number < after.nextUpload ∧
        Gains gateway.store [⟨location, properties, bytes⟩] after.store
    | (_, after) => gateway.Interrupted number after := by
  obtain ⟨below, upload, uploads, rfl, rfl, writing, carries⟩ := uploading
  have ended : upload.endBody.writer = .ended := rfl
  have resolved := Upload.poll_ended ended carries gateway.store
  rcases polled : upload.endBody.poll gateway.store with ⟨last, store⟩
  have again := resolved.poll
  rw [polled] at resolved again
  obtain ⟨leaving, _, finished⟩ := finish_single uploads (by rw [writing]; decide) polled again
  rw [finished]
  cases resolved with
  | accepted gains => exact ⟨rfl, below, gains⟩
  | refused gains => exact ⟨.inl rfl, gains⟩
  | stuck gains stuck => exact ⟨.inr ⟨number, _, rfl, Nat.le_refl _, .inr stuck⟩, gains⟩

end Writing

theorem abandonSince_droppable {gateway : Gateway σ} {mark : Nat}
    (droppable : gateway.Droppable mark) :
    (gateway.abandonSince mark).uploads = [] ∧
      Gains gateway.store [] (gateway.abandonSince mark).store := by
  rcases droppable with idle | ⟨number, upload, uploads, begun, _⟩
  · rw [abandonSince, idle]
    exact ⟨idle, DepositStore.gains_refl _⟩
  · rw [abandonSince_single uploads begun]
    exact ⟨rfl, upload.abort_gains gateway.store⟩

end Gateway

namespace Live

variable {live : Live σ} {mark number : Nat} {location : Location} {properties : Properties}
  {bytes : List UInt8}

theorem ends_beginUpload (idle : live.gateway.uploads = []) (begun : mark ≤ live.gateway.nextUpload)
    (location : Location) (properties : Properties) :
    live.Ends (ExceptT.mk (Action.request (.beginUpload location properties)) : Attempt Nat)
      (fun number after => mark ≤ number ∧ after.gateway.Uploading number location properties [] ∧
        Gains live.gateway.store [] after.gateway.store)
      (fun _ after => live.gateway.Interrupted mark after.gateway) := by
  have outcome := Gateway.beginUpload_idle idle location properties live.gateway.pipeCapacity
  rw [Ends, ExceptT.run_mk, run_request, perform, answer]
  rcases result : live.gateway.beginUpload location properties live.gateway.pipeCapacity with
    ⟨_ | _ | number, after⟩ <;> simp only [result] at outcome ⊢
  · exact ⟨outcome.1.since begun, outcome.2⟩
  · exact ⟨outcome.1.since begun, outcome.2⟩
  · exact ⟨outcome.1 ▸ begun, outcome.2⟩

theorem ends_writeUpload (uploading : live.gateway.Uploading number location properties bytes)
    (begun : mark ≤ number) (chunk : List UInt8) :
    live.Ends (ExceptT.mk (Action.request (.writeUpload number chunk)) : Attempt Unit)
      (fun _ after => after.gateway.Uploading number location properties (bytes ++ chunk) ∧
        Gains live.gateway.store [] after.gateway.store)
      (fun _ after => live.gateway.Interrupted mark after.gateway) := by
  have outcome := Gateway.write_uploading chunk uploading
  rw [Ends, ExceptT.run_mk, run_request, perform]
  rcases result : live.gateway.write number chunk with ⟨_ | _ | _, after⟩ <;>
    simp only [result] at outcome ⊢
  · exact outcome
  · exact ⟨outcome.1.since begun, outcome.2⟩
  · exact ⟨outcome.1.since begun, outcome.2⟩

theorem ends_finishUpload (uploading : live.gateway.Uploading number location properties bytes)
    (begun : mark ≤ number) :
    live.Ends (ExceptT.mk (Action.request (.finishUpload number)) : Attempt Nat)
      (fun _ after => after.gateway.uploads = [] ∧ number < after.gateway.nextUpload ∧
        Gains live.gateway.store [⟨location, properties, bytes⟩] after.gateway.store)
      (fun _ after => live.gateway.Interrupted mark after.gateway) := by
  have outcome := Gateway.finish_uploading uploading
  rw [Ends, ExceptT.run_mk, run_request, perform, answer]
  rcases result : live.gateway.finish number with ⟨_ | _ | _, after⟩ <;>
    simp only [result] at outcome ⊢
  · exact ⟨outcome.1.since begun, outcome.2⟩
  · exact ⟨outcome.1.since begun, outcome.2⟩
  · exact outcome

end Live

end ArtifactGate
