import ArtifactGate.Proofs.Live
import ArtifactGate.Proofs.Store.Calls

/-!
What each operation of a gateway does to its store, its uploads and its slots, said once. A write takes bytes
for one upload, byte by byte, while the tasks go on; a beginning waits for a slot and takes it; an end waits for
the store's answer. All of them are made of a few steps, and what every step keeps, every operation keeps.
-/
namespace ArtifactGate

variable {σ : Type} [RemoteStore σ] {permitted : Call → Prop}

namespace Upload

variable {upload after : Upload} {byte : UInt8}

/-- The upload that an offered byte leaves, unless there was no room for it. -/
def Offer.upload? : Offer → Option Upload
  | .taken upload | .refused _ upload => some upload
  | .full => none

theorem offer_taken (taken : upload.offer byte = .taken after) :
    upload.verdict? = none ∧ upload.pipe.size < upload.capacity ∧
      after = { upload with pipe := upload.pipe.push byte } := by
  rw [offer] at taken
  split at taken
  · cases taken
  · rename_i unanswered
    split at taken
    · exact ⟨unanswered, ‹_›, (Offer.taken.inj taken).symm⟩
    · cases taken

theorem offer_refused {fault : Fault} (refused : upload.offer byte = .refused fault after) :
    ∃ verdict, upload.verdict? = some verdict ∧ fault = failure verdict ∧
      after = { upload with writer := .broken } := by
  rw [offer] at refused
  split at refused
  · obtain ⟨reason, same⟩ := Offer.refused.inj refused
    exact ⟨_, ‹_›, reason.symm, same.symm⟩
  · split at refused <;> cases refused

theorem offer_full (full : upload.offer byte = .full) : ¬upload.pipe.size < upload.capacity := by
  rw [offer] at full
  split at full
  · cases full
  · split at full
    · cases full
    · assumption

/-- What the end that an upload is written at makes of it. -/
inductive Edits (upload : Upload) : Upload → Prop
  | offered {byte : UInt8} {after : Upload} (offered : (upload.offer byte).upload? = some after) :
    Edits upload after
  | counted (size : Nat) : Edits upload { upload with written := upload.written + size }
  | ended (whole : upload.writer ≠ .broken) : Edits upload upload.endBody

/-- The writer leaves the task's side as it is. -/
theorem Edits.stage (edits : upload.Edits after) : after.location = upload.location ∧ after.stage = upload.stage := by
  cases edits with
  | @offered byte after offered =>
      cases answer : upload.offer byte with
      | taken next =>
          rw [answer] at offered
          cases offered
          rw [(offer_taken answer).2.2]
          exact ⟨rfl, rfl⟩
      | full =>
          rw [answer] at offered
          cases offered
      | refused fault next =>
          rw [answer] at offered
          cases offered
          obtain ⟨_, _, _, rfl⟩ := offer_refused answer
          exact ⟨rfl, rfl⟩
  | counted size => exact ⟨rfl, rfl⟩
  | ended whole => exact ⟨rfl, rfl⟩

end Upload

namespace Gateway

variable {gateway before middle after : Gateway σ} {number : Nat} {bytes chunk : List UInt8}

/-- What the tasks keep when they are polled holds when they have settled. -/
theorem settle_keeps (holds : Gateway σ → Prop) (polled : ∀ gateway, holds gateway → holds gateway.pollAll)
    (initial : holds gateway) : holds gateway.settle := by
  rw [settle]
  induction gateway.uploads.length + 1 with
  | zero => exact initial
  | succ polls ih => exact polled _ ih

section Slots

omit [RemoteStore σ] in
theorem letGo_cases (gateway : Gateway σ) (number : Nat) :
    ∃ freeSlots leaving, gateway.letGo number = { gateway with freeSlots, leaving } := by
  rw [letGo]
  split <;> exact ⟨_, _, rfl⟩

omit [RemoteStore σ] in
/-- The tasks that only have to let go of their slots have done so. -/
theorem letAllGo_eq (gateway : Gateway σ) :
    gateway.letAllGo =
      { gateway with leaving := [], freeSlots := gateway.freeSlots + gateway.leaving.length } := by
  rw [letAllGo]
  generalize held : gateway.leaving = leaving
  induction leaving generalizing gateway with
  | nil =>
      cases gateway
      cases held
      rfl
  | cons number rest ih =>
      have first : gateway.letGo number =
          { gateway with leaving := rest, freeSlots := gateway.freeSlots + 1 } := by
        rw [letGo, held, if_pos List.mem_cons_self, List.erase_cons_head]
      rw [List.foldl_cons, first, ih _ rfl, List.length_cons]
      simp only [Nat.add_assoc, Nat.add_comm 1]

/-- What an upload that is begun finds when it has waited for a slot, if there was none. -/
def slotAwaited (gateway : Gateway σ) : Gateway σ :=
  if gateway.freeSlots = 0 then gateway.awaitSlot else gateway

theorem takeSlot_eq (gateway : Gateway σ) :
    gateway.takeSlot =
      if !gateway.acceptsUploads then (some (.error (.uploadRejected "gateway is shutting down")), gateway)
      else match gateway.slotAwaited.freeSlots with
        | 0 => (none, gateway.slotAwaited)
        | slots + 1 => (some (.ok ()), { gateway.slotAwaited with freeSlots := slots }) := rfl

/-- Taking a slot: it is refused, taken, or does not come free. -/
inductive TakesSlot (gateway : Gateway σ) : Option (Except Fault Unit) × Gateway σ → Prop
  | refused (shut : gateway.acceptsUploads = false) :
    TakesSlot gateway (some (.error (.uploadRejected "gateway is shutting down")), gateway)
  | taken {slots : Nat} (accepts : gateway.acceptsUploads = true) (free : gateway.slotAwaited.freeSlots = slots + 1) :
    TakesSlot gateway (some (.ok ()), { gateway.slotAwaited with freeSlots := slots })
  | waits (accepts : gateway.acceptsUploads = true) (full : gateway.slotAwaited.freeSlots = 0) :
    TakesSlot gateway (none, gateway.slotAwaited)

theorem takeSlot_takes (gateway : Gateway σ) : gateway.TakesSlot gateway.takeSlot := by
  rw [takeSlot_eq]
  cases accepts : gateway.acceptsUploads with
  | false => exact .refused accepts
  | true =>
      cases free : gateway.slotAwaited.freeSlots with
      | zero => exact .waits accepts free
      | succ slots => exact .taken accepts free

/-- Beginning an upload: no slot is given for it, or it is in progress with the next number. -/
inductive Begins (gateway : Gateway σ) (location : Location) (properties : Properties) (capacity : Nat) :
    Option (Except Fault Nat) × Gateway σ → Prop
  | refused (shut : gateway.acceptsUploads = false) :
    Begins gateway location properties capacity
      (some (.error (.uploadRejected "gateway is shutting down")), gateway)
  | begun {slots : Nat} (accepts : gateway.acceptsUploads = true) (free : gateway.slotAwaited.freeSlots = slots + 1) :
    Begins gateway location properties capacity
      (some (.ok gateway.slotAwaited.nextUpload),
        ({ gateway.slotAwaited with freeSlots := slots }.startUpload location properties capacity).2)
  | waits (accepts : gateway.acceptsUploads = true) (full : gateway.slotAwaited.freeSlots = 0) :
    Begins gateway location properties capacity (none, gateway.slotAwaited)

theorem beginUpload_begins (location : Location) (properties : Properties) (capacity : Nat) (gateway : Gateway σ) :
    gateway.Begins location properties capacity (gateway.beginUpload location properties capacity) := by
  have takes := gateway.takeSlot_takes
  rw [beginUpload]
  cases slot : gateway.takeSlot with
  | mk answer after =>
      rw [slot] at takes
      cases takes with
      | refused shut => exact .refused shut
      | taken accepts free => exact .begun accepts free
      | waits accepts full => exact .waits accepts full

end Slots

section Writing

/-- While the tasks go on, these bytes are taken for an upload, one after the other. -/
inductive Takes (number : Nat) (gateway : Gateway σ) : List UInt8 → Gateway σ → Prop
  | none : Takes number gateway [] gateway
  | polled {bytes : List UInt8} {middle : Gateway σ} (takes : Takes number gateway bytes middle) :
    Takes number gateway bytes middle.pollAll
  | taken {bytes : List UInt8} {middle : Gateway σ} {byte : UInt8} {upload : Upload}
      (takes : Takes number gateway bytes middle) (offered : middle.offerNow number byte = some (.taken upload)) :
    Takes number gateway (bytes ++ [byte]) (middle.setUpload number upload)

theorem Takes.trans {first rest : List UInt8} (start : gateway.Takes number first middle)
    (later : middle.Takes number rest after) : gateway.Takes number (first ++ rest) after := by
  induction later with
  | none => rwa [List.append_nil]
  | polled _ ih => exact ih.polled
  | taken _ offered ih => exact List.append_assoc first _ _ ▸ ih.taken offered

theorem Takes.settled (takes : gateway.Takes number bytes middle) : gateway.Takes number bytes middle.settle :=
  settle_keeps (gateway.Takes number bytes) (fun _ => .polled) takes

/-- How pouring bytes into an upload ends: some of them are taken, and then there are no more, the upload
refuses, it is not there, or it has no room although the tasks have gone on. -/
inductive Pours (number : Nat) (bytes : List UInt8) (gateway : Gateway σ) : Written × Gateway σ → Prop
  | whole {after : Gateway σ} (takes : gateway.Takes number bytes after) : Pours number bytes gateway (.whole, after)
  | refused {part : List UInt8} {byte : UInt8} {fault : Fault} {upload : Upload} {middle : Gateway σ}
      (begun : part ++ [byte] <+: bytes) (takes : gateway.Takes number part middle)
      (offered : middle.offerNow number byte = some (.refused fault upload)) :
    Pours number bytes gateway (.failed fault, middle.setUpload number upload)
  | unknown {part : List UInt8} {byte : UInt8} {middle : Gateway σ} (begun : part ++ [byte] <+: bytes)
      (takes : gateway.Takes number part middle) (missing : middle.offerNow number byte = none) :
    Pours number bytes gateway (.failed uploadClosed, middle)
  | blocked {part rest : List UInt8} {byte : UInt8} {middle : Gateway σ} (parted : part ++ byte :: rest = bytes)
      (takes : gateway.Takes number part middle) (full : middle.settle.offerNow number byte = some .full) :
    Pours number bytes gateway (.blocked (byte :: rest), middle.settle)

/-- A byte is offered at once, and once more when the tasks have gone on if there was no room. -/
theorem offer_cases (number : Nat) (byte : UInt8) (gateway : Gateway σ) :
    ∃ after, gateway.offer number byte = (after.offerNow number byte, after) ∧
      (after = gateway.settle ∨ after = gateway ∧ gateway.offerNow number byte ≠ some .full) := by
  rw [offer]
  split
  · exact ⟨gateway.settle, rfl, .inl rfl⟩
  · rename_i other
    exact ⟨gateway, rfl, .inr ⟨rfl, other⟩⟩

theorem Pours.after_byte {byte : UInt8} {result : Written × Gateway σ} (taken : gateway.Takes number [byte] middle)
    (pours : middle.Pours number bytes result) : gateway.Pours number (byte :: bytes) result := by
  cases pours with
  | whole takes => exact .whole (taken.trans takes)
  | refused begun takes offered => exact .refused ((List.prefix_cons_inj byte).2 begun) (taken.trans takes) offered
  | unknown begun takes missing => exact .unknown ((List.prefix_cons_inj byte).2 begun) (taken.trans takes) missing
  | blocked parted takes full => exact .blocked (congrArg (byte :: ·) parted) (taken.trans takes) full

theorem pour_pours (number : Nat) (bytes : List UInt8) (gateway : Gateway σ) :
    gateway.Pours number bytes (gateway.pour number bytes) := by
  induction bytes generalizing gateway with
  | nil => exact .whole .none
  | cons byte rest ih =>
      obtain ⟨middle, offered, waited⟩ := offer_cases number byte gateway
      have takes : gateway.Takes number [] middle := by
        rcases waited with rfl | ⟨rfl, _⟩
        · exact Takes.none.settled
        · exact .none
      have first : [] ++ [byte] <+: byte :: rest := (List.prefix_cons_inj byte).2 List.nil_prefix
      rw [pour, offered]
      rcases answer : middle.offerNow number byte with _ | upload | _ | ⟨fault, upload⟩
      · exact .unknown first takes answer
      · exact (ih _).after_byte (takes.taken answer)
      · rcases waited with rfl | ⟨rfl, room⟩
        · exact .blocked rfl .none answer
        · exact absurd answer room
      · exact .refused first takes answer

/-- How a write ends: nothing is written to an upload that is not there or takes nothing more; otherwise the bytes
are poured, and counted if all are taken. -/
inductive Writes (number : Nat) (chunk : List UInt8) (gateway : Gateway σ) : Written × Gateway σ → Prop
  | closed (closed : ∀ upload, gateway.upload? number = some upload → upload.writer ≠ .writing) :
    Writes number chunk gateway (.failed uploadClosed, gateway)
  | whole {upload : Upload} {after : Gateway σ} (found : gateway.upload? number = some upload)
      (writing : upload.writer = .writing) (takes : gateway.Takes number chunk after) :
    Writes number chunk gateway (.whole, after.countWritten number chunk.length)
  | stopped {upload : Upload} {written : Written} {after : Gateway σ} (found : gateway.upload? number = some upload)
      (writing : upload.writer = .writing) (short : written ≠ .whole)
      (pours : gateway.Pours number chunk (written, after)) : Writes number chunk gateway (written, after)

theorem write_writes (number : Nat) (chunk : List UInt8) (gateway : Gateway σ) :
    gateway.Writes number chunk (gateway.write number chunk) := by
  rw [write, writeRest]
  cases found : gateway.upload? number with
  | none =>
      refine .closed fun upload present => ?_
      cases found.symm.trans present
  | some upload =>
      dsimp only
      split
      · rename_i writing
        have pours := gateway.pour_pours number chunk
        rcases poured : gateway.pour number chunk with ⟨_ | fault | rest, after⟩ <;> rw [poured] at pours
        · cases pours with
          | whole takes => exact .whole found writing takes
        · exact .stopped found writing (fun same => nomatch same) pours
        · exact .stopped found writing (fun same => nomatch same) pours
      · rename_i closed
        refine .closed fun other present => ?_
        cases found.symm.trans present
        exact closed

end Writing

section Finishing

/-- Among some uploads that are polled in turn, one is polled when those before it have been. -/
theorem lookup_pollEach {uploads : List (Nat × Upload)} {upload : Upload}
    (found : uploads.lookup number = some upload) (store : σ) :
    ∃ earlier later, uploads = earlier ++ (number, upload) :: later ∧
      (pollEach uploads store).1.lookup number = some (upload.poll (pollEach earlier store).2.1).1 ∧
      (pollEach uploads store).2.1 = (pollEach later (upload.poll (pollEach earlier store).2.1).2).2.1 := by
  induction uploads generalizing store with
  | nil => cases found
  | cons entry rest ih =>
      obtain ⟨other, first⟩ := entry
      rw [List.lookup_cons] at found
      cases same : number == other with
      | true =>
          rw [same] at found
          cases found
          rw [beq_iff_eq] at same
          subst same
          exact ⟨[], rest, rfl, List.lookup_cons_self, rfl⟩
      | false =>
          rw [same] at found
          obtain ⟨earlier, later, rfl, polled, left⟩ := ih found (first.poll store).2
          refine ⟨(other, first) :: earlier, later, rfl, ?_, left⟩
          rw [pollEach]
          dsimp only
          rw [List.lookup_cons, same]
          exact polled

theorem upload?_pollAll {upload : Upload} (found : gateway.upload? number = some upload) :
    ∃ earlier later, gateway.uploads = earlier ++ (number, upload) :: later ∧
      gateway.pollAll.upload? number = some (upload.poll (pollEach earlier gateway.store).2.1).1 ∧
      gateway.pollAll.store = (pollEach later (upload.poll (pollEach earlier gateway.store).2.1).2).2.1 :=
  lookup_pollEach found gateway.store

/-- An upload in progress stays so while the tasks go on. -/
theorem upload?_settle {upload : Upload} (found : gateway.upload? number = some upload) :
    ∃ last, gateway.settle.upload? number = some last := by
  refine settle_keeps (fun middle => ∃ last, middle.upload? number = some last) ?_ ⟨upload, found⟩
  rintro middle ⟨last, found⟩
  obtain ⟨_, _, _, polled, _⟩ := upload?_pollAll found
  exact ⟨_, polled⟩

omit [RemoteStore σ] in
theorem upload?_setUpload {upload : Upload} (found : gateway.upload? number = some upload) (replacement : Upload) :
    (gateway.setUpload number replacement).upload? number = some replacement := by
  have each (uploads : List (Nat × Upload)) (found : uploads.lookup number = some upload) :
      (uploads.map fun entry => if entry.1 = number then (number, replacement) else entry).lookup number =
        some replacement := by
    induction uploads with
    | nil => cases found
    | cons entry rest ih =>
        obtain ⟨other, first⟩ := entry
        rw [List.map_cons]
        by_cases same : other = number
        · subst same
          rw [if_pos rfl, List.lookup_cons_self]
        · have differs : (number == other) = false := beq_false_of_ne (Ne.symm same)
          rw [if_neg same, List.lookup_cons, differs]
          rw [List.lookup_cons, differs] at found
          exact ih found
  exact each gateway.uploads found

/-- How ending an upload ends: it is not there, its failure is known already, or its body is ended and the tasks
go on, until there is the store's answer or nothing moves any more. -/
inductive Finishes (number : Nat) (gateway : Gateway σ) : Option (Except Fault Nat) × Gateway σ → Prop
  | unknown (missing : gateway.upload? number = none) : Finishes number gateway (some (.error answerGone), gateway)
  | broken {upload : Upload} (found : gateway.upload? number = some upload) (broken : upload.writer = .broken) :
    Finishes number gateway (some (.error answerGone), gateway.removeUpload number)
  | told {upload last : Upload} {outcome : Except Fault Nat} (found : gateway.upload? number = some upload)
      (whole : upload.writer ≠ .broken)
      (left : (gateway.setUpload number upload.endBody).settle.upload? number = some last)
      (told : last.outcome? = some outcome) :
    Finishes number gateway (some outcome, (gateway.setUpload number upload.endBody).settle.removeUpload number)
  | waits {upload last : Upload} (found : gateway.upload? number = some upload) (whole : upload.writer ≠ .broken)
      (left : (gateway.setUpload number upload.endBody).settle.upload? number = some last)
      (untold : last.outcome? = none) :
    Finishes number gateway (none, (gateway.setUpload number upload.endBody).settle)

theorem finish_finishes (number : Nat) (gateway : Gateway σ) :
    gateway.Finishes number (gateway.finish number) := by
  rw [finish]
  cases found : gateway.upload? number with
  | none => exact .unknown found
  | some upload =>
      dsimp only
      split
      · exact .broken found ‹_›
      · rename_i whole
        obtain ⟨last, left⟩ := upload?_settle (upload?_setUpload found upload.endBody)
        rw [left]
        cases told : last.outcome? with
        | none =>
            simp only [told]
            exact .waits found whole left told
        | some outcome =>
            simp only [told]
            exact .told found whole left told

end Finishing

section Steps

/-- One step of a gateway by which no upload begins or comes to its end: something is asked of the store, the tasks
go on, a writer does something, or a task lets go of its slot. -/
inductive Works (permitted : Call → Prop) : Gateway σ → Gateway σ → Prop
  | asked {gateway : Gateway σ} {store : σ} (clients : ClientCache)
      (reaches : Reaches permitted gateway.store store) : Works permitted gateway { gateway with store, clients }
  | polled {gateway : Gateway σ} : Works permitted gateway gateway.pollAll
  | edited {gateway : Gateway σ} {number : Nat} {upload after : Upload}
      (found : gateway.upload? number = some upload) (edits : upload.Edits after) :
    Works permitted gateway (gateway.setUpload number after)
  | letGo {gateway : Gateway σ} (number : Nat) : Works permitted gateway (gateway.letGo number)

/-- One step of a gateway. -/
inductive Steps (permitted : Call → Prop) : Gateway σ → Gateway σ → Prop
  | works {before after : Gateway σ} (works : before.Works permitted after) : Steps permitted before after
  | started {gateway : Gateway σ} {location : Location} {slots : Nat} (allowed : permitted (.put location))
      (free : gateway.freeSlots = slots + 1) (properties : Properties) (capacity : Nat) :
    Steps permitted gateway
      ({ gateway with freeSlots := slots }.startUpload location properties capacity).2
  | removed {gateway : Gateway σ} {number : Nat} {upload : Upload} (found : gateway.upload? number = some upload)
      (ended : upload.writer = .broken ∨ upload.isAnswered = true) :
    Steps permitted gateway (gateway.removeUpload number)
  | abandoned {gateway : Gateway σ} (number : Nat) : Steps permitted gateway (gateway.abandon number)

/-- Any number of steps by which no upload begins or comes to its end. -/
def WorksOn (permitted : Call → Prop) : Gateway σ → Gateway σ → Prop :=
  Relation.ReflTransGen (Works permitted)

/-- Any number of steps. -/
def Operates (permitted : Call → Prop) : Gateway σ → Gateway σ → Prop :=
  Relation.ReflTransGen (Steps permitted)

theorem WorksOn.operates (works : before.WorksOn permitted after) : before.Operates permitted after :=
  Relation.ReflTransGen.mono (fun _ _ => Steps.works) _ _ works

theorem settle_works (gateway : Gateway σ) : gateway.WorksOn permitted gateway.settle :=
  settle_keeps (gateway.WorksOn permitted) (fun _ works => works.tail .polled) .refl

theorem letAllGo_works (gateway : Gateway σ) : gateway.WorksOn permitted gateway.letAllGo := by
  rw [letAllGo]
  generalize gateway.leaving = given
  induction given generalizing gateway with
  | nil => exact .refl
  | cons number rest ih => exact .head (.letGo number) (ih _)

theorem slotAwaited_works (gateway : Gateway σ) : gateway.WorksOn permitted gateway.slotAwaited := by
  rw [slotAwaited]
  split
  · rw [awaitSlot]
    split
    · exact (gateway.letAllGo_works.trans (settle_works _)).trans (letAllGo_works _)
    · exact gateway.letAllGo_works
  · exact .refl

theorem Begins.operates {location : Location} {properties : Properties} {capacity : Nat}
    {result : Option (Except Fault Nat) × Gateway σ} (allowed : permitted (.put location))
    (begins : gateway.Begins location properties capacity result) : gateway.Operates permitted result.2 := by
  have waited : gateway.Operates permitted gateway.slotAwaited := gateway.slotAwaited_works.operates
  cases begins with
  | refused shut => exact .refl
  | begun accepts free => exact waited.tail (.started allowed free properties capacity)
  | waits accepts full => exact waited

theorem Takes.works (takes : gateway.Takes number bytes after) : gateway.WorksOn permitted after := by
  induction takes with
  | none => exact .refl
  | polled _ ih => exact ih.tail .polled
  | taken _ offered ih =>
      obtain ⟨upload, found, offered⟩ := Option.map_eq_some_iff.1 offered
      exact ih.tail (.edited found (.offered (by rw [offered]; rfl)))

theorem Pours.works {result : Written × Gateway σ} (pours : gateway.Pours number bytes result) :
    gateway.WorksOn permitted result.2 := by
  cases pours with
  | whole takes => exact takes.works
  | refused _ takes offered =>
      obtain ⟨upload, found, offered⟩ := Option.map_eq_some_iff.1 offered
      exact takes.works.tail (.edited found (.offered (by rw [offered]; rfl)))
  | unknown _ takes => exact takes.works
  | blocked _ takes => exact takes.works.trans (settle_works _)

theorem countWritten_works (number size : Nat) (gateway : Gateway σ) :
    gateway.WorksOn permitted (gateway.countWritten number size) := by
  rw [countWritten]
  split
  · exact .single (.edited ‹_› (.counted size))
  · exact .refl

theorem Writes.works {result : Written × Gateway σ} (writes : gateway.Writes number chunk result) :
    gateway.WorksOn permitted result.2 := by
  cases writes with
  | closed => exact .refl
  | whole _ _ takes => exact takes.works.trans (countWritten_works number _ _)
  | stopped _ _ _ pours => exact pours.works

theorem Finishes.operates {result : Option (Except Fault Nat) × Gateway σ} (finishes : gateway.Finishes number result) :
    gateway.Operates permitted result.2 := by
  have ended {upload : Upload} (found : gateway.upload? number = some upload) (whole : upload.writer ≠ .broken) :
      gateway.WorksOn permitted (gateway.setUpload number upload.endBody).settle :=
    .head (.edited found (.ended whole)) (settle_works _)
  cases finishes with
  | unknown => exact .refl
  | broken found broken => exact .single (.removed found (.inl broken))
  | @told upload last outcome found whole left told =>
      have answered : last.isAnswered = true := by
        obtain ⟨verdict, known, _⟩ := Option.map_eq_some_iff.1 told
        rw [Upload.isAnswered, known, Option.isSome_some]
      exact (ended found whole).operates.tail (.removed left (.inr answered))
  | waits found whole => exact (ended found whole).operates

theorem abandonSince_operates (mark : Nat) (gateway : Gateway σ) :
    gateway.Operates permitted (gateway.abandonSince mark) := by
  rw [abandonSince]
  generalize gateway.uploads.filter (fun entry => mark ≤ entry.1) = given
  induction given generalizing gateway with
  | nil => exact .refl
  | cons entry rest ih => exact .head (.abandoned entry.1) (ih _)

theorem attemptsFrom_reaches {α : Type} {operation : String} {call : StateM σ (Except Fault α)}
    (once : ∀ store, Reaches permitted store (call store).2) (left attempt : Nat) (store : σ) :
    Reaches permitted store
      (RetryPolicy.attemptsFrom operation (Pure.pure ()) call attempt left store).2 := by
  induction left generalizing attempt store with
  | zero =>
      have first := once store
      rw [attemptsFrom_apply]
      rcases called : call store with ⟨fault | value, after⟩ <;> rw [called] at first <;> exact first
  | succ left ih =>
      have first := once store
      rw [attemptsFrom_apply]
      rcases called : call store with ⟨fault | value, after⟩ <;> rw [called] at first
      · simp only
        split
        · exact first.trans (ih (attempt + 1) after)
        · exact first
      · exact first

theorem retrying_works {α : Type} {operation : String} {call : StateM σ (Except Fault α)}
    (once : ∀ store, Reaches permitted store (call store).2) (gateway : Gateway σ) :
    gateway.WorksOn permitted (gateway.retrying operation call).2 := by
  rw [retrying_eq]
  exact .single (.asked gateway.clients (attemptsFrom_reaches once _ _ _))

theorem useClient_works (repository : String) (gateway : Gateway σ) :
    gateway.WorksOn permitted (gateway.useClient repository) :=
  .single (.asked _ .refl)

theorem metadata_works (location : Location) (gateway : Gateway σ) :
    gateway.WorksOn permitted (gateway.metadata location).2 := by
  have used : gateway.WorksOn permitted _ := gateway.useClient_works location.repository
  simp only [metadata]
  split
  · exact used
  · exact used.trans (retrying_works (fun store => .single (.metadata location store)) _)

theorem content_works {location : Location} (allowed : permitted (.content location)) (gateway : Gateway σ) :
    gateway.WorksOn permitted (gateway.content location).2 :=
  (gateway.useClient_works location.repository).trans
    (retrying_works (fun store => .single (.content allowed store)) _)

end Steps

end Gateway

end ArtifactGate
