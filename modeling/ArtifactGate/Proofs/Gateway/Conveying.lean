import ArtifactGate.Proofs.Gateway.Relay
import ArtifactGate.Proofs.Gateway.InProgress
import ArtifactGate.Store.Script

/-!
What a gateway does with an upload is a relay: each poll of the task and each write or end of the writer is some
of its steps. So the order that a gateway keeps is one of the orders that no byte is lost in, and what the relay
has read and decided is what the store was given and has answered.
-/
namespace ArtifactGate

variable {σ : Type} [RemoteStore σ]

/-- A store with the answers it has given to uploads, each with the body that it was given for it. -/
structure AnsweredStore (σ : Type) where
  store : σ
  answers : List PutOutcome := []

namespace AnsweredStore

def noting {α : Type} (answered : AnsweredStore σ) (outcomes : List PutOutcome) (result : α × σ) :
    α × AnsweredStore σ :=
  (result.1, { store := result.2, answers := answered.answers ++ outcomes })

instance : RemoteStore (AnsweredStore σ) where
  metadata location answered := answered.noting [] (RemoteStore.metadata location answered.store)
  content location answered := answered.noting [] (RemoteStore.content location answered.store)
  openUpload location properties answered :=
    let result := RemoteStore.openUpload location properties answered.store
    answered.noting
      (match result.1 with
        | .error fault => [{ location, properties, result := .error fault }]
        | .ok () => [])
      result
  admitUpload location properties answered :=
    let result := RemoteStore.admitUpload location properties answered.store
    answered.noting
      (match result.1 with
        | some (.error fault) => [{ location, properties, result := .error fault }]
        | _ => [])
      result
  storeBody location properties bytes answered :=
    let result := RemoteStore.storeBody location properties bytes answered.store
    answered.noting [{ location, properties, bytes, result := result.1 }] result
  dropAdmitted answered := { answered with store := RemoteStore.dropAdmitted answered.store }
  listingDepth answered := RemoteStore.listingDepth answered.store

variable {location : Location} {properties : Properties} {before after : AnsweredStore σ} {fault : Fault}

theorem openUpload_error (opened : RemoteStore.openUpload location properties before = (.error fault, after)) :
    after.answers = before.answers ++ [{ location, properties, result := .error fault }] := by
  change before.noting _ (RemoteStore.openUpload location properties before.store) = _ at opened
  rcases result : RemoteStore.openUpload location properties before.store with ⟨_ | _, store⟩ <;>
    rw [result] at opened <;> cases opened
  rfl

theorem openUpload_ok (opened : RemoteStore.openUpload location properties before = (.ok (), after)) :
    after.answers = before.answers := by
  change before.noting _ (RemoteStore.openUpload location properties before.store) = _ at opened
  rcases result : RemoteStore.openUpload location properties before.store with ⟨_ | _, store⟩ <;>
    rw [result] at opened <;> cases opened
  exact List.append_nil _

theorem admitUpload_error
    (admitted : RemoteStore.admitUpload location properties before = (some (.error fault), after)) :
    after.answers = before.answers ++ [{ location, properties, result := .error fault }] := by
  change before.noting _ (RemoteStore.admitUpload location properties before.store) = _ at admitted
  rcases result : RemoteStore.admitUpload location properties before.store with ⟨_ | _ | _, store⟩ <;>
    rw [result] at admitted <;> cases admitted
  rfl

theorem admitUpload_silent {answer : Option (Except Fault Unit)} (silent : ∀ fault, answer ≠ some (.error fault))
    (admitted : RemoteStore.admitUpload location properties before = (answer, after)) :
    after.answers = before.answers := by
  change before.noting _ (RemoteStore.admitUpload location properties before.store) = _ at admitted
  rcases result : RemoteStore.admitUpload location properties before.store with ⟨_ | fault | _, store⟩ <;>
    rw [result] at admitted <;> cases admitted
  · exact List.append_nil _
  · exact absurd rfl (silent fault)
  · exact List.append_nil _

/-- A store forgets no answer. -/
theorem answers_of_moves {permitted : Call → Prop} (moves : Moves permitted before after) :
    before.answers <+: after.answers := by
  cases moves with
  | dropAdmitted => exact List.prefix_rfl
  | _ => exact List.prefix_append _ _

theorem answers_of_reaches {permitted : Call → Prop} (reaches : Reaches permitted before after) :
    before.answers <+: after.answers := by
  induction reaches with
  | refl => exact List.prefix_rfl
  | tail _ moves ih => exact ih.trans (answers_of_moves moves)

end AnsweredStore

/-- Writes chunks in turn and ends the body; the first operation that fails gives the result. -/
def Gateway.convey (number : Nat) : List (List UInt8) → Gateway σ → Option (Except Fault Nat) × Gateway σ
  | [], gateway => gateway.finish number
  | chunk :: later, gateway =>
    match gateway.write number chunk with
    | (.whole, gateway) => convey number later gateway
    | (.failed fault, gateway) => (some (.error fault), gateway)
    | (.blocked _, gateway) => (none, gateway)

namespace Relay

variable {relay middle after : Relay} {capacity : Nat} {chunks : List (List UInt8)}

/-- The writer can be told at once what the store has decided. -/
structure Level (relay : Relay) : Prop where
  told : relay.upload.verdict? = relay.verdict?
  listening : relay.listening = relay.verdict?.isNone

/-- What the store has decided, and on what body. -/
def outcomes (relay : Relay) : List PutOutcome :=
  relay.verdict?.toList.map fun result =>
    { location := relay.upload.location, properties := relay.upload.properties, bytes := relay.read, result }

/-- The task can make this of a relay, with the store that it leaves: what the store has answered since is what
the relay has decided since. -/
structure Becomes (relay : Relay) (store : AnsweredStore σ) (after : Relay) (left : AnsweredStore σ) : Prop where
  reached : relay.Reaches after
  stint : after.stint = relay.stint
  later : after.later = relay.later
  level : after.Level
  answers : ∃ decided, after.outcomes = relay.outcomes ++ decided ∧ left.answers = store.answers ++ decided

theorem begun_level (location : Location) (properties : Properties) (capacity : Nat)
    (chunks : List (List UInt8)) : (begun location properties capacity chunks).Level :=
  ⟨rfl, rfl⟩

section Becomes

variable {store left last : AnsweredStore σ}

omit [RemoteStore σ] in
theorem Becomes.refl (level : relay.Level) (store : AnsweredStore σ) : relay.Becomes store relay store :=
  ⟨.refl, rfl, rfl, level, [], (List.append_nil _).symm, (List.append_nil _).symm⟩

omit [RemoteStore σ] in
theorem Becomes.trans (start : relay.Becomes store middle left) (rest : middle.Becomes left after last) :
    relay.Becomes store after last := by
  obtain ⟨first, decided, answered⟩ := start.answers
  obtain ⟨second, decidedToo, answeredToo⟩ := rest.answers
  refine ⟨start.reached.trans rest.reached, rest.stint.trans start.stint, rest.later.trans start.later, rest.level,
    first ++ second, ?_, ?_⟩
  · rw [decidedToo, decided, List.append_assoc]
  · rw [answeredToo, answered, List.append_assoc]

omit [RemoteStore σ] in
/-- A step of the task by which nothing is decided, while the store answers nothing. -/
theorem Becomes.silent (moves : relay.Moves after) (stint : after.stint = relay.stint)
    (later : after.later = relay.later) (level : after.Level) (undecided : after.outcomes = relay.outcomes)
    (silent : left.answers = store.answers) : relay.Becomes store after left :=
  ⟨.single moves, stint, later, level, [], undecided.trans (List.append_nil _).symm,
    silent.trans (List.append_nil _).symm⟩

theorem Level.undecided (level : relay.Level) (unanswered : relay.upload.verdict? = none) :
    relay.verdict? = none ∧ relay.listening = true ∧ relay.outcomes = [] := by
  have undecided : relay.verdict? = none := level.told.symm.trans unanswered
  refine ⟨undecided, level.listening.trans (congrArg Option.isNone undecided), ?_⟩
  rw [outcomes, undecided]
  rfl

omit [RemoteStore σ] in
/-- The store decides on what it has read, and the writer can be told. -/
theorem Level.becomes_answer (level : relay.Level) (verdict : Except Fault Unit)
    (unanswered : relay.upload.verdict? = none) (earned : verdict = .ok () → relay.sawEnd = true)
    (answered : left.answers = store.answers ++
      [{ location := relay.upload.location, properties := relay.upload.properties, bytes := relay.read,
         result := verdict }]) :
    ∃ after, relay.Becomes store after left ∧ after.upload = relay.upload.answer verdict := by
  obtain ⟨undecided, _, none⟩ := level.undecided unanswered
  refine ⟨{ relay with
    upload := relay.upload.answer verdict, listening := false, verdict? := some verdict }, ?_, rfl⟩
  refine ⟨.tail (.single (.decides undecided earned)) (.tells rfl), rfl, rfl, ⟨rfl, rfl⟩, _, ?_, answered⟩
  rw [none]
  rfl

end Becomes

section Task

variable (level : relay.Level) (sound : relay.Sound capacity chunks) (store : AnsweredStore σ)

include level sound

theorem Level.becomes_storeComplete {body : ByteQueue} (reading : relay.upload.stage = .reading body)
    (drained : relay.upload.pipe.toList = []) :
    ∃ after, relay.Becomes store after (relay.upload.storeComplete store).2 ∧
      after.upload = (relay.upload.storeComplete store).1 := by
  have unanswered : relay.upload.verdict? = none := by rw [Upload.verdict?, reading]
  rw [Upload.storeComplete, reading]
  rcases closed : relay.upload.writer with _ | _ | _
  · exact ⟨relay, .refl level store, rfl⟩
  · obtain ⟨undecided, heard, _⟩ := level.undecided unanswered
    have still : Level { relay with sawEnd := true } := ⟨level.told, level.listening⟩
    have seen : relay.Becomes store { relay with sawEnd := true } store :=
      .silent (.ends reading heard drained closed) rfl rfl still rfl rfl
    have answered : (RemoteStore.storeBody relay.upload.location relay.upload.properties body.toList store).2.answers =
        store.answers ++ [{
          location := relay.upload.location, properties := relay.upload.properties, bytes := relay.read,
          result := (RemoteStore.storeBody relay.upload.location relay.upload.properties body.toList store).1 }] := by
      rw [← sound.reading body reading]
      rfl
    obtain ⟨after, becomes, same⟩ := still.becomes_answer _ unanswered (fun _ => rfl) answered
    exact ⟨after, seen.trans becomes, same⟩
  · exact ⟨relay, .refl level store, rfl⟩

theorem Level.becomes_drain {body : ByteQueue} (reading : relay.upload.stage = .reading body) :
    ∃ after, relay.Becomes store after (relay.upload.drain body store).2 ∧
      after.upload = (relay.upload.drain body store).1 := by
  have unanswered : relay.upload.verdict? = none := by rw [Upload.verdict?, reading]
  obtain ⟨undecided, heard, none⟩ := level.undecided unanswered
  have parted : relay.upload.pipe.toList = relay.upload.pipe.toList ++ ByteQueue.empty.toList :=
    (List.append_nil _).symm
  have reads : relay.Moves (relay.drained body) := .reads reading heard parted
  have still : (relay.drained body).Level := ⟨undecided.symm, level.listening⟩
  have drained : relay.Becomes store (relay.drained body) store := by
    refine .silent reads rfl rfl still ?_ rfl
    rw [none, outcomes, drained, undecided]
    rfl
  obtain ⟨after, becomes, same⟩ := still.becomes_storeComplete (sound.move reads) store rfl rfl
  exact ⟨after, drained.trans becomes, same⟩

theorem Level.becomes_enter (idle : relay.upload.stage = .unstarted ∨ relay.upload.stage = .waiting) :
    ∃ after, relay.Becomes store after (relay.upload.enter store).2 ∧
      after.upload = (relay.upload.enter store).1 := by
  have unanswered : relay.upload.verdict? = none := by
    rcases idle with stage | stage <;> rw [Upload.verdict?, stage]
  obtain ⟨undecided, _, none⟩ := level.undecided unanswered
  have unmoved (moved : Relay) (same : moved.verdict? = relay.verdict?) : moved.outcomes = relay.outcomes := by
    rw [none, outcomes, same, undecided]
    rfl
  rw [Upload.enter]
  split <;> rename_i left admitted
  · have silent := AnsweredStore.admitUpload_silent (fun _ same => by cases same) admitted
    rcases idle with stage | stage
    · exact ⟨_, .silent (.waits stage) rfl rfl ⟨undecided.symm, level.listening⟩ (unmoved _ rfl) silent, rfl⟩
    · have same : ({ relay.upload with stage := .waiting } : Upload) = relay.upload := by rw [← stage]
      rw [same]
      exact ⟨relay, ⟨.refl, rfl, rfl, level, [], (List.append_nil _).symm, silent.trans (List.append_nil _).symm⟩, rfl⟩
  · refine level.becomes_answer _ unanswered (fun accepted => by cases accepted) ?_
    rw [sound.unread idle]
    exact AnsweredStore.admitUpload_error admitted
  · have opens : relay.Moves { relay with upload := { relay.upload with stage := .reading .empty } } := .opens idle
    have still : Level { relay with upload := { relay.upload with stage := .reading .empty } } :=
      ⟨undecided.symm, level.listening⟩
    have opened : relay.Becomes store _ left :=
      .silent opens rfl rfl still (unmoved _ rfl)
        (AnsweredStore.admitUpload_silent (fun _ same => by cases same) admitted)
    obtain ⟨after, becomes, same⟩ := still.becomes_drain (sound.move opens) left rfl
    exact ⟨after, opened.trans becomes, same⟩

theorem Level.becomes_poll :
    ∃ after, relay.Becomes store after (relay.upload.poll store).2 ∧ after.upload = (relay.upload.poll store).1 := by
  rw [Upload.poll]
  rcases stage : relay.upload.stage with _ | _ | body | verdict
  · have unanswered : relay.upload.verdict? = none := by rw [Upload.verdict?, stage]
    dsimp only
    split <;> rename_i left opened
    · refine level.becomes_answer _ unanswered (fun accepted => by cases accepted) ?_
      rw [sound.unread (.inl stage)]
      exact AnsweredStore.openUpload_error opened
    · obtain ⟨after, becomes, same⟩ := level.becomes_enter sound left (.inl stage)
      obtain ⟨decided, outcomes, answers⟩ := becomes.answers
      rw [AnsweredStore.openUpload_ok opened] at answers
      exact ⟨after, { becomes with answers := ⟨decided, outcomes, answers⟩ }, same⟩
  · exact level.becomes_enter sound store (.inr stage)
  · exact level.becomes_drain sound store stage
  · exact ⟨relay, .refl level store, rfl⟩

end Task

end Relay

namespace Gateway

open Relay

variable {gateway after : Gateway (AnsweredStore σ)} {number : Nat} {upload : Upload} {relay next : Relay}
  {chunks : List (List UInt8)} {capacity : Nat} {before : List PutOutcome} {alone : Prop}

/-- What a relay has decided is among what a store has answered since it had given these answers; an upload that
is alone is all that the store has answered. -/
def Attests (before : List PutOutcome) (alone : Prop) (relay : Relay) (store : AnsweredStore σ) : Prop :=
  ∃ since, store.answers = before ++ since ∧ relay.outcomes.Sublist since ∧ (alone → since = relay.outcomes)

/-- The upload of a gateway is as far as a relay is, and so is the store. -/
structure Relayed (number capacity : Nat) (chunks : List (List UInt8)) (before : List PutOutcome) (alone : Prop)
    (gateway : Gateway (AnsweredStore σ)) (relay : Relay) : Prop where
  found : gateway.upload? number = some relay.upload
  level : relay.Level
  sound : relay.Sound capacity chunks
  single : alone → gateway.numbers = [number]
  attests : Attests before alone relay gateway.store

/-- A relay can come to this result, and to what the store has answered. -/
def Concludes (before : List PutOutcome) (alone : Prop) (relay : Relay) (result : Except Fault Nat)
    (store : AnsweredStore σ) : Prop :=
  ∃ next, relay.Reaches next ∧ next.stint = .over result ∧ Attests before alone next store

omit [RemoteStore σ] in
theorem Concludes.of_reaches {result : Except Fault Nat} {store : AnsweredStore σ} (reached : relay.Reaches next)
    (concludes : Concludes before alone next result store) : Concludes before alone relay result store := by
  obtain ⟨last, further, finished, attests⟩ := concludes
  exact ⟨last, reached.trans further, finished, attests⟩

theorem pollEach_answers (uploads : List (Nat × Upload)) (store : AnsweredStore σ) :
    store.answers <+: (pollEach uploads store).2.1.answers := by
  have reached : Reaches (fun _ => True) store (pollEach uploads store).2.1 :=
    (pollEach_reaches (fun _ _ => trivial) store).2
  exact AnsweredStore.answers_of_reaches reached

theorem Relayed.pollAll (relayed : gateway.Relayed number capacity chunks before alone relay) :
    ∃ next, relay.Reaches next ∧ next.stint = relay.stint ∧ next.later = relay.later ∧
      gateway.pollAll.Relayed number capacity chunks before alone next := by
  obtain ⟨earlier, later, uploads, polled, left⟩ := upload?_pollAll relayed.found
  obtain ⟨next, becomes, same⟩ := relayed.level.becomes_poll relayed.sound (pollEach earlier gateway.store).2.1
  obtain ⟨since, answered, among, all⟩ := relayed.attests
  obtain ⟨decided, outcomes, answers⟩ := becomes.answers
  obtain ⟨others, grown⟩ := pollEach_answers earlier gateway.store
  obtain ⟨rest, grownToo⟩ := pollEach_answers later (relay.upload.poll (pollEach earlier gateway.store).2.1).2
  have numbers : gateway.pollAll.numbers = gateway.numbers := pollEach_numbers _ _
  have whole : gateway.pollAll.store.answers = before ++ (since ++ others ++ decided ++ rest) := by
    rw [left, ← grownToo, answers, ← grown, answered]
    simp only [List.append_assoc]
  refine ⟨next, becomes.reached, becomes.stint, becomes.later, same ▸ polled, becomes.level,
    relayed.sound.reaches becomes.reached, fun single => numbers.trans (relayed.single single), _, whole, ?_, ?_⟩
  · rw [outcomes, List.append_assoc, List.append_assoc]
    exact among.append ((List.sublist_append_left decided rest).trans (List.sublist_append_right others _))
  · intro single
    have only := relayed.single single
    rw [Gateway.numbers, uploads, List.map_append, List.map_cons] at only
    obtain ⟨none, noneToo⟩ : earlier = [] ∧ later = [] := by
      cases earlier with
      | nil => exact ⟨rfl, List.map_eq_nil_iff.1 (List.cons.inj only).2⟩
      | cons entry earlier => exact absurd (List.cons.inj only).2 (List.append_ne_nil_of_right_ne_nil _ (by simp))
    subst none noneToo
    have silent : others = [] := List.append_right_eq_self.1 grown
    have silentToo : rest = [] := List.append_right_eq_self.1 grownToo
    rw [outcomes, all single, silent, silentToo, List.append_nil, List.append_nil]

theorem Relayed.settle (relayed : gateway.Relayed number capacity chunks before alone relay) :
    ∃ next, relay.Reaches next ∧ next.stint = relay.stint ∧ next.later = relay.later ∧
      gateway.settle.Relayed number capacity chunks before alone next := by
  refine settle_keeps (fun middle => ∃ next, relay.Reaches next ∧ next.stint = relay.stint ∧
    next.later = relay.later ∧ middle.Relayed number capacity chunks before alone next) ?_
    ⟨relay, .refl, rfl, rfl, relayed⟩
  rintro middle ⟨next, reached, stint, later, relayed⟩
  obtain ⟨last, further, sameStint, sameLater, polled⟩ := relayed.pollAll
  exact ⟨last, reached.trans further, sameStint.trans stint, sameLater.trans later, polled⟩

omit [RemoteStore σ] in
/-- The writer does something by which the store decides nothing. -/
theorem Relayed.setUpload (relayed : gateway.Relayed number capacity chunks before alone relay)
    (reached : relay.Reaches next) (level : next.Level) (same : next.outcomes = relay.outcomes) :
    (gateway.setUpload number next.upload).Relayed number capacity chunks before alone next where
  found := upload?_setUpload relayed.found next.upload
  level := level
  sound := relayed.sound.reaches reached
  single only := (setUpload_undisturbed gateway number next.upload).numbers.trans (relayed.single only)
  attests := by
    have attests := relayed.attests
    rw [Attests, ← same] at attests
    exact attests

section Writing

variable {byte : UInt8} {rest part chunk : List UInt8} {size : Nat} {later : List (List UInt8)}

omit [RemoteStore σ] in
theorem Relayed.taken (relayed : gateway.Relayed number capacity chunks before alone relay)
    (midst : relay.stint = .writing (byte :: rest) size)
    (taken : gateway.offerNow number byte = some (.taken upload)) :
    ∃ next, relay.Reaches next ∧ next.stint = .writing rest size ∧ next.later = relay.later ∧
      (gateway.setUpload number upload).Relayed number capacity chunks before alone next := by
  rw [offerNow, relayed.found, Option.map_some, Option.some.injEq] at taken
  obtain ⟨unanswered, _, same⟩ := Upload.offer_taken taken
  obtain ⟨undecided, heard, _⟩ := relayed.level.undecided unanswered
  have reached : relay.Reaches { relay with upload, stint := .writing rest size } := .single (.writes midst heard taken)
  refine ⟨_, reached, rfl, rfl, relayed.setUpload reached ?_ ?_⟩ <;> subst same
  · exact ⟨relayed.level.told, relayed.level.listening⟩
  · rfl

omit [RemoteStore σ] in
theorem Relayed.refused {fault : Fault} (relayed : gateway.Relayed number capacity chunks before alone relay)
    (midst : relay.stint = .writing (byte :: rest) size)
    (refused : gateway.offerNow number byte = some (.refused fault upload)) :
    Concludes before alone relay (.error fault) gateway.store := by
  rw [offerNow, relayed.found, Option.map_some, Option.some.injEq] at refused
  obtain ⟨verdict, answered, rfl, rfl⟩ := Upload.offer_refused refused
  have decided : relay.verdict? = some verdict := relayed.level.told.symm.trans answered
  have deaf : relay.listening = false := relayed.level.listening.trans (congrArg Option.isNone decided)
  exact ⟨_, .tail (.single (.breaks midst deaf)) (.fails rfl answered), rfl, relayed.attests⟩

/-- Each byte that is taken is a step of the writer, and each poll one or more of the task. -/
theorem Takes.relayed (takes : gateway.Takes number part after)
    (relayed : gateway.Relayed number capacity chunks before alone relay)
    (midst : relay.stint = .writing (part ++ rest) size) :
    ∃ next, relay.Reaches next ∧ next.stint = .writing rest size ∧ next.later = relay.later ∧
      after.Relayed number capacity chunks before alone next := by
  induction takes generalizing rest with
  | none => exact ⟨relay, .refl, midst, rfl, relayed⟩
  | polled _ ih =>
      obtain ⟨middle, reached, writing, later, still⟩ := ih midst
      obtain ⟨next, further, stint, sameLater, polled⟩ := still.pollAll
      exact ⟨next, reached.trans further, stint.trans writing, sameLater.trans later, polled⟩
  | taken _ offered ih =>
      rw [List.append_assoc] at midst
      obtain ⟨middle, reached, writing, later, still⟩ := ih midst
      obtain ⟨next, further, stint, sameLater, taken⟩ := still.taken writing offered
      exact ⟨next, reached.trans further, stint, sameLater.trans later, taken⟩

theorem Pours.relayed {fault : Fault} (pours : gateway.Pours number chunk (.failed fault, after))
    (relayed : gateway.Relayed number capacity chunks before alone relay)
    (midst : relay.stint = .writing chunk size) : Concludes before alone relay (.error fault) after.store := by
  cases pours with
  | refused begun takes offered =>
      obtain ⟨rest, rfl⟩ := begun
      rw [List.append_assoc] at midst
      obtain ⟨next, reached, writing, _, still⟩ := takes.relayed relayed midst
      exact Concludes.of_reaches reached (still.refused writing offered)
  | unknown begun takes missing =>
      obtain ⟨rest, rfl⟩ := begun
      rw [List.append_assoc] at midst
      obtain ⟨next, _, _, _, still⟩ := takes.relayed relayed midst
      rw [offerNow, still.found] at missing
      cases missing

/-- A write is a chunk of the relay. -/
theorem Relayed.write (relayed : gateway.Relayed number capacity chunks before alone relay)
    (free : relay.stint = .between) (left : relay.later = chunk :: later) :
    match gateway.write number chunk with
    | (.whole, after) => ∃ next, relay.Reaches next ∧ next.stint = .between ∧ next.later = later ∧
        after.Relayed number capacity chunks before alone next
    | (.failed fault, after) => Concludes before alone relay (.error fault) after.store
    | (.blocked _, _) => True := by
  let begun : Relay := { relay with stint := .writing chunk chunk.length, later }
  have begins : relay.Reaches begun := .single (.begins free left)
  have still : gateway.Relayed number capacity chunks before alone begun :=
    ⟨relayed.found, ⟨relayed.level.told, relayed.level.listening⟩, relayed.sound.reaches begins, relayed.single,
      relayed.attests⟩
  have writes := gateway.write_writes number chunk
  revert writes
  generalize gateway.write number chunk = result
  intro writes
  cases writes with
  | closed closed => exact absurd (relayed.sound.standing_between free).1 (closed _ relayed.found)
  | whole found writing takes =>
      have midst : begun.stint = .writing (chunk ++ []) chunk.length := by rw [List.append_nil]
      obtain ⟨last, reached, written, sameLater, relayed⟩ := takes.relayed still midst
      have accepted := (begins.trans reached).tail (.accepts written)
      rw [countWritten, relayed.found]
      exact ⟨_, accepted, rfl, sameLater, relayed.setUpload (.single (.accepts written))
        ⟨relayed.level.told, relayed.level.listening⟩ rfl⟩
  | @stopped _ written after _ _ short pours =>
      cases written with
      | whole => exact absurd rfl short
      | failed fault => exact Concludes.of_reaches begins (pours.relayed still rfl)
      | blocked rest => trivial

theorem Relayed.finish (relayed : gateway.Relayed number capacity chunks before alone relay)
    (free : relay.stint = .between) (last : relay.later = []) :
    match gateway.finish number with
    | (some result, after) => Concludes before alone relay result after.store
    | (none, _) => True := by
  have writing := (relayed.sound.standing_between free).1
  let closed : Relay := { relay with upload := relay.upload.endBody, stint := .ending }
  have closes : relay.Reaches closed := .single (.closes free last)
  have ended : (gateway.setUpload number closed.upload).Relayed number capacity chunks before alone closed :=
    relayed.setUpload closes ⟨relayed.level.told, relayed.level.listening⟩ rfl
  obtain ⟨next, settled, ending, _, waited⟩ := ended.settle
  have finishes := gateway.finish_finishes number
  revert finishes
  generalize gateway.finish number = result
  intro finishes
  cases finishes with
  | unknown missing => cases relayed.found.symm.trans missing
  | broken found broken =>
      cases relayed.found.symm.trans found
      cases writing.symm.trans broken
  | told found _ left told =>
      cases relayed.found.symm.trans found
      cases waited.found.symm.trans left
      exact ⟨_, (closes.trans settled).tail (.learns ending told), rfl, waited.attests⟩
  | waits => trivial

theorem Relayed.convey (relayed : gateway.Relayed number capacity chunks before alone relay)
    (free : relay.stint = .between) (left : relay.later = later) {result : Except Fault Nat}
    (conveyed : gateway.convey number later = (some result, after)) :
    Concludes before alone relay result after.store := by
  induction later generalizing gateway relay with
  | nil =>
      have finished := relayed.finish free left
      rw [Gateway.convey] at conveyed
      rw [conveyed] at finished
      exact finished
  | cons chunk later ih =>
      have written := relayed.write free left
      rw [Gateway.convey] at conveyed
      rcases outcome : gateway.write number chunk with ⟨_ | fault | rest, middle⟩ <;>
        simp only [outcome] at written conveyed
      · obtain ⟨next, reached, between, still, relayed⟩ := written
        exact Concludes.of_reaches reached (ih relayed between still conveyed)
      · cases conveyed
        exact written
      · cases conveyed

end Writing

end Gateway

namespace Relay

variable {capacity : Nat} {chunks : List (List UInt8)} {relay : Relay}

/-- What can be relied on at every moment of an upload of these chunks through a pipe of this capacity. -/
structure Faithful (capacity : Nat) (chunks : List (List UInt8)) (relay : Relay) : Prop where
  read : relay.read <+: chunks.flatten
  piped : relay.upload.pipe.size ≤ capacity
  /-- What the task hands on is what the store has read. -/
  body : ∀ body, relay.upload.stage = .reading body → body.toList = relay.read
  sawEnd : relay.sawEnd = true → relay.Closed chunks ∧ relay.read = chunks.flatten
  accepted : ∀ size, relay.stint = .over (.ok size) →
    relay.verdict? = some (.ok ()) ∧ size = chunks.flatten.length ∧ relay.read = chunks.flatten
  refused : ∀ fault, relay.stint = .over (.error fault) →
    ∃ cause, relay.verdict? = some (.error cause) ∧ fault = .uploadFailed cause
  /-- Once the store has failed the upload, that is the writer's result, whenever it comes; and it can come. -/
  failed : ∀ cause, relay.verdict? = some (.error cause) →
    (∀ after result, relay.Reaches after → after.stint = .over result → result = .error (.uploadFailed cause)) ∧
      ∃ after, relay.Reaches after ∧ after.stint = .over (.error (.uploadFailed cause))
  /-- As long as the store listens, the upload can succeed. -/
  listening : relay.listening = true →
    ∃ after, relay.Reaches after ∧ after.stint = .over (.ok chunks.flatten.length)

theorem Moves.place {after : Relay} (moves : relay.Moves after) :
    after.upload.location = relay.upload.location ∧ after.upload.properties = relay.upload.properties := by
  cases moves with
  | writes _ _ taken =>
      obtain ⟨_, _, rfl⟩ := Upload.offer_taken taken
      exact ⟨rfl, rfl⟩
  | _ => exact ⟨rfl, rfl⟩

theorem Reaches.place {after : Relay} (reaches : relay.Reaches after) :
    after.upload.location = relay.upload.location ∧ after.upload.properties = relay.upload.properties := by
  induction reaches with
  | refl => exact ⟨rfl, rfl⟩
  | tail _ moves ih => exact ⟨moves.place.1.trans ih.1, moves.place.2.trans ih.2⟩

theorem Faithful.decided {result : Except Fault Nat} (faithful : relay.Faithful capacity chunks)
    (finished : relay.stint = .over result) : ∃ verdict, relay.verdict? = some verdict := by
  cases result with
  | ok size => exact ⟨_, (faithful.accepted size finished).1⟩
  | error fault =>
      obtain ⟨cause, failed, _⟩ := faithful.refused fault finished
      exact ⟨_, failed⟩

theorem Sound.read_of_sawEnd (sound : relay.Sound capacity chunks) (seen : relay.sawEnd = true) :
    relay.Closed chunks ∧ relay.read = chunks.flatten := by
  obtain ⟨ended, drained⟩ := sound.sawEnd seen
  have closed := sound.standing.closed ended
  refine ⟨closed, ?_⟩
  rw [← closed.sent, sent, drained, List.append_nil]

theorem Sound.faithful (sound : relay.Sound capacity chunks) (room : 0 < capacity) :
    relay.Faithful capacity chunks where
  read := (List.prefix_append _ _).trans sound.standing.sent_isPrefix
  piped := sound.bounded
  body := sound.reading
  sawEnd := sound.read_of_sawEnd
  accepted size finished := by
    have standing := sound.standing
    rw [Standing, finished] at standing
    obtain ⟨_, accepted, whole⟩ := standing
    exact ⟨accepted, whole, (sound.read_of_sawEnd (sound.earned accepted)).2⟩
  refused fault finished := by
    have standing := sound.standing
    rw [Standing, finished] at standing
    exact standing.2
  failed cause failed := by
    have told (after : Relay) (result : Except Fault Nat) (reached : relay.Reaches after)
        (finished : after.stint = .over result) : result = .error (.uploadFailed cause) :=
      (sound.reaches reached).result (reached.keeps_verdict failed) finished
    obtain ⟨after, result, reached, finished⟩ := sound.can_end failed
    exact ⟨told, after, reached, told after result reached finished ▸ finished⟩
  listening heard := sound.can_succeed room heard

end Relay

/-- An upload is a pipe that loses nothing and has one verdict, in every order of the writer's and the task's
steps. And what a gateway makes of the chunks, whatever its store and whatever else is in progress, is the result
of one of these orders; what the store has read in it and decided is what the gateway's store was given for the
upload and has answered, and if nothing else is in progress the store has answered nothing else. -/
theorem uploads_convey_faithfully {capacity : Nat} (room : 0 < capacity) (location : Location)
    (properties : Properties) (chunks : List (List UInt8)) :
    (∀ relay, (Relay.begun location properties capacity chunks).Reaches relay → relay.Faithful capacity chunks) ∧
      ∀ (gateway after : Gateway (AnsweredStore σ)) (number : Nat),
        gateway.upload? number = some { location, properties, capacity } →
        ∀ result, gateway.convey number chunks = (some result, after) →
          ∃ relay verdict since, (Relay.begun location properties capacity chunks).Reaches relay ∧
            relay.stint = .over result ∧ relay.verdict? = some verdict ∧
            after.store.answers = gateway.store.answers ++ since ∧
            ⟨location, properties, relay.read, verdict⟩ ∈ since ∧
            (gateway.numbers = [number] → since = [⟨location, properties, relay.read, verdict⟩]) := by
  have sound := Relay.begun_sound location properties capacity chunks
  have faithful (relay : Relay) (reached : (Relay.begun location properties capacity chunks).Reaches relay) :
      relay.Faithful capacity chunks := (sound.reaches reached).faithful room
  refine ⟨faithful, ?_⟩
  intro gateway after number found result conveyed
  have begun : gateway.Relayed number capacity chunks gateway.store.answers (gateway.numbers = [number])
      (Relay.begun location properties capacity chunks) :=
    ⟨found, Relay.begun_level location properties capacity chunks, sound, id, [], (List.append_nil _).symm,
      List.Sublist.refl _, fun _ => rfl⟩
  obtain ⟨relay, reached, finished, since, answered, among, all⟩ := begun.convey rfl rfl conveyed
  obtain ⟨verdict, decided⟩ := (faithful relay reached).decided finished
  have outcomes : relay.outcomes = [⟨location, properties, relay.read, verdict⟩] := by
    obtain ⟨place, given⟩ := Relay.Reaches.place reached
    rw [Relay.outcomes, decided, place, given]
    rfl
  rw [outcomes] at among all
  exact ⟨relay, verdict, since, reached, finished, decided, answered, List.singleton_sublist.1 among, all⟩

/-- Three bytes in two chunks go through a pipe of one byte. -/
theorem uploads_convey_faithfully_bytewise :
    let gateway : Gateway (AnsweredStore MemoryStore) :=
      ((Gateway.new {} { store := {} } (fun _ _ _ => true) ⟨0, 0⟩).startUpload ⟨"libs", "a"⟩ .empty 1).2
    (gateway.convey 0 [[104, 105], [10]]).1 = some (.ok 3) ∧
      (gateway.convey 0 [[104, 105], [10]]).2.store.answers =
        [{ location := ⟨"libs", "a"⟩, properties := .empty, bytes := [104, 105, 10], result := .ok () }] := by
  intro gateway
  have size : (gateway.convey 0 [[104, 105], [10]]).1.map Except.toOption = some (some 3) := by decide +kernel
  have begun : gateway.upload? 0 = some { location := ⟨"libs", "a"⟩, properties := .empty, capacity := 1 } := by rfl
  obtain ⟨_ | size, conveyed, same⟩ := Option.map_eq_some_iff.1 size <;> cases same
  obtain ⟨faithful, conveys⟩ :=
    uploads_convey_faithfully (σ := MemoryStore) Nat.one_pos ⟨"libs", "a"⟩ .empty [[104, 105], [10]]
  generalize ran : gateway.convey 0 [[104, 105], [10]] = last at conveyed ⊢
  obtain ⟨result, after⟩ := last
  subst conveyed
  obtain ⟨relay, verdict, since, reached, finished, decided, answered, _, all⟩ :=
    conveys gateway after 0 begun (.ok 3) ran
  obtain ⟨accepted, _, whole⟩ := (faithful relay reached).accepted 3 finished
  cases decided.symm.trans accepted
  have first : gateway.store.answers = [] := by rfl
  have alone : gateway.numbers = [0] := by rfl
  rw [answered, first, all alone, whole]
  exact ⟨rfl, rfl⟩

end ArtifactGate
