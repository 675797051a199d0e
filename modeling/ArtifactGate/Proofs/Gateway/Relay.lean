import ArtifactGate.Proofs.Gateway.Operations

/-!
The two ends of an upload, step by step and in any order. The writer puts its chunks into the pipe byte by byte,
as long as there is room; the task reads what is in the pipe in parts of any size, and may give up at any moment.
What the store has decided is known to the task first, and to the writer when it is told. No order of the steps
loses a byte, lets the store see the end of a body that is not whole, or gives the writer another verdict than
the store's.
-/
namespace ArtifactGate

/-- How far the writer has come. -/
inductive Stint
  | between
  | writing (rest : List UInt8) (size : Nat)
  /-- The pipe has broken, and the writer waits to be told why. -/
  | refused
  | ending
  | over (result : Except Fault Nat)

structure Relay where
  upload : Upload
  /-- The chunks that the writer has not come to. -/
  later : List (List UInt8)
  stint : Stint := .between
  /-- What the store has read of the body. -/
  read : List UInt8 := []
  sawEnd : Bool := false
  /-- The store has not let go of the body. -/
  listening : Bool := true
  /-- What the store has decided, whether the writer has been told or not. -/
  verdict? : Option (Except Fault Unit) := none

namespace Relay

/-- A step of the writer or of the task. The store may give up at any moment, but accepts only a body that it has
read to its end. -/
inductive Moves : Relay → Relay → Prop
  | begins {relay : Relay} {chunk : List UInt8} {later : List (List UInt8)} (free : relay.stint = .between)
      (next : relay.later = chunk :: later) :
    Moves relay { relay with stint := .writing chunk chunk.length, later }
  | writes {relay : Relay} {upload : Upload} {byte : UInt8} {rest : List UInt8} {size : Nat}
      (midst : relay.stint = .writing (byte :: rest) size) (heard : relay.listening = true)
      (taken : relay.upload.offer byte = .taken upload) :
    Moves relay { relay with upload, stint := .writing rest size }
  | accepts {relay : Relay} {size : Nat} (written : relay.stint = .writing [] size) :
    Moves relay { relay with
      upload := { relay.upload with written := relay.upload.written + size }, stint := .between }
  | breaks {relay : Relay} {byte : UInt8} {rest : List UInt8} {size : Nat}
      (midst : relay.stint = .writing (byte :: rest) size) (deaf : relay.listening = false) :
    Moves relay { relay with upload := { relay.upload with writer := .broken }, stint := .refused }
  | fails {relay : Relay} {verdict : Except Fault Unit} (refused : relay.stint = .refused)
      (told : relay.upload.verdict? = some verdict) :
    Moves relay { relay with stint := .over (.error (Upload.failure verdict)) }
  | closes {relay : Relay} (free : relay.stint = .between) (last : relay.later = []) :
    Moves relay { relay with upload := relay.upload.endBody, stint := .ending }
  | learns {relay : Relay} {result : Except Fault Nat} (ending : relay.stint = .ending)
      (told : relay.upload.outcome? = some result) :
    Moves relay { relay with stint := .over result }
  | waits {relay : Relay} (idle : relay.upload.stage = .unstarted) :
    Moves relay { relay with upload := { relay.upload with stage := .waiting } }
  | opens {relay : Relay} (idle : relay.upload.stage = .unstarted ∨ relay.upload.stage = .waiting) :
    Moves relay { relay with upload := { relay.upload with stage := .reading .empty } }
  | reads {relay : Relay} {body first rest : ByteQueue} (reading : relay.upload.stage = .reading body)
      (heard : relay.listening = true) (parted : relay.upload.pipe.toList = first.toList ++ rest.toList) :
    Moves relay { relay with
      upload := { relay.upload with pipe := rest, stage := .reading (body.append first) }
      read := relay.read ++ first.toList }
  | ends {relay : Relay} {body : ByteQueue} (reading : relay.upload.stage = .reading body)
      (heard : relay.listening = true) (drained : relay.upload.pipe.toList = [])
      (closed : relay.upload.writer = .ended) :
    Moves relay { relay with sawEnd := true }
  | drops {relay : Relay} : Moves relay { relay with listening := false }
  | decides {relay : Relay} {verdict : Except Fault Unit} (undecided : relay.verdict? = none)
      (earned : verdict = .ok () → relay.sawEnd = true) :
    Moves relay { relay with listening := false, verdict? := some verdict }
  | tells {relay : Relay} {verdict : Except Fault Unit} (decided : relay.verdict? = some verdict) :
    Moves relay { relay with upload := relay.upload.answer verdict }

/-- What can come of a relay, in any order of the steps. -/
def Reaches (relay after : Relay) : Prop :=
  Relation.ReflTransGen Moves relay after

variable {capacity : Nat} {chunks : List (List UInt8)} {before relay after : Relay}

/-- What has been put into the pipe. -/
def sent (relay : Relay) : List UInt8 :=
  relay.read ++ relay.upload.pipe.toList

/-- The body has been ended, with all chunks accepted. -/
structure Closed (chunks : List (List UInt8)) (relay : Relay) : Prop where
  ended : relay.upload.writer = .ended
  later : relay.later = []
  sent : relay.sent = chunks.flatten
  written : relay.upload.written = chunks.flatten.length

/-- The pipe has broken before all chunks were accepted. -/
structure Broken (chunks : List (List UInt8)) (relay : Relay) : Prop where
  broken : relay.upload.writer = .broken
  sent : relay.sent <+: chunks.flatten
  deaf : relay.listening = false

/-- What has been put into the pipe and what the writer has still to write are the bytes of the chunks. -/
def Standing (chunks : List (List UInt8)) (relay : Relay) : Prop :=
  match relay.stint with
  | .between => relay.upload.writer = .writing ∧ relay.sent ++ relay.later.flatten = chunks.flatten ∧
      relay.upload.written + relay.later.flatten.length = chunks.flatten.length
  | .writing rest size => relay.upload.writer = .writing ∧
      relay.sent ++ (rest ++ relay.later.flatten) = chunks.flatten ∧
      relay.upload.written + (size + relay.later.flatten.length) = chunks.flatten.length
  | .refused => relay.Broken chunks
  | .ending => relay.Closed chunks
  | .over (.ok size) => relay.Closed chunks ∧ relay.verdict? = some (.ok ()) ∧ size = chunks.flatten.length
  | .over (.error fault) => (relay.Broken chunks ∨ relay.Closed chunks) ∧
      ∃ cause, relay.verdict? = some (.error cause) ∧ fault = .uploadFailed cause

/-- What holds at every moment of a relay. -/
structure Sound (capacity : Nat) (chunks : List (List UInt8)) (relay : Relay) : Prop where
  room : relay.upload.capacity = capacity
  bounded : relay.upload.pipe.size ≤ capacity
  standing : relay.Standing chunks
  unread : relay.upload.stage = .unstarted ∨ relay.upload.stage = .waiting → relay.read = []
  reading : ∀ body, relay.upload.stage = .reading body → body.toList = relay.read
  sawEnd : relay.sawEnd = true → relay.upload.writer = .ended ∧ relay.upload.pipe.toList = []
  earned : relay.verdict? = some (.ok ()) → relay.sawEnd = true
  deaf : ∀ verdict, relay.verdict? = some verdict → relay.listening = false
  told : ∀ verdict, relay.upload.verdict? = some verdict → relay.verdict? = some verdict

/-- An upload that has just been begun, with all chunks still to be written. -/
def begun (location : Location) (properties : Properties) (capacity : Nat) (chunks : List (List UInt8)) :
    Relay where
  upload := { location, properties, capacity }
  later := chunks

section Standing

theorem Standing.sent_isPrefix (standing : relay.Standing chunks) : relay.sent <+: chunks.flatten := by
  rw [Standing] at standing
  rcases stint : relay.stint with _ | ⟨rest, size⟩ | _ | _ | _ | _ <;> simp only [stint] at standing
  · exact ⟨_, standing.2.1⟩
  · exact ⟨_, standing.2.1⟩
  · exact standing.sent
  · exact standing.sent ▸ List.prefix_rfl
  · exact standing.1.elim Broken.sent fun closed => closed.sent ▸ List.prefix_rfl
  · exact standing.1.sent ▸ List.prefix_rfl

theorem Standing.closed (standing : relay.Standing chunks) (ended : relay.upload.writer = .ended) :
    relay.Closed chunks := by
  rw [Standing] at standing
  rcases stint : relay.stint with _ | ⟨rest, size⟩ | _ | _ | _ | _ <;> simp only [stint] at standing
  · cases ended.symm.trans standing.1
  · cases ended.symm.trans standing.1
  · cases ended.symm.trans standing.broken
  · exact standing
  · exact standing.1.resolve_left fun broken => nomatch ended.symm.trans broken.broken
  · exact standing.1

/-- The steps of the task leave the writer's side as it is, and keep what has been put into the pipe. -/
theorem Standing.of_task (standing : before.Standing chunks) (stint : after.stint = before.stint)
    (later : after.later = before.later) (writer : after.upload.writer = before.upload.writer)
    (written : after.upload.written = before.upload.written) (sent : after.sent = before.sent)
    (deaf : before.listening = false → after.listening = false)
    (decided : ∀ verdict, before.verdict? = some verdict → after.verdict? = some verdict) :
    after.Standing chunks := by
  have closed (whole : before.Closed chunks) : after.Closed chunks :=
    ⟨writer.trans whole.ended, later.trans whole.later, sent.trans whole.sent, written.trans whole.written⟩
  have broken (part : before.Broken chunks) : after.Broken chunks :=
    ⟨writer.trans part.broken, sent.symm ▸ part.sent, deaf part.deaf⟩
  rw [Standing] at standing ⊢
  rw [stint]
  rcases place : before.stint with _ | ⟨rest, size⟩ | _ | _ | _ | _ <;> simp only [place] at standing ⊢
  · rwa [writer, sent, later, written]
  · rwa [writer, sent, later, written]
  · exact broken standing
  · exact closed standing
  · obtain ⟨part, cause, failed, same⟩ := standing
    exact ⟨part.imp broken closed, cause, decided _ failed, same⟩
  · exact ⟨closed standing.1, decided _ standing.2.1, standing.2.2⟩

end Standing

theorem begun_sound (location : Location) (properties : Properties) (capacity : Nat)
    (chunks : List (List UInt8)) : (begun location properties capacity chunks).Sound capacity chunks where
  room := rfl
  bounded := Nat.zero_le _
  standing := ⟨rfl, rfl, Nat.zero_add _⟩
  unread _ := rfl
  reading _ stage := nomatch stage
  sawEnd seen := nomatch seen
  earned decided := nomatch decided
  deaf _ decided := nomatch decided
  told _ told := nomatch told

section Steps

variable (sound : relay.Sound capacity chunks)

include sound

/-- What the writer does, other than putting a byte into the pipe. -/
theorem Sound.of_writer {stint : Stint} {later : List (List UInt8)} {written : Nat} {writer : WriterState}
    (standing : Standing chunks { relay with
      upload := { relay.upload with written, writer }, stint, later })
    (ended : relay.upload.writer = .ended → writer = .ended) :
    Sound capacity chunks { relay with upload := { relay.upload with written, writer }, stint, later } where
  room := sound.room
  bounded := sound.bounded
  standing := standing
  unread := sound.unread
  reading := sound.reading
  sawEnd seen := ⟨ended (sound.sawEnd seen).1, (sound.sawEnd seen).2⟩
  earned := sound.earned
  deaf := sound.deaf
  told := sound.told

theorem Sound.standing_between (free : relay.stint = .between) :
    relay.upload.writer = .writing ∧ relay.sent ++ relay.later.flatten = chunks.flatten ∧
      relay.upload.written + relay.later.flatten.length = chunks.flatten.length := by
  have standing := sound.standing
  simpa only [Standing, free] using standing

theorem Sound.standing_writing {rest : List UInt8} {size : Nat} (midst : relay.stint = .writing rest size) :
    relay.upload.writer = .writing ∧ relay.sent ++ (rest ++ relay.later.flatten) = chunks.flatten ∧
      relay.upload.written + (size + relay.later.flatten.length) = chunks.flatten.length := by
  have standing := sound.standing
  simpa only [Standing, midst] using standing

theorem Sound.begins {chunk : List UInt8} {later : List (List UInt8)} (free : relay.stint = .between)
    (next : relay.later = chunk :: later) :
    Sound capacity chunks { relay with stint := .writing chunk chunk.length, later } := by
  obtain ⟨writing, whole, counted⟩ := sound.standing_between free
  rw [next, List.flatten_cons] at whole counted
  rw [List.length_append] at counted
  exact sound.of_writer ⟨writing, whole, counted⟩ id

theorem Sound.writes {upload : Upload} {byte : UInt8} {rest : List UInt8} {size : Nat}
    (midst : relay.stint = .writing (byte :: rest) size) (taken : relay.upload.offer byte = .taken upload) :
    Sound capacity chunks { relay with upload, stint := .writing rest size } := by
  obtain ⟨unanswered, space, rfl⟩ := Upload.offer_taken taken
  obtain ⟨writing, whole, counted⟩ := sound.standing_writing midst
  refine { sound with
    bounded := sound.room ▸ space
    standing := ⟨writing, ?_, counted⟩
    sawEnd := fun seen => nomatch writing.symm.trans (sound.sawEnd seen).1 }
  rw [← whole, sent, sent]
  simp only [ByteQueue.toList_push, List.append_assoc, List.cons_append, List.nil_append]

theorem Sound.accepts {size : Nat} (written : relay.stint = .writing [] size) :
    Sound capacity chunks { relay with
      upload := { relay.upload with written := relay.upload.written + size }, stint := .between } := by
  obtain ⟨writing, whole, counted⟩ := sound.standing_writing written
  rw [← Nat.add_assoc] at counted
  exact sound.of_writer ⟨writing, whole, counted⟩ id

theorem Sound.breaks {byte : UInt8} {rest : List UInt8} {size : Nat}
    (midst : relay.stint = .writing (byte :: rest) size) (deaf : relay.listening = false) :
    Sound capacity chunks { relay with
      upload := { relay.upload with writer := .broken }, stint := .refused } := by
  have writing := (sound.standing_writing midst).1
  exact sound.of_writer ⟨rfl, sound.standing.sent_isPrefix, deaf⟩ fun ended => nomatch writing.symm.trans ended

/-- The store does not accept a body that is not whole, so what broke the pipe has failed the upload. -/
theorem Sound.fails {verdict : Except Fault Unit} (refused : relay.stint = .refused)
    (told : relay.upload.verdict? = some verdict) :
    Sound capacity chunks { relay with stint := .over (.error (Upload.failure verdict)) } := by
  have broken : relay.Broken chunks := by
    have standing := sound.standing
    simpa only [Standing, refused] using standing
  have decided := sound.told verdict told
  refine sound.of_writer ⟨.inl ⟨broken.broken, broken.sent, broken.deaf⟩, ?_⟩ id
  cases verdict with
  | error cause => exact ⟨cause, decided, rfl⟩
  | ok _ => cases broken.broken.symm.trans (sound.sawEnd (sound.earned decided)).1

theorem Sound.closes (free : relay.stint = .between) (last : relay.later = []) :
    Sound capacity chunks { relay with upload := relay.upload.endBody, stint := .ending } := by
  obtain ⟨writing, whole, counted⟩ := sound.standing_between free
  rw [last] at whole counted
  exact sound.of_writer ⟨rfl, last, (List.append_nil _).symm.trans whole, counted⟩ fun _ => rfl

theorem Sound.learns {result : Except Fault Nat} (ending : relay.stint = .ending)
    (told : relay.upload.outcome? = some result) :
    Sound capacity chunks { relay with stint := .over result } := by
  have closed : relay.Closed chunks := by
    have standing := sound.standing
    simpa only [Standing, ending] using standing
  rw [Upload.outcome?, Option.map_eq_some_iff] at told
  obtain ⟨verdict, told, same⟩ := told
  have decided := sound.told verdict told
  obtain ⟨ended, later, sent, written⟩ := closed
  refine sound.of_writer ?_ id
  cases verdict with
  | error cause =>
      cases same
      exact ⟨.inr ⟨ended, later, sent, written⟩, cause, decided, rfl⟩
  | ok _ =>
      cases same
      exact ⟨⟨ended, later, sent, written⟩, decided, written⟩

theorem Sound.waits (idle : relay.upload.stage = .unstarted) :
    Sound capacity chunks { relay with upload := { relay.upload with stage := .waiting } } :=
  { sound with
    standing := sound.standing.of_task rfl rfl rfl rfl rfl id fun _ => id
    unread := fun _ => sound.unread (.inl idle)
    reading := nofun
    told := nofun }

theorem Sound.opens (idle : relay.upload.stage = .unstarted ∨ relay.upload.stage = .waiting) :
    Sound capacity chunks { relay with upload := { relay.upload with stage := .reading .empty } } :=
  { sound with
    standing := sound.standing.of_task rfl rfl rfl rfl rfl id fun _ => id
    unread := nofun
    reading := fun _ same => PutStage.reading.inj same ▸ (sound.unread idle).symm
    told := nofun }

theorem Sound.reads {body first rest : ByteQueue} (reading : relay.upload.stage = .reading body)
    (parted : relay.upload.pipe.toList = first.toList ++ rest.toList) :
    Sound capacity chunks { relay with
      upload := { relay.upload with pipe := rest, stage := .reading (body.append first) }
      read := relay.read ++ first.toList } where
  room := sound.room
  bounded := by
    have bounded := sound.bounded
    rw [← ByteQueue.length_toList, parted, List.length_append] at bounded
    rw [← ByteQueue.length_toList]
    exact Nat.le_trans (Nat.le_add_left _ _) bounded
  standing := by
    refine sound.standing.of_task rfl rfl rfl rfl ?_ id fun _ => id
    rw [sent, sent, parted, List.append_assoc]
  unread := nofun
  reading _ same := by
    rw [← PutStage.reading.inj same, ByteQueue.toList_append, sound.reading body reading]
  sawEnd seen := by
    obtain ⟨ended, drained⟩ := sound.sawEnd seen
    exact ⟨ended, (List.append_eq_nil_iff.1 (parted.symm.trans drained)).2⟩
  earned := sound.earned
  deaf := sound.deaf
  told := nofun

theorem Sound.ends (drained : relay.upload.pipe.toList = []) (closed : relay.upload.writer = .ended) :
    Sound capacity chunks { relay with sawEnd := true } :=
  { sound with
    standing := sound.standing.of_task rfl rfl rfl rfl rfl id fun _ => id
    sawEnd := fun _ => ⟨closed, drained⟩
    earned := fun _ => rfl }

theorem Sound.drops : Sound capacity chunks { relay with listening := false } :=
  { sound with
    standing := sound.standing.of_task rfl rfl rfl rfl rfl (fun _ => rfl) fun _ => id
    deaf := fun _ _ => rfl }

theorem Sound.decides {verdict : Except Fault Unit} (undecided : relay.verdict? = none)
    (earned : verdict = .ok () → relay.sawEnd = true) :
    Sound capacity chunks { relay with listening := false, verdict? := some verdict } :=
  { sound with
    standing := sound.standing.of_task rfl rfl rfl rfl rfl (fun _ => rfl) fun _ decided =>
      nomatch undecided.symm.trans decided
    earned := fun decided => earned (Option.some.inj decided)
    deaf := fun _ _ => rfl
    told := fun _ told => nomatch undecided.symm.trans (sound.told _ told) }

theorem Sound.tells {verdict : Except Fault Unit} (decided : relay.verdict? = some verdict) :
    Sound capacity chunks { relay with upload := relay.upload.answer verdict } :=
  { sound with
    standing := sound.standing.of_task rfl rfl rfl rfl rfl id fun _ => id
    unread := nofun
    reading := nofun
    told := fun _ told => Option.some.inj told ▸ decided }

end Steps

theorem Sound.move (sound : before.Sound capacity chunks) (moves : Moves before after) :
    after.Sound capacity chunks := by
  cases moves with
  | begins free next => exact sound.begins free next
  | writes midst _ taken => exact sound.writes midst taken
  | accepts written => exact sound.accepts written
  | breaks midst deaf => exact sound.breaks midst deaf
  | fails refused told => exact sound.fails refused told
  | closes free last => exact sound.closes free last
  | learns ending told => exact sound.learns ending told
  | waits idle => exact sound.waits idle
  | opens idle => exact sound.opens idle
  | reads reading _ parted => exact sound.reads reading parted
  | ends _ _ drained closed => exact sound.ends drained closed
  | drops => exact sound.drops
  | decides undecided earned => exact sound.decides undecided earned
  | tells decided => exact sound.tells decided

theorem Sound.reaches (sound : before.Sound capacity chunks) (reaches : before.Reaches after) :
    after.Sound capacity chunks := by
  induction reaches with
  | refl => exact sound
  | tail _ moves ih => exact ih.move moves

section Verdict

variable {verdict : Except Fault Unit}

theorem Moves.keeps_verdict (moves : Moves before after) (decided : before.verdict? = some verdict) :
    after.verdict? = some verdict := by
  cases moves with
  | decides undecided => cases undecided.symm.trans decided
  | _ => exact decided

theorem Reaches.keeps_verdict (reaches : before.Reaches after) (decided : before.verdict? = some verdict) :
    after.verdict? = some verdict := by
  induction reaches with
  | refl => exact decided
  | tail _ moves ih => exact moves.keeps_verdict ih

/-- What the writer is told is what the store has decided, whenever either happens. -/
theorem Sound.result {result : Except Fault Nat} (sound : relay.Sound capacity chunks)
    (decided : relay.verdict? = some verdict) (finished : relay.stint = .over result) :
    result = (verdict.map fun _ => chunks.flatten.length).mapError .uploadFailed := by
  have standing := sound.standing
  rw [Standing, finished] at standing
  cases result with
  | ok size =>
      obtain ⟨_, accepted, rfl⟩ := standing
      cases decided.symm.trans accepted
      rfl
  | error fault =>
      obtain ⟨_, cause, failed, rfl⟩ := standing
      cases decided.symm.trans failed
      rfl

end Verdict

section Success

/-- What the task makes of an upload that the store still listens to when it reads all there is. -/
def drained (relay : Relay) (body : ByteQueue) : Relay :=
  { relay with
    upload := { relay.upload with pipe := .empty, stage := .reading (body.append relay.upload.pipe) }
    read := relay.sent }

theorem Sound.unanswered (sound : relay.Sound capacity chunks) (heard : relay.listening = true) :
    relay.verdict? = none ∧ relay.upload.verdict? = none := by
  have undecided : relay.verdict? = none := by
    refine Option.eq_none_iff_forall_not_mem.2 fun verdict decided => ?_
    cases heard.symm.trans (sound.deaf verdict decided)
  refine ⟨undecided, Option.eq_none_iff_forall_not_mem.2 fun verdict told => ?_⟩
  cases undecided.symm.trans (sound.told verdict told)

theorem Sound.reaches_drained (sound : relay.Sound capacity chunks) (heard : relay.listening = true) :
    ∃ body, relay.Reaches (relay.drained body) := by
  have parted : relay.upload.pipe.toList = relay.upload.pipe.toList ++ ByteQueue.empty.toList :=
    (List.append_nil _).symm
  have opened (idle : relay.upload.stage = .unstarted ∨ relay.upload.stage = .waiting) :
      relay.Reaches (relay.drained .empty) :=
    .tail (.single (.opens idle)) (.reads rfl heard parted)
  rcases stage : relay.upload.stage with _ | _ | body | verdict
  · exact ⟨.empty, opened (.inl stage)⟩
  · exact ⟨.empty, opened (.inr stage)⟩
  · exact ⟨body, .single (.reads stage heard parted)⟩
  · have told : relay.upload.verdict? = some verdict := by rw [Upload.verdict?, stage]
    cases (sound.unanswered heard).2.symm.trans told

theorem offer_drained (relay : Relay) (body : ByteQueue) (byte : UInt8) (room : 0 < relay.upload.capacity) :
    (relay.drained body).upload.offer byte = .taken { (relay.drained body).upload with
      pipe := ByteQueue.empty.push byte } := by
  rw [Upload.offer]
  exact if_pos room

/-- However little the pipe holds, a chunk gets through as long as the store listens. -/
theorem Sound.reaches_accepted {rest : List UInt8} {size : Nat} (sound : relay.Sound capacity chunks)
    (room : 0 < capacity) (heard : relay.listening = true) (midst : relay.stint = .writing rest size) :
    ∃ after, relay.Reaches after ∧ after.stint = .between ∧ after.later = relay.later ∧
      after.listening = true := by
  induction rest generalizing relay with
  | nil => exact ⟨_, .single (.accepts midst), rfl, rfl, heard⟩
  | cons byte rest ih =>
      obtain ⟨body, drained⟩ := sound.reaches_drained heard
      have taken := relay.offer_drained body byte (sound.room ▸ room)
      have written : relay.Reaches { relay.drained body with
          upload := { (relay.drained body).upload with pipe := ByteQueue.empty.push byte }
          stint := .writing rest size } :=
        drained.tail (.writes midst heard taken)
      obtain ⟨after, reached, between⟩ := ih (sound.reaches written) heard rfl
      exact ⟨after, written.trans reached, between⟩

theorem Sound.reaches_written {later : List (List UInt8)} (sound : relay.Sound capacity chunks)
    (room : 0 < capacity) (heard : relay.listening = true) (free : relay.stint = .between)
    (left : relay.later = later) :
    ∃ after, relay.Reaches after ∧ after.stint = .between ∧ after.later = [] ∧ after.listening = true := by
  induction later generalizing relay with
  | nil => exact ⟨relay, .refl, free, left, heard⟩
  | cons chunk later ih =>
      have begun : relay.Reaches { relay with stint := .writing chunk chunk.length, later } :=
        .single (.begins free left)
      obtain ⟨middle, accepted, between, rest, still⟩ :=
        (sound.reaches begun).reaches_accepted room heard rfl
      have first : relay.Reaches middle := begun.trans accepted
      obtain ⟨after, reached, written⟩ := ih (sound.reaches first) still between rest
      exact ⟨after, first.trans reached, written⟩

/-- The store reads the body to its end and accepts it. -/
theorem Sound.reaches_stored (sound : relay.Sound capacity chunks) (heard : relay.listening = true)
    (ending : relay.stint = .ending) :
    ∃ after, relay.Reaches after ∧ after.stint = .over (.ok chunks.flatten.length) := by
  have closed : relay.Closed chunks := by
    have standing := sound.standing
    simpa only [Standing, ending] using standing
  have undecided := (sound.unanswered heard).1
  obtain ⟨body, drained⟩ := sound.reaches_drained heard
  let seen : Relay := { relay.drained body with sawEnd := true }
  let decided : Relay := { seen with listening := false, verdict? := some (.ok ()) }
  let told : Relay := { decided with upload := decided.upload.answer (.ok ()) }
  have finished : relay.Reaches { told with stint := .over (.ok told.upload.written) } :=
    (((drained.tail (.ends rfl heard rfl closed.ended)).tail (.decides undecided fun _ => rfl)).tail
      (.tells rfl)).tail (.learns ending rfl)
  have size : told.upload.written = chunks.flatten.length := closed.written
  exact ⟨_, finished, congrArg (Stint.over <| .ok ·) size⟩

theorem Sound.can_succeed_between (sound : relay.Sound capacity chunks) (room : 0 < capacity)
    (heard : relay.listening = true) (free : relay.stint = .between) :
    ∃ after, relay.Reaches after ∧ after.stint = .over (.ok chunks.flatten.length) := by
  obtain ⟨middle, written, between, last, still⟩ := sound.reaches_written room heard free rfl
  have closed := written.tail (.closes between last)
  obtain ⟨after, stored, finished⟩ := (sound.reaches closed).reaches_stored still rfl
  exact ⟨after, closed.trans stored, finished⟩

/-- As long as the store listens the upload can succeed: whatever the order of the steps so far, nobody waits
for what does not come. -/
theorem Sound.can_succeed (sound : relay.Sound capacity chunks) (room : 0 < capacity)
    (heard : relay.listening = true) :
    ∃ after, relay.Reaches after ∧ after.stint = .over (.ok chunks.flatten.length) := by
  have standing := sound.standing
  rw [Standing] at standing
  rcases stint : relay.stint with _ | ⟨rest, size⟩ | _ | _ | fault | result <;>
    simp only [stint] at standing
  · exact sound.can_succeed_between room heard stint
  · obtain ⟨middle, accepted, free, _, still⟩ := sound.reaches_accepted room heard stint
    obtain ⟨after, reached, finished⟩ := (sound.reaches accepted).can_succeed_between room still free
    exact ⟨after, accepted.trans reached, finished⟩
  · cases heard.symm.trans standing.deaf
  · exact sound.reaches_stored heard stint
  · obtain ⟨_, cause, failed, _⟩ := standing
    cases heard.symm.trans (sound.deaf _ failed)
  · cases heard.symm.trans (sound.deaf _ standing.2.1)

end Success

section Failure

variable {verdict : Except Fault Unit}

/-- Once the writer can be told the store's verdict, nothing keeps it from its result. -/
theorem Sound.can_end_between {later : List (List UInt8)} (sound : relay.Sound capacity chunks)
    (told : relay.upload.verdict? = some verdict) (free : relay.stint = .between) (left : relay.later = later) :
    ∃ after result, relay.Reaches after ∧ after.stint = .over result := by
  induction later generalizing relay with
  | nil =>
      have closed : relay.Reaches { relay with upload := relay.upload.endBody, stint := .ending } :=
        .single (.closes free left)
      have outcome : ∃ result, relay.upload.endBody.outcome? = some result :=
        ⟨_, congrArg (Option.map _) told⟩
      obtain ⟨result, outcome⟩ := outcome
      exact ⟨_, _, closed.tail (.learns rfl outcome), rfl⟩
  | cons chunk later ih =>
      have begun : relay.Reaches { relay with stint := .writing chunk chunk.length, later } :=
        .single (.begins free left)
      have deaf := sound.deaf verdict (sound.told verdict told)
      cases chunk with
      | nil =>
          have accepted := begun.tail (.accepts rfl)
          obtain ⟨after, result, reached, finished⟩ := ih (sound.reaches accepted) told rfl rfl
          exact ⟨after, result, accepted.trans reached, finished⟩
      | cons byte rest =>
          exact ⟨_, _, (begun.tail (.breaks rfl deaf)).tail (.fails rfl told), rfl⟩

theorem Sound.can_end (sound : relay.Sound capacity chunks) (decided : relay.verdict? = some verdict) :
    ∃ after result, relay.Reaches after ∧ after.stint = .over result := by
  let aware : Relay := { relay with upload := relay.upload.answer verdict }
  have reached : relay.Reaches aware := .single (.tells decided)
  have told : aware.upload.verdict? = some verdict := rfl
  have deaf : aware.listening = false := sound.deaf verdict decided
  rcases stint : relay.stint with _ | ⟨_ | ⟨byte, rest⟩, size⟩ | _ | _ | result
  · obtain ⟨after, result, last, finished⟩ := (sound.reaches reached).can_end_between told stint rfl
    exact ⟨after, result, reached.trans last, finished⟩
  · have accepted := reached.tail (.accepts stint)
    obtain ⟨after, result, last, finished⟩ := (sound.reaches accepted).can_end_between told rfl rfl
    exact ⟨after, result, accepted.trans last, finished⟩
  · exact ⟨_, _, (reached.tail (.breaks stint deaf)).tail (.fails rfl told), rfl⟩
  · exact ⟨_, _, reached.tail (.fails stint told), rfl⟩
  · exact ⟨_, _, reached.tail (.learns stint rfl), rfl⟩
  · exact ⟨relay, result, .refl, stint⟩

end Failure

end Relay

end ArtifactGate
