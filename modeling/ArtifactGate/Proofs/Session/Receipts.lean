import ArtifactGate.Proofs.Gateway.Uploads
import ArtifactGate.Proofs.Session.Properties
import ArtifactGate.Proofs.Session.Steps

/-!
Uploads are whole or they are not at all. A receipt is a file among the bytes a client has sent: a
header line that the session read between files, and the bytes after it. Whatever the client sends and
wherever it stops, the store has accepted the bodies of the receipts that are complete, in their order,
and nothing else.
-/
namespace ArtifactGate

/-- A file among a client's bytes, with the place it goes to. -/
structure Receipt where
  /-- The bytes before the file's control byte. -/
  before : List UInt8
  /-- The header line, without its control byte and its end. -/
  line : List UInt8
  header : Wire.Header
  location : Location
  properties : Properties
  /-- The bytes after the line. -/
  body : List UInt8
  deriving DecidableEq, Repr, Inhabited

namespace Receipt

/-- The client's bytes up to the last one of the file. -/
def upTo (receipt : Receipt) : List UInt8 :=
  receipt.before ++ 67 :: (receipt.line ++ Wire.newline :: receipt.body)

def deposit (receipt : Receipt) : Deposit :=
  ⟨receipt.location, receipt.properties, receipt.body⟩

def Whole (receipt : Receipt) : Prop :=
  receipt.body.length = receipt.header.length

def push (receipt : Receipt) (byte : UInt8) : Receipt :=
  { receipt with body := receipt.body ++ [byte] }

theorem upTo_push (receipt : Receipt) (byte : UInt8) :
    (receipt.push byte).upTo = receipt.upTo ++ [byte] := by
  simp only [push, upTo, List.append_assoc, List.cons_append]

variable {σ : Type} [RemoteStore σ]

/-- The session was between files when the header line came, and the header was read from it. -/
def Announced (receipt : Receipt) (start : Session × Live σ) : Prop :=
  ∃ transfer mark level outer text,
    (Session.feedAll receipt.before start).1 = .receiving transfer mark ⟨level, outer, .control⟩ ∧
      Wire.newline ∉ receipt.line ∧ Text.decode? receipt.line = some text ∧
      Wire.Header.parse ("C" ++ text) = .ok receipt.header ∧
      IsTarget level.target receipt.header.name receipt.location

/-- A file that was announced in a directory goes to the place of its name there. It has what the transfer keeps of
it and the user's name, if nothing is attached to the directory itself. -/
structure Put (receipt : Receipt) (transfer : Transfer) (level : Level) : Prop where
  named : isFileName receipt.header.name = true
  places : level.target.Places receipt.header.name receipt.location
  properties : level.target.properties = .empty → receipt.properties =
    (Receiver.fileProperties transfer receipt.header level.times).insert Node.uploadedBy level.target.user

/-- The file was announced by a line that is not too long, and is put in the directory the client was in. -/
def Placed (receipt : Receipt) (start : Session × Live σ) : Prop :=
  ∃ transfer mark level outer text,
    (Session.feedAll receipt.before start).1 = .receiving transfer mark ⟨level, outer, .control⟩ ∧
      Wire.newline ∉ receipt.line ∧ receipt.line.length ≤ Wire.maxLineLength ∧
      Text.decode? receipt.line = some text ∧ Wire.Header.parse ("C" ++ text) = .ok receipt.header ∧
      receipt.Put transfer level

theorem Placed.push {receipt : Receipt} {start : Session × Live σ} (placed : receipt.Placed start) (byte : UInt8) :
    (receipt.push byte).Placed start := by
  obtain ⟨transfer, mark, level, outer, text, reached, unbroken, short, decoded, parsed, put⟩ := placed
  exact ⟨transfer, mark, level, outer, text, reached, unbroken, short, decoded, parsed,
    ⟨put.named, put.places, put.properties⟩⟩

theorem Placed.announced {receipt : Receipt} {start : Session × Live σ} (placed : receipt.Placed start) :
    receipt.Announced start := by
  obtain ⟨transfer, mark, level, outer, text, reached, unbroken, _, decoded, parsed, put⟩ := placed
  exact ⟨transfer, mark, level, outer, text, reached, unbroken, decoded, parsed, put.places.isTarget⟩

end Receipt

namespace Gateway

variable {σ : Type}

variable [RemoteStore σ] [DepositStore σ] {before after : Gateway σ} {mark number : Nat}

theorem Unmoved.idle (unmoved : before.Unmoved after) (idle : before.Idle mark) : after.Idle mark :=
  ⟨unmoved.uploads.trans idle.1, unmoved.nextUpload ▸ idle.2⟩

theorem Unmoved.uploading {location : Location} {properties : Properties} {bytes : List UInt8}
    (unmoved : before.Unmoved after) (uploading : before.Uploading number location properties bytes) :
    after.Uploading number location properties bytes := by
  rw [Uploading, unmoved.uploads, unmoved.nextUpload]
  exact uploading

end Gateway

section Gains

variable {σ : Type} [RemoteStore σ] [DepositStore σ] {first middle last : σ} {deposits : List Deposit}

theorem gains_then_nothing (start : Gains first deposits middle) (rest : Gains middle [] last) :
    Gains first deposits last := by
  have both := DepositStore.gains_trans start rest
  rwa [List.append_nil] at both

theorem nothing_then_gains (start : Gains first [] middle) (rest : Gains middle deposits last) :
    Gains first deposits last :=
  DepositStore.gains_trans start rest

end Gains

namespace Live

variable {σ : Type} [RemoteStore σ] [DepositStore σ]

theorem ends_openWrite {live : Live σ} {node : Node} {repository : String} {mark : Nat}
    (inside : node.In repository) (idle : live.gateway.Idle mark) :
    live.Ends (node.openWrite 0)
      (fun writer after => ∃ number, writer = .upload number ∧ mark ≤ number ∧
        after.gateway.Uploading number node.location (node.properties.insert Node.uploadedBy node.user) [] ∧
        Gains live.gateway.store [] after.gateway.store)
      (fun _ after => live.gateway.Interrupted mark after.gateway) := by
  rw [Node.openWrite]
  refine Ends.bind ((ends_of_attempts live node.isWritable_quiet).mono (fun _ _ asked => asked.2) ?_) ?_
  · exact fun _ after unmoved => ⟨.inl (unmoved.idle idle).1, unmoved.store⟩
  · intro allowed after unmoved
    have stillIdle := unmoved.idle idle
    apply Ends.refuse (fun _ => ⟨.inl stillIdle.1, unmoved.store⟩)
    intro _
    apply Ends.refuse (fun nonzero => absurd rfl nonzero)
    intro _
    simp only [Node.isSink_of_in inside, Bool.false_eq_true, if_false]
    refine Ends.bind ((ends_beginUpload stillIdle.1 stillIdle.2 _ _).mono (fun _ _ begun => begun)
      fun _ _ interrupted => interrupted.after_call unmoved.store) ?_
    intro number begun uploading
    exact Ends.pure ⟨number, rfl, uploading.1, uploading.2.1,
      nothing_then_gains unmoved.store uploading.2.2⟩

theorem ends_write {live : Live σ} {number mark : Nat} {location : Location} {properties : Properties}
    {bytes : List UInt8} (uploading : live.gateway.Uploading number location properties bytes)
    (begun : mark ≤ number) (chunk : List UInt8) :
    live.Ends ((Writer.upload number).write chunk)
      (fun writer after => writer = .upload number ∧
        after.gateway.Uploading number location properties (bytes ++ chunk) ∧
        Gains live.gateway.store [] after.gateway.store)
      (fun _ after => live.gateway.Interrupted mark after.gateway) :=
  Ends.bind (ends_writeUpload uploading begun chunk) fun _ _ written => Ends.pure ⟨rfl, written⟩

end Live

variable {σ : Type} [RemoteStore σ] [DepositStore σ]

/-- The receipts of some bytes that are complete before these bytes end. -/
structure Books (start : Session × Live σ) (taken : List UInt8) (receipts : List Receipt) : Prop where
  announced : ∀ receipt ∈ receipts, receipt.Announced start
  whole : ∀ receipt ∈ receipts, receipt.Whole
  within : ∀ receipt ∈ receipts, receipt.upTo <+: taken
  apart : receipts.Pairwise fun earlier later => earlier.upTo <+: later.before

/-- The receipts that the last of some bytes completes: at most one, after all others. -/
def Completes (start : Session × Live σ) (taken : List UInt8) (receipts new : List Receipt) : Prop :=
  new = [] ∨ ∃ receipt : Receipt, new = [receipt] ∧ receipt.Placed start ∧ receipt.Whole ∧
    receipt.upTo = taken ∧ ∀ earlier ∈ receipts, earlier.upTo <+: receipt.before

omit [DepositStore σ] in
theorem Books.extend {start : Session × Live σ} {input : List UInt8} {byte : UInt8}
    {receipts new : List Receipt} (books : Books start input receipts)
    (completes : Completes start (input ++ [byte]) receipts new) :
    Books start (input ++ [byte]) (receipts ++ new) := by
  have grown : ∀ receipt ∈ receipts, receipt.upTo <+: input ++ [byte] := fun receipt member =>
    (books.within receipt member).trans (List.prefix_append _ _)
  rcases completes with rfl | ⟨receipt, rfl, placed, whole, upTo, earlier⟩
  · rw [List.append_nil]
    exact ⟨books.announced, books.whole, grown, books.apart⟩
  · constructor
    · exact List.forall_mem_append.2 ⟨books.announced, List.forall_mem_singleton.2 placed.announced⟩
    · exact List.forall_mem_append.2 ⟨books.whole, List.forall_mem_singleton.2 whole⟩
    · exact List.forall_mem_append.2 ⟨grown, List.forall_mem_singleton.2 (upTo ▸ List.prefix_refl _)⟩
    · refine List.pairwise_append.2 ⟨books.apart, List.pairwise_singleton _ _, ?_⟩
      exact fun first member last same => List.mem_singleton.1 same ▸ earlier first member

omit [DepositStore σ] in
theorem Completes.placed {start : Session × Live σ} {taken : List UInt8} {receipts new : List Receipt}
    (completes : Completes start taken receipts new) : ∀ receipt ∈ new, receipt.Placed start := by
  rcases completes with rfl | ⟨receipt, rfl, placed, _⟩
  · exact List.forall_mem_nil _
  · exact List.forall_mem_singleton.2 placed

/-- The session a receiver belongs to: where it began, what the store was then, and the repository
and the number its uploads begin from. -/
structure UploadContext (σ : Type) where
  start : Session × Live σ
  origin : σ
  repository : String
  transfer : Transfer
  mark : Nat

/-- The store has accepted the receipts and nothing else. -/
def UploadContext.Stored (context : UploadContext σ) (receipts : List Receipt) (live : Live σ) : Prop :=
  Gains context.origin (receipts.map Receipt.deposit) live.gateway.store

/-- What a receiver has in hand when some bytes have come and these receipts are complete. -/
def Receiver.Holds (context : UploadContext σ) (taken : List UInt8) (receipts : List Receipt)
    (receiver : Receiver) (live : Live σ) : Prop :=
  match receiver.phase with
  | .line .file line => live.gateway.Idle context.mark ∧ ∃ before,
      taken = before ++ 67 :: line.bytes.toList ∧ Wire.newline ∉ line.bytes.toList ∧
      line.bytes.toList.length ≤ Wire.maxLineLength ∧
      (∀ earlier ∈ receipts, earlier.upTo <+: before) ∧
      (Session.feedAll before context.start).1 =
        .receiving context.transfer context.mark ⟨receiver.level, receiver.outer, .control⟩
  | .body file => file.remaining ≠ 0 ∧ ∃ (receipt : Receipt) (number : Nat),
      receipt.Placed context.start ∧ receipt.upTo = taken ∧
      (∀ earlier ∈ receipts, earlier.upTo <+: receipt.before) ∧
      receipt.body.length + file.remaining = receipt.header.length ∧
      file.writer = .upload number ∧ context.mark ≤ number ∧
      live.gateway.Uploading number receipt.location receipt.properties receipt.body
  | _ => live.gateway.Idle context.mark

/-- The levels of a receiver are directories of one repository. -/
def Receiver.Inside (repository : String) (receiver : Receiver) : Prop :=
  receiver.level.target.In repository ∧ ∀ level ∈ receiver.outer, level.target.In repository

structure Receiver.Stands (context : UploadContext σ) (taken : List UInt8) (receipts : List Receipt)
    (receiver : Receiver) (live : Live σ) : Prop where
  inside : receiver.Inside context.repository
  stored : context.Stored receipts live
  holds : receiver.Holds context taken receipts live

/-- A receiver that goes on, or a session that is over. -/
def Progress.Stands (context : UploadContext σ) (taken : List UInt8) (receipts : List Receipt)
    (live : Live σ) : Progress Receiver → Prop
  | .waiting receiver => receiver.Stands context taken receipts live
  | .over => live.gateway.Idle context.mark ∧ context.Stored receipts live

/-- What a step makes of a receiver on the last of some bytes. -/
def UploadContext.Advances (context : UploadContext σ) (taken : List UInt8) (receipts : List Receipt)
    (progress : Progress Receiver) (live : Live σ) : Prop :=
  ∃ new, Completes context.start taken receipts new ∧ progress.Stands context taken (receipts ++ new) live

/-- What a step that fails on the last of some bytes leaves. -/
def UploadContext.Fails (context : UploadContext σ) (taken : List UInt8) (receipts : List Receipt) (live : Live σ) :
    Prop :=
  live.gateway.Droppable context.mark ∧
    ∃ new, Completes context.start taken receipts new ∧ context.Stored (receipts ++ new) live

namespace Receiver

variable {context : UploadContext σ} {taken : List UInt8} {receipts : List Receipt} {receiver : Receiver}
  {live : Live σ}

theorem advances_of_stands {progress : Progress Receiver}
    (stands : progress.Stands context taken receipts live) :
    context.Advances taken receipts progress live :=
  ⟨[], .inl rfl, by rwa [List.append_nil]⟩

theorem fails_of_interrupted {before : Live σ} (stored : context.Stored receipts before)
    (interrupted : before.gateway.Interrupted context.mark live.gateway) :
    context.Fails taken receipts live := by
  refine ⟨interrupted.1, [], .inl rfl, ?_⟩
  rw [List.append_nil]
  exact gains_then_nothing stored interrupted.2

theorem finishFile_ends {file : Incoming} {receipt : Receipt} {number : Nat}
    (inside : receiver.Inside context.repository) (stored : context.Stored receipts live)
    (placed : receipt.Placed context.start) (upTo : receipt.upTo = taken)
    (earlier : ∀ earlier ∈ receipts, earlier.upTo <+: receipt.before) (whole : receipt.Whole)
    (writer : file.writer = .upload number) (begun : context.mark ≤ number)
    (uploading : live.gateway.Uploading number receipt.location receipt.properties receipt.body) :
    live.Ends (receiver.finishFile file) (context.Advances taken receipts)
      (fun _ after => context.Fails taken receipts after) := by
  have completes : Completes context.start taken receipts [receipt] :=
    .inr ⟨receipt, rfl, placed, whole, upTo, earlier⟩
  have accepted {after : Live σ} (gains : Gains live.gateway.store [receipt.deposit] after.gateway.store) :
      context.Stored (receipts ++ [receipt]) after := by
    rw [UploadContext.Stored, List.map_append]
    exact DepositStore.gains_trans stored gains
  rw [finishFile, writer]
  refine Live.Ends.bind ((Live.ends_finishUpload uploading begun).mono
    (fun _ _ finished => finished) fun _ _ interrupted => fails_of_interrupted stored interrupted) ?_
  intro _ after finished
  obtain ⟨idle, next, gains⟩ := finished
  have stillIdle : after.gateway.Idle context.mark := ⟨idle, Nat.le_of_lt (Nat.lt_of_le_of_lt begun next)⟩
  refine Live.Ends.bind ((Live.ends_of_attempts after (send_quiet _)).mono
    (fun _ _ sent => sent.2) fun _ last unmoved => ?_) ?_
  · exact ⟨.inl (unmoved.idle stillIdle).1, [receipt], completes,
      accepted (gains_then_nothing gains unmoved.store)⟩
  · intro _ last unmoved
    refine Live.Ends.pure ⟨[receipt], completes, inside, ?_, unmoved.idle stillIdle⟩
    exact accepted (gains_then_nothing gains unmoved.store)

theorem awaitBody_ends {file : Incoming} {receipt : Receipt} {number : Nat}
    (inside : receiver.Inside context.repository) (stored : context.Stored receipts live)
    (placed : receipt.Placed context.start) (upTo : receipt.upTo = taken)
    (earlier : ∀ earlier ∈ receipts, earlier.upTo <+: receipt.before)
    (length : receipt.body.length + file.remaining = receipt.header.length)
    (writer : file.writer = .upload number) (begun : context.mark ≤ number)
    (uploading : live.gateway.Uploading number receipt.location receipt.properties receipt.body) :
    live.Ends (receiver.awaitBody file) (context.Advances taken receipts)
      (fun _ after => context.Fails taken receipts after) := by
  rw [awaitBody]
  refine Live.Ends.ite (fun none => ?_) fun some => ?_
  · rw [none, Nat.add_zero] at length
    exact finishFile_ends inside stored placed upTo earlier length writer begun uploading
  · refine Live.Ends.pure (advances_of_stands ⟨inside, stored, some, receipt, number, ?_⟩)
    exact ⟨placed, upTo, earlier, length, writer, begun, uploading⟩

theorem quiet_ends {α : Type} {part : Step α} {valid : α → Prop}
    (idle : live.gateway.Idle context.mark) (stored : context.Stored receipts live)
    (attempts : Attempts Effect.Quiet valid part) :
    live.Ends part
      (fun value after =>
        valid value ∧ after.gateway.Idle context.mark ∧ context.Stored receipts after)
      (fun _ after => context.Fails taken receipts after) := by
  apply (Live.ends_of_attempts live attempts).mono
  · intro value after ended
    exact ⟨ended.1, ended.2.idle idle, gains_then_nothing stored ended.2.store⟩
  · intro _ after unmoved
    exact fails_of_interrupted stored ⟨.inl (unmoved.idle idle).1, unmoved.store⟩

theorem openFile_ends {before line : List UInt8} {text : String} {header : Wire.Header}
    (inside : receiver.Inside context.repository) (idle : live.gateway.Idle context.mark)
    (stored : context.Stored receipts live)
    (between : (Session.feedAll before context.start).1 =
      .receiving context.transfer context.mark ⟨receiver.level, receiver.outer, .control⟩)
    (unbroken : Wire.newline ∉ line) (short : line.length ≤ Wire.maxLineLength)
    (decoded : Text.decode? line = some text) (parsed : Wire.Header.parse ("C" ++ text) = .ok header)
    (upTo : before ++ 67 :: (line ++ [Wire.newline]) = taken)
    (earlier : ∀ earlier ∈ receipts, earlier.upTo <+: before) :
    live.Ends (receiver.openFile context.transfer header) (context.Advances taken receipts)
      (fun _ after => context.Fails taken receipts after) := by
  rw [openFile]
  refine Live.Ends.bind (quiet_ends idle stored (Complies.logging
    ((fileTarget_inquires vouches_anyAnswer receiver.level.target header.name).weaken
      fun _ => Effect.Inquires.quiet) fun _ => trivial)) ?_
  rintro target reached ⟨⟨chosen, named, _⟩, idle, stored⟩
  have within := chosen.within inside.1
  let node := (target.withSize header.length).withProperties
    (fileProperties context.transfer header receiver.level.times)
  have nodeWithin : node.In context.repository := ⟨within.backing, within.within, within.outside⟩
  refine Live.Ends.logs ?_ fun _ _ fails => fails
  rw [beginFile]
  refine Live.Ends.bind ((Live.ends_openWrite nodeWithin idle).mono
    (fun _ _ opened => opened) fun _ _ interrupted => fails_of_interrupted stored interrupted) ?_
  rintro writer opened ⟨number, writer_eq, begun, uploading, gains⟩
  refine Live.Ends.bind ((Live.ends_of_attempts opened (send_quiet _)).mono
    (fun _ _ sent => sent.2) fun _ after unmoved => ?_) ?_
  · refine fails_of_interrupted (gains_then_nothing stored gains)
      ⟨(unmoved.uploading uploading).droppable begun, unmoved.store⟩
  · intro _ after unmoved
    have put : Receipt.Put ⟨before, line, header, target.location, node.properties.insert Node.uploadedBy node.user, []⟩
        context.transfer receiver.level := by
      refine ⟨named, chosen.places, fun bare => ?_⟩
      have properties : node.properties = fileProperties context.transfer header receiver.level.times :=
        Node.properties_withProperties (chosen.fresh bare) _
      have user : node.user = receiver.level.target.user := chosen.user
      dsimp only
      rw [properties, user]
    have placed : Receipt.Placed _ context.start :=
      ⟨_, _, _, _, _, between, unbroken, short, decoded, parsed, put⟩
    exact awaitBody_ends inside (gains_then_nothing (gains_then_nothing stored gains) unmoved.store)
      placed upTo earlier (Nat.zero_add _) writer_eq begun (unmoved.uploading uploading)

/-- The receiver has no file in hand, and no line that announces one. -/
def Free (receiver : Receiver) : Prop :=
  match receiver.phase with
  | .line .file _ | .body _ => False
  | _ => True

omit [DepositStore σ] in
theorem holds_of_free (free : receiver.Free) (idle : live.gateway.Idle context.mark) :
    receiver.Holds context taken receipts live := by
  rw [Free] at free
  rw [Holds]
  split at free
  · exact free.elim
  · exact free.elim
  · exact idle

/-- A receiver with no file in hand, or the end of the session. -/
def FreeIn (repository : String) : Progress Receiver → Prop
  | .waiting receiver => receiver.Inside repository ∧ receiver.Free
  | .over => True

theorem stands_of_free {progress : Progress Receiver} (free : FreeIn context.repository progress)
    (idle : live.gateway.Idle context.mark) (stored : context.Stored receipts live) :
    progress.Stands context taken receipts live := by
  cases progress with
  | waiting receiver => exact ⟨free.1, stored, holds_of_free free.2 idle⟩
  | _ => exact ⟨idle, stored⟩

omit [RemoteStore σ] [DepositStore σ] in
theorem free_of_rests (rests : receiver.Rests) : receiver.Free := by
  obtain ⟨level, outer, phase⟩ := receiver
  cases phase with
  | control => trivial
  | lastWord site state => trivial
  | _ => exact rests.elim

omit [RemoteStore σ] [DepositStore σ] in
theorem freeIn_of_turns {granted : String → String → Access → Prop} {repository : String} {kind : LineKind}
    {text : String} {progress : Progress Receiver} (turns : receiver.Turns granted kind text progress)
    (inside : receiver.Inside repository) : FreeIn repository progress := by
  cases turns with
  | times parsed => exact ⟨inside, trivial⟩
  | entered parsed located isOpen named writable =>
      have within := Node.in_of_at located ((Location.childDirectory_repository _ _).trans inside.1.within)
        inside.1.outside
      exact ⟨⟨within, List.forall_mem_cons.2 inside⟩, trivial⟩
  | left inner =>
      have outer := inside.2
      rw [inner] at outer
      exact ⟨List.forall_mem_cons.1 outer, trivial⟩
  | closed outermost => trivial
  | warned => exact ⟨inside, trivial⟩

theorem eq_of_lineKind?_file {byte : UInt8} (meaning : lineKind? byte = some .file) : byte = 67 := by
  simp only [lineKind?] at meaning
  split at meaning
  · cases meaning
  · split at meaning
    · assumption
    · repeat (split at meaning <;> try cases meaning)

theorem not_mem_of_more {line next : Wire.Line} {byte : UInt8} (more : line.push byte = .more next) :
    byte ≠ Wire.newline ∧ line.bytes.toList.length < Wire.maxLineLength ∧
      next.bytes.toList = line.bytes.toList ++ [byte] := by
  rw [Wire.Line.push] at more
  split at more
  · cases more
  · split at more
    · cases more
    · cases more
      exact ⟨‹_›, Nat.lt_of_not_le ‹_›, Array.toList_push⟩

theorem text_of_done {line : Wire.Line} {byte : UInt8} {text : String}
    (done : line.push byte = .done (.ok text)) :
    byte = Wire.newline ∧ Text.decode? line.bytes.toList = some text := by
  rw [Wire.Line.push] at done
  split at done
  · injection done with read
    rw [Wire.Line.text] at read
    split at read <;> cases read
    exact ⟨‹_›, ‹_›⟩
  · split at done <;> cases done

/-- A step that begins and ends with no file in hand. -/
theorem free_ends {part : Step (Progress Receiver)} (idle : live.gateway.Idle context.mark)
    (stored : context.Stored receipts live) (attempts : Attempts Effect.Quiet (FreeIn context.repository) part) :
    live.Ends part (context.Advances taken receipts) (fun _ after => context.Fails taken receipts after) :=
  (quiet_ends idle stored attempts).mono
    (fun _ _ ended => advances_of_stands (stands_of_free ended.1 ended.2.1 ended.2.2))
    fun _ _ fails => fails

section Phases

variable {level : Level} {outer : List Level}

theorem control_ends (stands : Stands context taken receipts ⟨level, outer, .control⟩ live)
    (reached : (Session.feedAll taken context.start).1 =
      .receiving context.transfer context.mark ⟨level, outer, .control⟩)
    (within : ∀ earlier ∈ receipts, earlier.upTo <+: taken) (byte : UInt8) :
    live.Ends (push context.transfer ⟨level, outer, .control⟩ byte) (context.Advances (taken ++ [byte]) receipts)
      (fun _ after => context.Fails (taken ++ [byte]) receipts after) := by
  obtain ⟨inside, stored, idle⟩ := stands
  rw [push]
  cases meaning : lineKind? byte with
  | none => exact free_ends idle stored Complies.throw
  | some kind =>
      by_cases file : kind = .file
      · subst file
        obtain rfl := eq_of_lineKind?_file meaning
        refine Live.Ends.pure (advances_of_stands ⟨inside, stored, idle, taken, rfl, ?_⟩)
        exact ⟨List.not_mem_nil, Nat.zero_le _, within, reached⟩
      · refine free_ends idle stored (Complies.pure ⟨inside, ?_⟩)
        cases kind <;> trivial

/-- A byte of the line that announces a file. -/
theorem fileLine_ends {line : Wire.Line}
    (stands : Stands context taken receipts ⟨level, outer, .line .file line⟩ live) (byte : UInt8) :
    live.Ends (push context.transfer ⟨level, outer, .line .file line⟩ byte)
      (context.Advances (taken ++ [byte]) receipts)
      (fun _ after => context.Fails (taken ++ [byte]) receipts after) := by
  obtain ⟨inside, stored, idle, before, split, unbroken, short, earlier, between⟩ := stands
  rw [push]
  cases pushed : line.push byte with
  | more next =>
      obtain ⟨differs, room, bytes⟩ := not_mem_of_more pushed
      refine Live.Ends.pure (advances_of_stands ⟨inside, stored, idle, before, ?_, ?_, ?_, earlier, between⟩)
      · rw [split, bytes, List.append_assoc, List.cons_append]
      · rw [bytes]
        simp only [List.mem_append, List.mem_singleton, not_or]
        exact ⟨unbroken, differs.symm⟩
      · rwa [bytes, List.length_append]
  | done result =>
      cases result with
      | error fault => exact free_ends idle stored Complies.throw
      | ok text =>
          obtain ⟨rfl, decoded⟩ := text_of_done pushed
          change live.Ends (Step.ofExcept (Wire.Header.parse ("C" ++ text)) >>= _) _ _
          cases parsed : Wire.Header.parse ("C" ++ text) with
          | error fault => exact free_ends idle stored Complies.throw
          | ok header =>
              refine openFile_ends inside idle stored between unbroken short decoded parsed ?_ earlier
              rw [split, List.append_assoc, List.cons_append]

/-- A byte of a line that announces no file. -/
theorem otherLine_ends {kind : LineKind} {line : Wire.Line} (other : kind ≠ .file)
    (stands : Stands context taken receipts ⟨level, outer, .line kind line⟩ live) (byte : UInt8) :
    live.Ends (push context.transfer ⟨level, outer, .line kind line⟩ byte)
      (context.Advances (taken ++ [byte]) receipts)
      (fun _ after => context.Fails (taken ++ [byte]) receipts after) := by
  obtain ⟨inside, stored, holds⟩ := stands
  have idle : live.gateway.Idle context.mark := by
    cases kind <;> first | exact holds | exact absurd rfl other
  have free (next : Wire.Line) : Free ⟨level, outer, .line kind next⟩ := by
    cases kind <;> trivial
  apply free_ends idle stored
  rw [push]
  cases line.push byte with
  | more next => exact Complies.pure ⟨inside, free next⟩
  | done result =>
      refine Complies.bind (Complies.ofExcept result) fun text _ => ?_
      exact ((onLine_turns vouches_anyAnswer _ context.transfer other text).mono fun _ turns =>
        freeIn_of_turns turns inside).weaken fun _ => Effect.Courteous.quiet

theorem body_ends {file : Incoming} (stands : Stands context taken receipts ⟨level, outer, .body file⟩ live)
    (byte : UInt8) :
    live.Ends (push context.transfer ⟨level, outer, .body file⟩ byte) (context.Advances (taken ++ [byte]) receipts)
      (fun _ after => context.Fails (taken ++ [byte]) receipts after) := by
  obtain ⟨inside, stored, unfinished, receipt, number, placed, upTo, earlier, length, writer, begun, uploading⟩ :=
    stands
  rw [push, pushBody, writer]
  refine Live.Ends.logs ?_ fun _ _ fails => fails
  refine Live.Ends.bind ((Live.ends_write uploading begun [byte]).mono
    (fun _ _ written => written) fun _ _ interrupted => fails_of_interrupted stored interrupted) ?_
  rintro written after ⟨same, uploading, gains⟩
  refine awaitBody_ends inside (gains_then_nothing stored gains) (placed.push byte) ?_ earlier ?_ same begun
    uploading
  · rw [Receipt.upTo_push, upTo]
  · simp only [Receipt.push, List.length_append, List.length_singleton]
    omega

theorem lastWord_ends {site : Site} {state : Wire.Acknowledgement}
    (stands : Stands context taken receipts ⟨level, outer, .lastWord site state⟩ live) (byte : UInt8) :
    live.Ends (push context.transfer ⟨level, outer, .lastWord site state⟩ byte)
      (context.Advances (taken ++ [byte]) receipts)
      (fun _ after => context.Fails (taken ++ [byte]) receipts after) := by
  obtain ⟨inside, stored, idle⟩ := stands
  apply free_ends idle stored
  rw [push]
  cases state.push byte with
  | more next => exact Complies.pure ⟨inside, trivial⟩
  | done word =>
      apply Complies.bind ((Complies.result word).logging fun _ => trivial)
      intro _ _
      exact Complies.bind (context.transfer.logSuccess_complies (fun _ => trivial) site) fun _ _ =>
        Complies.pure ⟨inside, trivial⟩

end Phases

theorem push_ends (stands : receiver.Stands context taken receipts live)
    (reached : (Session.feedAll taken context.start).1 =
      .receiving context.transfer context.mark receiver) (within : ∀ earlier ∈ receipts, earlier.upTo <+: taken)
    (byte : UInt8) :
    live.Ends (receiver.push context.transfer byte) (context.Advances (taken ++ [byte]) receipts)
      (fun _ after => context.Fails (taken ++ [byte]) receipts after) := by
  obtain ⟨level, outer, phase⟩ := receiver
  cases phase with
  | control => exact control_ends stands reached within byte
  | line kind line =>
      by_cases file : kind = .file
      · subst file
        exact fileLine_ends stands byte
      · exact otherLine_ends file stands byte
  | body file => exact body_ends stands byte
  | lastWord site state => exact lastWord_ends stands byte

end Receiver

end ArtifactGate
