import ArtifactGate.Proofs.Session.Targets

/-!
What one byte does to the receiving side of a session, said once: the receiver it may leave, and the effects
it may ask for on the way. What holds of every receiver is shown by cases on the step.
-/
namespace ArtifactGate

/-- The effect asks what there is in a repository, or sends the status that all is well. -/
def Effect.Courteous (repository : String) : Effect → Prop
  | .send bytes => bytes = Wire.statusBytes Wire.okStatus ""
  | effect => effect.Inquires repository

theorem Effect.Inquires.courteous {repository : String} {effect : Effect} (inquires : effect.Inquires repository) :
    effect.Courteous repository := by
  cases effect <;> first | exact inquires | exact inquires.elim

theorem Effect.Courteous.quiet {repository : String} {effect : Effect} (courteous : effect.Courteous repository) :
    effect.Quiet := by
  cases effect <;> trivial

variable {α : Type} {possible : (effect : Effect) → effect.Answer → Prop}
  {granted : String → String → Access → Prop} {allowed : Effect → Prop}

theorem Complies.ofExcept (result : Except Fault α) :
    Complies possible allowed (fun value => result = .ok value) (Step.ofExcept result) := by
  cases result with
  | ok value => exact Complies.pure rfl
  | error fault => exact Complies.throw

theorem Complies.result (result : Except Fault α) :
    Complies possible allowed (fun value => result = .ok value) (ExceptT.mk (Pure.pure result) : Attempt α) :=
  Complies.mk fun _ same => same

theorem send_quiet (bytes : List UInt8) : Attempts Effect.Quiet (fun _ => True) (send bytes) :=
  Complies.mk ⟨trivial, fun _ _ _ _ => trivial⟩

theorem sendOk_complies (sends : allowed (.send (Wire.statusBytes Wire.okStatus ""))) :
    Complies possible allowed (fun _ => True) sendOk :=
  Complies.mk ⟨sends, fun _ _ _ _ => trivial⟩

theorem sendOk_courteous {repository : String} :
    Complies possible (Effect.Courteous repository) (fun _ => True) sendOk :=
  sendOk_complies rfl

theorem Transfer.logSuccess_complies (allows : ∀ entry, allowed (.log entry)) (transfer : Transfer) (site : Site) :
    Complies possible allowed (fun _ => True) (transfer.logSuccess site) :=
  Complies.lift ⟨allows _, fun _ _ => trivial⟩

/-- Opening a file for writing asks whether that is granted, and begins an upload unless the file is in the
sink. -/
theorem Node.openWrite_complies (vouches : Vouches possible granted) {node : Node}
    (asks : ∀ effect, effect.Inquires node.location.repository → allowed effect)
    (begins : node.isSink = false → ∀ properties, allowed (.beginUpload node.location properties)) :
    Complies possible allowed (fun _ => True) (node.openWrite 0) := by
  refine Node.check_inquires vouches node .write asks fun _ => ?_
  refine Complies.refuse fun _ => Complies.ite (fun _ => Complies.pure trivial) fun outside => ?_
  have requests (properties : Properties) : Complies possible allowed (fun _ => True)
      (ExceptT.mk (Action.request (.beginUpload node.location properties)) : Attempt Nat) :=
    Complies.mk ⟨begins (Bool.eq_false_iff.2 outside) properties, fun _ _ _ _ => trivial⟩
  exact Complies.bind (requests _) fun number _ => Complies.pure trivial

namespace Writer

theorem write_complies (writes : ∀ number chunk, allowed (.writeUpload number chunk)) (writer : Writer)
    (chunk : List UInt8) : Complies possible allowed (fun _ => True) (writer.write chunk) := by
  cases writer with
  | sink written => exact Complies.pure trivial
  | upload number =>
      have requests : Complies possible allowed (fun _ => True)
          (ExceptT.mk (Action.request (.writeUpload number chunk)) : Attempt Unit) :=
        Complies.mk ⟨writes number chunk, fun _ _ _ _ => trivial⟩
      exact Complies.bind requests fun _ _ => Complies.pure trivial

theorem finish_complies (finishes : ∀ number, allowed (.finishUpload number)) (writer : Writer) :
    Complies possible allowed (fun _ => True) writer.finish := by
  cases writer with
  | sink written => exact Complies.pure trivial
  | upload number => exact Complies.mk ⟨finishes number, fun _ _ _ _ => trivial⟩

end Writer

/-- A session that goes on does so in a state of which this holds. -/
def Progress.Holds {α : Type} (holds : α → Prop) : Progress α → Prop
  | .waiting state => holds state
  | .over => True

theorem Progress.Holds.mono {α : Type} {holds wider : α → Prop} {progress : Progress α}
    (widen : ∀ state, holds state → wider state) (valid : progress.Holds holds) : progress.Holds wider := by
  cases progress with
  | waiting state => exact widen state valid
  | _ => trivial

namespace Receiver

/-- What a line that announces no file makes of a receiver. -/
inductive Turns (granted : String → String → Access → Prop) (receiver : Receiver) :
    LineKind → String → Progress Receiver → Prop
  | times {text : String} {times : Wire.Timestamps} (parsed : Wire.Timestamps.parse ("T" ++ text) = .ok times) :
    Turns granted receiver .times text
      (.waiting ⟨{ receiver.level with times := some times }, receiver.outer, .control⟩)
  | entered {text : String} {header : Wire.Header} {directory : Node}
      (parsed : Wire.Header.parse ("D" ++ text) = .ok header)
      (located : directory.At receiver.level.target.user
        (receiver.level.target.location.childDirectory header.name))
      (isOpen : directory.IsOpen) (named : isFileName header.name = true)
      (writable : directory.Allowed granted .write) :
    Turns granted receiver .directory text
      (.waiting ⟨{ target := directory }, { receiver.level with times := none } :: receiver.outer, .control⟩)
  | left {text : String} {level : Level} {outer : List Level} (inner : receiver.outer = level :: outer) :
    Turns granted receiver .leave text (.waiting ⟨level, outer, .control⟩)
  | closed {text : String} (outermost : receiver.outer = []) : Turns granted receiver .leave text .over
  | warned {text : String} : Turns granted receiver .warning text receiver.atControl

/-- A header lets a file in: under a valid name, at a place its sender may write to. -/
structure LetsIn (granted : String → String → Access → Prop) (receiver : Receiver) (header : Wire.Header)
    (target : Node) : Prop where
  chosen : Chosen receiver.level.target header.name target
  named : isFileName header.name = true
  writable : target.Allowed granted .write

/-- What a receiver waits for while a file is coming in. -/
def awaited (file : Incoming) : Reception :=
  if file.remaining = 0 then .lastWord file.node.site .status else .body file

/-- What a byte makes of a receiver. -/
inductive Steps (granted : String → String → Access → Prop) : Receiver → UInt8 → Progress Receiver → Prop
  | control {level : Level} {outer : List Level} {byte : UInt8} {kind : LineKind}
      (meaning : lineKind? byte = some kind) :
    Steps granted ⟨level, outer, .control⟩ byte (.waiting ⟨level, outer, .line kind {}⟩)
  | line {level : Level} {outer : List Level} {kind : LineKind} {line next : Wire.Line} {byte : UInt8}
      (more : line.push byte = .more next) :
    Steps granted ⟨level, outer, .line kind line⟩ byte (.waiting ⟨level, outer, .line kind next⟩)
  | turn {level : Level} {outer : List Level} {kind : LineKind} {line : Wire.Line} {byte : UInt8} {text : String}
      {progress : Progress Receiver} (done : line.push byte = .done (.ok text))
      (turns : Turns granted ⟨level, outer, .control⟩ kind text progress) :
    Steps granted ⟨level, outer, .line kind line⟩ byte progress
  | opened {level : Level} {outer : List Level} {line : Wire.Line} {byte : UInt8} {text : String}
      {header : Wire.Header} {target : Node} {file : Incoming} (done : line.push byte = .done (.ok text))
      (parsed : Wire.Header.parse ("C" ++ text) = .ok header)
      (letsIn : LetsIn granted ⟨level, outer, .control⟩ header target)
      (fresh : file.remaining = header.length) (site : file.node.site = ⟨target.location, header.length⟩) :
    Steps granted ⟨level, outer, .line .file line⟩ byte
      (.waiting ⟨{ level with times := none }, outer, awaited file⟩)
  | body {level : Level} {outer : List Level} {file : Incoming} {byte : UInt8} {writer : Writer} :
    Steps granted ⟨level, outer, .body file⟩ byte
      (.waiting ⟨level, outer, awaited { file with writer, remaining := file.remaining - 1 }⟩)
  | word {level : Level} {outer : List Level} {site : Site} {state next : Wire.Acknowledgement} {byte : UInt8}
      (more : state.push byte = .more next) :
    Steps granted ⟨level, outer, .lastWord site state⟩ byte (.waiting ⟨level, outer, .lastWord site next⟩)
  | acknowledged {level : Level} {outer : List Level} {site : Site} {state : Wire.Acknowledgement} {byte : UInt8}
      (done : state.push byte = .done (.ok ())) :
    Steps granted ⟨level, outer, .lastWord site state⟩ byte (.waiting ⟨level, outer, .control⟩)

/-- The byte ends a header line that lets a file in at the location. -/
def Opens (granted : String → String → Access → Prop) (receiver : Receiver) (byte : UInt8)
    (location : Location) : Prop :=
  ∃ line text header target, receiver.phase = .line .file line ∧ line.push byte = .done (.ok text) ∧
    Wire.Header.parse ("C" ++ text) = .ok header ∧
    LetsIn granted ⟨receiver.level, receiver.outer, .control⟩ header target ∧
    target.isSink = false ∧ location = target.location

/-- The byte ends the word that a file is well received, and with it the file. -/
def Finishes (receiver : Receiver) (byte : UInt8) : Prop :=
  ∃ site state, receiver.phase = .lastWord site state ∧ state.push byte = .done (.ok ())

/-- What a byte may make a receiver ask for. A record of a failure may be logged on any. -/
def Asks (granted : String → String → Access → Prop) (receiver : Receiver) (byte : UInt8) : Effect → Prop
  | .beginUpload location _ => receiver.Opens granted byte location
  | .writeUpload _ _ | .finishUpload _ => True
  | .log entry => entry.exitValue = 1 ∨ receiver.Finishes byte
  | effect => effect.Courteous receiver.level.target.location.repository

theorem asks_of_courteous {receiver : Receiver} {byte : UInt8} {effect : Effect}
    (courteous : effect.Courteous receiver.level.target.location.repository) : receiver.Asks granted byte effect := by
  cases effect <;> first | exact courteous | exact courteous.elim

theorem enter_turns (vouches : Vouches possible granted) (receiver : Receiver) (transfer : Transfer)
    {text : String} {header : Wire.Header} (parsed : Wire.Header.parse ("D" ++ text) = .ok header) :
    Complies possible (Effect.Courteous receiver.level.target.location.repository)
      (receiver.Turns granted .directory text) (receiver.enter transfer header) := by
  rw [enter]
  apply Complies.refuse
  intro _
  refine Complies.bind ((directoryTarget_inquires vouches receiver.level.target header.name).weaken
    fun _ => Effect.Inquires.courteous).unlogged ?_
  rintro directory ⟨located, isOpen, named, writable⟩
  exact Complies.bind sendOk_courteous.unlogged fun _ _ =>
    Complies.pure (.entered parsed located isOpen named writable)

theorem leave_turns (receiver : Receiver) (text : String) :
    Complies possible (Effect.Courteous receiver.level.target.location.repository)
      (receiver.Turns granted .leave text) receiver.leave := by
  apply Complies.bind sendOk_courteous.unlogged
  intro _ _
  cases outer : receiver.outer with
  | nil => exact Complies.pure (.closed outer)
  | cons level rest => exact Complies.pure (.left outer)

theorem onLine_turns (vouches : Vouches possible granted) (receiver : Receiver) (transfer : Transfer)
    {kind : LineKind} (other : kind ≠ .file) (text : String) :
    Complies possible (Effect.Courteous receiver.level.target.location.repository)
      (receiver.Turns granted kind text) (receiver.onLine transfer kind text) := by
  cases kind with
  | times =>
      apply Complies.bind (Complies.ofExcept _)
      intro times parsed
      exact Complies.bind sendOk_courteous.unlogged fun _ _ => Complies.pure (.times parsed)
  | file => exact absurd rfl other
  | directory =>
      exact Complies.bind (Complies.ofExcept _) fun header parsed =>
        enter_turns vouches receiver transfer parsed
  | leave => exact leave_turns receiver text
  | warning => exact Complies.pure .warned
  | error => exact Complies.throw

section Opening

variable {receiver : Receiver} {byte : UInt8}

theorem sendOk_asks (receiver : Receiver) (byte : UInt8) :
    Complies possible (receiver.Asks granted byte) (fun _ => True) sendOk :=
  sendOk_complies rfl

theorem awaitBody_asks (receiver waiting : Receiver) (byte : UInt8) (file : Incoming) :
    Complies possible (receiver.Asks granted byte)
      (fun progress => progress = .waiting { waiting with phase := awaited file }) (waiting.awaitBody file) := by
  rw [awaitBody, awaited]
  split
  · refine Complies.bind (file.writer.finish_complies fun _ => trivial) fun _ _ => ?_
    exact Complies.bind (sendOk_asks receiver byte) fun _ _ => Complies.pure rfl
  · exact Complies.pure rfl

/-- A header line lets a file in, or nothing is begun. -/
theorem openFile_asks (vouches : Vouches possible granted) {level : Level} {outer : List Level}
    {line : Wire.Line} {text : String} {header : Wire.Header} (done : line.push byte = .done (.ok text))
    (parsed : Wire.Header.parse ("C" ++ text) = .ok header) (transfer : Transfer) :
    Complies possible (Asks granted ⟨level, outer, .line .file line⟩ byte)
      (Steps granted ⟨level, outer, .line .file line⟩ byte)
      (openFile transfer ⟨level, outer, .control⟩ header) := by
  rw [openFile]
  refine Complies.bind (((fileTarget_inquires vouches level.target header.name).weaken
    fun _ asks => asks_of_courteous asks.courteous).logging fun _ => .inl rfl) ?_
  rintro target ⟨chosen, named, writable⟩
  have letsIn : LetsIn granted ⟨level, outer, .control⟩ header target := ⟨chosen, named, writable⟩
  refine Complies.logging ?_ fun _ => .inl rfl
  rw [beginFile]
  refine Complies.bind (Node.openWrite_complies vouches
    (fun _ asks => asks_of_courteous (chosen.location_repository ▸ asks).courteous) fun outside _ => ?_)
      fun writer _ => ?_
  · exact ⟨line, text, header, target, rfl, done, parsed, letsIn, outside, rfl⟩
  · refine Complies.bind (sendOk_asks _ byte) fun _ _ => ?_
    refine (awaitBody_asks _ _ byte _).mono ?_
    rintro progress rfl
    exact .opened done parsed letsIn rfl rfl

end Opening

/-- A byte makes of a receiver what the steps say, and asks for nothing else. -/
theorem push_steps (vouches : Vouches possible granted) (transfer : Transfer) (receiver : Receiver)
    (byte : UInt8) :
    Complies possible (receiver.Asks granted byte) (Steps granted receiver byte)
      (receiver.push transfer byte) := by
  obtain ⟨level, outer, phase⟩ := receiver
  have courteous {part : Step (Progress Receiver)} {phase : Reception} {holds : Progress Receiver → Prop}
      (complies : Complies possible (Effect.Courteous level.target.location.repository) holds part) :
      Complies possible (Asks granted ⟨level, outer, phase⟩ byte) holds part :=
    complies.weaken fun _ courteous => asks_of_courteous courteous
  cases phase with
  | control =>
      rw [push]
      cases meaning : lineKind? byte with
      | none => exact Complies.throw
      | some kind => exact Complies.pure (.control meaning)
  | line kind line =>
      rw [push]
      cases pushed : line.push byte with
      | more next => exact Complies.pure (.line pushed)
      | done result =>
          apply Complies.bind (Complies.ofExcept result)
          rintro text rfl
          by_cases file : kind = .file
          · subst file
            apply Complies.bind (Complies.ofExcept _)
            intro header parsed
            exact openFile_asks vouches pushed parsed transfer
          · exact (courteous (onLine_turns vouches ⟨level, outer, .control⟩ transfer file text)).mono
              fun _ turns => .turn pushed turns
  | body file =>
      rw [push, pushBody]
      refine Complies.logging ?_ fun _ => .inl rfl
      apply Complies.bind (file.writer.write_complies (fun _ _ => trivial) [byte])
      intro writer _
      refine (awaitBody_asks _ _ byte _).mono ?_
      rintro progress rfl
      exact .body
  | lastWord site state =>
      rw [push]
      cases pushed : state.push byte with
      | more next => exact Complies.pure (.word pushed)
      | done word =>
          apply Complies.bind ((Complies.result word).logging fun _ => .inl rfl)
          rintro _ rfl
          exact Complies.bind (transfer.logSuccess_complies (fun _ => .inr ⟨site, state, rfl, pushed⟩) site) fun _ _ =>
            Complies.pure (.acknowledged pushed)

section Directories

variable {holds : Node → Prop} {receiver : Receiver} {byte : UInt8} {progress : Progress Receiver}

/-- This holds of the directory that a receiver is in, and of those it is to go back to. -/
def Keeps (holds : Node → Prop) (receiver : Receiver) : Prop :=
  holds receiver.level.target ∧ ∀ level ∈ receiver.outer, holds level.target

theorem Turns.keeps {kind : LineKind} {text : String} (turns : receiver.Turns granted kind text progress)
    (enters : ∀ name directory, directory.At receiver.level.target.user
        (receiver.level.target.location.childDirectory name) → directory.IsOpen → holds directory)
    (keeps : receiver.Keeps holds) : progress.Holds (Keeps holds) := by
  cases turns with
  | times parsed => exact keeps
  | entered parsed located isOpen named writable =>
      exact ⟨enters _ _ located isOpen, List.forall_mem_cons.2 keeps⟩
  | left inner =>
      have outer := keeps.2
      rw [inner] at outer
      exact List.forall_mem_cons.1 outer
  | closed outermost => trivial
  | warned => exact keeps

/-- What holds of the directories of a receiver holds of them after a byte, if it holds of the directory that is
entered with it. -/
theorem Steps.keeps (steps : Steps granted receiver byte progress)
    (enters : ∀ name directory, directory.At receiver.level.target.user
        (receiver.level.target.location.childDirectory name) → directory.IsOpen → holds directory)
    (keeps : receiver.Keeps holds) : progress.Holds (Keeps holds) := by
  cases steps with
  | turn done turns => exact turns.keeps enters keeps
  | _ => exact keeps

end Directories

/-- What a session that receives begins with: the node at the path that its command names. -/
structure Begins (transfer : Transfer) (path : String) (receiver : Receiver) : Prop where
  outer : receiver.outer = []
  phase : receiver.phase = .control
  times : receiver.level.times = none
  target : receiver.level.target.At transfer.login.user (Location.resolve path)
  isOpen : transfer.command.targetIsDirectory = true → receiver.level.target.IsOpen

theorem start_begins (transfer : Transfer) (path : String) :
    Complies possible (Effect.Courteous (Location.resolve path).repository) (Begins transfer path)
      (start transfer path) := by
  rw [start]
  refine Complies.bind (((Node.resolve_inquires transfer.login.user path).weaken
    fun _ => Effect.Inquires.courteous).of_attempts).unlogged ?_
  intro target located
  apply Complies.refuse
  intro accepted
  refine Complies.bind sendOk_courteous.unlogged fun _ _ => Complies.pure ⟨rfl, rfl, rfl, located, ?_⟩
  exact fun flag => Node.isOpen_of_accepted fun refused => accepted (by rw [flag, Bool.true_and, refused])

/-- No line is coming in, and no file. -/
def Rests (receiver : Receiver) : Prop :=
  match receiver.phase with
  | .control | .lastWord _ _ => True
  | _ => False

/-- A receiver that rests may be told that nothing more comes; what it asks for is to log. -/
theorem atEnd_complies (logs : ∀ entry, allowed (.log entry)) (transfer : Transfer) (receiver : Receiver) :
    Complies possible allowed (fun _ => receiver.Rests) (receiver.atEnd transfer) := by
  obtain ⟨level, outer, phase⟩ := receiver
  cases phase with
  | control => exact Complies.pure trivial
  | line kind line => exact Complies.throw
  | body file => exact Complies.logging Complies.throw fun _ => logs _
  | lastWord site state =>
      apply Complies.bind ((Complies.result _).logging fun _ => logs _)
      intro _ _
      exact (transfer.logSuccess_complies logs site).mono fun _ _ => trivial

end Receiver

/-- A sender that is told that nothing more comes asks for no more than to log. -/
theorem Sender.atEnd_complies (logs : ∀ entry, allowed (.log entry)) (transfer : Transfer) (sender : Sender) :
    Complies possible allowed (fun _ => True) (sender.atEnd transfer) :=
  ((Complies.result _).mono fun _ _ => trivial).loggingIn fun _ _ _ => logs _

end ArtifactGate
