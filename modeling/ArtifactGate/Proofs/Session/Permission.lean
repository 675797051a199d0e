import ArtifactGate.Proofs.Session.Closing
import ArtifactGate.Proofs.Session.Reading

/-!
A session keeps to what its user may do. While an authorizer is in force a receiver puts only to repositories
that its user may write to, and a sender gets and sends only what its user may read.
-/
namespace ArtifactGate

variable {σ : Type} {user : String} {authorizer : Authorizer}

namespace Authorizer

def Grants (authorizer : Authorizer) (repository user : String) (access : Access) : Prop :=
  authorizer repository user access = true

/-- The calls that may be made on behalf of a user. -/
def Allows (authorizer : Authorizer) (user : String) : Call → Prop
  | .content location => authorizer.Grants location.repository user .read
  | .put location => authorizer.Grants location.repository user .write

theorem vouches (authorizer : Authorizer) : Vouches authorizer.Answers authorizer.Grants :=
  fun _ _ _ answered => Eq.symm answered

end Authorizer

/-- A client is told of a fault. -/
def IsReport (bytes : List UInt8) : Prop :=
  ∃ message, bytes = Wire.statusBytes Wire.errorStatus message

/-- A client is told that all is well. -/
def IsOk (bytes : List UInt8) : Prop :=
  bytes = Wire.statusBytes Wire.okStatus ""

/-- The directories of a receiver are as a user sees them. -/
def Receiver.Of (user : String) (receiver : Receiver) : Prop :=
  receiver.level.target.user = user ∧ ∀ level ∈ receiver.outer, level.target.user = user

namespace Receiver

variable {receiver : Receiver} {byte : UInt8} {progress : Progress Receiver}
  {granted : String → String → Access → Prop}

theorem Steps.of (steps : Steps granted receiver byte progress) (ours : receiver.Of user) :
    progress.Holds (Of user) :=
  steps.keeps (fun _ _ located _ => located.user.trans ours.1) ours

/-- What a receiver asks for is allowed to its user. -/
theorem Asks.permitted {effect : Effect} (asks : receiver.Asks authorizer.Grants byte effect)
    (ours : receiver.Of user) : effect.Permitted (authorizer.Allows user) IsOk := by
  cases effect with
  | beginUpload location properties =>
      obtain ⟨line, text, header, target, _, _, _, letsIn, outside, rfl⟩ := asks
      rcases letsIn.writable with sink | granted
      · exact absurd (sink.symm.trans outside) nofun
      · exact (letsIn.chosen.user.trans ours.1) ▸ granted
  | content location => exact asks.elim
  | send bytes => exact asks
  | _ => trivial

end Receiver

theorem Effect.Courteous.permitted {repository : String} {effect : Effect} {permitted : Call → Prop}
    (courteous : effect.Courteous repository) : effect.Permitted permitted IsOk := by
  cases effect <;> trivial

theorem Effect.Permitted.mono {effect : Effect} {permitted : Call → Prop} {said wider : List UInt8 → Prop}
    (allowed : effect.Permitted permitted said) (widen : ∀ bytes, said bytes → wider bytes) :
    effect.Permitted permitted wider := by
  cases effect <;> first | exact allowed | exact widen _ allowed

theorem Sender.Asks.permitted {sender : Sender} {paths : List String} {effect : Effect}
    (asks : sender.Asks authorizer.Grants user paths effect) :
    effect.Permitted (authorizer.Allows user) fun _ => ∃ path, sender.subject? paths = some path ∧
      (Sender.base path).Readable authorizer.Grants user := by
  obtain ⟨path, subject, reads⟩ := asks
  cases effect with
  | content location => exact reads
  | beginUpload location properties => exact reads.elim
  | send bytes => exact ⟨path, subject, reads⟩
  | _ => trivial

theorem Effect.Reads.quiet {effect : Effect} {granted : String → String → Access → Prop} {root : Location}
    (reads : effect.Reads granted user root) : effect.Quiet := by
  cases effect <;> trivial

namespace Session

/-- What a session may tell its client when a byte comes, besides reporting a fault: a receiver that all is
well, and a sender what it has to say about a path whose repository may be read. -/
def MaySay (authorizer : Authorizer) (user : String) : Session → List UInt8 → Prop
  | .receiving _ _ _, bytes => IsOk bytes
  | .sending transfer sender, _ => ∃ path, sender.subject? transfer.command.paths = some path ∧
      (Sender.base path).Readable authorizer.Grants user
  | .ended _, _ => False

variable [RemoteStore σ]

/-- A session of the user while the authorizer is in force. -/
structure Lawful (authorizer : Authorizer) (user : String) (state : Session × Live σ) : Prop where
  inForce : state.2.gateway.authorizer = authorizer
  tidy : Tidy state
  proper : match state.1 with
    | .receiving transfer _ receiver => transfer.login.user = user ∧ receiver.Of user
    | .sending transfer sender =>
      transfer.login.user = user ∧ sender.Stands authorizer.Grants user transfer.command.paths
    | .ended _ => True

variable {live : Live σ} {permitted : Call → Prop} {said : List UInt8 → Prop}

theorem report_follows (reports : ∀ bytes, IsReport bytes → said bytes) (fault : Fault) (live : Live σ) :
    live.Follows permitted said (report fault live) := by
  have sends : Complies live.gateway.authorizer.Answers (fun effect => ∃ bytes, effect = .send bytes ∧ said bytes)
      (fun _ => True) (report.sendError fault) :=
    Complies.mk ⟨⟨_, rfl, reports _ ⟨_, rfl⟩⟩, fun _ _ _ _ => trivial⟩
  refine ((Live.follows_of_complies sends ?_).mono (fun _ _ ended => ended.2) fun _ _ follows => follows).reached
  rintro _ ⟨bytes, rfl, allowed⟩
  exact allowed

theorem fail_follows (reports : ∀ bytes, IsReport bytes → said bytes) (transfer : Transfer) (mark : Nat)
    (failure : Failure) (live : Live σ) : live.Follows permitted said (fail transfer mark failure live).2 := by
  apply fail_keeps (live.Follows permitted said) transfer failure
  · exact .of_gateway (live.gateway.abandonSince_operates mark).follows
  · exact fun _ _ follows => follows.trans (.of_gateway (.of_same rfl rfl rfl))
  · exact fun world follows => follows.trans (report_follows reports failure.fault world)

section Parts

variable {α : Type} {step : Step α} {allowed : Effect → Prop} {valid : α → Prop} {next : α → Session} {mark : Nat}
  {tidy : α → Live σ → Prop}

/-- What a part of a session keeps to, the failure that it ends in keeps to as well. -/
theorem carryOut_follows_of_ends {holds : α → Live σ → Prop}
    (ends : live.Ends step (fun value after => holds value after ∧ live.Follows permitted said after)
      fun _ after => live.Follows permitted said after ∧ after.gateway.AtMostSince mark)
    (reports : ∀ bytes, IsReport bytes → said bytes) (transfer : Transfer) :
    live.Follows permitted said (carryOut transfer mark step next live).2 ∧
      ((∃ value after, holds value after ∧ carryOut transfer mark step next live = (next value, after)) ∨
        ∃ result after, after.gateway.uploads = [] ∧
          carryOut transfer mark step next live = (.ended result, after)) := by
  have settled (after : Live σ) (lost : live.Follows permitted said after ∧ after.gateway.AtMostSince mark) :
      live.Follows permitted said { after with gateway := after.gateway.settle } ∧
        after.gateway.settle.AtMostSince mark :=
    ⟨lost.1.trans (.of_gateway after.gateway.settle_works.operates.follows),
      lost.2.of_undisturbed after.gateway.settle_undisturbed⟩
  rcases carryOut_outcome transfer next ends settled with
    ⟨value, after, ⟨given, follows⟩, same⟩ | ⟨failure, after, ⟨follows, atMost⟩, same⟩
  · exact same ▸ ⟨follows, .inl ⟨value, after, given, rfl⟩⟩
  · rw [same]
    refine ⟨follows.trans (fail_follows reports transfer mark failure after), .inr ?_⟩
    exact ⟨_, _, fail_closes atMost transfer failure, rfl⟩

/-- A part of a session makes permitted calls and says what may be said, and so does the failure it ends in. -/
theorem carryOut_follows (complies : Complies live.gateway.authorizer.Answers allowed valid step)
    (permits : ∀ effect, allowed effect → effect.Permitted permitted said)
    (reports : ∀ bytes, IsReport bytes → said bytes)
    (ends : live.Ends step tidy fun _ after => after.gateway.AtMostSince mark) (transfer : Transfer) :
    live.Follows permitted said (carryOut transfer mark step next live).2 ∧
      ((∃ value after, valid value ∧ tidy value after ∧
          carryOut transfer mark step next live = (next value, after)) ∨
        ∃ result after, after.gateway.uploads = [] ∧
          carryOut transfer mark step next live = (.ended result, after)) := by
  have both := (Live.follows_of_complies complies permits).and ends
  have kept := both.mono (fun _ _ ⟨⟨given, follows⟩, tidies⟩ => (⟨⟨given, tidies⟩, follows⟩ : (_ ∧ _) ∧ _))
    fun _ _ lost => lost
  obtain ⟨follows, outcome⟩ := carryOut_follows_of_ends kept reports transfer
  refine ⟨follows, outcome.imp_left ?_⟩
  rintro ⟨value, after, ⟨given, tidies⟩, same⟩
  exact ⟨value, after, given, tidies, same⟩

theorem carryOut_lawful (inForce : live.gateway.authorizer = authorizer)
    (complies : Complies authorizer.Answers allowed valid step)
    (permits : ∀ effect, allowed effect → effect.Permitted permitted said)
    (reports : ∀ bytes, IsReport bytes → said bytes)
    (ends : live.Ends step tidy fun _ after => after.gateway.AtMostSince mark) (transfer : Transfer)
    (goesOn : ∀ value after, valid value → tidy value after → after.gateway.authorizer = authorizer →
      Lawful authorizer user (next value, after)) :
    Lawful authorizer user (carryOut transfer mark step next live) ∧
      live.Follows permitted said (carryOut transfer mark step next live).2 := by
  obtain ⟨follows, outcome⟩ :=
    @carryOut_follows _ _ live _ _ _ step _ _ next _ _ (inForce ▸ complies) permits reports ends transfer
  refine ⟨?_, follows⟩
  have still := follows.gateway.authorizer.trans inForce
  rcases outcome with ⟨value, after, holds, tidies, same⟩ | ⟨result, after, idle, same⟩
  · rw [same] at still ⊢
    exact goesOn value after holds tidies still
  · rw [same] at still ⊢
    exact ⟨still, idle, trivial⟩

end Parts

/-- A byte leaves a session lawful; on it the session makes calls that its user may make, and tells its client
what it may say. -/
theorem feed_lawful {state : Session × Live σ} (lawful : Lawful authorizer user state) (byte : UInt8) :
    Lawful authorizer user (feed byte state) ∧
      state.2.Follows (authorizer.Allows user) (fun bytes => MaySay authorizer user state.1 bytes ∨ IsReport bytes)
        (feed byte state).2 := by
  obtain ⟨session, live⟩ := state
  obtain ⟨inForce, tidy, proper⟩ := lawful
  cases session with
  | receiving transfer mark receiver =>
      obtain ⟨ours, directories⟩ := proper
      refine carryOut_lawful inForce (Receiver.push_steps authorizer.vouches transfer receiver byte)
        (fun _ asks => (asks.permitted directories).mono fun _ => .inl) (fun _ => .inr)
        (receiver.push_tidies tidy transfer byte) transfer ?_
      intro progress after steps tidies still
      have goesOn := steps.of directories
      cases progress with
      | waiting next => exact ⟨still, tidies, ours, goesOn⟩
      | _ => exact ⟨still, tidies.1, trivial⟩
  | sending transfer sender =>
      obtain ⟨rfl, stands⟩ := proper
      have complies : Complies live.gateway.authorizer.Answers _ _ _ :=
        inForce ▸ sender.push_reads authorizer.vouches transfer stands byte
      have ends := (Live.undisturbed_of_complies complies fun _ ⟨_, _, reads⟩ => reads.quiet).mono
        (fun _ _ ended => ended.2.uploads tidy) fun _ after undisturbed => (.inl (undisturbed.uploads tidy) :
          after.gateway.AtMostSince live.gateway.nextUpload)
      refine carryOut_lawful inForce (inForce ▸ complies) (fun _ asks => asks.permitted.mono fun _ => .inl)
        (fun _ => .inr) ends transfer ?_
      intro progress after stands idle still
      cases progress with
      | waiting next => exact ⟨still, idle, rfl, stands⟩
      | _ => exact ⟨still, idle, trivial⟩
  | ended result => exact ⟨⟨inForce, tidy, proper⟩, .refl live⟩

theorem start_lawful {live : Live σ} (login : Login) (line : String) (inForce : live.gateway.authorizer = authorizer)
    (idle : live.gateway.uploads = []) :
    Lawful authorizer login.user (start login line live) ∧
      live.Follows (authorizer.Allows login.user) (fun bytes => IsOk bytes ∨ IsReport bytes)
        (start login line live).2 := by
  rw [start]
  cases Command.parse line with
  | error fault =>
      have reported := (report_undisturbed fault live).uploads idle
      have follows : live.Follows (authorizer.Allows login.user) (fun bytes => IsOk bytes ∨ IsReport bytes)
          (report fault live) := report_follows (fun _ => .inr) fault live
      exact ⟨⟨follows.gateway.authorizer.trans inForce, reported, trivial⟩, follows⟩
  | ok command =>
      dsimp only
      cases command.direction with
      | source => exact ⟨⟨inForce, idle, rfl, .requested⟩, .refl live⟩
      | sink =>
          refine carryOut_lawful inForce (Receiver.start_begins _ _)
            (fun _ asks => asks.permitted.mono fun _ => .inl) (fun _ => .inr)
            (Live.idle_of_attempts ((Receiver.start_begins _ _).weaken fun _ => Effect.Courteous.quiet)
              ⟨idle, Nat.le_refl _⟩) _ ?_
          intro receiver after begun tidy still
          refine ⟨still, ?_, rfl, begun.target.user, ?_⟩
          · apply Receiver.tidy_of_idle tidy.2
            intro file body
            cases begun.phase.symm.trans body
          · exact begun.outer ▸ List.forall_mem_nil _

/-- A last part of a session, which only logs. -/
theorem carryOut_closes {step : Step Unit} {valid : Prop} {mark : Nat}
    (complies : ∀ possible : (effect : Effect) → effect.Answer → Prop,
      Complies possible (fun effect => ∃ entry, effect = .log entry) (fun _ => valid) step)
    (atMost : live.gateway.AtMostSince mark) (idle : valid → live.gateway.uploads = []) (transfer : Transfer) :
    (carryOut transfer mark step (fun _ => .ended (.ok ())) live).2.gateway.uploads = [] ∧
      live.Follows permitted IsReport (carryOut transfer mark step (fun _ => .ended (.ok ())) live).2 := by
  have quiet : Attempts Effect.Quiet (fun _ => valid) step :=
    (complies _).weaken fun _ ⟨_, logs⟩ => logs ▸ trivial
  have ends := (live.undisturbed_of_attempts quiet).mono (fun _ _ ended => ended.2.uploads (idle ended.1))
    fun _ _ undisturbed => atMost.of_undisturbed undisturbed
  obtain ⟨follows, outcome⟩ := @carryOut_follows _ _ live permitted IsReport _ step _ _ (fun _ => .ended (.ok ())) _ _
    (complies _) (fun _ ⟨_, logs⟩ => logs ▸ trivial) (fun _ reported => reported) ends transfer
  refine ⟨?_, follows⟩
  rcases outcome with ⟨value, after, _, closed, same⟩ | ⟨result, after, closed, same⟩ <;>
    exact same ▸ closed

theorem cancel_closes {mark : Nat} (atMost : live.gateway.AtMostSince mark) (transfer : Transfer) :
    (cancel transfer mark live).2.gateway.uploads = [] ∧
      live.Follows permitted IsReport (cancel transfer mark live).2 := by
  have settled : live.Follows permitted IsReport { live with gateway := live.gateway.settle } :=
    .of_gateway live.gateway.settle_works.operates.follows
  exact ⟨fail_closes (by exact atMost.of_undisturbed live.gateway.settle_undisturbed) transfer _,
    settled.trans (fail_follows (fun _ reported => reported) transfer mark _ _)⟩

/-- The end of the client's bytes ends a session: nothing of it stays in progress, it makes no calls but those
of what is in progress, and what it says is the report of a fault. -/
theorem finish_closes {state : Session × Live σ} (tidy : Tidy state) (ending : Ending) :
    (finish ending state).2.gateway.uploads = [] ∧
      state.2.Follows permitted IsReport (finish ending state).2 := by
  obtain ⟨session, live⟩ := state
  cases session with
  | receiving transfer mark receiver =>
      have tidy : receiver.Tidy mark live.gateway := tidy
      cases ending with
      | closed =>
          refine carryOut_closes (fun _ => receiver.atEnd_complies (fun entry => ⟨entry, rfl⟩) transfer)
            tidy.atMost (fun rests => (tidy.idle rests).1) transfer
      | broken reason =>
          exact carryOut_closes (fun _ => breakOff_complies (fun entry => ⟨entry, rfl⟩) transfer _ reason)
            tidy.atMost False.elim transfer
      | silent => exact cancel_closes tidy.atMost transfer
  | sending transfer sender =>
      cases ending with
      | closed =>
          exact carryOut_closes (fun _ => sender.atEnd_complies (fun entry => ⟨entry, rfl⟩) transfer) (.inl tidy)
            (fun _ : True => tidy) transfer
      | broken reason =>
          exact carryOut_closes (fun _ => breakOff_complies (fun entry => ⟨entry, rfl⟩) transfer _ reason)
            (.inl tidy) False.elim transfer
      | silent => exact cancel_closes (.inl tidy) transfer
  | ended result => exact ⟨tidy, .refl live⟩

/-- A session stays lawful byte after byte, and makes calls that its user may make. -/
theorem feedAll_lawful {state : Session × Live σ} (lawful : Lawful authorizer user state) (input : List UInt8) :
    Lawful authorizer user (feedAll input state) ∧
      state.2.gateway.Follows (authorizer.Allows user) (feedAll input state).2.gateway := by
  induction input generalizing state with
  | nil => exact ⟨lawful, .refl _⟩
  | cons byte rest ih =>
      obtain ⟨next, follows⟩ := feed_lawful lawful byte
      obtain ⟨last, further⟩ := ih next
      exact ⟨last, follows.gateway.trans further⟩

end Session

end ArtifactGate
