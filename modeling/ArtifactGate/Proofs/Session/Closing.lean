import ArtifactGate.Proofs.Gateway.InProgress
import ArtifactGate.Proofs.Session.Steps

/-!
A session leaves no upload in progress, whatever the client sends and the store answers: a receiver has one
while the bytes of a file come in, and none at other times, and a session that fails gives up what it began.
-/
namespace ArtifactGate

variable {σ : Type} {mark : Nat}

/-- The upload that a writer writes to is the only one in progress. -/
def Writer.Alone (mark : Nat) (gateway : Gateway σ) : Writer → Prop
  | .sink _ => gateway.Idle mark
  | .upload number => mark ≤ number ∧ mark ≤ gateway.nextUpload ∧ gateway.numbers = [number]

/-- Only the upload of the file that is coming in is in progress. -/
def Receiver.Tidy (mark : Nat) (gateway : Gateway σ) (receiver : Receiver) : Prop :=
  match receiver.phase with
  | .body file => file.writer.Alone mark gateway
  | _ => gateway.Idle mark

section Writing

variable {writer : Writer} {receiver : Receiver} {before after gateway : Gateway σ}

theorem Writer.Alone.of_undisturbed (alone : writer.Alone mark before) (undisturbed : before.Undisturbed after) :
    writer.Alone mark after := by
  cases writer with
  | sink written => exact undisturbed.idle alone
  | upload number => exact ⟨alone.1, undisturbed.nextUpload ▸ alone.2.1, undisturbed.numbers.trans alone.2.2⟩

theorem Writer.Alone.atMost (alone : writer.Alone mark gateway) : gateway.AtMostSince mark := by
  cases writer with
  | sink written => exact .inl alone.1
  | upload number => exact .inr ⟨number, alone.1, alone.2.2⟩

theorem Receiver.Tidy.atMost (tidy : receiver.Tidy mark gateway) : gateway.AtMostSince mark := by
  obtain ⟨level, outer, phase⟩ := receiver
  cases phase with
  | body file => exact Writer.Alone.atMost tidy
  | _ => exact .inl tidy.1

theorem Receiver.Tidy.idle (tidy : receiver.Tidy mark gateway) (rests : receiver.Rests) : gateway.Idle mark := by
  obtain ⟨level, outer, phase⟩ := receiver
  cases phase with
  | body file => exact rests.elim
  | _ => exact tidy

theorem Receiver.tidy_of_idle (idle : gateway.Idle mark) (free : ∀ file, receiver.phase ≠ .body file) :
    receiver.Tidy mark gateway := by
  obtain ⟨level, outer, phase⟩ := receiver
  cases phase with
  | body file => exact absurd rfl (free file)
  | _ => exact idle

end Writing

variable [RemoteStore σ] {live : Live σ}

namespace Live

theorem beginUpload_alone (idle : live.gateway.Idle mark) (location : Location) (properties : Properties) :
    live.Ends (ExceptT.mk (Action.request (.beginUpload location properties)) : Attempt Nat)
      (fun number after => (Writer.upload number).Alone mark after.gateway)
      (fun _ after => after.gateway.AtMostSince mark) := by
  have outcome := live.gateway.beginUpload_numbers location properties live.gateway.pipeCapacity
  rw [Ends, ExceptT.run_mk, run_request, perform, answer]
  rcases result : live.gateway.beginUpload location properties live.gateway.pipeCapacity with
    ⟨_ | _ | number, after⟩ <;> simp only [result] at outcome ⊢
  · exact .inl (outcome.uploads idle.1)
  · exact .inl (outcome.uploads idle.1)
  · obtain ⟨rfl, numbers, next⟩ := outcome
    rw [Gateway.numbers_eq_nil.2 idle.1, List.nil_append] at numbers
    exact ⟨idle.2, next ▸ Nat.le_succ_of_le idle.2, numbers⟩

theorem write_alone {writer : Writer} (alone : writer.Alone mark live.gateway) (chunk : List UInt8) :
    live.Ends (writer.write chunk) (fun writer after => writer.Alone mark after.gateway)
      (fun _ after => after.gateway.AtMostSince mark) := by
  cases writer with
  | sink written => exact Ends.pure alone
  | upload number =>
      have written : live.Ends (ExceptT.mk (Action.request (.writeUpload number chunk)) : Attempt Unit)
          (fun _ after => live.gateway.Undisturbed after.gateway) (fun _ after => after.gateway.AtMostSince mark) := by
        have undisturbed := live.gateway.write_undisturbed number chunk
        rw [Ends, ExceptT.run_mk, run_request, perform]
        rcases result : live.gateway.write number chunk with ⟨_ | _ | _, after⟩ <;> simp only [result] at undisturbed ⊢
        · exact undisturbed
        · exact (alone.of_undisturbed undisturbed).atMost
        · exact (alone.of_undisturbed undisturbed).atMost
      exact written.bind fun _ after undisturbed => Ends.pure (alone.of_undisturbed undisturbed)

theorem finish_alone {writer : Writer} (alone : writer.Alone mark live.gateway) :
    live.Ends writer.finish (fun _ after => after.gateway.Idle mark)
      (fun _ after => after.gateway.AtMostSince mark) := by
  cases writer with
  | sink written => exact Ends.pure alone
  | upload number =>
      have outcome := live.gateway.finish_numbers alone.2.2
      rw [Writer.finish, Ends, ExceptT.run_mk, run_request, perform, answer]
      rcases result : live.gateway.finish number with ⟨_ | _ | _, after⟩ <;> simp only [result] at outcome ⊢
      · exact (alone.of_undisturbed outcome).atMost
      · exact .inl outcome.1
      · exact ⟨outcome.1, outcome.2 ▸ alone.2.1⟩

theorem idle_of_attempts {α ε : Type} {part : ExceptT ε Action α} {valid : α → Prop}
    (attempts : Attempts Effect.Quiet valid part) (idle : live.gateway.Idle mark) :
    live.Ends part (fun value after => valid value ∧ after.gateway.Idle mark)
      (fun _ after => after.gateway.AtMostSince mark) :=
  (live.undisturbed_of_attempts attempts).mono (fun _ _ ended => ⟨ended.1, ended.2.idle idle⟩)
    fun _ _ undisturbed => .inl (undisturbed.idle idle).1

theorem openWrite_alone (idle : live.gateway.Idle mark) (node : Node) :
    live.Ends (node.openWrite 0) (fun writer after => writer.Alone mark after.gateway)
      (fun _ after => after.gateway.AtMostSince mark) := by
  rw [Node.openWrite]
  apply Ends.bind (idle_of_attempts node.isWritable_quiet idle)
  rintro allowed after ⟨_, idle⟩
  refine Ends.refuse (fun _ => .inl idle.1) fun _ => ?_
  refine Ends.refuse (fun nonzero => absurd rfl nonzero) fun _ => ?_
  refine Ends.ite (fun _ => Ends.pure idle) fun _ => ?_
  exact (beginUpload_alone idle _ _).bind fun number after alone => Ends.pure alone

theorem sendOk_idle (idle : live.gateway.Idle mark) :
    live.Ends sendOk (fun _ after => after.gateway.Idle mark) (fun _ after => after.gateway.AtMostSince mark) :=
  (idle_of_attempts (sendOk_complies trivial) idle).mono (fun _ _ ended => ended.2)
    fun _ _ atMost => atMost

theorem sendOk_alone {writer : Writer} (alone : writer.Alone mark live.gateway) :
    live.Ends sendOk (fun _ after => writer.Alone mark after.gateway)
      (fun _ after => after.gateway.AtMostSince mark) :=
  (live.undisturbed_of_attempts (sendOk_complies trivial)).mono
    (fun _ _ ended => alone.of_undisturbed ended.2) fun _ _ undisturbed => (alone.of_undisturbed undisturbed).atMost

end Live

namespace Receiver

/-- A session that goes on has a tidy receiver. -/
def Tidies (mark : Nat) (progress : Progress Receiver) (live : Live σ) : Prop :=
  match progress with
  | .waiting receiver => receiver.Tidy mark live.gateway
  | .over => live.gateway.Idle mark

theorem awaitBody_tidies {file : Incoming} (alone : file.writer.Alone mark live.gateway) (receiver : Receiver) :
    live.Ends (receiver.awaitBody file) (Tidies mark) (fun _ after => after.gateway.AtMostSince mark) := by
  rw [awaitBody, finishFile]
  refine Live.Ends.ite (fun _ => ?_) fun _ => Live.Ends.pure alone
  refine (Live.finish_alone alone).bind fun _ finished idle => ?_
  exact (Live.sendOk_idle idle).bind fun _ answered idle => Live.Ends.pure idle

theorem openFile_tidies (idle : live.gateway.Idle mark) (transfer : Transfer) (receiver : Receiver)
    (header : Wire.Header) :
    live.Ends (receiver.openFile transfer header) (Tidies mark) (fun _ after => after.gateway.AtMostSince mark) := by
  have chosen : Attempts Effect.Quiet (fun _ => True) (fileTarget receiver.level.target header.name) :=
    ((fileTarget_inquires vouches_anyAnswer _ _).mono fun _ _ => trivial).weaken fun _ => Effect.Inquires.quiet
  rw [openFile]
  refine (Live.idle_of_attempts (chosen.logging fun _ => trivial) idle).bind fun target found ended => ?_
  refine Live.Ends.logs ?_ fun _ _ atMost => atMost
  refine (Live.openWrite_alone ended.2 _).bind fun writer opened alone => ?_
  exact (Live.sendOk_alone alone).bind fun _ answered alone => awaitBody_tidies (by exact alone) _

omit [RemoteStore σ] in
theorem tidies_of_turns {granted : String → String → Access → Prop} {receiver : Receiver} {kind : LineKind}
    {text : String} {progress : Progress Receiver} (turns : receiver.Turns granted kind text progress)
    (idle : live.gateway.Idle mark) : Tidies mark progress live := by
  cases turns <;> exact idle

/-- Whatever a byte is, at most the upload of the file that is coming in is in progress after it. -/
theorem push_tidies {receiver : Receiver} (tidy : receiver.Tidy mark live.gateway) (transfer : Transfer)
    (byte : UInt8) :
    live.Ends (receiver.push transfer byte) (Tidies mark) (fun _ after => after.gateway.AtMostSince mark) := by
  obtain ⟨level, outer, phase⟩ := receiver
  have quiet {live : Live σ} {part : Step (Progress Receiver)} (idle : live.gateway.Idle mark)
      (attempts : Attempts Effect.Quiet (fun progress => ∀ after : Live σ, after.gateway.Idle mark →
        Tidies mark progress after) part) :
      live.Ends part (Tidies mark) (fun _ after => after.gateway.AtMostSince mark) :=
    (Live.idle_of_attempts attempts idle).mono (fun _ after ended => ended.1 after ended.2) fun _ _ atMost => atMost
  cases phase with
  | control =>
      apply quiet tidy
      rw [push]
      cases lineKind? byte with
      | none => exact Complies.throw
      | some kind => exact Complies.pure fun _ idle => idle
  | line kind line =>
      have idle : live.gateway.Idle mark := tidy
      rw [push]
      cases line.push byte with
      | more next => exact Live.Ends.pure idle
      | done result =>
          refine (Live.idle_of_attempts ((Complies.ofExcept result).mono fun _ _ => trivial) idle).bind ?_
          rintro text read ⟨_, idle⟩
          by_cases file : kind = .file
          · subst file
            refine (Live.idle_of_attempts ((Complies.ofExcept _).mono fun _ _ => trivial) idle).bind ?_
            exact fun header parsed ended => openFile_tidies ended.2 transfer _ header
          · exact quiet idle (((onLine_turns vouches_anyAnswer _ transfer file text).mono fun _ turns _ =>
              tidies_of_turns turns).weaken fun _ => Effect.Courteous.quiet)
  | body file =>
      rw [push]
      refine Live.Ends.logs ?_ fun _ _ atMost => atMost
      exact (Live.write_alone tidy [byte]).bind fun writer written alone => awaitBody_tidies alone _
  | lastWord site state =>
      apply quiet tidy
      rw [push]
      cases state.push byte with
      | more next => exact Complies.pure fun _ idle => idle
      | done word =>
          apply Complies.bind ((Complies.result word).logging fun _ => trivial)
          intro _ _
          exact Complies.bind (transfer.logSuccess_complies (fun _ => trivial) site) fun _ _ =>
            Complies.pure fun _ idle => idle

end Receiver

namespace Session

/-- Only the upload of a file that is coming in is in progress. -/
def Tidy (state : Session × Live σ) : Prop :=
  match state.1 with
  | .receiving _ mark receiver => receiver.Tidy mark state.2.gateway
  | _ => state.2.gateway.uploads = []

/-- Where a session comes to by a part of it: the part gives its value, or the session fails. One that waits
for ever fails after the tasks have gone as far as they can. -/
theorem carryOut_outcome {α : Type} {step : Step α} {holds : α → Live σ → Prop} {lost : Live σ → Prop}
    (transfer : Transfer) (next : α → Session) (ends : live.Ends step holds fun _ after => lost after)
    (settled : ∀ after, lost after → lost { after with gateway := after.gateway.settle }) :
    (∃ value after, holds value after ∧ carryOut transfer mark step next live = (next value, after)) ∨
      ∃ failure after, lost after ∧ carryOut transfer mark step next live = fail transfer mark failure after := by
  rw [Live.Ends] at ends
  rw [carryOut]
  rcases ran : live.run step.run with ⟨_ | failure | value, after⟩ <;> simp only [ran] at ends ⊢
  · exact .inr ⟨_, _, settled after ends, rfl⟩
  · exact .inr ⟨failure, after, ends, rfl⟩
  · exact .inl ⟨value, after, ends, rfl⟩

/-- What holds of every session that is over, and of what a part of a session makes of it, holds after the part. -/
theorem carryOut_keeps {α : Type} {step : Step α} {next : α → Session} {valid : α → Prop} (keeps : Session → Prop)
    (transfer : Transfer) (mark : Nat) (ends : live.Ends step (fun value _ => valid value) fun _ _ => True)
    (stopped : ∀ result, keeps (.ended result)) (goesOn : ∀ value, valid value → keeps (next value)) :
    keeps (carryOut transfer mark step next live).1 := by
  rcases carryOut_outcome transfer next ends fun _ _ => trivial with
    ⟨value, after, holds, same⟩ | ⟨failure, after, _, same⟩ <;> rw [same]
  · exact goesOn value holds
  · exact stopped _

theorem report_undisturbed (fault : Fault) (live : Live σ) :
    live.gateway.Undisturbed (report fault live).gateway :=
  ((live.undisturbed_of_attempts (send_quiet _)).mono (fun _ _ ended => ended.2) fun _ _ lost => lost).reached

theorem fail_closes (atMost : live.gateway.AtMostSince mark) (transfer : Transfer) (failure : Failure) :
    (fail transfer mark failure live).2.gateway.uploads = [] := by
  have abandoned := Gateway.abandonSince_numbers atMost
  apply fail_keeps (fun world => world.gateway.uploads = []) transfer failure abandoned
  · exact fun _ _ idle => idle
  · exact fun world idle => (report_undisturbed failure.fault world).uploads idle

theorem feedAll_append (first rest : List UInt8) (state : Session × Live σ) :
    feedAll (first ++ rest) state = feedAll rest (feedAll first state) :=
  List.foldl_append

theorem feedAll_append_singleton (taken : List UInt8) (byte : UInt8) (state : Session × Live σ) :
    feedAll (taken ++ [byte]) state = feed byte (feedAll taken state) :=
  feedAll_append taken [byte] state

theorem feedAll_ended (result : Except Fault Unit) (bytes : List UInt8) (live : Live σ) :
    feedAll bytes (.ended result, live) = (.ended result, live) := by
  induction bytes with
  | nil => rfl
  | cons byte rest ih => exact ih

theorem run_eq_finish (login : Login) (line : String) (input : List UInt8) (ending : Ending) (live : Live σ) :
    (run login line input ending live).2 = (finish ending (feedAll input (start login line live))).2 := by
  rw [run]
  split <;> rename_i same <;> rw [same]

end Session

end ArtifactGate
