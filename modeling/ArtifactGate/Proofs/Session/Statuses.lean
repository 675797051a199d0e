import ArtifactGate.Proofs.Session.Output
import ArtifactGate.Proofs.Wire.Lines

/-!
The statuses of an upload. A good status answers each thing that the gate accepts, in turn: the target, a line
with times, a directory and the end of one, a file whose upload is open, and the body that the store has. A
message follows if the session fails for a reason that the client does not know.
-/
namespace ArtifactGate

/-- What a good status answers. -/
inductive Reply
  | target
  | times
  | directory
  | leave
  | header
  | body
  deriving DecidableEq, Repr

/-- The effect belongs to what comes before an answer other than that to a body. -/
def Effect.Prepares : Effect → Prop
  | .send _ | .finishUpload _ | .log _ => False
  | _ => True

theorem Effect.Prepares.silent {effect : Effect} (prepares : effect.Prepares) : effect.Silent := by
  cases effect with
  | send bytes => exact prepares
  | _ => trivial

theorem Effect.Inquires.prepares {repository : String} {effect : Effect} (inquires : effect.Inquires repository) :
    effect.Prepares := by
  cases effect <;> trivial

/-- Of what a byte answers, what is answered when an effect is asked for: an upload is closed after the file's
header is answered and before its body is, a record is logged after all is answered, and everything else comes
first. -/
def Effect.answered : Effect → List Reply → List Reply
  | .finishUpload _, replies => replies.filter (· != .body)
  | .log _, replies => replies
  | _, _ => []

theorem Effect.Prepares.answered {effect : Effect} (prepares : effect.Prepares) (replies : List Reply) :
    effect.answered replies = [] := by
  cases effect <;> first | rfl | exact prepares.elim

theorem Effect.answered_nil (effect : Effect) : effect.answered [] = [] := by
  cases effect <;> rfl

variable {σ : Type} [RemoteStore σ]

namespace Live

section Outlet

variable {α β ε : Type} {live world : Live σ} {valid : α → Prop}

theorem perform_outlet {effect : Effect} (silent : effect.Silent) (live : Live σ) (outlet : Outlet) :
    perform effect { live with outlet } =
      ((live.perform effect).1, { (live.perform effect).2 with outlet }) := by
  cases effect with
  | send bytes => exact silent.elim
  | writeUpload upload chunk =>
      rw [perform, perform]
      rcases live.gateway.write upload chunk with ⟨_ | _ | _, after⟩ <;> rfl
  | _ => rfl

/-- Where nothing is sent, it does not matter what the client has taken. -/
theorem run_outlet {action : Action α} (silent : action.Respects Effect.Silent valid) (live : Live σ)
    (outlet : Outlet) :
    Live.run action { live with outlet } = ((live.run action).1, { (live.run action).2 with outlet }) := by
  rw [Live.run, Live.run]
  induction action generalizing live with
  | done value => rfl
  | ask effect resume ih =>
      rw [Action.run, Action.run, perform_outlet silent.1]
      rcases performed : perform effect live with ⟨_ | answer, after⟩
      · rfl
      · exact ih answer (silent.2 answer trivial) after

theorem outlet_of_run {action : Action α} (silent : action.Respects Effect.Silent valid) (live : Live σ) :
    (live.run action).2.outlet = live.outlet :=
  congrArg (·.2.outlet) (run_outlet silent live live.outlet)

theorem ends_silent {ε : Type} {part : ExceptT ε Action α} (silent : Attempts Effect.Silent valid part)
    (live : Live σ) :
    live.Ends part (fun _ after => after.outlet = live.outlet) fun _ _ => True := by
  have same := outlet_of_run silent.heeds live
  rw [Ends]
  rcases ran : live.run part.run with ⟨_ | _ | _, after⟩ <;> rw [ran] at same <;> trivial

/-- Where nothing is sent, the client's end stays as it is. -/
theorem outlet_of_asked {part : ExceptT ε Action α} (silent : Attempts Effect.Silent valid part)
    {effect : Effect} (member : (effect, world) ∈ live.asked part) : world.outlet = live.outlet :=
  (Action.Heeds.asked silent.heeds perform (fun world => world.outlet = live.outlet)
    (fun _ allowed world same =>
      ⟨(congrArg (·.2.outlet) (perform_outlet allowed world world.outlet)).trans same, fun _ _ => trivial⟩)
    rfl _ member).2

end Outlet

section Answers

variable {α β ε : Type} {live : Live σ} {part : ExceptT ε Action α} {valid : α → Prop}
  {replies rest : List Reply}

/-- The replies once a part has come to its value. If it does not, there are none. -/
def upon (live : Live σ) (part : ExceptT ε Action α) (replies : α → Live σ → List Reply) : List Reply :=
  match live.run part.run with
  | (some (.ok value), after) => replies value after
  | _ => []

theorem upon_outlet (silent : Attempts Effect.Silent valid part) (live : Live σ) (outlet : Outlet)
    (replies : List Reply) :
    upon { live with outlet } part (fun _ _ => replies) = live.upon part fun _ _ => replies := by
  rw [upon, run_outlet silent.heeds, upon]
  rcases live.run part.run with ⟨_ | _ | value, after⟩ <;> rfl

/-- A client that takes everything has taken these bytes too. -/
def sent (live : Live σ) (bytes : List UInt8) : Live σ :=
  { live with outlet := live.outlet.extend bytes }

section Upon

variable {transfer : Transfer} {site : Site} {attempt : Attempt α}

@[simp] theorem upon_pure (value : α) (live : Live σ) (replies : α → Live σ → List Reply) :
    live.upon (Pure.pure value : ExceptT ε Action α) replies = replies value live := by
  rw [upon, ExceptT.run_pure, run_pure]

theorem upon_bind (part : ExceptT ε Action α) (next : α → ExceptT ε Action β) (live : Live σ)
    (replies : β → Live σ → List Reply) :
    live.upon (part >>= next) replies = live.upon part fun value after => after.upon (next value) replies := by
  rw [upon, upon, ExceptT.run_bind, run_bind]
  rcases live.run part.run with ⟨_ | failure | value, after⟩
  · rfl
  · simp only [run_pure]
  · rfl

/-- No reply comes of a fault, whether it is logged or not. -/
theorem upon_logging (replies : α → Live σ → List Reply) :
    live.upon (transfer.logging site attempt) replies = live.upon attempt replies := by
  rw [upon, upon, run_logging]
  rcases live.run attempt.run with ⟨_ | failure | value, after⟩ <;> rfl

end Upon

/-- The part sends a good status and does nothing else. -/
structure SendsOk (live : Live σ) (part : ExceptT ε Action Unit) : Prop where
  asked : live.asked part = [(.send [Wire.okStatus], live)]
  ran : live.run part.run = (some (.ok ()), live.sent [Wire.okStatus])

theorem sendOk_sends (unlimited : live.outlet.limit = none) : live.SendsOk sendOk where
  asked := asked_send _ live
  ran := by
    rw [sendOk, send, ExceptT.run_mk, run_request, perform, Outlet.take_unlimited unlimited]
    rfl

theorem SendsOk.unlogged {attempt : Attempt Unit} (sends : live.SendsOk attempt) :
    live.SendsOk (Step.unlogged attempt) where
  asked := (asked_adapt _ attempt live).trans sends.asked
  ran := by rw [run_unlogged, sends.ran]

/-- The part sends one good status for each of these replies. Where it asks for something else, the client has
taken those of the replies that come before. -/
structure Answers (live : Live σ) (part : ExceptT ε Action α) (replies : List Reply) : Prop where
  said : said (live.asked part) = List.replicate replies.length Wire.okStatus
  before : ∀ entry ∈ live.asked part, entry.1.Silent →
    entry.2.outlet = live.outlet.extend (List.replicate (entry.1.answered replies).length Wire.okStatus)

namespace Answers

/-- What comes before the replies sends nothing. -/
theorem outlet_of_silent (silent : Attempts Effect.Silent valid part) {entry : Effect × Live σ}
    (member : entry ∈ live.asked part) (first : entry.1.answered replies = []) :
    entry.2.outlet = live.outlet.extend (List.replicate (entry.1.answered replies).length Wire.okStatus) := by
  rw [outlet_of_asked silent member, first]
  exact live.outlet.extend_nil.symm

theorem nothing (silent : Attempts Effect.Silent valid part) : live.Answers part [] where
  said := said_of_attempts silent
  before entry member _ := outlet_of_silent silent member entry.1.answered_nil

/-- What sends nothing is followed by what sends the replies. -/
theorem bind_silent {next : α → ExceptT ε Action β} {replies : α → Live σ → List Reply}
    (unlimited : live.outlet.limit = none) (silent : Attempts Effect.Silent valid part)
    (first : ∀ entry ∈ live.asked part, entry.1.answered (live.upon part replies) = [])
    (goesOn : ∀ value (after : Live σ), after.outlet.limit = none →
      after.Answers (next value) (replies value after)) :
    live.Answers (part >>= next) (live.upon part replies) := by
  have same := outlet_of_run silent.heeds live
  constructor
  · rw [asked_bind, said_append, said_of_attempts silent, List.nil_append, upon]
    rcases ran : live.run part.run with ⟨_ | failure | value, after⟩ <;> rw [ran] at same
    · rfl
    · rfl
    · exact (goesOn value after ((congrArg Outlet.limit same).trans unlimited)).said
  · intro entry member quiet
    rw [asked_bind] at member
    rcases List.mem_append.1 member with member | member
    · exact outlet_of_silent silent member (first entry member)
    · rw [upon]
      rcases ran : live.run part.run with ⟨_ | failure | value, after⟩ <;> rw [ran] at member same
      · cases member
      · cases member
      · have same : after.outlet = live.outlet := same
        rw [(goesOn value after ((congrArg Outlet.limit same).trans unlimited)).before entry member quiet, same]

theorem bind {next : α → ExceptT ε Action β} {replies : α → Live σ → List Reply}
    (unlimited : live.outlet.limit = none) (prepares : Attempts Effect.Prepares valid part)
    (goesOn : ∀ value (after : Live σ), after.outlet.limit = none →
      after.Answers (next value) (replies value after)) :
    live.Answers (part >>= next) (live.upon part replies) :=
  bind_silent unlimited (prepares.weaken fun _ => Effect.Prepares.silent)
    (fun _ member => (allowed_of_asked prepares member).answered _) goesOn

section Logging

variable {attempt : Attempt α} {transfer : Transfer} {site : Site}

/-- The record of a fault comes when there is nothing to be answered. -/
theorem bind_logging {next : α → Step β} {replies : α → Live σ → List Reply}
    (unlimited : live.outlet.limit = none) (prepares : Attempts Effect.Prepares valid attempt)
    (goesOn : ∀ value (after : Live σ), after.outlet.limit = none →
      after.Answers (next value) (replies value after)) :
    live.Answers (transfer.logging site attempt >>= next) (live.upon attempt replies) := by
  rw [← upon_logging]
  refine bind_silent unlimited ((prepares.weaken fun _ => Effect.Prepares.silent).logging fun _ => trivial) ?_ goesOn
  rintro ⟨effect, world⟩ member
  rw [upon_logging]
  rcases mem_asked_logging member with asks | ⟨fault, rfl, failed⟩
  · exact (allowed_of_asked prepares asks).answered _
  · rw [upon, failed, Effect.answered]

/-- The record of a fault comes after all that is answered. -/
theorem logging (unlimited : live.outlet.limit = none) (answers : live.Answers attempt replies) :
    live.Answers (transfer.logging site attempt) replies where
  said := (said_logging transfer site attempt live).trans answers.said
  before := by
    rintro ⟨effect, world⟩ member silent
    rcases mem_asked_logging member with asks | ⟨fault, rfl, failed⟩
    · exact answers.before _ asks silent
    · have outlet := run_extends unlimited attempt
      rw [failed, answers.said] at outlet
      exact outlet

end Logging

/-- A good status is sent, and what follows sends the others. -/
theorem reply {sends : ExceptT ε Action Unit} (ok : live.SendsOk sends) {next : ExceptT ε Action β}
    {reply : Reply} (goesOn : (live.sent [Wire.okStatus]).Answers next rest)
    (follows : ∀ entry ∈ (live.sent [Wire.okStatus]).asked next, entry.1.Silent →
      entry.1.answered (reply :: rest) = reply :: entry.1.answered rest) :
    live.Answers (sends >>= fun _ => next) (reply :: rest) := by
  have first : live.asked (sends >>= fun _ => next) =
      (.send [Wire.okStatus], live) :: (live.sent [Wire.okStatus]).asked next := by
    rw [asked_bind, ok.asked, ok.ran]
    rfl
  constructor
  · rw [first]
    exact congrArg (Wire.okStatus :: ·) goesOn.said
  · rw [first]
    intro entry member silent
    rcases List.mem_cons.1 member with rfl | member
    · exact silent.elim
    · rw [goesOn.before entry member silent, follows entry member silent, sent, ← Outlet.extend_append]
      rfl

/-- A good status is sent and nothing else is asked for. -/
theorem last {sends : ExceptT ε Action Unit} (ok : live.SendsOk sends) {value : β} (reply : Reply) :
    live.Answers (sends >>= fun _ => (Pure.pure value : ExceptT ε Action β)) [reply] := by
  have idle : Attempts Effect.Silent (fun _ => True) (Pure.pure value : ExceptT ε Action β) :=
    Complies.pure trivial
  exact Answers.reply ok (.nothing idle) (List.forall_mem_nil _)

end Answers

end Answers

end Live

namespace Receiver

/-- The node that an upload begins at, before it is answered. -/
def accept (transfer : Transfer) (path : String) : Step Node := do
  let target ← Step.unlogged (Node.resolve transfer.login.user path)
  if transfer.command.targetIsDirectory && !target.isDirectory && !target.isSink then
    throw { fault := notDirectory target }
  return target

/-- The directory that a header names, before it is answered. -/
def descend (transfer : Transfer) (receiver : Receiver) (header : Wire.Header) : Step Node := do
  if !transfer.command.recursive then
    throw { fault := .protocol (header.name ++ ": directory upload requires -r") }
  Step.unlogged (directoryTarget receiver.level.target header.name)

/-- The file that a header announces, before it is answered: its upload is open. -/
def announce (transfer : Transfer) (receiver : Receiver) (header : Wire.Header) : Attempt Incoming := do
  let target ← fileTarget receiver.level.target header.name
  let node := (target.withSize header.length).withProperties
    (fileProperties transfer header receiver.level.times)
  let writer ← node.openWrite 0
  return { node, length := header.length, writer, remaining := header.length }

theorem start_eq (transfer : Transfer) (path : String) :
    start transfer path = accept transfer path >>= fun target => Step.unlogged sendOk >>= fun _ =>
      return { level := { target } } := by
  simp only [start, accept, bind_assoc]
  apply congrArg
  funext target
  split
  · rfl
  · rfl

theorem enter_eq (transfer : Transfer) (receiver : Receiver) (header : Wire.Header) :
    receiver.enter transfer header = receiver.descend transfer header >>= fun directory =>
      Step.unlogged sendOk >>= fun _ =>
        return .waiting
          ⟨{ target := directory }, { receiver.level with times := none } :: receiver.outer, .control⟩ := by
  rw [enter, descend]
  split
  · rfl
  · rfl

theorem accept_prepares (transfer : Transfer) (path : String) :
    Attempts Effect.Prepares (fun _ => True) (accept transfer path) := by
  apply Complies.bind ((Node.resolve_inquires transfer.login.user path).weaken
    fun _ => Effect.Inquires.prepares).unlogged
  exact fun target _ => Complies.refuse fun _ => Complies.pure trivial

theorem descend_prepares (transfer : Transfer) (receiver : Receiver) (header : Wire.Header) :
    Attempts Effect.Prepares (fun _ => True) (receiver.descend transfer header) := by
  apply Complies.refuse
  intro _
  apply Complies.unlogged
  apply ((directoryTarget_inquires vouches_anyAnswer receiver.level.target header.name).weaken
    fun _ => Effect.Inquires.prepares).mono
  exact fun _ _ => trivial

section Replies

/-- The end of a file is answered when no byte of it is to come and the store has it. -/
def closing (file : Incoming) (live : Live σ) : List Reply :=
  if file.remaining = 0 then live.upon file.writer.finish fun _ _ => [.body] else []

/-- What a line is answered with, after a control byte. -/
def answering (transfer : Transfer) (receiver : Receiver) (live : Live σ) : LineKind → String → List Reply
  | .times, text =>
    match Wire.Timestamps.parse ("T" ++ text) with
    | .error _ => []
    | .ok _ => [.times]
  | .file, text =>
    match Wire.Header.parse ("C" ++ text) with
    | .error _ => []
    | .ok header => live.upon (receiver.announce transfer header) fun file after => .header :: closing file after
  | .directory, text =>
    match Wire.Header.parse ("D" ++ text) with
    | .error _ => []
    | .ok header => live.upon (receiver.descend transfer header) fun _ _ => [.directory]
  | .leave, _ => [.leave]
  | .warning, _ | .error, _ => []

/-- What a byte is answered with. -/
def replies (transfer : Transfer) : Receiver → UInt8 → Live σ → List Reply
  | ⟨level, outer, .line kind line⟩, byte, live =>
    match line.push byte with
    | .done (.ok text) => answering transfer ⟨level, outer, .control⟩ live kind text
    | _ => []
  | ⟨_, _, .body file⟩, byte, live =>
    live.upon (file.writer.write [byte]) fun writer after =>
      closing { file with writer, remaining := file.remaining - 1 } after
  | ⟨_, _, .control⟩, _, _ | ⟨_, _, .lastWord _ _⟩, _, _ => []

variable {live : Live σ}

theorem nothing_answers {α ε : Type} {part : ExceptT ε Action α}
    (silent : Attempts Effect.Silent (fun _ => True) part) : live.Answers part [] :=
  .nothing silent

theorem closing_outlet (file : Incoming) (live : Live σ) (outlet : Outlet) :
    closing file { live with outlet } = closing file live := by
  have silent : Attempts Effect.Silent (fun _ => True) file.writer.finish :=
    file.writer.finish_complies fun _ => trivial
  rw [closing, closing, Live.upon_outlet silent]

/-- An upload is closed before the body is answered. -/
theorem finish_precedes (file : Incoming) (live : Live σ) :
    ∀ entry ∈ live.asked file.writer.finish,
      entry.1.answered (live.upon file.writer.finish fun _ _ => [.body]) = [] := by
  intro entry member
  have finishes : Attempts (fun effect => ∃ number, effect = .finishUpload number) (fun _ => True)
      file.writer.finish := file.writer.finish_complies fun number => ⟨number, rfl⟩
  obtain ⟨number, same⟩ := Live.allowed_of_asked finishes member
  rw [same, Live.upon]
  split <;> rfl

theorem awaitBody_answers (unlimited : live.outlet.limit = none) (receiver : Receiver) (file : Incoming) :
    live.Answers (receiver.awaitBody file) (closing file live) := by
  rw [awaitBody, closing]
  split
  · exact .bind_silent unlimited (file.writer.finish_complies fun _ => trivial) (finish_precedes file live)
      fun _ after boundless => .last (Live.sendOk_sends boundless) .body
  · exact nothing_answers (Complies.pure trivial)

/-- After a header is answered, all that is asked for is to close the upload. -/
theorem awaitBody_closes (receiver : Receiver) (file : Incoming) {world : Live σ} {effect : Effect}
    (member : (effect, world) ∈ live.asked (receiver.awaitBody file)) (silent : effect.Silent)
    (replies : List Reply) :
    effect.answered (.header :: replies) = .header :: effect.answered replies := by
  have closes : Attempts (fun effect => effect.Silent → ∃ number, effect = .finishUpload number) (fun _ => True)
      (receiver.awaitBody file) := by
    rw [awaitBody]
    apply Complies.ite
    · intro _
      apply Complies.bind (file.writer.finish_complies fun number _ => ⟨number, rfl⟩)
      intro _ _
      apply Complies.bind (Complies.mk ⟨False.elim, fun _ _ _ _ => trivial⟩ : Attempts _ (fun _ => True) sendOk)
      exact fun _ _ => Complies.pure trivial
    · exact fun _ => Complies.pure trivial
  obtain ⟨number, rfl⟩ := Live.allowed_of_asked closes member silent
  rfl

theorem openFile_answers (unlimited : live.outlet.limit = none) (transfer : Transfer) (receiver : Receiver)
    (header : Wire.Header) :
    live.Answers (receiver.openFile transfer header)
      (live.upon (receiver.announce transfer header) fun file after => .header :: closing file after) := by
  rw [openFile, announce, Live.upon_bind]
  refine .bind_logging unlimited ((fileTarget_inquires vouches_anyAnswer receiver.level.target header.name).weaken
    fun _ => Effect.Inquires.prepares) ?_
  intro target found boundless
  refine .logging boundless ?_
  rw [beginFile, Live.upon_bind]
  refine .bind boundless (Node.openWrite_complies vouches_anyAnswer (fun _ => Effect.Inquires.prepares)
    fun _ _ => trivial) ?_
  intro writer after boundless
  rw [Live.upon_pure, ← closing_outlet _ after (after.outlet.extend [Wire.okStatus])]
  exact .reply (Live.sendOk_sends boundless) (awaitBody_answers (by exact boundless) _ _)
    fun entry member silent => awaitBody_closes _ _ member silent _

theorem onLine_answers (unlimited : live.outlet.limit = none) (transfer : Transfer) (receiver : Receiver)
    (kind : LineKind) (text : String) :
    live.Answers (receiver.onLine transfer kind text) (receiver.answering transfer live kind text) := by
  cases kind with
  | times =>
      rw [onLine, answering]
      cases Wire.Timestamps.parse ("T" ++ text) with
      | error fault => exact nothing_answers Complies.throw
      | ok times => exact .last (Live.sendOk_sends unlimited).unlogged .times
  | file =>
      rw [onLine, answering]
      cases Wire.Header.parse ("C" ++ text) with
      | error fault => exact nothing_answers Complies.throw
      | ok header => exact openFile_answers unlimited transfer receiver header
  | directory =>
      rw [onLine, answering]
      cases Wire.Header.parse ("D" ++ text) with
      | error fault => exact nothing_answers Complies.throw
      | ok header =>
          change live.Answers (receiver.enter transfer header) _
          rw [enter_eq]
          apply Live.Answers.bind unlimited (receiver.descend_prepares transfer header)
          exact fun directory after boundless => .last (Live.sendOk_sends boundless).unlogged .directory
  | leave =>
      rw [onLine, answering, leave]
      cases receiver.outer with
      | nil => exact .last (Live.sendOk_sends unlimited).unlogged .leave
      | cons level outer => exact .last (Live.sendOk_sends unlimited).unlogged .leave
  | warning => exact nothing_answers (Complies.pure trivial)
  | error => exact nothing_answers Complies.throw

/-- The good statuses that are sent on a byte are those of the replies to it. -/
theorem push_answers (unlimited : live.outlet.limit = none) (transfer : Transfer) (receiver : Receiver)
    (byte : UInt8) : live.Answers (receiver.push transfer byte) (receiver.replies transfer byte live) := by
  obtain ⟨level, outer, phase⟩ := receiver
  cases phase with
  | control =>
      rw [push, replies]
      cases lineKind? byte with
      | none => exact nothing_answers Complies.throw
      | some kind => exact nothing_answers (Complies.pure trivial)
  | line kind line =>
      rw [push, replies]
      cases line.push byte with
      | more next => exact nothing_answers (Complies.pure trivial)
      | done result =>
          cases result with
          | error fault => exact nothing_answers Complies.throw
          | ok text => exact onLine_answers unlimited transfer ⟨level, outer, .control⟩ kind text
  | body file =>
      rw [push, replies, pushBody]
      refine .logging unlimited (.bind unlimited (file.writer.write_complies (fun _ _ => trivial) [byte]) ?_)
      exact fun writer after boundless => awaitBody_answers boundless ⟨level, outer, .control⟩ _
  | lastWord site state =>
      rw [push, replies]
      cases state.push byte with
      | more next => exact nothing_answers (Complies.pure trivial)
      | done word =>
          apply nothing_answers
          apply Complies.bind ((Complies.result word).logging fun _ => trivial)
          intro _ _
          apply Complies.bind (transfer.logSuccess_complies (fun _ => trivial) site)
          exact fun _ _ => Complies.pure trivial

theorem start_answers (unlimited : live.outlet.limit = none) (transfer : Transfer) (path : String) :
    live.Answers (start transfer path) (live.upon (accept transfer path) fun _ _ => [.target]) := by
  rw [start_eq]
  apply Live.Answers.bind unlimited (accept_prepares transfer path)
  exact fun target after boundless => .last (Live.sendOk_sends boundless).unlogged .target

end Replies

end Receiver

namespace Session

variable {live : Live σ} {login : Login} {line : String} {state : Session × Live σ} {before : List UInt8}

/-- What a session answers on a byte. -/
def replies (byte : UInt8) : Session × Live σ → List Reply
  | (.receiving transfer _ receiver, live) => receiver.replies transfer byte live
  | _ => []

/-- What a session answers on some bytes, in turn. -/
def answered : List UInt8 → Session × Live σ → List Reply
  | [], _ => []
  | byte :: rest, state => Session.replies byte state ++ answered rest (feed byte state)

/-- What an upload answers to begin with: its target, if that is accepted. -/
def welcome (login : Login) (line : String) (live : Live σ) : List Reply :=
  match Command.parse line with
  | .error _ => []
  | .ok command =>
    live.upon (Receiver.accept (login.transfer command live.gateway.settings) (command.paths.headD ""))
      fun _ _ => [.target]

/-- What an upload answers from its beginning on. -/
def accepted (login : Login) (line : String) (input : List UInt8) (live : Live σ) : List Reply :=
  welcome login line live ++ answered input (start login line live)

/-- What a client has taken of a session that has ended: a good status for each reply, and then, unless all went
well or the client reported the fault itself, the message of that fault in one line. -/
inductive Statuses (before : List UInt8) (replies : List Reply) : Except Fault Unit → List UInt8 → Prop
  | finished : Statuses before replies (.ok ()) (before ++ List.replicate replies.length Wire.okStatus)
  | reported (text : String) :
    Statuses before replies (.error (.peer text)) (before ++ List.replicate replies.length Wire.okStatus)
  | failed (fault : Fault) (own : ∀ text, fault ≠ .peer text)
      (inline : Wire.newline ∉ Text.encode (Wire.oneLine fault.message)) :
    Statuses before replies (.error fault)
      (before ++ List.replicate replies.length Wire.okStatus ++
        Wire.errorStatus :: Text.encode (Wire.oneLine fault.message) ++ [Wire.newline])

theorem statuses_of_notice (replies : List Reply) (result : Except Fault Unit) :
    Statuses before replies result
      (before ++ List.replicate replies.length Wire.okStatus ++ notice result) := by
  have silent : before ++ List.replicate replies.length Wire.okStatus =
      before ++ List.replicate replies.length Wire.okStatus ++ [] :=
    (List.append_nil _).symm
  cases result with
  | ok _ => exact silent ▸ .finished
  | error fault =>
      by_cases own : ∃ text, fault = .peer text
      · obtain ⟨text, rfl⟩ := own
        exact silent ▸ .reported text
      · have reported : isReported fault = true := by
          cases fault <;> first | rfl | exact absurd ⟨_, rfl⟩ own
        have framed : Wire.statusBytes Wire.errorStatus fault.message =
            Wire.errorStatus :: Text.encode (Wire.oneLine fault.message) ++ [Wire.newline] :=
          rfl
        rw [notice, if_pos reported, framed, ← List.append_assoc]
        exact .failed fault (fun text same => own ⟨text, same⟩) (Wire.newline_not_mem_oneLine _)

/-- The session does not send files. -/
def Uploads : Session → Prop
  | .sending _ _ => False
  | _ => True

theorem feed_uploads (uploads : state.1.Uploads) (byte : UInt8) : (feed byte state).1.Uploads := by
  obtain ⟨session, live⟩ := state
  cases session with
  | receiving transfer mark receiver =>
      rcases carryOut_fst transfer mark (receiver.push transfer byte) (ofProgress (receiving transfer mark)) live with
        ⟨progress, same⟩ | ⟨fault, same⟩
      · rw [feed, same]
        cases progress <;> trivial
      · rw [feed, same]
        trivial
  | sending transfer sender => exact uploads.elim
  | ended result => trivial

theorem feedAll_uploads (uploads : state.1.Uploads) (input : List UInt8) : (feedAll input state).1.Uploads := by
  induction input generalizing state with
  | nil => exact uploads
  | cons byte rest ih => exact ih (feed_uploads uploads byte)

/-- Where an upload asks for something on a byte, the client has taken those of the replies that come before. -/
theorem outlet_of_asked (unlimited : state.2.outlet.limit = none) (uploads : state.1.Uploads) {byte : UInt8}
    {entry : Effect × Live σ} (member : entry ∈ asked byte state) (silent : entry.1.Silent) :
    state.1.parting = [] ∧
      entry.2.outlet = state.2.outlet.extend
        (List.replicate (entry.1.answered (Session.replies byte state)).length Wire.okStatus) := by
  obtain ⟨session, live⟩ := state
  cases session with
  | receiving transfer mark receiver =>
      exact ⟨rfl, (receiver.push_answers unlimited transfer byte).before entry member silent⟩
  | sending transfer sender => exact uploads.elim
  | ended result => cases member

/-- On some bytes an upload sends one good status for each of its replies. -/
theorem said_transcript (unlimited : state.2.outlet.limit = none) (uploads : state.1.Uploads) (input : List UInt8) :
    said (transcript input state) = List.replicate (answered input state).length Wire.okStatus := by
  induction input generalizing state with
  | nil => rfl
  | cons byte rest ih =>
      have first : said (asked byte state) = List.replicate (Session.replies byte state).length Wire.okStatus := by
        obtain ⟨session, live⟩ := state
        cases session with
        | receiving transfer mark receiver => exact (receiver.push_answers unlimited transfer byte).said
        | sending transfer sender => exact uploads.elim
        | ended result => rfl
      rw [transcript, said_append, first, ih ((feed_limit byte state).trans unlimited) (feed_uploads uploads byte),
        answered, List.length_append, List.replicate_append_replicate]

/-- At its end a session sends no status. -/
theorem said_closing (ending : Ending) (state : Session × Live σ) : said (closing ending state) = [] :=
  said_of_silent (closing_logs (fun _ => trivial) ending state)

theorem cancel_statuses {during : Live σ} {outlet : Outlet} {replies more : List Reply}
    (unlimited : outlet.limit = none)
    (taken : outlet.taken.toList = before ++ List.replicate replies.length Wire.okStatus)
    (same : during.outlet = outlet.extend (List.replicate more.length Wire.okStatus)) (transfer : Transfer)
    (mark : Nat) :
    Statuses before (replies ++ more) (.error .cancelled) (cancel transfer mark during).2.outlet.taken.toList := by
  have boundless : during.outlet.limit = none := (congrArg Outlet.limit same).trans unlimited
  have all : during.outlet.taken.toList = before ++ List.replicate (replies ++ more).length Wire.okStatus := by
    rw [same, Outlet.extend, Array.toList_append, taken, List.append_assoc, List.length_append,
      ← List.replicate_append_replicate]
  rw [cancel_taken boundless, all]
  exact statuses_of_notice _ _

section Upload

variable (uploads : ∀ command, Command.parse line = .ok command → command.direction = .sink)
include uploads

theorem start_uploads (login : Login) (live : Live σ) : (start login line live).1.Uploads := by
  cases parsed : Command.parse line with
  | error fault =>
      rw [start_refused parsed]
      trivial
  | ok command =>
      rw [start_sink parsed (uploads command parsed)]
      rcases carryOut_fst (login.transfer command live.gateway.settings) live.gateway.nextUpload
        (Receiver.start (login.transfer command live.gateway.settings) (command.paths.headD ""))
        (receiving (login.transfer command live.gateway.settings) live.gateway.nextUpload) live with
        ⟨receiver, same⟩ | ⟨fault, same⟩
      · rw [same]
        trivial
      · rw [same]
        trivial

theorem said_opening (unlimited : live.outlet.limit = none) (login : Login) :
    said (opening login line live) = List.replicate (welcome login line live).length Wire.okStatus := by
  cases parsed : Command.parse line with
  | error fault =>
      rw [opening_refused parsed, welcome, parsed]
      rfl
  | ok command =>
      rw [opening_sink parsed (uploads command parsed), welcome, parsed]
      exact (Receiver.start_answers unlimited _ _).said

/-- Nothing is answered before the target is. -/
theorem outlet_of_opening (unlimited : live.outlet.limit = none) (login : Login) {entry : Effect × Live σ}
    (member : entry ∈ opening login line live) (silent : entry.1.Silent) : entry.2.outlet = live.outlet := by
  cases parsed : Command.parse line with
  | error fault =>
      rw [opening_refused parsed] at member
      cases member
  | ok command =>
      rw [opening_sink parsed (uploads command parsed)] at member
      have outlet := (Receiver.start_answers unlimited _ _).before entry member silent
      have courteous : entry.1.Courteous _ := Live.allowed_of_asked (Receiver.start_begins _ _) member
      obtain ⟨effect, world⟩ := entry
      cases effect <;> first | exact courteous.elim | exact silent.elim | exact outlet.trans live.outlet.extend_nil

/-- The client of an upload has taken one good status for each reply, and the notice of the end if it has come. -/
theorem feedAll_statuses (unlimited : live.outlet.limit = none) (login : Login) (input : List UInt8) :
    (feedAll input (start login line live)).2.outlet.taken.toList =
      live.outlet.taken.toList ++ List.replicate (accepted login line input live).length Wire.okStatus ++
        (feedAll input (start login line live)).1.parting := by
  have boundless : (start login line live).2.outlet.limit = none := (start_limit login line live).trans unlimited
  have fed := feedAll_taken boundless (start_taken unlimited) input
  rw [said_opening uploads unlimited, said_transcript boundless (start_uploads uploads login live),
    List.append_assoc live.outlet.taken.toList, List.replicate_append_replicate, ← List.length_append] at fed
  exact fed

theorem run_statuses (unlimited : live.outlet.limit = none) (login : Login) (input : List UInt8) (ending : Ending) :
    Statuses live.outlet.taken.toList (accepted login line input live) (run login line input ending live).1
      (run login line input ending live).2.outlet.taken.toList := by
  have boundless : (feedAll input (start login line live)).2.outlet.limit = none :=
    (feedAll_limit input _).trans ((start_limit login line live).trans unlimited)
  have ended := finish_taken boundless (feedAll_statuses uploads unlimited login input) ending
  rw [said_closing, List.append_nil, finish_eq_run] at ended
  rw [ended]
  exact statuses_of_notice _ _

end Upload

/-- The statuses of an upload are well formed. A client that takes everything has at any time taken one good
status for each thing that the gate accepted by then, and once the session is over the message of its fault in one
line, if there is a fault and the client did not report it itself. So it is however the client's bytes come and end,
and if the session is cancelled while it waits for an answer, in its opening or on some byte, whatever moves
meanwhile. -/
theorem status_stream (unlimited : live.outlet.limit = none)
    (uploads : ∀ command, Command.parse line = .ok command → command.direction = .sink) (login : Login) :
    let before := live.outlet.taken.toList
    let start := Session.start login line live
    (∀ input ending,
      let ended := run login line input ending live
      Statuses before (accepted login line input live) ended.1 ended.2.outlet.taken.toList) ∧
    (∀ input,
      let reached := feedAll input start
      match reached.1 with
      | .ended result => Statuses before (accepted login line input live) result reached.2.outlet.taken.toList
      | _ => reached.2.outlet.taken.toList =
          before ++ List.replicate (accepted login line input live).length Wire.okStatus) ∧
    (∀ entry ∈ opening login line live, entry.1.Silent →
      ∀ transfer mark (during : Live σ), during.outlet = entry.2.outlet →
        Statuses before [] (.error .cancelled) (cancel transfer mark during).2.outlet.taken.toList) ∧
    ∀ taken byte, ∀ entry ∈ asked byte (feedAll taken start), entry.1.Silent →
      ∀ transfer mark (during : Live σ), during.outlet = entry.2.outlet →
        Statuses before
          (accepted login line taken live ++ entry.1.answered (Session.replies byte (feedAll taken start)))
          (.error .cancelled) (cancel transfer mark during).2.outlet.taken.toList := by
  intro before start
  have fed (input : List UInt8) := feedAll_statuses uploads unlimited login input
  refine ⟨run_statuses uploads unlimited login, ?_, ?_, ?_⟩
  · intro input reached
    have taken := fed input
    change reached.2.outlet.taken.toList = before ++ _ ++ reached.1.parting at taken
    rw [taken]
    cases reached.1 with
    | ended result => exact statuses_of_notice _ result
    | _ => exact List.append_nil _
  · intro entry member silent transfer mark during same
    have none : before = before ++ List.replicate ([] : List Reply).length Wire.okStatus := (List.append_nil _).symm
    have still : during.outlet = live.outlet.extend (List.replicate ([] : List Reply).length Wire.okStatus) :=
      (same.trans (outlet_of_opening uploads unlimited login member silent)).trans live.outlet.extend_nil.symm
    exact cancel_statuses unlimited none still transfer mark
  · intro taken byte entry member silent transfer mark during same
    have boundless : (feedAll taken start).2.outlet.limit = none :=
      (feedAll_limit taken start).trans ((start_limit login line live).trans unlimited)
    have reached : (feedAll taken start).1.Uploads := feedAll_uploads (start_uploads uploads login live) taken
    obtain ⟨going, outlet⟩ := outlet_of_asked boundless reached member silent
    have told := fed taken
    rw [going, List.append_nil] at told
    exact cancel_statuses boundless told (same.trans outlet) transfer mark

/-- A directory with times, an empty file, and then a byte that means nothing. -/
theorem status_stream_of_unexpected_byte :
    let live : Live ScriptedStore := { gateway := Gateway.new {} {} (fun _ _ _ => true) ⟨0, 0⟩ }
    let input := Text.encode "T1 0 2 0\nD0755 0 d\nE\nC0600 0 e\n" ++ [0, 88]
    let ended := run ⟨"ann", "::1", .empty⟩ "scp -rpt libs/new" input .closed live
    accepted ⟨"ann", "::1", .empty⟩ "scp -rpt libs/new" input live =
        [.target, .times, .directory, .leave, .header, .body] ∧
      ended.2.outlet.taken.toList =
        [0, 0, 0, 0, 0, 0] ++ 2 :: Text.encode "protocol error: unexpected control byte 0x58" ++ [10] := by
  intro live input ended
  have parsed : Command.parse "scp -rpt libs/new" = .ok ⟨.sink, true, true, false, false, ["libs/new"]⟩ := by
    decide +kernel
  have uploads : ∀ command, Command.parse "scp -rpt libs/new" = .ok command → command.direction = .sink := by
    intro command same
    rw [parsed] at same
    cases same
    rfl
  have replies : accepted ⟨"ann", "::1", .empty⟩ "scp -rpt libs/new" input live =
      [.target, .times, .directory, .leave, .header, .body] := by
    decide +kernel
  have failed : ended.1 = .error (Receiver.unexpectedControl 88) := by decide +kernel
  have unlimited : live.outlet.limit = none := rfl
  have statuses := (status_stream unlimited uploads ⟨"ann", "::1", .empty⟩).1 input .closed
  rw [replies] at statuses
  refine ⟨replies, ?_⟩
  subst ended
  revert failed statuses
  generalize run ⟨"ann", "::1", .empty⟩ "scp -rpt libs/new" input .closed live = ended
  obtain ⟨result, last⟩ := ended
  intro statuses failed
  obtain rfl : result = .error (Receiver.unexpectedControl 88) := failed
  dsimp only at statuses ⊢
  generalize last.outlet.taken.toList = taken at statuses ⊢
  cases statuses with
  | failed => decide +kernel

end Session

end ArtifactGate
