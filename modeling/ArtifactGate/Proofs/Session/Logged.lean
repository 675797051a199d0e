import ArtifactGate.Proofs.Gateway.Logging
import ArtifactGate.Proofs.Session.Delivered
import ArtifactGate.Proofs.Session.Received

/-!
The access log is exact. A file is logged with the word that all is well with it. A fault is logged where it befalls a
file, and marked; a fault that is not marked is logged when the session ends. So every part of a session logs the file
that it finishes, if there is one, and then its fault if it marks it, and the session as a whole logs one failure if it
fails. What is asked for after a file was logged is none of the log, so a session may be cancelled at any point of it.
-/
namespace ArtifactGate

variable {σ : Type} [RemoteStore σ]

/-- The status by which a file is logged that was transferred. -/
def Direction.status : Direction → Nat
  | .source => 200
  | .sink => 201

namespace Transfer

/-- What is logged of a transfer at a place. -/
def entry (transfer : Transfer) (status exitValue : Nat) (site : Site) : AccessRecord where
  user := transfer.login.user
  address := transfer.login.address
  method := match transfer.command.direction with
    | .source => .get
    | .sink => .put
  location := site.location
  size := site.size
  status := status
  exitValue := exitValue

/-- The records of files that were transferred. -/
def successes (transfer : Transfer) (files : List Site) : List AccessRecord :=
  files.map (transfer.entry transfer.command.direction.status 0)

/-- The log has grown by a record for each of these files, and by one for the failure if there was one. -/
inductive Accounts (transfer : Transfer) (files : List Site) (before : List AccessRecord) :
    Except Fault Unit → List AccessRecord → Prop
  | succeeded : Accounts transfer files before (.ok ()) (before ++ transfer.successes files)
  | failed (fault : Fault) (site : Site) :
    Accounts transfer files before (.error fault)
      (before ++ transfer.successes files ++ [transfer.entry fault.statusCode 1 site])

theorem successRecord_eq (transfer : Transfer) :
    transfer.successRecord = transfer.entry transfer.command.direction.status 0 := by
  funext site
  rw [successRecord, entry, method]
  cases transfer.command.direction <;> rfl

theorem failureRecord_eq (transfer : Transfer) (site : Site) (fault : Fault) :
    transfer.failureRecord site fault = transfer.entry fault.statusCode 1 site :=
  rfl

/-- The record of a failure that is marked as logged. Of a failure that is not, and of no failure, there is none. -/
inductive Marks {α : Type} (transfer : Transfer) : Option (Except Failure α) → List (Effect × Live σ) → Prop
  | unmarked {result : Option (Except Failure α)}
    (unlogged : ∀ failure, result = some (.error failure) → failure.logged = false) : Marks transfer result []
  | marked (site : Site) (fault : Fault) (world : Live σ) :
    Marks transfer (some (.error ⟨fault, true⟩)) [(.log (transfer.failureRecord site fault), world)]

/-- A part of a session logs these files before it asks for anything else, and in the end its fault if it marks it. -/
@[irreducible]
def Logs {α : Type} (transfer : Transfer) (files : List Site) (part : Step α) (live : Live σ) : Prop :=
  ∃ rest record,
    live.asked part = files.map (fun site => (.log (transfer.successRecord site), live)) ++ rest ++ record ∧
    (∀ entry ∈ rest, entry.1.Unlogged) ∧ transfer.Marks (live.run part.run).1 record

end Transfer

theorem Effect.Inquires.unlogged {repository : String} {effect : Effect} (inquires : effect.Inquires repository) :
    effect.Unlogged := by
  cases effect <;> first | rfl | exact inquires.elim

theorem Effect.Fetches.unlogged {repository : String} {effect : Effect} (fetches : effect.Fetches repository) :
    effect.Unlogged := by
  cases effect <;> first | rfl | exact fetches.elim

section Marks

variable {α β : Type} {transfer : Transfer} {record : List (Effect × Live σ)}

omit [RemoteStore σ] in
theorem Transfer.Marks.none_of_ok {value : α} (marks : transfer.Marks (some (.ok value)) record) : record = [] := by
  cases marks
  rfl

omit [RemoteStore σ] in
theorem Transfer.Marks.none_of_stuck (marks : transfer.Marks (none : Option (Except Failure α)) record) :
    record = [] := by
  cases marks
  rfl

omit [RemoteStore σ] in
/-- Whatever would have followed, a failure has its record. -/
theorem Transfer.Marks.of_error {failure : Failure}
    (marks : transfer.Marks (some (.error failure) : Option (Except Failure α)) record) :
    transfer.Marks (some (.error failure) : Option (Except Failure β)) record := by
  cases marks with
  | unmarked unlogged => exact .unmarked fun _ same => by cases same; exact unlogged _ rfl
  | marked site fault world => exact .marked site fault world

end Marks

namespace Transfer.Logs

variable {α β : Type} {transfer : Transfer} {files : List Site} {part : Step α} {attempt : Attempt α} {live : Live σ}
  {site : Site}

theorem pure (value : α) : transfer.Logs [] (Pure.pure value : Step α) live := by
  rw [Logs]
  refine ⟨[], [], rfl, List.forall_mem_nil _, .unmarked ?_⟩
  rintro failure same
  rw [ExceptT.run_pure, Live.run_pure] at same
  cases same

theorem throw (fault : Fault) : transfer.Logs [] (MonadExcept.throw ({ fault } : Failure) : Step α) live := by
  rw [Logs]
  refine ⟨[], [], rfl, List.forall_mem_nil _, .unmarked ?_⟩
  rintro failure same
  rw [Live.run_throw] at same
  cases same
  rfl

theorem bind {next : α → Step β} (first : transfer.Logs files part live)
    (rest : ∀ value (after : Live σ), transfer.Logs [] (next value) after) :
    transfer.Logs files (part >>= next) live := by
  rw [Logs] at first ⊢
  obtain ⟨calls, record, asked, unlogged, marks⟩ := first
  rw [Live.asked_bind, asked, ExceptT.run_bind, Live.run_bind]
  rcases ran : live.run part.run with ⟨_ | failure | value, after⟩ <;> rw [ran] at marks
  · obtain rfl := marks.none_of_stuck
    exact ⟨calls, [], List.append_nil _, unlogged, .unmarked nofun⟩
  · refine ⟨calls, record, List.append_nil _, unlogged, ?_⟩
    dsimp only
    rw [Live.run_pure]
    exact marks.of_error
  · have last := rest value after
    rw [Logs] at last
    obtain ⟨more, final, asks, further, marked⟩ := last
    obtain rfl := marks.none_of_ok
    refine ⟨calls ++ more, final, ?_, List.forall_mem_append.2 ⟨unlogged, further⟩, marked⟩
    dsimp only
    rw [asks, List.map_nil, List.nil_append, List.append_nil]
    simp only [List.append_assoc]

theorem ite {condition : Prop} [Decidable condition] {other : Step α} (yes : condition → transfer.Logs files part live)
    (no : ¬condition → transfer.Logs files other live) :
    transfer.Logs files (if condition then part else other) live := by
  split
  · exact yes ‹_›
  · exact no ‹_›

theorem refuse {condition : Prop} [Decidable condition] {fault : Fault} {next : β → Step α}
    (go : ¬condition → transfer.Logs [] part live) :
    transfer.Logs [] (if condition then (MonadExcept.throw ({ fault } : Failure) : Step β) >>= next else part)
      live := by
  split
  · exact throw fault
  · exact go ‹_›

theorem unlogged {valid : α → Prop} (attempts : Attempts Effect.Unlogged valid attempt) (live : Live σ) :
    transfer.Logs [] (Step.unlogged attempt) live := by
  rw [Logs]
  refine ⟨live.asked (Step.unlogged attempt), [], (List.append_nil _).symm, ?_, .unmarked ?_⟩
  · exact fun _ member => Live.allowed_of_asked attempts.unlogged member
  · intro failure same
    rw [Live.run_unlogged] at same
    rcases ran : live.run attempt.run with ⟨_ | fault | value, after⟩ <;> rw [ran] at same <;> cases same
    rfl

theorem logging {valid : α → Prop} (attempts : Attempts Effect.Unlogged valid attempt) (site : Site) (live : Live σ) :
    transfer.Logs [] (transfer.logging site attempt) live := by
  rw [Logs, Live.run_logging, Live.asked_logging]
  refine ⟨live.asked attempt, _, rfl, fun _ member => Live.allowed_of_asked attempts member, ?_⟩
  rcases live.run attempt.run with ⟨_ | fault | value, after⟩
  · exact .unmarked nofun
  · exact .marked site fault after
  · exact .unmarked nofun

theorem loggingIn {valid : α → Prop} (attempts : Attempts Effect.Unlogged valid attempt) (site? : Option Site)
    (live : Live σ) : transfer.Logs [] (transfer.loggingIn site? attempt) live := by
  cases site? with
  | none => exact unlogged attempts live
  | some site => exact logging attempts site live

theorem ofExcept (result : Except Fault α) (live : Live σ) : transfer.Logs [] (Step.ofExcept result) live := by
  cases result with
  | ok value => exact pure value
  | error fault => exact throw fault

/-- Something that cannot fail has no failure to mark. -/
theorem marks_lift (action : Action α) (live : Live σ) :
    transfer.Marks (live.run (liftM action : Step α).run).1 ([] : List (Effect × Live σ)) := by
  have run : live.run (liftM action : Step α).run = live.run (action >>= fun value => Pure.pure (.ok value)) := rfl
  refine .unmarked fun failure same => ?_
  rw [run, Live.run_bind] at same
  rcases ran : live.run action with ⟨_ | value, after⟩ <;> rw [ran] at same
  · cases same
  · dsimp only at same
    rw [Live.run_pure] at same
    cases same

theorem lift {action : Action α} {allowed : Effect → Prop} {valid : α → Prop}
    (heeds : action.Heeds Action.anyAnswer allowed valid) (silent : ∀ effect, allowed effect → effect.Unlogged)
    (live : Live σ) : transfer.Logs [] (liftM action : Step α) live := by
  rw [Logs]
  have attempts : Attempts Effect.Unlogged valid (liftM action : Step α) := (Complies.lift heeds).weaken silent
  exact ⟨live.asked (liftM action : Step α), [], (List.append_nil _).symm,
    fun _ member => Live.allowed_of_asked attempts member, marks_lift action live⟩

theorem logSuccess (transfer : Transfer) (site : Site) (live : Live σ) :
    transfer.Logs [site] (transfer.logSuccess site) live := by
  rw [Logs]
  exact ⟨[], [], rfl, List.forall_mem_nil _, marks_lift _ live⟩

end Transfer.Logs

section Recorded

variable {α : Type} {transfer : Transfer} {files : List Site} {part : Step α} {live world : Live σ}

omit [RemoteStore σ] in
theorem recorded_append (first rest : List (Effect × Live σ)) :
    recorded (first ++ rest) = recorded first ++ recorded rest :=
  List.flatMap_append

omit [RemoteStore σ] in
theorem recorded_files (transfer : Transfer) (files : List Site) (live : Live σ) {rest : List (Effect × Live σ)}
    (unlogged : ∀ entry ∈ rest, entry.1.Unlogged) :
    recorded (files.map (fun site => (.log (transfer.successRecord site), live)) ++ rest) =
      files.map transfer.successRecord := by
  induction files with
  | nil => exact recorded_of_unlogged unlogged
  | cons site files ih =>
      rw [List.map_cons, List.cons_append, recorded, List.flatMap_cons, ← recorded, ih]
      rfl

namespace Transfer.Logs

/-- A part adds to the log the files that it logs, and the fault that it marks. -/
theorem log (logs : transfer.Logs files part live) :
    ∃ record : List (Effect × Live σ), transfer.Marks (live.run part.run).1 record ∧
      (live.run part.run).2.gateway.log = live.gateway.log ++ files.map transfer.successRecord ++ recorded record := by
  rw [Logs] at logs
  obtain ⟨rest, record, asked, unlogged, marks⟩ := logs
  refine ⟨record, marks, ?_⟩
  rw [Live.run_log, asked, recorded_append, recorded_files transfer files live unlogged, List.append_assoc]

/-- Wherever a part waits for an answer, it has logged the files that it logs. -/
theorem log_of_asked {effect : Effect} (logs : transfer.Logs files part live)
    (member : (effect, world) ∈ live.asked part) (unlogged : effect.Unlogged) :
    world.gateway.log = live.gateway.log ++ files.map transfer.successRecord := by
  rw [Logs] at logs
  obtain ⟨rest, record, asked, silent, marks⟩ := logs
  rw [asked] at member
  rcases List.mem_append.1 member with member | member
  · rcases List.mem_append.1 member with member | member
    · obtain ⟨site, _, same⟩ := List.mem_map.1 member
      cases same
      cases unlogged
    · obtain ⟨earlier, later, rfl⟩ := List.append_of_mem member
      rw [← List.append_assoc, List.append_assoc, List.cons_append] at asked
      rw [Live.log_of_asked asked]
      exact congrArg _ (recorded_files transfer files live fun entry among =>
        silent entry (List.mem_append_left _ among))
  · generalize (live.run part.run).1 = result at marks
    cases marks with
    | unmarked => cases member
    | marked =>
        cases List.mem_singleton.1 member
        cases unlogged

end Transfer.Logs

end Recorded

theorem send_unlogged (bytes : List UInt8) : Attempts Effect.Unlogged (fun _ => True) (send bytes) :=
  Complies.mk ⟨rfl, fun _ _ _ _ => trivial⟩

theorem throw_unlogged {α : Type} (fault : Fault) :
    Attempts Effect.Unlogged (fun _ => True) (throw fault : Attempt α) :=
  Complies.throw

namespace Sender

theorem sendFileHeader_unlogged (file : Outgoing) (agenda : List Job) :
    Attempts Effect.Unlogged (fun _ => True) (sendFileHeader file agenda) :=
  Complies.bind (send_unlogged _) fun _ _ => Complies.pure trivial

theorem sendBody_unlogged (file : Outgoing) (agenda : List Job) :
    Attempts Effect.Unlogged (fun _ => True) (sendBody file agenda) := by
  apply Complies.bind (send_unlogged _)
  intro _ _
  apply Complies.refuse
  intro _
  exact Complies.bind (send_unlogged _) fun _ _ => Complies.pure trivial

theorem beginFile_unlogged (transfer : Transfer) (node : Node) (agenda : List Job) :
    Attempts Effect.Unlogged (fun _ => True) (beginFile transfer node agenda) := by
  apply Complies.bind ((node.openRead_fetches 0).weaken fun _ => Effect.Fetches.unlogged)
  intro content _
  apply Complies.ite
  · intro _
    exact Complies.bind (send_unlogged _) fun _ _ => Complies.pure trivial
  · exact fun _ => sendFileHeader_unlogged _ agenda

theorem sendDirectoryHeader_logs (transfer : Transfer) (node : Node) (agenda : List Job) (live : Live σ) :
    transfer.Logs [] (sendDirectoryHeader node agenda) live :=
  (Transfer.Logs.unlogged (send_unlogged _) live).bind fun _ _ => .pure _

theorem beginDirectory_logs (transfer : Transfer) (node : Node) (agenda : List Job) (live : Live σ) :
    transfer.Logs [] (beginDirectory transfer node agenda) live := by
  apply Transfer.Logs.ite
  · exact fun _ => (Transfer.Logs.unlogged (send_unlogged _) live).bind fun _ _ => .pure _
  · exact fun _ => sendDirectoryHeader_logs transfer node agenda live

theorem beginNode_logs (transfer : Transfer) (node : Node) (agenda : List Job) (live : Live σ) :
    transfer.Logs [] (beginNode transfer node agenda) live := by
  apply Transfer.Logs.ite fun _ => .logging (beginFile_unlogged transfer node agenda) node.site live
  intro _
  have asks := refusal?_inquires vouches_anyAnswer transfer node
  apply (Transfer.Logs.lift asks (fun _ => Effect.Inquires.unlogged) live).bind
  intro fault after
  cases fault with
  | some fault => exact .logging (throw_unlogged _) _ after
  | none => exact beginDirectory_logs transfer node agenda after

theorem proceed_logs (transfer : Transfer) (agenda : List Job) (live : Live σ) :
    transfer.Logs [] (proceed transfer agenda) live := by
  cases agenda with
  | nil => exact .pure _
  | cons job agenda =>
      cases job with
      | path text =>
          have names := (nodesOf_inquires transfer text).weaken fun _ => Effect.Inquires.unlogged
          apply (Transfer.Logs.unlogged names live).bind
          intro nodes after
          cases nodes with
          | nil => exact .pure _
          | cons node rest => exact beginNode_logs transfer node _ after
      | node node => exact beginNode_logs transfer node agenda live
      | leave => exact (Transfer.Logs.unlogged (send_unlogged _) live).bind fun _ _ => .pure _

/-- After a file's body the file is logged, and after nothing else. -/
theorem acknowledged_logs (transfer : Transfer) (agenda : List Job) (pending : Pending) (live : Live σ) :
    transfer.Logs (match pending with | .fileBody file => [⟨file.node.location, file.content.length⟩] | _ => [])
      (acknowledged transfer agenda pending) live := by
  cases pending with
  | request => exact proceed_logs transfer agenda live
  | fileTimes file => exact .logging (sendFileHeader_unlogged file agenda) _ live
  | fileHeader file => exact .logging (sendBody_unlogged file agenda) _ live
  | fileBody file =>
      exact (Transfer.Logs.logSuccess transfer _ live).bind fun _ after => proceed_logs transfer agenda after
  | directoryTimes node => exact sendDirectoryHeader_logs transfer node agenda live
  | directoryHeader node =>
      apply (Transfer.Logs.lift node.children_inquires (fun _ => Effect.Inquires.unlogged) live).bind
      exact fun children after => proceed_logs transfer _ after
  | directoryEnd => exact proceed_logs transfer agenda live

end Sender

namespace Receiver

theorem awaitBody_unlogged (receiver : Receiver) (file : Incoming) :
    Attempts Effect.Unlogged (fun _ => True) (receiver.awaitBody file) := by
  apply Complies.ite
  · intro _
    apply Complies.bind (file.writer.finish_complies fun _ => rfl)
    intro _ _
    exact Complies.bind (send_unlogged _) fun _ _ => Complies.pure trivial
  · exact fun _ => Complies.pure trivial

theorem beginFile_unlogged (receiver : Receiver) (node : Node) (length : Nat) :
    Attempts Effect.Unlogged (fun _ => True) (receiver.beginFile node length) := by
  apply Complies.bind (Node.openWrite_complies vouches_anyAnswer (fun _ => Effect.Inquires.unlogged) fun _ _ => rfl)
  intro writer _
  exact Complies.bind (send_unlogged _) fun _ _ => awaitBody_unlogged receiver _

theorem openFile_logs (transfer : Transfer) (receiver : Receiver) (header : Wire.Header) (live : Live σ) :
    transfer.Logs [] (receiver.openFile transfer header) live := by
  have chooses := (fileTarget_inquires vouches_anyAnswer receiver.level.target header.name).weaken
    fun _ => Effect.Inquires.unlogged
  apply (Transfer.Logs.logging chooses _ live).bind
  exact fun target after => .logging (beginFile_unlogged _ _ _) _ after

theorem enter_logs (transfer : Transfer) (receiver : Receiver) (header : Wire.Header) (live : Live σ) :
    transfer.Logs [] (receiver.enter transfer header) live := by
  apply Transfer.Logs.refuse
  intro _
  have chooses := (directoryTarget_inquires vouches_anyAnswer receiver.level.target header.name).weaken
    fun _ => Effect.Inquires.unlogged
  apply (Transfer.Logs.unlogged chooses live).bind
  exact fun directory after => (Transfer.Logs.unlogged (send_unlogged _) after).bind fun _ _ => .pure _

theorem leave_logs (transfer : Transfer) (receiver : Receiver) (live : Live σ) :
    transfer.Logs [] receiver.leave live := by
  apply (Transfer.Logs.unlogged (send_unlogged _) live).bind
  intro _ after
  cases receiver.outer with
  | nil => exact .pure _
  | cons level outer => exact .pure _

theorem onLine_logs (transfer : Transfer) (receiver : Receiver) (kind : LineKind) (text : String) (live : Live σ) :
    transfer.Logs [] (receiver.onLine transfer kind text) live := by
  cases kind with
  | times =>
      apply (Transfer.Logs.ofExcept _ live).bind
      exact fun times after => (Transfer.Logs.unlogged (send_unlogged _) after).bind fun _ _ => .pure _
  | file => exact (Transfer.Logs.ofExcept _ live).bind fun header after => openFile_logs transfer receiver header after
  | directory =>
      exact (Transfer.Logs.ofExcept _ live).bind fun header after => enter_logs transfer receiver header after
  | leave => exact leave_logs transfer receiver live
  | warning => exact .pure _
  | error => exact .throw _

theorem result_unlogged {α : Type} (result : Except Fault α) :
    Attempts Effect.Unlogged (fun _ => True) (ExceptT.mk (pure result) : Attempt α) :=
  (Complies.result result).mono fun _ _ => trivial

theorem start_logs (transfer : Transfer) (path : String) (live : Live σ) :
    transfer.Logs [] (Receiver.start transfer path) live := by
  have resolves := (Node.resolve_inquires transfer.login.user path).weaken fun _ => Effect.Inquires.unlogged
  apply (Transfer.Logs.unlogged resolves live).bind
  intro target after
  apply Transfer.Logs.refuse
  exact fun _ => (Transfer.Logs.unlogged (send_unlogged _) after).bind fun _ _ => .pure _

end Receiver

namespace Session

section Steps

variable {transfer : Transfer} {live : Live σ}

theorem receiver_logs (transfer : Transfer) (mark : Nat) (receiver : Receiver) (byte : UInt8) (live : Live σ) :
    transfer.Logs (finishedBy byte (.receiving transfer mark receiver)) (receiver.push transfer byte) live := by
  obtain ⟨level, outer, phase⟩ := receiver
  cases phase with
  | control =>
      rw [Receiver.push]
      cases Receiver.lineKind? byte with
      | none => exact .throw _
      | some kind => exact .pure _
  | line kind line =>
      rw [Receiver.push]
      cases line.push byte with
      | more longer => exact .pure _
      | done text =>
          exact (Transfer.Logs.ofExcept text live).bind fun text after =>
            Receiver.onLine_logs transfer _ kind text after
  | body file =>
      have writes : Attempts Effect.Unlogged (fun _ => True) (Receiver.pushBody ⟨level, outer, .control⟩ file byte) :=
        Complies.bind (file.writer.write_complies (fun _ _ => rfl) [byte]) fun _ _ => Receiver.awaitBody_unlogged _ _
      exact .logging writes _ live
  | lastWord site state =>
      rw [finishedBy, awaitedWord?, Receiver.push]
      dsimp only
      cases state.push byte with
      | more later => exact .pure _
      | done word =>
          cases word with
          | error fault => exact .logging (throw_unlogged _) site live
          | ok _ => exact (Transfer.Logs.logSuccess transfer site live).bind fun _ _ => .pure _

theorem sender_logs (transfer : Transfer) (sender : Sender) (byte : UInt8) (live : Live σ) :
    transfer.Logs (finishedBy byte (.sending transfer sender)) (sender.push transfer byte) live := by
  obtain ⟨pending, state, agenda⟩ := sender
  cases pushed : state.push byte with
  | more later =>
      have unfinished : Unfinished byte (.sending transfer ⟨pending, state, agenda⟩) := by
        intro site word awaits done
        cases pending <;> cases awaits
        cases pushed.symm.trans done
      rw [Sender.push_more pushed, finishedBy_of_unfinished unfinished]
      exact .pure _
  | done word =>
      cases word with
      | error fault =>
          have unfinished : Unfinished byte (.sending transfer ⟨pending, state, agenda⟩) := by
            intro site word awaits done
            cases pending <;> cases awaits
            cases pushed.symm.trans done
          rw [Sender.push_refused pushed, finishedBy_of_unfinished unfinished]
          exact .loggingIn (throw_unlogged _) _ live
      | ok _ =>
          rw [Sender.push_done pushed]
          have logs := Sender.acknowledged_logs transfer agenda pending live
          cases pending with
          | fileBody file =>
              have files : finishedBy byte (.sending transfer ⟨.fileBody file, state, agenda⟩) =
                  [⟨file.node.location, file.content.length⟩] := finishedBy_of_done rfl pushed
              rw [files]
              exact logs
          | _ => exact logs

theorem atEnd_logs (transfer : Transfer) (mark : Nat) (receiver : Receiver) (live : Live σ) :
    transfer.Logs (finishedAtEnd .closed (.receiving transfer mark receiver)) (receiver.atEnd transfer) live := by
  obtain ⟨level, outer, phase⟩ := receiver
  rw [Receiver.atEnd]
  cases phase with
  | control => exact .pure _
  | line kind line => exact .throw _
  | body file => exact .logging (throw_unlogged _) _ live
  | lastWord site state =>
      cases state with
      | status => exact .logSuccess transfer site live
      | message isError line => exact .logging (throw_unlogged _) site live

end Steps

section Runs

variable {transfer : Transfer} {files new : List Site} {origin : List AccessRecord} {live : Live σ}

theorem report_log (fault : Fault) (live : Live σ) : (report fault live).gateway.log = live.gateway.log := by
  have sent : recorded (live.asked (report.sendError fault)) = [] :=
    recorded_of_unlogged fun _ member => Live.allowed_of_asked (send_unlogged _) member
  rw [report, Live.run_log, sent, List.append_nil]

/-- A session that fails logs a failure that is not in the log yet. -/
theorem fail_log (transfer : Transfer) (mark : Nat) (failure : Failure) (live : Live σ) :
    (fail transfer mark failure live).2.gateway.log = live.gateway.log ++
      if failure.logged then [] else [transfer.failureRecord transfer.defaultSite failure.fault] := by
  have abandoned := live.gateway.abandonSince_log mark
  rw [fail]
  cases failure.logged <;> simp only [Bool.false_eq_true, if_false, if_true, List.append_nil] <;> split
  all_goals first | rw [report_log, abandoned] | rw [abandoned]

/-- A session has logged the files it has finished, and its failure if it has failed. -/
def Logged (transfer : Transfer) (files : List Site) (origin : List AccessRecord)
    (state : Session × Live σ) : Prop :=
  let logged := origin ++ files.map transfer.successRecord
  match state.1 with
  | .receiving given _ _ | .sending given _ => given = transfer ∧ state.2.gateway.log = logged
  | .ended (.ok ()) => state.2.gateway.log = logged
  | .ended (.error fault) => ∃ site, state.2.gateway.log = logged ++ [transfer.failureRecord site fault]

theorem fail_logged (logged : live.gateway.log = origin ++ files.map transfer.successRecord) (mark : Nat)
    (fault : Fault) : Logged transfer files origin (fail transfer mark { fault } live) := by
  refine ⟨transfer.defaultSite, ?_⟩
  rw [fail_log, logged]
  rfl

theorem cancel_logged (logged : live.gateway.log = origin ++ files.map transfer.successRecord) (mark : Nat) :
    Logged transfer files origin (cancel transfer mark live) :=
  fail_logged ((Gateway.settle_log _).trans logged) mark _

/-- A part that logs what it finishes, and the fault that it marks, leaves a session that has logged both: what is
not marked is logged as the session fails. -/
theorem carryOut_logged {α : Type} {step : Step α} {next : α → Session} (logs : transfer.Logs new step live)
    (logged : live.gateway.log = origin ++ files.map transfer.successRecord) (mark : Nat)
    (goesOn : ∀ value (after : Live σ), after.gateway.log = origin ++ (files ++ new).map transfer.successRecord →
      Logged transfer (files ++ new) origin (next value, after)) :
    Logged transfer (files ++ new) origin (carryOut transfer mark step next live) := by
  obtain ⟨record, marks, reached⟩ := logs.log
  rw [logged, List.append_assoc origin, ← List.map_append] at reached
  rw [carryOut]
  rcases ran : live.run step.run with ⟨_ | failure | value, after⟩ <;> rw [ran] at reached marks
  · obtain rfl := marks.none_of_stuck
    exact cancel_logged (reached.trans (List.append_nil _)) mark
  · cases marks with
    | unmarked unlogged =>
        obtain ⟨fault, marked⟩ := failure
        obtain rfl : marked = false := unlogged _ rfl
        exact fail_logged (reached.trans (List.append_nil _)) mark fault
    | marked site fault world =>
        refine ⟨site, ?_⟩
        rw [fail_log, reached]
        exact List.append_nil _
  · obtain rfl := marks.none_of_ok
    exact goesOn value after (reached.trans (List.append_nil _))

theorem feed_logged {state : Session × Live σ} (logged : Logged transfer files origin state) (byte : UInt8) :
    Logged transfer (files ++ finishedBy byte state.1) origin (feed byte state) := by
  obtain ⟨session, live⟩ := state
  cases session with
  | receiving given mark receiver =>
      obtain ⟨rfl, logged⟩ := logged
      apply carryOut_logged (receiver_logs given mark receiver byte live) logged
      intro progress after reached
      cases progress with
      | waiting next => exact ⟨rfl, reached⟩
      | _ => exact reached
  | sending given sender =>
      obtain ⟨rfl, logged⟩ := logged
      apply carryOut_logged (sender_logs given sender byte live) logged
      intro progress after reached
      cases progress with
      | waiting next => exact ⟨rfl, reached⟩
      | _ => exact reached
  | ended result =>
      change Logged transfer (files ++ []) origin (.ended result, live)
      rw [List.append_nil]
      exact logged

theorem feedAll_logged {state : Session × Live σ} (logged : Logged transfer files origin state)
    (input : List UInt8) : Logged transfer (files ++ finished input state) origin (feedAll input state) := by
  induction input generalizing files state with
  | nil =>
      rw [finished, List.append_nil]
      exact logged
  | cons byte rest ih =>
      rw [finished, ← List.append_assoc]
      exact ih (feed_logged logged byte)

theorem finish_logged {state : Session × Live σ} (logged : Logged transfer files origin state) (ending : Ending) :
    Logged transfer (files ++ finishedAtEnd ending state.1) origin (finish ending state) := by
  obtain ⟨session, live⟩ := state
  have last {given : Transfer} {mark : Nat} {new : List Site} {step : Step Unit}
      (logged : live.gateway.log = origin ++ files.map given.successRecord) (logs : given.Logs new step live) :
      Logged given (files ++ new) origin (carryOut given mark step (fun _ => .ended (.ok ())) live) :=
    carryOut_logged logs logged mark fun _ _ reached => reached
  have broken {given : Transfer} (site? : Option Site) (reason : String) :
      given.Logs [] (breakOff given site? reason) live :=
    .loggingIn (throw_unlogged _) site? live
  have cancelled {given : Transfer} {mark : Nat}
      (logged : live.gateway.log = origin ++ files.map given.successRecord) :
      Logged given (files ++ []) origin (cancel given mark live) := by
    rw [List.append_nil]
    exact cancel_logged logged mark
  cases session with
  | receiving given mark receiver =>
      obtain ⟨rfl, logged⟩ := logged
      cases ending with
      | closed => exact last logged (atEnd_logs given mark receiver live)
      | broken reason => exact last logged (broken _ reason)
      | silent => exact cancelled logged
  | sending given sender =>
      obtain ⟨rfl, logged⟩ := logged
      cases ending with
      | closed => exact last logged (.loggingIn (Receiver.result_unlogged _) _ live)
      | broken reason => exact last logged (broken _ reason)
      | silent => exact cancelled logged
  | ended result =>
      rw [finishedAtEnd_ended, List.append_nil]
      exact logged

theorem start_logged {login : Login} {line : String} {command : Command}
    (parsed : Command.parse line = .ok command) (live : Live σ) :
    Logged (login.transfer command live.gateway.settings) [] live.gateway.log (start login line live) := by
  cases direction : command.direction with
  | source =>
      rw [start_source parsed direction]
      exact ⟨rfl, (List.append_nil _).symm⟩
  | sink =>
      rw [start_sink parsed direction]
      have none : live.gateway.log = live.gateway.log ++
          ([] : List Site).map (login.transfer command live.gateway.settings).successRecord :=
        (List.append_nil _).symm
      apply carryOut_logged (Receiver.start_logs _ _ live) none
      exact fun receiver after reached => ⟨rfl, reached⟩

omit [RemoteStore σ] in
theorem accounts_of_logged {result : Except Fault Unit} (logged : Logged transfer files origin (.ended result, live)) :
    transfer.Accounts files origin result live.gateway.log := by
  have successes : files.map transfer.successRecord = transfer.successes files := by
    rw [transfer.successRecord_eq, Transfer.successes]
  cases result with
  | ok _ =>
      have log : live.gateway.log = origin ++ files.map transfer.successRecord := logged
      rw [log, successes]
      exact .succeeded
  | error fault =>
      obtain ⟨site, log⟩ := logged
      rw [log, successes, Transfer.failureRecord_eq]
      exact .failed fault _

/-- A session that is cancelled accounts for the files that were logged by then, whatever else has moved. -/
theorem cancel_accounts {world during : Live σ} (same : during.gateway.log = world.gateway.log)
    (logged : world.gateway.log = origin ++ files.map transfer.successRecord) (mark : Nat) :
    transfer.Accounts files origin (.error .cancelled) (cancel transfer mark during).2.gateway.log :=
  accounts_of_logged (cancel_logged (same.trans logged) mark)

end Runs

/-- Wherever a session waits for an answer on a byte, it has logged the files that the byte finishes. -/
theorem log_of_asked {transfer : Transfer} {files : List Site} {origin : List AccessRecord}
    {state : Session × Live σ} (logged : Logged transfer files origin state) {byte : UInt8} {effect : Effect}
    {world : Live σ} (member : (effect, world) ∈ asked byte state) (unlogged : effect.Unlogged) :
    world.gateway.log = origin ++ (files ++ finishedBy byte state.1).map transfer.successRecord := by
  obtain ⟨session, live⟩ := state
  cases session with
  | receiving given mark receiver =>
      obtain ⟨rfl, logged⟩ := logged
      have first := (receiver_logs given mark receiver byte live).log_of_asked member unlogged
      rw [first, logged, List.map_append, List.append_assoc]
  | sending given sender =>
      obtain ⟨rfl, logged⟩ := logged
      have first := (sender_logs given sender byte live).log_of_asked member unlogged
      rw [first, logged, List.map_append, List.append_assoc]
  | ended result => cases member

theorem log_of_opening {login : Login} {line : String} {command : Command} {live world : Live σ} {effect : Effect}
    (parsed : Command.parse line = .ok command) (member : (effect, world) ∈ opening login line live) :
    world.gateway.log = live.gateway.log ++
      ([] : List Site).map (login.transfer command live.gateway.settings).successRecord := by
  cases direction : command.direction with
  | source =>
      rw [opening_source parsed direction] at member
      cases member
  | sink =>
      rw [opening_sink parsed direction] at member
      have courteous := Live.allowed_of_asked (Receiver.start_begins _ _) member
      have unlogged : effect.Unlogged := by
        cases effect <;> first | rfl | exact courteous.elim
      exact (Receiver.start_logs _ _ live).log_of_asked member unlogged

/-- These are the files whose transfer a session finishes without a fault, in their order, with the sizes that are
logged. -/
def Transferred (direction : Direction) (start : Session × Live σ) (input : List UInt8) (ending : Ending)
    (files : List Site) : Prop :=
  match direction with
  | .sink => ∃ receipts, Received start input ending receipts ∧ files = receipts.map Receipt.site
  | .source => ∃ downloads, Delivered start input downloads ∧ files = downloads.map Download.site

section Exact

variable {login : Login} {line : String} {command : Command} {live : Live σ}

theorem start_reads (parsed : Command.parse line = .ok command) (sink : command.direction = .sink) (login : Login)
    (live : Live σ) :
    Reads (start login line live) [] (start login line live).1 ∧
      (start login line live).1.awaitedWord? = none := by
  rw [start_sink parsed sink]
  rcases carryOut_reaches (login.transfer command live.gateway.settings) live.gateway.nextUpload
    (Receiver.start (login.transfer command live.gateway.settings) (command.paths.headD ""))
    (receiving (login.transfer command live.gateway.settings) live.gateway.nextUpload) live with
    ⟨⟨level, outer, phase⟩, after, ran, same⟩ | ⟨fault, after, same⟩ <;> rw [same]
  · have begun := (Live.traces_of_attempts (Receiver.start_begins _ _) live).of_run ran
    obtain rfl : phase = .control := begun.2.phase
    exact ⟨trivial, rfl⟩
  · exact ⟨trivial, rfl⟩

/-- The files that a session finishes are those whose transfer it finishes without a fault. -/
theorem transferred_of_finished (parsed : Command.parse line = .ok command) (login : Login) (live : Live σ)
    (input : List UInt8) (ending : Ending) :
    Transferred command.direction (start login line live) input ending
      (finished input (start login line live) ++ finishedAtEnd ending (feedAll input (start login line live)).1) := by
  cases direction : command.direction with
  | sink =>
      obtain ⟨begins, fresh⟩ := start_reads parsed direction login live
      exact received_of_finished begins fresh input ending
  | source =>
      have known := start_known login line live
      obtain ⟨begins, fresh⟩ : Sends (start login line live) [] (start login line live).1 ∧
          (start login line live).1.awaitedWord? = none := by
        rw [start_source parsed direction]
        exact ⟨⟨trivial, trivial⟩, rfl⟩
      obtain ⟨downloads, delivered, files⟩ := delivered_of_finished known begins fresh input
      refine ⟨downloads, delivered, ?_⟩
      rw [files, finishedAtEnd_of_sends (sends_feedAll known begins input), List.append_nil]

theorem run_accounts (parsed : Command.parse line = .ok command) (login : Login) (live : Live σ)
    (input : List UInt8) (ending : Ending) :
    (login.transfer command live.gateway.settings).Accounts
      (finished input (start login line live) ++ finishedAtEnd ending (feedAll input (start login line live)).1)
      live.gateway.log (run login line input ending live).1 (run login line input ending live).2.gateway.log := by
  have begun : Logged (login.transfer command live.gateway.settings) [] live.gateway.log (start login line live) :=
    start_logged parsed live
  have ended := finish_logged (feedAll_logged begun input) ending
  rw [finish_eq_run] at ended
  exact accounts_of_logged ended

/-- The access log is exact. A command line that is not understood is not logged. Any other session logs one
success for each file whose transfer it finishes, in turn, and then one failure if it fails; and so it does if it is
cancelled while it waits for an answer, in its opening or on some byte, whatever has moved meanwhile. -/
theorem log_exact (login : Login) (line : String) (live : Live σ) :
    match Command.parse line with
    | .error _ => ∀ input ending, (run login line input ending live).2.gateway.log = live.gateway.log
    | .ok command =>
      let transfer := login.transfer command live.gateway.settings
      let start := Session.start login line live
      (∀ input ending,
        let ended := run login line input ending live
        ∃ files, Transferred command.direction start input ending files ∧
          transfer.Accounts files live.gateway.log ended.1 ended.2.gateway.log) ∧
      (∀ entry ∈ opening login line live, ∀ mark (during : Live σ), during.gateway.log = entry.2.gateway.log →
        transfer.Accounts [] live.gateway.log (.error .cancelled)
          (cancel transfer mark during).2.gateway.log) ∧
      ∀ taken byte, ∀ entry ∈ asked byte (feedAll taken start), entry.1.Unlogged →
        ∀ mark (during : Live σ), during.gateway.log = entry.2.gateway.log →
          ∃ files, Transferred command.direction start (taken ++ [byte]) .silent files ∧
            transfer.Accounts files live.gateway.log (.error .cancelled)
              (cancel transfer mark during).2.gateway.log := by
  split
  · rename_i fault parsed
    intro input ending
    rw [run_eq_finish, start_refused parsed, feedAll_ended]
    exact report_log fault live
  · rename_i command parsed
    intro transfer start
    have begun : Logged transfer [] live.gateway.log start := start_logged parsed live
    refine ⟨fun input ending => ?_, ?_, ?_⟩
    · exact ⟨_, transferred_of_finished parsed login live input ending, run_accounts parsed login live input ending⟩
    · intro entry member mark during same
      exact cancel_accounts same (log_of_opening parsed member) mark
    · intro taken byte entry member unlogged mark during same
      have logged := log_of_asked (feedAll_logged begun taken) member unlogged
      rw [List.nil_append, ← finished_append_singleton] at logged
      have files := transferred_of_finished parsed login live (taken ++ [byte]) .silent
      rw [finishedAtEnd_silent, List.append_nil] at files
      exact ⟨_, files, cancel_accounts same logged mark⟩

end Exact

/-- Two files, of which the second breaks off: the first is logged as stored, and then the failure. -/
theorem log_exact_of_broken_second :
    let live : Live ScriptedStore := { gateway := Gateway.new {} {} (fun _ _ _ => true) ⟨0, 0⟩ }
    let input := Text.encode "C0644 2 a\nhi" ++ 0 :: Text.encode "C0644 3 b\nxx"
    let login : Login := ⟨"ann", "::1", .empty⟩
    let ended := run login "scp -t libs/d/" input .closed live
    ∃ (receipts : List Receipt) (fault : Fault) (site : Site),
      Received (start login "scp -t libs/d/" live) input .closed receipts ∧
      receipts.map Receipt.site = [⟨⟨"libs", "d/a"⟩, 2⟩] ∧ ended.1 = .error fault ∧ ended.2.gateway.log =
        [⟨"ann", "::1", .put, ⟨"libs", "d/a"⟩, 2, 201, 0⟩,
          ⟨"ann", "::1", .put, site.location, site.size, fault.statusCode, 1⟩] := by
  intro live input login ended
  have parsed : Command.parse "scp -t libs/d/" = .ok ⟨.sink, false, false, false, false, ["libs/d/"]⟩ := by
    decide +kernel
  have logged : ended.2.gateway.log.map (fun entry => (entry.location, entry.size, entry.exitValue)) =
      [(⟨"libs", "d/a"⟩, 2, 0), (⟨"libs", "d/b"⟩, 3, 1)] := by
    decide +kernel
  have account := log_exact login "scp -t libs/d/" live
  rw [parsed] at account
  obtain ⟨files, ⟨receipts, received, rfl⟩, accounts⟩ := account.1 input .closed
  refine ⟨receipts, ?_⟩
  subst ended
  revert accounts logged received
  generalize start login "scp -t libs/d/" live = start
  generalize run login "scp -t libs/d/" input .closed live = ended
  obtain ⟨result, last⟩ := ended
  intro received accounts logged
  dsimp only at accounts logged ⊢
  generalize last.gateway.log = log at accounts logged ⊢
  have origin : live.gateway.log = [] := rfl
  rw [origin] at accounts
  have seen (transfer : Transfer) (files : List Site) :
      (transfer.successes files).map (fun entry => (entry.location, entry.size, entry.exitValue)) =
        files.map fun site => (site.location, site.size, 0) :=
    List.map_map
  cases accounts with
  | succeeded =>
      rw [List.nil_append, seen] at logged
      have broken : (⟨"libs", "d/b"⟩, 3, 1) ∈ [(⟨"libs", "d/a"⟩, 2, 0), ((⟨"libs", "d/b"⟩ : Location), 3, 1)] :=
        List.mem_cons_of_mem _ List.mem_cons_self
      rw [← logged] at broken
      obtain ⟨_, _, same⟩ := List.mem_map.1 broken
      cases congrArg (fun entry => entry.2.2) same
  | failed fault site =>
      rw [List.nil_append, List.map_append, seen] at logged
      have first := congrArg List.dropLast logged
      rw [List.map_singleton, List.dropLast_concat] at first
      obtain ⟨⟨location, size⟩, files, same⟩ := List.map_eq_singleton_iff.1 first
      cases same
      refine ⟨fault, site, received, files, rfl, ?_⟩
      rw [files]
      rfl

end Session

end ArtifactGate
