import ArtifactGate.Proofs.Session.Conduct
import ArtifactGate.Proofs.Session.Proceeding
import ArtifactGate.Proofs.Session.Sink

/-!
What a client gets from the sink: for each path an empty file, part by part, as it acknowledges them. With what
sessions on the sink leave alone, this is all that can be said of them from outside.
-/
namespace ArtifactGate

variable {σ : Type} [RemoteStore σ]

namespace Sender

variable {origin live : Live σ} {transfer : Transfer} {taken paths rest : List String} {path : String}

theorem tell_tells (live : Live σ) (bytes : List UInt8) (pending : Pending) (agenda : List Job) :
    live.Tells (tell bytes pending agenda) bytes := by
  have tells : live.Tells (tell bytes pending agenda) (bytes ++ []) :=
    (Live.tells_of_said (said_send bytes live)).bind fun _ _ _ => Live.tells_of_said rfl
  rwa [List.append_nil] at tells

theorem beginNode_tells (sink : (Location.resolve path).isSink = true) (plain : Glob.hasGlob path = false)
    (live : Live σ) (now : Instant) (agenda : List Job) :
    live.Tells (beginNode transfer (Node.ofSink now transfer.login.user (Location.resolve path)) agenda)
      ((script transfer now (path :: rest)).headD []) := by
  rw [beginNode_sink (Node.inSink_ofSink now _ sink), script_plain plain, emptyFile]
  cases transfer.command.preserve with
  | true => exact (tell_tells live _ _ _).logging _ _
  | false => exact (tell_tells live _ _ _).logging _ _

/-- A sender of paths in the sink goes on with the first part of the next empty file. -/
theorem proceed_tells (sinks : ∀ path ∈ rest, (base path).isSink = true) (keeps : origin.KeepsTo live) :
    live.Tells (proceed transfer (rest.map .path)) ((script transfer origin.gateway.now rest).headD []) := by
  cases rest with
  | nil => exact Live.tells_of_said rfl
  | cons path rest =>
      have sink := sinks path List.mem_cons_self
      have silent : said (live.asked (Step.unlogged (nodesOf transfer path))) = [] :=
        said_of_attempts ((nodesOf_inquires transfer path).weaken fun _ => Effect.Inquires.silent).unlogged
      rw [List.map_cons, proceed, ← List.nil_append (List.headD _ _)]
      apply (Live.tells_of_said silent).bind
      intro nodes after ran
      cases pattern : Glob.hasGlob path with
      | true =>
          have stops : origin.Apart (fun _ => False) Failure.Local (Step.unlogged (nodesOf transfer path)) :=
            Ensures.adapt (nodesOf_pattern pattern sink)
          exact ((Live.ends_of_apart stops keeps).of_run ran).1.elim
      | false =>
          have found : origin.Apart (· = [Node.ofSink origin.gateway.now transfer.login.user (Location.resolve path)])
              Failure.Local (Step.unlogged (nodesOf transfer path)) :=
            Ensures.adapt (nodesOf_plain pattern sink)
          obtain ⟨rfl, _⟩ := (Live.ends_of_apart found keeps).of_run ran
          exact beginNode_tells (Location.isSink_of_base sink) pattern after _ _

/-- An acknowledgement makes a sender of paths in the sink send the next part, and nothing else. -/
theorem acknowledged_tells {parts : List (List UInt8)} {sender : Sender}
    (sinks : ∀ path ∈ paths, (base path).isSink = true)
    (plays : Plays transfer origin.gateway.now paths parts sender) (keeps : origin.KeepsTo live) :
    live.Tells (acknowledged transfer sender.agenda sender.pending) (parts.headD []) := by
  obtain ⟨pending, state, agenda⟩ := sender
  obtain ⟨taken, rest, split, plain, rfl, leaves⟩ := plays
  have left : ∀ path ∈ rest, (base path).isSink = true := fun path member =>
    sinks path (split ▸ List.mem_append_right _ member)
  cases leaves with
  | request => exact proceed_tells left keeps
  | times => exact (tell_tells live _ _ _).logging _ _
  | header =>
      rw [acknowledged, sendBody_nothing]
      apply Live.Tells.logging
      apply (Live.tells_of_said (said_send [] live)).bind
      exact fun _ after _ => tell_tells after _ _ _
  | body =>
      have logged (site : Site) : said (live.asked (transfer.logSuccess site)) = [] :=
        said_of_attempts (transfer.logSuccess_complies (fun _ => trivial) site)
      have apart (site : Site) : origin.Apart (fun _ => True) Failure.Local (transfer.logSuccess site) :=
        logSuccess_keepsApart transfer site
      apply (Live.tells_of_said (logged _)).bind
      intro _ after ran
      exact proceed_tells left ((Live.ends_of_apart (apart _) keeps).of_run ran).2

end Sender

namespace Session

variable {origin live : Live σ} {transfer : Transfer} {sent : List UInt8} {state : Session × Live σ}

/-- A session that sends from the sink has sent these bytes, and what it has left to send makes up the script with
them. It is over when the script is, and only if no path was a pattern. -/
def Told (transfer : Transfer) (origin : Live σ) (sent : List UInt8) (state : Session × Live σ) : Prop :=
  let whole := (Sender.script transfer origin.gateway.now transfer.command.paths).flatten
  match state.1 with
  | .receiving _ _ _ => False
  | .sending given sender => given = transfer ∧ origin.KeepsTo state.2 ∧
      ∃ parts, sender.Plays transfer origin.gateway.now transfer.command.paths parts ∧ sent ++ parts.flatten = whole
  | .ended (.ok ()) => sent = whole ∧ ∀ path ∈ transfer.command.paths, Glob.hasGlob path = false
  | .ended (.error _) => sent <+: whole

theorem carryOut_told {step : Step (Progress Sender)} {mark : Nat} {parts : List (List UInt8)}
    {lost : Option Failure → Live σ → Prop}
    (goes : live.Ends step (fun progress after =>
      Sender.Goes transfer origin.gateway.now transfer.command.paths parts progress ∧ origin.KeepsTo after) lost)
    (tells : live.Tells step (parts.headD []))
    (whole : sent ++ parts.flatten =
      (Sender.script transfer origin.gateway.now transfer.command.paths).flatten) :
    Told transfer origin (sent ++ said (live.asked step))
      (carryOut transfer mark step (ofProgress (sending transfer)) live) := by
  have part : sent ++ said (live.asked step) <+:
      (Sender.script transfer origin.gateway.now transfer.command.paths).flatten := by
    rw [← whole]
    apply (List.prefix_append_right_inj sent).2 (tells.fails.trans _)
    cases parts with
    | nil => exact List.prefix_rfl
    | cons first more => exact List.prefix_append _ _
  rw [carryOut]
  rcases ran : live.run step.run with ⟨_ | failure | progress, after⟩
  · exact part
  · exact part
  · obtain ⟨goes, keeps⟩ := goes.of_run ran
    have first := tells.of_run ran
    cases progress with
    | waiting sender =>
        obtain ⟨head, more, rfl, _, plays⟩ := goes
        refine ⟨rfl, keeps, more, plays, ?_⟩
        rw [first, List.append_assoc]
        exact whole
    | _ =>
        obtain ⟨rfl, plain⟩ := goes
        refine ⟨?_, plain⟩
        rw [first]
        exact whole

theorem carryOut_stops_told {α : Type} {step : Step α} {parts : List (List UInt8)}
    (stops : Attempts Effect.Silent (fun _ => False) step) (mark : Nat) (next : α → Session)
    (whole : sent ++ parts.flatten =
      (Sender.script transfer origin.gateway.now transfer.command.paths).flatten) :
    Told transfer origin (sent ++ said (live.asked step)) (carryOut transfer mark step next live) := by
  have part := List.prefix_append sent parts.flatten
  have ends : live.Ends step (fun _ _ => False) fun _ _ => True :=
    (Live.ends_of_complies stops (fun _ => True) (fun _ _ _ _ => ⟨trivial, fun _ _ => trivial⟩) trivial).mono
      (fun _ _ valid => valid.1) fun _ _ _ => trivial
  rw [whole] at part
  rw [said_of_attempts stops, List.append_nil, carryOut]
  rw [Live.Ends] at ends
  rcases ran : live.run step.run with ⟨_ | failure | value, after⟩ <;> rw [ran] at ends
  · exact part
  · exact part
  · exact ends.elim

/-- On a byte a session that sends from the sink goes on with the script, or stops. -/
theorem feed_told (sinks : ∀ path ∈ transfer.command.paths, (Sender.base path).isSink = true)
    (told : Told transfer origin sent state) (byte : UInt8) :
    Told transfer origin (sent ++ said (asked byte state)) (feed byte state) := by
  obtain ⟨session, live⟩ := state
  cases session with
  | receiving given mark receiver => exact told.elim
  | ended result =>
      change Told transfer origin (sent ++ []) (.ended result, live)
      rw [List.append_nil]
      exact told
  | sending given sender =>
      obtain ⟨rfl, keeps, parts, plays, whole⟩ := told
      rw [feed, asked]
      cases pushed : sender.state.push byte with
      | more next =>
          let waits : Step (Progress Sender) := pure (.waiting { sender with state := next })
          have nothing : said (live.asked waits) = [] := rfl
          rw [Sender.push_more pushed, nothing, carryOut, ExceptT.run_pure, Live.run_pure, List.append_nil]
          exact ⟨rfl, keeps, parts, plays, whole⟩
      | done word =>
          cases word with
          | error fault =>
              rw [Sender.push_refused pushed]
              exact carryOut_stops_told (Complies.throw.loggingIn fun _ _ _ => trivial) _ _ whole
          | ok _ =>
              have goes := Live.ends_of_apart (Sender.acknowledged_keepsApart sinks plays) keeps
              have tells := Sender.acknowledged_tells sinks plays keeps
              rw [Sender.push_done pushed]
              exact carryOut_told goes tells whole

theorem feedAll_told (sinks : ∀ path ∈ transfer.command.paths, (Sender.base path).isSink = true)
    (told : Told transfer origin sent state) (input : List UInt8) :
    Told transfer origin (sent ++ said (transcript input state)) (feedAll input state) := by
  induction input generalizing sent state with
  | nil =>
      change Told transfer origin (sent ++ []) state
      rw [List.append_nil]
      exact told
  | cons byte rest ih =>
      rw [transcript, said_append, ← List.append_assoc]
      exact ih (feed_told sinks told byte)

theorem finish_told (told : Told transfer origin sent state) (ending : Ending) :
    Told transfer origin (sent ++ said (closing ending state)) (finish ending state) := by
  obtain ⟨session, live⟩ := state
  cases session with
  | receiving given mark receiver => exact told.elim
  | ended result =>
      have same : finish ending (.ended result, live) = (.ended result, live) := by cases ending <;> rfl
      rw [closing_ended, same, said, List.flatMap_nil, List.append_nil]
      exact told
  | sending given sender =>
      obtain ⟨rfl, _, parts, _, whole⟩ := told
      cases ending with
      | closed =>
          have refused (value : Unit) : sender.state.atEnd false ≠ .ok value := by
            cases sender.state <;> rintro ⟨⟩
          have stops : Attempts Effect.Silent (fun _ => False) (sender.atEnd given) :=
            ((Complies.result _).mono refused).loggingIn fun _ _ _ => trivial
          exact carryOut_stops_told stops _ _ whole
      | broken reason =>
          exact carryOut_stops_told (breakOff_complies (fun _ => trivial) given _ reason) _ _ whole
      | silent =>
          have part := List.prefix_append sent parts.flatten
          rw [whole] at part
          change Told given origin (sent ++ []) _
          rw [List.append_nil]
          exact part

/-- A client that acknowledges all parts, and once what it has asked for, gets them all. -/
theorem feedAll_completes (sinks : ∀ path ∈ transfer.command.paths, (Sender.base path).isSink = true)
    (plain : ∀ path ∈ transfer.command.paths, Glob.hasGlob path = false) (unlimited : origin.outlet.limit = none)
    {sender : Sender} {parts : List (List UInt8)} (waits : sender.state = .status)
    (plays : sender.Plays transfer origin.gateway.now transfer.command.paths parts) (keeps : origin.KeepsTo live)
    {input : List UInt8} (good : ∀ byte ∈ input, byte ≠ Wire.warningStatus ∧ byte ≠ Wire.errorStatus)
    (enough : parts.length < input.length) :
    ∃ after, feedAll input (.sending transfer sender, live) = (.ended (.ok ()), after) := by
  induction input generalizing sender parts live with
  | nil => cases enough
  | cons byte rest ih =>
      obtain ⟨⟨notWarning, notError⟩, good⟩ := List.forall_mem_cons.1 good
      have pushed : sender.state.push byte = .done (.ok ()) := by
        rw [waits, Wire.Acknowledgement.push, if_neg notWarning, if_neg notError]
      have apart : origin.Apart (Sender.Goes transfer origin.gateway.now transfer.command.paths parts)
          (fun _ => False) (sender.push transfer byte) := by
        rw [Sender.push_done pushed]
        apply (Sender.acknowledged_keepsApart sinks plays).mono fun _ goes => goes
        rintro failure ⟨_, limited | ⟨path, member, pattern⟩⟩
        · exact limited unlimited
        · exact Bool.false_ne_true ((plain path member).symm.trans pattern)
      obtain ⟨progress, after, carried, goes, keeps⟩ := carryOut_gives transfer live.gateway.nextUpload
        (ofProgress (sending transfer)) (Live.gives_of_apart apart keeps unlimited)
      have fed : feed byte (.sending transfer sender, live) = (ofProgress (sending transfer) progress, after) := carried
      rw [feedAll, List.foldl_cons, fed, ← feedAll]
      cases progress with
      | waiting next =>
          obtain ⟨first, more, rfl, waits, plays⟩ := goes
          exact ih waits plays keeps good (Nat.lt_of_succ_lt_succ enough)
      | _ => exact ⟨after, feedAll_ended _ rest after⟩

variable {login : Login} {line : String} {command : Command}

omit [RemoteStore σ] in
theorem part_of_told {result : Except Fault Unit} (told : Told transfer origin sent (.ended result, live)) :
    sent <+: (Sender.script transfer origin.gateway.now transfer.command.paths).flatten := by
  cases result with
  | ok _ => exact told.1 ▸ List.prefix_rfl
  | error fault => exact told

section Source

theorem start_told (parsed : Command.parse line = .ok command) (source : command.direction = .source) :
    Told (login.transfer command live.gateway.settings) live [] (start login line live) := by
  rw [start_source parsed source]
  exact ⟨rfl, .refl live, _, ⟨[], command.paths, rfl, List.forall_mem_nil _, rfl, .request⟩, rfl⟩

/-- A whole session that sends from the sink tells the client of the script, or the first part of it. -/
theorem run_told (parsed : Command.parse line = .ok command) (source : command.direction = .source)
    (sinks : ∀ path ∈ command.paths, (Sender.base path).isSink = true) (input : List UInt8) (ending : Ending) :
    Told (login.transfer command live.gateway.settings) live (said (effects login line input ending live))
      (.ended (run login line input ending live).1, (run login line input ending live).2) := by
  have begun : Told (login.transfer command live.gateway.settings) live [] (start login line live) :=
    start_told parsed source
  have told := finish_told (feedAll_told sinks begun input) ending
  rw [finish_eq_run] at told
  rw [effects, opening_source parsed source, said_append, List.nil_append]
  exact told

theorem run_completes (parsed : Command.parse line = .ok command) (source : command.direction = .source)
    (sinks : ∀ path ∈ command.paths, (Sender.base path).isSink = true) (unlimited : live.outlet.limit = none)
    (plain : ∀ path ∈ command.paths, Glob.hasGlob path = false) {input : List UInt8}
    (good : ∀ byte ∈ input, byte ≠ Wire.warningStatus ∧ byte ≠ Wire.errorStatus)
    (enough : (Sender.script (login.transfer command live.gateway.settings) live.gateway.now command.paths).length <
      input.length) (ending : Ending) : (run login line input ending live).1 = .ok () := by
  have begun : (Sender.start (login.transfer command live.gateway.settings)).Plays
      (login.transfer command live.gateway.settings) live.gateway.now command.paths
      (Sender.script (login.transfer command live.gateway.settings) live.gateway.now command.paths) :=
    ⟨[], command.paths, rfl, List.forall_mem_nil _, rfl, .request⟩
  obtain ⟨after, fed⟩ := feedAll_completes sinks plain unlimited rfl begun (.refl live) good enough
  rw [run, start_source parsed source, fed]
  cases ending <;> rfl

end Source

/-- The sink is apart from everything else. A session whose paths lead there asks only for what concerns the
client, the log and the clock, and at no moment is anything else in the gateway different; it fails for
reasons of the wire, the client or the path, or is cancelled, but never for want of a right or for an upload.
What it sends to a client are empty files, one for each path up to the first pattern. -/
theorem sink_isolated (parsed : Command.parse line = .ok command)
    (sinks : ∀ path ∈ command.paths, (Sender.base path).isSink = true) (input : List UInt8) (ending : Ending) :
    let asked := effects login line input ending live
    let ended := run login line input ending live
    let script := Sender.script (login.transfer command live.gateway.settings) live.gateway.now command.paths
    (∀ entry ∈ asked, entry.1.Apart ∧ live.KeepsTo entry.2) ∧
      (live.gateway.Fresh → (live.gateway.after ended.1).OnlyLogs ended.2.gateway) ∧
      (∀ fault, ended.1 = .error fault → fault.Local ∨ fault = .cancelled) ∧
      (command.direction = .source →
        said asked <+: script.flatten ∧
        (ended.1 = .ok () → said asked = script.flatten ∧ ∀ path ∈ command.paths, Glob.hasGlob path = false) ∧
        (live.outlet.limit = none → ended.2.outlet.taken.toList =
          live.outlet.taken.toList ++ said asked ++ notice ended.1) ∧
        (live.outlet.limit = none → (∀ path ∈ command.paths, Glob.hasGlob path = false) →
          (∀ byte ∈ input, byte ≠ Wire.warningStatus ∧ byte ≠ Wire.errorStatus) →
          script.length < input.length → ended.1 = .ok ())) := by
  intro asked ended script
  have begun : InSink (login.transfer command live.gateway.settings) live (start login line live) :=
    start_inSink parsed sinks
  have last := finish_inSink (feedAll_inSink sinks begun input) ending
  rw [finish_eq_run] at last
  refine ⟨?_, last.2, last.1, fun source => ⟨?_, ?_, ?_, ?_⟩⟩
  · intro entry member
    rcases List.mem_append.1 member with member | member
    · rcases List.mem_append.1 member with member | member
      · exact opening_inSink parsed sinks entry member
      · exact transcript_inSink sinks begun input entry member
    · exact closing_inSink (feedAll_inSink sinks begun input) ending entry member
  all_goals
    have told : Told (login.transfer command live.gateway.settings) live (said asked) (.ended ended.1, ended.2) :=
      run_told parsed source sinks input ending
  · exact part_of_told told
  · intro finished
    rw [finished] at told
    exact told
  · exact fun unlimited => run_taken unlimited login line input ending
  · exact fun unlimited plain good enough => run_completes parsed source sinks unlimited plain good enough ending

/-- A user without any right gets the sink from a gateway that is shut down: an empty file. -/
theorem sink_isolated_of_denied_user :
    let live : Live ScriptedStore := { gateway := (Gateway.new {} {} (fun _ _ _ => false) ⟨0, 0⟩).shutdown }
    let ended := run ⟨"ann", "::1", .empty⟩ "scp -f /dev/null" [0, 0, 0] .closed live
    ended.1 = .ok () ∧ live.gateway.OnlyLogs ended.2.gateway ∧
      ended.2.outlet.taken.toList = Text.encode "C0644 0 null\n" ++ [0] := by
  intro live ended
  have parsed : Command.parse "scp -f /dev/null" = .ok ⟨.source, false, false, false, false, ["/dev/null"]⟩ := by
    decide +kernel
  have sinks : ∀ path ∈ ["/dev/null"], (Sender.base path).isSink = true := by decide +kernel
  have plain : ∀ path ∈ ["/dev/null"], Glob.hasGlob path = false := by decide +kernel
  have good : ∀ byte ∈ ([0, 0, 0] : List UInt8), byte ≠ Wire.warningStatus ∧ byte ≠ Wire.errorStatus := by
    decide +kernel
  have fresh : live.gateway.Fresh := List.forall_mem_nil _
  have parts : Sender.script (Login.transfer ⟨"ann", "::1", .empty⟩ ⟨.source, false, false, false, false, ["/dev/null"]⟩
      live.gateway.settings) live.gateway.now ["/dev/null"] = [Text.encode "C0644 0 null\n", [0]] := by
    decide +kernel
  obtain ⟨_, kept, _, sent⟩ := @sink_isolated _ _ live ⟨"ann", "::1", .empty⟩ _ _ parsed sinks [0, 0, 0] .closed
  obtain ⟨_, whole, taken, completes⟩ := sent rfl
  have completed := completes rfl plain good (by rw [parts]; decide)
  replace kept := kept fresh
  replace taken := taken rfl
  rw [completed] at kept taken
  rw [(whole completed).1, parts] at taken
  exact ⟨completed, kept, taken⟩

end Session

end ArtifactGate
