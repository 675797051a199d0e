import ArtifactGate.Proofs.Session.Reading
import ArtifactGate.Proofs.Session.Transcript

/-!
What a word that all is well makes of a download. It asks for the next thing that the client is to acknowledge, and
waits for the word about that; what it is can be told from what it asks for.
-/
namespace ArtifactGate

variable {σ : Type} [RemoteStore σ]

/-- The bytes that a store answers with. -/
def served : Except Fault Content → List UInt8
  | .ok content => content.bytes
  | .error _ => []

/-- The last thing that is asked for is to send these bytes. -/
def EndsIn (bytes : List UInt8) (asked : List (Effect × Live σ)) : Prop :=
  ∃ world, asked.getLast? = some (.send bytes, world)

/-- What is asked for opens the content of a node: it lies in the sink and is empty, or it is what the store
answers. -/
def Opens (node : Node) (content : OpenedContent) (asked : List (Effect × Live σ)) : Prop :=
  node.isSink = true ∧ content.bytes = [] ∨
    ∃ world answer, (.content node.location, world) ∈ asked ∧
      (world.perform (.content node.location)).1 = some answer ∧ content.bytes = served answer

section Asked

variable {asked more : List (Effect × Live σ)}

omit [RemoteStore σ] in
theorem EndsIn.append {bytes : List UInt8} (ends : EndsIn bytes more) (asked : List (Effect × Live σ)) :
    EndsIn bytes (asked ++ more) := by
  obtain ⟨world, last⟩ := ends
  exact ⟨world, by rw [List.getLast?_append, last]; rfl⟩

theorem Opens.append {node : Node} {content : OpenedContent} (opens : Opens node content asked)
    (more : List (Effect × Live σ)) : Opens node content (asked ++ more) := by
  rcases opens with sink | ⟨world, answer, member, answered⟩
  · exact .inl sink
  · exact .inr ⟨world, answer, List.mem_append_left _ member, answered⟩

theorem Opens.prepend {node : Node} {content : OpenedContent} (opens : Opens node content more)
    (asked : List (Effect × Live σ)) : Opens node content (asked ++ more) := by
  rcases opens with sink | ⟨world, answer, member, answered⟩
  · exact .inl sink
  · exact .inr ⟨world, answer, List.mem_append_right _ member, answered⟩

end Asked

/-- What is asked for before a client is to acknowledge something. -/
def Pending.Due (asked : List (Effect × Live σ)) : Pending → Prop
  | .fileTimes file => Opens file.node file.content asked ∧ EndsIn (Wire.lineBytes (timesLine file.node)) asked
  | .fileHeader file =>
    Opens file.node file.content asked ∧ EndsIn (Wire.lineBytes (ArtifactGate.fileHeader file)) asked
  | .directoryTimes node => EndsIn (Wire.lineBytes (timesLine node)) asked
  | .directoryHeader node => EndsIn (Wire.lineBytes (ArtifactGate.directoryHeader node)) asked
  | .directoryEnd => EndsIn (Wire.lineBytes "E") asked
  | .request | .fileBody _ => False

theorem Pending.Due.prepend {pending : Pending} {more : List (Effect × Live σ)} (due : pending.Due more)
    (asked : List (Effect × Live σ)) : pending.Due (asked ++ more) := by
  cases pending with
  | fileTimes file => exact ⟨due.1.prepend asked, due.2.append asked⟩
  | fileHeader file => exact ⟨due.1.prepend asked, due.2.append asked⟩
  | directoryTimes node => exact EndsIn.append due asked
  | directoryHeader node => exact EndsIn.append due asked
  | directoryEnd => exact EndsIn.append due asked
  | _ => exact due.elim

theorem Node.traces_fetchContent (location : Location) (live : Live σ) :
    live.Traces (fetchContent location) fun asked content => ∃ world answer, (.content location, world) ∈ asked ∧
      (world.perform (.content location)).1 = some answer ∧ (content.map Content.bytes).getD [] = served answer := by
  rw [Live.Traces]
  intro content after ran
  have run : live.run (fetchContent location).run = _ :=
    (congrArg live.run (map_eq_pure_bind found? (Action.request (.content location)))).trans (Live.run_bind _ _ live)
  rw [run, Live.run_request] at ran
  rcases performed : live.perform (.content location) with ⟨_ | answer, reached⟩ <;> rw [performed] at ran
  · cases ran
  · refine ⟨live, answer, ?_, congrArg Prod.fst performed, ?_⟩
    · rw [Live.asked, fetchContent, ExceptT.run_mk, map_eq_pure_bind, Action.asked_bind]
      exact List.mem_append_left _ List.mem_cons_self
    · simp only [Live.run_pure, Prod.mk.injEq, Option.some.injEq] at ran
      cases answer with
      | ok given =>
          obtain ⟨rfl⟩ := ran.1
          rfl
      | error fault =>
          rw [found?] at ran
          split at ran
          · obtain ⟨rfl⟩ := ran.1
            rfl
          · cases ran.1

theorem Node.openRead_opens (node : Node) (live : Live σ) :
    live.Traces (node.openRead 0) fun asked content => Opens node content asked := by
  have asks : Attempts (Effect.Inquires node.location.repository) (fun _ => True)
      (liftM node.isReadable : Attempt Bool) :=
    (Complies.lift (node.allows_inquires vouches_anyAnswer .read)).mono fun _ _ => trivial
  apply (Live.traces_of_attempts asks live).bind
  intro earlier allowed reached _
  apply Live.Traces.refuse
  intro _
  apply Live.Traces.ite
  · exact fun sink => .pure (.inl ⟨sink, rfl⟩)
  · intro _
    apply (traces_fetchContent node.location reached).bind
    rintro asked content after ⟨world, answer, member, answered, same⟩
    cases content with
    | none =>
        exact .pure (.inr ⟨world, answer, List.mem_append_right _ (List.mem_append_left _ member), answered, same⟩)
    | some content =>
        have skipped : after.Traces
            (ExceptT.mk (pure (skip 0 (content.length.getD node.size) content)) : Attempt OpenedContent)
            fun more opened => more = [] ∧ opened.bytes = content.bytes := by
          rw [skip]
          split
          · rw [if_neg (Nat.not_lt_zero _)]
            exact .pure ⟨rfl, rfl⟩
          · exact .pure ⟨rfl, rfl⟩
        apply skipped.mono
        rintro _ opened ⟨rfl, bytes⟩
        exact .inr ⟨world, answer, List.mem_append_right _ (List.mem_append_left _ member), answered, bytes.trans same⟩

namespace Sender

section Push

variable {sender : Sender} {transfer : Transfer} {byte : UInt8}

theorem push_more {next : Wire.Acknowledgement} (pushed : sender.state.push byte = .more next) :
    sender.push transfer byte = pure (.waiting { sender with state := next }) := by
  rw [push, pushed]

theorem push_refused {fault : Fault} (pushed : sender.state.push byte = .done (.error fault)) :
    sender.push transfer byte = transfer.loggingIn sender.pending.site? (throw fault) := by
  rw [push, pushed]
  cases sender.pending.site? <;> rfl

theorem push_done (pushed : sender.state.push byte = .done (.ok ())) :
    sender.push transfer byte = acknowledged transfer sender.agenda sender.pending := by
  rw [push, pushed]
  dsimp only
  rw [Transfer.loggingIn_ok]
  rfl

end Push

/-- What a sender asks for after the word that all is well with what was to be acknowledged, and what it comes to wait
for with that. -/
inductive Proceeds : Pending → List (Effect × Live σ) → Progress Sender → Prop
  | over {pending : Pending} {asked : List (Effect × Live σ)} : Proceeds pending asked .over
  | next {pending next : Pending} {asked : List (Effect × Live σ)} {agenda : List Job} (due : next.Due asked) :
    Proceeds pending asked (.waiting ⟨next, .status, agenda⟩)
  | header {file : Outgoing} {world : Live σ} {agenda : List Job} :
    Proceeds (.fileTimes file) [(.send (Wire.lineBytes (ArtifactGate.fileHeader file)), world)]
      (.waiting ⟨.fileHeader file, .status, agenda⟩)
  | body {file : Outgoing} {world later : Live σ} {agenda : List Job}
      (whole : file.content.length ≤ file.content.bytes.length) :
    Proceeds (.fileHeader file)
      [(.send (file.content.bytes.take file.content.length), world), (.send [Wire.okStatus], later)]
      (.waiting ⟨.fileBody file, .status, agenda⟩)

section Traces

variable {transfer : Transfer} {agenda : List Job} {live : Live σ}

/-- What is next was asked for, or all is over. -/
def Due (asked : List (Effect × Live σ)) : Progress Sender → Prop
  | .waiting sender => sender.state = .status ∧ sender.pending.Due asked
  | .over => True

theorem Due.prepend {progress : Progress Sender} {more : List (Effect × Live σ)} (due : Due more progress)
    (asked : List (Effect × Live σ)) : Due (asked ++ more) progress := by
  cases progress with
  | waiting sender => exact ⟨due.1, due.2.prepend asked⟩
  | _ => trivial

theorem Due.proceeds {progress : Progress Sender} {asked : List (Effect × Live σ)}
    (due : Due asked progress) (pending : Pending) : Proceeds pending asked progress := by
  cases progress with
  | waiting sender =>
      obtain ⟨next, state, agenda⟩ := sender
      obtain ⟨rfl, due⟩ := due
      exact .next due
  | _ => exact .over

theorem send_traces (bytes : List UInt8) (live : Live σ) :
    live.Traces (send bytes) fun asked _ => asked = [(.send bytes, live)] := by
  rw [Live.Traces]
  exact fun _ _ _ => Live.asked_send bytes live

/-- A line is sent, and then the client is to acknowledge something. -/
theorem tell_traces {ε : Type} {line : String} {sends : ExceptT ε Action Unit} {pending : Pending}
    {holds : List (Effect × Live σ) → Progress Sender → Prop}
    (sent : live.Traces sends fun asked _ => asked = [(.send (Wire.lineBytes line), live)])
    (goes : ∀ asked, EndsIn (Wire.lineBytes line) asked → holds asked (await pending agenda)) :
    live.Traces (do sends; return await pending agenda) holds := by
  apply sent.bind
  rintro _ _ after rfl
  exact .pure (goes _ ⟨live, rfl⟩)

theorem beginFile_traces (node : Node) (live : Live σ) :
    live.Traces (beginFile transfer node agenda) Due := by
  apply (node.openRead_opens live).bind
  intro asked content after opens
  apply Live.Traces.ite
  · intro _
    exact tell_traces (send_traces _ after) fun more line => ⟨rfl, opens.append more, line.append asked⟩
  · intro _
    exact tell_traces (send_traces _ after) fun more line => ⟨rfl, opens.append more, line.append asked⟩

theorem sendDirectoryHeader_traces (node : Node) (live : Live σ) :
    live.Traces (sendDirectoryHeader node agenda) Due :=
  tell_traces (send_traces _ live).adapt fun _ line => ⟨rfl, line⟩

theorem beginDirectory_traces (node : Node) (live : Live σ) :
    live.Traces (beginDirectory transfer node agenda) Due := by
  apply Live.Traces.ite
  · exact fun _ => tell_traces (send_traces _ live).adapt fun _ line => ⟨rfl, line⟩
  · exact fun _ => sendDirectoryHeader_traces node live

theorem beginNode_traces (node : Node) (live : Live σ) : live.Traces (beginNode transfer node agenda) Due := by
  apply Live.Traces.ite fun _ => (beginFile_traces node live).logging
  intro _
  have inquired := Complies.lift (ε := Failure) (refusal?_inquires vouches_anyAnswer transfer node)
  apply (Live.traces_of_attempts inquired live).bind
  intro asked fault after _
  cases fault with
  | some fault => exact Live.Traces.logging .throw
  | none => exact (beginDirectory_traces node after).mono fun more progress due => due.prepend asked

theorem proceed_traces (transfer : Transfer) (agenda : List Job) (live : Live σ) :
    live.Traces (proceed transfer agenda) Due := by
  cases agenda with
  | nil => exact .pure trivial
  | cons job agenda =>
      cases job with
      | path text =>
          apply (Live.traces_of_attempts (nodesOf_inquires transfer text).unlogged live).bind
          intro asked nodes after _
          cases nodes with
          | nil => exact .pure trivial
          | cons node rest => exact (beginNode_traces node after).mono fun _ _ due => due.prepend asked
      | node node => exact beginNode_traces node live
      | leave => exact tell_traces (send_traces _ live).adapt fun _ line => ⟨rfl, line⟩

theorem sendBody_traces (file : Outgoing) (live : Live σ) :
    live.Traces (sendBody file agenda) (Proceeds (.fileHeader file)) := by
  apply (send_traces _ live).bind
  rintro _ _ after rfl
  apply Live.Traces.refuse
  intro whole
  apply (send_traces _ after).bind
  rintro _ _ last rfl
  exact .pure (.body (Nat.le_of_not_lt whole))

theorem acknowledged_traces (transfer : Transfer) (agenda : List Job) (pending : Pending) (live : Live σ) :
    live.Traces (acknowledged transfer agenda pending) (Proceeds pending) := by
  have goesOn (earlier : List (Effect × Live σ)) (agenda : List Job) (after : Live σ) :
      after.Traces (proceed transfer agenda) fun more progress => Proceeds pending (earlier ++ more) progress :=
    (proceed_traces transfer agenda after).mono fun _ _ due => (due.prepend earlier).proceeds pending
  cases pending with
  | request => exact goesOn [] agenda live
  | fileTimes file =>
      apply Live.Traces.logging
      apply (send_traces _ live).bind
      rintro _ _ after rfl
      exact .pure .header
  | fileHeader file => exact (sendBody_traces file live).logging
  | fileBody file =>
      have logs : Attempts Effect.Silent (fun _ => True)
          (transfer.logSuccess ⟨file.node.location, file.content.length⟩) :=
        transfer.logSuccess_complies (fun _ => trivial) _
      apply (Live.traces_of_attempts logs live).bind
      exact fun asked _ after _ => goesOn asked agenda after
  | directoryTimes node =>
      exact (sendDirectoryHeader_traces node live).mono fun _ _ due => due.proceeds _
  | directoryHeader node =>
      apply (Live.traces_of_attempts (Complies.lift node.children_inquires) live).bind
      exact fun asked children after _ => goesOn asked _ after
  | directoryEnd => exact goesOn [] agenda live

/-- A byte goes on with a word, or it ends a word that all is well and what is next is due. -/
theorem push_traces (transfer : Transfer) (sender : Sender) (byte : UInt8) (live : Live σ) :
    live.Traces (sender.push transfer byte) fun asked progress =>
      (∃ later, sender.state.push byte = .more later ∧ asked = [] ∧
        progress = .waiting { sender with state := later }) ∨
      sender.state.push byte = .done (.ok ()) ∧ Proceeds sender.pending asked progress := by
  rcases pushed : sender.state.push byte with later | fault | _
  · rw [push_more pushed]
    exact .pure (.inl ⟨later, rfl, rfl, rfl⟩)
  · rw [push_refused pushed]
    cases sender.pending.site? with
    | none => exact .adapt .throw
    | some site => exact .logging .throw
  · rw [push_done pushed]
    exact (acknowledged_traces transfer _ _ live).mono fun _ _ proceeds => .inr ⟨rfl, proceeds⟩

end Traces

end Sender

namespace Session

/-- A byte makes of a session that sends what it may proceed to, or the session ends. -/
theorem feed_sends (transfer : Transfer) (sender : Sender) (byte : UInt8) (live : Live σ) :
    (∃ next, (feed byte (sending transfer sender, live)).1 = sending transfer next ∧
        ((∃ later, sender.state.push byte = .more later ∧ asked byte (sending transfer sender, live) = [] ∧
            next = { sender with state := later }) ∨
          sender.state.push byte = .done (.ok ()) ∧
            Sender.Proceeds sender.pending (asked byte (sending transfer sender, live)) (.waiting next))) ∨
      ∃ result, (feed byte (sending transfer sender, live)).1 = ended result := by
  rcases carryOut_reaches transfer live.gateway.nextUpload (sender.push transfer byte) (ofProgress (sending transfer))
    live with ⟨progress, after, ran, same⟩ | ⟨fault, after, same⟩ <;> rw [feed, same]
  · cases progress with
    | waiting next =>
        refine .inl ⟨next, rfl, ?_⟩
        rcases (Sender.push_traces transfer sender byte live).of_run ran with
          ⟨later, more, none, goesOn⟩ | proceeds
        · exact .inl ⟨later, more, none, Progress.waiting.inj goesOn⟩
        · exact .inr proceeds
    | _ => exact .inr ⟨_, rfl⟩
  · exact .inr ⟨_, rfl⟩

/-- The work of a sender is what its command says. -/
def Known : Session → Prop
  | .sending transfer sender => sender.Stands (fun _ _ _ => True) transfer.login.user transfer.command.paths
  | _ => True

theorem start_known (login : Login) (line : String) (live : Live σ) : (start login line live).1.Known := by
  rcases Command.parse_cases line with ⟨reason, refused⟩ | ⟨command, parsed, _⟩
  · rw [start_refused refused]
    trivial
  · cases direction : command.direction with
    | source =>
        rw [start_source parsed direction]
        exact .requested
    | sink =>
        rw [start_sink parsed direction]
        rcases carryOut_fst _ _ _ _ live with ⟨value, same⟩ | ⟨fault, same⟩ <;> rw [same] <;> trivial

theorem feed_known {state : Session × Live σ} (known : state.1.Known) (byte : UInt8) :
    (feed byte state).1.Known := by
  obtain ⟨session, live⟩ := state
  cases session with
  | receiving transfer mark receiver =>
      rcases carryOut_fst transfer mark (receiver.push transfer byte) (ofProgress (receiving transfer mark)) live with
        ⟨_ | _, same⟩ | ⟨fault, same⟩ <;> rw [feed, same] <;> trivial
  | sending transfer sender =>
      rcases carryOut_reaches transfer live.gateway.nextUpload (sender.push transfer byte)
        (ofProgress (sending transfer)) live with ⟨progress, after, ran, same⟩ | ⟨fault, after, same⟩ <;>
        rw [feed, same]
      · have reads := Live.traces_of_attempts (sender.push_reads vouches_anyAnswer transfer known byte) live
        obtain ⟨_, stands⟩ := reads.of_run ran
        cases progress with
        | waiting next => exact stands
        | _ => trivial
      · trivial
  | ended result => trivial

theorem feedAll_known {state : Session × Live σ} (known : state.1.Known) (input : List UInt8) :
    (feedAll input state).1.Known := by
  induction input generalizing state with
  | nil => exact known
  | cons byte rest ih => exact ih (feed_known known byte)

end Session

end ArtifactGate
