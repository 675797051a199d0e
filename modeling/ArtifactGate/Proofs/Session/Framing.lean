import ArtifactGate.Proofs.Session.Isolation
import ArtifactGate.Proofs.Session.Statuses
import ArtifactGate.Proofs.Wire.Viewer

/-!
How a download is read. A client that knows nothing but the bytes finds in them what the session had it
acknowledge, part by part and in that order, as long as the names can be read from their lines.
-/
namespace ArtifactGate

/-- What the line before a file's bytes says. -/
def Outgoing.header (file : Outgoing) : Wire.Header where
  name := file.node.wireName
  length := file.content.length
  permissions := filePermissions

/-- What the line before a directory's entries says. -/
def Node.header (node : Node) : Wire.Header where
  name := node.wireName
  length := 0
  permissions := directoryPermissions

namespace Pending

/-- Where a client is in what it has been sent when it is to acknowledge this. -/
def viewer : Pending → Viewer
  | .fileHeader file => .body file.header []
  | _ => .control

/-- What a client is to have found last. The header of a file is found together with its bytes. -/
def sight? : Pending → Option Sight
  | .request | .fileHeader _ => none
  | .fileTimes file => some (.times (timesLine file.node))
  | .fileBody file => some (.file file.header (file.content.bytes.take file.content.length))
  | .directoryTimes node => some (.times (timesLine node))
  | .directoryHeader node => some (.directory node.header)
  | .directoryEnd => some .leave

/-- A header that is to be acknowledged can be read from its line. -/
def Legible : Pending → Prop
  | .fileHeader file => file.header.Legible
  | .directoryHeader node => node.header.Legible
  | _ => True

instance : DecidablePred Legible
  | .fileHeader file => inferInstanceAs (Decidable file.header.Legible)
  | .directoryHeader node => inferInstanceAs (Decidable node.header.Legible)
  | .request | .fileTimes _ | .fileBody _ | .directoryTimes _ | .directoryEnd => inferInstanceAs (Decidable True)

end Pending

namespace Viewer

theorem view_fileHeader {file : Outgoing} (legible : file.header.Legible) :
    Viewer.control.view (Wire.lineBytes (fileHeader file)) = (.body file.header [], []) := by
  have octal : Wire.Header.OctalPermissions filePermissions := ⟨'0', '6', '4', '4', by decide, by decide⟩
  have line : fileHeader file = 'C'.toString ++ file.header.fields := file.header.format_eq 'C'
  have parsed : Wire.Header.parse ("C" ++ file.header.fields) = .ok file.header :=
    @Wire.Header.parse_fields _ 'C' (by decide) octal legible.length legible.named
  rw [line, view_lineBytes 'C' 67 .file rfl (by decide +kernel)
    (Wire.Header.newline_not_mem_fields octal legible.unbroken), onLine, parsed]
  rfl

theorem view_directoryHeader {node : Node} (legible : node.header.Legible) :
    Viewer.control.view (Wire.lineBytes (directoryHeader node)) = (.control, [.directory node.header]) := by
  have octal : Wire.Header.OctalPermissions directoryPermissions := ⟨'0', '7', '5', '5', by decide, by decide⟩
  have line : directoryHeader node = 'D'.toString ++ node.header.fields := node.header.format_eq 'D'
  have parsed : Wire.Header.parse ("D" ++ node.header.fields) = .ok node.header :=
    @Wire.Header.parse_fields _ 'D' (by decide) octal legible.length legible.named
  rw [line, view_lineBytes 'D' 68 .directory rfl (by decide +kernel)
    (Wire.Header.newline_not_mem_fields octal legible.unbroken), onLine, parsed]
  rfl

theorem view_times (node : Node) :
    Viewer.control.view (Wire.lineBytes (timesLine node)) = (.control, [.times (timesLine node)]) := by
  rw [timesLine, Wire.Timestamps.format_eq]
  exact view_lineBytes 'T' 84 .times rfl (by decide +kernel)
    (Wire.Timestamps.newline_not_mem_fields _)

theorem view_leave : Viewer.control.view (Wire.lineBytes "E") = (.control, [.leave]) := by
  decide +kernel

end Viewer

/-- A client that takes what it is sent takes all of it. -/
theorem Outlet.taken_of_take {outlet after : Outlet} {bytes : List UInt8}
    (took : outlet.take bytes = (some (.ok ()), after)) : after.taken.toList = outlet.taken.toList ++ bytes := by
  rw [take] at took
  cases limit : outlet.limit with
  | none =>
      simp only [limit] at took
      cases took
      exact Array.toList_append
  | some most =>
      by_cases whole : (bytes.take (most - outlet.taken.size)).length = bytes.length
      · simp only [limit, whole, if_true] at took
        cases took
        rw [List.length_take] at whole
        rw [Array.toList_append, List.toList_toArray, List.take_of_length_le (by omega)]
      · simp only [limit, whole, if_false] at took
        split at took <;> cases took

variable {σ : Type} [RemoteStore σ]

namespace Live

variable {α ε : Type} {part : ExceptT ε Action α}

theorem ends_sent (bytes : List UInt8) (live : Live σ) :
    live.Ends (send bytes) (fun _ after => after.outlet.taken.toList = live.outlet.taken.toList ++ bytes)
      fun _ _ => True := by
  rw [Ends, send, ExceptT.run_mk, run_request, perform]
  rcases took : live.outlet.take bytes with ⟨_ | _ | _, after⟩
  · trivial
  · trivial
  · exact Outlet.taken_of_take took

end Live

namespace Sender

variable {transfer : Transfer} {agenda : List Job} {live : Live σ}

/-- A client that had taken some bytes and was at `viewer` has been sent more: it comes to the end of the
download, or finds what it is to acknowledge now. -/
def Leads (viewer : Viewer) (taken : List UInt8) (progress : Progress Sender) (after : Live σ) : Prop :=
  ∃ bytes, after.outlet.taken.toList = taken ++ bytes ∧
    match progress with
    | .over => viewer.view bytes = (.control, [])
    | .waiting sender => sender.state = .status ∧
        (sender.pending.Legible → viewer.view bytes = (sender.pending.viewer, sender.pending.sight?.toList))

/-- Sending what a client is to acknowledge. -/
theorem await_leads {ε : Type} {sends : ExceptT ε Action Unit} (pending : Pending) {viewer : Viewer}
    {bytes : List UInt8}
    (sent : live.Ends sends (fun _ after => after.outlet.taken.toList = live.outlet.taken.toList ++ bytes)
      fun _ _ => True)
    (found : pending.Legible → viewer.view bytes = (pending.viewer, pending.sight?.toList)) :
    live.Ends (do sends; return await pending agenda) (Leads viewer live.outlet.taken.toList) fun _ _ => True :=
  sent.bind fun _ _ sent => .pure ⟨bytes, sent, rfl, found⟩

theorem sendFileHeader_leads (file : Outgoing) (live : Live σ) :
    live.Ends (sendFileHeader file agenda) (Leads .control live.outlet.taken.toList) fun _ _ => True :=
  await_leads (.fileHeader file) (Live.ends_sent _ live) Viewer.view_fileHeader

theorem sendDirectoryHeader_leads (node : Node) (live : Live σ) :
    live.Ends (sendDirectoryHeader node agenda) (Leads .control live.outlet.taken.toList) fun _ _ => True :=
  await_leads (.directoryHeader node) (Live.ends_sent _ live).unlogged Viewer.view_directoryHeader

theorem beginFile_leads (node : Node) (live : Live σ) :
    live.Ends (beginFile transfer node agenda) (Leads .control live.outlet.taken.toList) fun _ _ => True := by
  apply (Live.ends_silent ((node.openRead_fetches 0).weaken fun _ => Effect.Fetches.silent) live).bind
  intro content after same
  rw [← same]
  exact .ite (fun _ => await_leads (.fileTimes ⟨node, content⟩) (Live.ends_sent _ after) fun _ =>
    Viewer.view_times node)
    fun _ => sendFileHeader_leads _ after

/-- The bytes of a file are as many as its header says, or the session fails. -/
theorem sendBody_leads (file : Outgoing) (live : Live σ) :
    live.Ends (sendBody file agenda) (Leads (.body file.header []) live.outlet.taken.toList)
      fun _ _ => True := by
  apply (Live.ends_sent _ live).bind
  intro _ after sent
  apply Live.Ends.refuse fun _ => trivial
  intro whole
  have length : (file.content.bytes.take file.content.length).length = file.header.length := by
    rw [List.length_take]
    exact Nat.min_eq_left (Nat.le_of_not_lt whole)
  apply (Live.ends_sent _ after).bind
  intro _ last ended
  refine .pure ⟨_, ?_, rfl, fun _ => Viewer.view_body length⟩
  rw [ended, sent, List.append_assoc]
  rfl

theorem beginDirectory_leads (node : Node) (live : Live σ) :
    live.Ends (beginDirectory transfer node agenda) (Leads .control live.outlet.taken.toList) fun _ _ => True :=
  .ite (fun _ => await_leads (.directoryTimes node) (Live.ends_sent _ live).unlogged fun _ => Viewer.view_times node)
    fun _ => sendDirectoryHeader_leads node live

theorem beginNode_leads (node : Node) (live : Live σ) :
    live.Ends (beginNode transfer node agenda) (Leads .control live.outlet.taken.toList) fun _ _ => True := by
  refine .ite (fun _ => (beginFile_leads node live).logs fun _ _ _ => trivial) fun _ => ?_
  apply (Live.ends_silent ((Complies.lift (refusal?_inquires vouches_anyAnswer transfer node)).weaken
    fun _ => Effect.Inquires.silent) live).bind
  intro fault after same
  rw [← same]
  cases fault with
  | some fault => exact Live.Ends.logs (.throw trivial) fun _ _ _ => trivial
  | none => exact beginDirectory_leads node after

theorem proceed_leads (agenda : List Job) (live : Live σ) :
    live.Ends (proceed transfer agenda) (Leads .control live.outlet.taken.toList) fun _ _ => True := by
  have finished {after : Live σ} (same : after.outlet = live.outlet) :
      Leads .control live.outlet.taken.toList .over after :=
    ⟨[], same ▸ (List.append_nil _).symm, rfl⟩
  cases agenda with
  | nil => exact .pure (finished rfl)
  | cons job agenda =>
      cases job with
      | path text =>
          apply (Live.ends_silent ((nodesOf_inquires transfer text).weaken fun _ => Effect.Inquires.silent)
            live).adapt.bind
          intro nodes after same
          cases nodes with
          | nil => exact .pure (finished same)
          | cons node rest => exact same ▸ beginNode_leads node after
      | node node => exact beginNode_leads node live
      | leave => exact await_leads .directoryEnd (Live.ends_sent _ live).unlogged fun _ => Viewer.view_leave

theorem acknowledged_leads (pending : Pending) (live : Live σ) :
    live.Ends (acknowledged transfer agenda pending) (Leads pending.viewer live.outlet.taken.toList)
      fun _ _ => True := by
  cases pending with
  | request => exact proceed_leads agenda live
  | fileTimes file => exact (sendFileHeader_leads file live).logs fun _ _ _ => trivial
  | fileHeader file => exact (sendBody_leads file live).logs fun _ _ _ => trivial
  | fileBody file =>
      have silent : Attempts Effect.Silent (fun _ => True)
          (transfer.logSuccess ⟨file.node.location, file.content.length⟩) :=
        Transfer.logSuccess_complies (fun _ => trivial) transfer _
      apply (Live.ends_silent silent live).bind
      intro _ after same
      exact same ▸ proceed_leads agenda after
  | directoryTimes node => exact sendDirectoryHeader_leads node live
  | directoryHeader node =>
      apply (Live.ends_silent ((Complies.lift node.children_inquires).weaken fun _ => Effect.Inquires.silent) live).bind
      intro children after same
      exact same ▸ proceed_leads _ after
  | directoryEnd => exact proceed_leads agenda live

end Sender

namespace Session

/-- What the client of a download is to acknowledge next, all of it still to come. -/
def awaits? : Session → Option Pending
  | .sending _ ⟨pending, .status, _⟩ => some pending
  | _ => none

/-- What a session comes to have acknowledged on some bytes, in turn. -/
def awaited : List UInt8 → Session × Live σ → List Pending
  | [], _ => []
  | byte :: rest, state => (feed byte state).1.awaits?.toList ++ awaited rest (feed byte state)

/-- A client that has read what came after `before` is at `viewer`, and has found what it was asked to
acknowledge. -/
def Found (before : List UInt8) (earlier : List Pending) (viewer : Viewer) (live : Live σ) : Prop :=
  ∃ output, live.outlet.taken.toList = before ++ output ∧
    ((∀ pending ∈ earlier, pending.Legible) →
      Viewer.control.view output = (viewer, earlier.filterMap Pending.sight?))

/-- The session sends, and its client has found what it was asked to acknowledge, unless the session failed. -/
def Framed (before : List UInt8) (earlier : List Pending) : Session × Live σ → Prop
  | (.sending _ sender, live) => Found before earlier sender.pending.viewer live
  | (.ended (.ok ()), live) => Found before earlier .control live
  | (.ended (.error _), _) => True
  | (.receiving _ _ _, _) => False

variable {before : List UInt8} {earlier : List Pending} {transfer : Transfer} {live : Live σ}

omit [RemoteStore σ] in
/-- What is sent for the client to acknowledge next is found after what it has found so far. -/
theorem found_of_leads {after : Live σ} {pending : Pending} {progress : Progress Sender}
    (found : Found before earlier pending.viewer live)
    (leads : Sender.Leads pending.viewer live.outlet.taken.toList progress after) :
    let session := ofProgress (sending transfer) progress
    Framed before (earlier ++ session.awaits?.toList) (session, after) := by
  obtain ⟨output, taken, read⟩ := found
  obtain ⟨bytes, sent, goesOn⟩ := leads
  have whole : after.outlet.taken.toList = before ++ (output ++ bytes) := by
    rw [sent, taken, List.append_assoc]
  cases progress with
  | waiting sender =>
      obtain ⟨pending, state, agenda⟩ := sender
      obtain ⟨rfl, goesOn⟩ := goesOn
      refine ⟨output ++ bytes, whole, fun legible => ?_⟩
      have first := read fun pending member => legible pending (List.mem_append_left _ member)
      have next := goesOn (legible pending (List.mem_append_right _ List.mem_cons_self))
      rw [Viewer.view_more first next, List.filterMap_append]
      cases pending <;> rfl
  | _ =>
      refine ⟨output ++ bytes, whole, fun legible => ?_⟩
      have first := read fun pending member => legible pending (List.mem_append_left _ member)
      rw [Viewer.view_more first goesOn, List.filterMap_append]
      rfl

theorem carryOut_framed {α : Type} {step : Step α} {holds : α → Live σ → Prop} {next : α → Session} {mark : Nat}
    (ends : live.Ends step holds fun _ _ => True)
    (goesOn : ∀ value after, holds value after →
      Framed before (earlier ++ (next value).awaits?.toList) (next value, after)) :
    let state := carryOut transfer mark step next live
    Framed before (earlier ++ state.1.awaits?.toList) state := by
  rw [Live.Ends] at ends
  rw [carryOut]
  rcases ran : live.run step.run with ⟨_ | failure | value, after⟩ <;> simp only [ran] at ends
  · trivial
  · trivial
  · exact goesOn value after ends

/-- A word that goes on is in its message. -/
theorem more_ne_status {state next : Wire.Acknowledgement} {byte : UInt8} (pushed : state.push byte = .more next) :
    next ≠ .status := by
  cases state with
  | status =>
      rw [Wire.Acknowledgement.push] at pushed
      split at pushed
      · cases pushed
        exact Wire.Acknowledgement.noConfusion
      · split at pushed <;> cases pushed
        exact Wire.Acknowledgement.noConfusion
  | message isError line =>
      rw [Wire.Acknowledgement.push] at pushed
      split at pushed <;> cases pushed
      exact Wire.Acknowledgement.noConfusion

theorem feed_framed (byte : UInt8) {state : Session × Live σ} (framed : Framed before earlier state) :
    Framed before (earlier ++ (feed byte state).1.awaits?.toList) (feed byte state) := by
  obtain ⟨session, live⟩ := state
  cases session with
  | receiving transfer mark receiver => exact framed.elim
  | sending transfer sender =>
      rw [feed]
      rcases pushed : sender.state.push byte with next | fault | _
      · have waits : live.Ends (sender.push transfer byte)
            (fun value after => value = .waiting { sender with state := next } ∧ after = live) fun _ _ => True :=
          Sender.push_more pushed ▸ .pure ⟨rfl, rfl⟩
        apply carryOut_framed waits
        rintro _ _ ⟨rfl, rfl⟩
        have still : (Session.sending transfer { sender with state := next }).awaits? = none := by
          cases next with
          | status => exact absurd rfl (more_ne_status pushed)
          | message isError line => rfl
        rw [ofProgress, still, Option.toList_none, List.append_nil]
        exact framed
      · have refused : live.Ends (sender.push transfer byte) (fun _ _ => False) fun _ _ => True :=
          Sender.push_refused pushed ▸ Live.Ends.logsIn (.throw trivial) fun _ _ _ => trivial
        exact carryOut_framed refused fun _ _ => False.elim
      · rw [Sender.push_done pushed]
        apply carryOut_framed (Sender.acknowledged_leads sender.pending live)
        exact fun progress after leads => found_of_leads framed leads
  | ended result =>
      have nothing : (Session.ended result).awaits?.toList = [] := rfl
      rw [feed, nothing, List.append_nil]
      exact framed

theorem feedAll_framed (bytes : List UInt8) {state : Session × Live σ} (framed : Framed before earlier state) :
    Framed before (earlier ++ awaited bytes state) (feedAll bytes state) := by
  induction bytes generalizing earlier state with
  | nil => rwa [awaited, List.append_nil]
  | cons byte rest ih =>
      rw [awaited, ← List.append_assoc]
      exact ih (feed_framed byte framed)

/-- A download that succeeds is over before the client's bytes are. -/
theorem finish_sending_fails (ending : Ending) (transfer : Transfer) (sender : Sender) (live : Live σ) :
    ∃ fault, (finish ending (.sending transfer sender, live)).1 = .ended (.error fault) := by
  have fails {step : Step Unit} (ends : live.Ends step (fun _ _ => False) fun _ _ => True) :
      ∃ fault, (carryOut transfer live.gateway.nextUpload step (fun _ => .ended (.ok ())) live).1 =
        .ended (.error fault) := by
    rw [Live.Ends] at ends
    rw [carryOut]
    rcases ran : live.run step.run with ⟨_ | _ | _, after⟩ <;> simp only [ran] at ends
    · exact ⟨_, rfl⟩
    · exact ⟨_, rfl⟩
  cases ending with
  | closed =>
      apply fails
      rw [Sender.atEnd]
      apply Live.Ends.logsIn _ fun _ _ _ => trivial
      cases sender.state with
      | status => exact .throw trivial
      | message isError line => exact .throw trivial
  | broken reason => exact fails (Live.Ends.logsIn (.throw trivial) fun _ _ _ => trivial)
  | silent => exact ⟨_, rfl⟩

/-- A download is read as it was meant. When a session that sends succeeds, and no name that it sends is empty or
has a line end in it, a client that knows nothing but the bytes finds in them the times, files and directories
that the session had it acknowledge, under the names of their nodes and in their order, and nothing else. -/
theorem download_framed {login : Login} {line : String} {command : Command} {input : List UInt8} {ending : Ending}
    {live : Live σ} (parsed : Command.parse line = .ok command) (source : command.direction = .source)
    (succeeded : (run login line input ending live).1 = .ok ())
    (legible : ∀ pending ∈ awaited input (start login line live), pending.Legible) :
    ∃ output, (run login line input ending live).2.outlet.taken.toList = live.outlet.taken.toList ++ output ∧
      Viewer.control.view output =
        (.control, (awaited input (start login line live)).filterMap Pending.sight?) := by
  have starts : Framed live.outlet.taken.toList [] (start login line live) := by
    rw [start_source parsed source]
    exact ⟨[], (List.append_nil _).symm, fun _ => rfl⟩
  have framed := feedAll_framed input starts
  have same := finish_eq_run login line input ending live
  rw [List.nil_append] at framed
  rw [succeeded] at same
  rcases reached : feedAll input (start login line live) with ⟨session, last⟩
  rw [reached] at framed same
  cases session with
  | receiving transfer mark receiver => exact framed.elim
  | sending transfer sender =>
      obtain ⟨fault, failed⟩ := finish_sending_fails ending transfer sender last
      rw [same] at failed
      cases failed
  | ended result =>
      cases same
      obtain ⟨output, taken, found⟩ := framed
      exact ⟨output, taken, found legible⟩

/-- A directory with one file, sent with its times. -/
theorem download_framed_of_directory :
    let store := MemoryStore.insert {} ⟨"libs", "d/a b"⟩ [10, 0] .empty
    let live : Live MemoryStore := { gateway := Gateway.new {} store (fun _ _ _ => true) ⟨0, 0⟩ }
    let ended := run ⟨"ann", "::1", .empty⟩ "scp -rpf libs/d" (List.replicate 7 0) .closed live
    ended.1 = .ok () ∧
      Viewer.control.view ended.2.outlet.taken.toList =
        (.control, [.times "T0 0 0 0", .directory ⟨"d", 0, "0755"⟩, .times "T0 0 0 0",
          .file ⟨"a b", 2, "0644"⟩ [10, 0], .leave]) := by
  intro store live ended
  have parsed : Command.parse "scp -rpf libs/d" = .ok ⟨.source, true, true, false, false, ["libs/d"]⟩ := by
    decide +kernel
  have succeeded : ended.1 = .ok () := by decide +kernel
  have legible : ∀ pending ∈ awaited (List.replicate 7 0) (start ⟨"ann", "::1", .empty⟩ "scp -rpf libs/d" live),
      pending.Legible := by
    decide +kernel
  have sights : (awaited (List.replicate 7 0)
        (start ⟨"ann", "::1", .empty⟩ "scp -rpf libs/d" live)).filterMap Pending.sight? =
      [.times "T0 0 0 0", .directory ⟨"d", 0, "0755"⟩, .times "T0 0 0 0",
        .file ⟨"a b", 2, "0644"⟩ [10, 0], .leave] := by
    decide +kernel
  obtain ⟨output, taken, found⟩ := download_framed parsed rfl succeeded legible
  refine ⟨succeeded, ?_⟩
  rw [taken, ← sights]
  exact found

/-- A line end in the name of a directory makes another directory of what follows it. -/
theorem line_end_adds_directory :
    let store := MemoryStore.insert {} ⟨"libs", "d/a\nD0755 0 b/f"⟩ [104, 105] .empty
    let live : Live MemoryStore := { gateway := Gateway.new {} store (fun _ _ _ => true) ⟨0, 0⟩ }
    let ended := run ⟨"ann", "::1", .empty⟩ "scp -r -f libs/d" (List.replicate 7 0) .closed live
    ended.1 = .ok () ∧
      (awaited (List.replicate 7 0)
          (start ⟨"ann", "::1", .empty⟩ "scp -r -f libs/d" live)).filterMap Pending.sight? =
        [.directory ⟨"d", 0, "0755"⟩, .directory ⟨"a\nD0755 0 b", 0, "0755"⟩, .file ⟨"f", 2, "0644"⟩ [104, 105],
          .leave, .leave] ∧
      Viewer.control.view ended.2.outlet.taken.toList =
        (.control, [.directory ⟨"d", 0, "0755"⟩, .directory ⟨"a", 0, "0755"⟩, .directory ⟨"b", 0, "0755"⟩,
          .file ⟨"f", 2, "0644"⟩ [104, 105], .leave, .leave]) := by
  decide +kernel

end Session

end ArtifactGate
