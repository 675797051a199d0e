import ArtifactGate.Proofs.Session.Finished

/-!
What a download finishes. A file's content is opened, its header is sent, and its bytes after the client has
acknowledged the header; with the status that follows them the session waits for the client's word about the file.
So the files that a download finishes are those of which all this was sent and acknowledged.
-/
namespace ArtifactGate

variable {σ : Type} [RemoteStore σ]

/-- A file that was sent. -/
structure Download where
  file : Outgoing
  /-- The client's bytes up to the one on which the content was opened. -/
  opened : List UInt8
  /-- The client's bytes up to the one on which the header was sent. -/
  headed : List UInt8
  /-- The client's bytes up to the one on which the content was sent. -/
  sent : List UInt8

namespace Download

def body (download : Download) : List UInt8 :=
  download.file.content.bytes.take download.file.content.length

/-- What is logged of the file. -/
def site (download : Download) : Site :=
  ⟨download.file.node.location, download.file.content.length⟩

/-- One part was sent after the client had acknowledged another. -/
def After (earlier later : List UInt8) : Prop :=
  ∃ word, Wire.Accepts word ∧ later = earlier ++ word

/-- The file's content was opened and its header sent, at once or after its times were acknowledged. -/
structure Headed (start : Session × Live σ) (download : Download) : Prop where
  opens : Opens download.file.node download.file.content (Session.askedLast start download.opened)
  order : download.headed = download.opened ∨ After download.opened download.headed
  header : EndsIn (Wire.lineBytes (fileHeader download.file)) (Session.askedLast start download.headed)

/-- The file was sent as its header says: the content of what its place holds, and the status after it. -/
structure Made (start : Session × Live σ) (download : Download) : Prop extends download.Headed start where
  inSink : download.file.node.isSink = download.file.node.location.isSink
  acknowledged : After download.headed download.sent
  body : ∃ world later, Session.askedLast start download.sent =
    [(.send download.body, world), (.send [Wire.okStatus], later)]
  whole : download.body.length = download.file.content.length

end Download

section Sending

variable {start : Session × Live σ} {taken : List UInt8} {byte : UInt8} {sender next : Sender}

/-- What a sender waits for, read off the bytes that it has taken. -/
def Sender.Reads (start : Session × Live σ) (taken : List UInt8) (sender : Sender) : Prop :=
  sender.state.Fits ∧
    match sender.pending with
    | .fileTimes file => ∃ opened, taken = opened ++ sender.state.word ∧
        Opens file.node file.content (Session.askedLast start opened)
    | .fileHeader file => ∃ download : Download, download.file = file ∧ download.Headed start ∧
        taken = download.headed ++ sender.state.word
    | .fileBody file => ∃ download : Download, download.file = file ∧ download.Made start ∧
        taken = download.sent ++ sender.state.word
    | _ => True

theorem Pending.Due.reads {pending : Pending} {agenda : List Job} (due : pending.Due (Session.askedLast start taken)) :
    Sender.Reads start taken ⟨pending, .status, agenda⟩ := by
  refine ⟨trivial, ?_⟩
  cases pending with
  | fileTimes file => exact ⟨taken, (List.append_nil _).symm, due.1⟩
  | fileHeader file =>
      exact ⟨⟨file, taken, taken, []⟩, rfl, ⟨due.1, .inl rfl, due.2⟩, (List.append_nil _).symm⟩
  | fileBody file => exact due.elim
  | _ => trivial

theorem Sender.reads_more {pending : Pending} {state later : Wire.Acknowledgement} {agenda : List Job}
    (reads : Sender.Reads start taken ⟨pending, state, agenda⟩) (more : state.push byte = .more later) :
    Sender.Reads start (taken ++ [byte]) ⟨pending, later, agenda⟩ := by
  obtain ⟨fits, reads⟩ := reads
  obtain ⟨word, fits⟩ := Wire.Acknowledgement.push_more more fits
  refine ⟨fits, ?_⟩
  cases pending with
  | fileTimes file =>
      obtain ⟨opened, rfl, opens⟩ := reads
      exact ⟨opened, by rw [word, List.append_assoc], opens⟩
  | fileHeader file =>
      obtain ⟨download, same, headed, rfl⟩ := reads
      exact ⟨download, same, headed, by rw [word, List.append_assoc]⟩
  | fileBody file =>
      obtain ⟨download, same, made, rfl⟩ := reads
      exact ⟨download, same, made, by rw [word, List.append_assoc]⟩
  | _ => trivial

/-- A word that all is well takes a file further. -/
theorem Sender.reads_done (reads : sender.Reads start taken)
    (done : sender.state.push byte = .done (.ok ()))
    (proceeds : Sender.Proceeds sender.pending (Session.askedLast start (taken ++ [byte])) (.waiting next))
    (inSink : ∀ file, sender.pending = .fileHeader file → file.node.isSink = file.node.location.isSink) :
    next.Reads start (taken ++ [byte]) := by
  obtain ⟨fits, reads⟩ := reads
  have accepts := Wire.Acknowledgement.accepts_of_done done fits
  obtain ⟨pending, state, agenda⟩ := sender
  generalize asks : Session.askedLast start (taken ++ [byte]) = asked at proceeds
  cases proceeds with
  | next due =>
      rw [← asks] at due
      exact due.reads
  | @header file world agenda =>
      obtain ⟨opened, rfl, opens⟩ := reads
      refine ⟨trivial, ⟨file, opened, opened ++ state.word ++ [byte], []⟩, rfl, ⟨opens, .inr ?_, ?_⟩,
        (List.append_nil _).symm⟩
      · exact ⟨state.word ++ [byte], accepts, List.append_assoc _ _ _⟩
      · exact ⟨world, by rw [asks]; rfl⟩
  | @body file world later agenda whole =>
      obtain ⟨download, rfl, headed, rfl⟩ := reads
      refine ⟨trivial, { download with sent := download.headed ++ state.word ++ [byte] }, rfl,
        ⟨⟨headed.opens, headed.order, headed.header⟩, inSink _ rfl, ?_, ⟨world, later, asks⟩, ?_⟩,
        (List.append_nil _).symm⟩
      · exact ⟨state.word ++ [byte], accepts, List.append_assoc _ _ _⟩
      · exact List.length_take_of_le whole

end Sending

section Status

variable {asked : List (Effect × Live σ)} {first second : List UInt8}

omit [RemoteStore σ] in
theorem EndsIn.unique (one : EndsIn first asked) (other : EndsIn second asked) : first = second := by
  obtain ⟨_, last⟩ := one
  obtain ⟨_, also⟩ := other
  cases last.symm.trans also
  rfl

theorem Wire.ne_lineBytes (line : String) : [okStatus] ≠ lineBytes line := by
  intro same
  have last := congrArg List.getLast? same
  rw [lineBytes, List.getLast?_concat] at last
  cases last

theorem Pending.Due.ends {pending : Pending} (due : pending.Due asked) :
    ∃ line, EndsIn (Wire.lineBytes line) asked := by
  cases pending with
  | fileTimes file => exact ⟨_, due.2⟩
  | fileHeader file => exact ⟨_, due.2⟩
  | directoryTimes node => exact ⟨_, due⟩
  | directoryHeader node => exact ⟨_, due⟩
  | directoryEnd => exact ⟨_, due⟩
  | _ => exact due.elim

/-- Of what a download sends, only the status of a file is a status. -/
theorem Sender.Proceeds.awaits {pending : Pending} {next : Sender}
    (proceeds : Sender.Proceeds pending asked (.waiting next)) (status : EndsIn [Wire.okStatus] asked) :
    ∃ file, next.pending = .fileBody file ∧ next.state = .status := by
  cases proceeds with
  | next due =>
      obtain ⟨line, ends⟩ := due.ends
      exact absurd (status.unique ends) (Wire.ne_lineBytes line)
  | @header file world agenda =>
      have ends : EndsIn (Wire.lineBytes (fileHeader file)) [(.send (Wire.lineBytes (fileHeader file)), world)] :=
        ⟨world, rfl⟩
      exact absurd (status.unique ends) (Wire.ne_lineBytes _)
  | body whole => exact ⟨_, rfl, rfl⟩

end Status

/-- A sender that waits for the word about a header has the node of a place in hand. -/
theorem Sender.inSink_of_stands {granted : String → String → Access → Prop} {user : String} {paths : List String}
    {sender : Sender} (stands : sender.Stands granted user paths) {file : Outgoing}
    (header : sender.pending = .fileHeader file) : file.node.isSink = file.node.location.isSink := by
  have held : file.node ∈ sender.nodes := by
    rw [Sender.nodes, header]
    exact List.mem_append_left _ (List.mem_singleton_self _)
  obtain ⟨path, _, under⟩ := stands.nodes held
  rw [under.isSink, Location.isSink, Location.isSink, under.repository]

namespace Session

variable {start : Session × Live σ} {input taken cut : List UInt8} {byte : UInt8} {site : Site}
  {cuts : List (Site × List UInt8)}

/-- What a download waits for, read off the bytes that it has taken. -/
def Sends (start : Session × Live σ) (taken : List UInt8) : Session → Prop
  | .receiving _ _ _ => False
  | .sending _ sender => sender.Reads start taken
  | .ended _ => True

theorem sends_feedAll (known : start.1.Known) (begins : Sends start [] start.1) (taken : List UInt8) :
    Sends start taken (feedAll taken start).1 := by
  induction taken using List.reverseRecOn with
  | nil => exact begins
  | append_singleton taken byte ih =>
      have last := askedLast_append_singleton start taken byte
      have known := feedAll_known known taken
      rw [feedAll_append_singleton]
      generalize feedAll taken start = state at ih last known ⊢
      obtain ⟨session, live⟩ := state
      cases session with
      | receiving transfer mark receiver => exact ih.elim
      | sending transfer sender =>
          rcases feed_sends transfer sender byte live with ⟨next, same, stepped⟩ | ⟨result, same⟩ <;> rw [same]
          · rcases stepped with ⟨later, more, _, rfl⟩ | ⟨done, proceeds⟩
            · exact Sender.reads_more ih more
            · rw [← last] at proceeds
              exact Sender.reads_done ih done proceeds fun _ header => Sender.inSink_of_stands known header
          · trivial
      | ended result => trivial

/-- Where a download waits for the word about a file, the file was sent. -/
theorem made_of_awaits (known : start.1.Known) (begins : Sends start [] start.1)
    (awaits : AwaitsWord start cut site) :
    ∃ download : Download, download.Made start ∧ download.sent = cut ∧ download.site = site := by
  have sends := sends_feedAll known begins cut
  rw [AwaitsWord] at awaits
  generalize (feedAll cut start).1 = session at awaits sends
  cases session with
  | receiving transfer mark receiver => exact sends.elim
  | sending transfer sender =>
      obtain ⟨pending, state, agenda⟩ := sender
      cases pending with
      | fileBody file =>
          cases awaits
          obtain ⟨_, download, rfl, made, rfl⟩ := sends
          exact ⟨download, made, (List.append_nil _).symm, rfl⟩
      | _ => cases awaits
  | ended result => cases awaits

/-- A download that goes on after it has sent the status of a file waits for the word about it. -/
theorem awaits_of_status (known : start.1.Known) (begins : Sends start [] start.1)
    (status : EndsIn [Wire.okStatus] (askedLast start cut)) (goesOn : GoesOn start cut) :
    ∃ site, AwaitsWord start cut site := by
  obtain rfl | ⟨taken, byte, rfl⟩ := List.eq_nil_or_concat' cut
  · obtain ⟨_, none⟩ := status
    cases none
  · have sends := sends_feedAll known begins taken
    rw [askedLast_append_singleton] at status
    simp only [AwaitsWord, GoesOn, feedAll_append_singleton] at goesOn ⊢
    generalize feedAll taken start = state at status goesOn sends ⊢
    obtain ⟨session, live⟩ := state
    cases session with
    | receiving transfer mark receiver => exact sends.elim
    | sending transfer sender =>
        rcases feed_sends transfer sender byte live with ⟨next, same, stepped⟩ | ⟨result, same⟩
        · rw [same]
          rcases stepped with ⟨later, _, none, _⟩ | ⟨_, proceeds⟩
          · rw [none] at status
            obtain ⟨_, none⟩ := status
            cases none
          · obtain ⟨file, pending, state⟩ := proceeds.awaits status
            obtain ⟨_, _, agenda⟩ := next
            obtain rfl : _ = Pending.fileBody file := pending
            obtain rfl : _ = Wire.Acknowledgement.status := state
            exact ⟨_, rfl⟩
        · exact absurd same (goesOn result)
    | ended result => exact absurd rfl (goesOn result)

/-- The files that a download finishes, in their order. A file was sent as its header says, with the status that ends
it, and the client said that all is well. -/
structure Delivered (start : Session × Live σ) (input : List UInt8) (downloads : List Download) : Prop where
  made : ∀ download ∈ downloads, download.Made start
  confirmed : ∀ download ∈ downloads, Confirmed input download.sent
  apart : downloads.Pairwise fun earlier later => Confirmed later.sent earlier.sent
  complete : ∀ cut, EndsIn [Wire.okStatus] (askedLast start cut) → GoesOn start cut → Confirmed input cut →
    ∃ download ∈ downloads, download.sent = cut

theorem delivered_of_cuts (known : start.1.Known) (begins : Sends start [] start.1)
    (confirmed : Cuts start input cuts) :
    ∃ downloads, Delivered start input downloads ∧ cuts.map Prod.fst = downloads.map Download.site := by
  have made (entry : Site × List UInt8) : ∃ download : Download, AwaitsWord start entry.2 entry.1 →
      download.Made start ∧ download.sent = entry.2 ∧ download.site = entry.1 := by
    by_cases awaits : AwaitsWord start entry.2 entry.1
    · obtain ⟨download, facts⟩ := made_of_awaits known begins awaits
      exact ⟨download, fun _ => facts⟩
    · exact ⟨⟨default, [], [], []⟩, fun also => absurd also awaits⟩
  choose download facts using made
  have facts (entry) (member : entry ∈ cuts) := facts entry (confirmed.awaits entry member)
  refine ⟨cuts.map download, ⟨?_, ?_, ?_, ?_⟩, ?_⟩
  · exact List.forall_mem_map.2 fun entry member => (facts entry member).1
  · refine List.forall_mem_map.2 fun entry member => ?_
    rw [(facts entry member).2.1]
    exact confirmed.confirmed entry member
  · refine List.pairwise_map.2 (confirmed.apart.imp_of_mem fun {earlier later} first last before => ?_)
    rwa [(facts earlier first).2.1, (facts later last).2.1]
  · intro cut status goesOn word
    obtain ⟨site, awaits⟩ := awaits_of_status known begins status goesOn
    have member := confirmed.complete site cut awaits word
    exact ⟨download (site, cut), List.mem_map_of_mem member, (facts _ member).2.1⟩
  · rw [List.map_map]
    exact List.map_congr_left fun entry member => (facts entry member).2.2.symm

/-- The files that a download finishes are those that were sent and that the client confirms. -/
theorem delivered_of_finished (known : start.1.Known) (begins : Sends start [] start.1)
    (fresh : start.1.awaitedWord? = none) (input : List UInt8) :
    ∃ downloads, Delivered start input downloads ∧ finished input start = downloads.map Download.site := by
  obtain ⟨cuts, confirmed, files⟩ := cuts_of_finished fresh input
  obtain ⟨downloads, delivered, same⟩ := delivered_of_cuts known begins confirmed
  exact ⟨downloads, delivered, files.trans same⟩

/-- The end of the client's bytes finishes no file of a download. -/
theorem finishedAtEnd_of_sends {session : Session} (sends : Sends start taken session) (ending : Ending) :
    finishedAtEnd ending session = [] := by
  cases session with
  | receiving transfer mark receiver => exact sends.elim
  | sending transfer sender => cases ending <;> rfl
  | ended result => exact finishedAtEnd_ended ending result

end Session

end ArtifactGate
