import ArtifactGate.Proofs.Session.Finished
import ArtifactGate.Proofs.Session.Receipts

/-!
What an upload finishes. From the header that lets a file in to the last byte of its body a session waits for no word
about a file; with that byte it answers that all is well and waits for the client to say the same. So the files that
an upload finishes are the receipts that the client confirms, by a word or by the end of its bytes.
-/
namespace ArtifactGate

variable {σ : Type} [RemoteStore σ]

/-- What is logged of a file that was received. -/
def Receipt.site (receipt : Receipt) : Site :=
  ⟨receipt.location, receipt.header.length⟩

section Answers

variable {live : Live σ}

/-- If the client is to say that all is well, it was told so itself. -/
def Receiver.Confirms (asked : List (Effect × Live σ)) (progress : Progress Receiver) : Prop :=
  ∀ next site, progress = .waiting next → next.phase = .lastWord site .status → EndsIn [Wire.okStatus] asked

omit [RemoteStore σ] in
theorem Receiver.Confirms.prepend {more : List (Effect × Live σ)} {progress : Progress Receiver}
    (answers : Confirms more progress) (asked : List (Effect × Live σ)) : Confirms (asked ++ more) progress :=
  fun next site goesOn phase => (answers next site goesOn phase).append asked

namespace Receiver

theorem awaitBody_confirms (receiver : Receiver) (file : Incoming) (live : Live σ) :
    live.Traces (receiver.awaitBody file) Confirms := by
  apply Live.Traces.ite
  · intro _
    have finishes : Attempts (fun _ => True) (fun _ => True) file.writer.finish :=
      file.writer.finish_complies fun _ => trivial
    apply (Live.traces_of_attempts finishes live).bind
    intro asked _ after _
    apply (Sender.send_traces [Wire.okStatus] after).bind
    rintro _ _ last rfl
    exact .pure fun _ _ _ _ => EndsIn.append ⟨after, rfl⟩ asked
  · intro _
    apply Live.Traces.pure
    rintro next site goesOn phase
    cases goesOn
    cases phase

theorem openFile_confirms (transfer : Transfer) (receiver : Receiver) (header : Wire.Header) (live : Live σ) :
    live.Traces (receiver.openFile transfer header) Confirms := by
  have chooses : Attempts (fun _ => True) (fun _ => True)
      (transfer.logging ⟨receiver.level.target.location.child header.name, header.length⟩
        (fileTarget receiver.level.target header.name)) :=
    (((fileTarget_inquires vouches_anyAnswer _ _).mono fun _ _ => trivial).weaken fun _ _ => trivial).logging
      fun _ => trivial
  apply (Live.traces_of_attempts chooses live).bind
  intro asked target chosen _
  apply Live.Traces.logging
  have opens (node : Node) : Attempts (fun _ => True) (fun _ => True) (node.openWrite 0) :=
    Node.openWrite_complies vouches_anyAnswer (fun _ _ => trivial) fun _ _ => trivial
  apply (Live.traces_of_attempts (opens _) chosen).bind
  intro begun writer opened _
  apply (Sender.send_traces [Wire.okStatus] opened).bind
  intro sent _ answered _
  exact (awaitBody_confirms _ _ answered).mono fun _ _ answers => ((answers.prepend _).prepend _).prepend _

theorem push_confirms (transfer : Transfer) (receiver : Receiver) (byte : UInt8) (live : Live σ) :
    live.Traces (receiver.push transfer byte) Confirms := by
  have steps := Live.traces_of_attempts (receiver.push_steps vouches_anyAnswer transfer byte) live
  obtain ⟨level, outer, phase⟩ := receiver
  cases phase with
  | control =>
      apply steps.mono
      rintro asked progress ⟨_, steps⟩ next site rfl same
      cases steps
      cases same
  | line kind line =>
      by_cases file : kind = .file
      · subst file
        rw [push]
        cases line.push byte with
        | more longer => exact .pure fun _ _ goesOn same => by cases goesOn; cases same
        | done result =>
            have reads : Attempts (fun _ => True) (fun _ => True) (Step.ofExcept result) :=
              (Complies.ofExcept result).mono fun _ _ => trivial
            apply (Live.traces_of_attempts reads live).bind
            intro asked text read _
            have parses : Attempts (fun _ => True) (fun _ => True) (Step.ofExcept (Wire.Header.parse ("C" ++ text))) :=
              (Complies.ofExcept _).mono fun _ _ => trivial
            apply (Live.traces_of_attempts parses read).bind
            intro more header parsed _
            exact (openFile_confirms transfer _ header parsed).mono fun _ _ answers => (answers.prepend _).prepend _
      · apply steps.mono
        rintro asked progress ⟨_, steps⟩ next site rfl same
        cases steps with
        | line more => cases same
        | turn done turns => cases turns <;> cases same
        | opened => exact absurd rfl file
  | body file =>
      rw [push, pushBody]
      apply Live.Traces.logging
      have writes : Attempts (fun _ => True) (fun _ => True) (file.writer.write [byte]) :=
        file.writer.write_complies (fun _ _ => trivial) [byte]
      apply (Live.traces_of_attempts writes live).bind
      intro asked writer written _
      exact (awaitBody_confirms _ _ written).mono fun _ _ answers => answers.prepend _
  | lastWord given state =>
      apply steps.mono
      rintro asked progress ⟨_, steps⟩ next site rfl same
      cases steps with
      | word more =>
          cases same
          exact absurd rfl (Wire.Acknowledgement.ne_status_of_more more)
      | acknowledged done => cases same

end Receiver

end Answers

section Coming

variable {start : Session × Live σ} {transfer : Transfer} {mark : Nat} {receiver next : Receiver}
  {before taken : List UInt8} {byte : UInt8} {site : Site}

/-- No word about a file was awaited between these bytes. -/
def Wordless (start : Session × Live σ) (before taken : List UInt8) : Prop :=
  ∀ cut site, Session.AwaitsWord start cut site → cut <+: taken → cut = taken ∨ cut <+: before

theorem Wordless.begin (start : Session × Live σ) (taken : List UInt8) : Wordless start taken taken :=
  fun _ _ _ within => .inr within

theorem Wordless.push (wordless : Wordless start before taken)
    (other : ∀ site, ¬Session.AwaitsWord start taken site) (byte : UInt8) :
    Wordless start before (taken ++ [byte]) := by
  intro cut site awaits within
  rcases List.prefix_concat_iff.1 within with whole | within
  · exact .inl whole
  · rcases wordless cut site awaits within with rfl | earlier
    · exact absurd awaits (other site)
    · exact .inr earlier

/-- The last of some bytes belongs to a file of which so many bytes are still to come. -/
def Coming (start : Session × Live σ) (taken : List UInt8) (site : Site) (remaining : Nat) : Prop :=
  ∃ receipt : Receipt, receipt.Placed start ∧ receipt.upTo = taken ∧
    receipt.body.length + remaining = receipt.header.length ∧ receipt.site = site ∧
    Wordless start receipt.before taken

theorem Coming.push {remaining : Nat} (coming : Coming start taken site remaining) (some : remaining ≠ 0)
    (other : ∀ site, ¬Session.AwaitsWord start taken site) (byte : UInt8) :
    Coming start (taken ++ [byte]) site (remaining - 1) := by
  obtain ⟨receipt, placed, rfl, length, same, wordless⟩ := coming
  refine ⟨receipt.push byte, placed.push byte, receipt.upTo_push byte, ?_, same, wordless.push other byte⟩
  simp only [Receipt.push, List.length_append, List.length_singleton]
  omega

namespace Receiver

/-- What a receiver is about, read off the bytes that it has taken. -/
def Reads (start : Session × Live σ) (transfer : Transfer) (mark : Nat) (taken : List UInt8)
    (receiver : Receiver) : Prop :=
  match receiver.phase with
  | .line .file line => ∃ before, taken = before ++ 67 :: line.bytes.toList ∧ Wire.newline ∉ line.bytes.toList ∧
      line.bytes.toList.length ≤ Wire.maxLineLength ∧ Wordless start before taken ∧
      (Session.feedAll before start).1 = .receiving transfer mark ⟨receiver.level, receiver.outer, .control⟩
  | .body file => file.remaining ≠ 0 ∧ Coming start taken file.node.site file.remaining
  | .lastWord site .status => Coming start taken site 0
  | _ => True

theorem reads_awaited {level : Level} {outer : List Level} {file : Incoming}
    (coming : Coming start taken file.node.site file.remaining) :
    Reads start transfer mark taken ⟨level, outer, awaited file⟩ := by
  rw [awaited]
  split
  · rename_i none
    rw [none] at coming
    exact coming
  · exact ⟨‹_›, coming⟩

/-- What a receiver is about after a byte can be read off the bytes again. -/
theorem Steps.reads (steps : receiver.Steps (fun _ _ _ => True) byte (.waiting next))
    (reads : receiver.Reads start transfer mark taken)
    (reached : (Session.feedAll taken start).1 = .receiving transfer mark receiver) :
    next.Reads start transfer mark (taken ++ [byte]) := by
  have other (notWord : ∀ site, receiver.phase ≠ .lastWord site .status) (site : Site) :
      ¬Session.AwaitsWord start taken site := by
    intro awaits
    rw [Session.AwaitsWord, reached] at awaits
    exact notWord site (Session.awaits_receiving awaits)
  cases steps with
  | @control level outer _ kind meaning =>
      cases kind with
      | file =>
          obtain rfl := eq_of_lineKind?_file meaning
          have wordless := (Wordless.begin start taken).push (other (by rintro _ ⟨⟩)) 67
          exact ⟨taken, rfl, List.not_mem_nil, Nat.zero_le _, wordless, reached⟩
      | _ => trivial
  | @line level outer kind line longer _ more =>
      cases kind with
      | file =>
          obtain ⟨before, rfl, unbroken, short, wordless, between⟩ := reads
          obtain ⟨differs, room, bytes⟩ := not_mem_of_more more
          refine ⟨before, ?_, ?_, ?_, wordless.push (other (by rintro _ ⟨⟩)) byte, between⟩
          · rw [bytes, List.append_assoc, List.cons_append]
          · rw [bytes, List.mem_append, List.mem_singleton]
            exact not_or.2 ⟨unbroken, differs.symm⟩
          · rwa [bytes, List.length_append]
      | _ => trivial
  | turn done turns => cases turns <;> trivial
  | @opened level outer line _ text header target file done parsed letsIn fresh site =>
      obtain ⟨before, rfl, unbroken, short, wordless, between⟩ := reads
      obtain ⟨rfl, decoded⟩ := text_of_done done
      let receipt : Receipt :=
        { before
          line := line.bytes.toList
          header
          location := target.location
          properties := (fileProperties transfer header level.times).insert Node.uploadedBy level.target.user
          body := [] }
      have placed : receipt.Placed start :=
        ⟨_, _, _, _, _, between, unbroken, short, decoded, parsed, letsIn.named, letsIn.chosen.places, fun _ => rfl⟩
      refine reads_awaited ⟨receipt, placed, ?_, ?_, site.symm, wordless.push (other (by rintro _ ⟨⟩)) _⟩
      · rw [Receipt.upTo, List.append_assoc, List.cons_append]
      · rw [fresh]
        exact Nat.zero_add _
  | @body level outer file _ writer =>
      obtain ⟨some, coming⟩ := reads
      exact reads_awaited (coming.push some (other (by rintro _ ⟨⟩)) byte)
  | @word level outer site state longer _ more =>
      cases longer with
      | status => exact absurd rfl (Wire.Acknowledgement.ne_status_of_more more)
      | message isError line => trivial
  | acknowledged done => trivial

end Receiver

namespace Session

/-- What an upload is about, read off the bytes that it has taken. -/
def Reads (start : Session × Live σ) (taken : List UInt8) : Session → Prop
  | .receiving transfer mark receiver => receiver.Reads start transfer mark taken
  | .sending _ _ => False
  | .ended _ => True

theorem reads_feedAll (begins : Reads start [] start.1) (taken : List UInt8) :
    Reads start taken (feedAll taken start).1 := by
  induction taken using List.reverseRecOn with
  | nil => exact begins
  | append_singleton taken byte ih =>
      rw [feedAll_append_singleton]
      rcases reached : feedAll taken start with ⟨session, live⟩
      rw [reached] at ih
      cases session with
      | receiving transfer mark receiver =>
          rcases feed_receives transfer mark receiver byte live with ⟨next, same, steps⟩ | ⟨result, same⟩ <;> rw [same]
          · exact steps.reads ih (congrArg Prod.fst reached)
          · trivial
      | sending transfer sender => exact ih.elim
      | ended result => trivial

/-- Where an upload waits for the word about a file, the file is whole. -/
theorem coming_of_awaits (begins : Reads start [] start.1) (awaits : AwaitsWord start taken site) :
    Coming start taken site 0 := by
  have reads := reads_feedAll begins taken
  rcases reached : feedAll taken start with ⟨session, live⟩
  rw [AwaitsWord, reached] at awaits
  rw [reached] at reads
  cases session with
  | receiving transfer mark receiver =>
      obtain ⟨level, outer, phase⟩ := receiver
      obtain rfl : phase = _ := awaits_receiving awaits
      exact reads
  | sending transfer sender => exact reads.elim
  | ended result => cases awaits

end Session

end Coming

namespace Session

section Whole

variable {start : Session × Live σ} {transfer : Transfer} {mark : Nat} {receiver : Receiver}
  {before taken : List UInt8} {byte : UInt8} {site : Site} {level : Level} {outer : List Level} {receipt : Receipt}

theorem steps_of_goesOn (reached : (feedAll taken start).1 = .receiving transfer mark receiver)
    (goesOn : GoesOn start (taken ++ [byte])) :
    ∃ next, (feedAll (taken ++ [byte]) start).1 = .receiving transfer mark next ∧
      receiver.Steps (fun _ _ _ => True) byte (.waiting next) := by
  rw [feedAll_append_singleton]
  rcases same : feedAll taken start with ⟨session, live⟩
  rw [same] at reached
  obtain rfl : session = _ := reached
  rcases feed_receives transfer mark receiver byte live with stepped | ⟨result, ended⟩
  · exact stepped
  · refine absurd ?_ (goesOn result)
    rwa [feedAll_append_singleton, same]

/-- A session that is between files reads a header line to its end. -/
theorem reads_line (between : (feedAll before start).1 = .receiving transfer mark ⟨level, outer, .control⟩)
    {line : List UInt8} (unbroken : Wire.newline ∉ line) (goesOn : GoesOn start (before ++ 67 :: line)) :
    ∃ read : Wire.Line, read.bytes.toList = line ∧
      (feedAll (before ++ 67 :: line) start).1 = .receiving transfer mark ⟨level, outer, .line .file read⟩ := by
  induction line using List.reverseRecOn with
  | nil =>
      obtain ⟨next, same, steps⟩ := steps_of_goesOn between goesOn
      cases steps with
      | @control level outer _ kind meaning =>
          obtain rfl : kind = .file := (Option.some.inj meaning).symm
          exact ⟨{}, rfl, same⟩
  | append_singleton line byte ih =>
      rw [List.mem_append, List.mem_singleton, not_or] at unbroken
      rw [← List.cons_append, ← List.append_assoc] at goesOn ⊢
      obtain ⟨read, rfl, reached⟩ := ih unbroken.1 goesOn.initial
      obtain ⟨next, same, steps⟩ := steps_of_goesOn reached goesOn
      cases steps with
      | @line level outer kind _ longer _ more =>
          exact ⟨longer, (Receiver.not_mem_of_more more).2.2, same⟩
      | turn done turns => exact absurd (Receiver.text_of_done done).1.symm unbroken.2
      | opened done => exact absurd (Receiver.text_of_done done).1.symm unbroken.2

/-- A file that was announced comes in, byte by byte. -/
theorem awaits_body (announced : receipt.Announced start)
    {body : List UInt8} (few : body.length ≤ receipt.header.length)
    (goesOn : GoesOn start (receipt.before ++ 67 :: (receipt.line ++ Wire.newline :: body))) :
    ∃ transfer mark level outer file,
      (feedAll (receipt.before ++ 67 :: (receipt.line ++ Wire.newline :: body)) start).1 =
        .receiving transfer mark ⟨level, outer, Receiver.awaited file⟩ ∧
      body.length + file.remaining = receipt.header.length := by
  induction body using List.reverseRecOn with
  | nil =>
      obtain ⟨transfer, mark, level, outer, text, between, unbroken, decoded, parsed, _⟩ := announced
      have split : receipt.before ++ 67 :: (receipt.line ++ [Wire.newline]) =
          receipt.before ++ 67 :: receipt.line ++ [Wire.newline] := by
        rw [List.append_assoc, List.cons_append]
      rw [split] at goesOn ⊢
      obtain ⟨read, same, reached⟩ := reads_line between unbroken goesOn.initial
      obtain ⟨next, after, steps⟩ := steps_of_goesOn reached goesOn
      cases steps with
      | line more => exact absurd rfl (Receiver.not_mem_of_more more).1
      | turn done turns => cases turns
      | @opened _ _ _ _ known header target file done also letsIn fresh _ =>
          obtain ⟨_, decoded'⟩ := Receiver.text_of_done done
          rw [same, decoded] at decoded'
          obtain rfl := Option.some.inj decoded'
          obtain rfl : receipt.header = header := Except.ok.inj (parsed.symm.trans also)
          exact ⟨_, _, _, _, file, after, (Nat.zero_add _).trans fresh⟩
  | append_singleton body byte ih =>
      have split : receipt.before ++ 67 :: (receipt.line ++ Wire.newline :: (body ++ [byte])) =
          receipt.before ++ 67 :: (receipt.line ++ Wire.newline :: body) ++ [byte] := by
        simp only [List.append_assoc, List.cons_append]
      rw [split] at goesOn ⊢
      rw [List.length_append, List.length_singleton] at few ⊢
      obtain ⟨transfer, mark, level, outer, file, reached, left⟩ := ih (by omega) goesOn.initial
      obtain ⟨next, after, steps⟩ := steps_of_goesOn reached goesOn
      rw [Receiver.awaited, if_neg (by omega)] at steps
      cases steps with
      | @body _ _ _ _ writer =>
          refine ⟨transfer, mark, level, outer, _, after, ?_⟩
          dsimp only
          omega

/-- With the last byte of a file a session that goes on waits for the word about it. -/
theorem awaits_of_whole (announced : receipt.Announced start) (whole : receipt.Whole)
    (goesOn : GoesOn start receipt.upTo) : ∃ site, AwaitsWord start receipt.upTo site := by
  obtain ⟨transfer, mark, level, outer, file, reached, left⟩ := awaits_body announced (Nat.le_of_eq whole) goesOn
  have none : file.remaining = 0 := by
    rw [Receipt.Whole] at whole
    omega
  refine ⟨file.node.site, ?_⟩
  rw [AwaitsWord, Receipt.upTo, reached, Receiver.awaited, if_pos none]
  rfl

end Whole

/-- The client says that all is well after the first of some bytes: by a word, or by ending its bytes there. -/
def ConfirmedBy (input : List UInt8) (ending : Ending) (cut : List UInt8) : Prop :=
  Confirmed input cut ∨ ending = .closed ∧ cut = input

/-- The files that an upload finishes, in their order. A file was announced by a header line between files, came
whole, and was answered with its last byte; then the client confirmed it. -/
structure Received (start : Session × Live σ) (input : List UInt8) (ending : Ending) (receipts : List Receipt) :
    Prop where
  placed : ∀ receipt ∈ receipts, receipt.Placed start
  whole : ∀ receipt ∈ receipts, receipt.Whole
  answered : ∀ receipt ∈ receipts, EndsIn [Wire.okStatus] (askedLast start receipt.upTo)
  confirmed : ∀ receipt ∈ receipts, ConfirmedBy input ending receipt.upTo
  apart : receipts.Pairwise fun earlier later => earlier.upTo <+: later.before
  complete : ∀ receipt : Receipt, receipt.Announced start → receipt.Whole → GoesOn start receipt.upTo →
    ConfirmedBy input ending receipt.upTo → ∃ known ∈ receipts, known.upTo = receipt.upTo

section Ends

variable {start : Session × Live σ} {input cut taken : List UInt8} {ending : Ending} {site : Site} {byte : UInt8}
  {cuts : List (Site × List UInt8)}

/-- The cuts after which an upload has a file confirmed, each with its file. -/
structure Closes (start : Session × Live σ) (input : List UInt8) (ending : Ending)
    (cuts : List (Site × List UInt8)) : Prop where
  awaits : ∀ entry ∈ cuts, AwaitsWord start entry.2 entry.1
  confirmed : ∀ entry ∈ cuts, ConfirmedBy input ending entry.2
  apart : cuts.Pairwise fun earlier later => Confirmed later.2 earlier.2
  complete : ∀ site cut, AwaitsWord start cut site → ConfirmedBy input ending cut → (site, cut) ∈ cuts

theorem awaits_of_finishedAtEnd {session : Session} (finishes : finishedAtEnd ending session ≠ []) :
    ending = .closed ∧ ∃ site, session.awaitedWord? = some (site, .status) ∧
      finishedAtEnd ending session = [site] := by
  cases ending with
  | closed =>
      cases session with
      | receiving transfer mark receiver =>
          obtain ⟨level, outer, phase⟩ := receiver
          cases phase with
          | lastWord site state =>
              cases state with
              | status => exact ⟨rfl, site, rfl, rfl⟩
              | message isError line => exact absurd rfl finishes
          | _ => exact absurd rfl finishes
      | _ => exact absurd rfl finishes
  | _ => exact absurd rfl finishes

theorem finishedAtEnd_of_awaits (begins : Reads start [] start.1) (awaits : AwaitsWord start input site) :
    finishedAtEnd .closed (feedAll input start).1 = [site] := by
  have reads := reads_feedAll begins input
  rcases reached : feedAll input start with ⟨session, live⟩
  rw [AwaitsWord, reached] at awaits
  rw [reached] at reads
  cases session with
  | receiving transfer mark receiver =>
      obtain ⟨level, outer, phase⟩ := receiver
      obtain rfl : phase = _ := awaits_receiving awaits
      rfl
  | sending transfer sender => exact reads.elim
  | ended result => cases awaits

/-- The end of the client's bytes confirms a file that is whole with the last of them. -/
theorem Cuts.closes (begins : Reads start [] start.1) (known : Cuts start input cuts) (ending : Ending) :
    ∃ all, Closes start input ending all ∧
      cuts.map Prod.fst ++ finishedAtEnd ending (feedAll input start).1 = all.map Prod.fst := by
  by_cases none : finishedAtEnd ending (feedAll input start).1 = []
  · rw [none, List.append_nil]
    refine ⟨cuts, ⟨known.awaits, fun entry member => .inl (known.confirmed entry member), known.apart, ?_⟩, rfl⟩
    rintro site cut awaits (confirmed | ⟨rfl, rfl⟩)
    · exact known.complete site cut awaits confirmed
    · rw [finishedAtEnd_of_awaits begins awaits] at none
      cases none
  · obtain ⟨rfl, site, awaits, files⟩ := awaits_of_finishedAtEnd none
    rw [files]
    refine ⟨cuts ++ [(site, input)], ⟨?_, ?_, ?_, ?_⟩, by rw [List.map_append]; rfl⟩
    · exact List.forall_mem_append.2 ⟨known.awaits, List.forall_mem_singleton.2 awaits⟩
    · exact List.forall_mem_append.2 ⟨fun entry member => .inl (known.confirmed entry member),
        List.forall_mem_singleton.2 (.inr ⟨rfl, rfl⟩)⟩
    · refine List.pairwise_append.2 ⟨known.apart, List.pairwise_singleton _ _, ?_⟩
      exact fun entry member last same => List.mem_singleton.1 same ▸ known.confirmed entry member
    · rintro other cut also (confirmed | ⟨_, rfl⟩)
      · exact List.mem_append_left _ (known.complete other cut also confirmed)
      · rw [AwaitsWord] at also
        obtain ⟨rfl, _⟩ := Prod.mk.inj (Option.some.inj (awaits.symm.trans also))
        exact List.mem_append_right _ List.mem_cons_self

/-- A session that waits for the word about a file has answered the file itself. -/
theorem answered_of_awaits (begins : Reads start [] start.1) (awaits : AwaitsWord start (taken ++ [byte]) site) :
    EndsIn [Wire.okStatus] (askedLast start (taken ++ [byte])) := by
  have reads := reads_feedAll begins taken
  rw [AwaitsWord, feedAll_append_singleton] at awaits
  rw [askedLast_append_singleton]
  generalize feedAll taken start = state at reads awaits ⊢
  obtain ⟨session, live⟩ := state
  cases session with
  | receiving transfer mark receiver =>
      rcases carryOut_reaches transfer mark (receiver.push transfer byte) (ofProgress (receiving transfer mark))
        live with ⟨_ | _, after, ran, same⟩ | ⟨fault, after, same⟩ <;> rw [feed, same] at awaits
      · exact (receiver.push_confirms transfer byte live).of_run ran _ site rfl (awaits_receiving awaits)
      · cases awaits
      · cases awaits
  | sending transfer sender => exact reads.elim
  | ended result => cases awaits

theorem received_of_closes (begins : Reads start [] start.1) (closes : Closes start input ending cuts) :
    ∃ receipts, Received start input ending receipts ∧ cuts.map Prod.fst = receipts.map Receipt.site := by
  have coming (entry : Site × List UInt8) : ∃ receipt : Receipt, AwaitsWord start entry.2 entry.1 →
      receipt.Placed start ∧ receipt.Whole ∧ receipt.upTo = entry.2 ∧ receipt.site = entry.1 ∧
        Wordless start receipt.before entry.2 := by
    by_cases awaits : AwaitsWord start entry.2 entry.1
    · obtain ⟨receipt, placed, upTo, whole, site, wordless⟩ := coming_of_awaits begins awaits
      exact ⟨receipt, fun _ => ⟨placed, whole, upTo, site, wordless⟩⟩
    · exact ⟨default, fun also => absurd also awaits⟩
  choose receipt known using coming
  have facts (entry) (member : entry ∈ cuts) := known entry (closes.awaits entry member)
  refine ⟨cuts.map receipt, ⟨?_, ?_, ?_, ?_, ?_, ?_⟩, ?_⟩
  · exact List.forall_mem_map.2 fun entry member => (facts entry member).1
  · exact List.forall_mem_map.2 fun entry member => (facts entry member).2.1
  · refine List.forall_mem_map.2 fun entry member => ?_
    have awaits := closes.awaits entry member
    rw [← (facts entry member).2.2.1] at awaits
    obtain ⟨taken, byte, upTo⟩ : ∃ taken byte, (receipt entry).upTo = taken ++ [byte] := by
      obtain none | ⟨taken, byte, same⟩ := List.eq_nil_or_concat (receipt entry).upTo
      · exact absurd none (List.append_ne_nil_of_right_ne_nil _ (List.cons_ne_nil _ _))
      · exact ⟨taken, byte, same.trans List.concat_eq_append⟩
    rw [upTo] at awaits ⊢
    exact answered_of_awaits begins awaits
  · refine List.forall_mem_map.2 fun entry member => ?_
    rw [(facts entry member).2.2.1]
    exact closes.confirmed entry member
  · refine List.pairwise_map.2 (closes.apart.imp_of_mem fun {earlier later} first last confirmed => ?_)
    obtain ⟨_, _, upTo, _⟩ := facts earlier first
    obtain ⟨_, _, _, _, wordless⟩ := facts later last
    obtain ⟨word, accepts, within⟩ := confirmed
    rw [upTo]
    rcases wordless _ _ (closes.awaits earlier first) ((List.prefix_append _ _).trans within) with same | before
    · rw [same] at within
      exact absurd (List.self_eq_append_right.1 (within.eq_of_length_le (by simp)).symm) accepts.ne_nil
    · exact before
  · intro other announced whole goesOn confirmed
    obtain ⟨site, awaits⟩ := awaits_of_whole announced whole goesOn
    have member := closes.complete site other.upTo awaits confirmed
    exact ⟨receipt (site, other.upTo), List.mem_map_of_mem member, (facts _ member).2.2.1⟩
  · rw [List.map_map]
    exact List.map_congr_left fun entry member => (facts entry member).2.2.2.1.symm

/-- The files that an upload finishes are the receipts that the client confirms. -/
theorem received_of_finished (begins : Reads start [] start.1) (fresh : start.1.awaitedWord? = none)
    (input : List UInt8) (ending : Ending) :
    ∃ receipts, Received start input ending receipts ∧
      finished input start ++ finishedAtEnd ending (feedAll input start).1 = receipts.map Receipt.site := by
  obtain ⟨cuts, known, files⟩ := cuts_of_finished fresh input
  obtain ⟨all, closes, ends⟩ := known.closes begins ending
  obtain ⟨receipts, received, same⟩ := received_of_closes begins closes
  exact ⟨receipts, received, by rw [files, ends, same]⟩

end Ends

end Session

end ArtifactGate
