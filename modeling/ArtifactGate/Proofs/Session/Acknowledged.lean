import ArtifactGate.Proofs.Session.Atomic

/-!
When a file is acknowledged. The status that answers a body is sent in a world whose store has the file
already, and what follows it in the session leaves the store as it is.
-/
namespace ArtifactGate

variable {σ : Type} [RemoteStore σ] [DepositStore σ]

namespace Live

variable {α β ε : Type} {live world : Live σ} {first : ExceptT ε Action α} {next : α → ExceptT ε Action β}
  {valid : α → Prop} {bytes : List UInt8}

omit [DepositStore σ] in
theorem Ends.of_run {holds : α → Live σ → Prop} {lost : Option ε → Live σ → Prop} {value : α}
    {after : Live σ} (ends : live.Ends first holds lost)
    (ran : live.run first.run = (some (.ok value), after)) : holds value after := by
  rw [Ends, ran] at ends
  exact ends

omit [DepositStore σ] in
theorem send_of_silent (silent : Attempts Effect.Silent valid first)
    (member : (Effect.send bytes, world) ∈ live.asked (first >>= next)) :
    ∃ value after, live.run first.run = (some (.ok value), after) ∧
      (Effect.send bytes, world) ∈ after.asked (next value) := by
  rw [asked_bind] at member
  rcases List.mem_append.1 member with member | member
  · exact (allowed_of_asked silent member).elim
  · rcases ran : live.run first.run with ⟨_ | failure | value, after⟩ <;> simp only [ran] at member
    · cases member
    · cases member
    · exact ⟨value, after, rfl, member⟩

def Sent (asked : List (Effect × Live σ)) : Prop :=
  ∃ bytes world, (Effect.send bytes, world) ∈ asked

omit [DepositStore σ] in
theorem split_of_silent {earlier later : List (Effect × Live σ)} {entry : Effect × Live σ}
    (silent : Attempts Effect.Silent valid first)
    (split : live.asked (first >>= next) = earlier ++ entry :: later) (sent : Sent earlier) :
    ∃ value after rest, live.run first.run = (some (.ok value), after) ∧
      after.asked (next value) = rest ++ entry :: later ∧ Sent rest := by
  rw [asked_bind] at split
  obtain ⟨bytes, world, member⟩ := sent
  rcases List.append_eq_append_iff.1 split with ⟨rest, before, after⟩ | ⟨rest, before, after⟩
  · have inRest : (Effect.send bytes, world) ∈ rest := by
      rw [before] at member
      rcases List.mem_append.1 member with member | member
      · exact (allowed_of_asked silent member).elim
      · exact member
    rcases ran : live.run first.run with ⟨_ | failure | value, reached⟩ <;> simp only [ran] at after
    · simp at after
    · simp at after
    · exact ⟨value, reached, rest, rfl, after, bytes, world, inRest⟩
  · have silentSend : (Effect.send bytes, world) ∈ live.asked first := by
      rw [before]
      exact List.mem_append_left _ member
    exact (allowed_of_asked silent silentSend).elim

end Live

omit [DepositStore σ] in
theorem Live.asked_send (bytes : List UInt8) (live : Live σ) :
    live.asked (send bytes) = [(.send bytes, live)] := by
  rw [asked, send, ExceptT.run_mk, Action.request, Action.asked]
  rcases perform (.send bytes) live with ⟨_ | answer, after⟩ <;> rfl

omit [DepositStore σ] in
theorem Live.send_after_send {β : Type} {head bytes : List UInt8} {live world : Live σ} {next : Unit → Attempt β}
    {earlier later : List (Effect × Live σ)}
    (split : live.asked (send head >>= next) = earlier ++ (Effect.send bytes, world) :: later)
    (sent : Sent earlier) :
    ∃ after, live.run (send head).run = (some (.ok ()), after) ∧
      (Effect.send bytes, world) ∈ after.asked (next ()) := by
  rw [asked_bind, asked_send] at split
  obtain ⟨sentBytes, sentWorld, member⟩ := sent
  cases earlier with
  | nil => cases member
  | cons first rest =>
      rcases ran : live.run (send head).run with ⟨_ | failure | value, after⟩ <;> simp only [ran] at split
      · simp at split
      · simp at split
      · have tail : after.asked (next value) = rest ++ (Effect.send bytes, world) :: later :=
          (List.cons.inj split).2
        exact ⟨after, rfl, tail ▸ List.mem_append_right _ List.mem_cons_self⟩

omit [DepositStore σ] in
/-- What is sent is sent before a fault is logged. -/
theorem Live.split_of_logging {α : Type} {transfer : Transfer} {site : Site} {attempt : Attempt α}
    {bytes : List UInt8} {live world : Live σ} {earlier later : List (Effect × Live σ)}
    (split : live.asked (transfer.logging site attempt) = earlier ++ (Effect.send bytes, world) :: later) :
    ∃ rest, live.asked attempt = earlier ++ (Effect.send bytes, world) :: rest := by
  obtain ⟨tail, logs, other⟩ : ∃ tail,
      live.asked (transfer.logging site attempt) = live.asked attempt ++ tail ∧ (Effect.send bytes, world) ∉ tail := by
    refine ⟨_, asked_logging transfer site attempt live, fun member => ?_⟩
    split at member
    · cases (Prod.mk.inj (List.mem_singleton.1 member)).1
    · cases member
  rw [logs] at split
  rcases List.append_eq_append_iff.1 split with ⟨rest, _, after⟩ | ⟨rest, before, after⟩
  · exact absurd (after ▸ List.mem_append_right _ List.mem_cons_self) other
  · cases rest with
    | nil =>
        rw [List.nil_append] at after
        exact absurd (after ▸ List.mem_cons_self) other
    | cons entry rest =>
        obtain ⟨rfl, _⟩ := List.cons.inj after
        exact ⟨rest, before⟩

/-- The store has one more body when this is sent, and keeps what it has from then on. -/
def Acknowledges (live world last : Live σ) : Prop :=
  ∃ deposit, Gains live.gateway.store [deposit] world.gateway.store ∧
    Gains world.gateway.store [] last.gateway.store

theorem Acknowledges.logging {α : Type} {live before world : Live σ} {attempt : Attempt α}
    (acknowledges : Acknowledges live world (before.run attempt.run).2) (transfer : Transfer) (site : Site) :
    Acknowledges live world (before.run (transfer.logging site attempt).run).2 := by
  rw [Acknowledges, Live.view_logging (fun world => world.gateway.store) fun _ _ => rfl]
  exact acknowledges

namespace Receiver

variable {live world : Live σ} {receiver : Receiver} {file : Incoming} {number : Nat}
  {location : Location} {properties : Properties} {body bytes : List UInt8}

theorem finishFile_acknowledges (writer : file.writer = .upload number)
    (uploading : live.gateway.Uploading number location properties body)
    (sent : (Effect.send bytes, world) ∈ live.asked (receiver.finishFile file)) :
    Acknowledges live world (live.run (receiver.finishFile file).run).2 := by
  rw [finishFile, writer] at sent ⊢
  obtain ⟨_, after, ran, sent⟩ := Live.send_of_silent
    ((Writer.upload number).finish_complies fun _ => trivial) sent
  obtain ⟨_, _, gains⟩ := (Live.ends_finishUpload uploading (Nat.le_refl _)).of_run ran
  have same : world = after := by
    rw [Live.asked_bind, sendOk, Live.asked_send] at sent
    rcases List.mem_append.1 sent with sent | sent
    · exact (Prod.mk.inj (List.mem_singleton.1 sent)).2
    · split at sent <;> cases sent
  subst same
  have quiet (progress : Progress Receiver) : Attempts Effect.Quiet (fun _ => True)
      (sendOk >>= fun _ => pure progress) :=
    Complies.bind (send_quiet _) fun _ _ => Complies.pure trivial
  rw [Live.run_attempt_bind _ ran]
  exact ⟨_, gains, (Live.unmoved_of_attempts world (quiet _)).store⟩

theorem awaitBody_acknowledges (writer : file.writer = .upload number)
    (uploading : live.gateway.Uploading number location properties body)
    (sent : (Effect.send bytes, world) ∈ live.asked (receiver.awaitBody file)) :
    Acknowledges live world (live.run (receiver.awaitBody file).run).2 := by
  rw [awaitBody] at sent ⊢
  split
  · rename_i none
    rw [if_pos none] at sent
    exact finishFile_acknowledges writer uploading sent
  · rename_i some
    rw [if_neg some] at sent
    cases sent

theorem body_acknowledges {level : Level} {outer : List Level} {byte : UInt8} (transfer : Transfer)
    (writer : file.writer = .upload number)
    (uploading : live.gateway.Uploading number location properties body)
    (sent : (Effect.send bytes, world) ∈
      live.asked (push transfer ⟨level, outer, .body file⟩ byte)) :
    Acknowledges live world (live.run (push transfer ⟨level, outer, .body file⟩ byte).run).2 := by
  rw [push] at sent ⊢
  rcases Live.mem_asked_logging sent with sent | ⟨_, logs, _⟩
  swap
  · cases logs
  refine Acknowledges.logging ?_ transfer file.node.site
  rw [pushBody, writer] at sent ⊢
  obtain ⟨written, after, ran, sent⟩ := Live.send_of_silent
    ((Writer.upload number).write_complies (fun _ _ => trivial) [byte]) sent
  obtain ⟨same, uploading, gains⟩ := (Live.ends_write uploading (Nat.le_refl _) [byte]).of_run ran
  rw [Live.run_attempt_bind _ ran]
  obtain ⟨deposit, stored, kept⟩ := awaitBody_acknowledges same uploading sent
  exact ⟨deposit, nothing_then_gains gains stored, kept⟩

theorem header_acknowledges {header : Wire.Header} {transfer : Transfer} {repository : String} {mark : Nat}
    {earlier later : List (Effect × Live σ)} (inside : receiver.level.target.In repository)
    (idle : live.gateway.Idle mark)
    (split : live.asked (receiver.openFile transfer header) =
      earlier ++ (Effect.send bytes, world) :: later) (sent : Live.Sent earlier) :
    Acknowledges live world (live.run (receiver.openFile transfer header).run).2 := by
  have choosing := fileTarget_inquires vouches_anyAnswer receiver.level.target header.name
  let there : Site := ⟨receiver.level.target.location.child header.name, header.length⟩
  have silent : Attempts Effect.Silent _ (transfer.logging there (fileTarget receiver.level.target header.name)) :=
    (choosing.weaken fun _ => Effect.Inquires.silent).logging fun _ => trivial
  have quiet : Attempts Effect.Quiet _ (transfer.logging there (fileTarget receiver.level.target header.name)) :=
    (choosing.weaken fun _ => Effect.Inquires.quiet).logging fun _ => trivial
  rw [openFile] at split ⊢
  obtain ⟨target, reached, rest, ran, split, sent⟩ := Live.split_of_silent silent split sent
  obtain ⟨⟨chosen, _⟩, unmoved⟩ := (Live.ends_of_attempts live quiet).of_run ran
  have within := chosen.within inside
  rw [Live.run_attempt_bind _ ran]
  let node := (target.withSize header.length).withProperties
    (fileProperties transfer header receiver.level.times)
  have nodeWithin : node.In repository := ⟨within.backing, within.within, within.outside⟩
  refine Acknowledges.logging ?_ transfer node.site
  obtain ⟨later, split⟩ := Live.split_of_logging split
  rw [beginFile] at split ⊢
  obtain ⟨writer, opened, rest, ran, split, sent⟩ := Live.split_of_silent
    (Node.openWrite_complies vouches_anyAnswer (fun _ => Effect.Inquires.silent) fun _ _ => trivial) split sent
  obtain ⟨number, writer_eq, begun, uploading, gains⟩ :=
    (Live.ends_openWrite nodeWithin (unmoved.idle idle)).of_run ran
  rw [Live.run_attempt_bind _ ran]
  obtain ⟨after, ran, sent⟩ := Live.send_after_send split sent
  have ran : opened.run sendOk.run = (some (.ok ()), after) := ran
  obtain ⟨_, sending⟩ := (Live.ends_of_attempts opened (send_quiet _)).of_run ran
  rw [Live.run_attempt_bind _ ran]
  obtain ⟨deposit, stored, kept⟩ := awaitBody_acknowledges writer_eq (sending.uploading uploading) sent
  refine ⟨deposit, nothing_then_gains unmoved.store (nothing_then_gains gains ?_), kept⟩
  exact nothing_then_gains sending.store stored

theorem line_acknowledges {level : Level} {outer : List Level} {line : Wire.Line} {byte : UInt8}
    {transfer : Transfer} {repository : String} {mark : Nat} {earlier later : List (Effect × Live σ)}
    (inside : level.target.In repository) (idle : live.gateway.Idle mark)
    (split : live.asked (push transfer ⟨level, outer, .line .file line⟩ byte) =
      earlier ++ (Effect.send bytes, world) :: later) (sent : Live.Sent earlier) :
    Acknowledges live world (live.run (push transfer ⟨level, outer, .line .file line⟩ byte).run).2 := by
  have asks : live.asked (push transfer ⟨level, outer, .line .file line⟩ byte) ≠ [] := by
    rw [split]
    exact List.append_ne_nil_of_right_ne_nil _ (List.cons_ne_nil _ _)
  cases pushed : line.push byte with
  | more next =>
      rw [push, pushed] at asks
      exact absurd rfl asks
  | done result =>
      cases result with
      | error fault =>
          rw [push, pushed] at asks
          exact absurd rfl asks
      | ok text =>
          cases parsed : Wire.Header.parse ("C" ++ text) with
          | error fault =>
              simp only [push, pushed, onLine, Step.ofExcept, pure_bind, parsed] at asks
              exact absurd rfl asks
          | ok header =>
              have opens : push transfer ⟨level, outer, .line .file line⟩ byte =
                  openFile transfer ⟨level, outer, .control⟩ header := by
                simp only [push, pushed, onLine, Step.ofExcept, pure_bind, parsed]
              rw [opens] at split ⊢
              exact header_acknowledges inside idle split sent

end Receiver

namespace Session

/-- The effects a session asks for when the client sends a byte. What it does to end a session that
failed is not among them. -/
def asked (byte : UInt8) : Session × Live σ → List (Effect × Live σ)
  | (.receiving transfer _ receiver, live) => live.asked (receiver.push transfer byte)
  | (.sending transfer sender, live) => live.asked (sender.push transfer byte)
  | (.ended _, _) => []

/-- A status that is sent now answers a body: the file's header was answered by an earlier byte, or by
what was sent before on this one. -/
def AnswersBody (session : Session) (earlier : List (Effect × Live σ)) : Prop :=
  match session with
  | .receiving _ _ ⟨_, _, .body _⟩ => True
  | .receiving _ _ ⟨_, _, .line .file _⟩ => Live.Sent earlier
  | _ => False

variable {context : UploadContext σ} {taken : List UInt8} {receipts : List Receipt} {live world : Live σ}

theorem carryOut_gains {α : Type} {step : Step α} {mark : Nat} {holds : α → Live σ → Prop}
    (transfer : Transfer) (next : α → Session)
    (ends : live.Ends step holds fun _ after => after.gateway.Droppable mark) :
    Gains (live.run step.run).2.gateway.store []
      (carryOut transfer mark step next live).2.gateway.store := by
  rw [Live.Ends] at ends
  rw [carryOut]
  rcases ran : live.run step.run with ⟨_ | failure | value, reached⟩ <;> simp only [ran] at ends ⊢
  · exact (cancel_settles ends transfer).2
  · exact (fail_settles ends transfer failure).2
  · exact DepositStore.gains_refl _

theorem feed_acknowledges {state : Session × Live σ} {byte : UInt8} {bytes : List UInt8}
    {earlier later : List (Effect × Live σ)} (stands : Stands context taken receipts state)
    (reached : feedAll taken context.start = state) (within : ∀ earlier ∈ receipts, earlier.upTo <+: taken)
    (split : asked byte state = earlier ++ (Effect.send bytes, world) :: later)
    (answers : AnswersBody state.1 earlier) : Acknowledges state.2 world (feed byte state).2 := by
  obtain ⟨session, live⟩ := state
  cases session with
  | receiving transfer mark receiver =>
      obtain ⟨rfl, rfl, stands⟩ := stands
      have gains := carryOut_gains context.transfer (ofProgress (receiving context.transfer context.mark))
        ((receiver.push_ends stands (congrArg Prod.fst reached) within byte).mono
          (fun _ _ advances => advances) fun _ _ fails => fails.1)
      suffices acknowledges : Acknowledges live world (live.run (receiver.push context.transfer byte).run).2 by
        obtain ⟨deposit, stored, kept⟩ := acknowledges
        exact ⟨deposit, stored, gains_then_nothing kept gains⟩
      obtain ⟨level, outer, phase⟩ := receiver
      obtain ⟨inside, _, holds⟩ := stands
      cases phase with
      | body file =>
          obtain ⟨_, receipt, number, _, _, _, _, writer, _, uploading⟩ := holds
          have member : (Effect.send bytes, world) ∈ asked byte
              (receiving context.transfer context.mark ⟨level, outer, .body file⟩, live) :=
            split ▸ List.mem_append_right _ List.mem_cons_self
          exact Receiver.body_acknowledges context.transfer writer uploading member
      | line kind line =>
          cases kind with
          | file =>
              exact Receiver.line_acknowledges inside.1 holds.1 split answers
          | _ => exact answers.elim
      | _ => exact answers.elim
  | sending transfer sender => exact stands.elim
  | ended result => exact answers.elim

/-- The status that answers a body is sent when the last byte of a file has come and the store has accepted the
file. -/
theorem acknowledged_receipt {context : UploadContext ScriptedStore} {input taken : List UInt8}
    {receipts : List Receipt}
    {byte : UInt8} {bytes : List UInt8} {world : Live ScriptedStore}
    {earlier later : List (Effect × Live ScriptedStore)} (books : Books context.start input receipts)
    (stands : ∀ taken, taken <+: input →
      Stands context taken (completeIn receipts taken) (feedAll taken context.start))
    (within : taken ++ [byte] <+: input)
    (split : asked byte (feedAll taken context.start) = earlier ++ (.send bytes, world) :: later)
    (answers : AnswersBody (feedAll taken context.start).1 earlier) :
    (∃ receipt ∈ receipts, receipt.upTo = taken ++ [byte]) ∧
      world.gateway.store.deposits =
        context.origin.deposits ++ (completeIn receipts (taken ++ [byte])).map Receipt.deposit := by
  have before := stands taken ((List.prefix_append _ _).trans within)
  obtain ⟨deposit, gains, kept⟩ := feed_acknowledges before rfl
    (fun receipt member => upTo_initial books ((List.prefix_append _ _).trans within) member) split answers
  have known : (feedAll taken context.start).2.gateway.store.deposits = context.origin.deposits ++
      (completeIn receipts taken).map Receipt.deposit := before.stored.1
  have last : (feed byte (feedAll taken context.start)).2.gateway.store.deposits = context.origin.deposits ++
      (completeIn receipts (taken ++ [byte])).map Receipt.deposit := by
    have after := (stands (taken ++ [byte]) within).stored.1
    rw [feedAll_append_singleton] at after
    exact after
  have same : world.gateway.store.deposits =
      (feed byte (feedAll taken context.start)).2.gateway.store.deposits :=
    (kept.1.trans (List.append_nil _)).symm
  refine ⟨?_, same.trans last⟩
  by_contra none
  have nothing : completeIn receipts (taken ++ [byte]) = completeIn receipts taken := by
    refine List.filter_congr fun receipt member => decide_eq_decide.2 ⟨fun short => ?_, fun short => ?_⟩
    · have complete := List.prefix_of_prefix_length_le (books.within receipt member) within short
      rcases List.prefix_concat_iff.1 complete with whole | earlier
      · exact absurd ⟨receipt, member, whole⟩ none
      · exact earlier.length_le
    · rw [List.length_append]
      omega
  have counted : world.gateway.store.deposits =
      (feedAll taken context.start).2.gateway.store.deposits ++ [deposit] := gains.1
  rw [same, last, nothing, known] at counted
  simpa using congrArg List.length counted

/-- Uploads are atomic, file by file. Of what a client sends some files are received, and wherever its
bytes end and however they do, the store has accepted the bodies of those that are complete, in their
order, and no other; what it holds at any place is what it held before or one of these bodies; and the
status that answers a body is sent when the store has accepted it. -/
theorem uploads_whole_files {login : Login} {line : String} {command : Command}
    {live : Live ScriptedStore} (parsed : Command.parse line = .ok command)
    (sink : command.direction = .sink)
    (outside : (Location.resolve (command.paths.headD "")).isSink = false)
    (idle : live.gateway.uploads = []) (input : List UInt8) :
    ∃ receipts, Books (start login line live) input receipts ∧
      (∀ taken, taken <+: input → ∀ ending,
        let received := completeIn receipts taken
        let store := (run login line taken ending live).2.gateway.store
        received <+: receipts ∧
        store.deposits = live.gateway.store.deposits ++ received.map Receipt.deposit ∧
        ∀ location, store.memory.objects.get? location = live.gateway.store.memory.objects.get? location ∨
          ∃ receipt ∈ received, receipt.location = location ∧ store.memory.objects.get? location =
            some ⟨receipt.body, receipt.properties, live.gateway.store.memory.now⟩) ∧
      ∀ taken byte, taken ++ [byte] <+: input → ∀ earlier world later,
        let state := feedAll taken (start login line live)
        asked byte state = earlier ++ (.send (Wire.statusBytes Wire.okStatus ""), world) :: later →
        AnswersBody state.1 earlier →
        (∃ receipt ∈ receipts, receipt.upTo = taken ++ [byte]) ∧
          world.gateway.store.deposits = live.gateway.store.deposits ++
            (completeIn receipts (taken ++ [byte])).map Receipt.deposit := by
  have begins : Stands (uploadContext login line command live) [] [] (start login line live) :=
    start_stands parsed sink outside idle
  obtain ⟨receipts, books, stands⟩ := stands_after begins input
  refine ⟨receipts, books, fun taken within ending => ?_, fun taken byte within => ?_⟩
  · have stored : live.gateway.store.Holds ((completeIn receipts taken).map Receipt.deposit)
        (finish ending (feedAll taken (start login line live))).2.gateway.store :=
      (finish_stores (stands taken within) ending).2
    obtain ⟨deposits, objects, _⟩ := stored
    dsimp only
    rw [run_eq_finish]
    refine ⟨completeIn_initial books taken, deposits, ?_⟩
    intro location
    rw [objects]
    rcases MemoryStore.get?_of_deposits live.gateway.store.memory.now
      ((completeIn receipts taken).map Receipt.deposit) live.gateway.store.memory.objects location with
      kept | ⟨deposit, member, same, found⟩
    · exact .inl kept
    · obtain ⟨receipt, complete, rfl⟩ := List.mem_map.1 member
      exact .inr ⟨receipt, complete, same, found⟩
  · intro earlier world later state split answers
    exact acknowledged_receipt books stands within split answers

/-- One file sent to a gateway that lets everyone write. -/
theorem uploads_whole_files_of_one_file :
    let live : Live ScriptedStore := { gateway := Gateway.new {} {} (fun _ _ _ => true) ⟨0, 0⟩ }
    let input := Text.encode "C0644 2 a\nhi" ++ [0]
    ∃ receipts, Books (start ⟨"ann", "::1", .empty⟩ "scp -t libs/a" live) input receipts ∧
      (run ⟨"ann", "::1", .empty⟩ "scp -t libs/a" input .closed live).2.gateway.store.deposits =
        receipts.map Receipt.deposit := by
  intro live input
  have parsed : Command.parse "scp -t libs/a" =
      .ok ⟨.sink, false, false, false, false, ["libs/a"]⟩ := by decide +kernel
  have outside : (Location.resolve "libs/a").isSink = false := by decide +kernel
  obtain ⟨receipts, books, stored, _⟩ :=
    @uploads_whole_files ⟨"ann", "::1", .empty⟩ _ _ live parsed rfl outside rfl input
  obtain ⟨_, deposits, _⟩ := stored input (List.prefix_refl _) .closed
  rw [completeIn_of_within books.within] at deposits
  exact ⟨receipts, books, deposits⟩

end Session

end ArtifactGate
