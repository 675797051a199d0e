import Mathlib.Data.List.Induction
import ArtifactGate.Proofs.Session.Closing
import ArtifactGate.Proofs.Session.Receipts

/-!
A whole upload session, byte after byte. Wherever it stops, the store has accepted the receipts that were
complete by then; a file is acknowledged only when the store has it.
-/
namespace ArtifactGate

variable {σ : Type} [RemoteStore σ] [DepositStore σ]

/-- Where a session stands when some bytes have come and these receipts are complete. -/
def Session.Stands (context : UploadContext σ) (taken : List UInt8) (receipts : List Receipt) :
    Session × Live σ → Prop
  | (.receiving transfer mark receiver, live) =>
    transfer = context.transfer ∧ mark = context.mark ∧ receiver.Stands context taken receipts live
  | (.sending _ _, _) => False
  | (.ended _, live) => live.gateway.uploads = [] ∧ context.Stored receipts live

/-- Where a session comes to on the last of some bytes. -/
def Session.Comes (context : UploadContext σ) (taken : List UInt8) (receipts : List Receipt)
    (state : Session × Live σ) : Prop :=
  ∃ new, Completes context.start taken receipts new ∧ Stands context taken (receipts ++ new) state

theorem Session.Stands.stored {context : UploadContext σ} {taken : List UInt8} {receipts : List Receipt}
    {state : Session × Live σ} (stands : Stands context taken receipts state) :
    context.Stored receipts state.2 := by
  obtain ⟨session, live⟩ := state
  cases session with
  | receiving transfer mark receiver => exact stands.2.2.stored
  | sending transfer sender => exact stands.elim
  | ended result => exact stands.2

namespace Session

variable {context : UploadContext σ} {taken : List UInt8} {receipts : List Receipt} {live : Live σ}

theorem comes_of_stands {state : Session × Live σ} (stands : Stands context taken receipts state) :
    Comes context taken receipts state :=
  ⟨[], .inl rfl, by rwa [List.append_nil]⟩

theorem report_unmoved (fault : Fault) (live : Live σ) :
    live.gateway.Unmoved (report fault live).gateway :=
  Live.unmoved_of_attempts live (send_quiet _)

theorem fail_settles {mark : Nat} (droppable : live.gateway.Droppable mark) (transfer : Transfer)
    (failure : Failure) :
    (fail transfer mark failure live).2.gateway.uploads = [] ∧
      Gains live.gateway.store [] (fail transfer mark failure live).2.gateway.store := by
  apply fail_keeps (fun world => world.gateway.uploads = [] ∧ Gains live.gateway.store [] world.gateway.store)
    transfer failure (Gateway.abandonSince_droppable droppable)
  · exact fun _ _ settled => settled
  · intro world settled
    have reported := report_unmoved failure.fault world
    exact ⟨reported.uploads.trans settled.1, gains_then_nothing settled.2 reported.store⟩

theorem cancel_settles {mark : Nat} (droppable : live.gateway.Droppable mark) (transfer : Transfer) :
    (cancel transfer mark live).2.gateway.uploads = [] ∧
      Gains live.gateway.store [] (cancel transfer mark live).2.gateway.store := by
  have settled := droppable.settle
  have droppable : ({ live with gateway := live.gateway.settle } : Live σ).gateway.Droppable mark :=
    settled.1
  have failed := fail_settles droppable transfer { fault := .cancelled }
  exact ⟨failed.1, gains_then_nothing settled.2 failed.2⟩

theorem carryOut_cases {α : Type} {step : Step α} {holds : α → Live σ → Prop}
    {lost : Live σ → Prop} {mark : Nat} (transfer : Transfer) (next : α → Session)
    (ends : live.Ends step holds fun _ after => after.gateway.Droppable mark ∧ lost after) :
    (∃ value after, holds value after ∧ carryOut transfer mark step next live = (next value, after)) ∨
      ∃ fault before after, lost before ∧ Gains before.gateway.store [] after.gateway.store ∧
        after.gateway.uploads = [] ∧
        carryOut transfer mark step next live = (.ended (.error fault), after) := by
  rw [Live.Ends] at ends
  rw [carryOut]
  rcases ran : live.run step.run with ⟨_ | failure | value, reached⟩ <;> simp only [ran] at ends ⊢
  · obtain ⟨uploads, gains⟩ := cancel_settles ends.1 transfer
    exact .inr ⟨_, reached, _, ends.2, gains, uploads, rfl⟩
  · obtain ⟨uploads, gains⟩ := fail_settles ends.1 transfer failure
    exact .inr ⟨_, reached, _, ends.2, gains, uploads, rfl⟩
  · exact .inl ⟨value, reached, ends, rfl⟩

theorem carryOut_comes {α : Type} {step : Step α} {next : α → Session} {holds : α → Live σ → Prop}
    (ends : live.Ends step holds fun _ after => context.Fails taken receipts after)
    (goesOn : ∀ value after, holds value after → Comes context taken receipts (next value, after)) :
    Comes context taken receipts (carryOut context.transfer context.mark step next live) := by
  rcases carryOut_cases context.transfer next ends with
    ⟨value, after, valid, same⟩ | ⟨result, before, after, lost, gains, idle, same⟩
  · rw [same]
    exact goesOn value after valid
  · obtain ⟨new, completes, stored⟩ := lost
    rw [same]
    exact ⟨new, completes, idle, gains_then_nothing stored gains⟩

theorem feed_comes {state : Session × Live σ} (stands : Stands context taken receipts state)
    (reached : feedAll taken context.start = state)
    (within : ∀ earlier ∈ receipts, earlier.upTo <+: taken) (byte : UInt8) :
    Comes context (taken ++ [byte]) receipts (feed byte state) := by
  obtain ⟨session, live⟩ := state
  cases session with
  | receiving transfer mark receiver =>
      obtain ⟨rfl, rfl, stands⟩ := stands
      rw [feed]
      apply carryOut_comes (receiver.push_ends stands (congrArg Prod.fst reached) within byte)
      rintro progress after ⟨new, completes, standing⟩
      cases progress with
      | waiting next => exact ⟨new, completes, rfl, rfl, standing⟩
      | _ => exact ⟨new, completes, standing.1.1, standing.2⟩
  | sending transfer sender => exact stands.elim
  | ended result => exact comes_of_stands stands

theorem droppable_of_stands {receiver : Receiver} {after : Gateway σ}
    (stands : receiver.Stands context taken receipts live) (unmoved : live.gateway.Unmoved after) :
    after.Droppable context.mark := by
  have holds := stands.holds
  rw [Receiver.Holds] at holds
  split at holds
  · exact .inl (unmoved.idle holds.1).1
  · obtain ⟨_, receipt, number, _, _, _, _, _, begun, uploading⟩ := holds
    exact (unmoved.uploading uploading).droppable begun
  · exact .inl (unmoved.idle holds).1

theorem idle_of_free {receiver : Receiver} (stands : receiver.Stands context taken receipts live)
    (free : receiver.Free) : live.gateway.Idle context.mark := by
  have holds := stands.holds
  rw [Receiver.Holds] at holds
  rw [Receiver.Free] at free
  split at holds <;> rename_i phase
  · rw [phase] at free
    exact free.elim
  · rw [phase] at free
    exact free.elim
  · exact holds

theorem finish_stores {state : Session × Live σ} (stands : Stands context taken receipts state)
    (ending : Ending) :
    (finish ending state).2.gateway.uploads = [] ∧
      context.Stored receipts (finish ending state).2 := by
  obtain ⟨session, live⟩ := state
  cases session with
  | receiving transfer mark receiver =>
      obtain ⟨rfl, rfl, stands⟩ := stands
      have last {part : Step Unit} (attempts : Attempts Effect.Quiet (fun _ => receiver.Free) part) :
          (carryOut context.transfer context.mark part (fun _ => .ended (.ok ())) live).2.gateway.uploads
              = [] ∧
            context.Stored receipts
              (carryOut context.transfer context.mark part (fun _ => .ended (.ok ())) live).2 := by
        have ends := (Live.ends_of_attempts live attempts).mono (fun _ _ ended => ended)
          fun _ after unmoved => And.intro (droppable_of_stands stands unmoved) unmoved
        rcases carryOut_cases context.transfer (fun _ => .ended (.ok ())) ends with
          ⟨_, after, ⟨free, unmoved⟩, same⟩ | ⟨_, before, after, unmoved, gains, idle, same⟩
        · rw [same]
          exact ⟨(unmoved.idle (idle_of_free stands free)).1,
            gains_then_nothing stands.stored unmoved.store⟩
        · rw [same]
          exact ⟨idle, gains_then_nothing (gains_then_nothing stands.stored unmoved.store) gains⟩
      cases ending with
      | closed =>
          exact last ((receiver.atEnd_complies (fun _ => trivial) context.transfer).mono fun _ =>
            Receiver.free_of_rests)
      | broken reason =>
          exact last ((breakOff_complies (fun _ => trivial) context.transfer _ reason).mono fun _ => False.elim)
      | silent =>
          obtain ⟨idle, gains⟩ := cancel_settles
            (droppable_of_stands stands (Gateway.Unmoved.refl _)) context.transfer
          exact ⟨idle, gains_then_nothing stands.stored gains⟩
  | sending transfer sender => exact stands.elim
  | ended result => exact stands

def completeIn (receipts : List Receipt) (taken : List UInt8) : List Receipt :=
  receipts.filter fun receipt => receipt.upTo.length ≤ taken.length

theorem completeIn_of_within {taken : List UInt8} (within : ∀ receipt ∈ receipts, receipt.upTo <+: taken) :
    completeIn receipts taken = receipts :=
  List.filter_eq_self.2 fun receipt member => decide_eq_true (within receipt member).length_le

omit [DepositStore σ] in
theorem upTo_initial {start : Session × Live σ} {input : List UInt8} (books : Books start input receipts)
    (within : taken <+: input) {receipt : Receipt} (complete : receipt ∈ completeIn receipts taken) :
    receipt.upTo <+: taken := by
  obtain ⟨member, short⟩ := List.mem_filter.1 complete
  exact List.prefix_of_prefix_length_le (books.within receipt member) within (of_decide_eq_true short)

omit [DepositStore σ] in
theorem completeIn_initial {start : Session × Live σ} {input : List UInt8}
    (books : Books start input receipts) (taken : List UInt8) :
    completeIn receipts taken <+: receipts := by
  have ascending : receipts.Pairwise fun earlier later => earlier.upTo.length < later.upTo.length := by
    refine books.apart.imp fun {earlier later} apart => Nat.lt_of_le_of_lt apart.length_le ?_
    simp only [Receipt.upTo, List.length_append, List.length_cons]
    omega
  clear books
  induction receipts with
  | nil => exact List.prefix_refl _
  | cons receipt rest ih =>
      obtain ⟨first, ascending⟩ := List.pairwise_cons.1 ascending
      by_cases complete : receipt.upTo.length ≤ taken.length
      · rw [completeIn, List.filter_cons_of_pos (by simpa using complete)]
        exact List.prefix_cons_inj receipt |>.2 (ih ascending)
      · have none : completeIn (receipt :: rest) taken = [] := by
          apply List.filter_eq_nil_iff.2
          intro other member
          rcases List.mem_cons.1 member with rfl | member
          · simpa using complete
          · have later := first other member
            simp only [decide_eq_true_eq]
            omega
        rw [none]
        exact List.nil_prefix

theorem placed_after (begins : Stands context [] [] context.start) (input : List UInt8) :
    ∃ receipts, Books context.start input receipts ∧ (∀ receipt ∈ receipts, receipt.Placed context.start) ∧
      ∀ taken, taken <+: input →
        Stands context taken (completeIn receipts taken) (feedAll taken context.start) := by
  induction input using List.reverseRecOn with
  | nil =>
      refine ⟨[], ⟨nofun, nofun, nofun, .nil⟩, nofun, ?_⟩
      intro taken within
      rw [List.prefix_nil.1 within]
      exact begins
  | append_singleton input byte ih =>
      obtain ⟨receipts, books, placed, stands⟩ := ih
      have whole := stands input (List.prefix_refl _)
      rw [completeIn_of_within books.within] at whole
      obtain ⟨new, completes, standing⟩ := feed_comes whole rfl books.within byte
      have extended := books.extend completes
      refine ⟨receipts ++ new, extended, List.forall_mem_append.2 ⟨placed, completes.placed⟩, ?_⟩
      intro taken within
      rcases List.prefix_concat_iff.1 within with rfl | within
      · rw [completeIn_of_within extended.within, feedAll_append_singleton]
        exact standing
      · have late : completeIn new taken = [] := by
          rcases completes with rfl | ⟨receipt, rfl, _, _, upTo, _⟩
          · rfl
          · have short := within.length_le
            simp only [completeIn, upTo, List.filter_cons, List.length_append, List.length_singleton]
            rw [decide_eq_false (by omega)]
            rfl
        have same : completeIn (receipts ++ new) taken = completeIn receipts taken := by
          rw [completeIn, List.filter_append]
          exact (congrArg _ late).trans (List.append_nil _)
        rw [same]
        exact stands taken within

theorem stands_after (begins : Stands context [] [] context.start) (input : List UInt8) :
    ∃ receipts, Books context.start input receipts ∧ ∀ taken, taken <+: input →
      Stands context taken (completeIn receipts taken) (feedAll taken context.start) := by
  obtain ⟨receipts, books, _, stands⟩ := placed_after begins input
  exact ⟨receipts, books, stands⟩

section Beginning

variable {login : Login} {line : String} {command : Command}

def uploadContext (login : Login) (line : String) (command : Command) (live : Live σ) : UploadContext σ where
  start := start login line live
  origin := live.gateway.store
  repository := (Location.resolve (command.paths.headD "")).repository
  transfer :=
    { login, command
      properties := Gateway.environmentProperties live.gateway.settings login.environment }
  mark := live.gateway.nextUpload

theorem carryOut_start (context : UploadContext σ) {path : String} (origin : context.origin = live.gateway.store)
    (mark : context.mark = live.gateway.nextUpload)
    (repository : context.repository = (Location.resolve path).repository)
    (outside : (Location.resolve path).isSink = false) (idle : live.gateway.uploads = []) :
    Stands context [] [] (carryOut context.transfer context.mark (Receiver.start context.transfer path)
      (receiving context.transfer context.mark) live) := by
  have quiet : Attempts Effect.Quiet (Receiver.Begins context.transfer path) (Receiver.start context.transfer path) :=
    (Receiver.start_begins context.transfer path).weaken fun _ => Effect.Courteous.quiet
  have ends := (Live.ends_of_attempts live quiet).mono (fun _ _ ended => ended) fun _ after unmoved =>
    And.intro (.inl (unmoved.uploads.trans idle) : after.gateway.Droppable context.mark) unmoved
  have outcome := carryOut_cases context.transfer (receiving context.transfer context.mark) ends
  revert outcome
  generalize carryOut context.transfer context.mark (Receiver.start context.transfer path)
    (receiving context.transfer context.mark) live = state
  rintro (⟨receiver, after, ⟨begun, unmoved⟩, rfl⟩ | ⟨_, before, after, unmoved, gains, idle, rfl⟩)
  · have inside : receiver.Inside (Location.resolve path).repository :=
      ⟨Node.in_of_at begun.target rfl (ne_of_beq_false outside), begun.outer ▸ List.forall_mem_nil _⟩
    refine ⟨rfl, rfl, repository ▸ inside, ?_, Receiver.holds_of_free ?_ ?_⟩
    · rw [UploadContext.Stored, origin]
      exact unmoved.store
    · rw [Receiver.Free, begun.phase]
      trivial
    · exact unmoved.idle ⟨idle, Nat.le_of_eq mark⟩
  · refine ⟨idle, ?_⟩
    rw [UploadContext.Stored, origin]
    exact gains_then_nothing unmoved.store gains

theorem start_stands (parsed : Command.parse line = .ok command) (sink : command.direction = .sink)
    (outside : (Location.resolve (command.paths.headD "")).isSink = false)
    (idle : live.gateway.uploads = []) :
    Stands (uploadContext login line command live) [] [] (start login line live) := by
  have begins := carryOut_start (uploadContext login line command live) rfl rfl rfl outside idle
  simp only [start, parsed, sink]
  exact begins

end Beginning

end Session

end ArtifactGate
