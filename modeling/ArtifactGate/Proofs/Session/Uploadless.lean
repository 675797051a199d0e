import ArtifactGate.Proofs.Session.Permission
import ArtifactGate.Proofs.Session.Sink
import ArtifactGate.Proofs.Session.Transcript

/-!
Sessions that begin no upload: downloads, and what is received into the sink. They ask for nothing that would
write to the store, and leave there what is there.
-/
namespace ArtifactGate

variable {σ : Type} [RemoteStore σ]

theorem Live.ends_of_quiet {α ε : Type} {part : ExceptT ε Action α} [DepositStore σ] {live : Live σ}
    (quiet : ∀ entry ∈ live.asked part, entry.1.Quiet) :
    live.Ends part (fun _ after => live.gateway.Unmoved after.gateway) fun _ after =>
      live.gateway.Unmoved after.gateway := by
  have unmoved : live.gateway.Unmoved (live.run part.run).2.gateway := by
    rw [Live.run]
    exact Action.run_keeps (fun world => live.gateway.Unmoved world.gateway)
      (fun entry member kept => kept.trans (perform_unmoved (quiet entry member) entry.2)) (.refl _)
  rw [Ends]
  rcases ran : live.run part.run with ⟨_ | failure | value, after⟩ <;> rw [ran] at unmoved <;> exact unmoved

namespace Session

/-- The session begins no upload: it sends, or it receives into the sink. -/
def Uploadless : Session → Prop
  | .receiving _ _ receiver => receiver.InSink
  | .sending transfer sender => sender.Stands (fun _ _ _ => True) transfer.login.user transfer.command.paths
  | .ended _ => True

variable {login : Login} {line : String} {live : Live σ} {state : Session × Live σ}

theorem apart_quiet {effect : Effect} (apart : effect.Apart) : effect.Quiet := by
  cases effect <;> trivial

theorem feed_uploadless (state : Session × Live σ) (byte : UInt8) (uploadless : state.1.Uploadless) :
    (feed byte state).1.Uploadless ∧ ∀ entry ∈ asked byte state, entry.1.Quiet := by
  obtain ⟨session, live⟩ := state
  cases session with
  | receiving transfer mark receiver =>
      have apart : live.Apart _ _ _ := receiver.push_keepsApart transfer uploadless byte
      refine ⟨carryOut_keeps Uploadless transfer mark ((Live.ends_of_apart apart (.refl live)).mono
        (fun _ _ ended => ended.1) fun _ _ _ => trivial) (fun _ => trivial) ?_, fun entry member => ?_⟩
      · intro progress inside
        cases progress with
        | waiting next => exact inside
        | _ => trivial
      · exact apart_quiet (Live.asked_of_apart apart (.refl live) entry member).1
  | sending transfer sender =>
      have reading := sender.push_reads vouches_anyAnswer transfer uploadless byte
      have quiet : Attempts Effect.Quiet _ (sender.push transfer byte) :=
        reading.weaken fun _ ⟨_, _, reads⟩ => reads.quiet
      refine ⟨carryOut_keeps Uploadless transfer _ ((live.undisturbed_of_attempts quiet).mono (fun _ _ ended => ended.1)
        fun _ _ _ => trivial) (fun _ => trivial) ?_, fun entry member => Live.allowed_of_asked quiet member⟩
      intro progress stands
      cases progress with
      | waiting next => exact stands
      | _ => trivial
  | ended result => exact ⟨trivial, List.forall_mem_nil _⟩

/-- A download asks for no upload, and neither does what is received into the sink. -/
theorem effects_quiet (uploadless : ∀ command, Command.parse line = .ok command →
      command.direction = .source ∨ (Location.resolve (command.paths.headD "")).isSink = true)
    (input : List UInt8) (ending : Ending) :
    ∀ entry ∈ effects login line input ending live, entry.1.Quiet := by
  have begun : (start login line live).1.Uploadless ∧ ∀ entry ∈ opening login line live, entry.1.Quiet := by
    rcases Command.parse_cases line with ⟨reason, refused⟩ | ⟨command, parsed, _⟩
    · rw [start_refused refused, opening_refused refused]
      exact ⟨trivial, List.forall_mem_nil _⟩
    · cases direction : command.direction with
      | source =>
          rw [start_source parsed direction, opening_source parsed direction]
          exact ⟨.requested, List.forall_mem_nil _⟩
      | sink =>
          have sink : (Location.resolve (command.paths.headD "")).isSink = true := by
            rcases uploadless command parsed with source | sink
            · rw [direction] at source
              cases source
            · exact sink
          have apart : live.Apart _ _ _ :=
            Receiver.start_keepsApart (login.transfer command live.gateway.settings) sink
          rw [start_sink parsed direction, opening_sink parsed direction]
          refine ⟨carryOut_keeps Uploadless _ _ ((Live.ends_of_apart apart (.refl live)).mono (fun _ _ ended => ended.1)
            fun _ _ _ => trivial) (fun _ => trivial) fun _ inside => inside, fun entry member => ?_⟩
          exact apart_quiet (Live.asked_of_apart apart (.refl live) entry member).1
  exact effects_of_feed (fun _ => trivial) feed_uploadless begun input ending

section Stores

variable [DepositStore σ]

/-- A part that asks for nothing that would write leaves the store as it is, and so does the failure that it ends
in. -/
theorem carryOut_stores_nothing {α : Type} {step : Step α} (quiet : ∀ entry ∈ live.asked step, entry.1.Quiet)
    (idle : live.gateway.uploads = []) (transfer : Transfer) (mark : Nat) (next : α → Session) :
    (carryOut transfer mark step next live).2.gateway.uploads = [] ∧
      Gains live.gateway.store [] (carryOut transfer mark step next live).2.gateway.store := by
  have ends := (Live.ends_of_quiet quiet).mono (fun _ _ unmoved => unmoved) fun _ after unmoved =>
    And.intro (.inl (unmoved.uploads.trans idle) : after.gateway.Droppable mark) unmoved
  rcases carryOut_cases transfer next ends with
    ⟨value, after, unmoved, same⟩ | ⟨_, before, after, unmoved, gains, closed, same⟩ <;> rw [same]
  · exact ⟨unmoved.uploads.trans idle, unmoved.store⟩
  · exact ⟨closed, gains_then_nothing unmoved.store gains⟩

theorem start_stores_nothing (quiet : ∀ entry ∈ opening login line live, entry.1.Quiet)
    (idle : live.gateway.uploads = []) :
    (start login line live).2.gateway.uploads = [] ∧
      Gains live.gateway.store [] (start login line live).2.gateway.store := by
  rcases Command.parse_cases line with ⟨reason, refused⟩ | ⟨command, parsed, _⟩
  · rw [start_refused refused]
    have unmoved := report_unmoved (.protocol reason) live
    exact ⟨unmoved.uploads.trans idle, unmoved.store⟩
  · cases direction : command.direction with
    | source =>
        rw [start_source parsed direction]
        exact ⟨idle, DepositStore.gains_refl _⟩
    | sink =>
        rw [opening_sink parsed direction] at quiet
        rw [start_sink parsed direction]
        exact carryOut_stores_nothing quiet idle _ _ _

theorem feed_stores_nothing {byte : UInt8} (quiet : ∀ entry ∈ asked byte state, entry.1.Quiet)
    (idle : state.2.gateway.uploads = []) :
    (feed byte state).2.gateway.uploads = [] ∧ Gains state.2.gateway.store [] (feed byte state).2.gateway.store := by
  obtain ⟨session, live⟩ := state
  cases session with
  | receiving transfer mark receiver => exact carryOut_stores_nothing quiet idle _ _ _
  | sending transfer sender => exact carryOut_stores_nothing quiet idle _ _ _
  | ended result => exact ⟨idle, DepositStore.gains_refl _⟩

theorem feedAll_stores_nothing {input : List UInt8} (quiet : ∀ entry ∈ transcript input state, entry.1.Quiet)
    (idle : state.2.gateway.uploads = []) :
    (feedAll input state).2.gateway.uploads = [] ∧
      Gains state.2.gateway.store [] (feedAll input state).2.gateway.store := by
  induction input generalizing state with
  | nil => exact ⟨idle, DepositStore.gains_refl _⟩
  | cons byte rest ih =>
      obtain ⟨first, further⟩ := List.forall_mem_append.1 quiet
      obtain ⟨idle, nothing⟩ := feed_stores_nothing first idle
      obtain ⟨idle, still⟩ := ih further idle
      exact ⟨idle, gains_then_nothing nothing still⟩

theorem finish_stores_nothing (idle : state.2.gateway.uploads = []) (ending : Ending) :
    Gains state.2.gateway.store [] (finish ending state).2.gateway.store := by
  have quiet : ∀ entry ∈ closing ending state, entry.1.Quiet := closing_logs (fun _ => trivial) ending state
  obtain ⟨session, live⟩ := state
  cases session <;> cases ending
  case receiving.closed transfer mark receiver => exact (carryOut_stores_nothing quiet idle _ _ _).2
  case sending.closed transfer sender => exact (carryOut_stores_nothing quiet idle _ _ _).2
  case receiving.broken transfer mark receiver reason => exact (carryOut_stores_nothing quiet idle _ _ _).2
  case sending.broken transfer sender reason => exact (carryOut_stores_nothing quiet idle _ _ _).2
  case receiving.silent transfer mark receiver => exact (cancel_settles (.inl idle) transfer).2
  case sending.silent transfer sender => exact (cancel_settles (.inl idle) transfer).2
  all_goals exact DepositStore.gains_refl _

/-- A session that asks for nothing that would write leaves the store as it is. -/
theorem run_stores_nothing {input : List UInt8} {ending : Ending}
    (quiet : ∀ entry ∈ effects login line input ending live, entry.1.Quiet) (idle : live.gateway.uploads = []) :
    Gains live.gateway.store [] (run login line input ending live).2.gateway.store := by
  obtain ⟨first, further⟩ := List.forall_mem_append.1 (List.forall_mem_append.1 quiet).1
  obtain ⟨idle, begun⟩ := start_stores_nothing first idle
  obtain ⟨idle, fed⟩ := feedAll_stores_nothing further idle
  rw [run_eq_finish]
  exact gains_then_nothing (gains_then_nothing begun fed) (finish_stores_nothing idle ending)

end Stores

end Session

end ArtifactGate
