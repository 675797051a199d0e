import ArtifactGate.Proofs.Session.Passage
import ArtifactGate.Proofs.Session.Transcript

/-!
What a client is sent. Only what is asked to be sent reaches the client's end; it takes as many bytes as it
ever took, and one without a limit takes all of them, in turn.
-/
namespace ArtifactGate

variable {σ : Type} [RemoteStore σ]

/-- The bytes that an effect sends. -/
def Effect.bytes : Effect → List UInt8
  | .send bytes => bytes
  | _ => []

/-- The bytes that some effects send, in turn. -/
def said (asked : List (Effect × Live σ)) : List UInt8 :=
  asked.flatMap fun entry => entry.1.bytes

section Said

variable {α ε : Type} {live : Live σ}

omit [RemoteStore σ] in
theorem said_append (first rest : List (Effect × Live σ)) : said (first ++ rest) = said first ++ said rest :=
  List.flatMap_append

theorem said_send (bytes : List UInt8) (live : Live σ) : said (live.asked (send bytes)) = bytes := by
  rw [Live.asked_send]
  exact List.append_nil bytes

omit [RemoteStore σ] in
theorem said_of_silent {asked : List (Effect × Live σ)} (silent : ∀ entry ∈ asked, entry.1.Silent) :
    said asked = [] := by
  apply List.flatMap_eq_nil_iff.2
  rintro ⟨effect, world⟩ member
  cases effect with
  | send bytes => exact (silent _ member).elim
  | _ => rfl

/-- A part of a session that sends nothing says nothing. -/
theorem said_of_attempts {valid : α → Prop} {part : ExceptT ε Action α}
    (silent : Attempts Effect.Silent valid part) : said (live.asked part) = [] :=
  said_of_silent fun _ member => Live.allowed_of_asked silent member

/-- The record of a fault is not for the client. -/
theorem said_logging (transfer : Transfer) (site : Site) (attempt : Attempt α) (live : Live σ) :
    said (live.asked (transfer.logging site attempt)) = said (live.asked attempt) := by
  rw [Live.asked_logging, said_append]
  rcases live.run attempt.run with ⟨_ | fault | value, after⟩
  · exact List.append_nil _
  · exact List.append_nil _
  · exact List.append_nil _

end Said

theorem Outlet.take_limit (outlet : Outlet) (bytes : List UInt8) : (outlet.take bytes).2.limit = outlet.limit := by
  rw [Outlet.take]
  split
  · rfl
  · dsimp only
    split
    · rfl
    · split <;> rfl

/-- Only a client that takes no more than so much refuses what it is sent. -/
theorem Outlet.refused {outlet : Outlet} {bytes : List UInt8} {fault : Fault}
    (refused : (outlet.take bytes).1 = some (.error fault)) : fault = writeFault ∧ outlet.limit ≠ none := by
  cases limit : outlet.limit with
  | none =>
      rw [take_unlimited limit] at refused
      cases refused
  | some most =>
      rw [take, limit] at refused
      dsimp only at refused
      split at refused
      · cases refused
      · split at refused
        · cases refused
        · cases refused
          exact ⟨rfl, Option.some_ne_none most⟩

namespace Live

variable {α β ε : Type} {live world : Live σ} {part : ExceptT ε Action α}

/-- A part of a session has sent these bytes when it gives its value; when it fails, it has sent the first of
them. -/
def Tells (live : Live σ) (part : ExceptT ε Action α) (bytes : List UInt8) : Prop :=
  match live.run part.run with
  | (some (.ok _), _) => said (live.asked part) = bytes
  | _ => said (live.asked part) <+: bytes

theorem tells_of_said {bytes : List UInt8} (same : said (live.asked part) = bytes) : live.Tells part bytes := by
  rw [Tells]
  split
  · exact same
  · exact same ▸ List.prefix_rfl

theorem Tells.bind {next : α → ExceptT ε Action β} {first rest : List UInt8} (begins : live.Tells part first)
    (goesOn : ∀ value after, live.run part.run = (some (.ok value), after) → after.Tells (next value) rest) :
    live.Tells (part >>= next) (first ++ rest) := by
  have fails (begun : said (live.asked part) <+: first) : said (live.asked part) ++ [] <+: first ++ rest := by
    rw [List.append_nil]
    exact begun.trans (List.prefix_append _ _)
  rw [Tells] at begins ⊢
  rw [asked_bind, said_append, ExceptT.run_bind, run_bind]
  rcases ran : live.run part.run with ⟨_ | failure | value, after⟩ <;> simp only [ran] at begins ⊢
  · exact fails begins
  · rw [run_pure]
    exact fails begins
  · have others := goesOn value after ran
    rw [Tells] at others
    rw [begins]
    rcases last : after.run (next value).run with ⟨_ | _ | _, final⟩ <;> simp only [last] at others ⊢
    · exact (List.prefix_append_right_inj first).2 others
    · exact (List.prefix_append_right_inj first).2 others
    · rw [others]

theorem Tells.logging {attempt : Attempt α} {bytes : List UInt8} (tells : live.Tells attempt bytes)
    (transfer : Transfer)
    (site : Site) : live.Tells (transfer.logging site attempt) bytes := by
  rw [Tells] at tells ⊢
  rw [said_logging, run_logging]
  rcases ran : live.run attempt.run with ⟨_ | fault | value, after⟩ <;> simpa only [ran] using tells

theorem Tells.fails {bytes : List UInt8} (tells : live.Tells part bytes) : said (live.asked part) <+: bytes := by
  rw [Tells] at tells
  split at tells
  · exact tells ▸ List.prefix_rfl
  · exact tells

theorem Tells.of_run {bytes : List UInt8} {value : α} {after : Live σ} (tells : live.Tells part bytes)
    (ran : live.run part.run = (some (.ok value), after)) : said (live.asked part) = bytes := by
  rw [Tells, ran] at tells
  exact tells

theorem perform_limit (effect : Effect) (live : Live σ) :
    (live.perform effect).2.outlet.limit = live.outlet.limit := by
  cases effect with
  | send bytes => exact live.outlet.take_limit bytes
  | writeUpload upload chunk =>
      rw [perform]
      split <;> rfl
  | _ => rfl

/-- How much a client takes does not change. -/
theorem run_limit (action : Action α) (live : Live σ) : (live.run action).2.outlet.limit = live.outlet.limit := by
  rw [Live.run]
  induction action generalizing live with
  | done value => rfl
  | ask effect resume ih =>
      have first := perform_limit effect live
      rw [Action.run]
      rcases performed : perform effect live with ⟨_ | answer, after⟩ <;> rw [performed] at first
      · exact first
      · exact (ih answer after).trans first

theorem perform_extends (unlimited : live.outlet.limit = none) (effect : Effect) :
    (live.perform effect).2.outlet = live.outlet.extend effect.bytes := by
  cases effect with
  | send bytes => rw [perform, Outlet.take_unlimited unlimited, Effect.bytes]
  | writeUpload upload chunk =>
      rw [perform]
      split <;> exact live.outlet.extend_nil.symm
  | _ => exact live.outlet.extend_nil.symm

/-- A part of a session sends what it asks to be sent. -/
theorem run_extends (unlimited : live.outlet.limit = none) (part : ExceptT ε Action α) :
    (live.run part.run).2.outlet = live.outlet.extend (said (live.asked part)) := by
  rw [Live.run, asked]
  generalize part.run = action
  induction action generalizing live with
  | done value => exact live.outlet.extend_nil.symm
  | ask effect resume ih =>
      have first := perform_extends unlimited effect
      rw [Action.run, Action.asked, said, List.flatMap_cons, Outlet.extend_append, ← first]
      rcases performed : perform effect live with ⟨_ | answer, after⟩ <;> rw [performed] at first
      · exact after.outlet.extend_nil.symm
      · exact ih answer ((congrArg Outlet.limit first).trans unlimited)

theorem run_taken (unlimited : live.outlet.limit = none) (part : ExceptT ε Action α) :
    (live.run part.run).2.outlet.taken.toList = live.outlet.taken.toList ++ said (live.asked part) := by
  rw [run_extends unlimited, Outlet.extend, Array.toList_append]

end Live

namespace Session

theorem fail_limit (transfer : Transfer) (mark : Nat) (failure : Failure) (live : Live σ) :
    (fail transfer mark failure live).2.outlet.limit = live.outlet.limit := by
  rw [fail]
  dsimp only
  split
  · exact Live.run_limit _ _
  · rfl

theorem carryOut_limit {α : Type} (transfer : Transfer) (mark : Nat) (step : Step α) (next : α → Session)
    (live : Live σ) : (carryOut transfer mark step next live).2.outlet.limit = live.outlet.limit := by
  have limit := Live.run_limit step.run live
  rw [carryOut]
  rcases ran : live.run step.run with ⟨_ | failure | value, after⟩ <;> rw [ran] at limit
  · exact (fail_limit _ _ _ _).trans limit
  · exact (fail_limit _ _ _ _).trans limit
  · exact limit

theorem feed_limit (byte : UInt8) (state : Session × Live σ) :
    (feed byte state).2.outlet.limit = state.2.outlet.limit := by
  obtain ⟨session, live⟩ := state
  cases session with
  | receiving transfer mark receiver => exact carryOut_limit _ _ _ _ live
  | sending transfer sender => exact carryOut_limit _ _ _ _ live
  | ended result => rfl

theorem feedAll_limit (input : List UInt8) (state : Session × Live σ) :
    (feedAll input state).2.outlet.limit = state.2.outlet.limit := by
  induction input generalizing state with
  | nil => rfl
  | cons byte rest ih => exact (ih (feed byte state)).trans (feed_limit byte state)

theorem start_limit (login : Login) (line : String) (live : Live σ) :
    (start login line live).2.outlet.limit = live.outlet.limit := by
  cases parsed : Command.parse line with
  | error fault =>
      rw [start_refused parsed]
      exact Live.run_limit _ live
  | ok command =>
      cases direction : command.direction with
      | source => rw [start_source parsed direction]
      | sink =>
          rw [start_sink parsed direction]
          exact carryOut_limit _ _ _ _ live

/-- What the client is told of a result: the fault, unless the client reported it itself. -/
def notice : Except Fault Unit → List UInt8
  | .ok () => []
  | .error fault => if isReported fault then Wire.statusBytes Wire.errorStatus fault.message else []

/-- What a session tells the client when it ends. -/
def parting : Session → List UInt8
  | .ended result => notice result
  | _ => []

section Taken

variable {login : Login} {line : String} {live : Live σ} {before : List UInt8} {state : Session × Live σ}

theorem report_taken (unlimited : live.outlet.limit = none) (fault : Fault) :
    (report fault live).outlet.taken.toList =
      live.outlet.taken.toList ++ Wire.statusBytes Wire.errorStatus fault.message :=
  (Live.run_taken unlimited (report.sendError fault)).trans (congrArg _ (said_send _ live))

theorem fail_taken (unlimited : live.outlet.limit = none) (transfer : Transfer) (mark : Nat) (failure : Failure) :
    (fail transfer mark failure live).2.outlet.taken.toList =
      live.outlet.taken.toList ++ (fail transfer mark failure live).1.parting := by
  rw [fail, parting, notice]
  dsimp only
  split
  · exact report_taken (by exact unlimited) failure.fault
  · exact (List.append_nil _).symm

theorem cancel_taken (unlimited : live.outlet.limit = none) (transfer : Transfer) (mark : Nat) :
    (cancel transfer mark live).2.outlet.taken.toList = live.outlet.taken.toList ++ notice (.error .cancelled) := by
  have settled : { live with gateway := live.gateway.settle }.outlet.limit = none := unlimited
  exact fail_taken settled transfer mark { fault := .cancelled }

theorem carryOut_taken {α : Type} {step : Step α} {next : α → Session} (unlimited : live.outlet.limit = none)
    (going : ∀ value, (next value).parting = []) (transfer : Transfer) (mark : Nat) :
    (carryOut transfer mark step next live).2.outlet.taken.toList =
      live.outlet.taken.toList ++ said (live.asked step) ++ (carryOut transfer mark step next live).1.parting := by
  have limit := Live.run_limit step.run live
  have sent := Live.run_taken unlimited step
  rw [carryOut, ← sent]
  rcases ran : live.run step.run with ⟨_ | failure | value, after⟩ <;> rw [ran] at limit
  · exact cancel_taken (limit.trans unlimited) transfer mark
  · exact fail_taken (limit.trans unlimited) transfer mark failure
  · dsimp only
    rw [going, List.append_nil]

/-- On a byte the client is sent what is asked to be sent, and told of the end if the session ends. -/
theorem feed_taken (unlimited : state.2.outlet.limit = none)
    (told : state.2.outlet.taken.toList = before ++ state.1.parting) (byte : UInt8) :
    (feed byte state).2.outlet.taken.toList =
      before ++ said (asked byte state) ++ (feed byte state).1.parting := by
  have going {α : Type} {waiting : α → Session} (goes : ∀ state, (waiting state).parting = [])
      (progress : Progress α) : (ofProgress waiting progress).parting = [] := by
    cases progress with
    | waiting state => exact goes state
    | _ => rfl
  obtain ⟨session, live⟩ := state
  cases session with
  | receiving transfer mark receiver =>
      have taken : live.outlet.taken.toList = before := told.trans (List.append_nil _)
      exact taken ▸ carryOut_taken unlimited (going fun _ => rfl) transfer mark
  | sending transfer sender =>
      have taken : live.outlet.taken.toList = before := told.trans (List.append_nil _)
      exact taken ▸ carryOut_taken unlimited (going fun _ => rfl) transfer _
  | ended result =>
      change live.outlet.taken.toList = before ++ [] ++ notice result
      rw [List.append_nil]
      exact told

theorem feedAll_taken (unlimited : state.2.outlet.limit = none)
    (told : state.2.outlet.taken.toList = before ++ state.1.parting) (input : List UInt8) :
    (feedAll input state).2.outlet.taken.toList =
      before ++ said (transcript input state) ++ (feedAll input state).1.parting := by
  induction input generalizing before state with
  | nil => rw [transcript, said, List.flatMap_nil, List.append_nil]; exact told
  | cons byte rest ih =>
      have first := feed_taken unlimited told byte
      have others := ih ((feed_limit byte state).trans unlimited) first
      rw [transcript, said, List.flatMap_append, ← List.append_assoc]
      exact others

theorem finish_taken (unlimited : state.2.outlet.limit = none)
    (told : state.2.outlet.taken.toList = before ++ state.1.parting) (ending : Ending) :
    (finish ending state).2.outlet.taken.toList =
      before ++ said (closing ending state) ++ (finish ending state).1.parting := by
  obtain ⟨session, live⟩ := state
  have cancelled {transfer : Transfer} (mark : Nat) : (cancel transfer mark live).2.outlet.taken.toList =
      live.outlet.taken.toList ++ [] ++ notice (.error .cancelled) := by
    rw [cancel_taken unlimited, List.append_nil]
  cases session with
  | receiving transfer mark receiver =>
      have taken : live.outlet.taken.toList = before := told.trans (List.append_nil _)
      subst taken
      cases ending with
      | closed => exact carryOut_taken unlimited (fun _ => rfl) transfer mark
      | broken reason => exact carryOut_taken unlimited (fun _ => rfl) transfer mark
      | silent => exact cancelled mark
  | sending transfer sender =>
      have taken : live.outlet.taken.toList = before := told.trans (List.append_nil _)
      subst taken
      cases ending with
      | closed => exact carryOut_taken unlimited (fun _ => rfl) transfer _
      | broken reason => exact carryOut_taken unlimited (fun _ => rfl) transfer _
      | silent => exact cancelled _
  | ended result =>
      rw [closing_ended, said, List.flatMap_nil, List.append_nil]
      exact told

theorem start_taken (unlimited : live.outlet.limit = none) :
    (start login line live).2.outlet.taken.toList =
      live.outlet.taken.toList ++ said (opening login line live) ++ (start login line live).1.parting := by
  cases parsed : Command.parse line with
  | error fault =>
      have reported : isReported fault = true := by
        rcases Command.parse_cases line with ⟨reason, refused⟩ | ⟨_, taken, _⟩
        · rw [refused] at parsed
          cases parsed
          rfl
        · rw [taken] at parsed
          cases parsed
      rw [start_refused parsed, report_taken unlimited, opening_refused parsed, said, List.flatMap_nil,
        List.append_nil, parting, notice, if_pos reported]
  | ok command =>
      cases direction : command.direction with
      | source =>
          rw [start_source parsed direction, opening_source parsed direction, said, List.flatMap_nil,
            List.append_nil]
          exact (List.append_nil _).symm
      | sink =>
          rw [start_sink parsed direction, opening_sink parsed direction]
          apply carryOut_taken unlimited
          exact fun _ => rfl

/-- What a client that takes everything is sent by a session: what is asked to be sent, and the notice of its
end. -/
theorem run_taken (unlimited : live.outlet.limit = none) (login : Login) (line : String) (input : List UInt8)
    (ending : Ending) :
    (run login line input ending live).2.outlet.taken.toList =
      live.outlet.taken.toList ++ said (effects login line input ending live) ++
        notice (run login line input ending live).1 := by
  have boundless : (start login line live).2.outlet.limit = none := (start_limit login line live).trans unlimited
  have begun : (start login line live).2.outlet.taken.toList =
      live.outlet.taken.toList ++ said (opening login line live) ++ (start login line live).1.parting :=
    start_taken unlimited
  have fed := feedAll_taken boundless begun input
  have ended := finish_taken ((feedAll_limit input _).trans boundless) fed ending
  rw [finish_eq_run] at ended
  rw [effects, said_append, said_append, ← List.append_assoc, ← List.append_assoc]
  exact ended

end Taken

end Session

end ArtifactGate
