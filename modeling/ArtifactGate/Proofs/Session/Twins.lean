import ArtifactGate.Proofs.Gateway.Uploads
import ArtifactGate.Proofs.Session.Beginning
import ArtifactGate.Proofs.Session.Transcript

/-!
Two gateways over the same store, which accept uploads or not, have slots or not, and have clients at hand or not.
As long as a session begins no upload it cannot tell them apart: it is answered the same, sends the same, ends
with the same result and has the same logged.
-/
namespace ArtifactGate

/-- Two runs go alike when what is asked for has the same answer in both and leaves them related. -/
theorem Action.run_related {α ω ξ : Type} {perform : (effect : Effect) → ω → Option effect.Answer × ω}
    {other : (effect : Effect) → ξ → Option effect.Answer × ξ} {related : ω → ξ → Prop} {action : Action α}
    {one : ω} {two : ξ}
    (same : ∀ entry ∈ action.asked perform one, ∀ world, related entry.2 world →
      (other entry.1 world).1 = (perform entry.1 entry.2).1 ∧
        related (perform entry.1 entry.2).2 (other entry.1 world).2)
    (initial : related one two) :
    (action.run other two).1 = (action.run perform one).1 ∧
      related (action.run perform one).2 (action.run other two).2 := by
  induction action generalizing one two with
  | done value => exact ⟨rfl, initial⟩
  | ask effect resume ih =>
      rw [Action.asked] at same
      obtain ⟨first, rest⟩ := List.forall_mem_cons.1 same
      obtain ⟨answer, next⟩ := first two initial
      rw [Action.run, Action.run]
      rcases performed : perform effect one with ⟨_ | given, after⟩ <;>
        rcases also : other effect two with ⟨_ | given', after'⟩ <;>
          simp only [performed, also] at answer next rest ⊢
      · exact ⟨trivial, next⟩
      · cases answer
      · cases answer
      · obtain rfl := Option.some.inj answer
        exact ih given' rest next

variable {σ : Type} [RemoteStore σ]

namespace Live

/-- Two gateways with nothing in progress that have the same store, clock, rights and settings and have told their
client the same; what they have logged since is the same. -/
structure Twin (first second : List AccessRecord) (one two : Live σ) : Prop where
  outlet : two.outlet = one.outlet
  settings : two.gateway.settings = one.gateway.settings
  store : two.gateway.store = one.gateway.store
  authorizer : two.gateway.authorizer = one.gateway.authorizer
  now : two.gateway.now = one.gateway.now
  idle : one.gateway.uploads = []
  idleToo : two.gateway.uploads = []
  logged : ∃ added, one.gateway.log = first ++ added ∧ two.gateway.log = second ++ added

variable {first second : List AccessRecord} {one two : Live σ}

omit [RemoteStore σ] in
/-- Twins of which the store is asked the same. -/
theorem Twin.inquired {left right : Live σ} (twin : Twin first second one two) (here : one.Inquired left)
    (there : two.Inquired right) (store : right.gateway.store = left.gateway.store) :
    Twin first second left right := by
  obtain ⟨_, _, rfl⟩ := here
  obtain ⟨_, _, rfl⟩ := there
  exact ⟨twin.outlet, twin.settings, store, twin.authorizer, twin.now, twin.idle, twin.idleToo, twin.logged⟩

end Live

omit [RemoteStore σ] in
theorem Gateway.retrying_twin {α : Type} {left right : Gateway σ} (settings : right.settings = left.settings)
    (store : right.store = left.store) (operation : String) (call : StateM σ (Except Fault α)) :
    (right.retrying operation call).1 = (left.retrying operation call).1 ∧
      (right.retrying operation call).2.store = (left.retrying operation call).2.store := by
  rw [retrying_eq, retrying_eq, settings, store]
  rcases RetryPolicy.attemptsFrom operation (Pure.pure ()) call 1 (max 1 left.settings.retries - 1) left.store with
    ⟨answer, after⟩
  exact ⟨rfl, rfl⟩

namespace Live

variable {first second : List AccessRecord} {one two : Live σ}

/-- An effect that does not concern uploads has the same answer in both, and leaves them twins. -/
theorem perform_twin {effect : Effect} (quiet : effect.Quiet) (twin : Twin first second one two) :
    (two.perform effect).1 = (one.perform effect).1 ∧
      Twin first second (one.perform effect).2 (two.perform effect).2 := by
  cases effect with
  | authorize repository user access => exact ⟨by rw [perform, perform, twin.authorizer], twin⟩
  | metadata location =>
      have same : (two.gateway.metadata location).1 = (one.gateway.metadata location).1 ∧
          (two.gateway.metadata location).2.store = (one.gateway.metadata location).2.store := by
        simp only [Gateway.metadata]
        split
        · exact ⟨by rw [Gateway.useClient, Gateway.useClient, twin.now], twin.store⟩
        · exact Gateway.retrying_twin twin.settings twin.store _ _
      have inquires : (Effect.metadata location).Inquires location.repository := rfl
      exact ⟨congrArg some same.1,
        twin.inquired (perform_inquired inquires one) (perform_inquired inquires two) same.2⟩
  | content location =>
      have same : (two.gateway.content location).1 = (one.gateway.content location).1 ∧
          (two.gateway.content location).2.store = (one.gateway.content location).2.store :=
        Gateway.retrying_twin (by exact twin.settings) (by exact twin.store) _ _
      exact ⟨congrArg some same.1, twin.inquired ⟨_, _, rfl⟩ ⟨_, _, rfl⟩ same.2⟩
  | beginUpload location properties => exact quiet.elim
  | writeUpload upload chunk => exact quiet.elim
  | finishUpload upload => exact quiet.elim
  | send bytes =>
      rw [perform, perform, twin.outlet]
      exact ⟨rfl, rfl, twin.settings, twin.store, twin.authorizer, twin.now, twin.idle, twin.idleToo, twin.logged⟩
  | log entry =>
      obtain ⟨added, here, there⟩ := twin.logged
      refine ⟨rfl, twin.outlet, twin.settings, twin.store, twin.authorizer, twin.now, twin.idle, twin.idleToo,
        added ++ [entry], ?_, ?_⟩
      · rw [← List.append_assoc, ← here]
        rfl
      · rw [← List.append_assoc, ← there]
        rfl
  | now => exact ⟨congrArg some twin.now, twin⟩
  | listingDepth => exact ⟨congrArg (fun store => some (RemoteStore.listingDepth store)) twin.store, twin⟩
  | diverge => exact ⟨rfl, twin⟩

theorem run_twin {α ε : Type} {part : ExceptT ε Action α} (quiet : ∀ entry ∈ one.asked part, entry.1.Quiet)
    (twin : Twin first second one two) :
    (two.run part.run).1 = (one.run part.run).1 ∧
      Twin first second (one.run part.run).2 (two.run part.run).2 := by
  rw [Live.run, Live.run]
  exact Action.run_related (fun entry member _ related => perform_twin (quiet entry member) related) twin

end Live

namespace Session

variable {first second : List AccessRecord} {one two : Live σ}

/-- Two runs of one session over twins: what each has begun since does not matter while nothing is in progress. -/
inductive Twin (first second : List AccessRecord) : Session × Live σ → Session × Live σ → Prop
  | receiving {transfer : Transfer} {mark other : Nat} {receiver : Receiver} {one two : Live σ}
      (twin : one.Twin first second two) :
    Twin first second (.receiving transfer mark receiver, one) (.receiving transfer other receiver, two)
  | sending {transfer : Transfer} {sender : Sender} {one two : Live σ} (twin : one.Twin first second two) :
    Twin first second (.sending transfer sender, one) (.sending transfer sender, two)
  | ended {result : Except Fault Unit} {one two : Live σ} (twin : one.Twin first second two) :
    Twin first second (.ended result, one) (.ended result, two)

theorem report_twin (fault : Fault) (twin : one.Twin first second two) :
    (report fault one).Twin first second (report fault two) :=
  (Live.run_twin (fun _ member => Live.allowed_of_asked (send_quiet _) member) twin).2

theorem fail_twin (transfer : Transfer) (mark other : Nat) (failure : Failure) (twin : one.Twin first second two) :
    Twin first second (fail transfer mark failure one) (fail transfer other failure two) := by
  have idle {live : Live σ} (none : live.gateway.uploads = []) (mark : Nat) :
      live.gateway.abandonSince mark = live.gateway := by
    rw [Gateway.abandonSince, none]
    rfl
  have quiet : (Effect.log (transfer.failureRecord transfer.defaultSite failure.fault)).Quiet := trivial
  have logged := (Live.perform_twin quiet twin).2
  rw [fail, fail, idle twin.idle, idle twin.idleToo]
  cases failure.logged with
  | true =>
      dsimp only
      split
      · exact .ended (report_twin _ twin)
      · exact .ended twin
  | false =>
      dsimp only
      split
      · exact .ended (report_twin _ logged)
      · exact .ended logged

theorem cancel_twin (transfer : Transfer) (mark other : Nat) (twin : one.Twin first second two) :
    Twin first second (cancel transfer mark one) (cancel transfer other two) := by
  rw [cancel, cancel, Gateway.settle_idle twin.idle, Gateway.settle_idle twin.idleToo]
  exact fail_twin transfer mark other _ twin

theorem carryOut_twin {α : Type} {step : Step α} {next also : α → Session} (transfer : Transfer) (mark other : Nat)
    (quiet : ∀ entry ∈ one.asked step, entry.1.Quiet) (twin : one.Twin first second two)
    (goesOn : ∀ value (left right : Live σ), left.Twin first second right →
      Twin first second (next value, left) (also value, right)) :
    Twin first second (carryOut transfer mark step next one) (carryOut transfer other step also two) := by
  obtain ⟨same, after⟩ := Live.run_twin quiet twin
  rw [carryOut, carryOut]
  rcases ran : one.run step.run with ⟨_ | failure | value, left⟩ <;>
    rcases again : two.run step.run with ⟨_ | failure' | value', right⟩ <;>
      simp only [ran, again] at same after ⊢
  all_goals try cases same
  · exact cancel_twin transfer mark other after
  · exact fail_twin transfer mark other failure after
  · exact goesOn value left right after

variable {left right : Session × Live σ}

omit [RemoteStore σ] in
theorem ofProgress_twin {α : Type} {waiting also : α → Session} {progress : Progress α}
    (goesOn : ∀ state, Twin first second (waiting state, one) (also state, two)) (twin : one.Twin first second two) :
    Twin first second (ofProgress waiting progress, one) (ofProgress also progress, two) := by
  cases progress with
  | waiting state => exact goesOn state
  | _ => exact .ended twin

theorem feed_twin (twin : Twin first second left right) {byte : UInt8}
    (quiet : ∀ entry ∈ asked byte left, entry.1.Quiet) : Twin first second (feed byte left) (feed byte right) := by
  cases twin with
  | receiving twin =>
      exact carryOut_twin _ _ _ quiet twin fun _ _ _ twin => ofProgress_twin (fun _ => .receiving twin) twin
  | sending twin =>
      exact carryOut_twin _ _ _ quiet twin fun _ _ _ twin => ofProgress_twin (fun _ => .sending twin) twin
  | ended twin => exact .ended twin

theorem feedAll_twin (twin : Twin first second left right) {input : List UInt8}
    (quiet : ∀ entry ∈ transcript input left, entry.1.Quiet) :
    Twin first second (feedAll input left) (feedAll input right) := by
  induction input generalizing left right with
  | nil => exact twin
  | cons byte rest ih =>
      obtain ⟨now, later⟩ := List.forall_mem_append.1 quiet
      exact ih (feed_twin twin now) later

theorem finish_twin (twin : Twin first second left right) {ending : Ending}
    (quiet : ∀ entry ∈ closing ending left, entry.1.Quiet) :
    Twin first second (finish ending left) (finish ending right) := by
  have last {step : Step Unit} {transfer : Transfer} {mark other : Nat} {one two : Live σ}
      (twin : one.Twin first second two) (quiet : ∀ entry ∈ one.asked step, entry.1.Quiet) :
      Twin first second (carryOut transfer mark step (fun _ => .ended (.ok ())) one)
        (carryOut transfer other step (fun _ => .ended (.ok ())) two) :=
    carryOut_twin transfer mark other quiet twin fun _ _ _ => .ended
  cases twin with
  | receiving twin =>
      cases ending with
      | closed => exact last twin quiet
      | broken reason => exact last twin quiet
      | silent => exact cancel_twin _ _ _ twin
  | sending twin =>
      cases ending with
      | closed => exact last twin quiet
      | broken reason => exact last twin quiet
      | silent => exact cancel_twin _ _ _ twin
  | ended twin => exact .ended twin

theorem start_twin {login : Login} {line : String} (quiet : ∀ entry ∈ opening login line one, entry.1.Quiet)
    (twin : one.Twin first second two) : Twin first second (start login line one) (start login line two) := by
  rcases Command.parse_cases line with ⟨reason, refused⟩ | ⟨command, parsed, _⟩
  · rw [start_refused refused, start_refused refused]
    exact .ended (report_twin _ twin)
  · cases direction : command.direction with
    | source =>
        rw [start_source parsed direction, start_source parsed direction, twin.settings]
        exact .sending twin
    | sink =>
        rw [opening_sink parsed direction] at quiet
        rw [start_sink parsed direction, start_sink parsed direction, twin.settings]
        exact carryOut_twin _ _ _ quiet twin fun _ _ _ => .receiving

/-- A session that asks for no upload goes the same over twins. -/
theorem run_twin {login : Login} {line : String} {input : List UInt8} {ending : Ending}
    (quiet : ∀ entry ∈ effects login line input ending one, entry.1.Quiet) (twin : one.Twin first second two) :
    (run login line input ending two).1 = (run login line input ending one).1 ∧
      (run login line input ending one).2.Twin first second (run login line input ending two).2 := by
  obtain ⟨before, atEnd⟩ := List.forall_mem_append.1 quiet
  obtain ⟨begins, goesOn⟩ := List.forall_mem_append.1 before
  have last := finish_twin (feedAll_twin (start_twin begins twin) goesOn) atEnd
  rw [finish_eq_run, finish_eq_run] at last
  generalize run login line input ending one = here at last ⊢
  generalize run login line input ending two = there at last ⊢
  obtain ⟨result, live⟩ := here
  obtain ⟨result', live'⟩ := there
  cases last with
  | ended twin => exact ⟨rfl, twin⟩

end Session

end ArtifactGate
