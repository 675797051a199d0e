import ArtifactGate.Proofs.Session.Acknowledged

/-!
What a session asks for from its beginning on, and how it comes to its end: a part of it gives its value, or
the session fails.
-/
namespace ArtifactGate

/-- A login's transfer of what a command says. -/
def Login.transfer (login : Login) (command : Command) (settings : Settings) : Transfer :=
  { login, command, properties := Gateway.environmentProperties settings login.environment }

namespace Command

/-- Arguments are refused as ones that break the protocol; those that are not name a path. -/
theorem ofArguments_cases (arguments : List String) :
    (∃ reason, ofArguments arguments = .error (.protocol reason)) ∨
      ∃ command, ofArguments arguments = .ok command ∧ command.paths ≠ [] := by
  simp only [ofArguments]
  split
  · exact .inl ⟨_, rfl⟩
  · split
    · exact .inl ⟨_, rfl⟩
    · rename_i named
      split
      · exact .inl ⟨_, rfl⟩
      · exact .inr ⟨_, rfl, fun none => named (List.isEmpty_iff.2 none)⟩

theorem parse_cases (line : String) :
    (∃ reason, parse line = .error (.protocol reason)) ∨
      ∃ command, parse line = .ok command ∧ command.paths ≠ [] := by
  rw [parse]
  split
  · exact .inl ⟨_, rfl⟩
  · split
    · exact ofArguments_cases _
    · exact .inl ⟨_, rfl⟩

theorem first_mem {line : String} {command : Command} (parsed : parse line = .ok command) :
    command.paths.headD "" ∈ command.paths := by
  rcases parse_cases line with ⟨_, refused⟩ | ⟨_, taken, some⟩
  · rw [refused] at parsed
    cases parsed
  · rw [taken] at parsed
    cases parsed
    cases paths : command.paths with
    | nil => exact absurd paths some
    | cons path rest => exact List.mem_cons_self

end Command

namespace Session

variable {σ : Type} [RemoteStore σ] {login : Login} {line : String} {command : Command} {live : Live σ}

/-- The effects a session asks for to begin with. -/
def opening (login : Login) (line : String) (live : Live σ) : List (Effect × Live σ) :=
  match Command.parse line with
  | .error _ => []
  | .ok command =>
    match command.direction with
    | .source => []
    | .sink =>
      live.asked (Receiver.start (login.transfer command live.gateway.settings) (command.paths.headD ""))

/-- The effects a session asks for on some bytes, in turn. -/
def transcript : List UInt8 → Session × Live σ → List (Effect × Live σ)
  | [], _ => []
  | byte :: rest, state => asked byte state ++ transcript rest (feed byte state)

/-- The effects a session asks for when the client's bytes are at their end. -/
def closing : Ending → Session × Live σ → List (Effect × Live σ)
  | .closed, (.receiving transfer _ receiver, live) => live.asked (receiver.atEnd transfer)
  | .closed, (.sending transfer sender, live) => live.asked (sender.atEnd transfer)
  | .broken reason, (.receiving transfer _ receiver, live) =>
    live.asked (breakOff transfer receiver.site? reason)
  | .broken reason, (.sending transfer sender, live) =>
    live.asked (breakOff transfer sender.pending.site? reason)
  | _, _ => []

/-- The effects a session asks for from its beginning to its end. What it does to end if it has failed is not
among them. -/
def effects (login : Login) (line : String) (input : List UInt8) (ending : Ending) (live : Live σ) :
    List (Effect × Live σ) :=
  opening login line live ++ transcript input (start login line live) ++
    closing ending (feedAll input (start login line live))

theorem closing_ended (ending : Ending) (result : Except Fault Unit) (live : Live σ) :
    closing ending (.ended result, live) = [] := by
  cases ending <;> rfl

theorem start_refused {fault : Fault} (refused : Command.parse line = .error fault) :
    start login line live = (.ended (.error fault), report fault live) := by
  rw [start, refused]

theorem opening_refused {fault : Fault} (refused : Command.parse line = .error fault) :
    opening login line live = [] := by
  rw [opening, refused]

theorem opening_source (parsed : Command.parse line = .ok command) (source : command.direction = .source) :
    opening login line live = [] := by
  rw [opening, parsed]
  simp only [source]

theorem opening_sink (parsed : Command.parse line = .ok command) (sink : command.direction = .sink) :
    opening login line live =
      live.asked (Receiver.start (login.transfer command live.gateway.settings) (command.paths.headD "")) := by
  rw [opening, parsed]
  simp only [sink]

theorem start_source (parsed : Command.parse line = .ok command) (source : command.direction = .source) :
    start login line live = (.sending (login.transfer command live.gateway.settings)
      (Sender.start (login.transfer command live.gateway.settings)), live) := by
  rw [start, parsed]
  simp only [source]
  rfl

theorem start_sink (parsed : Command.parse line = .ok command) (sink : command.direction = .sink) :
    start login line live =
      carryOut (login.transfer command live.gateway.settings) live.gateway.nextUpload
        (Receiver.start (login.transfer command live.gateway.settings) (command.paths.headD ""))
        (receiving (login.transfer command live.gateway.settings) live.gateway.nextUpload) live := by
  rw [start, parsed]
  simp only [sink]
  rfl

theorem carryOut_reaches {α : Type} (transfer : Transfer) (mark : Nat) (step : Step α) (next : α → Session)
    (live : Live σ) :
    (∃ value after, live.run step.run = (some (.ok value), after) ∧
      carryOut transfer mark step next live = (next value, after)) ∨
      ∃ fault after, carryOut transfer mark step next live = (.ended (.error fault), after) := by
  rw [carryOut]
  rcases ran : live.run step.run with ⟨_ | failure | value, after⟩
  · exact .inr ⟨_, _, rfl⟩
  · exact .inr ⟨_, _, rfl⟩
  · exact .inl ⟨value, after, rfl, rfl⟩

theorem carryOut_fst {α : Type} (transfer : Transfer) (mark : Nat) (step : Step α) (next : α → Session)
    (live : Live σ) :
    (∃ value, (carryOut transfer mark step next live).1 = next value) ∨
      ∃ fault, (carryOut transfer mark step next live).1 = .ended (.error fault) := by
  rcases carryOut_reaches transfer mark step next live with ⟨value, after, _, same⟩ | ⟨fault, after, same⟩
  · exact .inl ⟨value, congrArg Prod.fst same⟩
  · exact .inr ⟨fault, congrArg Prod.fst same⟩

section Parts

variable {holds : Session × Live σ → Prop} {allowed : Effect → Prop}

/-- What every byte keeps is kept by some bytes, and they ask for nothing but what each of them does. -/
theorem transcript_of_feed {state : Session × Live σ} (feeds : ∀ state byte, holds state →
      holds (feed byte state) ∧ ∀ entry ∈ asked byte state, allowed entry.1) (first : holds state)
        (input : List UInt8) :
    holds (feedAll input state) ∧ ∀ entry ∈ transcript input state, allowed entry.1 := by
  induction input generalizing state with
  | nil => exact ⟨first, List.forall_mem_nil _⟩
  | cons byte rest ih =>
      obtain ⟨next, allows⟩ := feeds state byte first
      obtain ⟨last, further⟩ := ih next
      exact ⟨last, List.forall_mem_append.2 ⟨allows, further⟩⟩

/-- At the end of the client's bytes a session does no more than log. -/
theorem closing_logs (logs : ∀ record, allowed (.log record)) (ending : Ending) (state : Session × Live σ) :
    ∀ entry ∈ closing ending state, allowed entry.1 := by
  obtain ⟨session, live⟩ := state
  cases session <;> cases ending
  case receiving.closed transfer mark receiver =>
    exact fun entry => Live.allowed_of_asked (receiver.atEnd_complies logs transfer)
  case sending.closed transfer sender =>
    exact fun entry => Live.allowed_of_asked (sender.atEnd_complies logs transfer)
  case receiving.broken transfer mark receiver reason =>
    exact fun entry => Live.allowed_of_asked (breakOff_complies logs transfer receiver.site? reason)
  case sending.broken transfer sender reason =>
    exact fun entry => Live.allowed_of_asked (breakOff_complies logs transfer sender.pending.site? reason)
  all_goals exact List.forall_mem_nil _

/-- A session asks for what it asks for to begin with, for what each byte asks for, and in the end to log. -/
theorem effects_of_feed (logs : ∀ record, allowed (.log record)) (feeds : ∀ state byte, holds state →
      holds (feed byte state) ∧ ∀ entry ∈ asked byte state, allowed entry.1)
    (begins : holds (start login line live) ∧ ∀ entry ∈ opening login line live, allowed entry.1)
    (input : List UInt8) (ending : Ending) : ∀ entry ∈ effects login line input ending live, allowed entry.1 := by
  obtain ⟨first, begun⟩ := begins
  obtain ⟨_, goesOn⟩ := transcript_of_feed feeds first input
  exact List.forall_mem_append.2 ⟨List.forall_mem_append.2 ⟨begun, goesOn⟩, closing_logs logs ending _⟩

end Parts

/-- A session is over when the client's bytes are. -/
theorem finish_ended (ending : Ending) (state : Session × Live σ) :
    ∃ result, (finish ending state).1 = .ended result := by
  have ends {step : Step Unit} {transfer : Transfer} {mark : Nat} {live : Live σ} :
      ∃ result, (carryOut transfer mark step (fun _ => .ended (.ok ())) live).1 = .ended result := by
    rcases carryOut_fst transfer mark step (fun _ => .ended (.ok ())) live with ⟨_, same⟩ | ⟨_, same⟩
    · exact ⟨_, same⟩
    · exact ⟨_, same⟩
  obtain ⟨session, live⟩ := state
  cases session with
  | receiving transfer mark receiver =>
      cases ending with
      | silent => exact ⟨_, rfl⟩
      | _ => exact ends
  | sending transfer sender =>
      cases ending with
      | silent => exact ⟨_, rfl⟩
      | _ => exact ends
  | ended result => exact ⟨result, rfl⟩

theorem finish_eq_run (login : Login) (line : String) (input : List UInt8) (ending : Ending) (live : Live σ) :
    finish ending (feedAll input (start login line live)) =
      (.ended (run login line input ending live).1, (run login line input ending live).2) := by
  obtain ⟨result, same⟩ := finish_ended ending (feedAll input (start login line live))
  rw [run]
  rcases ran : finish ending (feedAll input (start login line live)) with ⟨session, last⟩
  rw [ran] at same
  obtain rfl : session = .ended result := same
  rfl

end Session

end ArtifactGate
