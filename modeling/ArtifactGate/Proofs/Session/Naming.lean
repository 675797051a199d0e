import ArtifactGate.Proofs.Session.Selection
import ArtifactGate.Proofs.Session.Transcript
import ArtifactGate.Proofs.Sink

/-!
The repositories that a session asks about. Everything that a session asks of the authorizer or of the store is
about the repository that a path of its command names: children, parents and what a listing holds are in the
repository of the directory they are reached from. So a session asks about a repository without a name only if such
a path names one.
-/
namespace ArtifactGate

variable {named : String → Prop}

/-- What the effect asks of the authorizer or of the store is about one of these repositories. -/
def Effect.About (named : String → Prop) : Effect → Prop
  | .authorize repository _ _ => named repository
  | .metadata location | .content location | .beginUpload location _ => named location.repository
  | _ => True

theorem Effect.Inquires.about {repository : String} {effect : Effect} (inquires : effect.Inquires repository)
    (known : named repository) : effect.About named := by
  cases effect with
  | authorize asked user access => exact inquires ▸ known
  | metadata location =>
      have within : location.repository = repository := inquires
      rw [About, within]
      exact known
  | content location => exact inquires.elim
  | beginUpload location properties => exact inquires.elim
  | _ => trivial

/-- If the text names a place, it names one in one of these repositories. -/
def Location.Names (named : String → Prop) (text : String) : Prop :=
  (Location.resolve text).isEmpty = false → named (Location.resolve text).repository

theorem Location.names_of_plain {text : String} (plain : ¬Skips text) : Names (· ≠ "") text := by
  intro place unnamed
  refine plain (skips_iff.2 ⟨fun none => ?_, unnamed⟩)
  rw [none] at place
  cases place

/-- The node lies in one of these repositories. -/
def Node.Lies (named : String → Prop) (node : Node) : Prop :=
  named node.location.repository

namespace Node

theorem resolve_lies (user : String) {text : String} (names : Location.Names named text) :
    Attempts (Effect.About named) (Lies named) (resolve user text) := by
  refine Complies.refuse fun place => Complies.lift ?_
  have known := names (Bool.eq_false_iff.2 place)
  refine (lookUp_inquires user (Location.resolve text)).mono (fun _ _ given => given)
    (fun _ inquires => inquires.about known) fun node located => ?_
  rw [Lies, located.location]
  exact known

theorem inherits_lies (named : String → Prop) :
    Inherits Action.anyAnswer (Effect.About named) (Lies named) (Lies named) where
  children node lies := by
    refine node.children_inquires.mono (fun _ _ given => given) (fun _ inquires => inquires.about lies) ?_
    intro children all child member
    obtain ⟨place, located, within⟩ := all child member
    rw [Lies, located.location, within]
    exact lies
  listed _ := id
  depth := trivial
  diverges := trivial

end Node

theorem Effect.about_serves (named : String → Prop) : Serves (Effect.About named) (Node.Lies named) where
  sends _ := trivial
  logs _ := trivial
  inquires _ lies _ inquires := inquires.about lies
  reads _ lies _ _ := lies

/-- The text that a path of a download is resolved by: all of it, or what stands before its pattern. -/
def Sender.root (path : String) : String :=
  if Glob.hasGlob path then (Glob.splitPattern path).1 else path

theorem Sender.finds_lying (transfer : Transfer) {paths : List String}
    (names : ∀ path ∈ paths, Location.Names named (root path)) :
    Finds Action.anyAnswer (Effect.About named) (Node.Lies named) transfer paths := by
  intro path member
  have first := names path member
  rw [root] at first
  refine nodesOf_takes (Node.inherits_lies named) transfer (fun plain => ?_) fun glob => ?_
  · rw [if_neg plain] at first
    exact Node.resolve_lies _ first
  · rw [if_pos glob] at first
    exact Node.resolve_lies _ first

namespace Sender

theorem begins_root (path : String) : (root path).toList <+: path.toList := by
  rw [root]
  split
  · exact ⟨(Glob.splitPattern path).2.toList, by rw [← String.toList_append, Glob.base_append_pattern]⟩
  · exact List.prefix_refl _

theorem plain_root {path : String} (plain : ¬Location.Skips path) : ¬Location.Skips (root path) :=
  mt (Location.skips_of_prefix · (begins_root path)) plain

end Sender

namespace Receiver

variable {receiver : Receiver} {byte : UInt8} {progress : Progress Receiver} {effect : Effect}
  {granted : String → String → Access → Prop}

theorem start_lies (transfer : Transfer) {path : String} (names : Location.Names named path) :
    Attempts (Effect.About named) (Keeps (Node.Lies named)) (start transfer path) := by
  rw [start]
  refine Complies.bind (Node.resolve_lies _ names).unlogged fun target lies => ?_
  apply Complies.refuse
  intro _
  exact Complies.bind (sendOk_complies trivial).unlogged fun _ _ => Complies.pure ⟨lies, List.forall_mem_nil _⟩

theorem Steps.lie (steps : Steps granted receiver byte progress) (lie : receiver.Keeps (Node.Lies named)) :
    progress.Holds (Keeps (Node.Lies named)) := by
  refine steps.keeps (fun name directory located _ => ?_) lie
  rw [Node.Lies, located.location, Location.childDirectory_repository]
  exact lie.1

theorem Asks.about (asks : receiver.Asks granted byte effect) (lie : receiver.Keeps (Node.Lies named)) :
    effect.About named := by
  cases effect with
  | beginUpload location properties =>
      obtain ⟨_, _, _, target, _, _, _, letsIn, _, rfl⟩ := asks
      rw [Effect.About, letsIn.chosen.location_repository]
      exact lie.1
  | content location => exact asks.elim
  | authorize asked user access => exact Effect.Inquires.about asks lie.1
  | metadata location => exact Effect.Inquires.about asks lie.1
  | _ => trivial

end Receiver

namespace Session

/-- What the session has in hand lies in these repositories, and so does what the paths it has to take up name. -/
def Lies (named : String → Prop) : Session → Prop
  | .receiving _ _ receiver => receiver.Keeps (Node.Lies named)
  | .sending transfer sender =>
    sender.Bears (Node.Lies named) transfer.command.paths ∧
      ∀ path ∈ transfer.command.paths, Location.Names named (Sender.root path)
  | .ended _ => True

variable {σ : Type} [RemoteStore σ] {login : Login} {line : String} {live : Live σ}

theorem carryOut_lies {α : Type} {step : Step α} {holds : α → Prop} {next : α → Session}
    (attempts : Attempts (Effect.About named) holds step) (transfer : Transfer) (mark : Nat)
    (goesOn : ∀ value, holds value → (next value).Lies named) :
    (carryOut transfer mark step next live).1.Lies named ∧ ∀ entry ∈ live.asked step, entry.1.About named := by
  have valued : live.Ends step (fun value _ => holds value) fun _ _ => True :=
    (Live.ends_of_complies attempts (fun _ => True) (fun _ _ _ _ => ⟨trivial, fun _ _ => trivial⟩) trivial).mono
      (fun _ _ ended => ended.1) fun _ _ _ => trivial
  exact ⟨carryOut_keeps (Lies named) transfer mark valued (fun _ => trivial) goesOn,
    fun entry => Live.allowed_of_asked attempts⟩

theorem feed_lies (state : Session × Live σ) (byte : UInt8) (lies : state.1.Lies named) :
    (feed byte state).1.Lies named ∧ ∀ entry ∈ asked byte state, entry.1.About named := by
  obtain ⟨session, live⟩ := state
  cases session with
  | receiving transfer mark receiver =>
      have steps := receiver.push_steps vouches_anyAnswer transfer byte
      refine carryOut_lies (steps.weaken fun _ asks => asks.about lies) transfer mark fun progress steps => ?_
      have goesOn := steps.lie lies
      cases progress with
      | waiting next => exact goesOn
      | _ => trivial
  | sending transfer sender =>
      obtain ⟨bears, names⟩ := lies
      have pushed := sender.push_bears (Effect.about_serves named) (Node.inherits_lies named)
        (Sender.finds_lying transfer names) bears byte
      refine carryOut_lies pushed transfer _ fun progress bears => ?_
      cases progress with
      | waiting next => exact ⟨bears, names⟩
      | _ => trivial
  | ended result => exact ⟨trivial, List.forall_mem_nil _⟩

theorem start_lies (names : ∀ command, Command.parse line = .ok command → ∀ path ∈ command.paths,
      Location.Names named path ∧ Location.Names named (Sender.root path)) :
    (start login line live).1.Lies named ∧ ∀ entry ∈ opening login line live, entry.1.About named := by
  rcases Command.parse_cases line with ⟨reason, refused⟩ | ⟨command, parsed, _⟩
  · rw [start_refused refused, opening_refused refused]
    exact ⟨trivial, List.forall_mem_nil _⟩
  · have names := names command parsed
    cases direction : command.direction with
    | source =>
        rw [start_source parsed direction, opening_source parsed direction]
        exact ⟨⟨Sender.start_bears _, fun path member => (names path member).2⟩, List.forall_mem_nil _⟩
    | sink =>
        rw [start_sink parsed direction, opening_sink parsed direction]
        exact carryOut_lies (Receiver.start_lies _ (names _ (Command.first_mem parsed)).1) _ _ fun _ lie => lie

/-- A session asks about no repositories but those that the paths of its command name. -/
theorem effects_about (names : ∀ command, Command.parse line = .ok command → ∀ path ∈ command.paths,
      Location.Names named path ∧ Location.Names named (Sender.root path)) (input : List UInt8) (ending : Ending) :
    ∀ entry ∈ effects login line input ending live, entry.1.About named :=
  effects_of_feed (fun _ => trivial) feed_lies (start_lies names) input ending

/-- A text that begins with two slashes and goes on names a repository without a name, and what is shown of it is
read as another location. Every other text names no place, or one whose repository is the sink or one segment, and
what is shown of that is read as the same. A session whose paths are such texts asks about no repository without a
name. -/
theorem asks_about_named (login : Login) (line : String) (input : List UInt8) (ending : Ending) (live : Live σ) :
    (∀ text, Location.Skips text → Location.resolve text ≠ .empty ∧ (Location.resolve text).repository = "" ∧
        Location.resolve (Location.resolve text).display ≠ Location.resolve text) ∧
      (∀ text, ¬Location.Skips text → Location.resolve text = .empty ∨
        ((Location.resolve text).isSink = true ∨ IsSegment (Location.resolve text).repository) ∧
          Location.resolve (Location.resolve text).display = Location.resolve text) ∧
      ((∀ command, Command.parse line = .ok command → ∀ path ∈ command.paths, ¬Location.Skips path) →
        ∀ entry ∈ effects login line input ending live, entry.1.About fun repository => repository ≠ "") := by
  refine ⟨fun text skips => ?_, fun text plain => ?_, fun plain => ?_⟩
  · obtain ⟨place, unnamed⟩ := Location.skips_iff.1 skips
    exact ⟨place, unnamed, Location.resolve_display_of_skips skips⟩
  · by_cases none : Location.resolve text = .empty
    · exact .inl none
    · have named := Location.isNamed_resolve plain none
      exact .inr ⟨named.imp beq_iff_eq.2 And.left, Location.resolve_display named⟩
  · refine effects_about (fun command parsed path member => ?_) input ending
    have plain := plain command parsed path member
    exact ⟨Location.names_of_plain plain, Location.names_of_plain (Sender.plain_root plain)⟩

/-- An upload into a directory of a repository. -/
theorem asks_about_named_of_upload :
    let login : Login := ⟨"alice", "10.0.0.7", .empty⟩
    let input := Text.encode "C0644 1 a\nx" ++ [0]
    let origin : Gateway (Recorded MemoryStore) := Gateway.new {} { store := {} } (fun _ _ _ => true) ⟨0, 0⟩
    Location.resolve (Location.resolve "/libs/d/").display = Location.resolve "/libs/d/" ∧
      (run login "scp -t /libs/d/" input .closed { gateway := origin }).2.gateway.store.calls =
        [.put ⟨"libs", "d/a"⟩] ∧
      ∀ entry ∈ effects login "scp -t /libs/d/" input .closed { gateway := origin },
        entry.1.About fun repository => repository ≠ "" := by
  intro login input origin
  have parsed : Command.parse "scp -t /libs/d/" = .ok ⟨.sink, false, false, false, false, ["/libs/d/"]⟩ := by
    decide +kernel
  have plain : ¬Location.Skips "/libs/d/" := by
    rw [Location.skips_iff]
    decide +kernel
  obtain ⟨_, reads, about⟩ := asks_about_named login "scp -t /libs/d/" input .closed { gateway := origin }
  refine ⟨?_, by decide +kernel, about fun command same path member => ?_⟩
  · rcases reads _ plain with none | ⟨_, same⟩
    · exact absurd none (by decide +kernel)
    · exact same
  · cases parsed.symm.trans same
    exact List.mem_singleton.1 member ▸ plain

/-- An upload to two slashes and a path. The authorizer is asked about a repository without a name, and what comes in
is stored there; the place that is told to the client is read as none. -/
theorem stores_without_name :
    let origin : Gateway (Recorded MemoryStore) :=
      Gateway.new {} { store := {} } (fun repository _ _ => repository == "") ⟨0, 0⟩
    let stored := (run ⟨"alice", "10.0.0.7", .empty⟩ "scp -t //x" (Text.encode "C0644 1 x\na" ++ [0]) .closed
      { gateway := origin }).2.gateway.store
    Location.resolve "//x" = ⟨"", "x"⟩ ∧ (⟨"", "x"⟩ : Location).isEmpty = false ∧
      Location.resolve (⟨"", "x"⟩ : Location).display = .empty ∧ stored.calls = [.put ⟨"", "x"⟩] := by
  decide +kernel

end Session

end ArtifactGate
