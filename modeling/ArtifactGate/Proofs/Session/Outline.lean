import Mathlib.Data.List.Induction
import ArtifactGate.Proofs.Forest
import ArtifactGate.Proofs.Session.Permission

/-!
What a client's bytes say, read without a store, and that an upload keeps to it: while a file comes in, and
at no other time, the session puts, and it puts at the place that the open directories and the file's name
lead to below the target of the command, or at the target itself.
-/
namespace ArtifactGate

/-- Where a reader of a client's bytes is in them. -/
inductive Outline.Phase
  | control
  | line (kind : LineKind) (line : Wire.Line)
  | body (remaining : Nat)
  | lastWord (state : Wire.Acknowledgement)
  | stopped
  deriving DecidableEq, Repr, Inhabited

/-- The directories that a client's bytes have opened and not left, the innermost first, and the name of the
file that was announced last. -/
structure Outline where
  opened : List String := []
  file : String := ""
  phase : Outline.Phase := .control
  deriving DecidableEq, Repr, Inhabited

namespace Outline

def stop (outline : Outline) : Outline :=
  { outline with phase := .stopped }

/-- What comes after a file of which this much is still to come. -/
def Phase.ofRemaining (remaining : Nat) : Phase :=
  if remaining = 0 then .lastWord .status else .body remaining

/-- The reader after a header line. -/
def onLine (outline : Outline) : LineKind → String → Outline
  | .times, text =>
    match Wire.Timestamps.parse ("T" ++ text) with
    | .ok _ => { outline with phase := .control }
    | .error _ => outline.stop
  | .file, text =>
    match Wire.Header.parse ("C" ++ text) with
    | .ok header => { outline with file := header.name, phase := .ofRemaining header.length }
    | .error _ => outline.stop
  | .directory, text =>
    match Wire.Header.parse ("D" ++ text) with
    | .ok header => { outline with opened := header.name :: outline.opened, phase := .control }
    | .error _ => outline.stop
  | .leave, _ =>
    match outline.opened with
    | _ :: opened => { outline with opened, phase := .control }
    | [] => outline.stop
  | .warning, _ => { outline with phase := .control }
  | .error, _ => outline.stop

def push (outline : Outline) (byte : UInt8) : Outline :=
  match outline.phase with
  | .control =>
    match Receiver.lineKind? byte with
    | some kind => { outline with phase := .line kind {} }
    | none => outline.stop
  | .line kind line =>
    match line.push byte with
    | .more line => { outline with phase := .line kind line }
    | .done (.ok text) => outline.onLine kind text
    | .done (.error _) => outline.stop
  | .body remaining => { outline with phase := .ofRemaining (remaining - 1) }
  | .lastWord state =>
    match state.push byte with
    | .more state => { outline with phase := .lastWord state }
    | .done (.ok ()) => { outline with phase := .control }
    | .done (.error _) => outline.stop
  | .stopped => outline

/-- The outline of some bytes. -/
def ofBytes (bytes : List UInt8) : Outline :=
  bytes.foldl push {}

theorem ofBytes_append_singleton (taken : List UInt8) (byte : UInt8) :
    ofBytes (taken ++ [byte]) = (ofBytes taken).push byte := by
  rw [ofBytes, List.foldl_append]
  rfl

/-- The file that is coming in or has just come in. -/
def file? (outline : Outline) : Option String :=
  match outline.phase with
  | .body _ | .lastWord _ => some outline.file
  | _ => none

/-- The names of the open directories from the outermost on, and then a file's. -/
def namesTo (outline : Outline) (file : String) : List String :=
  (file :: outline.opened).reverse

end Outline

/-- A name that names something in a directory, and in that directory alone. -/
def IsPlain (name : String) : Prop :=
  IsSegment name ∧ name ≠ "." ∧ name ≠ ".."

theorem isPlain_of_isFileName {name : String} (named : isFileName name = true) : IsPlain name := by
  refine ⟨isSegment_of_isFileName named, ?_, ?_⟩ <;> rintro rfl <;> cases named

/-- The calls that the outline of what has come accounts for: puts of the file that is coming in, at the place
its names lead to below the target, or at the target if no directory is open. -/
def Outline.Accounts (target : Location) (outline : Outline) : Call → Prop
  | .put location => ∃ name, outline.file? = some name ∧ (∀ segment ∈ outline.namesTo name, IsPlain segment) ∧
      (location = target.descend (outline.namesTo name) ∨ outline.opened = [] ∧ location = target)
  | .content _ => False

/-- Directories, each in the next one, and the last one at the base; the others have these names. -/
inductive Nested (base : Node) : List Node → List String → Prop
  | base : Nested base [base] []
  | inside {node parent : Node} {outer : List Node} {name : String} {opened : List String}
      (below : Nested base (parent :: outer) opened) (plain : IsPlain name)
      (located : node.location = parent.location.childDirectory name) (takes : node.TakesChildren) :
    Nested base (node :: parent :: outer) (name :: opened)

namespace Nested

variable {base node : Node} {outer : List Node} {opened names : List String}

theorem plain (nested : Nested base (node :: outer) opened) : ∀ name ∈ opened, IsPlain name := by
  generalize given : node :: outer = nodes at nested
  induction nested generalizing node outer with
  | base => exact List.forall_mem_nil _
  | inside below plain located takes ih => exact List.forall_mem_cons.2 ⟨plain, ih rfl⟩

theorem length_eq (nested : Nested base (node :: outer) opened) : opened.length = outer.length := by
  generalize given : node :: outer = nodes at nested
  induction nested generalizing node outer with
  | base =>
      cases given
      rfl
  | inside below plain located takes ih =>
      cases given
      exact congrArg Nat.succ (ih rfl)

theorem eq_base (nested : Nested base (node :: outer) []) : base = node := by
  cases nested
  rfl

/-- What lies below the innermost directory lies below the base. -/
theorem descend (nested : Nested base (node :: outer) opened) (some : names ≠ []) :
    node.location.descend names = base.location.descend (opened.reverse ++ names) := by
  generalize given : node :: outer = nodes at nested
  induction nested generalizing node outer names with
  | base =>
      cases given
      rfl
  | @inside _ parent _ name opened below plain located takes ih =>
      cases given
      rw [located, ← Location.descend_cons plain.1 some, ih (List.cons_ne_nil _ _) rfl, List.reverse_cons,
        List.append_assoc]
      rfl

theorem repository (nested : Nested base (node :: outer) opened) :
    node.location.repository = base.location.repository := by
  generalize given : node :: outer = nodes at nested
  induction nested generalizing node outer with
  | base =>
      cases given
      rfl
  | inside below plain located takes ih =>
      cases given
      rw [located, Location.childDirectory_repository]
      exact ih rfl

/-- A file goes to the place that its names lead to, unless no directory is open and the base takes no children:
then it goes to the base. -/
theorem place {name : String} {location : Location} (nested : Nested base (node :: outer) opened)
    (places : node.Places name location) :
    ((opened = [] → base.TakesChildren) ∧ location = base.location.descend (name :: opened).reverse) ∨
      opened = [] ∧ ¬base.TakesChildren ∧ location = base.location := by
  by_cases takes : node.TakesChildren
  · refine .inl ⟨?_, ?_⟩
    · rintro rfl
      cases nested
      exact takes
    · rw [places.below takes, ← Location.descend_singleton, nested.descend (List.cons_ne_nil _ _),
        List.reverse_cons]
  · cases nested with
    | base => exact .inr ⟨rfl, takes, places.here takes⟩
    | inside below plain located inner => exact absurd inner takes

end Nested

theorem Node.isFile_of_isOpen {node : Node} (isOpen : node.IsOpen) (elsewhere : node.isSink = false) :
    node.isFile = false := by
  rcases isOpen with directory | sink
  · rw [isDirectory] at directory
    rw [isFile]
    cases metadata : node.metadata with
    | none => rfl
    | some metadata =>
        rw [metadata] at directory
        exact congrArg (!·) directory
  · exact absurd (sink.symm.trans elsewhere) nofun

theorem Node.At.takesChildren {user name : String} {parent : Location} {node : Node}
    (located : node.At user (parent.childDirectory name)) (isOpen : node.IsOpen) (outside : parent.isSink = false) :
    node.TakesChildren := by
  have elsewhere : node.isSink = false := by
    rw [located.isSink, Location.isSink, Location.childDirectory_repository]
    exact outside
  refine ⟨Node.isFile_of_isOpen isOpen elsewhere, ?_⟩
  rw [located.location, Location.namesDirectory_childDirectory, Bool.or_true]

def Reception.outline : Reception → Outline.Phase
  | .control => .control
  | .line kind given => .line kind given
  | .body file => .body file.remaining
  | .lastWord _ state => .lastWord state

/-- A receiver is where the outline of what has come is, in the directories that it says. -/
structure Receiver.Agrees (base : Node) (outline : Outline) (receiver : Receiver) : Prop where
  nested : Nested base (receiver.level.target :: receiver.outer.map Level.target) outline.opened
  phase : outline.phase = receiver.phase.outline

namespace Receiver

variable {base : Node} {outline : Outline} {receiver : Receiver} {byte : UInt8}
  {progress : Progress Receiver} {granted : String → String → Access → Prop}

theorem awaited_outline (file : Incoming) : (awaited file).outline = .ofRemaining file.remaining := by
  rw [awaited, Outline.Phase.ofRemaining]
  split <;> rfl

theorem Turns.agrees {kind : LineKind} {text : String} (turns : receiver.Turns granted kind text progress)
    (outside : base.location.isSink = false)
    (nested : Nested base (receiver.level.target :: receiver.outer.map Level.target) outline.opened) :
    progress.Holds (Agrees base (outline.onLine kind text)) := by
  cases turns with
  | times parsed =>
      rw [Outline.onLine, parsed]
      exact ⟨nested, rfl⟩
  | entered parsed located isOpen named writable =>
      rw [Outline.onLine, parsed]
      have beside : receiver.level.target.location.isSink = false := by
        rw [Location.isSink, nested.repository]
        exact outside
      exact ⟨.inside nested (isPlain_of_isFileName named) located.location (located.takesChildren isOpen beside), rfl⟩
  | left inner =>
      obtain ⟨opened, file, phase⟩ := outline
      rw [inner] at nested
      cases nested with
      | inside below plain located takes => exact ⟨below, rfl⟩
  | closed outermost => trivial
  | warned => exact ⟨nested, rfl⟩

theorem Steps.agrees (steps : Steps granted receiver byte progress) (outside : base.location.isSink = false)
    (agrees : receiver.Agrees base outline) : progress.Holds (Agrees base (outline.push byte)) := by
  obtain ⟨nested, phase⟩ := agrees
  cases steps with
  | control meaning =>
      simp only [Outline.push, phase, Reception.outline, meaning]
      exact ⟨nested, rfl⟩
  | line more =>
      simp only [Outline.push, phase, Reception.outline, more]
      exact ⟨nested, rfl⟩
  | turn done turns =>
      simp only [Outline.push, phase, Reception.outline, done]
      exact turns.agrees outside nested
  | opened done parsed letsIn fresh =>
      simp only [Outline.push, phase, Reception.outline, done, Outline.onLine, parsed]
      exact ⟨nested, by rw [awaited_outline, fresh]⟩
  | body =>
      simp only [Outline.push, phase, Reception.outline]
      exact ⟨nested, by rw [awaited_outline]⟩
  | word more =>
      simp only [Outline.push, phase, Reception.outline, more]
      exact ⟨nested, rfl⟩
  | acknowledged done =>
      simp only [Outline.push, phase, Reception.outline, done]
      exact ⟨nested, rfl⟩

theorem file?_ofRemaining (outline : Outline) (name : String) (remaining : Nat) :
    ({ outline with file := name, phase := .ofRemaining remaining } : Outline).file? = some name := by
  by_cases none : remaining = 0 <;> simp only [Outline.Phase.ofRemaining, none, if_true, if_false, Outline.file?]

/-- What a receiver asks for when a byte comes is accounted for by the outline of what has come with it. -/
theorem Asks.accounted {effect : Effect} (asks : receiver.Asks granted byte effect)
    (agrees : receiver.Agrees base outline) :
    effect.Permitted ((outline.push byte).Accounts base.location) fun _ => True := by
  cases effect with
  | content location => exact asks.elim
  | send bytes => trivial
  | beginUpload location properties =>
      obtain ⟨line, text, header, node, phase, done, parsed, letsIn, _, rfl⟩ := asks
      have announced : outline.push byte =
          { outline with file := header.name, phase := .ofRemaining header.length } := by
        rw [Outline.push, agrees.phase, phase]
        simp only [Reception.outline, done, Outline.onLine, parsed]
      rw [announced]
      refine ⟨header.name, file?_ofRemaining outline _ _, ?_, ?_⟩
      · intro segment member
        rcases List.mem_cons.1 (List.mem_reverse.1 member) with rfl | member
        · exact isPlain_of_isFileName letsIn.named
        · exact agrees.nested.plain segment member
      · rcases agrees.nested.place letsIn.chosen.places with ⟨_, place⟩ | ⟨outermost, _, place⟩
        · exact .inl place
        · exact .inr ⟨outermost, place⟩
  | _ => trivial

/-- While a file comes in, what is accounted for stays the same. -/
theorem Agrees.guarded {σ : Type} {mark : Nat} {gateway : Gateway σ} (agrees : receiver.Agrees base outline)
    (tidy : receiver.Tidy mark gateway) (guarded : gateway.Guarded (outline.Accounts base.location)) (byte : UInt8) :
    gateway.Guarded ((outline.push byte).Accounts base.location) := by
  obtain ⟨opened, name, phase⟩ := outline
  obtain ⟨level, outer, reception⟩ := receiver
  obtain rfl : phase = reception.outline := agrees.phase
  cases reception with
  | body file =>
      intro entry member
      obtain ⟨_, same, plain, place⟩ := guarded entry member
      obtain rfl := Option.some.inj same
      exact ⟨_, file?_ofRemaining _ _ _, plain, place⟩
  | _ => exact Gateway.guarded_of_idle tidy.1

end Receiver

namespace Session

variable {σ : Type} [RemoteStore σ] {base : Node} {outline : Outline} {state : Session × Live σ}

/-- An upload, as the outline of what has come says. -/
structure Traces (base : Node) (outline : Outline) (state : Session × Live σ) : Prop where
  tidy : Tidy state
  guarded : state.2.gateway.Guarded (outline.Accounts base.location)
  agrees : match state.1 with
    | .receiving _ _ receiver => receiver.Agrees base outline
    | .sending _ _ => False
    | .ended _ => True

theorem feed_traces (outside : base.location.isSink = false) (traces : Traces base outline state) (byte : UInt8) :
    Traces base (outline.push byte) (feed byte state) ∧
      Reaches ((outline.push byte).Accounts base.location) state.2.gateway.store (feed byte state).2.gateway.store := by
  obtain ⟨session, live⟩ := state
  obtain ⟨tidy, guarded, agrees⟩ := traces
  cases session with
  | receiving transfer mark receiver =>
      have agrees : receiver.Agrees base outline := agrees
      have before := agrees.guarded tidy guarded byte
      have permits (effect : Effect) (asks : receiver.Asks (fun _ _ _ => True) byte effect) :
          effect.Permitted ((outline.push byte).Accounts base.location) fun _ => True := asks.accounted agrees
      obtain ⟨follows, outcome⟩ := @carryOut_follows _ _ live _ _ _ _ _ _ (ofProgress (receiving transfer mark)) _ _
        (receiver.push_steps vouches_anyAnswer transfer byte).of_attempts permits (fun _ _ => trivial)
        (receiver.push_tidies tidy transfer byte) transfer
      refine ⟨?_, follows.gateway.store before⟩
      have after := follows.gateway.guarded before
      rw [feed]
      rcases outcome with ⟨progress, last, steps, tidies, same⟩ | ⟨result, last, idle, same⟩
      · rw [same] at after ⊢
        have goesOn := steps.agrees outside agrees
        cases progress with
        | waiting next => exact ⟨tidies, after, goesOn⟩
        | _ => exact ⟨tidies.1, after, trivial⟩
      · rw [same] at after ⊢
        exact ⟨idle, after, trivial⟩
  | sending transfer sender => exact agrees.elim
  | ended result => exact ⟨⟨tidy, Gateway.guarded_of_idle tidy, trivial⟩, .refl⟩

theorem feedAll_traces (outside : base.location.isSink = false) (traces : Traces base {} state) (taken : List UInt8) :
    Traces base (Outline.ofBytes taken) (feedAll taken state) := by
  induction taken using List.reverseRecOn with
  | nil => exact traces
  | append_singleton taken byte ih =>
      rw [Outline.ofBytes_append_singleton, feedAll_append_singleton]
      exact (feed_traces outside ih byte).1

/-- An upload begins at the node that its command names; with `-d` things can be put below that. -/
theorem start_traces {line : String} {command : Command} {live : Live σ} (login : Login)
    (parsed : Command.parse line = .ok command) (sink : command.direction = .sink)
    (outside : (Location.resolve (command.paths.headD "")).isSink = false) (idle : live.gateway.uploads = []) :
    (∃ base : Node, base.location = Location.resolve (command.paths.headD "") ∧ base.isSink = false ∧
        (command.targetIsDirectory = true → base.IsOpen) ∧ Traces base {} (start login line live)) ∧
      Reaches (fun _ => False) live.gateway.store (start login line live).2.gateway.store := by
  simp only [start, parsed, sink]
  generalize given : Transfer.mk login command _ = transfer
  have same : transfer.command = command := given ▸ rfl
  have begins {possible : (effect : Effect) → effect.Answer → Prop} :=
    @Receiver.start_begins possible transfer (command.paths.headD "")
  obtain ⟨follows, outcome⟩ := @carryOut_follows _ _ live (fun _ => False) (fun _ => True) _ _ _ _
    (receiving transfer live.gateway.nextUpload) _ _ begins
    (fun _ courteous => courteous.permitted.mono fun _ _ => trivial) (fun _ _ => trivial)
    (Live.idle_of_attempts (begins.weaken fun _ => Effect.Courteous.quiet) ⟨idle, Nat.le_refl _⟩) transfer
  refine ⟨?_, follows.gateway.store (Gateway.guarded_of_idle idle)⟩
  rcases outcome with ⟨receiver, last, begun, tidy, ran⟩ | ⟨result, last, idle, ran⟩ <;> rw [ran]
  · refine ⟨receiver.level.target, begun.target.location, begun.target.isSink.trans outside,
      fun flag => begun.isOpen (same ▸ flag), ?_, Gateway.guarded_of_idle tidy.2.1, ?_, ?_⟩
    · apply Receiver.tidy_of_idle tidy.2
      intro file body
      cases begun.phase.symm.trans body
    · rw [begun.outer]
      exact .base
    · rw [begun.phase]
      rfl
  · exact ⟨Node.ofRemote login.user _ none, rfl, rfl, fun _ => .inl rfl, idle, Gateway.guarded_of_idle idle, trivial⟩

/-- A client does not write outside the target of its command. Before its first byte nothing is put or got;
when a byte comes, and when the bytes end, what is put is the file that is coming in, at the place that the
names of the open directories and its own name lead to below the target, or at the target itself if no directory
is open; and all these names are plain. -/
theorem puts_below_target {line : String} {command : Command} {live : Live (Recorded σ)}
    (parsed : Command.parse line = .ok command) (sink : command.direction = .sink)
    (outside : (Location.resolve (command.paths.headD "")).isSink = false) (idle : live.gateway.uploads = [])
    (login : Login) :
    let target := Location.resolve (command.paths.headD "")
    let upTo (taken : List UInt8) : Recorded σ := (feedAll taken (start login line live)).2.gateway.store
    Recorded.CallsOnly (fun _ => False) live.gateway.store (upTo []) ∧
      (∀ taken byte, Recorded.CallsOnly ((Outline.ofBytes (taken ++ [byte])).Accounts target) (upTo taken)
        (upTo (taken ++ [byte]))) ∧
      ∀ input ending, Recorded.CallsOnly ((Outline.ofBytes input).Accounts target) (upTo input)
        (run login line input ending live).2.gateway.store := by
  intro target upTo
  obtain ⟨⟨base, located, _, _, begins⟩, nothing⟩ := start_traces login parsed sink outside idle
  have outside : base.location.isSink = false := located ▸ outside
  have place : target = base.location := located.symm
  rw [place]
  refine ⟨Recorded.callsOnly_of_reaches nothing, fun taken byte => ?_, fun input ending => ?_⟩
  · have traces := feedAll_traces outside begins taken
    have reaches := (feed_traces outside traces byte).2
    rw [← feedAll_append_singleton] at reaches
    apply Recorded.callsOnly_of_reaches
    rw [Outline.ofBytes, List.foldl_append]
    exact reaches
  · have traces := feedAll_traces outside begins input
    rw [run_eq_finish]
    exact Recorded.callsOnly_of_reaches ((finish_closes traces.tidy ending).2.gateway.store traces.guarded)

/-- A file in a directory, and the byte on which it is put. -/
theorem puts_below_target_of_nested_file :
    let live : Live (Recorded ScriptedStore) := { gateway := Gateway.new {} { store := {} } (fun _ _ _ => true) ⟨0, 0⟩ }
    let taken := Text.encode "D0755 0 d\nC0644 2 a\nh"
    let upTo (taken : List UInt8) : Recorded ScriptedStore :=
      (feedAll taken (start ⟨"ann", "::1", .empty⟩ "scp -r -t libs/x/" live)).2.gateway.store
    (upTo taken).calls = [] ∧ (upTo (taken ++ [105])).calls = [.put ⟨"libs", "x/d/a"⟩] ∧
      (Outline.ofBytes (taken ++ [105])).namesTo "a" = ["d", "a"] ∧
      Recorded.CallsOnly ((Outline.ofBytes (taken ++ [105])).Accounts ⟨"libs", "x/"⟩) (upTo taken)
        (upTo (taken ++ [105])) := by
  intro live taken upTo
  have parsed : Command.parse "scp -r -t libs/x/" = .ok ⟨.sink, true, false, false, false, ["libs/x/"]⟩ := by
    decide +kernel
  have target : Location.resolve "libs/x/" = ⟨"libs", "x/"⟩ := by decide +kernel
  obtain ⟨_, puts, _⟩ :=
    @puts_below_target ScriptedStore _ _ _ live parsed rfl (by decide +kernel) rfl ⟨"ann", "::1", .empty⟩
  exact ⟨by decide +kernel, by decide +kernel, by decide +kernel, target ▸ puts taken 105⟩

end Session

end ArtifactGate
