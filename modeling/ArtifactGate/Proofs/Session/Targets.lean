import ArtifactGate.Proofs.Location
import ArtifactGate.Proofs.Session.Failing

/-!
Where the files of an upload go. Choosing the node for a name asks about the store and changes nothing, and
the node lies in the repository that the client named, at the target or one name below it.
-/
namespace ArtifactGate

/-- The effect asks what there is in a repository and who may do what there, and for no content. -/
def Effect.Inquires (repository : String) : Effect → Prop
  | .authorize asked _ _ => asked = repository
  | .metadata location => location.repository = repository
  | .now | .listingDepth | .diverge => True
  | _ => False

theorem Effect.Inquires.quiet {repository : String} {effect : Effect} (inquires : effect.Inquires repository) :
    effect.Quiet := by
  cases effect <;> trivial

def Effect.Silent : Effect → Prop
  | .send _ => False
  | _ => True

theorem Effect.Inquires.silent {repository : String} {effect : Effect} (inquires : effect.Inquires repository) :
    effect.Silent := by
  cases effect <;> trivial

/-- The node a user sees at a location. Nothing is attached to it yet. -/
structure Node.At (user : String) (place : Location) (node : Node) : Prop where
  user : node.user = user
  location : node.location = place
  isSink : node.isSink = place.isSink
  fresh : node.properties = .empty

/-- The node stands for a place in a repository that a store keeps. -/
structure Node.In (node : Node) (repository : String) : Prop where
  backing : node.backing = .remote
  within : node.location.repository = repository
  outside : repository ≠ Location.sinkRepository

/-- A node that takes children: a directory, or a place that is named as one. -/
def Node.TakesChildren (node : Node) : Prop :=
  node.isFile = false ∧ (node.exists? || node.location.namesDirectory) = true

/-- Things can be put below the node: it is a directory, or missing, or the sink. -/
def Node.IsOpen (node : Node) : Prop :=
  node.isDirectory = true ∨ node.isSink = true

theorem Node.isOpen_of_accepted {node : Node} (accepted : ¬(!node.isDirectory && !node.isSink) = true) :
    node.IsOpen := by
  cases directory : node.isDirectory with
  | true => exact .inl directory
  | false => exact .inr (by simpa [directory] using accepted)

/-- What can be answered with yes is granted. -/
def Vouches (possible : (effect : Effect) → effect.Answer → Prop)
    (granted : String → String → Access → Prop) : Prop :=
  ∀ repository user access, possible (.authorize repository user access) true → granted repository user access

theorem vouches_anyAnswer : Vouches Action.anyAnswer fun _ _ _ => True :=
  fun _ _ _ _ => trivial

namespace Node

variable {node : Node} {repository user name : String} {location : Location}

/-- The sink is open to everyone; elsewhere the access has to be granted. -/
def Allowed (granted : String → String → Access → Prop) (access : Access) (node : Node) : Prop :=
  node.isSink = true ∨ granted node.location.repository node.user access

theorem in_of_at {place : Location} (located : node.At user place) (within : place.repository = repository)
    (outside : repository ≠ Location.sinkRepository) : node.In repository := by
  have elsewhere : node.isSink = false := by
    rw [located.isSink, Location.isSink, within]
    exact beq_false_of_ne outside
  refine ⟨?_, (congrArg Location.repository located.location).trans within, outside⟩
  rw [isSink] at elsewhere
  cases backing : node.backing with
  | sink =>
      rw [backing] at elsewhere
      cases elsewhere
  | remote => rfl

theorem fetchMetadata_inquires (location : Location) :
    Attempts (Effect.Inquires location.repository) (fun _ => True) (fetchMetadata location) :=
  Complies.mk ⟨rfl, fun _ _ _ _ => trivial⟩

theorem isSink_of_in (inside : node.In repository) : node.isSink = false := by
  rw [isSink, inside.backing]
  rfl

theorem fetch_inquires (user : String) (location : Location) :
    Attempts (Effect.Inquires location.repository) (Node.At user location) (fetch user location) := by
  have asks : Attempts (Effect.Inquires location.repository) (fun _ => True)
      (liftM (Action.request .now) : Attempt Instant) :=
    Complies.lift ⟨trivial, fun _ _ => trivial⟩
  rw [fetch]
  refine Complies.ite (fun sink => ?_) fun outside => ?_
  · exact Complies.bind asks fun now _ => Complies.pure ⟨rfl, rfl, sink.symm, rfl⟩
  · apply Complies.bind (fetchMetadata_inquires location)
    intro metadata _
    exact Complies.pure ⟨rfl, rfl, (Bool.eq_false_iff.2 outside).symm, rfl⟩

theorem lookUp_inquires (user : String) (location : Location) :
    (lookUp user location).Respects (Effect.Inquires location.repository) (Node.At user location) := by
  cases sink : location.isSink with
  | true =>
      simp only [lookUp, fetch, sink, if_true]
      exact ⟨trivial, fun now _ => ⟨rfl, rfl, sink.symm, rfl⟩⟩
  | false =>
      rw [lookUp]
      apply Action.Heeds.bind (fetch_inquires user location).heeds
      intro result valid
      cases result with
      | ok node => exact valid node rfl
      | error fault => exact ⟨rfl, rfl, sink.symm, rfl⟩

theorem child_inquires (node : Node) (name : String) :
    (node.child name).Respects (Effect.Inquires node.location.repository)
      (Node.At node.user (node.location.child name)) :=
  node.location.child_repository name ▸ lookUp_inquires node.user _

theorem childDirectory_inquires (node : Node) (name : String) :
    (node.childDirectory name).Respects (Effect.Inquires node.location.repository)
      (Node.At node.user (node.location.childDirectory name)) :=
  node.location.childDirectory_repository name ▸ lookUp_inquires node.user _

theorem resolve_inquires (user text : String) :
    Attempts (Effect.Inquires (Location.resolve text).repository) (Node.At user (Location.resolve text))
      (resolve user text) :=
  Complies.refuse fun _ => Complies.lift (lookUp_inquires user _)

section Access

variable {possible : (effect : Effect) → effect.Answer → Prop} {granted : String → String → Access → Prop}

theorem allows_inquires (vouches : Vouches possible granted) (node : Node) (access : Access) :
    (node.allows access).Heeds possible (Effect.Inquires node.location.repository) fun allowed =>
      allowed = true → node.Allowed granted access := by
  rw [allows]
  cases backing : node.backing with
  | sink =>
      have sink : node.isSink = true := by
        rw [isSink, backing]
        rfl
      exact fun _ => .inl sink
  | remote => exact ⟨rfl, fun answer given yes => .inr (vouches _ _ _ (yes ▸ given))⟩

theorem isWritable_quiet (node : Node) :
    Attempts Effect.Quiet (fun _ => True) (liftM node.isWritable : Attempt Bool) :=
  ((Complies.lift (allows_inquires vouches_anyAnswer node .write)).mono fun _ _ => trivial).weaken
    fun _ => Effect.Inquires.quiet

/-- A check refuses an access that is not granted. -/
theorem check_inquires {α ε : Type} {holds : α → Prop} {failure : ε} {next : ExceptT ε Action α}
    {allowed : Effect → Prop} (vouches : Vouches possible granted) (node : Node) (access : Access)
    (asks : ∀ effect, effect.Inquires node.location.repository → allowed effect)
    (rest : node.Allowed granted access → Complies possible allowed holds next) :
    Complies possible allowed holds (do
      if !(← liftM (node.allows access)) then throw failure
      next) := by
  apply Complies.bind ((Complies.lift (allows_inquires vouches node access)).weaken asks)
  intro allowed valid
  apply Complies.refuse
  intro passed
  exact rest (valid (by simpa using passed))

end Access

theorem parent?_inquires (node : Node) :
    node.parent?.Respects (Effect.Inquires node.location.repository) fun _ => True := by
  rw [parent?]
  cases parent : node.location.parent? with
  | none => trivial
  | some location =>
      rw [← Location.parent?_repository parent]
      exact Action.Heeds.bind (lookUp_inquires _ _) fun _ _ => trivial

end Node

namespace Live

variable {σ : Type} [RemoteStore σ] {location : Location}

theorem run_fetch (outside : location.isSink = false) (user : String) (live : Live σ) :
    live.run (Node.fetch user location).run =
      (some ((Node.found? (live.gateway.metadata location).1).map (Node.ofRemote user location)),
        { live with gateway := (live.gateway.metadata location).2 }) := by
  have fetched : live.run (Node.fetchMetadata location).run =
      (some (Node.found? (live.gateway.metadata location).1),
        { live with gateway := (live.gateway.metadata location).2 }) := by
    rw [Node.fetchMetadata, ExceptT.run_mk, map_eq_pure_bind, run_bind, run_request]
    exact run_pure _ _
  rw [Node.fetch, if_neg (by rw [outside]; exact Bool.false_ne_true), ExceptT.run_bind, run_bind, fetched]
  rcases Node.found? (live.gateway.metadata location).1 with fault | metadata
  · exact run_pure _ _
  · exact run_pure _ _

/-- The node that a user sees at a place that is not in the sink. -/
theorem run_lookUp (outside : location.isSink = false) (user : String) (live : Live σ) :
    live.run (Node.lookUp user location) =
      (some (Node.ofRemote user location (live.gateway.metadata location).1.toOption),
        { live with gateway := (live.gateway.metadata location).2 }) := by
  rw [Node.lookUp, run_bind, run_fetch outside]
  rcases (live.gateway.metadata location).1 with fault | metadata
  · rw [Node.found?]
    cases fault.isNotFound
    · exact run_pure _ _
    · exact run_pure _ _
  · exact run_pure _ _

/-- A text that names a place is resolved to the node there. -/
theorem run_resolve {text : String} (outside : (Location.resolve text).isSink = false) (user : String)
    (live : Live σ) :
    live.run (Node.resolve user text).run =
      if (Location.resolve text).isEmpty then
        (some (.error (.protocol (text ++ ": path does not name a repository"))), live)
      else
        (some (.ok (Node.ofRemote user (Location.resolve text)
            (live.gateway.metadata (Location.resolve text)).1.toOption)),
          { live with gateway := (live.gateway.metadata (Location.resolve text)).2 }) := by
  rw [Node.resolve]
  split
  · exact run_pure _ live
  · change live.run (Node.lookUp user _ >>= fun node => Pure.pure (Except.ok node)) = _
    rw [run_bind, run_lookUp outside]
    exact run_pure _ _

end Live

section Choice

variable {target : Node} {repository : String}

/-- A file goes to the target or to a child of it by the file's name. -/
def IsTarget (target : Node) (name : String) (location : Location) : Prop :=
  location = target.location ∨ location = target.location.child name

/-- The place that a file of that name goes to. -/
structure Node.Places (target : Node) (name : String) (location : Location) : Prop where
  below : target.TakesChildren → location = target.location.child name
  here : ¬target.TakesChildren → location = target.location

theorem Node.Places.isTarget {name : String} {location : Location} (places : target.Places name location) :
    IsTarget target name location := by
  by_cases takes : target.TakesChildren
  · exact .inr (places.below takes)
  · exact .inl (places.here takes)

/-- The node that a file of that name goes to. -/
structure Chosen (target : Node) (name : String) (node : Node) : Prop where
  below : target.TakesChildren → node.At target.user (target.location.child name)
  here : ¬target.TakesChildren → node = target

namespace Chosen

variable {name : String} {node : Node}

theorem places (chosen : Chosen target name node) : target.Places name node.location :=
  ⟨fun takes => (chosen.below takes).location, fun other => congrArg Node.location (chosen.here other)⟩

theorem user (chosen : Chosen target name node) : node.user = target.user := by
  by_cases takes : target.TakesChildren
  · exact (chosen.below takes).user
  · exact congrArg Node.user (chosen.here takes)

theorem location_repository (chosen : Chosen target name node) :
    node.location.repository = target.location.repository := by
  by_cases takes : target.TakesChildren
  · exact (congrArg Location.repository (chosen.below takes).location).trans (Location.child_repository _ _)
  · rw [chosen.here takes]

theorem within (chosen : Chosen target name node) (inside : target.In repository) : node.In repository := by
  by_cases takes : target.TakesChildren
  · have same := (target.location.child_repository name).trans inside.within
    exact Node.in_of_at (chosen.below takes) same inside.outside
  · exact chosen.here takes ▸ inside

end Chosen

theorem chooseFileTarget_inquires (target : Node) (name : String) :
    Attempts (Effect.Inquires target.location.repository) (Chosen target name) (chooseFileTarget target name) := by
  rw [chooseFileTarget]
  refine Complies.ite (fun file => ?_) fun noFile => ?_
  · exact Complies.pure ⟨fun takes => absurd (takes.1.symm.trans file) Bool.false_ne_true, fun _ => rfl⟩
  · refine Complies.ite (fun receives => ?_) fun missing => ?_
    · have takes : target.TakesChildren := ⟨Bool.eq_false_iff.2 noFile, receives⟩
      refine Complies.lift ((target.child_inquires name).mono (fun _ _ given => given) (fun _ asks => asks) ?_)
      exact fun _ located => ⟨fun _ => located, fun other => absurd takes other⟩
    · have here : Chosen target name target := ⟨fun takes => absurd takes.2 missing, fun _ => rfl⟩
      refine Complies.bind (Complies.lift target.parent?_inquires) ?_
      intro parent _
      cases parent with
      | none => exact Complies.pure here
      | some parent => exact Complies.ite (fun _ => Complies.throw) fun _ => Complies.pure here

theorem checkName_complies {allowed : Effect → Prop} (name : String) :
    Attempts allowed (fun _ => isFileName name = true)
      (ExceptT.mk (pure (checkName name)) : Attempt Unit) := by
  apply Complies.mk
  rw [checkName]
  split
  · exact fun _ _ => ‹_›
  · intro _ absent
    cases absent

section Access

variable {possible : (effect : Effect) → effect.Answer → Prop} {granted : String → String → Access → Prop}

/-- A file is let in under a valid name, at a place that its sender may write to. -/
theorem fileTarget_inquires (vouches : Vouches possible granted) (target : Node) (name : String) :
    Complies possible (Effect.Inquires target.location.repository) (fun node => Chosen target name node ∧
      isFileName name = true ∧ node.Allowed granted .write) (fileTarget target name) := by
  rw [fileTarget]
  apply Complies.bind (checkName_complies name).of_attempts
  intro _ named
  apply Complies.bind (chooseFileTarget_inquires target name).of_attempts
  intro node chosen
  apply Complies.refuse
  intro _
  exact Node.check_inquires vouches node .write (fun _ asks => chosen.location_repository ▸ asks) fun allowed =>
    Complies.pure ⟨chosen, named, allowed⟩

theorem directoryTarget_inquires (vouches : Vouches possible granted) (target : Node) (name : String) :
    Complies possible (Effect.Inquires target.location.repository) (fun node =>
      node.At target.user (target.location.childDirectory name) ∧ node.IsOpen ∧ isFileName name = true ∧
        node.Allowed granted .write) (directoryTarget target name) := by
  rw [directoryTarget]
  apply Complies.bind (checkName_complies name).of_attempts
  intro _ named
  apply Complies.refuse
  intro _
  apply Complies.bind (Complies.lift (target.childDirectory_inquires name)).of_attempts
  intro directory located
  apply Complies.refuse
  intro accepted
  have within : directory.location.repository = target.location.repository :=
    (congrArg Location.repository located.location).trans (Location.childDirectory_repository _ _)
  exact Node.check_inquires vouches directory .write (fun _ asks => within ▸ asks) fun allowed =>
    Complies.pure ⟨located, Node.isOpen_of_accepted accepted, named, allowed⟩

end Access

end Choice

end ArtifactGate
