import ArtifactGate.Proofs.Gateway.Consulting
import ArtifactGate.Proofs.Session.TreeUpload
import ArtifactGate.Proofs.Session.Receipts

/-!
Where an upload puts its files and opens its directories when the store fails no call. What the gate sees there
before it lets them in leaves nothing in their way but what it does not look at.
-/
namespace ArtifactGate

theorem Location.Above.stem {lower : Location} {name : String} {directory : Location}
    (above : (directory.child name).Above lower) (segment : IsSegment name) :
    (directory.child name).stem <+: lower.path.toList := by
  have below := above.2
  rw [Location.child_eq, String.toList_ofList] at below
  rwa [Location.stem_child _ segment]

namespace MemoryStore

/-- A store that does not fail begins to fail at no call. -/
theorem reliable_of_reaches {permitted : Call → Prop} {before after : MemoryStore}
    (reaches : Reaches permitted before after) (reliable : before.failuresPending = 0) :
    after.failuresPending = 0 := by
  induction reaches with
  | refl => exact reliable
  | @tail middle last _ moves ih =>
      cases moves with
      | metadata location =>
          rw [metadata_reliable ih]
          exact ih
      | content allowed =>
          change (middle.content _).2.failuresPending = 0
          simp only [content, takeFailure, ih]
      | openUpload allowed properties => exact ih
      | admitUpload allowed properties =>
          change middle.admitUpload.2.failuresPending = 0
          rw [admitUpload]
          split
          · exact ih
          · split
            · exact ih
            · split <;> exact ih
      | storeBody allowed properties bytes =>
          change (middle.storeBody _ _ _).2.failuresPending = 0
          simp only [storeBody]
          split <;> exact ih
      | dropAdmitted => exact ih

end MemoryStore

section Described

variable {gateway : Gateway MemoryStore} {location : Location} {user : String}

theorem Node.directory_of_described
    (noFile : (Node.ofRemote user location (gateway.described location).toOption).isFile = false) :
    ∀ metadata, gateway.described location = .ok metadata → metadata.isDirectory = true := by
  intro metadata described
  rw [described] at noFile
  have directory : (!metadata.isDirectory) = false := noFile
  rwa [Bool.not_eq_false'] at directory

/-- There is no file at a place that is named as a directory, if none is seen there. -/
theorem Gateway.free_of_described (named : location.namesDirectory = true)
    (directory : ∀ metadata, gateway.described location = .ok metadata → metadata.isDirectory = true) :
    ¬gateway.store.Has ⟨location.repository, String.ofList location.trimmedPath⟩ := by
  intro has
  rcases gateway.store.describe_cases location with
    ⟨metadata, said, noDirectory, _⟩ | ⟨_, _, _, absent, _⟩ | ⟨_, vacant⟩
  · have seen := directory metadata ((Gateway.described_of_namesDirectory named).trans said)
    exact absurd (noDirectory.symm.trans seen) Bool.false_ne_true
  · exact absent has
  · exact vacant.not_covers has rfl (.inl String.toList_ofList)

end Described

namespace TreeUpload

variable {upload : TreeUpload} {base node target : Node} {nodes outer : List Node} {opened : List String}
  {name : String}
  {gateway : Gateway MemoryStore}

theorem sees_of_described {base : Node} (origin : upload.origin = gateway.store)
    (fetched : base.metadata = (gateway.described upload.target).toOption) : upload.Sees base := by
  rw [Gateway.described] at fetched
  cases named : Gateway.checksumSize? upload.target.path with
  | some size =>
      rw [named] at fetched
      refine .checksum (by rw [named]; exact Option.some_ne_none size) ?_
      rw [Node.isFile, fetched]
      rfl
  | none =>
      rw [named] at fetched
      rcases gateway.store.describe_cases upload.target with
        ⟨metadata, described, noDirectory, here⟩ | ⟨metadata, described, directory, absent, lower, has, within, below⟩ |
          ⟨described, vacant⟩ <;>
        simp only [described] at fetched
      · refine .file ?_ (origin ▸ here)
        rw [Node.isFile, fetched]
        exact congrArg (!·) noDirectory
      · refine .directory ?_ ?_ (origin ▸ absent) (origin ▸ has) within below
        · rw [Node.isFile, fetched]
          exact congrArg (!·) directory
        · rw [Node.exists?, fetched]
          rfl
      · refine .missing ?_ ?_ (origin ▸ vacant)
        · rw [Node.isFile, fetched]
          rfl
        · rw [Node.exists?, fetched]
          rfl

/-- The node that a file of that name goes to, as a gateway sees it. -/
inductive Picked (gateway : Gateway MemoryStore) (target : Node) (name : String) (node : Node) : Prop
  | below (takes : target.TakesChildren)
    (same : node = Node.ofRemote target.user (target.location.child name)
      (gateway.described (target.location.child name)).toOption)
  | here (closed : ¬target.TakesChildren) (same : node = target)
    (parent : target.exists? = false → ∀ parent, target.location.parent? = some parent →
      ∀ metadata, gateway.described parent = .ok metadata → metadata.isDirectory = true)

/-- What lies below a place is excused, if no directory is seen there. -/
theorem Invariant.below_child (invariant : upload.Invariant base nodes gateway.store.Has) (segment : IsSegment name)
    (file : ∀ metadata, gateway.described (target.location.child name) = .ok metadata → metadata.isDirectory = false) :
    ∀ lower, gateway.store.Has lower → (target.location.child name).Above lower →
      upload.Excuses (target.location.child name) lower := by
  intro lower has higher
  cases named : Gateway.checksumSize? (target.location.child name).path with
  | some size =>
      -- The store is not asked about a checksum: only a file that it has already is known to be above nothing.
      by_cases there : upload.origin.Has (target.location.child name)
      · exact invariant.sound _ lower (invariant.kept _ there) has higher
      · exact .checksum (by rw [named]; exact Option.some_ne_none size) there
  | none =>
      have described : gateway.described (target.location.child name) =
          gateway.store.describe (target.location.child name) := by rw [Gateway.described, named]
      rcases gateway.store.describe_cases (target.location.child name) with
        ⟨_, _, _, here⟩ | ⟨metadata, said, directory, _⟩ | ⟨_, vacant⟩
      · rw [Location.trimmedPath_child _ segment, Location.child_repository, ← Location.child_eq] at here
        exact invariant.sound _ lower here has higher
      · exact absurd ((file metadata (described.trans said)).symm.trans directory) Bool.false_ne_true
      · exact absurd (.inr (higher.stem segment)) (vacant.not_covers has higher.1.symm)

/-- A file that is let in may be put. -/
theorem Picked.invariant (picked : Picked gateway target name node)
    (accepted : node.exists? = true → node.isDirectory = false) (segment : IsSegment name)
    (roots : upload.Roots base) (nested : Nested base (target :: outer) opened)
    (invariant : upload.Invariant base (target :: outer) gateway.store.Has) :
    upload.Invariant base (target :: outer) fun place => place = node.location ∨ gateway.store.Has place := by
  cases picked with
  | below takes same =>
      subst same
      refine invariant.put_child segment roots nested takes (invariant.below_child segment fun metadata described => ?_)
      rw [described] at accepted
      exact accepted rfl
  | here closed same parent =>
      subst same
      cases nested with
      | inside below plain located takes => exact absurd takes closed
      | base =>
          rw [roots.location]
          apply invariant.put_target roots closed
          intro missing upper has higher guards
          obtain ⟨place, inside, path⟩ := guards.parent
          obtain ⟨within, named⟩ := Location.parent?_cases inside
          have here : (⟨place.repository, String.ofList place.trimmedPath⟩ : Location) = upper := by
            rw [← path, within, ← higher.1, String.ofList_toList]
          exact Gateway.free_of_described named (parent missing place (roots.location ▸ inside)) (here.symm ▸ has)

end TreeUpload

namespace Live

variable {live : Live MemoryStore} {target : Node} {name repository : String}

theorem reliable_of_run {α : Type} (action : Action α) (reliable : live.gateway.store.failuresPending = 0) :
    (live.run action).2.gateway.store.failuresPending = 0 := by
  rw [run]
  induction action generalizing live with
  | done value => exact reliable
  | ask effect resume ih =>
      have permitted : effect.Permitted (fun _ => True) (fun _ => True) := by cases effect <;> trivial
      have reaches := (perform_follows permitted live).gateway.store fun _ _ => trivial
      have still := MemoryStore.reliable_of_reaches reaches reliable
      rw [Action.run]
      rcases performed : perform effect live with ⟨_ | answer, after⟩ <;> rw [performed] at still
      · exact still
      · exact ih answer still

theorem ends_of_run {α : Type} {action : Action α} {value : α} {after : Live MemoryStore}
    {lost : Option Fault → Live MemoryStore → Prop} (ran : live.run action = (some value, after)) :
    live.Ends (liftM action : Attempt α) (fun given reached => given = value ∧ reached = after) lost := by
  have lifted : live.run (liftM action : Attempt α).run = (some (.ok value), after) := by
    change live.run (action >>= fun value => Pure.pure (Except.ok value)) = _
    rw [run_bind, ran]
    exact run_pure _ _
  rw [Ends, lifted]
  exact ⟨rfl, rfl⟩

/-- A place in the repository of a node is seen as the store has it. -/
theorem run_lookUp_reliable {place : Location} (inside : target.In repository)
    (within : place.repository = target.location.repository) (reliable : live.gateway.store.failuresPending = 0) :
    ∃ after, live.run (Node.lookUp target.user place) =
        (some (Node.ofRemote target.user place (live.gateway.described place).toOption), after) ∧
      live.gateway.Unmoved after.gateway := by
  have outside : place.isSink = false := by
    rw [Location.isSink, within, inside.within]
    exact beq_false_of_ne inside.outside
  have unmoved := live.gateway.metadata_unmoved place
  obtain ⟨_, answered, _, _⟩ := Gateway.metadata_described reliable place
  rw [answered] at unmoved
  rw [run_lookUp outside, answered]
  exact ⟨_, rfl, unmoved⟩

theorem ends_lookUp {place : Location} {lost : Option Fault → Live MemoryStore → Prop} (inside : target.In repository)
    (within : place.repository = target.location.repository) (reliable : live.gateway.store.failuresPending = 0) :
    live.Ends (liftM (Node.lookUp target.user place) : Attempt Node)
      (fun node after => node = Node.ofRemote target.user place (live.gateway.described place).toOption ∧
        live.gateway.Unmoved after.gateway) lost := by
  obtain ⟨after, ran, unmoved⟩ := run_lookUp_reliable inside within reliable
  refine (ends_of_run ran).mono ?_ fun _ _ lost => lost
  intro node reached found
  obtain ⟨rfl, rfl⟩ := found
  exact ⟨rfl, unmoved⟩

theorem ends_parent? {lost : Option Fault → Live MemoryStore → Prop} (inside : target.In repository)
    (reliable : live.gateway.store.failuresPending = 0) :
    live.Ends (liftM target.parent? : Attempt (Option Node))
      (fun parent after => (parent = target.location.parent?.map fun place =>
        Node.ofRemote target.user place (live.gateway.described place).toOption) ∧
        live.gateway.Unmoved after.gateway) lost := by
  cases above : target.location.parent? with
  | none =>
      have ran : live.run target.parent? = (some none, live) := by
        rw [Node.parent?, above]
        exact run_pure _ live
      refine (ends_of_run ran).mono ?_ fun _ _ lost => lost
      intro parent reached found
      obtain ⟨rfl, rfl⟩ := found
      exact ⟨rfl, Gateway.Unmoved.refl _⟩
  | some place =>
      obtain ⟨after, looked, unmoved⟩ := run_lookUp_reliable inside (Location.parent?_cases above).1 reliable
      have ran : live.run target.parent? =
          (some (some (Node.ofRemote target.user place (live.gateway.described place).toOption)), after) := by
        rw [Node.parent?, above]
        dsimp only
        rw [run_bind, looked]
        exact run_pure _ after
      refine (ends_of_run ran).mono ?_ fun _ _ lost => lost
      intro parent reached found
      obtain ⟨rfl, rfl⟩ := found
      exact ⟨rfl, unmoved⟩

theorem ends_chooseFileTarget (inside : target.In repository)
    (reliable : target.isFile = true ∨ live.gateway.store.failuresPending = 0) (name : String) :
    live.Ends (chooseFileTarget target name)
      (fun node after => TreeUpload.Picked live.gateway target name node ∧ live.gateway.Unmoved after.gateway)
      (fun _ after => live.gateway.Unmoved after.gateway) := by
  rw [chooseFileTarget]
  refine Ends.ite (fun file => ?_) fun noFile => ?_
  · refine Ends.pure ⟨.here (fun takes => ?_) rfl fun missing => ?_, Gateway.Unmoved.refl _⟩
    · exact absurd (takes.1.symm.trans file) Bool.false_ne_true
    · rw [Node.exists?, Option.isSome_eq_false_iff, Option.isNone_iff_eq_none] at missing
      rw [Node.isFile, missing] at file
      cases file
  · have reliable := reliable.resolve_left noFile
    refine Ends.ite (fun receives => ?_) fun missing => ?_
    · refine (ends_lookUp inside (target.location.child_repository name) reliable).mono ?_ fun _ _ lost => lost
      intro node reached found
      exact ⟨.below ⟨Bool.eq_false_iff.2 noFile, receives⟩ found.1, found.2⟩
    · have closed : ¬target.TakesChildren := fun takes => missing takes.2
      refine Ends.bind (ends_parent? inside reliable) ?_
      intro parent reached found
      obtain ⟨rfl, unmoved⟩ := found
      cases above : target.location.parent? with
      | none =>
          refine Ends.pure ⟨.here closed rfl fun _ place found => ?_, unmoved⟩
          rw [above] at found
          cases found
      | some place =>
          refine Ends.ite (fun _ => Ends.throw unmoved) fun noFile => ?_
          refine Ends.pure ⟨.here closed rfl fun _ other found => ?_, unmoved⟩
          obtain rfl := Option.some.inj (above.symm.trans found)
          exact Node.directory_of_described (Bool.eq_false_iff.2 noFile)

theorem ends_checkName (name : String) :
    live.Ends (ExceptT.mk (Pure.pure (checkName name)) : Attempt Unit)
      (fun _ after => isFileName name = true ∧ after = live) (fun _ after => live.gateway.Unmoved after.gateway) := by
  rw [Ends, ExceptT.run_mk, run_pure, checkName]
  by_cases named : isFileName name = true
  · rw [if_pos named]
    exact ⟨named, rfl⟩
  · rw [if_neg named]
    exact Gateway.Unmoved.refl live.gateway

/-- What is let in may be written. -/
theorem ends_checkWritable {before : Live MemoryStore} {node : Node} {fault : Fault}
    (unmoved : before.gateway.Unmoved live.gateway) :
    live.Ends (do
        if !(← liftM node.isWritable) then throw fault
        return node : Attempt Node)
      (fun given after => given = node ∧ before.gateway.Unmoved after.gateway)
      (fun _ after => before.gateway.Unmoved after.gateway) := by
  have asked := (ends_of_attempts live node.isWritable_quiet).mono
    (fun _ _ ended => unmoved.trans ended.2) fun _ _ lost => unmoved.trans lost
  refine Ends.bind asked ?_
  intro allowed after unmoved
  exact Ends.refuse (fun _ => unmoved) fun _ => Ends.pure ⟨rfl, unmoved⟩

/-- A file that is let in goes to a place that is no directory. -/
theorem ends_fileTarget (inside : target.In repository)
    (reliable : target.isFile = true ∨ live.gateway.store.failuresPending = 0) (name : String) :
    live.Ends (fileTarget target name)
      (fun node after => isFileName name = true ∧ TreeUpload.Picked live.gateway target name node ∧
        (node.exists? = true → node.isDirectory = false) ∧ live.gateway.Unmoved after.gateway)
      (fun _ after => live.gateway.Unmoved after.gateway) := by
  rw [fileTarget]
  refine Ends.bind (ends_checkName name) ?_
  intro _ reached passed
  obtain ⟨named, rfl⟩ := passed
  refine Ends.bind (ends_chooseFileTarget inside reliable name) ?_
  intro node chosen found
  obtain ⟨picked, unmoved⟩ := found
  refine Ends.refuse (fun _ => unmoved) fun accepted => ?_
  refine (ends_checkWritable unmoved).mono ?_ fun _ _ lost => lost
  intro given after written
  obtain ⟨rfl, unmoved⟩ := written
  exact ⟨named, picked, fun some => by simpa [some] using accepted, unmoved⟩

/-- A directory is opened below what is no file, and is no file. -/
theorem ends_directoryTarget (inside : target.In repository)
    (reliable : target.isFile = true ∨ live.gateway.store.failuresPending = 0) (name : String) :
    live.Ends (directoryTarget target name)
      (fun directory after => isFileName name = true ∧ target.isFile = false ∧ directory.isFile = false ∧
        directory = Node.ofRemote target.user (target.location.childDirectory name)
          (live.gateway.described (target.location.childDirectory name)).toOption ∧
        live.gateway.Unmoved after.gateway)
      (fun _ after => live.gateway.Unmoved after.gateway) := by
  rw [directoryTarget]
  refine Ends.bind (ends_checkName name) ?_
  intro _ reached passed
  obtain ⟨named, rfl⟩ := passed
  refine Ends.refuse (fun _ => Gateway.Unmoved.refl _) fun accepted => ?_
  have noFile := Node.isFile_of_isOpen (Node.isOpen_of_accepted accepted) (Node.isSink_of_in inside)
  have reliable := reliable.resolve_left (Bool.eq_false_iff.1 noFile)
  refine Ends.bind (ends_lookUp inside (target.location.childDirectory_repository name) reliable) ?_
  intro directory reached found
  obtain ⟨rfl, unmoved⟩ := found
  refine Ends.refuse (fun _ => unmoved) fun accepted => ?_
  have isOpen := Node.isFile_of_isOpen (Node.isOpen_of_accepted accepted) rfl
  refine (ends_checkWritable unmoved).mono ?_ fun _ _ lost => lost
  intro given last written
  obtain ⟨rfl, unmoved⟩ := written
  exact ⟨named, noFile, isOpen, rfl, unmoved⟩

end Live

end ArtifactGate
