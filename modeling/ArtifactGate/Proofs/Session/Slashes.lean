import ArtifactGate.Proofs.Gateway.Consulting
import ArtifactGate.Proofs.Session.Outline
import ArtifactGate.Proofs.Session.Selection
import ArtifactGate.Proofs.Session.Transcript
import ArtifactGate.Proofs.Store.Tree

/-!
Paths that name a directory and are transferred as files. What the store tells of a place does not depend on the
slashes at the end of its path, while contents are kept by the exact path. So a session gets or puts content under
a directory's name just when an object is at the place without the slashes: at a path of its command, or in a
listing where the object is a directory on the way to another one.
-/
namespace ArtifactGate

namespace Location

variable {location place : Location}

/-- The place without the slashes at the end of its path. -/
def trimmed (location : Location) : Location :=
  ⟨location.repository, String.ofList location.trimmedPath⟩

theorem trimmed_above (slash : location.path.toList.getLast? = some '/')
    (within : place.repository = location.repository) (below : location.path.toList <+: place.path.toList) :
    location.trimmed.Above place := by
  refine ⟨within.symm, ?_⟩
  rw [trimmed, String.toList_ofList]
  rcases location.path_eq_or_trimmed with bare | longer
  · rw [bare] at slash
    cases Text.not_of_dropTrailing slash
  · exact longer.trans below

end Location

namespace MemoryStore

variable {store before after : MemoryStore} {location : Location}

theorem has_congr (same : after.objects = before.objects) : after.Has = before.Has := by
  funext location
  rw [Has, Has, same]

/-- What a store tells of a place: a file at a directory's name is an object without the slashes, and the entries
of a directory come from objects. -/
structure Tells (store : MemoryStore) (location : Location) (metadata : Metadata) : Prop where
  file : metadata.isDirectory = false → location.namesDirectory = true → store.Has location.trimmed
  entries : ∀ entry ∈ metadata.entries, ∃ place, store.Has place ∧
    listed? location.repository location.stem place = some entry

theorem tells_of_describe {metadata : Metadata} (described : store.describe location = .ok metadata) :
    store.Tells location metadata := by
  simp only [describe] at described
  split at described
  · rename_i object found
    cases described
    exact ⟨fun _ _ => has_iff.2 ⟨object, found⟩, List.forall_mem_nil _⟩
  · split at described
    · cases described
    · rename_i listed
      cases described
      refine ⟨fun isFile => (by cases isFile), fun entry member => ?_⟩
      obtain ⟨place, object, found, entry⟩ := mem_entriesOf.1 member
      exact ⟨place, has_iff.2 ⟨object, found⟩, entry⟩

theorem Tells.of_same {metadata : Metadata} (tells : after.Tells location metadata)
    (same : after.objects = before.objects) : before.Tells location metadata :=
  ⟨has_congr same ▸ tells.file, has_congr same ▸ tells.entries⟩

theorem metadata_tells {metadata : Metadata} (found : (store.metadata location).1 = .ok metadata) :
    store.Tells location metadata := by
  rw [MemoryStore.metadata] at found
  cases pending : store.failuresPending with
  | zero =>
      simp only [takeFailure, pending] at found
      exact (tells_of_describe found).of_same rfl
  | succ more =>
      simp only [takeFailure, pending] at found
      cases found

end MemoryStore

namespace Gateway

/-- What a call that is attempted again gives, one of the attempts gave. -/
theorem attemptsFrom_gives {σ α : Type} {call : StateM σ (Except Fault α)} {invariant : σ → Prop} {valid : α → Prop}
    (once : ∀ store, invariant store →
      invariant (call store).2 ∧ ∀ value, (call store).1 = .ok value → valid value)
    (operation : String) (attempt left : Nat) {store : σ} (initial : invariant store) {value : α}
    (given : (RetryPolicy.attemptsFrom operation (Pure.pure ()) call attempt left store).1 = .ok value) :
    valid value := by
  induction left generalizing attempt store with
  | zero =>
      obtain ⟨_, valid⟩ := once store initial
      rw [attemptsFrom_apply] at given
      rcases called : call store with ⟨fault | value, after⟩ <;> rw [called] at given valid
      · cases given
      · exact valid _ given
  | succ left ih =>
      obtain ⟨kept, valid⟩ := once store initial
      rw [attemptsFrom_apply] at given
      rcases called : call store with ⟨fault | value, after⟩ <;> rw [called] at given valid kept
      · dsimp only at given
        split at given
        · exact ih (attempt + 1) kept given
        · cases given
      · exact valid _ given

theorem metadata_tells {gateway : Gateway (Recorded MemoryStore)} {store : MemoryStore} {location : Location}
    {metadata : Metadata} (same : gateway.store.store.objects = store.objects)
    (found : (gateway.metadata location).1 = .ok metadata) : store.Tells location metadata := by
  simp only [Gateway.metadata] at found
  split at found
  · rename_i size checksum
    cases found
    refine ⟨fun _ names => ?_, List.forall_mem_nil _⟩
    rw [checksumSize?_of_namesDirectory names] at checksum
    cases checksum
  · have once (recorded : Recorded MemoryStore) (kept : recorded.store.objects = store.objects) :
        (RemoteStore.metadata location recorded).2.store.objects = store.objects ∧
          ∀ metadata, (RemoteStore.metadata location recorded).1 = .ok metadata → store.Tells location metadata := by
      refine ⟨(MemoryStore.objects_confined.metadata location recorded.store).trans kept, fun metadata told => ?_⟩
      exact (MemoryStore.metadata_tells told).of_same kept
    exact attemptsFrom_gives once _ _ _ same found

end Gateway

variable {store : MemoryStore} {location : Location} {node : Node} {paths : List String}

/-- What is answered while the objects of a store do not change. -/
def MemoryStore.Answers (store : MemoryStore) : (effect : Effect) → effect.Answer → Prop
  | .metadata location, answer => ∀ metadata, answer = .ok metadata → store.Tells location metadata
  | _, _ => True

namespace Live

/-- Nothing is in progress, and the objects are those of the store. -/
structure Stays (store : MemoryStore) (live : Live (Recorded MemoryStore)) : Prop where
  idle : live.gateway.uploads = []
  objects : live.gateway.store.store.objects = store.objects

theorem perform_stays {live : Live (Recorded MemoryStore)} {effect : Effect} (quiet : effect.Quiet)
    (stays : live.Stays store) :
    (live.perform effect).2.Stays store ∧
      ∀ answer, (live.perform effect).1 = some answer → store.Answers effect answer := by
  have permits : effect.Permitted Call.Gets fun _ => True := by
    cases effect <;> trivial
  have reaches := (perform_follows permits live).gateway.store (Gateway.guarded_of_idle stays.idle)
  have kept := MemoryStore.objects_confined.kept (fun _ put => put.elim) reaches
  refine ⟨⟨(perform_undisturbed quiet live).uploads stays.idle, kept.trans stays.objects⟩, ?_⟩
  cases effect with
  | metadata location =>
      intro answer performed metadata told
      cases performed
      exact Gateway.metadata_tells stays.objects told
  | _ => exact fun _ _ => trivial

/-- A part of a session that changes no upload finds the store as it was. -/
theorem stays_of_complies {α ε : Type} {part : ExceptT ε Action α} {allowed : Effect → Prop} {valid : α → Prop}
    {permitted : Call → Prop} {live : Live (Recorded MemoryStore)}
    (complies : Complies store.Answers allowed valid part)
    (quiet : ∀ effect, allowed effect → effect.Quiet)
    (permits : ∀ effect, allowed effect → effect.Permitted permitted fun _ => True) (stays : live.Stays store) :
    live.Ends part (fun value after => (valid value ∧ after.Stays store) ∧ live.Follows permitted (fun _ => True) after)
      fun _ after => live.Follows permitted (fun _ => True) after ∧ after.Stays store := by
  have ends := ends_of_complies complies
    (fun after => live.Follows permitted (fun _ => True) after ∧ after.Stays store) ?_ ⟨.refl live, stays⟩
  · exact ends.mono (fun _ _ ⟨given, follows, still⟩ => ⟨⟨given, still⟩, follows⟩) fun _ _ lost => lost
  · rintro effect asks world ⟨follows, still⟩
    obtain ⟨next, answers⟩ := perform_stays (quiet effect asks) still
    exact ⟨⟨follows.trans (perform_follows (permits effect asks) world), next⟩, answers⟩

end Live

section Draws

variable {taken : Node → Prop} {effect : Effect}

/-- The effect has nothing to do with uploads, and gets the content only of what was taken up and is a file. -/
def Effect.Draws (taken : Node → Prop) : Effect → Prop
  | .content location => ∃ node, taken node ∧ node.isFile = true ∧ node.isSink = false ∧ node.location = location
  | .beginUpload _ _ | .writeUpload _ _ | .finishUpload _ => False
  | _ => True

theorem Effect.Inquires.draws {repository : String} (inquires : effect.Inquires repository) : effect.Draws taken := by
  cases effect <;> trivial

theorem Effect.Draws.quiet (draws : effect.Draws taken) : effect.Quiet := by
  cases effect <;> trivial

theorem Effect.draws_serves (taken : Node → Prop) : Serves (Effect.Draws taken) taken where
  sends _ := trivial
  logs _ := trivial
  inquires _ _ _ := Effect.Inquires.draws
  reads node held isFile outside := ⟨node, held, isFile, outside, rfl⟩

end Draws

namespace Node

/-- What a node shows is what the store tells of its place. -/
structure Shows (store : MemoryStore) (node : Node) : Prop where
  file : node.isSink = false → node.isFile = true → node.location.namesDirectory = true →
    store.Has node.location.trimmed
  entries : ∀ metadata, node.metadata = some metadata → ∀ entry ∈ metadata.entries, ∃ place, store.Has place ∧
    MemoryStore.listed? node.location.repository node.location.stem place = some entry

theorem shows_missing (user : String) (location : Location) : (ofRemote user location none).Shows store :=
  ⟨nofun, nofun⟩

theorem fetch_shows (user : String) (location : Location) :
    Complies store.Answers (Effect.Inquires location.repository)
      (fun node => node.Shows store ∧ node.location = location) (fetch user location) := by
  rw [fetch]
  refine Complies.ite (fun _ => ?_) fun _ => ?_
  · have asks : Complies store.Answers (Effect.Inquires location.repository) (fun _ => True)
        (liftM (Action.request .now) : Attempt Instant) := Complies.lift ⟨trivial, fun _ _ => trivial⟩
    refine Complies.bind asks fun now _ => Complies.pure ⟨⟨fun remote => ?_, fun metadata same => ?_⟩, rfl⟩
    · cases remote
    · cases same
      exact List.forall_mem_nil _
  · have found : Complies store.Answers (Effect.Inquires location.repository)
        (fun found => ∀ metadata, found = some metadata → store.Tells location metadata) (fetchMetadata location) := by
      refine Complies.mk ⟨rfl, fun answer tells found same => ?_⟩
      change found? answer = .ok found at same
      cases answer with
      | ok metadata =>
          cases same
          intro given told
          exact tells given (congrArg Except.ok (Option.some.inj told))
      | error fault =>
          rw [found?] at same
          split at same <;> cases same
          intro metadata none
          cases none
    refine Complies.bind found fun found tells => Complies.pure ⟨⟨fun _ isFile names => ?_, ?_⟩, rfl⟩
    · cases found with
      | none => cases isFile
      | some metadata => exact (tells metadata rfl).file (Bool.not_eq_true' _ ▸ isFile) names
    · exact fun metadata same => (tells metadata same).entries

theorem resolve_shows (user text : String) :
    Complies store.Answers (Effect.Inquires (Location.resolve text).repository)
      (fun node => node.Shows store ∧ node.location = Location.resolve text) (resolve user text) := by
  have looked : (lookUp user (Location.resolve text)).Heeds store.Answers
      (Effect.Inquires (Location.resolve text).repository) fun node => node.Shows store ∧
      node.location = Location.resolve text := by
    rw [lookUp]
    apply Action.Heeds.bind (fetch_shows user (Location.resolve text)).heeds
    intro result valid
    cases result with
    | ok node => exact valid node rfl
    | error fault => exact ⟨shows_missing user _, rfl⟩
  exact Complies.refuse fun _ => Complies.lift looked

/-- What a download takes up: a node whose place is named as a directory is at a path of the command, or objects
are below it. -/
structure Taken (store : MemoryStore) (paths : List String) (node : Node) : Prop where
  shows : node.Shows store
  reached : node.location.namesDirectory = true →
    (∃ path ∈ paths, node.location = Location.resolve path) ∨
      ∃ place, store.Has place ∧ node.location.trimmed.Above place

/-- The entries of a directory stand for objects, or for directories that objects are below. -/
theorem entryLocation_cases (shows : node.Shows store) {metadata : Metadata} (seen : node.metadata = some metadata)
    {entry : Entry} (member : entry ∈ metadata.entries) :
    store.Has (node.entryLocation entry) ∨
      ∃ place, store.Has place ∧ (node.entryLocation entry).trimmed.Above place := by
  obtain ⟨place, has, listed⟩ := shows.entries metadata seen entry member
  have within := MemoryStore.repository_of_listed listed
  rw [entryLocation]
  rcases (MemoryStore.listed?_cases listed).2 with ⟨isFile, path⟩ | ⟨isFolder, rest, path⟩
  · have here : node.location.child entry.name = place := by
      rw [Location.child_eq, ← path, String.ofList_toList, ← within]
    rw [if_neg (by rw [isFile]; exact Bool.false_ne_true), here]
    exact .inl has
  · rw [if_pos isFolder]
    refine .inr ⟨place, has, Location.trimmed_above ?_ ?_ ?_⟩
    · rw [Location.childDirectory_eq, String.toList_ofList, List.getLast?_append]
      rfl
    · rw [Location.childDirectory_repository, within]
    · rw [Location.childDirectory_eq, String.toList_ofList, path, List.append_cons _ '/' rest]
      exact List.prefix_append _ _

theorem childrenOf_taken (named : ∀ place, store.Has place → place.namesDirectory = false)
    (shows : node.Shows store) {metadata : Metadata} (seen : node.metadata = some metadata) {entries : List Entry}
    (among : entries ⊆ metadata.entries) :
    (node.childrenOf entries).Heeds store.Answers (Effect.Inquires node.location.repository)
      fun children => ∀ child ∈ children, child.Taken store paths := by
  induction entries with
  | nil => exact List.forall_mem_nil _
  | cons entry rest ih =>
      obtain ⟨first, others⟩ := List.cons_subset.1 among
      rw [childrenOf]
      apply Action.Heeds.bind
        (node.entryLocation_repository entry ▸ (fetch_shows node.user (node.entryLocation entry)).heeds)
      intro result valid
      cases result with
      | error fault => exact ih others
      | ok child =>
          obtain ⟨given, here⟩ := valid child rfl
          have taken : child.Taken store paths := by
            refine ⟨given, fun names => .inr ?_⟩
            rw [here] at names ⊢
            rcases entryLocation_cases shows seen first with has | below
            · rw [named _ has] at names
              cases names
            · exact below
          exact Action.Heeds.bind (ih others) fun children also => List.forall_mem_cons.2 ⟨taken, also⟩

theorem taken_inherits (named : ∀ place, store.Has place → place.namesDirectory = false) (paths : List String) :
    Inherits store.Answers (Effect.Draws (Taken store paths)) (Shows store) (Taken store paths) where
  children node shows := by
    rw [children]
    cases seen : node.metadata with
    | none => exact List.forall_mem_nil _
    | some metadata =>
        exact (childrenOf_taken named shows seen fun _ member => member).mono (fun _ _ given => given)
          (fun _ => Effect.Inquires.draws) fun _ all => all
  listed _ taken := taken.shows
  depth := trivial
  diverges := trivial

end Node

theorem Sender.finds_taken (named : ∀ place, store.Has place → place.namesDirectory = false) (transfer : Transfer)
    (paths : List String) :
    Finds store.Answers (Effect.Draws (Node.Taken store paths)) (Node.Taken store paths) transfer paths := by
  intro path member
  have resolved (text : String) : Complies store.Answers (Effect.Draws (Node.Taken store paths))
      (fun node => node.Shows store ∧ node.location = Location.resolve text)
      (Node.resolve transfer.login.user text) :=
    (Node.resolve_shows transfer.login.user text).weaken fun _ => Effect.Inquires.draws
  refine nodesOf_takes (Node.taken_inherits named paths) transfer (fun _ => ?_) fun _ => ?_
  · exact (resolved path).mono fun node ⟨shows, here⟩ => ⟨shows, fun _ => .inl ⟨path, member, here⟩⟩
  · exact (resolved _).mono fun node ⟨shows, _⟩ => shows

section Receiver

variable {permits : Location → Prop} {granted : String → String → Access → Prop} {receiver : Receiver}
  {byte : UInt8} {progress : Progress Receiver}

/-- If the node is a file in a store, it may be transferred. -/
def Node.Fits (permits : Location → Prop) (node : Node) : Prop :=
  node.isSink = false → node.isFile = true → permits node.location

/-- The directories of a receiver that are files in a store may be transferred as such. -/
def Receiver.Fits (permits : Location → Prop) (receiver : Receiver) : Prop :=
  receiver.level.target.Fits permits ∧ ∀ level ∈ receiver.outer, level.target.Fits permits

namespace Receiver

theorem Steps.fits (steps : Steps granted receiver byte progress) (fits : receiver.Fits permits) :
    progress.Holds (Fits permits) := by
  refine steps.keeps (fun _ directory _ isOpen outside isFile => ?_) fits
  rw [Node.isFile_of_isOpen isOpen outside] at isFile
  cases isFile

/-- A file that is let in is transferred to a place that is permitted, when all places that are named as files are. -/
theorem Opens.permitted (files : ∀ location, location.namesDirectory = false → permits location)
    (fits : receiver.Fits permits) {location : Location} (opens : receiver.Opens granted byte location) :
    permits location := by
  obtain ⟨line, text, header, target, _, _, _, ⟨chosen, named, _⟩, outside, rfl⟩ := opens
  by_cases takes : receiver.level.target.TakesChildren
  · rw [(chosen.below takes).location]
    exact files _ (Location.namesDirectory_child _ (isSegment_of_isFileName named))
  · rw [chosen.here takes] at outside ⊢
    cases names : receiver.level.target.location.namesDirectory with
    | false => exact files _ names
    | true =>
        cases isFile : receiver.level.target.isFile with
        | true => exact fits.1 outside isFile
        | false => exact absurd ⟨isFile, by rw [names, Bool.or_true]⟩ takes

theorem start_shows (transfer : Transfer) (path : String) :
    Complies store.Answers (Effect.Courteous (Location.resolve path).repository)
      (fun receiver => receiver.level.target.Shows store) (start transfer path) := by
  rw [start]
  refine Complies.bind ((Node.resolve_shows transfer.login.user path).weaken
    fun _ => Effect.Inquires.courteous).unlogged ?_
  intro target shows
  apply Complies.refuse
  intro _
  exact Complies.bind sendOk_courteous.unlogged fun _ _ => Complies.pure shows.1

end Receiver

end Receiver

/-- What a session may get and put while the store has these objects: content under a name that does not name a
directory. Under one that does it may if an object has that name without the slashes, and the name is a path of
the command, or a download lists it since other objects are below that object. -/
def MemoryStore.Permits (store : MemoryStore) (command : Command) (location : Location) : Prop :=
  location.namesDirectory = true → store.Has location.trimmed ∧
    ((∃ path ∈ command.paths, location = Location.resolve path) ∨
      command.direction = .source ∧ ∃ place, store.Has place ∧ location.trimmed.Above place)

namespace Session

variable {command : Command} {state : Session × Live (Recorded MemoryStore)}

/-- A session of the command that will make permitted calls only. -/
structure Careful (store : MemoryStore) (command : Command) (state : Session × Live (Recorded MemoryStore)) :
    Prop where
  tidy : Tidy state
  proper : match state.1 with
    | .receiving _ _ receiver => receiver.Fits (store.Permits command)
    | .sending transfer sender => transfer.command = command ∧ command.direction = .source ∧
      state.2.Stays store ∧ sender.Bears (Node.Taken store command.paths) command.paths
    | .ended _ => True

/-- The calls of the command's session on the store. -/
abbrev Transfers (store : MemoryStore) (command : Command) (call : Call) : Prop :=
  store.Permits command call.location

theorem feed_careful (named : ∀ place, store.Has place → place.namesDirectory = false)
    (careful : Careful store command state) (byte : UInt8) :
    Careful store command (feed byte state) ∧
      state.2.Follows (Transfers store command) (fun _ => True) (feed byte state).2 := by
  obtain ⟨session, live⟩ := state
  obtain ⟨tidy, proper⟩ := careful
  cases session with
  | receiving transfer mark receiver =>
      have fits : receiver.Fits (store.Permits command) := proper
      have permits (effect : Effect) (asks : receiver.Asks (fun _ _ _ => True) byte effect) :
          effect.Permitted (Transfers store command) fun _ => True := by
        cases effect with
        | beginUpload location properties =>
            have opens : receiver.Opens (fun _ _ _ => True) byte location := asks
            exact opens.permitted (fun _ names directory => by rw [names] at directory; cases directory) fits
        | content location => exact asks.elim
        | _ => trivial
      obtain ⟨follows, outcome⟩ := @carryOut_follows _ _ live _ _ _ _ _ _ (ofProgress (receiving transfer mark)) _ _
        (receiver.push_steps vouches_anyAnswer transfer byte).of_attempts permits (fun _ _ => trivial)
        (receiver.push_tidies tidy transfer byte) transfer
      refine ⟨?_, follows⟩
      rw [feed]
      rcases outcome with ⟨progress, last, steps, tidies, same⟩ | ⟨result, last, idle, same⟩
      · rw [same]
        have goesOn := steps.fits fits
        cases progress with
        | waiting next => exact ⟨tidies, goesOn⟩
        | _ => exact ⟨tidies.1, trivial⟩
      · rw [same]
        exact ⟨idle, trivial⟩
  | sending transfer sender =>
      obtain ⟨rfl, source, stays, bears⟩ := proper
      have permits (effect : Effect) (draws : effect.Draws (Node.Taken store transfer.command.paths)) :
          effect.Permitted (Transfers store transfer.command) fun _ => True := by
        cases effect with
        | content location =>
            obtain ⟨node, taken, isFile, outside, rfl⟩ := draws
            exact fun names =>
              ⟨taken.shows.file outside isFile names, (taken.reached names).imp_right fun below => ⟨source, below⟩⟩
        | beginUpload location properties => exact draws.elim
        | _ => trivial
      have complies := sender.push_bears (Effect.draws_serves _) (Node.taken_inherits named _)
        (Sender.finds_taken named transfer _) bears byte
      have ends := (Live.stays_of_complies complies (fun _ draws => draws.quiet) permits stays).mono
        (fun _ _ ended => ended) fun _ after lost =>
          (⟨lost.1, .inl lost.2.idle⟩ : _ ∧ after.gateway.AtMostSince live.gateway.nextUpload)
      obtain ⟨follows, outcome⟩ := @carryOut_follows_of_ends _ _ live _ _ _ _ (ofProgress (sending transfer)) _ _
        ends (fun _ _ => trivial) transfer
      refine ⟨?_, follows⟩
      rw [feed]
      rcases outcome with ⟨progress, last, ⟨bears, still⟩, same⟩ | ⟨result, last, idle, same⟩
      · rw [same]
        cases progress with
        | waiting next => exact ⟨still.idle, rfl, source, still, bears⟩
        | _ => exact ⟨still.idle, trivial⟩
      · rw [same]
        exact ⟨idle, trivial⟩
  | ended result => exact ⟨⟨tidy, proper⟩, .refl live⟩

theorem feedAll_careful (named : ∀ place, store.Has place → place.namesDirectory = false)
    (careful : Careful store command state) (input : List UInt8) :
    Careful store command (feedAll input state) ∧
      state.2.gateway.Follows (Transfers store command) (feedAll input state).2.gateway := by
  induction input generalizing state with
  | nil => exact ⟨careful, .refl _⟩
  | cons byte rest ih =>
      obtain ⟨next, follows⟩ := feed_careful named careful byte
      obtain ⟨last, further⟩ := ih next
      exact ⟨last, follows.gateway.trans further⟩

theorem start_careful {live : Live (Recorded MemoryStore)} (login : Login) {line : String}
    (parsed : Command.parse line = .ok command) (stays : live.Stays store) :
    Careful store command (start login line live) ∧
      live.Follows (Transfers store command) (fun _ => True) (start login line live).2 := by
  cases direction : command.direction with
  | source =>
      rw [start_source parsed direction]
      exact ⟨⟨stays.idle, rfl, direction, stays, Sender.start_bears (login.transfer command _)⟩, .refl live⟩
  | sink =>
      rw [start_sink parsed direction]
      generalize login.transfer command live.gateway.settings = transfer
      have begins := @Receiver.start_begins Action.anyAnswer transfer (command.paths.headD "")
      have idle := Live.idle_of_attempts (begins.weaken fun _ => Effect.Courteous.quiet)
        ⟨stays.idle, Nat.le_refl live.gateway.nextUpload⟩
      have permits (effect : Effect)
          (courteous : effect.Courteous (Location.resolve (command.paths.headD "")).repository) :
          effect.Permitted (Transfers store command) fun _ => True :=
        courteous.permitted.mono fun _ _ => trivial
      have shown := Live.stays_of_complies (Receiver.start_shows transfer (command.paths.headD ""))
        (fun _ courteous => courteous.quiet) permits stays
      have ends : live.Ends (Receiver.start transfer (command.paths.headD ""))
          (fun receiver after => ((receiver.Begins transfer (command.paths.headD "") ∧
              receiver.level.target.Shows store) ∧ after.gateway.Idle live.gateway.nextUpload) ∧
            live.Follows (Transfers store command) (fun _ => True) after)
          fun _ after => live.Follows (Transfers store command) (fun _ => True) after ∧
            after.gateway.AtMostSince live.gateway.nextUpload :=
        (shown.and idle).mono
          (fun _ _ ⟨⟨⟨shows, _⟩, follows⟩, begun, idle⟩ => ⟨⟨⟨begun, shows⟩, idle⟩, follows⟩)
          fun _ _ ⟨⟨follows, _⟩, atMost⟩ => ⟨follows, atMost⟩
      obtain ⟨follows, outcome⟩ := @carryOut_follows_of_ends _ _ live _ _ _ _
        (receiving transfer live.gateway.nextUpload) _ _ ends (fun _ _ => trivial) transfer
      refine ⟨?_, follows⟩
      rcases outcome with ⟨receiver, last, ⟨⟨begun, shows⟩, idle⟩, same⟩ | ⟨result, last, idle, same⟩
      · rw [same]
        refine ⟨Receiver.tidy_of_idle idle fun file body => ?_, ⟨fun outside isFile names => ?_, ?_⟩⟩
        · cases begun.phase.symm.trans body
        · exact ⟨shows.file outside isFile names, .inl ⟨_, Command.first_mem parsed, begun.target.location⟩⟩
        · exact begun.outer ▸ List.forall_mem_nil _
      · rw [same]
        exact ⟨idle, trivial⟩

/-- A session transfers content under the names of files, except where a path that names a directory is, without
the slashes at its end, that of an object: then the store tells of a file there, and the session transfers it
under the path as it is. That happens only at a path of the command, and to a download at an object that others
are below. So if no object is a directory on the way to another one, and no path of the command is that of an
object with slashes after it, all content is transferred under the names of files. -/
theorem transfers_name_files {origin : Gateway (Recorded MemoryStore)} {line : String}
    (parsed : Command.parse line = .ok command) (idle : origin.uploads = [])
    (named : ∀ place, origin.store.store.Has place → place.namesDirectory = false) (login : Login)
    (input : List UInt8) (ending : Ending) (outlet : Outlet) :
    let store := origin.store.store
    let after := (run login line input ending { gateway := origin, outlet }).2.gateway
    Recorded.CallsOnly (Transfers store command) origin.store after.store ∧
      ((command.direction = .sink ∨ store.IsTree) →
        (∀ path ∈ command.paths, (Location.resolve path).namesDirectory = true →
          ¬store.Has (Location.resolve path).trimmed) →
        Recorded.CallsOnly (fun call => call.location.namesDirectory = false) origin.store after.store) := by
  intro store after
  have begun := start_careful login parsed (⟨idle, rfl⟩ : Live.Stays store { gateway := origin, outlet })
  obtain ⟨careful, fed⟩ := feedAll_careful named begun.1 input
  have finished : (feedAll input (start login line { gateway := origin, outlet })).2.gateway.Follows
      (Transfers store command) after := by
    have closed : (feedAll input (start login line { gateway := origin, outlet })).2.Follows
        (Transfers store command) IsReport _ := (finish_closes careful.tidy ending).2
    rw [← run_eq_finish] at closed
    exact closed.gateway
  have follows := (begun.2.gateway.trans fed).trans finished
  have calls := Recorded.callsOnly_of_reaches (follows.store (Gateway.guarded_of_idle idle))
  refine ⟨calls, fun plain free => calls.mono fun call permitted => ?_⟩
  cases names : call.location.namesDirectory with
  | false => rfl
  | true =>
      obtain ⟨has, ⟨path, among, same⟩ | ⟨source, place, below, above⟩⟩ := permitted names
      · rw [same] at names has
        exact absurd has (free path among names)
      · rcases plain with sink | tree
        · exact absurd (sink.symm.trans source) nofun
        · exact absurd above (tree _ has _ below)

/-- A directory is fetched that has a file and a directory in it; the command names it with a slash. -/
theorem transfers_name_files_of_directory :
    let objects : SortedMap Location StoredObject :=
      (SortedMap.empty.insert ⟨"libs", "d/a"⟩ ⟨[104, 105], .empty, ⟨0, 0⟩⟩).insert ⟨"libs", "d/e/b"⟩
        ⟨[33], .empty, ⟨0, 0⟩⟩
    let origin : Gateway (Recorded MemoryStore) :=
      Gateway.new {} { store := { objects } } (fun _ _ _ => true) ⟨0, 0⟩
    let after := (run ⟨"ann", "::1", .empty⟩ "scp -r -f libs/d/" (List.replicate 9 0) .closed
      { gateway := origin, outlet := {} }).2.gateway
    after.store.calls = [.content ⟨"libs", "d/a"⟩, .content ⟨"libs", "d/e/b"⟩] ∧
      Recorded.CallsOnly (fun call => call.location.namesDirectory = false) origin.store after.store := by
  intro objects origin after
  have parsed : Command.parse "scp -r -f libs/d/" = .ok ⟨.source, true, false, false, false, ["libs/d/"]⟩ := by
    decide +kernel
  have named : ∀ place ∈ origin.store.store.objects.keys, place.namesDirectory = false := by decide +kernel
  have tree : origin.store.store.IsTree := by decide +kernel
  refine ⟨by decide +kernel, ?_⟩
  refine (transfers_name_files parsed (by rfl) named ⟨"ann", "::1", .empty⟩ _ .closed {}).2 (.inr tree) ?_
  decide +kernel

/-- An object is at a path, and a command names that path with a slash. An upload is stored beside the object that
it should replace; a download comes to a good end and sends nothing of the object. -/
theorem slash_parts_transfer_from_object :
    let objects : SortedMap Location StoredObject :=
      SortedMap.empty.insert ⟨"libs", "a"⟩ ⟨Text.encode "old", .empty, ⟨0, 0⟩⟩
    let origin : Gateway (Recorded MemoryStore) :=
      Gateway.new {} { store := { objects } } (fun _ _ _ => true) ⟨0, 0⟩
    let stored := (run ⟨"alice", "10.0.0.7", .empty⟩ "scp -t /libs/a/" (Text.encode "C0644 3 a\nnew" ++ [0]) .closed
      { gateway := origin }).2.gateway.store
    let fetched := run ⟨"alice", "10.0.0.7", .empty⟩ "scp -f /libs/a/" [0, 0, 0] .closed { gateway := origin }
    (∀ place ∈ origin.store.store.objects.keys, place.namesDirectory = false) ∧
      stored.calls = [.put ⟨"libs", "a/"⟩] ∧
      stored.store.objects.entries.map (fun entry => (entry.1, entry.2.bytes)) =
        [(⟨"libs", "a"⟩, Text.encode "old"), (⟨"libs", "a/"⟩, Text.encode "new")] ∧
      fetched.1.isOk = true ∧ fetched.2.gateway.store.calls = [.content ⟨"libs", "a/"⟩] ∧
      fetched.2.outlet.taken.toList = Text.encode "C0644 0 a\n" ++ [0] := by
  decide +kernel

end Session

end ArtifactGate
