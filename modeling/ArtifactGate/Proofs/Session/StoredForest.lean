import Mathlib.Data.List.Nodup
import ArtifactGate.Proofs.Session.ReceivingForest

/-!
A recursive upload stores the client's tree: every file at the names that were sent, with its bytes, and
nothing else.
-/
namespace ArtifactGate

namespace Forest

theorem deposits_nodup (transfer : Transfer) {forest : Forest} (distinct : forest.Distinct) (location : Location) :
    ((forest.deposits transfer location).map Deposit.location).Nodup := by
  have placed := congrArg (List.map Prod.fst) (deposits_files transfer distinct location)
  rw [List.map_map] at placed
  exact placed ▸ descend_nodup distinct location

theorem held_perm {transfer : Transfer} {forest : Forest} (distinct : forest.Distinct) {location : Location}
    {before after : MemoryStore} (holds : before.Holds (forest.deposits transfer location) after)
    (empty : before.held location.repository = []) :
    (after.held location.repository).Perm
      (forest.files.map fun file => (location.descend file.1, file.2)) := by
  have apart := deposits_nodup transfer distinct location
  rw [← deposits_files transfer distinct]
  refine (List.perm_ext_iff_of_nodup (after.held_nodup _) ?_).2 ?_
  · refine List.pairwise_map.2 ((List.pairwise_map.1 apart).imp fun differs same => differs ?_)
    exact congrArg Prod.fst same
  · rintro ⟨place, bytes⟩
    rw [MemoryStore.mem_held, holds.1, List.mem_map]
    constructor
    · rintro ⟨within, object, found, rfl⟩
      rcases (MemoryStore.get?_of_distinct apart).1 found with ⟨deposit, member, rfl, rfl⟩ | ⟨_, kept⟩
      · exact ⟨deposit, member, rfl⟩
      · have old := MemoryStore.mem_held.2 ⟨within, object, kept, rfl⟩
        rw [empty] at old
        cases old
    · rintro ⟨deposit, member, same⟩
      cases same
      exact ⟨(covers_of_mem_deposits transfer distinct location member).1, _,
        (MemoryStore.get?_of_distinct apart).2 (.inl ⟨deposit, member, rfl, rfl⟩), rfl⟩

end Forest

namespace Session

variable {login : Login} {line : String} {command : Command} {live : Live MemoryStore} {location : Location}

/-- A transfer of a login's command, with what the environment gives to it. -/
def transferOf (login : Login) (command : Command) (live : Live MemoryStore) : Transfer :=
  { login, command
    properties := Gateway.environmentProperties live.gateway.settings login.environment }

theorem vacant_of_held_nil {store : MemoryStore} (empty : store.held location.repository = []) :
    store.Vacant location := by
  intro entry member within _
  have listed := MemoryStore.mem_held.2 ⟨within, entry.2, SortedMap.get?_eq_some.2 member, rfl⟩
  rw [empty] at listed
  cases listed

theorem start_receiving (parsed : Command.parse line = .ok command) (sink : command.direction = .sink)
    (resolved : Location.resolve (command.paths.headD "") = location) (named : location.isEmpty = false)
    (outside : location.isSink = false) (directory : location.namesDirectory = true)
    (receives : live.Receives login.user location.repository)
    (empty : live.gateway.store.held location.repository = []) :
    ∃ target after, target.location = location ∧ target.Takes login.user location.repository ∧
      live.Asks [Wire.okStatus] [] after ∧ start login line live =
        (.receiving (transferOf login command live) live.gateway.nextUpload ⟨{ target }, [], .control⟩,
          after) := by
  subst resolved
  have missing : live.gateway.nodeAt login.user (Location.resolve (command.paths.headD "")) =
      .ofRemote login.user (Location.resolve (command.paths.headD "")) none := by
    rw [Gateway.nodeAt, Gateway.described_of_namesDirectory directory,
      MemoryStore.describe_vacant (vacant_of_held_nil empty)]
    rfl
  have accepted : live.Gives (Receiver.start (transferOf login command live) (command.paths.headD ""))
      fun receiver after => live.Asks [Wire.okStatus] [] after ∧ receiver =
        ⟨⟨.ofRemote login.user (Location.resolve (command.paths.headD "")) none, none⟩, [], .control⟩ := by
    rw [Receiver.start]
    apply (Live.gives_resolve receives.reliable named outside login.user).adapt.bind
    rintro target found ⟨known, asks⟩
    rw [missing] at known
    subst known
    apply Live.Gives.accepted (by simp [Node.ofRemote, Node.isDirectory])
    apply (Live.gives_sendOk (asks.receives receives).unlimited).adapt.bind
    intro _ after answered
    exact Live.Gives.pure ⟨asks.trans answered, rfl⟩
  obtain ⟨receiver, after, started, asks, rfl⟩ := carryOut_gives (transferOf login command live)
    live.gateway.nextUpload (.receiving (transferOf login command live) live.gateway.nextUpload) accepted
  have takes : (Node.ofRemote login.user (Location.resolve (command.paths.headD "")) none).Takes login.user
      (Location.resolve (command.paths.headD "")).repository :=
    ⟨⟨rfl, rfl, ne_of_beq_false outside⟩, rfl, directory, rfl⟩
  refine ⟨_, after, rfl, takes, asks, ?_⟩
  rw [start, parsed]
  simp only [sink]
  exact started

theorem finish_control {transfer : Transfer} {mark : Nat} {level : Level} {outer : List Level} :
    finish .closed (.receiving transfer mark ⟨level, outer, .control⟩, live) = (.ended (.ok ()), live) := by
  have ended : live.Gives (Receiver.atEnd transfer ⟨level, outer, .control⟩) fun _ after => after = live :=
    Live.Gives.pure rfl
  obtain ⟨_, after, carried, rfl⟩ := carryOut_gives transfer mark (fun _ => .ended (.ok ())) ended
  exact carried

/-- A client that sends a forest to a directory of an empty repository has it stored there: the session
ends well, the repository holds each file at the names that were sent and nothing else, and no other
repository has changed. -/
theorem upload_stores_forest (parsed : Command.parse line = .ok command) (sink : command.direction = .sink)
    (recursive : command.recursive = true)
    (resolved : Location.resolve (command.paths.headD "") = location) (named : location.isEmpty = false)
    (outside : location.isSink = false) (directory : location.namesDirectory = true)
    (receives : live.Receives login.user location.repository)
    (empty : live.gateway.store.held location.repository = []) {forest : Forest} (valid : forest.Valid) :
    (run login line forest.encode .closed live).1 = .ok () ∧
      let store := (run login line forest.encode .closed live).2.gateway.store
      (store.held location.repository).Perm
        (forest.files.map fun file => (location.descend file.1, file.2)) ∧
      ∀ place, place.repository ≠ location.repository →
        store.objects.get? place = live.gateway.store.objects.get? place := by
  obtain ⟨target, started, rfl, takes, asks, start_eq⟩ :=
    start_receiving parsed sink resolved named outside directory receives empty
  have vacant : ∀ name ∈ forest.names, started.gateway.store.Vacant (target.location.child name) := by
    intro name _
    refine asks.consulted.vacant (vacant_of_held_nil ?_)
    rw [Location.child_repository]
    exact empty
  let stored (session : Session) (after : Live MemoryStore) : Prop :=
    (∃ transfer mark level outer, session = .receiving transfer mark ⟨level, outer, .control⟩) ∧
      Gains live.gateway.store (forest.deposits (transferOf login command live) target.location)
        after.gateway.store
  have follows : Follows (.receiving target.location.repository) stored
      (forest.beats (transferOf login command live) target.location ++ [])
      (.receiving (transferOf login command live) live.gateway.nextUpload ⟨{ target }, [], .control⟩) started := by
    apply Receiver.follows_forest recursive valid takes (asks.receives receives) vacant
    intro after _ gains gateway consulted
    exact ⟨⟨_, _, _, _, rfl⟩,
      gains_then_nothing (nothing_then_gains asks.consulted.gains gains) consulted.gains⟩
  obtain ⟨_, after, fed, _, _, ⟨transfer, mark, level, outer, rfl⟩, gains⟩ := follows.feedAll
  rw [List.append_nil, Forest.bytes_beats] at fed
  have ended : run login line forest.encode .closed live = (.ok (), after) := by
    rw [run, start_eq, fed, finish_control]
  rw [ended]
  refine ⟨rfl, Forest.held_perm valid.distinct gains empty, ?_⟩
  intro place elsewhere
  obtain ⟨objects, _⟩ : live.gateway.store.Holds _ after.gateway.store := gains
  rw [objects]
  rcases MemoryStore.get?_of_deposits live.gateway.store.now
    (forest.deposits (transferOf login command live) target.location) live.gateway.store.objects place with
    kept | ⟨deposit, member, rfl, _⟩
  · exact kept
  · exact absurd (Forest.covers_of_mem_deposits _ valid.distinct _ member).1 elsewhere

/-- A file and, in a directory, an empty one, with a warning between them. -/
theorem upload_stores_forest_of_two_files :
    let live : Live MemoryStore := { gateway := Gateway.new {} {} (fun _ _ _ => true) ⟨0, 0⟩ }
    let forest : Forest := .file ⟨"a", "0644", none⟩ [104, 105] (.warning "slow"
      (.directory ⟨"d", "0755", some ⟨7, 8⟩⟩ (.file ⟨"b.md5", "0600", none⟩ [] .nil) .nil))
    (run ⟨"ann", "::1", .empty⟩ "scp -r -t libs/x/" forest.encode .closed live).1 = .ok () ∧
      ((run ⟨"ann", "::1", .empty⟩ "scp -r -t libs/x/" forest.encode .closed live).2.gateway.store.held
        "libs").Perm [(⟨"libs", "x/a"⟩, [104, 105]), (⟨"libs", "x/d/b.md5"⟩, [])] := by
  intro live forest
  have parsed : Command.parse "scp -r -t libs/x/" =
      .ok ⟨.sink, true, false, false, false, ["libs/x/"]⟩ := by decide +kernel
  have resolved : Location.resolve "libs/x/" = ⟨"libs", "x/"⟩ := by decide +kernel
  have octal (permissions : String) (a b c d : Char) (digits : permissions.toList = [a, b, c, d])
      (octal : [a, b, c, d].all Wire.Header.isOctal = true) : Wire.Header.OctalPermissions permissions :=
    ⟨a, b, c, d, digits, octal⟩
  have valid : forest.Valid := by
    refine ⟨⟨rfl, by decide, octal _ _ _ _ _ rfl rfl, nofun, by decide, by decide +kernel⟩, by decide,
      ⟨by decide, by decide +kernel⟩, ⟨rfl, by decide, octal _ _ _ _ _ rfl rfl, ?_, by decide,
      by decide +kernel⟩, ⟨⟨rfl, by decide, octal _ _ _ _ _ rfl rfl, nofun, by decide, by decide +kernel⟩,
      by decide, trivial⟩, by decide, trivial⟩
    rintro times same
    obtain rfl := Option.some.inj same
    exact ⟨⟨by decide, by decide⟩, by decide, by decide⟩
  have places : forest.files.map (fun file => (Location.descend ⟨"libs", "x/"⟩ file.1, file.2)) =
      [(⟨"libs", "x/a"⟩, [104, 105]), (⟨"libs", "x/d/b.md5"⟩, [])] := by decide +kernel
  have receives : live.Receives "ann" "libs" :=
    ⟨⟨rfl, rfl, rfl⟩, ⟨rfl, by decide, rfl, ⟨rfl, nofun⟩, nofun⟩⟩
  have stored := @upload_stores_forest ⟨"ann", "::1", .empty⟩ _ _ live ⟨"libs", "x/"⟩ parsed rfl rfl resolved
    (by decide) (by decide) (by decide) receives rfl forest valid
  rw [places] at stored
  exact ⟨stored.1, stored.2.1⟩

end Session

end ArtifactGate
