import ArtifactGate.Proofs.Session.AnsweredForest
import ArtifactGate.Proofs.Session.SentForest

/-!
A directory is copied when a download of it and an upload are connected back to back: whatever one of the two waits
for the other sends, and what is stored in the end is what the store keeps below the directory.
-/
namespace ArtifactGate

/-- A receiver takes the names that are sent of a directory: its own, those of the files below it and those of
the directories on the way to them. -/
structure MemoryStore.Portable (store : MemoryStore) (source : Location) : Prop where
  own : Label.Valid ⟨source.name, directoryPermissions, none⟩ 0
  directories : ∀ file ∈ store.below source, ∀ name ∈ (source.namesTo file.1).dropLast,
    Label.Valid ⟨name, directoryPermissions, none⟩ 0
  files : ∀ file ∈ store.below source, ∀ name ∈ (source.namesTo file.1).getLast?,
    Label.Valid ⟨name, filePermissions, none⟩ file.2.length

theorem Label.Valid.timed {name permissions : String} {length : Nat} {times : Option Wire.Timestamps}
    (valid : Label.Valid ⟨name, permissions, none⟩ length)
    (inRange : ∀ stamps, times = some stamps → stamps.InRange) :
    Label.Valid ⟨name, permissions, times⟩ length :=
  ⟨valid.named, valid.unbroken, valid.octal, inRange, valid.bounded, valid.short⟩

namespace Forest

variable {forest : Forest} {gateway : Gateway MemoryStore} {times : Metadata → Option Wire.Timestamps}
  {source : Location}

theorem valid_of_files (kept : forest.Kept gateway times source) (distinct : forest.Distinct)
    (inRange : ∀ place metadata stamps, gateway.described place = .ok metadata → times metadata = some stamps →
      stamps.InRange)
    (directories : ∀ file ∈ forest.files, ∀ name ∈ file.1.dropLast,
      Label.Valid ⟨name, directoryPermissions, none⟩ 0)
    (files : ∀ file ∈ forest.files, ∀ name ∈ file.1.getLast?,
      Label.Valid ⟨name, filePermissions, none⟩ file.2.length) : forest.Valid := by
  induction forest generalizing source with
  | nil => trivial
  | warning text rest ih => exact kept.elim
  | file label bytes rest ih =>
      obtain ⟨⟨metadata, described, _, same⟩, _, restKept⟩ := kept
      obtain ⟨_, fresh, distinctRest⟩ := distinct
      refine ⟨?_, fresh, ih restKept distinctRest
        (fun file member => directories file (List.mem_cons_of_mem _ member))
        fun file member => files file (List.mem_cons_of_mem _ member)⟩
      rw [same]
      exact (files _ List.mem_cons_self _ rfl).timed fun stamps => inRange _ metadata stamps described
  | directory label inside rest ihInside ih =>
      obtain ⟨⟨metadata, described, isDirectory, entries, same⟩, insideKept, restKept⟩ := kept
      obtain ⟨_, distinctInside, fresh, distinctRest⟩ := distinct
      have listing : inside.entries ≠ [] := entries ▸ Gateway.entries_ne_nil_of_folder described isDirectory
      have among {file : List String × List UInt8} (member : file ∈ inside.files) :
          (label.name :: file.1, file.2) ∈ (Forest.directory label inside rest).files :=
        List.mem_append_left _ (List.mem_map_of_mem (f := fun file => (label.name :: file.1, file.2)) member)
      have below {file : List String × List UInt8} (member : file ∈ inside.files) : file.1 ≠ [] := by
        obtain ⟨first, names, split, _⟩ := names_of_mem_files distinctInside member
        exact split ▸ List.cons_ne_nil _ _
      refine ⟨?_, ihInside insideKept distinctInside (fun file member name listed => ?_)
        (fun file member name last => ?_), fresh, ih restKept distinctRest
        (fun file member => directories file (List.mem_append_right _ member))
        fun file member => files file (List.mem_append_right _ member)⟩
      · obtain ⟨file, member⟩ := List.exists_mem_of_ne_nil _ (files_ne_nil_of_kept insideKept listing)
        have first : label.name ∈ (label.name :: file.1).dropLast := by
          rw [List.dropLast_cons_of_ne_nil (below member)]
          exact List.mem_cons_self
        rw [same]
        exact (directories _ (among member) _ first).timed fun stamps => inRange _ metadata stamps described
      · apply directories _ (among member) name
        rw [List.dropLast_cons_of_ne_nil (below member)]
        exact List.mem_cons_of_mem _ listed
      · apply files _ (among member) name
        rw [List.getLast?_cons_of_ne_nil (below member)]
        exact last

theorem exists_deposit (kept : forest.Kept gateway times source) (distinct : forest.Distinct)
    {file : List String × List UInt8} (member : file ∈ forest.files) (transfer : Transfer) (target : Location) :
    ∃ deposit ∈ forest.deposits transfer target, deposit.location = target.descend file.1 ∧
      deposit.bytes = file.2 ∧ ∃ name metadata, gateway.described (source.descend file.1) = .ok metadata ∧
        deposit.properties = Label.properties ⟨name, filePermissions, times metadata⟩ transfer file.2.length := by
  induction forest generalizing source target file with
  | nil => cases member
  | warning text rest ih => exact kept.elim
  | file label bytes rest ih =>
      obtain ⟨⟨metadata, described, _, same⟩, _, restKept⟩ := kept
      rcases List.mem_cons.1 member with rfl | member
      · refine ⟨_, List.mem_cons_self, (target.descend_singleton label.name).symm, rfl, label.name, metadata, ?_, ?_⟩
        · rw [Location.descend_singleton]
          exact described
        · exact congrArg (fun label => Label.properties label transfer bytes.length) same
      · obtain ⟨deposit, among, rest⟩ := ih restKept distinct.2.2 member target
        exact ⟨deposit, List.mem_cons_of_mem _ among, rest⟩
  | directory label inside rest ihInside ih =>
      obtain ⟨_, insideKept, restKept⟩ := kept
      obtain ⟨segment, distinctInside, _, distinctRest⟩ := distinct
      rcases List.mem_append.1 member with member | member
      · obtain ⟨inner, within, rfl⟩ := List.mem_map.1 member
        obtain ⟨first, names, split, _⟩ := names_of_mem_files distinctInside within
        have some : inner.1 ≠ [] := split ▸ List.cons_ne_nil _ _
        obtain ⟨deposit, among, place, rest⟩ :=
          ihInside insideKept distinctInside within (target.childDirectory label.name)
        rw [← Location.descend_cons segment some] at place rest
        exact ⟨deposit, List.mem_append_left _ among, place, rest⟩
      · obtain ⟨deposit, among, rest⟩ := ih restKept distinctRest member target
        exact ⟨deposit, List.mem_append_right _ among, rest⟩

end Forest

theorem Label.modified_properties {label : Label} {transfer : Transfer} {stamps : Wire.Timestamps}
    (preserve : transfer.command.preserve = true) (times : label.times = some stamps) (length : Nat) :
    (label.properties transfer length).get? modifiedProperty = some (toString stamps.modified) := by
  rw [properties, SortedMap.get?_insert_of_ne _ (by decide), SortedMap.get?_insertAll_empty]
  simp only [Receiver.fileProperties, preserve, times]
  rw [SortedMap.get?_insert_of_ne _ (by decide), SortedMap.get?_insert_of_ne _ (by decide),
    SortedMap.get?_insert_self]

namespace Location

/-- Where a place below a directory comes to lie when the directory is copied into another. -/
def relocate (source target place : Location) : Location :=
  { repository := target.repository
    path := String.ofList
      (target.stem ++ source.name.toList ++ '/' :: place.path.toList.drop source.stem.length) }

theorem relocate_descend {source target : Location} {names : List String} (some : names ≠ []) :
    source.relocate target (source.descend names) = target.descend (source.name :: names) := by
  rw [relocate, descend_eq some, descend_eq (List.cons_ne_nil _ _), String.toList_ofList, List.drop_left,
    String.intercalate_cons_of_ne_nil some]
  simp only [String.toList_append, List.append_assoc]
  rfl

end Location

def Instant.InRange (moment : Instant) : Prop :=
  -Text.int64Bound ≤ moment.seconds ∧ moment.seconds < Text.int64Bound

/-- The clocks of a gateway and its store, now and when each object was created. -/
structure Gateway.Timely (gateway : Gateway MemoryStore) : Prop where
  now : gateway.now.InRange
  storeNow : gateway.store.now.InRange
  created : ∀ location object, gateway.store.objects.get? location = some object → object.created.InRange

theorem Gateway.Timely.moment {gateway : Gateway MemoryStore} (timely : gateway.Timely) {location : Location}
    {metadata : Metadata} (described : gateway.described location = .ok metadata) :
    ∃ moment, moment.InRange ∧ metadata.modified = some moment ∧ metadata.updated = some moment := by
  rw [Gateway.described] at described
  split at described
  · cases described
    exact ⟨_, timely.now, rfl, rfl⟩
  · simp only [MemoryStore.describe] at described
    split at described
    · cases described
      exact ⟨_, timely.created _ _ ‹_›, rfl, rfl⟩
    · split at described <;> cases described
      exact ⟨_, timely.storeNow, rfl, rfl⟩

theorem Transfer.timesOf_described {transfer : Transfer} {gateway : Gateway MemoryStore} (timely : gateway.Timely)
    {location : Location} {metadata : Metadata} (described : gateway.described location = .ok metadata) :
    ∃ moment, moment.InRange ∧ metadata.modified = some moment ∧ transfer.timesOf metadata =
      if transfer.command.preserve then some ⟨moment.seconds, moment.seconds⟩ else none := by
  obtain ⟨moment, inRange, modified, updated⟩ := timely.moment described
  refine ⟨moment, inRange, modified, ?_⟩
  rw [timesOf, modified, updated]
  rfl

/-- Two command lines that copy a directory into another, both with times or both without. The one asks for a
directory that the store keeps in good order, under names that a receiver takes; the other offers to take it into
a repository that is empty. Both may do so, and no call fails. -/
structure Copying (download upload : Login × String) (asking taking : Command) (gateway : Gateway MemoryStore)
    (source target : Location) : Prop where
  asks : Command.parse download.2 = .ok asking
  takes : Command.parse upload.2 = .ok taking
  isSource : asking.direction = .source
  isSink : taking.direction = .sink
  recursive : asking.recursive = true
  recursiveToo : taking.recursive = true
  alike : asking.preserve = taking.preserve
  literal : ∃ path, asking.paths = [path] ∧ Glob.hasGlob path = false ∧ Location.resolve path = source
  sourceNamed : source.isEmpty = false
  sourceOutside : source.isSink = false
  sourceDirectory : source.namesDirectory = true
  resolved : Location.resolve (taking.paths.headD "") = target
  targetNamed : target.isEmpty = false
  targetOutside : target.isSink = false
  targetDirectory : target.namesDirectory = true
  described : ∃ metadata, gateway.store.describe source = .ok metadata ∧ metadata.isDirectory = true
  arranged : gateway.store.Arranged source.repository
  portable : gateway.store.Portable source
  announced : ∀ place, place.repository = source.repository → gateway.store.announced.get? place = none
  empty : gateway.store.held target.repository = []
  readable : gateway.authorizer source.repository download.1.user .read = true
  writable : gateway.authorizer target.repository upload.1.user .write = true
  reliable : gateway.store.failuresPending = 0
  ready : gateway.Ready
  timely : gateway.Timely

namespace Copying

variable {download upload : Login × String} {asking taking : Command} {gateway : Gateway MemoryStore}
  {source target : Location}

theorem apart (copying : Copying download upload asking taking gateway source target) :
    source.repository ≠ target.repository := by
  intro same
  obtain ⟨metadata, described, isDirectory⟩ := copying.described
  have some := Gateway.entries_ne_nil described isDirectory
  rw [Gateway.entries_of_described described isDirectory] at some
  obtain ⟨entry, member⟩ := List.exists_mem_of_ne_nil _ some
  obtain ⟨file, below, _⟩ := MemoryStore.exists_of_mem_entriesOf member
  have kept := (MemoryStore.mem_below.1 below).1
  rw [same, copying.empty] at kept
  cases kept

theorem exists_forest (copying : Copying download upload asking taking gateway source target)
    (transfer : Transfer) :
    ∃ metadata, ∃ forest : Forest, gateway.described source = .ok metadata ∧ metadata.isDirectory = true ∧
      metadata.entries = forest.entries ∧ forest.Kept gateway transfer.timesOf source ∧ forest.Distinct ∧
      (forest.files.map fun file => (source.descend file.1, file.2)).Perm (gateway.store.below source) ∧
      (Forest.directory ⟨source.name, directoryPermissions, transfer.timesOf metadata⟩ forest .nil).Valid := by
  obtain ⟨metadata, described, isDirectory⟩ := copying.described
  obtain ⟨forest, entries, kept, ascending, perm⟩ :=
    Forest.exists_kept_below transfer.timesOf described isDirectory copying.arranged copying.announced
  have known := (Gateway.described_of_namesDirectory copying.sourceDirectory).trans described
  have inRange (place : Location) (metadata : Metadata) (stamps : Wire.Timestamps)
      (described : gateway.described place = .ok metadata) (times : transfer.timesOf metadata = some stamps) :
      stamps.InRange := by
    obtain ⟨moment, inRange, _, moments⟩ := @Transfer.timesOf_described transfer _ copying.timely _ _ described
    rw [moments] at times
    split at times
    · cases times
      exact ⟨inRange, inRange⟩
    · cases times
  refine ⟨metadata, forest, known, isDirectory, entries, kept, ascending.distinct, perm,
    copying.portable.own.timed fun stamps => inRange _ _ stamps known, ?_, List.not_mem_nil, trivial⟩
  refine Forest.valid_of_files kept ascending.distinct inRange (fun file member name listed => ?_)
    fun file member name last => ?_
  · have directories := copying.portable.directories _ (perm.subset (List.mem_map_of_mem member)) name
    rw [Forest.namesTo_of_mem_files ascending.distinct source member] at directories
    exact directories listed
  · have files := copying.portable.files _ (perm.subset (List.mem_map_of_mem member)) name
    rw [Forest.namesTo_of_mem_files ascending.distinct source member] at files
    exact files last

theorem paired (copying : Copying download upload asking taking gateway source target) {asker taker : Transfer}
    (asks : asker = Session.transferOf download.1 asking { gateway })
    (takes : taker = Session.transferOf upload.1 taking { gateway }) {metadata : Metadata} {forest : Forest}
    (known : gateway.described source = .ok metadata) (isDirectory : metadata.isDirectory = true)
    (entries : metadata.entries = forest.entries) (kept : forest.Kept gateway asker.timesOf source)
    (distinct : forest.Distinct) {label : Label}
    (labelled : label = ⟨source.name, directoryPermissions, asker.timesOf metadata⟩)
    (valid : (Forest.directory label forest .nil).Valid) :
    ∃ turns, Link.Paired target.repository (fun after => Gains gateway.store
      ((Forest.directory label forest .nil).deposits taker target) after.store) turns
      (.connect download upload gateway) := by
  obtain ⟨path, single, literal, resolved⟩ := copying.literal
  have receives : ({ gateway } : Live MemoryStore).Receives upload.1.user target.repository :=
    ⟨⟨copying.writable, copying.reliable, rfl⟩, copying.ready⟩
  obtain ⟨node, started, place, nodeTakes, startAsks, start_eq⟩ := Session.start_receiving copying.takes
    copying.isSink copying.resolved copying.targetNamed copying.targetOutside copying.targetDirectory receives
    copying.empty
  have connected : Link.connect download upload gateway =
      { gateway := started.gateway
        download := { session := .sending asker (.start asker) }
        upload :=
          { session := .receiving taker gateway.nextUpload ⟨{ target := node }, [], .control⟩
            outlet := started.outlet } } := by
    simp only [Link.connect, Session.start_sending copying.asks copying.isSource, Party.after, start_eq, asks, takes]
  have shows : ({ gateway } : Live MemoryStore).Shows gateway asker.login.user source.repository :=
    ⟨asks ▸ copying.readable, copying.reliable, rfl, fun _ _ => rfl, fun _ _ => rfl⟩
  have sending := Session.follows_download (asks ▸ copying.recursive) (asks ▸ single) literal resolved
    copying.sourceNamed copying.sourceOutside copying.apart shows known isDirectory entries kept distinct
  have vacant : ∀ name ∈ (Forest.directory label forest .nil).names,
      started.gateway.store.Vacant (node.location.child name) := by
    intro name _
    refine startAsks.consulted.vacant (Session.vacant_of_held_nil ?_)
    rw [Location.child_repository, place]
    exact copying.empty
  have receiving : Session.Follows (.receiving target.repository) (Session.Done fun after =>
      Gains gateway.store ((Forest.directory label forest .nil).deposits taker target) after.store)
      ((Forest.directory label forest .nil).beats taker node.location ++ [])
      (.receiving taker gateway.nextUpload ⟨{ target := node }, [], .control⟩) started := by
    refine Receiver.follows_forest (takes ▸ copying.recursiveToo) valid (takes ▸ nodeTakes)
      (takes ▸ startAsks.receives receives) vacant ?_
    intro after _ gains last consulted
    refine ⟨rfl, Session.finish_control, ?_⟩
    rw [place] at gains
    exact gains_then_nothing (nothing_then_gains startAsks.consulted.gains gains) consulted.gains
  rw [List.append_nil, place] at receiving
  have aside : gateway.Aside target.repository started.gateway :=
    startAsks.passage.aside (List.forall_mem_nil _)
  have answered : Answered 0 (label.around (forest.deliveries asker source) [])
      ((Forest.directory label forest .nil).beats taker target) :=
    .around label (Forest.answered kept asker taker _) ⟨rfl, rfl⟩
  have sent : started.outlet.taken.toList = [Wire.okStatus] := by
    rw [startAsks.outlet]
    rfl
  have talking : Link.Talking target.repository (fun after => Gains gateway.store
      ((Forest.directory label forest .nil).deposits taker target) after.store) []
      ((Forest.directory label forest .nil).beats taker target) []
      (label.around (forest.deliveries asker source) []) 0 (.connect download upload gateway) := by
    rw [connected]
    refine ⟨labelled ▸ sending.stable aside, receiving, rfl, answered, fun byte member => ?_, ?_, Nat.le_refl _,
      Nat.zero_le _⟩
    · rw [Party.waiting, sent] at member
      exact List.eq_of_mem_singleton member
    · rw [Party.waiting, sent]
      rfl
  exact ⟨_, .talking talking⟩

section Stored

variable {taker : Transfer} {label : Label} {forest : Forest} {after : MemoryStore}

theorem held_perm {store : MemoryStore} (named : label.name = source.name)
    (perm : (forest.files.map fun file => (source.descend file.1, file.2)).Perm (store.below source))
    (distinct : (Forest.directory label forest .nil).Distinct)
    (holds : store.Holds ((Forest.directory label forest .nil).deposits taker target) after)
    (empty : store.held target.repository = []) :
    (after.held target.repository).Perm
      ((store.below source).map fun file => (source.relocate target file.1, file.2)) := by
  apply (Forest.held_perm distinct holds empty).trans
  have places : (Forest.directory label forest .nil).files.map (fun file => (target.descend file.1, file.2)) =
      (forest.files.map fun file => (source.descend file.1, file.2)).map fun file =>
        (source.relocate target file.1, file.2) := by
    rw [Forest.files, Forest.files, List.append_nil, List.map_map, List.map_map]
    apply List.map_congr_left
    intro file member
    obtain ⟨first, names, split, _⟩ := Forest.names_of_mem_files distinct.2.1 member
    rw [Function.comp_apply, Function.comp_apply, named,
      Location.relocate_descend (split ▸ List.cons_ne_nil _ _)]
  rw [places]
  exact perm.map _

theorem modified (copying : Copying download upload asking taking gateway source target) {asker : Transfer}
    (preserve : asker.command.preserve = true) (preserveToo : taker.command.preserve = true)
    (named : label.name = source.name) (kept : forest.Kept gateway asker.timesOf source)
    (perm : (forest.files.map fun file => (source.descend file.1, file.2)).Perm (gateway.store.below source))
    (distinct : (Forest.directory label forest .nil).Distinct)
    (holds : gateway.store.Holds ((Forest.directory label forest .nil).deposits taker target) after)
    {file : Location × List UInt8} (member : file ∈ gateway.store.below source) :
    ∃ metadata moment object, gateway.described file.1 = .ok metadata ∧ metadata.modified = some moment ∧
      after.objects.get? (source.relocate target file.1) = some object ∧
      object.properties.get? modifiedProperty = some (toString moment.seconds) := by
  obtain ⟨inner, among, rfl⟩ := List.mem_map.1 (perm.symm.subset member)
  have placed := Forest.deposits_nodup taker distinct target
  obtain ⟨segment, distinctInside, _⟩ := distinct
  obtain ⟨first, names, split, _⟩ := Forest.names_of_mem_files distinctInside among
  have some : inner.1 ≠ [] := split ▸ List.cons_ne_nil _ _
  obtain ⟨deposit, deposited, place, _, name, metadata, described, properties⟩ :=
    Forest.exists_deposit kept distinctInside among taker (target.childDirectory label.name)
  obtain ⟨moment, _, modified, times⟩ := @Transfer.timesOf_described asker _ copying.timely _ _ described
  rw [← Location.descend_cons segment some, named] at place
  refine ⟨metadata, moment, ⟨deposit.bytes, deposit.properties, gateway.store.now⟩, described, modified, ?_, ?_⟩
  · rw [Location.relocate_descend some, holds.1]
    exact (MemoryStore.get?_of_distinct placed).2
      (.inl ⟨deposit, List.mem_append_left _ deposited, place, rfl⟩)
  · rw [preserve] at times
    have stamped : Label.times ⟨name, filePermissions, asker.timesOf metadata⟩ =
        Option.some ⟨moment.seconds, moment.seconds⟩ := times
    rw [properties]
    exact Label.modified_properties preserveToo stamped _

end Stored

/-- A directory is copied when a download of it and an upload are connected back to back. In whatever order the
two sessions have their turns, they have a bounded number of them, and one of them has a turn until both have ended
well; the repository then holds exactly what the store kept below the directory, with the same bytes and, if
times are sent, with the second in which each file was modified. -/
theorem copies_directory (copying : Copying download upload asking taking gateway source target) :
    ∃ bound, ∀ count link, Link.Turns count (.connect download upload gateway) link → count ≤ bound ∧
      ((∃ next, Link.Turn link next) ∨
        link.download.session = .ended (.ok ()) ∧ link.upload.session = .ended (.ok ()) ∧
        (link.gateway.store.held target.repository).Perm
          ((gateway.store.below source).map fun file => (source.relocate target file.1, file.2)) ∧
        (asking.preserve = true → ∀ file ∈ gateway.store.below source, ∃ metadata moment object,
          gateway.described file.1 = .ok metadata ∧ metadata.modified = some moment ∧
          link.gateway.store.objects.get? (source.relocate target file.1) = some object ∧
          object.properties.get? modifiedProperty = some (toString moment.seconds))) := by
  obtain ⟨metadata, forest, known, isDirectory, entries, kept, distinct, perm, valid⟩ :=
    copying.exists_forest (Session.transferOf download.1 asking { gateway })
  obtain ⟨bound, paired⟩ := copying.paired rfl rfl known isDirectory entries kept distinct rfl valid
  refine ⟨bound, ?_⟩
  intro count link turns
  obtain ⟨bounded, moves | ⟨downloaded, uploaded, holds⟩⟩ := paired.turns turns
  · exact ⟨bounded, .inl moves⟩
  · refine ⟨bounded, .inr ⟨downloaded, uploaded, held_perm rfl perm valid.distinct holds copying.empty, ?_⟩⟩
    intro preserve file member
    exact copying.modified preserve (copying.alike.symm.trans preserve) rfl kept perm valid.distinct holds member

/-- A directory with a file and, in a directory of its own, an empty file with the suffix of a checksum. -/
theorem copies_directory_of_two_files :
    let store := ((({} : MemoryStore).insert ⟨"libs", "x/a"⟩ [104, 105] .empty).insert
      ⟨"libs", "x/d/b.md5"⟩ [] .empty)
    let gateway := Gateway.new {} store (fun _ _ _ => true) ⟨7, 0⟩
    let ann : Login := ⟨"ann", "::1", .empty⟩
    ∃ bound, ∀ count link,
      Link.Turns count (.connect (ann, "scp -r -p -f libs/x/") (ann, "scp -r -p -t apps/") gateway) link →
      count ≤ bound ∧ ((∃ next, Link.Turn link next) ∨
        link.download.session = .ended (.ok ()) ∧ link.upload.session = .ended (.ok ()) ∧
        (link.gateway.store.held "apps").Perm [(⟨"apps", "x/a"⟩, [104, 105]), (⟨"apps", "x/d/b.md5"⟩, [])]) := by
  intro store gateway ann
  have below : store.below ⟨"libs", "x/"⟩ = [(⟨"libs", "x/a"⟩, [104, 105]), (⟨"libs", "x/d/b.md5"⟩, [])] := by
    decide +kernel
  have held : store.held "libs" = [(⟨"libs", "x/a"⟩, [104, 105]), (⟨"libs", "x/d/b.md5"⟩, [])] := by
    decide +kernel
  have valid (name permissions : String) (length : Nat) (named : isFileName name = true)
      (unbroken : '\n' ∉ name.toList) (a b c d : Char) (digits : permissions.toList = [a, b, c, d])
      (octal : [a, b, c, d].all Wire.Header.isOctal = true) (bounded : length < Text.nat64Bound)
      (short : (Text.encode ((⟨name, permissions, none⟩ : Label).header length).fields).length ≤
        Wire.maxLineLength) : Label.Valid ⟨name, permissions, none⟩ length :=
    ⟨named, unbroken, ⟨a, b, c, d, digits, octal⟩, nofun, bounded, short⟩
  have portable : store.Portable ⟨"libs", "x/"⟩ := by
    have own : Location.name ⟨"libs", "x/"⟩ = "x" := by decide +kernel
    have first : Location.namesTo ⟨"libs", "x/"⟩ ⟨"libs", "x/a"⟩ = ["a"] := by decide +kernel
    have second : Location.namesTo ⟨"libs", "x/"⟩ ⟨"libs", "x/d/b.md5"⟩ = ["d", "b.md5"] := by decide +kernel
    refine ⟨own.symm ▸ valid "x" _ _ rfl (by decide) _ _ _ _ rfl rfl (by decide) (by decide +kernel), ?_, ?_⟩ <;>
      rw [below] <;> intro file member name listed <;>
      rcases List.mem_cons.1 member with rfl | member <;> try obtain rfl := List.mem_singleton.1 member
    · rw [first] at listed
      cases listed
    · rw [second] at listed
      obtain rfl := List.mem_singleton.1 listed
      exact valid "d" _ _ rfl (by decide) _ _ _ _ rfl rfl (by decide) (by decide +kernel)
    · rw [first] at listed
      obtain rfl := Option.some.inj listed
      exact valid "a" _ _ rfl (by decide) _ _ _ _ rfl rfl (by decide) (by decide +kernel)
    · rw [second] at listed
      obtain rfl := Option.some.inj listed
      exact valid "b.md5" _ _ rfl (by decide) _ _ _ _ rfl rfl (by decide) (by decide +kernel)
  have timely : gateway.Timely := by
    have created : ∀ entry ∈ store.objects.entries, entry.2.created = ⟨0, 0⟩ := by decide +kernel
    refine ⟨⟨by decide, by decide⟩, ⟨by decide, by decide⟩, ?_⟩
    intro location object found
    rw [Instant.InRange, created _ (SortedMap.get?_eq_some.1 found)]
    exact ⟨by decide, by decide⟩
  have copying : Copying (ann, "scp -r -p -f libs/x/") (ann, "scp -r -p -t apps/")
      ⟨.source, true, true, false, false, ["libs/x/"]⟩ ⟨.sink, true, true, false, false, ["apps/"]⟩ gateway
      ⟨"libs", "x/"⟩ ⟨"apps", ""⟩ :=
    { asks := by decide +kernel
      takes := by decide +kernel
      isSource := rfl
      isSink := rfl
      recursive := rfl
      recursiveToo := rfl
      alike := rfl
      literal := ⟨"libs/x/", rfl, by decide +kernel, by decide +kernel⟩
      sourceNamed := by decide
      sourceOutside := by decide
      sourceDirectory := by decide
      resolved := by decide +kernel
      targetNamed := by decide
      targetOutside := by decide
      targetDirectory := by decide
      described := ⟨Metadata.directory ⟨0, 0⟩ "libs" "/x" [⟨"a", false⟩, ⟨"d", true⟩], by decide +kernel, rfl⟩
      arranged := by constructor <;> change ∀ file ∈ store.held "libs", _ <;> rw [held] <;> decide +kernel
      portable
      announced := fun _ _ => rfl
      empty := by decide +kernel
      readable := rfl
      writable := rfl
      reliable := rfl
      ready := ⟨rfl, by decide, rfl, ⟨rfl, nofun⟩, nofun⟩
      timely }
  obtain ⟨bound, copied⟩ := copies_directory copying
  refine ⟨bound, ?_⟩
  intro count link turns
  obtain ⟨bounded, moves | ⟨downloaded, uploaded, perm, _⟩⟩ := copied count link turns
  · exact ⟨bounded, .inl moves⟩
  · have places : (store.below ⟨"libs", "x/"⟩).map (fun file =>
        (Location.relocate ⟨"libs", "x/"⟩ ⟨"apps", ""⟩ file.1, file.2)) =
          [(⟨"apps", "x/a"⟩, [104, 105]), (⟨"apps", "x/d/b.md5"⟩, [])] := by decide +kernel
    exact ⟨bounded, .inr ⟨downloaded, uploaded, places ▸ perm⟩⟩

end Copying

end ArtifactGate
