import ArtifactGate.Proofs.Forest
import ArtifactGate.Proofs.Gateway.Consulting
import ArtifactGate.Session.Sender

/-!
The forest that a store keeps below a directory. Folders exist only as beginnings of paths; going down from a
directory, its listings make up a forest whose files are the objects below it, each once, in the order of
their names.
-/
namespace ArtifactGate

namespace Forest

/-- A gateway shows the forest below a directory: it describes each file and directory of it, lists the
directories and has the files' bytes, and the labels are those that a download gives them. -/
def Kept (gateway : Gateway MemoryStore) (times : Metadata → Option Wire.Timestamps) (location : Location) :
    Forest → Prop
  | nil => True
  | warning _ _ => False
  | file label bytes rest =>
    (∃ metadata, gateway.described (location.child label.name) = .ok metadata ∧
      metadata.isDirectory = false ∧ label = ⟨label.name, filePermissions, times metadata⟩) ∧
      gateway.store.retrieve (location.child label.name) = .ok { length := some bytes.length, bytes } ∧
      rest.Kept gateway times location
  | directory label inside rest =>
    (∃ metadata, gateway.described (location.childDirectory label.name) = .ok metadata ∧
      metadata.isDirectory = true ∧ metadata.entries = inside.entries ∧
      label = ⟨label.name, directoryPermissions, times metadata⟩) ∧
      inside.Kept gateway times (location.childDirectory label.name) ∧ rest.Kept gateway times location

def Ascending : Forest → Prop
  | nil => True
  | warning _ rest => rest.Ascending
  | file label _ rest => IsSegment label.name ∧ (∀ name ∈ rest.names, label.name < name) ∧ rest.Ascending
  | directory label inside rest =>
    IsSegment label.name ∧ inside.Ascending ∧ (∀ name ∈ rest.names, label.name < name) ∧ rest.Ascending

theorem Ascending.distinct {forest : Forest} (ascending : forest.Ascending) : forest.Distinct := by
  have fresh {name : String} {names : List String} (below : ∀ other ∈ names, name < other) : name ∉ names :=
    fun member => String.lt_irrefl name (below name member)
  induction forest with
  | nil => trivial
  | warning text rest ih => exact ih ascending
  | file label bytes rest ih => exact ⟨ascending.1, fresh ascending.2.1, ih ascending.2.2⟩
  | directory label inside rest ihInside ih =>
      exact ⟨ascending.1, ihInside ascending.2.1, fresh ascending.2.2.1, ih ascending.2.2.2⟩

end Forest

namespace Gateway

variable {gateway : Gateway MemoryStore} {location place : Location} {entry : Entry} {bytes : List UInt8}

theorem described_of_held (segment : IsSegment entry.name)
    (member : (location.child entry.name, bytes) ∈ gateway.store.held location.repository)
    (announced : gateway.store.announced.get? (location.child entry.name) = none) :
    (∃ metadata, gateway.described (location.child entry.name) = .ok metadata ∧ metadata.isDirectory = false) ∧
      gateway.store.retrieve (location.child entry.name) = .ok { length := some bytes.length, bytes } := by
  obtain ⟨_, object, found, rfl⟩ := MemoryStore.mem_held.1 member
  constructor
  · rw [described]
    split
    · exact ⟨_, rfl, rfl⟩
    · have place : (⟨(location.child entry.name).repository,
          String.ofList (location.child entry.name).trimmedPath⟩ : Location) = location.child entry.name := by
        rw [location.trimmedPath_child segment, location.child_eq]
      simp only [MemoryStore.describe, place, found]
      exact ⟨_, rfl, rfl⟩
  · rw [MemoryStore.retrieve, found, announced]
    rfl

theorem described_of_listing (names : location.namesDirectory = true)
    (absent : gateway.store.objects.get? ⟨location.repository, String.ofList location.trimmedPath⟩ = none)
    (some : gateway.store.entriesOf location.repository location.trimmedPath ≠ []) :
    ∃ metadata, gateway.described location = .ok metadata ∧ metadata.isDirectory = true ∧
      metadata.entries = gateway.store.entriesOf location.repository location.trimmedPath := by
  rw [described_of_namesDirectory names]
  obtain ⟨entry, rest, entries⟩ := List.exists_cons_of_ne_nil some
  simp only [MemoryStore.describe, absent, entries]
  exact ⟨_, rfl, rfl, rfl⟩

theorem entries_ne_nil {metadata : Metadata} (found : gateway.store.describe location = .ok metadata)
    (isDirectory : metadata.isDirectory = true) : metadata.entries ≠ [] := by
  simp only [MemoryStore.describe] at found
  split at found
  · cases found
    cases isDirectory
  · split at found
    · cases found
    · rename_i some
      cases found
      exact some

theorem entries_ne_nil_of_folder {metadata : Metadata} {name : String}
    (described : gateway.described (location.childDirectory name) = .ok metadata)
    (isDirectory : metadata.isDirectory = true) : metadata.entries ≠ [] := by
  rw [described_of_namesDirectory (location.namesDirectory_childDirectory name)] at described
  exact entries_ne_nil described isDirectory

theorem entries_of_described {metadata : Metadata} (found : gateway.store.describe location = .ok metadata)
    (isDirectory : metadata.isDirectory = true) :
    metadata.entries = gateway.store.entriesOf location.repository location.trimmedPath := by
  simp only [MemoryStore.describe] at found
  split at found
  · cases found
    cases isDirectory
  · split at found <;> cases found
    rfl

end Gateway

namespace Forest

section Existence

variable {gateway : Gateway MemoryStore} {location : Location} {times : Metadata → Option Wire.Timestamps}

theorem held_of_file {name : String}
    (member : ⟨name, false⟩ ∈ gateway.store.entriesOf location.repository location.trimmedPath) :
    ∃ bytes, (location.child name, bytes) ∈ gateway.store.held location.repository := by
  obtain ⟨⟨place, bytes⟩, below, listed⟩ := MemoryStore.exists_of_mem_entriesOf member
  obtain ⟨kept, _⟩ := MemoryStore.mem_below.1 below
  rcases (MemoryStore.listed?_cases listed).2 with ⟨_, path⟩ | ⟨isFolder, _⟩
  · have same : location.child name = place := by
      rw [Location.child_eq, ← path, String.ofList_toList, ← (MemoryStore.mem_held.1 kept).1]
    exact ⟨bytes, same ▸ kept⟩
  · cases isFolder

theorem described_of_folder {name : String} (arranged : gateway.store.Arranged location.repository)
    (segment : IsSegment name)
    (member : ⟨name, true⟩ ∈ gateway.store.entriesOf location.repository location.trimmedPath) :
    (∃ file, file ∈ gateway.store.below (location.childDirectory name)) ∧
      ∃ metadata, gateway.described (location.childDirectory name) = .ok metadata ∧
        metadata.isDirectory = true ∧ metadata.entries = gateway.store.entriesOf
          (location.childDirectory name).repository (location.childDirectory name).trimmedPath := by
  obtain ⟨⟨place, bytes⟩, below, listed⟩ := MemoryStore.exists_of_mem_entriesOf member
  obtain ⟨kept, _⟩ := MemoryStore.mem_below.1 below
  rcases (MemoryStore.listed?_cases listed).2 with ⟨isFile, _⟩ | ⟨_, rest, path⟩
  · cases isFile
  have within := location.childDirectory_repository name
  have inside : (place, bytes) ∈ gateway.store.below (location.childDirectory name) := by
    rw [MemoryStore.mem_below, within]
    refine ⟨kept, rest, ?_⟩
    rw [location.stem_childDirectory segment, path]
    simp
  have absent : gateway.store.objects.get? ⟨(location.childDirectory name).repository,
      String.ofList (location.childDirectory name).trimmedPath⟩ = none := by
    rw [Option.eq_none_iff_forall_not_mem]
    intro object found
    rw [within, location.trimmedPath_childDirectory segment] at found
    have stored : ((⟨location.repository, String.ofList (location.stem ++ name.toList)⟩ : Location),
        object.bytes) ∈ gateway.store.held location.repository :=
      MemoryStore.mem_held.2 ⟨rfl, object, found, rfl⟩
    refine arranged.apart _ stored _ kept ⟨rest, ?_⟩
    rw [String.toList_ofList, path]
    simp
  obtain ⟨entry, among, _⟩ := MemoryStore.exists_listed inside
  exact ⟨⟨_, inside⟩, Gateway.described_of_listing (location.namesDirectory_childDirectory name) absent
    (List.ne_nil_of_mem among)⟩

theorem name_lt_of_lt {earlier later : Entry} (order : compare earlier later = .lt)
    (apart : earlier.name = later.name → earlier.isFolder = later.isFolder) : earlier.name < later.name := by
  have either : compare earlier.name later.name = .lt ∨
      compare earlier.name later.name = .eq ∧ compare earlier.isFolder later.isFolder = .lt :=
    Ordering.then_eq_lt.1 order
  rcases either with lower | ⟨same, folders⟩
  · exact compareOfLessAndEq_eq_lt.1 lower
  · rw [apart (Std.LawfulEqOrd.eq_of_compare same), Std.LawfulEqOrd.compare_eq_iff_eq.2 rfl] at folders
    cases folders

/-- What is below a directory of a directory is below that one too, and its path is longer by the name and a slash. -/
theorem below_childDirectory {name : String} (segment : IsSegment name) {store : MemoryStore}
    {file : Location × List UInt8} (below : file ∈ store.below (location.childDirectory name)) :
    file ∈ store.below location ∧
      (location.childDirectory name).stem.length ≤ file.1.path.toList.length ∧
      (location.childDirectory name).stem.length = location.stem.length + name.toList.length + 1 := by
  rw [MemoryStore.mem_below, location.childDirectory_repository, location.stem_childDirectory segment] at below
  obtain ⟨kept, begins⟩ := below
  rw [location.stem_childDirectory segment]
  refine ⟨MemoryStore.mem_below.2 ⟨kept, .trans ?_ begins⟩, begins.length_le, ?_⟩
  · rw [List.append_assoc]
    exact List.prefix_append _ _
  · rw [List.length_append, List.length_append, List.length_singleton]

/-- What a directory lists is kept as a forest: each file is described and served, and for each folder there
is a forest again, one slash further down. -/
theorem exists_kept (times : Metadata → Option Wire.Timestamps) (room : Nat) {location : Location}
    (arranged : gateway.store.Arranged location.repository)
    (announced : ∀ place, place.repository = location.repository → gateway.store.announced.get? place = none)
    (bounded : ∀ file ∈ gateway.store.below location,
      file.1.path.toList.length ≤ location.stem.length + room) :
    ∃ forest : Forest,
      forest.entries = gateway.store.entriesOf location.repository location.trimmedPath ∧
        forest.Kept gateway times location ∧ forest.Ascending := by
  induction room using Nat.strongRecOn generalizing location with
  | ind room ih =>
  have listing : ∀ entries : List Entry, MemoryStore.Ascending entries →
      (∀ entry ∈ entries, entry ∈ gateway.store.entriesOf location.repository location.trimmedPath) →
      ∃ forest : Forest, forest.entries = entries ∧ forest.Kept gateway times location ∧ forest.Ascending := by
    intro entries ascending listed
    induction entries with
    | nil => exact ⟨.nil, rfl, trivial, trivial⟩
    | cons entry entries ihEntries =>
        obtain ⟨before, ascending⟩ := List.pairwise_cons.1 ascending
        obtain ⟨here, others⟩ := List.forall_mem_cons.1 listed
        obtain ⟨rest, rfl, restKept, restAscending⟩ := ihEntries ascending others
        obtain ⟨file, below, fileListed⟩ := MemoryStore.exists_of_mem_entriesOf here
        have segment := MemoryStore.segment_of_listed arranged below fileListed
        have above : ∀ name ∈ rest.names, entry.name < name := by
          intro name member
          rw [← map_name_entries] at member
          obtain ⟨other, among, rfl⟩ := List.mem_map.1 member
          exact name_lt_of_lt (before other among)
            (MemoryStore.isFolder_eq_of_name_eq arranged here (others other among))
        obtain ⟨name, isFolder⟩ := entry
        cases isFolder with
        | false =>
            obtain ⟨bytes, kept⟩ := held_of_file here
            obtain ⟨⟨metadata, described, isFile⟩, retrieved⟩ :=
              Gateway.described_of_held segment kept (announced _ (location.child_repository name))
            exact ⟨.file ⟨name, filePermissions, times metadata⟩ bytes rest, rfl,
              ⟨⟨metadata, described, isFile, rfl⟩, retrieved, restKept⟩, segment, above, restAscending⟩
        | true =>
            obtain ⟨⟨inner, innerBelow⟩, metadata, described, isDirectory, metadataEntries⟩ :=
              described_of_folder arranged segment here
            have within := location.childDirectory_repository name
            obtain ⟨outerBelow, longer, stem⟩ := @below_childDirectory location name segment _ _ innerBelow
            have roomy := bounded _ outerBelow
            obtain ⟨inside, insideEntries, insideKept, insideAscending⟩ :=
              @ih (room - 1) (by omega) (location.childDirectory name) (within.symm ▸ arranged)
                (within.symm ▸ announced) fun file below => by
                  have within := bounded _ (below_childDirectory segment below).1
                  omega
            exact ⟨.directory ⟨name, directoryPermissions, times metadata⟩ inside rest, rfl,
              ⟨⟨metadata, described, isDirectory, metadataEntries.trans insideEntries.symm, rfl⟩, insideKept,
                restKept⟩,
              segment, insideAscending, above, restAscending⟩
  refine listing _ ?_ fun _ member => member
  rw [MemoryStore.entriesOf_eq]
  exact MemoryStore.collect_ascending _ .nil

end Existence

section Files

variable {gateway : Gateway MemoryStore} {times : Metadata → Option Wire.Timestamps} {forest : Forest}

theorem files_ne_nil_of_kept {location : Location} (kept : forest.Kept gateway times location)
    (some : forest.entries ≠ []) : forest.files ≠ [] := by
  induction forest generalizing location with
  | nil => exact absurd rfl some
  | warning text rest ih => exact kept.elim
  | file label bytes rest ih => exact List.cons_ne_nil _ _
  | directory label inside rest ihInside ih =>
      obtain ⟨⟨metadata, described, isDirectory, entries, _⟩, insideKept, _⟩ := kept
      have inner := ihInside insideKept (entries ▸ Gateway.entries_ne_nil_of_folder described isDirectory)
      exact fun none => inner (List.map_eq_nil_iff.1 (List.append_eq_nil_iff.1 none).1)

theorem below_of_below_childDirectory {store : MemoryStore} {location : Location} {name : String}
    (segment : IsSegment name) {file : Location × List UInt8}
    (below : file ∈ store.below (location.childDirectory name)) : file ∈ store.below location := by
  rw [MemoryStore.mem_below, location.childDirectory_repository, location.stem_childDirectory segment] at below
  refine MemoryStore.mem_below.2 ⟨below.1, .trans ?_ below.2⟩
  rw [List.append_assoc]
  exact List.prefix_append _ _

theorem below_of_retrieve {store : MemoryStore} {location : Location} {name : String} {bytes : List UInt8}
    (retrieved : store.retrieve (location.child name) = .ok { length := some bytes.length, bytes }) :
    (location.child name, bytes) ∈ store.below location := by
  rw [MemoryStore.retrieve] at retrieved
  split at retrieved
  · rename_i object found
    have same : object.bytes = bytes := (Content.mk.inj (Except.ok.inj retrieved)).2.1
    refine MemoryStore.mem_below.2 ⟨MemoryStore.mem_held.2 ⟨location.child_repository name, object, found, same⟩, ?_⟩
    rw [location.child_eq, String.toList_ofList]
    exact List.prefix_append _ _
  · cases retrieved

theorem below_of_mem_files {location : Location} (kept : forest.Kept gateway times location)
    (distinct : forest.Distinct) {file : List String × List UInt8} (member : file ∈ forest.files) :
    (location.descend file.1, file.2) ∈ gateway.store.below location := by
  induction forest generalizing location file with
  | nil => cases member
  | warning text rest ih => exact kept.elim
  | file label bytes rest ih =>
      obtain ⟨_, retrieved, restKept⟩ := kept
      rcases List.mem_cons.1 member with rfl | member
      · rw [Location.descend_singleton]
        exact below_of_retrieve retrieved
      · exact ih restKept distinct.2.2 member
  | directory label inside rest ihInside ih =>
      obtain ⟨_, insideKept, restKept⟩ := kept
      obtain ⟨segment, distinctInside, _, distinctRest⟩ := distinct
      rcases List.mem_append.1 member with member | member
      · obtain ⟨inner, among, rfl⟩ := List.mem_map.1 member
        obtain ⟨first, names, split, _⟩ := names_of_mem_files distinctInside among
        rw [Location.descend_cons segment (split ▸ List.cons_ne_nil _ _)]
        exact below_of_below_childDirectory segment (ihInside insideKept distinctInside among)
      · exact ih restKept distinctRest member

theorem mem_files_of_listed {location : Location} (kept : forest.Kept gateway times location)
    (distinct : forest.Distinct) {place : Location} {bytes : List UInt8} {entry : Entry}
    (member : (place, bytes) ∈ gateway.store.below location) (among : entry ∈ forest.entries)
    (listed : MemoryStore.listed? location.repository location.stem place = some entry) :
    ∃ file ∈ forest.files, (location.descend file.1, file.2) = (place, bytes) := by
  induction forest generalizing location entry with
  | nil => cases among
  | warning text rest ih => exact kept.elim
  | file label own rest ih =>
      obtain ⟨_, retrieved, restKept⟩ := kept
      rcases List.mem_cons.1 among with rfl | among
      · rcases (MemoryStore.listed?_cases listed).2 with ⟨_, path⟩ | ⟨isFolder, _⟩
        · obtain ⟨within, object, found, same⟩ := MemoryStore.mem_held.1 (MemoryStore.mem_below.1 member).1
          have here : location.child label.name = place := by
            rw [Location.child_eq, ← path, String.ofList_toList, ← within]
          have stored := below_of_retrieve retrieved
          rw [here] at stored
          obtain ⟨_, known, knownFound, knownSame⟩ :=
            MemoryStore.mem_held.1 (MemoryStore.mem_below.1 stored).1
          rw [found] at knownFound
          rw [← Option.some.inj knownFound, same] at knownSame
          exact ⟨_, List.mem_cons_self, by rw [Location.descend_singleton, here, knownSame]⟩
        · cases isFolder
      · obtain ⟨file, inRest, same⟩ := ih restKept distinct.2.2 member among listed
        exact ⟨file, List.mem_cons_of_mem _ inRest, same⟩
  | directory label inside rest ihInside ih =>
      obtain ⟨⟨metadata, described, isDirectory, entries, _⟩, insideKept, restKept⟩ := kept
      obtain ⟨segment, distinctInside, _, distinctRest⟩ := distinct
      rcases List.mem_cons.1 among with rfl | among
      · rcases (MemoryStore.listed?_cases listed).2 with ⟨isFile, _⟩ | ⟨_, more, path⟩
        · cases isFile
        · have inner : (place, bytes) ∈ gateway.store.below (location.childDirectory label.name) := by
            rw [MemoryStore.mem_below, location.childDirectory_repository,
              location.stem_childDirectory segment]
            refine ⟨(MemoryStore.mem_below.1 member).1, more, ?_⟩
            rw [path]
            simp
          rw [Gateway.described_of_namesDirectory (location.namesDirectory_childDirectory label.name)] at described
          obtain ⟨next, nextAmong, nextListed⟩ := MemoryStore.exists_listed inner
          rw [← Gateway.entries_of_described described isDirectory, entries] at nextAmong
          obtain ⟨file, among, same⟩ := ihInside insideKept distinctInside inner nextAmong nextListed
          obtain ⟨first, names, split, _⟩ := names_of_mem_files distinctInside among
          refine ⟨_, List.mem_append_left _ (List.mem_map_of_mem among), ?_⟩
          rw [Location.descend_cons segment (split ▸ List.cons_ne_nil _ _)]
          exact same
      · obtain ⟨file, inRest, same⟩ := ih restKept distinctRest member among listed
        exact ⟨file, List.mem_append_right _ inRest, same⟩

theorem files_perm_below {location : Location} (kept : forest.Kept gateway times location)
    (distinct : forest.Distinct)
    (entries : forest.entries = gateway.store.entriesOf location.repository location.trimmedPath) :
    (forest.files.map fun file => (location.descend file.1, file.2)).Perm (gateway.store.below location) := by
  have apart := descend_nodup distinct location
  refine (List.perm_ext_iff_of_nodup ?_ ((gateway.store.held_nodup _).filter _)).2 ?_
  · exact List.Pairwise.of_map Prod.fst (fun _ _ differs same => differs (congrArg Prod.fst same)) apart
  · rintro ⟨place, bytes⟩
    rw [List.mem_map]
    constructor
    · rintro ⟨file, member, same⟩
      exact same ▸ below_of_mem_files kept distinct member
    · intro member
      obtain ⟨entry, among, listed⟩ := MemoryStore.exists_listed member
      exact mem_files_of_listed kept distinct member (entries ▸ among) listed

/-- A directory that a store describes keeps a forest, whose files are the objects below it. -/
theorem exists_kept_below {location : Location} {metadata : Metadata} (times : Metadata → Option Wire.Timestamps)
    (described : gateway.store.describe location = .ok metadata) (isDirectory : metadata.isDirectory = true)
    (arranged : gateway.store.Arranged location.repository)
    (announced : ∀ place, place.repository = location.repository → gateway.store.announced.get? place = none) :
    ∃ forest : Forest, metadata.entries = forest.entries ∧ forest.Kept gateway times location ∧
      forest.Ascending ∧
      (forest.files.map fun file => (location.descend file.1, file.2)).Perm (gateway.store.below location) := by
  have bounded : ∃ room, ∀ file ∈ gateway.store.below location, file.1.path.toList.length ≤ room := by
    cases gateway.store.below location with
    | nil => exact ⟨0, List.forall_mem_nil _⟩
    | cons first rest =>
        let length (file : Location × List UInt8) : Nat := file.1.path.toList.length
        exact ⟨((first :: rest).map length).max (List.cons_ne_nil _ _),
          fun file member => List.le_max_of_mem (List.mem_map_of_mem (f := length) member)⟩
  obtain ⟨room, bounded⟩ := bounded
  obtain ⟨forest, entries, kept, ascending⟩ := exists_kept times room arranged announced fun file below =>
    Nat.le_trans (bounded file below) (Nat.le_add_left _ _)
  refine ⟨forest, ?_, kept, ascending, files_perm_below kept ascending.distinct entries⟩
  rw [Gateway.entries_of_described described isDirectory, entries]

end Files

end Forest

end ArtifactGate
