import ArtifactGate.Proofs.Glob.Levels
import ArtifactGate.Proofs.Session.KeptForest
import ArtifactGate.Proofs.Store.Tree

/-!
What stands below a directory: the objects of the store, and the directories that they imply. A directory lists what
stands right below it, each name once.
-/
namespace ArtifactGate

namespace Location

/-- The same place, named as a directory. -/
def folder (location : Location) : Location :=
  { location with path := location.path ++ "/" }

theorem childDirectory_eq_folder (location : Location) (name : String) :
    location.childDirectory name = (location.child name).folder := rfl

theorem namesDirectory_folder (location : Location) : location.folder.namesDirectory = true := by
  rw [folder, namesDirectory, String.toList_append]
  simp

theorem trimmedPath_folder (location : Location) : location.folder.trimmedPath = location.trimmedPath := by
  rw [folder, trimmedPath, String.toList_append]
  exact Text.dropTrailing_snoc rfl

theorem stem_folder (location : Location) : location.folder.stem = location.stem := by
  rw [stem, stem, trimmedPath_folder]

variable {location lower : Location} {names more : List String}

theorem descend_append (segments : ∀ name ∈ names, IsSegment name) (some : names ≠ []) (further : more ≠ []) :
    location.descend (names ++ more) = (location.descend names).folder.descend more := by
  induction names generalizing location with
  | nil => exact absurd rfl some
  | cons name rest ih =>
      obtain ⟨segment, others⟩ := List.forall_mem_cons.1 segments
      cases rest with
      | nil =>
          rw [descend_singleton]
          exact descend_cons segment further
      | cons other rest =>
          have inner := List.cons_ne_nil other rest
          rw [List.cons_append, descend_cons segment (List.append_ne_nil_of_left_ne_nil inner more), ih others inner,
            ← descend_cons segment inner]

/-- A place that names lead to has no slashes at its end. -/
theorem trimmedPath_descend (segments : ∀ name ∈ names, IsSegment name) (some : names ≠ []) :
    (location.descend names).trimmedPath = (location.descend names).path.toList := by
  induction names generalizing location with
  | nil => exact absurd rfl some
  | cons name rest ih =>
      obtain ⟨segment, others⟩ := List.forall_mem_cons.1 segments
      cases rest with
      | nil => rw [descend_singleton, location.trimmedPath_child segment, child_eq, String.toList_ofList]
      | cons other rest =>
          rw [descend_cons segment (List.cons_ne_nil _ _)]
          exact ih others (List.cons_ne_nil _ _)

theorem stem_descend (segments : ∀ name ∈ names, IsSegment name) (some : names ≠ []) :
    (location.descend names).stem = (location.descend names).path.toList ++ ['/'] := by
  have trimmed := @trimmedPath_descend location names segments some
  have below : (location.descend names).trimmedPath ≠ [] := by
    obtain ⟨name, rest, rfl⟩ := List.exists_cons_of_ne_nil some
    rw [trimmed, descend_eq some, String.toList_ofList]
    have first := (segments name List.mem_cons_self).1
    cases rest with
    | nil => simpa using fun _ => first
    | cons other rest => simp [String.intercalate_cons_cons]
  rw [stem_of_trimmedPath below, trimmed]

theorem Above.trans {upper middle : Location} (first : upper.Above middle) (second : middle.Above lower) :
    upper.Above lower :=
  ⟨first.1.trans second.1, (first.2.trans (List.prefix_append _ _)).trans second.2⟩

theorem above_descend (segments : ∀ name ∈ names, IsSegment name) (some : names ≠ []) (name : String) :
    (location.descend names).Above (location.descend (names ++ [name])) := by
  rw [descend_append segments some (List.cons_ne_nil _ _), descend_singleton, child_eq, stem_folder,
    stem_descend segments some]
  refine ⟨rfl, ?_⟩
  rw [String.toList_ofList]
  exact List.prefix_append _ _

theorem length_le_pieces (segments : ∀ name ∈ names, IsSegment name) (some : names ≠ []) :
    names.length ≤ (Text.pieces isSlash (location.descend names).path.toList).length := by
  rw [descend_eq some, String.toList_ofList, stem]
  split
  · refine Nat.le_of_eq ?_
    rw [List.nil_append, pieces_intercalate some segments, List.length_map]
  · rw [List.append_assoc, List.singleton_append, Text.pieces_append_pieces rfl, pieces_intercalate some segments,
      List.length_append, List.length_map]
    exact Nat.le_add_left _ _

theorem pieces_lt_of_above {upper : Location} (above : upper.Above lower) :
    (Text.pieces isSlash upper.path.toList).length < (Text.pieces isSlash lower.path.toList).length := by
  obtain ⟨rest, path⟩ := above.2
  rw [← path, List.append_assoc, List.singleton_append, Text.pieces_append_pieces rfl, List.length_append]
  have some := List.length_pos_iff.2 (Text.pieces_ne_nil isSlash rest)
  omega

end Location

namespace MemoryStore

variable {store : MemoryStore} {place : Location}

theorem listingDepth_spec (store : MemoryStore) : store.listingDepth ≠ 0 ∧ ∀ entry ∈ store.objects.entries,
    (Text.pieces Location.isSlash entry.1.path.toList).length < store.listingDepth := by
  have folded : ∀ (entries : List (Location × StoredObject)) (start : Nat),
      let depth := entries.foldl (fun depth entry =>
        max depth ((Text.pieces Location.isSlash entry.1.path.toList).length + 1)) start
      start ≤ depth ∧ ∀ entry ∈ entries, (Text.pieces Location.isSlash entry.1.path.toList).length < depth := by
    intro entries
    induction entries with
    | nil => exact fun start => ⟨Nat.le_refl _, List.forall_mem_nil _⟩
    | cons entry rest ih =>
        intro start
        obtain ⟨least, others⟩ := ih (max start ((Text.pieces Location.isSlash entry.1.path.toList).length + 1))
        rw [Nat.max_le] at least
        exact ⟨least.1, List.forall_mem_cons.2 ⟨least.2, others⟩⟩
  obtain ⟨least, bounds⟩ := folded store.objects.entries 1
  exact ⟨Nat.ne_of_gt least, bounds⟩

theorem lt_listingDepth (has : store.Has place) :
    (Text.pieces Location.isSlash place.path.toList).length < store.listingDepth := by
  obtain ⟨object, stored⟩ := has_iff.1 has
  exact store.listingDepth_spec.2 (place, object) (SortedMap.get?_eq_some.1 stored)

section Listed

variable {location : Location} {name : String}

theorem listed?_child (segment : IsSegment name) :
    listed? location.repository location.stem (location.child name) = some ⟨name, false⟩ := by
  have none : Text.splitFirst '/' name.toList = none := by
    cases split : Text.splitFirst '/' name.toList with
    | none => rfl
    | some parts =>
        obtain ⟨folder, rest⟩ := parts
        obtain ⟨path, _⟩ := Text.eq_of_splitFirst split
        exact absurd (path ▸ List.mem_append_right _ List.mem_cons_self) segment.2
  simp only [listed?, beq_self_eq_true, if_true, entryBelow?,
    location.child_eq, String.toList_ofList, List.isPrefixOf_iff_prefix.2 (List.prefix_append _ _), List.drop_left,
    none, String.ofList_toList]

theorem listed?_of_above (segment : IsSegment name) (above : (location.child name).Above place) :
    listed? location.repository location.stem place = some ⟨name, true⟩ := by
  obtain ⟨within, rest, path⟩ := above
  rw [location.child_eq, String.toList_ofList, List.append_assoc, List.append_assoc, List.singleton_append] at path
  rw [location.child_repository] at within
  simp only [listed?, ← within, beq_self_eq_true, if_true, entryBelow?, ← path,
    List.isPrefixOf_iff_prefix.2 (List.prefix_append _ _), List.drop_left, Text.splitFirst_append segment.2,
    String.ofList_toList]

end Listed

theorem Arranged.not_above {upper lower : Location}
    (arranged : store.Arranged upper.repository) (has : store.Has upper) (also : store.Has lower) :
    ¬upper.Above lower := by
  obtain ⟨object, stored⟩ := has_iff.1 has
  obtain ⟨other, kept⟩ := has_iff.1 also
  intro above
  exact arranged.apart _ (mem_held.2 ⟨rfl, object, stored, rfl⟩) _
    (mem_held.2 ⟨above.1.symm, other, kept, rfl⟩) above.2

end MemoryStore

theorem Node.isFile_eq (node : Node) : node.isFile = !node.isDirectory := by
  rw [isFile, isDirectory]
  cases node.metadata <;> rfl

namespace Gateway

variable {gateway : Gateway MemoryStore} {user : String} {location place : Location} {node child : Node}

theorem outside_of_isDirectory
    (isDirectory : (gateway.fetched user location).isDirectory = true) : location.isSink = false := by
  rw [← Bool.not_eq_true]
  intro sink
  rw [fetched, sink, if_pos rfl] at isDirectory
  cases isDirectory

/-- What stands at a place: an object, or a directory that an object below it implies. -/
inductive Stands (gateway : Gateway MemoryStore) (user : String) (place : Location) (node : Node) : Prop
  | file (stored : gateway.store.Has place) (here : node = gateway.fetched user place)
  | folder (lower : Location) (stored : gateway.store.Has lower) (above : place.Above lower)
    (here : node = gateway.fetched user place.folder)

theorem isFile_nodeAt (has : gateway.store.Has ⟨location.repository, String.ofList location.trimmedPath⟩) :
    (gateway.nodeAt user location).isFile = true := by
  obtain ⟨object, stored⟩ := MemoryStore.has_iff.1 has
  rw [nodeAt, described]
  split
  · rfl
  · simp only [MemoryStore.describe, stored]
    rfl

theorem isDirectory_nodeAt (named : location.namesDirectory = true)
    (absent : ¬gateway.store.Has ⟨location.repository, String.ofList location.trimmedPath⟩) :
    (gateway.nodeAt user location).isDirectory = true := by
  rw [nodeAt, described_of_namesDirectory named]
  rcases gateway.store.describe_cases location with ⟨_, _, _, has⟩ | ⟨_, found, isDirectory, _⟩ | ⟨missing, _⟩
  · exact absurd has absent
  · rw [found]
    exact isDirectory
  · rw [missing]
    rfl

/-- A directory lists what the store has below its place; what is missing has nothing below it. -/
theorem entries_nodeAt (isDirectory : (gateway.nodeAt user location).isDirectory = true) :
    (gateway.nodeAt user location).entries =
      gateway.store.entriesOf location.repository location.trimmedPath := by
  cases found : gateway.described location with
  | ok metadata =>
      have directory : metadata.isDirectory = true := by
        rw [nodeAt, found] at isDirectory
        exact isDirectory
      rw [nodeAt, found]
      rw [described] at found
      split at found
      · cases found
        cases directory
      · exact entries_of_described found directory
  | error fault =>
      rw [nodeAt, found]
      rw [described] at found
      split at found
      · cases found
      · simp only [MemoryStore.describe] at found
        split at found
        · cases found
        · split at found
          · rename_i nothing
            exact nothing.symm
          · cases found

theorem user_fetched : (gateway.fetched user location).user = user := by
  rw [fetched]
  split <;> rfl

theorem location_fetched : (gateway.fetched user location).location = location := by
  rw [fetched]
  split <;> rfl

section Listing

variable {entry : Entry} {name : String}

theorem stands_of_entry (arranged : gateway.store.Arranged location.repository)
    (member : entry ∈ gateway.store.entriesOf location.repository location.trimmedPath) :
    IsSegment entry.name ∧ gateway.Stands user (location.child entry.name) (gateway.fetched user
      (if entry.isFolder then location.childDirectory entry.name else location.child entry.name)) := by
  obtain ⟨⟨place, bytes⟩, below, listed⟩ := MemoryStore.exists_of_mem_entriesOf member
  have segment := MemoryStore.segment_of_listed arranged below listed
  obtain ⟨within, object, stored, _⟩ := MemoryStore.mem_held.1 (MemoryStore.mem_below.1 below).1
  have has : gateway.store.Has place := MemoryStore.has_iff.2 ⟨object, stored⟩
  refine ⟨segment, ?_⟩
  rcases (MemoryStore.listed?_cases listed).2 with ⟨isFile, path⟩ | ⟨isFolder, rest, path⟩
  · have here : location.child entry.name = place := by
      rw [Location.child_eq, ← path, String.ofList_toList, ← within]
    rw [isFile, if_neg Bool.false_ne_true]
    exact .file (here ▸ has) rfl
  · have above : (location.child entry.name).Above place := by
      refine ⟨(location.child_repository _).trans within.symm, rest, ?_⟩
      rw [Location.child_eq, String.toList_ofList, path, List.append_assoc, List.singleton_append]
    rw [isFolder, if_pos rfl]
    exact .folder place has above rfl

theorem Stands.name_eq (stands : gateway.Stands user (location.child name) child) (segment : IsSegment name) :
    child.name = name := by
  cases stands with
  | file stored here => rw [here, Node.name, location_fetched, location.name_child segment]
  | folder lower stored above here =>
      rw [here, Node.name, location_fetched, ← location.childDirectory_eq_folder, location.name_childDirectory segment]

/-- What stands where names lead has the last of them. -/
theorem Stands.name_descend {names : List String} (segments : ∀ name ∈ names, IsSegment name) (segment : IsSegment name)
    (stands : gateway.Stands user (location.descend (names ++ [name])) child) : child.name = name := by
  by_cases some : names = []
  · rw [some, List.nil_append, Location.descend_singleton] at stands
    exact stands.name_eq segment
  · rw [Location.descend_append segments some (List.cons_ne_nil _ _), Location.descend_singleton] at stands
    exact stands.name_eq segment

/-- A directory lists what stands right below it. -/
theorem mem_listed (arranged : gateway.store.Arranged node.location.repository)
    (entries : node.entries = gateway.store.entriesOf node.location.repository node.location.trimmedPath) :
    child ∈ gateway.listed node ↔
      ∃ name, IsSegment name ∧ gateway.Stands node.user (node.location.child name) child := by
  rw [listed, entries, List.mem_map]
  constructor
  · rintro ⟨entry, member, rfl⟩
    obtain ⟨segment, stands⟩ := stands_of_entry arranged member
    exact ⟨entry.name, segment, stands⟩
  · rintro ⟨name, segment, stands⟩
    cases stands with
    | file has here =>
        obtain ⟨object, stored⟩ := MemoryStore.has_iff.1 has
        have listed := @MemoryStore.listed?_child node.location name segment
        exact ⟨⟨name, false⟩, MemoryStore.mem_entriesOf.2 ⟨_, object, stored, listed⟩, here.symm⟩
    | folder lower has above here =>
        obtain ⟨object, stored⟩ := MemoryStore.has_iff.1 has
        have listed := MemoryStore.listed?_of_above segment above
        exact ⟨⟨name, true⟩, MemoryStore.mem_entriesOf.2 ⟨lower, object, stored, listed⟩, here.symm⟩

/-- A directory lists every name once. -/
theorem names_listed_nodup (arranged : gateway.store.Arranged node.location.repository)
    (entries : node.entries = gateway.store.entriesOf node.location.repository node.location.trimmedPath) :
    ((gateway.listed node).map Node.name).Nodup := by
  have named : (gateway.listed node).map Node.name = node.entries.map Entry.name := by
    rw [listed, List.map_map]
    refine List.map_congr_left fun entry member => ?_
    obtain ⟨segment, stands⟩ := @stands_of_entry _ node.user _ _ arranged (entries ▸ member)
    rw [Function.comp_apply, Node.entryLocation]
    exact stands.name_eq segment
  have ascending : MemoryStore.Ascending node.entries := by
    rw [entries, MemoryStore.entriesOf_eq]
    exact MemoryStore.collect_ascending _ .nil
  rw [named]
  refine List.pairwise_map.2 (ascending.imp_of_mem fun {earlier later} member among order same => ?_)
  have less := Forest.name_lt_of_lt order
    (MemoryStore.isFolder_eq_of_name_eq arranged (entries ▸ member) (entries ▸ among))
  rw [same] at less
  exact String.lt_irrefl later.name less

end Listing

end Gateway

end ArtifactGate
