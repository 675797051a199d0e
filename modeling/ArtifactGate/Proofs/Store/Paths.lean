import ArtifactGate.Proofs.Location
import ArtifactGate.Proofs.Store.Deposits

/-!
What a store in memory says about a place. A directory lists, once and in order, each entry by which the
path of an object goes on below it; a place that covers no object is not found.
-/
namespace ArtifactGate

namespace MemoryStore

def Ascending (entries : List Entry) : Prop :=
  entries.Pairwise fun earlier later => compare earlier later = .lt

theorem mem_insertEntry {entry other : Entry} {entries : List Entry} :
    other ∈ insertEntry entry entries ↔ other = entry ∨ other ∈ entries := by
  induction entries with
  | nil => simp [insertEntry]
  | cons first rest ih =>
      simp only [insertEntry]
      split <;> rename_i order
      · exact List.mem_cons
      · obtain rfl := Std.LawfulEqOrd.eq_of_compare order
        simp
      · rw [List.mem_cons, ih, List.mem_cons]
        exact or_left_comm

theorem insertEntry_ascending (entry : Entry) {entries : List Entry} (ascending : Ascending entries) :
    Ascending (insertEntry entry entries) := by
  induction entries with
  | nil => exact List.pairwise_singleton _ _
  | cons first rest ih =>
      obtain ⟨first_lt, rest_ascending⟩ := List.pairwise_cons.1 ascending
      simp only [insertEntry]
      split <;> rename_i order
      · refine List.pairwise_cons.2 ⟨fun other member => ?_, ascending⟩
        rcases List.mem_cons.1 member with rfl | member
        · exact order
        · exact Std.TransCmp.lt_trans order (first_lt other member)
      · exact ascending
      · refine List.pairwise_cons.2 ⟨fun other member => ?_, ih rest_ascending⟩
        rcases mem_insertEntry.1 member with rfl | member
        · exact Std.OrientedCmp.gt_iff_lt.1 order
        · exact first_lt other member

section Listing

variable {repository : String} {above : List Char}

/-- The entry by which an object is listed in a directory of a repository, if it is. -/
def listed? (repository : String) (above : List Char) (location : Location) : Option Entry :=
  if location.repository == repository then entryBelow? above location.path.toList else none

def collect (repository : String) (above : List Char) (objects : List (Location × StoredObject))
    (entries : List Entry) : List Entry :=
  objects.foldl (fun entries (location, _) =>
    match listed? repository above location with
    | some entry => insertEntry entry entries
    | none => entries) entries

theorem entriesOf_eq (store : MemoryStore) (location : Location) :
    store.entriesOf location.repository location.trimmedPath =
      collect location.repository location.stem store.objects.entries [] := by
  have stem : location.stem =
      if location.trimmedPath.isEmpty then [] else location.trimmedPath ++ ['/'] := by
    rcases trimmed : location.trimmedPath with _ | ⟨c, rest⟩ <;> simp only [Location.stem, trimmed] <;> rfl
  rw [entriesOf, collect, stem]
  apply congrArg (fun step => List.foldl step [] store.objects.entries)
  funext entries entry
  obtain ⟨other, object⟩ := entry
  dsimp only
  rw [listed?]
  split <;> rfl

theorem mem_collect {objects : List (Location × StoredObject)} {entries : List Entry} {entry : Entry} :
    entry ∈ collect repository above objects entries ↔
      entry ∈ entries ∨ ∃ object ∈ objects, listed? repository above object.1 = some entry := by
  induction objects generalizing entries with
  | nil => simp [collect]
  | cons first rest ih =>
      rw [collect, List.foldl_cons, ← collect, ih]
      cases listed : listed? repository above first.1 with
      | none => simp [listed]
      | some other =>
          simp only [listed, mem_insertEntry, List.mem_cons, exists_eq_or_imp, Option.some.injEq]
          rw [or_assoc, or_left_comm, eq_comm]

theorem collect_ascending (objects : List (Location × StoredObject)) {entries : List Entry}
    (ascending : Ascending entries) : Ascending (collect repository above objects entries) := by
  induction objects generalizing entries with
  | nil => exact ascending
  | cons first rest ih =>
      rw [collect, List.foldl_cons, ← collect]
      cases listed : listed? repository above first.1 with
      | none =>
          simp only [listed]
          exact ih ascending
      | some entry =>
          simp only [listed]
          exact ih (insertEntry_ascending entry ascending)

end Listing

section Congruence

variable {before after : MemoryStore} {location : Location}

theorem mem_entriesOf {store : MemoryStore} {entry : Entry} :
    entry ∈ store.entriesOf location.repository location.trimmedPath ↔
      ∃ place object, store.objects.get? place = some object ∧
        listed? location.repository location.stem place = some entry := by
  rw [entriesOf_eq, mem_collect]
  simp only [List.not_mem_nil, false_or, Prod.exists, SortedMap.get?_eq_some, exists_and_right]

theorem repository_of_listed {repository : String} {above : List Char} {place : Location} {entry : Entry}
    (listed : listed? repository above place = some entry) : place.repository = repository := by
  rw [listed?] at listed
  split at listed
  · exact eq_of_beq ‹_›
  · cases listed

theorem entriesOf_congr (same : ∀ place, place.repository = location.repository →
      after.objects.get? place = before.objects.get? place) :
    after.entriesOf location.repository location.trimmedPath =
      before.entriesOf location.repository location.trimmedPath := by
  have ascending (store : MemoryStore) :
      Ascending (store.entriesOf location.repository location.trimmedPath) := by
    rw [entriesOf_eq]
    exact collect_ascending _ .nil
  have nodup {entries : List Entry} (ascending : Ascending entries) : entries.Nodup :=
    ascending.imp fun order equal => by
      rw [equal, Std.LawfulEqOrd.compare_eq_iff_eq.2 rfl] at order
      cases order
  refine List.Perm.eq_of_pairwise ?_ (ascending after) (ascending before)
    ((List.perm_ext_iff_of_nodup (nodup (ascending after)) (nodup (ascending before))).2 fun entry => ?_)
  · intro first second _ _ less more
    rw [Std.OrientedCmp.gt_iff_lt.2 less] at more
    cases more
  · rw [mem_entriesOf, mem_entriesOf]
    refine exists_congr fun place => exists_congr fun object => and_congr_left fun listed => ?_
    rw [same place (repository_of_listed listed)]

theorem describe_congr (same : ∀ place, place.repository = location.repository →
      after.objects.get? place = before.objects.get? place) (now : after.now = before.now) :
    after.describe location = before.describe location := by
  have here := same ⟨location.repository, String.ofList location.trimmedPath⟩ rfl
  simp only [describe, here, now, entriesOf_congr same]

end Congruence

/-- No object of the repository is at the location or below it. -/
def Vacant (store : MemoryStore) (location : Location) : Prop :=
  ∀ entry ∈ store.objects.entries, entry.1.repository = location.repository →
    ¬location.Covers entry.1.path.toList

theorem Vacant.of_holds {before after : MemoryStore} {location : Location} {deposits : List Deposit}
    (vacant : before.Vacant location) (holds : before.Holds deposits after)
    (apart : ∀ deposit ∈ deposits, deposit.location.repository = location.repository →
      ¬location.Covers deposit.location.path.toList) : after.Vacant location := by
  intro entry member repository covers
  have found := SortedMap.get?_eq_some.2 member
  rw [holds.1] at found
  rcases get?_of_deposits before.now deposits before.objects entry.1 with kept | ⟨deposit, among, same, _⟩
  · rw [kept] at found
    exact vacant _ (SortedMap.get?_eq_some.1 found) repository covers
  · rw [← same] at repository covers
    exact apart deposit among repository covers

theorem vacant_childDirectory {store : MemoryStore} {location : Location} {name : String}
    (segment : IsSegment name) (vacant : store.Vacant (location.child name)) :
    store.Vacant (location.childDirectory name) := by
  intro entry member repository covers
  apply vacant entry member repository
  rw [Location.Covers, location.trimmedPath_childDirectory segment,
    location.stem_childDirectory segment] at covers
  rwa [Location.Covers, location.trimmedPath_child segment, location.stem_child segment]

theorem describe_vacant {store : MemoryStore} {location : Location} (vacant : store.Vacant location) :
    store.describe location = .error (.notFound location.display) := by
  have absent : store.objects.get? ⟨location.repository, String.ofList location.trimmedPath⟩ = none := by
    rw [Option.eq_none_iff_forall_not_mem]
    intro object found
    refine vacant _ (SortedMap.get?_eq_some.1 found) rfl (.inl ?_)
    exact String.toList_ofList
  have nothing : store.entriesOf location.repository location.trimmedPath = [] := by
    rw [entriesOf_eq, List.eq_nil_iff_forall_not_mem]
    intro entry member
    rcases mem_collect.1 member with none | ⟨object, stored, listed⟩
    · cases none
    · rw [listed?] at listed
      split at listed <;> rename_i repository
      · rw [entryBelow?] at listed
        split at listed
        · rename_i below
          exact vacant object stored (eq_of_beq repository) (.inr (List.isPrefixOf_iff_prefix.1 below))
        · cases listed
      · cases listed
  simp only [describe, absent, nothing]

/-- The paths of a repository's objects are those of files in a tree: their segments are not empty, and no
file is a directory on the way to another. -/
structure Arranged (store : MemoryStore) (repository : String) : Prop where
  segments : ∀ file ∈ store.held repository, [] ∉ Text.pieces Location.isSlash file.1.path.toList
  apart : ∀ file ∈ store.held repository, ∀ other ∈ store.held repository,
    ¬file.1.path.toList ++ ['/'] <+: other.1.path.toList

def below (store : MemoryStore) (location : Location) : List (Location × List UInt8) :=
  (store.held location.repository).filter fun file => location.stem.isPrefixOf file.1.path.toList

theorem mem_below {store : MemoryStore} {location : Location} {file : Location × List UInt8} :
    file ∈ store.below location ↔
      file ∈ store.held location.repository ∧ location.stem <+: file.1.path.toList := by
  rw [below, List.mem_filter, List.isPrefixOf_iff_prefix]

section Arranged

variable {store : MemoryStore} {location place : Location} {bytes : List UInt8} {entry : Entry}

theorem exists_listed (member : (place, bytes) ∈ store.below location) :
    ∃ entry ∈ store.entriesOf location.repository location.trimmedPath,
      listed? location.repository location.stem place = some entry := by
  obtain ⟨kept, below⟩ := mem_below.1 member
  obtain ⟨within, object, found, _⟩ := mem_held.1 kept
  obtain ⟨entry, listed⟩ : ∃ entry, listed? location.repository location.stem place = some entry := by
    rw [listed?, within, if_pos (beq_self_eq_true _), entryBelow?,
      if_pos (List.isPrefixOf_iff_prefix.2 below)]
    dsimp only
    split <;> exact ⟨_, rfl⟩
  refine ⟨entry, ?_, listed⟩
  rw [entriesOf_eq]
  exact mem_collect.2 (.inr ⟨_, SortedMap.get?_eq_some.1 found, listed⟩)

theorem exists_of_mem_entriesOf
    (member : entry ∈ store.entriesOf location.repository location.trimmedPath) :
    ∃ file ∈ store.below location, listed? location.repository location.stem file.1 = some entry := by
  rw [entriesOf_eq] at member
  rcases mem_collect.1 member with none | ⟨object, stored, listed⟩
  · cases none
  · refine ⟨(object.1, object.2.bytes), mem_below.2 ⟨mem_held.2 ?_, ?_⟩, listed⟩ <;>
      rw [listed?] at listed <;> split at listed
    · rename_i within
      exact ⟨eq_of_beq within, object.2, SortedMap.get?_eq_some.2 stored, rfl⟩
    · cases listed
    · rw [entryBelow?] at listed
      split at listed
      · rename_i below
        exact List.isPrefixOf_iff_prefix.1 below
      · cases listed
    · cases listed

theorem listed?_cases {repository : String} {above : List Char}
    (listed : listed? repository above place = some entry) :
    '/' ∉ entry.name.toList ∧
      (entry.isFolder = false ∧ place.path.toList = above ++ entry.name.toList ∨
        entry.isFolder = true ∧ ∃ rest, place.path.toList = above ++ entry.name.toList ++ '/' :: rest) := by
  rw [listed?] at listed
  split at listed
  · rw [entryBelow?] at listed
    split at listed
    · rename_i below
      obtain ⟨rest, path⟩ := List.isPrefixOf_iff_prefix.1 below
      rw [← path, List.drop_left] at listed
      dsimp only at listed
      split at listed
      · rename_i folder more split
        obtain ⟨rfl, absent⟩ := Text.eq_of_splitFirst split
        cases listed
        simp only [String.toList_ofList]
        exact ⟨absent, .inr ⟨trivial, more, by rw [← path, List.append_assoc]⟩⟩
      · rename_i split
        cases listed
        simp only [String.toList_ofList]
        exact ⟨Text.not_mem_of_splitFirst split, .inl ⟨trivial, path.symm⟩⟩
    · cases listed
  · cases listed

theorem nil_not_mem_pieces {rest : List Char}
    (segments : [] ∉ Text.pieces Location.isSlash (location.stem ++ rest)) :
    [] ∉ Text.pieces Location.isSlash rest := by
  rw [Location.stem] at segments
  split at segments
  · exact segments
  · rw [List.append_assoc, List.singleton_append, Text.pieces_append_pieces (by decide), List.mem_append,
      not_or] at segments
    exact segments.2

theorem segment_of_listed (arranged : store.Arranged location.repository)
    (member : (place, bytes) ∈ store.below location)
    (listed : listed? location.repository location.stem place = some entry) : IsSegment entry.name := by
  obtain ⟨absent, path⟩ := listed?_cases listed
  refine ⟨fun empty => ?_, absent⟩
  have segments := arranged.segments _ (mem_below.1 member).1
  rw [empty] at path
  rcases path with ⟨_, path⟩ | ⟨_, rest, path⟩
  · rw [path] at segments
    exact nil_not_mem_pieces segments List.mem_cons_self
  · rw [path, String.toList_empty, List.append_nil] at segments
    exact nil_not_mem_pieces segments List.mem_cons_self

theorem isFolder_eq_of_name_eq {other : Entry} (arranged : store.Arranged location.repository)
    (member : entry ∈ store.entriesOf location.repository location.trimmedPath)
    (otherMember : other ∈ store.entriesOf location.repository location.trimmedPath)
    (same : entry.name = other.name) : entry.isFolder = other.isFolder := by
  obtain ⟨file, below, listed⟩ := exists_of_mem_entriesOf member
  obtain ⟨folder, folderBelow, folderListed⟩ := exists_of_mem_entriesOf otherMember
  have kept := (mem_below.1 below).1
  have folderKept := (mem_below.1 folderBelow).1
  rcases (listed?_cases listed).2 with ⟨isFile, path⟩ | ⟨isFolder, rest, path⟩ <;>
    rcases (listed?_cases folderListed).2 with ⟨otherIsFile, otherPath⟩ | ⟨otherIsFolder, otherRest, otherPath⟩
  · rw [isFile, otherIsFile]
  · refine absurd ⟨otherRest, ?_⟩ (arranged.apart file kept folder folderKept)
    rw [path, otherPath, same, List.append_assoc, List.singleton_append]
  · refine absurd ⟨rest, ?_⟩ (arranged.apart folder folderKept file kept)
    rw [path, otherPath, same, List.append_assoc, List.singleton_append]
  · rw [isFolder, otherIsFolder]

end Arranged

end MemoryStore

end ArtifactGate
