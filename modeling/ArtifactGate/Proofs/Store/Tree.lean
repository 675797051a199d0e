import ArtifactGate.Proofs.Store.Paths

/-!
The objects of a store as files of a tree: none of them is a directory on the way to another. What a store says
of a place tells what it has there, and below.
-/
namespace ArtifactGate

namespace Location

/-- A file at the first place would be a directory on the way to the second. -/
def Above (upper lower : Location) : Prop :=
  upper.repository = lower.repository ∧ upper.path.toList ++ ['/'] <+: lower.path.toList

instance (upper lower : Location) : Decidable (upper.Above lower) :=
  inferInstanceAs (Decidable (_ ∧ _))

variable {upper lower location place : Location}

theorem Above.length_lt (above : upper.Above lower) : upper.path.toList.length < lower.path.toList.length := by
  have short := above.2.length_le
  rw [List.length_append, List.length_singleton] at short
  exact short

theorem path_eq_or_trimmed (location : Location) :
    location.path.toList = location.trimmedPath ∨ location.trimmedPath ++ ['/'] <+: location.path.toList := by
  obtain ⟨slashes, whole, only⟩ := location.exists_trailing
  cases slashes with
  | nil =>
      rw [List.append_nil] at whole
      exact .inl whole
  | cons c rest =>
      obtain rfl : c = '/' := only c List.mem_cons_self
      exact .inr ⟨rest, by rw [whole, List.append_assoc, List.singleton_append]⟩

theorem trimmedPath_prefix (location : Location) : location.trimmedPath <+: location.path.toList := by
  rcases location.path_eq_or_trimmed with same | longer
  · exact same ▸ List.prefix_refl _
  · exact (List.prefix_append _ _).trans longer

theorem trimmedPath_prefix_stem (location : Location) : location.trimmedPath <+: location.stem := by
  rw [stem]
  split
  · rename_i root
    exact root ▸ List.nil_prefix
  · exact List.prefix_append _ _

theorem path_of_namesFile (named : location.namesDirectory = false) :
    location.path.toList = location.trimmedPath := by
  obtain ⟨slashes, whole, only⟩ := location.exists_trailing
  rcases List.eq_nil_or_concat slashes with rfl | ⟨front, c, rfl⟩
  · rw [List.append_nil] at whole
    exact whole
  · rw [List.concat_eq_append] at whole only
    obtain rfl : c = '/' := only c (List.mem_append_right _ (List.mem_singleton_self c))
    rw [namesDirectory, whole, ← List.append_assoc, List.getLast?_append, Bool.or_eq_false_iff] at named
    cases named.2

theorem stem_of_namesFile (named : location.namesDirectory = false) :
    location.stem = location.path.toList ++ ['/'] := by
  have path := path_of_namesFile named
  have below : location.trimmedPath ≠ [] := by
    intro root
    rw [root, String.toList_eq_nil_iff] at path
    rw [namesDirectory, path] at named
    cases named
  rw [stem_of_trimmedPath below, path]

/-- What is a directory on the way to whatever lies below a place is the place itself, or above it. -/
theorem eq_or_prefix_of_stem {path : List Char} (way : path ++ ['/'] <+: location.stem) :
    location.trimmedPath ≠ [] ∧ (path = location.trimmedPath ∨ path ++ ['/'] <+: location.trimmedPath) := by
  by_cases root : location.trimmedPath = []
  · have short := way.length_le
    rw [stem, root, List.length_append] at short
    cases short
  · rw [stem_of_trimmedPath root] at way
    refine ⟨root, (List.prefix_concat_iff.1 way).imp_left ?_⟩
    exact List.append_cancel_right

end Location

namespace MemoryStore

/-- The store has an object at the location. -/
def Has (store : MemoryStore) (location : Location) : Prop :=
  location ∈ store.objects.keys

instance (store : MemoryStore) (location : Location) : Decidable (store.Has location) :=
  inferInstanceAs (Decidable (_ ∈ _))

/-- No object is a directory on the way to another. -/
def IsTree (store : MemoryStore) : Prop :=
  ∀ upper ∈ store.objects.keys, ∀ lower ∈ store.objects.keys, ¬upper.Above lower

instance (store : MemoryStore) : Decidable store.IsTree :=
  inferInstanceAs (Decidable (∀ _ ∈ _, _))

variable {store before after : MemoryStore} {location : Location}

theorem has_iff : store.Has location ↔ ∃ object, store.objects.get? location = some object := by
  simp only [Has, SortedMap.keys, List.mem_map, Prod.exists, exists_and_right, exists_eq_right,
    SortedMap.get?_eq_some]

theorem Vacant.not_covers (vacant : store.Vacant location) {place : Location} (has : store.Has place)
    (within : place.repository = location.repository) : ¬location.Covers place.path.toList := by
  obtain ⟨object, stored⟩ := has_iff.1 has
  exact vacant _ (SortedMap.get?_eq_some.1 stored) within

theorem has_of_gains_nothing (gains : before.Holds [] after) : after.Has = before.Has := by
  funext location
  rw [Has, gains.1]
  rfl

theorem has_of_gains_one {deposit : Deposit} (gains : before.Holds [deposit] after) :
    after.Has = fun location => location = deposit.location ∨ before.Has location := by
  funext location
  rw [has_iff, has_iff, gains.1, List.foldl_cons, List.foldl_nil, Deposit.place]
  by_cases here : location = deposit.location
  · rw [here, SortedMap.get?_insert_self]
    simp
  · rw [SortedMap.get?_insert_of_ne _ here]
    simp [here]

/-- What the store says of a place is that there is a file, that there are files below it and none at it, or that
there is nothing. -/
theorem describe_cases (store : MemoryStore) (location : Location) :
    (∃ metadata, store.describe location = .ok metadata ∧ metadata.isDirectory = false ∧
        store.Has ⟨location.repository, String.ofList location.trimmedPath⟩) ∨
      (∃ metadata, store.describe location = .ok metadata ∧ metadata.isDirectory = true ∧
        ¬store.Has ⟨location.repository, String.ofList location.trimmedPath⟩ ∧
        ∃ lower, store.Has lower ∧ lower.repository = location.repository ∧ location.stem <+: lower.path.toList) ∨
      store.describe location = .error (.notFound location.display) ∧ store.Vacant location := by
  cases here : store.objects.get? ⟨location.repository, String.ofList location.trimmedPath⟩ with
  | some object =>
      have file : store.describe location = .ok (Metadata.file object.created location.repository
          (String.ofList ('/' :: location.trimmedPath)) object.bytes.length) := by
        simp only [describe, here]
      exact .inl ⟨_, file, rfl, has_iff.2 ⟨object, here⟩⟩
  | none =>
      have absent : ¬store.Has ⟨location.repository, String.ofList location.trimmedPath⟩ := by
        rw [has_iff, here]
        intro has
        obtain ⟨object, found⟩ := has
        cases found
      cases listed : store.entriesOf location.repository location.trimmedPath with
      | nil =>
          refine .inr (.inr ⟨?_, ?_⟩)
          · simp only [describe, here, listed]
          · intro entry member repository covers
            have kept : (entry.1, entry.2.bytes) ∈ store.held location.repository :=
              mem_held.2 ⟨repository, entry.2, SortedMap.get?_eq_some.2 member, rfl⟩
            rcases covers with same | below
            · refine absent (List.mem_map.2 ⟨entry, member, ?_⟩)
              rw [← repository, ← same, String.ofList_toList]
            · obtain ⟨name, among, _⟩ := exists_listed (mem_below.2 ⟨kept, below⟩)
              rw [listed] at among
              cases among
      | cons entry rest =>
          have some : entry ∈ store.entriesOf location.repository location.trimmedPath :=
            listed ▸ List.mem_cons_self
          obtain ⟨file, below, _⟩ := exists_of_mem_entriesOf some
          obtain ⟨kept, stem⟩ := mem_below.1 below
          obtain ⟨repository, object, found, _⟩ := mem_held.1 kept
          have directory : store.describe location = .ok (Metadata.directory store.now location.repository
              (String.ofList ('/' :: location.trimmedPath)) (entry :: rest)) := by
            simp only [describe, here, listed]
          exact .inr (.inl ⟨_, directory, rfl, absent, file.1, has_iff.2 ⟨object, found⟩, repository, stem⟩)

end MemoryStore

end ArtifactGate
