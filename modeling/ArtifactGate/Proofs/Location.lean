import ArtifactGate.Location
import ArtifactGate.Proofs.Text.Split

/-!
Paths below a location. A name is put after the stem of a location; what lies at or below one name is told
apart from what lies at or below another by the slash that ends a name.
-/
namespace ArtifactGate

def IsSegment (name : String) : Prop :=
  name ≠ "" ∧ '/' ∉ name.toList

namespace Location

theorem child_repository (location : Location) (name : String) :
    (location.child name).repository = location.repository := by
  rw [child]
  split <;> rfl

theorem childDirectory_repository (location : Location) (name : String) :
    (location.childDirectory name).repository = location.repository :=
  location.child_repository name

theorem parent?_repository {location parent : Location} (above : location.parent? = some parent) :
    parent.repository = location.repository := by
  rw [parent?] at above
  split at above
  · cases above
  · cases above
    rfl

theorem parent?_cases {location parent : Location} (inside : location.parent? = some parent) :
    parent.repository = location.repository ∧ parent.namesDirectory = true := by
  refine ⟨parent?_repository inside, ?_⟩
  rw [parent?] at inside
  split at inside
  · cases inside
  · cases inside
    rw [namesDirectory, String.toList_ofList, Bool.or_eq_true, beq_iff_eq]
    cases last : (Text.dropTrailing (fun c => !isSlash c) location.trimmedPath).getLast? with
    | none =>
        rw [List.getLast?_eq_none_iff.1 last]
        exact .inl rfl
    | some c =>
        have slash := Text.not_of_dropTrailing last
        rw [Bool.not_eq_false', isSlash, beq_iff_eq] at slash
        exact .inr (congrArg some slash)

theorem isSlash_of_slashless {c : Char} {cs : List Char} (slashless : '/' ∉ cs) (member : c ∈ cs) :
    isSlash c = false := by
  apply beq_false_of_ne
  rintro rfl
  exact slashless member

/-- Slashes at the end of a path are all that is trimmed from it. -/
theorem exists_trailing (location : Location) :
    ∃ slashes, location.path.toList = location.trimmedPath ++ slashes ∧ ∀ c ∈ slashes, c = '/' :=
  ⟨_, (Text.dropTrailing_append_takeTrailing isSlash location.path.toList).symm,
    fun c member => eq_of_beq (Text.takeTrailing_all c member)⟩

/-- What stands in the path before a name below the location. -/
def stem (location : Location) : List Char :=
  match location.trimmedPath with
  | [] => []
  | trimmed => trimmed ++ ['/']

theorem child_eq (location : Location) (name : String) :
    location.child name = ⟨location.repository, String.ofList (location.stem ++ name.toList)⟩ := by
  rw [child]
  rcases trimmed : location.trimmedPath with _ | ⟨c, rest⟩ <;> simp only [stem, trimmed]
  · rw [List.nil_append, String.ofList_toList]
  · rw [List.append_assoc, List.singleton_append]

theorem childDirectory_eq (location : Location) (name : String) :
    location.childDirectory name =
      ⟨location.repository, String.ofList (location.stem ++ name.toList ++ ['/'])⟩ := by
  simp only [childDirectory, child_eq, String.ofList_append, String.append_assoc]

section Names

variable {name other : String}

theorem trimmedPath_of_segment (segment : IsSegment name) (repository : String) (stem : List Char) :
    trimmedPath ⟨repository, String.ofList (stem ++ name.toList)⟩ = stem ++ name.toList := by
  have some : name.toList ≠ [] := by
    simpa using segment.1
  rw [trimmedPath, String.toList_ofList]
  exact Text.dropTrailing_of_none some fun _ member => isSlash_of_slashless segment.2 member

theorem trimmedPath_child (location : Location) (segment : IsSegment name) :
    (location.child name).trimmedPath = location.stem ++ name.toList := by
  rw [child_eq, trimmedPath_of_segment segment]

theorem trimmedPath_childDirectory (location : Location) (segment : IsSegment name) :
    (location.childDirectory name).trimmedPath = location.stem ++ name.toList := by
  have trimmed := trimmedPath_of_segment segment location.repository location.stem
  rw [trimmedPath, String.toList_ofList] at trimmed
  rw [childDirectory_eq, trimmedPath, String.toList_ofList, Text.dropTrailing_snoc (by decide), trimmed]

theorem stem_of_trimmedPath {location : Location} (below : location.trimmedPath ≠ []) :
    location.stem = location.trimmedPath ++ ['/'] := by
  rw [stem]
  split
  · rename_i root
    exact absurd root below
  · rfl

theorem segment_ne_nil (segment : IsSegment name) (stem : List Char) : stem ++ name.toList ≠ [] := by
  have some : name.toList ≠ [] := by
    simpa using segment.1
  simp [some]

theorem stem_child (location : Location) (segment : IsSegment name) :
    (location.child name).stem = location.stem ++ name.toList ++ ['/'] := by
  have trimmed := location.trimmedPath_child segment
  rw [stem_of_trimmedPath (trimmed ▸ segment_ne_nil segment _), trimmed]

theorem child_ne (location : Location) (segment : IsSegment name) : location.child name ≠ location := by
  intro same
  have longer := congrArg List.length (location.stem_child segment)
  rw [same, List.length_append, List.length_append, List.length_singleton] at longer
  omega

theorem stem_childDirectory (location : Location) (segment : IsSegment name) :
    (location.childDirectory name).stem = location.stem ++ name.toList ++ ['/'] := by
  have trimmed := location.trimmedPath_childDirectory segment
  rw [stem_of_trimmedPath (trimmed ▸ segment_ne_nil segment _), trimmed]

theorem namesDirectory_childDirectory (location : Location) (name : String) :
    (location.childDirectory name).namesDirectory = true := by
  rw [childDirectory_eq, namesDirectory, String.toList_ofList]
  simp

theorem namesDirectory_child (location : Location) (segment : IsSegment name) :
    (location.child name).namesDirectory = false := by
  have path : (location.child name).path.toList = location.stem ++ name.toList := by
    rw [child_eq, String.toList_ofList]
  obtain ⟨c, last⟩ := Option.ne_none_iff_exists'.1 (mt List.getLast?_eq_none_iff.1 (segment_ne_nil segment []))
  rw [List.nil_append] at last
  have other : c ≠ '/' := fun slash => segment.2 (slash ▸ List.mem_of_getLast? last)
  rw [namesDirectory, path, List.getLast?_append, last, Bool.or_eq_false_iff]
  refine ⟨?_, beq_false_of_ne fun slash => other (Option.some.inj slash)⟩
  rw [← Bool.not_eq_true, String.isEmpty_iff]
  intro empty
  rw [empty] at path
  exact segment_ne_nil segment _ path.symm

/-- The path is that of the location or of something below it. -/
def Covers (location : Location) (path : List Char) : Prop :=
  path = location.trimmedPath ∨ location.stem <+: path

theorem covers_child (location : Location) (segment : IsSegment name) {path : List Char} :
    (location.child name).Covers path ↔ path = location.stem ++ name.toList ∨
      ∃ rest, path = location.stem ++ name.toList ++ '/' :: rest := by
  rw [Covers, location.trimmedPath_child segment, location.stem_child segment, List.IsPrefix]
  simp only [List.append_assoc, List.singleton_append, eq_comm]

theorem eq_of_covers {location : Location} (segment : IsSegment name) (otherSegment : IsSegment other)
    {path : List Char} (covers : (location.child name).Covers path)
    (also : (location.child other).Covers path) : name = other := by
  have same (first second : List Char) (free : '/' ∉ first) (otherFree : '/' ∉ second)
      {rest last : List Char} (equal : first ++ '/' :: rest = second ++ '/' :: last) : first = second := by
    have split := Text.splitFirst_append free rest
    rw [equal, Text.splitFirst_append otherFree] at split
    exact (Prod.mk.inj (Option.some.inj split)).1.symm
  rw [covers_child location segment] at covers
  rw [covers_child location otherSegment] at also
  rcases covers with rfl | ⟨rest, rfl⟩ <;> rcases also with also | ⟨last, also⟩ <;>
    simp only [List.append_assoc, List.append_cancel_left_eq] at also
  · exact String.toList_inj.1 also
  · exact absurd (also ▸ List.mem_append_right _ List.mem_cons_self) segment.2
  · exact absurd (also ▸ List.mem_append_right _ List.mem_cons_self) otherSegment.2
  · exact String.toList_inj.1 (same _ _ segment.2 otherSegment.2 also)

theorem covers_of_inside {location : Location} (segment : IsSegment name) (otherSegment : IsSegment other)
    {path : List Char} (covers : ((location.childDirectory name).child other).Covers path) :
    (location.child name).Covers path := by
  rw [covers_child _ otherSegment, location.stem_childDirectory segment] at covers
  refine (covers_child location segment).2 (.inr ?_)
  rcases covers with rfl | ⟨rest, rfl⟩
  · exact ⟨other.toList, by simp⟩
  · exact ⟨other.toList ++ '/' :: rest, by simp⟩

theorem isSlash_of_stem {location : Location} {c : Char} (last : location.stem.getLast? = some c) :
    c = '/' := by
  rw [stem] at last
  split at last
  · cases last
  · rw [List.getLast?_append] at last
    exact (Option.some.inj last).symm

theorem takeTrailing_stem (location : Location) (segment : IsSegment name) :
    Text.takeTrailing (fun c => !isSlash c) (location.stem ++ name.toList) = name.toList := by
  have others : ∀ c ∈ name.toList, (!isSlash c) = true := by
    intro c member
    rw [isSlash_of_slashless segment.2 member]
    rfl
  apply Text.takeTrailing_of_all others
  intro c last
  rw [isSlash_of_stem last]
  rfl

theorem name_of_trimmedPath {location below : Location} (segment : IsSegment name)
    (path : below.trimmedPath = location.stem ++ name.toList) : below.name = name := by
  rw [Location.name, path, location.takeTrailing_stem segment]
  split
  · rename_i empty
    exact absurd empty (segment_ne_nil segment [])
  · exact String.ofList_toList

theorem name_child (location : Location) (segment : IsSegment name) : (location.child name).name = name :=
  name_of_trimmedPath segment (location.trimmedPath_child segment)

theorem name_childDirectory (location : Location) (segment : IsSegment name) :
    (location.childDirectory name).name = name :=
  name_of_trimmedPath segment (location.trimmedPath_childDirectory segment)

end Names

theorem slash_not_mem_name {location : Location} (free : '/' ∉ location.repository.toList) :
    '/' ∉ location.name.toList := by
  rw [Location.name]
  split
  · exact free
  · rw [String.toList_ofList]
    intro member
    cases Text.takeTrailing_all _ member

theorem slash_not_mem_resolve {text : String} (outside : (resolve text).isSink = false) :
    '/' ∉ (resolve text).repository.toList := by
  rw [resolve] at outside ⊢
  split
  · rename_i path below
    rw [below] at outside
    cases outside
  · split
    · rename_i repository path split
      rw [String.toList_ofList]
      exact (Text.eq_of_splitFirst split).2
    · exact List.not_mem_nil

end Location

end ArtifactGate
