import ArtifactGate.Proofs.Location

/-!
Up and down from a location. What is put below a location has its name, and leads back to the directory that the
location names, however its slashes are written. Each step up takes one segment from the path, so there are as many
steps to the root as the path has segments that are not empty.
-/
namespace ArtifactGate

namespace Location

/-- How the directory that a path leads to is written: the root without a path, and any other with one slash in place
of all that its path ends in. -/
inductive Closes : List Char → List Char → Prop
  | root {slashes : List Char} (only : ∀ c ∈ slashes, c = '/') : Closes slashes []
  | below {trunk slashes : List Char} {last : Char} (other : last ≠ '/') (only : ∀ c ∈ slashes, c = '/') :
    Closes (trunk ++ last :: slashes) (trunk ++ [last, '/'])

/-- The location so many steps further up. -/
def ascend : Nat → Location → Option Location
  | 0, location => some location
  | steps + 1, location => location.parent?.bind (ascend steps)

/-- How many stretches between slashes are not empty. -/
def segmentCount (path : List Char) : Nat :=
  ((Text.pieces isSlash path).filter fun segment => !segment.isEmpty).length

section Slashes

variable {slashes : List Char}

theorem ne_slash_of_trimmedPath {location : Location} {c : Char} (last : location.trimmedPath.getLast? = some c) :
    c ≠ '/' := by
  rintro rfl
  cases Text.not_of_dropTrailing last

/-- The stem of a location is its directory as it is written. -/
theorem closes_stem (location : Location) : Closes location.path.toList location.stem := by
  obtain ⟨slashes, whole, only⟩ := location.exists_trailing
  rw [whole]
  rcases List.eq_nil_or_concat location.trimmedPath with root | ⟨trunk, last, trimmed⟩
  · rw [stem, root]
    exact .root only
  · rw [List.concat_eq_append] at trimmed
    have below : location.trimmedPath ≠ [] := by simp [trimmed]
    have other : last ≠ '/' := ne_slash_of_trimmedPath (by rw [trimmed, List.getLast?_concat])
    rw [stem_of_trimmedPath below, trimmed, List.append_assoc, List.append_assoc]
    exact .below other only

theorem segmentCount_slash (front rest : List Char) :
    segmentCount (front ++ '/' :: rest) = segmentCount front + segmentCount rest := by
  have slash : isSlash '/' = true := rfl
  rw [segmentCount, Text.pieces_append_pieces slash, List.filter_append, List.length_append]
  rfl

theorem segmentCount_append_slashes (front : List Char) (only : ∀ c ∈ slashes, c = '/') :
    segmentCount (front ++ slashes) = segmentCount front := by
  induction slashes generalizing front with
  | nil => rw [List.append_nil]
  | cons c slashes ih =>
      obtain ⟨rfl, others⟩ := List.forall_mem_cons.1 only
      have none : segmentCount slashes = 0 := ih [] others
      rw [segmentCount_slash, none, Nat.add_zero]

theorem segmentCount_trimmedPath (location : Location) :
    segmentCount location.path.toList = segmentCount location.trimmedPath := by
  obtain ⟨slashes, whole, only⟩ := location.exists_trailing
  rw [whole, segmentCount_append_slashes _ only]

end Slashes

section Segment

variable {location below parent : Location} {name : String}

theorem parent?_of_trimmedPath (segment : IsSegment name) (path : below.trimmedPath = location.stem ++ name.toList) :
    below.parent? = some ⟨below.repository, String.ofList location.stem⟩ := by
  have stem : Text.dropTrailing (fun c => !isSlash c) (location.stem ++ name.toList) = location.stem := by
    have whole := Text.dropTrailing_append_takeTrailing (fun c => !isSlash c) (location.stem ++ name.toList)
    rw [location.takeTrailing_stem segment] at whole
    exact List.append_cancel_right whole
  rw [parent?, path]
  split
  · rename_i root
    exact absurd root (segment_ne_nil segment _)
  · rw [stem]

theorem parent?_child (location : Location) (segment : IsSegment name) :
    (location.child name).parent? = some ⟨location.repository, String.ofList location.stem⟩ := by
  rw [parent?_of_trimmedPath segment (location.trimmedPath_child segment), child_repository]

theorem parent?_childDirectory (location : Location) (segment : IsSegment name) :
    (location.childDirectory name).parent? = some ⟨location.repository, String.ofList location.stem⟩ := by
  rw [parent?_of_trimmedPath segment (location.trimmedPath_childDirectory segment), childDirectory_repository]

/-- A directory below a location has its stem for its path, so it is what lies below it that leads back to it. -/
theorem parent?_child_childDirectory (location : Location) {inner : String} (segment : IsSegment name)
    (innerSegment : IsSegment inner) :
    ((location.childDirectory name).child inner).parent? = some (location.childDirectory name) := by
  rw [parent?_child _ innerSegment, stem_childDirectory location segment, childDirectory_eq]

theorem segmentCount_of_segment (segment : IsSegment name) : segmentCount name.toList = 1 := by
  have some : (!name.toList.isEmpty) = true := by simpa using segment.1
  have slashless : ∀ c ∈ name.toList, isSlash c = false :=
    fun _ member => isSlash_of_slashless segment.2 member
  rw [segmentCount, Text.pieces_of_none slashless, List.filter_cons, if_pos some]
  rfl

/-- A segment counts by itself after what names a directory. -/
theorem segmentCount_append (directory : parent.namesDirectory = true) (segment : IsSegment name) :
    segmentCount (parent.path.toList ++ name.toList) = segmentCount parent.path.toList + 1 := by
  rw [namesDirectory, Bool.or_eq_true, String.isEmpty_iff, beq_iff_eq] at directory
  rcases directory with root | slash
  · rw [root]
    exact segmentCount_of_segment segment
  · obtain ⟨front, path⟩ := List.getLast?_eq_some_iff.1 slash
    rw [path, List.append_assoc, List.singleton_append, segmentCount_slash, segmentCount_slash,
      segmentCount_of_segment segment]
    rfl

/-- What a step up leaves out is the last segment, and the slashes after it. -/
theorem exists_of_parent? (above : location.parent? = some parent) :
    ∃ name, IsSegment name ∧ location.trimmedPath = parent.path.toList ++ String.toList name := by
  let last := Text.takeTrailing (fun c => !isSlash c) location.trimmedPath
  have path : parent.path.toList = Text.dropTrailing (fun c => !isSlash c) location.trimmedPath := by
    rw [parent?] at above
    split at above
    · cases above
    · cases above
      rw [String.toList_ofList]
  have whole : location.trimmedPath = parent.path.toList ++ last := by
    rw [path, Text.dropTrailing_append_takeTrailing]
  refine ⟨String.ofList last, ⟨fun none => ?_, fun slash => ?_⟩, ?_⟩
  · -- Otherwise the parent would have the trimmed path for its own, which cannot name a directory.
    have none : last = [] := by simpa using none
    rw [none, List.append_nil] at whole
    have directory := (parent?_cases above).2
    rw [namesDirectory, Bool.or_eq_true, String.isEmpty_iff, beq_iff_eq, ← whole] at directory
    rcases directory with root | slash
    · rw [root] at whole
      rw [parent?, whole] at above
      cases above
    · exact ne_slash_of_trimmedPath slash rfl
  · rw [String.toList_ofList] at slash
    cases Text.takeTrailing_all _ slash
  · rw [String.toList_ofList, whole]

theorem segmentCount_parent? (above : location.parent? = some parent) :
    segmentCount location.path.toList = segmentCount parent.path.toList + 1 := by
  obtain ⟨name, segment, trimmed⟩ := exists_of_parent? above
  rw [segmentCount_trimmedPath, trimmed, segmentCount_append (parent?_cases above).2 segment]

theorem segmentCount_of_root (root : location.parent? = none) : segmentCount location.path.toList = 0 := by
  rw [parent?] at root
  split at root
  · rename_i trimmed
    rw [segmentCount_trimmedPath, trimmed]
    rfl
  · cases root

theorem parent?_eq_none : location.parent? = none ↔ segmentCount location.path.toList = 0 := by
  refine ⟨segmentCount_of_root, fun none => ?_⟩
  cases above : location.parent? with
  | none => rfl
  | some parent =>
      rw [segmentCount_parent? above] at none
      cases none

/-- The root is so many steps up as there are segments, and no other number of steps leads to it. -/
theorem ascend_root {steps : Nat} :
    (∃ top, location.ascend steps = some top ∧ top.parent? = none) ↔ steps = segmentCount location.path.toList := by
  induction steps generalizing location with
  | zero =>
      rw [eq_comm, ← parent?_eq_none]
      constructor
      · rintro ⟨_, ⟨⟩, root⟩
        exact root
      · intro root
        exact ⟨location, rfl, root⟩
  | succ steps ih =>
      rw [ascend]
      cases above : location.parent? with
      | none =>
          rw [segmentCount_of_root above]
          exact ⟨nofun, nofun⟩
      | some parent =>
          rw [segmentCount_parent? above, Nat.add_right_cancel_iff]
          exact ih

theorem length_ancestors (limit : Nat) :
    (location.ancestors limit).length = min limit (segmentCount location.path.toList) := by
  induction limit generalizing location with
  | zero => rw [Nat.zero_min]; rfl
  | succ limit ih =>
      unfold ancestors
      cases above : location.parent? with
      | none => rw [segmentCount_of_root above, Nat.min_zero]; rfl
      | some parent => rw [segmentCount_parent? above, Nat.add_min_add_right, ← ih]; rfl

end Segment

/-- What is put below a location has its name, and its parent is the directory of the location with one slash at its
end, or the root; a directory that is put there is itself the parent of what is put below it. Every parent names a
directory, and the root is reached in as many steps as the path has segments that are not empty. -/
theorem navigation_consistent (location : Location) :
    (∀ name, IsSegment name →
      (location.child name).name = name ∧
      (∃ directory, Closes location.path.toList directory ∧
        (location.child name).parent? = some ⟨location.repository, String.ofList directory⟩ ∧
        (location.childDirectory name).parent? = some ⟨location.repository, String.ofList directory⟩) ∧
      ∀ inner, IsSegment inner →
        ((location.childDirectory name).child inner).parent? = some (location.childDirectory name)) ∧
    (∀ parent, location.parent? = some parent → parent.namesDirectory = true) ∧
    (∀ steps, (∃ top, location.ascend steps = some top ∧ top.parent? = none) ↔
      steps = segmentCount location.path.toList) ∧
    ∀ limit, (location.ancestors limit).length = min limit (segmentCount location.path.toList) := by
  refine ⟨fun name segment => ⟨?_, ?_, fun inner innerSegment => ?_⟩, fun parent above => ?_, fun steps => ?_, ?_⟩
  · exact location.name_child segment
  · exact ⟨location.stem, location.closes_stem, location.parent?_child segment,
      location.parent?_childDirectory segment⟩
  · exact location.parent?_child_childDirectory segment innerSegment
  · exact (parent?_cases above).2
  · exact ascend_root
  · exact length_ancestors

/-- Slashes before the path, after it and twice in between. -/
theorem navigation_consistent_of_many_slashes :
    let location : Location := ⟨"libs", "//a//b//"⟩
    IsSegment "n" ∧ IsSegment "m" ∧ (location.child "n").name = "n" ∧
      (∃ directory, Closes "//a//b//".toList directory ∧ directory = "//a//b/".toList ∧
        (location.child "n").parent? = some ⟨"libs", String.ofList directory⟩ ∧
        (location.childDirectory "n").parent? = some ⟨"libs", String.ofList directory⟩) ∧
      ((location.childDirectory "n").child "m").parent? = some (location.childDirectory "n") ∧
      location.parent? = some ⟨"libs", "//a//"⟩ ∧ namesDirectory ⟨"libs", "//a//"⟩ = true ∧
      (∃ top, location.ascend 2 = some top ∧ top.parent? = none) ∧ (location.ancestors 9).length = 2 := by
  intro location
  have segment : IsSegment "n" := ⟨by decide, by decide⟩
  have innerSegment : IsSegment "m" := ⟨by decide, by decide⟩
  have above : location.parent? = some ⟨"libs", "//a//"⟩ := by decide +kernel
  have count : segmentCount location.path.toList = 2 := by decide +kernel
  have ⟨below, directories, steps, listed⟩ := navigation_consistent location
  obtain ⟨named, ⟨directory, closes, leads, directoryLeads⟩, inside⟩ := below "n" segment
  have written : (location.child "n").parent? = some ⟨"libs", "//a//b/"⟩ := by decide +kernel
  refine ⟨segment, innerSegment, named, ⟨directory, closes, ?_, leads, directoryLeads⟩, inside "m" innerSegment,
    above, directories _ above, (steps 2).2 count.symm, ?_⟩
  · have same := congrArg Location.path (Option.some.inj (leads.symm.trans written))
    exact String.ofList_injective same
  · rw [listed 9, count]
    rfl

end Location

end ArtifactGate
