import ArtifactGate.Proofs.Session.KeptForest

/-!
What a store lists of what it keeps is determined by the files: siblings stand in the order of their names, and every
directory has a file in it.
-/
namespace ArtifactGate

namespace Forest

/-- As a store lists what it keeps: no warnings, something in every directory, and the permissions that every
file and every directory has. -/
def Listed : Forest → Prop
  | nil => True
  | warning _ _ => False
  | file label _ rest => label = ⟨label.name, filePermissions, none⟩ ∧ rest.Listed
  | directory label inside rest =>
    label = ⟨label.name, directoryPermissions, none⟩ ∧ inside.files ≠ [] ∧ inside.Listed ∧ rest.Listed

theorem Kept.listed {forest : Forest} {gateway : Gateway MemoryStore} {location : Location}
    (kept : forest.Kept gateway (fun _ => none) location) : forest.Listed := by
  induction forest generalizing location with
  | nil => trivial
  | warning text rest ih => exact kept.elim
  | file label bytes rest ih =>
      obtain ⟨⟨_, _, _, same⟩, _, restKept⟩ := kept
      exact ⟨same, ih restKept⟩
  | directory label inside rest ihInside ih =>
      obtain ⟨⟨metadata, described, isDirectory, entries, same⟩, insideKept, restKept⟩ := kept
      refine ⟨same, files_ne_nil_of_kept insideKept ?_, ihInside insideKept, ih restKept⟩
      exact entries ▸ Gateway.entries_ne_nil_of_folder described isDirectory

section Unique

variable {rest other : Forest} {name otherName : String} {top otherTop : List (List String × List UInt8)}

theorem later_of_mem_files (ascending : rest.Ascending) (above : ∀ other ∈ rest.names, name < other)
    {file : List String × List UInt8} (member : file ∈ rest.files) :
    ∃ later, file.1.head? = some later ∧ name < later := by
  obtain ⟨first, names, split, outermost, _⟩ := names_of_mem_files ascending.distinct member
  exact ⟨first, by rw [split]; rfl, above first outermost⟩

/-- Files under a name are among others only if theirs is that name or an earlier one. -/
theorem name_le_of_subset {first : List (List String × List UInt8)} (within : first ⊆ otherTop ++ other.files)
    (some : first ≠ []) (named : ∀ file ∈ first, file.1.head? = .some name)
    (otherNamed : ∀ file ∈ otherTop, file.1.head? = .some otherName)
    (otherLater : ∀ file ∈ other.files, ∃ later, file.1.head? = .some later ∧ otherName < later) :
    name = otherName ∨ otherName < name := by
  obtain ⟨file, member⟩ := List.exists_mem_of_ne_nil _ some
  have head := named file member
  rcases List.mem_append.1 (within member) with among | among
  · rw [otherNamed file among] at head
    exact .inl (Option.some.inj head).symm
  · obtain ⟨last, found, order⟩ := otherLater file among
    rw [found] at head
    exact .inr (Option.some.inj head ▸ order)

/-- The files under a name are told from those under later names by their first name. -/
theorem filter_named (named : ∀ file ∈ top, file.1.head? = .some name)
    (later : ∀ file ∈ rest.files, ∃ later, file.1.head? = .some later ∧ name < later) :
    (top ++ rest.files).filter (fun file => file.1.head? == .some name) = top ∧
      (top ++ rest.files).filter (fun file => !(file.1.head? == .some name)) = rest.files := by
  have ours : ∀ file ∈ top, (file.1.head? == .some name) = true := fun file member =>
    beq_iff_eq.2 (named file member)
  have others : ∀ file ∈ rest.files, (file.1.head? == .some name) = false := by
    intro file member
    refine beq_eq_false_iff_ne.2 fun head => ?_
    obtain ⟨last, found, order⟩ := later file member
    rw [head] at found
    exact String.lt_irrefl name (Option.some.inj found ▸ order)
  constructor
  · rw [List.filter_append, List.filter_eq_self.2 ours, List.filter_eq_nil_iff.2 (by simpa using others),
      List.append_nil]
  · rw [List.filter_append, List.filter_eq_nil_iff.2 (by simpa using ours),
      List.filter_eq_self.2 (by simpa using others), List.nil_append]

/-- When files under one name stand before files under later names, the first name and its files can be told from
all the files. -/
theorem first_of_perm (same : (top ++ rest.files).Perm (otherTop ++ other.files)) (some : top ≠ [])
    (otherSome : otherTop ≠ []) (named : ∀ file ∈ top, file.1.head? = .some name)
    (otherNamed : ∀ file ∈ otherTop, file.1.head? = .some otherName)
    (later : ∀ file ∈ rest.files, ∃ later, file.1.head? = .some later ∧ name < later)
    (otherLater : ∀ file ∈ other.files, ∃ later, file.1.head? = .some later ∧ otherName < later) :
    name = otherName ∧ top.Perm otherTop ∧ rest.files.Perm other.files := by
  have within : top ⊆ otherTop ++ other.files := fun _ member => same.subset (List.mem_append_left _ member)
  have otherWithin : otherTop ⊆ top ++ rest.files := fun _ member =>
    same.symm.subset (List.mem_append_left _ member)
  have equal : name = otherName := by
    rcases name_le_of_subset within some named otherNamed otherLater with equal | lower
    · exact equal
    · rcases name_le_of_subset otherWithin otherSome otherNamed named later with equal | higher
      · exact equal.symm
      · exact absurd higher (String.lt_asymm lower)
  subst equal
  obtain ⟨front, back⟩ := filter_named named later
  obtain ⟨otherFront, otherBack⟩ := filter_named otherNamed otherLater
  refine ⟨rfl, ?_, ?_⟩
  · rw [← front, ← otherFront]
    exact same.filter _
  · rw [← back, ← otherBack]
    exact same.filter _

theorem inside_ne_singleton {inside : Forest} (ascending : inside.Ascending) (name otherName : String)
    (bytes : List UInt8) :
    ¬[([name], bytes)].Perm (inside.files.map fun file => (otherName :: file.1, file.2)) := by
  intro same
  obtain ⟨file, member, equal⟩ := List.mem_map.1 (same.subset List.mem_cons_self)
  obtain ⟨first, names, split, _⟩ := names_of_mem_files ascending.distinct member
  rw [split] at equal
  cases equal

/-- Listed forests with the same files are equal: what is listed is determined by the files. -/
theorem eq_of_files_perm {forest : Forest} (listed : forest.Listed) (ascending : forest.Ascending)
    (otherListed : other.Listed) (otherAscending : other.Ascending) (same : forest.files.Perm other.files) :
    forest = other := by
  have top_ne_nil {name : String} {inside : Forest} (some : inside.files ≠ []) :
      inside.files.map (fun file => (name :: file.1, file.2)) ≠ [] := mt List.map_eq_nil_iff.1 some
  have top_named {name : String} {inside : Forest} :
      ∀ file ∈ inside.files.map (fun file => (name :: file.1, file.2)), file.1.head? = .some name := by
    intro file member
    obtain ⟨inner, _, rfl⟩ := List.mem_map.1 member
    rfl
  have single_named {name : String} {bytes : List UInt8} :
      ∀ file ∈ [([name], bytes)], file.1.head? = .some name := List.forall_mem_singleton.2 rfl
  induction forest generalizing other with
  | nil =>
      cases other with
      | nil => rfl
      | warning text rest => exact otherListed.elim
      | file label bytes rest => cases same.nil_eq
      | directory label inside rest =>
          exact absurd (List.append_eq_nil_iff.1 same.nil_eq.symm).1 (top_ne_nil otherListed.2.1)
  | warning text rest ih => exact listed.elim
  | file label bytes rest ih =>
      obtain ⟨labelled, listedRest⟩ := listed
      obtain ⟨_, above, ascendingRest⟩ := ascending
      have later := fun file => @later_of_mem_files _ _ ascendingRest above file
      cases other with
      | nil => cases same.eq_nil
      | warning text others => exact otherListed.elim
      | file label' bytes' others =>
          obtain ⟨labelled', listedOthers⟩ := otherListed
          obtain ⟨_, above', ascendingOthers⟩ := otherAscending
          obtain ⟨named, top, rests⟩ := @first_of_perm rest others label.name label'.name [([label.name], bytes)]
            [([label'.name], bytes')] same (List.cons_ne_nil _ _) (List.cons_ne_nil _ _) single_named single_named
            later fun file => later_of_mem_files ascendingOthers above'
          have equal := List.singleton_perm_singleton.1 top
          rw [labelled, labelled', named, (Prod.mk.inj equal).2,
            ih listedRest ascendingRest listedOthers ascendingOthers rests]
      | directory label' inside others =>
          obtain ⟨_, some, _, _⟩ := otherListed
          obtain ⟨_, ascendingInside, above', ascendingOthers⟩ := otherAscending
          obtain ⟨_, top, _⟩ := @first_of_perm rest others label.name label'.name [([label.name], bytes)] _ same
            (List.cons_ne_nil _ _) (top_ne_nil some) single_named top_named later fun file =>
              later_of_mem_files ascendingOthers above'
          exact absurd top (inside_ne_singleton ascendingInside _ _ _)
  | directory label inside rest ihInside ih =>
      obtain ⟨labelled, some, listedInside, listedRest⟩ := listed
      obtain ⟨_, ascendingInside, above, ascendingRest⟩ := ascending
      have later := fun file => @later_of_mem_files _ _ ascendingRest above file
      cases other with
      | nil => exact absurd (List.append_eq_nil_iff.1 same.eq_nil).1 (top_ne_nil some)
      | warning text others => exact otherListed.elim
      | file label' bytes others =>
          obtain ⟨_, above', ascendingOthers⟩ := otherAscending
          obtain ⟨_, top, _⟩ := @first_of_perm rest others label.name label'.name _ [([label'.name], bytes)] same
            (top_ne_nil some) (List.cons_ne_nil _ _) top_named single_named later fun file =>
              later_of_mem_files ascendingOthers above'
          exact absurd top.symm (inside_ne_singleton ascendingInside _ _ _)
      | directory label' inside' others =>
          obtain ⟨labelled', some', listedInside', listedOthers⟩ := otherListed
          obtain ⟨_, ascendingInside', above', ascendingOthers⟩ := otherAscending
          obtain ⟨named, top, rests⟩ := @first_of_perm rest others label.name label'.name _ _ same
            (top_ne_nil some) (top_ne_nil some') top_named top_named later fun file =>
              later_of_mem_files ascendingOthers above'
          have insides := top.map fun file => (file.1.tail, file.2)
          rw [List.map_map, List.map_map] at insides
          have equal : inside = inside' := by
            apply ihInside listedInside ascendingInside listedInside' ascendingInside'
            simpa only [Function.comp_def, List.tail_cons, List.map_id'] using insides
          rw [labelled, labelled', named, equal, ih listedRest ascendingRest listedOthers ascendingOthers rests]

end Unique

end Forest

end ArtifactGate
