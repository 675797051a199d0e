import ArtifactGate.Proofs.Location
import ArtifactGate.Proofs.Wire.Lines
import ArtifactGate.Session.Receiver

/-!
Files and directories as one side of a copy sends them to the other. `encode` is what is sent, `files` is what
it means: each file by the names that lead to it. A file may be put at a place below a directory, and the
places of a forest are those of its files.
-/
namespace ArtifactGate

namespace Location

/-- The place some names lead to: the path without the slashes at its end and the names, joined by slashes. -/
def descend (location : Location) (names : List String) : Location :=
  { location with
    path := "/".intercalate
      (if location.trimmedPath.isEmpty then names else String.ofList location.trimmedPath :: names) }

variable {location : Location} {name : String} {names others : List String}

theorem descend_eq (some : names ≠ []) :
    location.descend names =
      ⟨location.repository, String.ofList (location.stem ++ ("/".intercalate names).toList)⟩ := by
  rw [descend, stem]
  cases trimmed : location.trimmedPath with
  | nil => simp only [List.isEmpty_nil, if_true, List.nil_append, String.ofList_toList]
  | cons c rest =>
      simp only [List.isEmpty_cons, Bool.false_eq_true, if_false, String.intercalate_cons_of_ne_nil some,
        String.ofList_append, String.ofList_toList]

theorem descend_singleton (location : Location) (name : String) :
    location.descend [name] = location.child name := by
  rw [descend_eq (List.cons_ne_nil _ _), child_eq, String.intercalate_singleton]

theorem descend_cons (segment : IsSegment name) (some : names ≠ []) :
    location.descend (name :: names) = (location.childDirectory name).descend names := by
  rw [descend_eq (List.cons_ne_nil _ _), descend_eq some, location.stem_childDirectory segment,
    childDirectory_eq, String.intercalate_cons_of_ne_nil some]
  simp only [String.toList_append, List.append_assoc]
  rfl

theorem covers_descend (segment : IsSegment name) (names : List String) :
    (location.child name).Covers (location.descend (name :: names)).path.toList := by
  rw [covers_child location segment]
  cases names with
  | nil =>
      rw [descend_singleton, child_eq, String.toList_ofList]
      exact .inl rfl
  | cons other rest =>
      rw [descend_eq (List.cons_ne_nil _ _), String.toList_ofList, String.intercalate_cons_cons]
      refine .inr ⟨("/".intercalate (other :: rest)).toList, ?_⟩
      simp only [String.toList_append, List.append_assoc]
      rfl

def namesTo (location place : Location) : List String :=
  (Text.pieces isSlash (place.path.toList.drop location.stem.length)).map String.ofList

theorem pieces_intercalate (some : names ≠ []) (segments : ∀ name ∈ names, IsSegment name) :
    Text.pieces isSlash ("/".intercalate names).toList = names.map String.toList := by
  have free {name : String} (segment : IsSegment name) : ∀ c ∈ name.toList, isSlash c = false :=
    fun _ member => isSlash_of_slashless segment.2 member
  induction names with
  | nil => exact absurd rfl some
  | cons name rest ih =>
      obtain ⟨segment, others⟩ := List.forall_mem_cons.1 segments
      cases rest with
      | nil =>
          rw [String.intercalate_singleton, Text.pieces_of_none (free segment)]
          rfl
      | cons other rest =>
          have path : ("/".intercalate (name :: other :: rest)).toList =
              name.toList ++ '/' :: ("/".intercalate (other :: rest)).toList := by
            rw [String.intercalate_cons_cons]
            simp only [String.toList_append, List.append_assoc]
            rfl
          rw [path, Text.pieces_append (free segment) (by decide), ih (List.cons_ne_nil _ _) others]
          rfl

theorem namesTo_descend (some : names ≠ []) (segments : ∀ name ∈ names, IsSegment name) :
    location.namesTo (location.descend names) = names := by
  rw [namesTo, descend_eq some, String.toList_ofList, List.drop_left, pieces_intercalate some segments,
    List.map_map]
  exact (List.map_congr_left fun _ _ => String.ofList_toList).trans (List.map_id' names)

theorem descend_injective (some : names ≠ []) (segments : ∀ name ∈ names, IsSegment name)
    (othersSome : others ≠ []) (otherSegments : ∀ name ∈ others, IsSegment name)
    (same : location.descend names = location.descend others) : names = others := by
  have back : location.namesTo (location.descend names) = names := namesTo_descend some segments
  rw [← back, same]
  exact namesTo_descend othersSome otherSegments

end Location

theorem isSegment_of_isFileName {name : String} (named : isFileName name = true) : IsSegment name := by
  simp only [isFileName, Bool.and_eq_true, Bool.not_eq_true', bne_iff_ne, ne_eq] at named
  obtain ⟨⟨⟨some, _⟩, _⟩, slashless⟩ := named
  refine ⟨?_, ?_⟩
  · rintro empty
    rw [empty] at some
    cases some
  · simpa using slashless

/-- What introduces a file or a directory. -/
structure Label where
  name : String
  permissions : String
  times : Option Wire.Timestamps := none
  deriving DecidableEq, Repr, Inhabited

namespace Label

def header (label : Label) (length : Nat) : Wire.Header :=
  { name := label.name, length, permissions := label.permissions }

def timesBytes (label : Label) : List UInt8 :=
  match label.times with
  | some times => Wire.lineBytes times.format
  | none => []

/-- A label that can be sent for a file of this length. -/
structure Valid (label : Label) (length : Nat) : Prop where
  named : isFileName label.name = true
  unbroken : '\n' ∉ label.name.toList
  octal : Wire.Header.OctalPermissions label.permissions
  inRange : ∀ times, label.times = some times → times.InRange
  bounded : length < Text.nat64Bound
  short : (Text.encode (label.header length).fields).length ≤ Wire.maxLineLength

theorem Valid.segment {label : Label} {length : Nat} (valid : label.Valid length) : IsSegment label.name :=
  isSegment_of_isFileName valid.named

theorem Valid.newline_not_mem_fields {label : Label} {length : Nat} (valid : label.Valid length) :
    '\n' ∉ (label.header length).fields.toList :=
  Wire.Header.newline_not_mem_fields valid.octal valid.unbroken

theorem Valid.parse_file {label : Label} {length : Nat} (valid : label.Valid length) :
    Wire.Header.parse ("C" ++ (label.header length).fields) = .ok (label.header length) :=
  @Wire.Header.parse_fields _ 'C' (by decide) valid.octal valid.bounded valid.segment.1

theorem Valid.parse_directory {label : Label} {length : Nat} (valid : label.Valid length) :
    Wire.Header.parse ("D" ++ (label.header length).fields) = .ok (label.header length) :=
  @Wire.Header.parse_fields _ 'D' (by decide) valid.octal valid.bounded valid.segment.1

end Label

/-- What is sent between the two ends of a directory. -/
inductive Forest
  | nil
  | warning (text : String) (rest : Forest)
  | file (label : Label) (bytes : List UInt8) (rest : Forest)
  | directory (label : Label) (inside rest : Forest)
  deriving DecidableEq, Repr, Inhabited

namespace Forest

def encode : Forest → List UInt8
  | nil => []
  | warning text rest => Wire.warningStatus :: (Wire.lineBytes text ++ rest.encode)
  | file label bytes rest =>
    label.timesBytes ++ Wire.lineBytes ((label.header bytes.length).format 'C') ++ bytes ++
      Wire.okStatus :: rest.encode
  | directory label inside rest =>
    label.timesBytes ++ Wire.lineBytes ((label.header 0).format 'D') ++ inside.encode ++
      Wire.lineBytes "E" ++ rest.encode

def names : Forest → List String
  | nil => []
  | warning _ rest => rest.names
  | file label _ rest => label.name :: rest.names
  | directory label _ rest => label.name :: rest.names

def files : Forest → List (List String × List UInt8)
  | nil => []
  | warning _ rest => rest.files
  | file label bytes rest => ([label.name], bytes) :: rest.files
  | directory label inside rest =>
    inside.files.map (fun file => (label.name :: file.1, file.2)) ++ rest.files

/-- The entries by which a directory that holds a forest lists it. -/
def entries : Forest → List Entry
  | nil => []
  | warning _ rest => rest.entries
  | file label _ rest => ⟨label.name, false⟩ :: rest.entries
  | directory label _ rest => ⟨label.name, true⟩ :: rest.entries

theorem map_name_entries (forest : Forest) : forest.entries.map Entry.name = forest.names := by
  induction forest with
  | nil => rfl
  | warning text rest ih => exact ih
  | file label bytes rest ih => exact congrArg (List.cons label.name) ih
  | directory label inside rest _ ih => exact congrArg (List.cons label.name) ih

/-- Siblings have different names, and every line can be sent. -/
def Valid : Forest → Prop
  | nil => True
  | warning text rest =>
    ('\n' ∉ text.toList ∧ (Text.encode text).length ≤ Wire.maxLineLength) ∧ rest.Valid
  | file label bytes rest => label.Valid bytes.length ∧ label.name ∉ rest.names ∧ rest.Valid
  | directory label inside rest =>
    label.Valid 0 ∧ inside.Valid ∧ label.name ∉ rest.names ∧ rest.Valid

/-- Names are segments, and siblings have different ones. -/
def Distinct : Forest → Prop
  | nil => True
  | warning _ rest => rest.Distinct
  | file label _ rest => IsSegment label.name ∧ label.name ∉ rest.names ∧ rest.Distinct
  | directory label inside rest =>
    IsSegment label.name ∧ inside.Distinct ∧ label.name ∉ rest.names ∧ rest.Distinct

theorem Valid.distinct {forest : Forest} (valid : forest.Valid) : forest.Distinct := by
  induction forest with
  | nil => trivial
  | warning text rest ih => exact ih valid.2
  | file label bytes rest ih => exact ⟨valid.1.segment, valid.2.1, ih valid.2.2⟩
  | directory label inside rest ihInside ih =>
      exact ⟨valid.1.segment, ihInside valid.2.1, valid.2.2.1, ih valid.2.2.2⟩

theorem segment_of_mem_names {forest : Forest} (distinct : forest.Distinct) {name : String}
    (member : name ∈ forest.names) : IsSegment name := by
  induction forest with
  | nil => cases member
  | warning text rest ih => exact ih distinct member
  | file label bytes rest ih =>
      rcases List.mem_cons.1 member with rfl | member
      · exact distinct.1
      · exact ih distinct.2.2 member
  | directory label inside rest _ ih =>
      rcases List.mem_cons.1 member with rfl | member
      · exact distinct.1
      · exact ih distinct.2.2.2 member

theorem names_of_mem_files {forest : Forest} (distinct : forest.Distinct) {file : List String × List UInt8}
    (member : file ∈ forest.files) :
    ∃ first rest, file.1 = first :: rest ∧ first ∈ forest.names ∧ ∀ name ∈ rest, IsSegment name := by
  induction forest generalizing file with
  | nil => cases member
  | warning text rest ih => exact ih distinct member
  | file label bytes rest ih =>
      rcases List.mem_cons.1 member with rfl | member
      · exact ⟨label.name, [], rfl, List.mem_cons_self, List.forall_mem_nil _⟩
      · obtain ⟨first, names, split, outermost, segments⟩ := ih distinct.2.2 member
        exact ⟨first, names, split, List.mem_cons_of_mem _ outermost, segments⟩
  | directory label inside rest ihInside ih =>
      rcases List.mem_append.1 member with member | member
      · obtain ⟨below, inner, rfl⟩ := List.mem_map.1 member
        obtain ⟨first, names, split, outermost, segments⟩ := ihInside distinct.2.1 inner
        refine ⟨label.name, below.1, rfl, List.mem_cons_self, ?_⟩
        intro name among
        rw [split] at among
        rcases List.mem_cons.1 among with rfl | among
        · exact segment_of_mem_names distinct.2.1 outermost
        · exact segments name among
      · obtain ⟨first, names, split, outermost, segments⟩ := ih distinct.2.2.2 member
        exact ⟨first, names, split, List.mem_cons_of_mem _ outermost, segments⟩

theorem files_nodup {forest : Forest} (distinct : forest.Distinct) : (forest.files.map Prod.fst).Nodup := by
  induction forest with
  | nil => exact List.nodup_nil
  | warning text rest ih => exact ih distinct
  | file label bytes rest ih =>
      obtain ⟨_, fresh, distinctRest⟩ := distinct
      refine List.nodup_cons.2 ⟨fun member => ?_, ih distinctRest⟩
      obtain ⟨file, member, same⟩ := List.mem_map.1 member
      obtain ⟨first, names, split, outermost, _⟩ := names_of_mem_files distinctRest member
      rw [split] at same
      exact fresh ((List.cons.inj same).1 ▸ outermost)
  | directory label inside rest ihInside ih =>
      obtain ⟨_, distinctInside, fresh, distinctRest⟩ := distinct
      rw [files, List.map_append, List.map_map]
      refine List.nodup_append.2 ⟨?_, ih distinctRest, ?_⟩
      · have below : ((inside.files.map Prod.fst).map fun names => label.name :: names).Nodup :=
          List.Pairwise.map _ (fun first second differs same => differs (List.cons.inj same).2)
            (ihInside distinctInside)
        rw [List.map_map] at below
        exact below
      · rintro names inner _ outer rfl
        obtain ⟨_, _, rfl⟩ := List.mem_map.1 inner
        obtain ⟨file, member, same⟩ := List.mem_map.1 outer
        obtain ⟨first, names, split, outermost, _⟩ := names_of_mem_files distinctRest member
        rw [split] at same
        exact fresh ((List.cons.inj same).1 ▸ outermost)

theorem namesTo_of_mem_files {forest : Forest} (distinct : forest.Distinct) (location : Location)
    {file : List String × List UInt8} (member : file ∈ forest.files) :
    location.namesTo (location.descend file.1) = file.1 := by
  obtain ⟨first, names, split, outermost, segments⟩ := names_of_mem_files distinct member
  rw [split]
  exact Location.namesTo_descend (List.cons_ne_nil _ _)
    (List.forall_mem_cons.2 ⟨segment_of_mem_names distinct outermost, segments⟩)

theorem map_namesTo_files {forest : Forest} (distinct : forest.Distinct) (location : Location) :
    (forest.files.map fun file => (location.descend file.1, file.2)).map
      (fun file => (location.namesTo file.1, file.2)) = forest.files := by
  rw [List.map_map]
  refine (List.map_congr_left fun file member => ?_).trans (List.map_id' forest.files)
  rw [Function.comp_apply, namesTo_of_mem_files distinct location member]

theorem descend_nodup {forest : Forest} (distinct : forest.Distinct) (location : Location) :
    ((forest.files.map fun file => (location.descend file.1, file.2)).map Prod.fst).Nodup := by
  have segments {names : List String} (member : names ∈ forest.files.map Prod.fst) :
      names ≠ [] ∧ ∀ name ∈ names, IsSegment name := by
    obtain ⟨file, among, rfl⟩ := List.mem_map.1 member
    obtain ⟨first, rest, split, outermost, segments⟩ := names_of_mem_files distinct among
    rw [split]
    exact ⟨List.cons_ne_nil _ _, List.forall_mem_cons.2 ⟨segment_of_mem_names distinct outermost, segments⟩⟩
  have places : (forest.files.map fun file => (location.descend file.1, file.2)).map Prod.fst =
      (forest.files.map Prod.fst).map location.descend := by
    rw [List.map_map, List.map_map]
    rfl
  rw [places]
  refine List.pairwise_map.2 ((files_nodup distinct).imp_of_mem fun first second differs same => differs ?_)
  exact Location.descend_injective (segments first).1 (segments first).2 (segments second).1
    (segments second).2 same

end Forest

end ArtifactGate
