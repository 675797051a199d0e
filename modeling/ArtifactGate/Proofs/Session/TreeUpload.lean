import ArtifactGate.Proofs.Session.Outline
import ArtifactGate.Proofs.Store.Tree

/-!
What an upload may put where. The places that a receiver can still put at, and what there is above and below
them: as long as nothing there is in the way but what no look at the store shows, a put leaves a tree a tree.
-/
namespace ArtifactGate

/-- An upload: where it goes, whether it may open directories, and what the store had when it began. -/
structure TreeUpload where
  target : Location
  recursive : Bool
  origin : MemoryStore

namespace TreeUpload

/-- A file that goes to the target itself is not let in when the directory that it would lie in is a file. -/
structure Guards (upload : TreeUpload) (upper lower : Location) : Prop where
  namesFile : upload.target.namesDirectory = false
  asked : Gateway.checksumSize? upload.target.path = none
  itself : upload.recursive = true → lower = upload.target
  parent : ∃ parent, upload.target.parent? = some parent ∧ upper.path.toList = parent.trimmedPath

/-- How a file can come to be above another. -/
inductive Excuses (upload : TreeUpload) (upper lower : Location) : Prop
  /-- The store is not asked about a file that is named as a checksum. -/
  | checksum (named : Gateway.checksumSize? upper.path ≠ none) (fresh : ¬upload.origin.Has upper)
  /-- Of what is above the target only the directory that it lies in is looked at. -/
  | above (above : upper.Above upload.target) (there : upload.origin.Has upper)
    (unseen : ¬upload.Guards upper lower)
  /-- The target was missing, and is both the file and the directory that the client has made of it. -/
  | target (same : upper = upload.target) (recursive : upload.recursive = true)
    (namesFile : upload.target.namesDirectory = false) (vacant : upload.origin.Vacant upload.target)

/-- Nothing is above anything else without an excuse. -/
def Sound (upload : TreeUpload) (has : Location → Prop) : Prop :=
  ∀ upper lower, has upper → has lower → upper.Above lower → upload.Excuses upper lower

/-- What is above the files of a directory is excused. -/
def Clear (upload : TreeUpload) (has : Location → Prop) (directory : Location) : Prop :=
  ∀ upper, has upper → upper.repository = directory.repository → upper.path.toList ++ ['/'] <+: directory.stem →
    ∀ lower, lower ≠ upload.target → upload.Excuses upper lower

/-- The node is one that files or directories may be put below. -/
def Opens (upload : TreeUpload) (node : Node) : Prop :=
  node.TakesChildren ∨ upload.recursive = true ∧ node.isFile = false

/-- What is above the target or below it is excused, unless a look at its parent shows it. -/
structure Lands (upload : TreeUpload) (base : Node) (has : Location → Prop) : Prop where
  above : ∀ upper, has upper → upper.Above upload.target →
    base.exists? = false ∧ upload.Guards upper upload.target ∨ upload.Excuses upper upload.target
  below : ∀ lower, has lower → upload.target.Above lower → upload.Excuses upload.target lower

/-- The node that stands for the target. -/
structure Roots (upload : TreeUpload) (base : Node) : Prop where
  location : base.location = upload.target
  vacant : base.exists? = false → upload.origin.Vacant upload.target

/-- What there is around the directories that are open, the innermost first, and around the target. -/
structure Invariant (upload : TreeUpload) (base : Node) (nodes : List Node) (has : Location → Prop) : Prop where
  kept : ∀ place, upload.origin.Has place → has place
  sound : upload.Sound has
  clear : ∀ node ∈ nodes, upload.Opens node → upload.Clear has node.location
  lands : ¬base.TakesChildren → upload.Lands base has
  opened : nodes = [base] ∨ upload.Opens base

variable {upload : TreeUpload} {base node : Node} {nodes outer : List Node} {opened : List String} {name : String}
  {has : Location → Prop} {place : Location}

/-- A base below which directories may be opened, but which does not take files as a directory does, is missing. -/
theorem Roots.missing (roots : upload.Roots base) (opens : upload.Opens base) (closed : ¬base.TakesChildren) :
    upload.recursive = true ∧ base.exists? = false ∧ upload.target.namesDirectory = false := by
  obtain ⟨recursive, noFile⟩ := opens.resolve_left closed
  obtain ⟨missing, named⟩ := Bool.or_eq_false_iff.1 (Bool.eq_false_iff.2 fun some => closed ⟨noFile, some⟩)
  exact ⟨recursive, missing, roots.location ▸ named⟩

theorem Roots.excuses (roots : upload.Roots base) (opens : upload.Opens base) (closed : ¬base.TakesChildren)
    (lower : Location) : upload.Excuses upload.target lower := by
  obtain ⟨recursive, missing, named⟩ := roots.missing opens closed
  exact .target rfl recursive named (roots.vacant missing)

/-- A put leaves things as they are, if what is in its way is excused. -/
theorem Invariant.put (invariant : upload.Invariant base nodes has)
    (above : ∀ upper, has upper → upper.Above place → upload.Excuses upper place)
    (below : ∀ lower, has lower → place.Above lower → upload.Excuses place lower)
    (inner : ∀ node ∈ nodes, upload.Opens node → place.path.toList ++ ['/'] <+: node.location.stem →
      ∀ lower, lower ≠ upload.target → upload.Excuses place lower)
    (beside : ¬base.TakesChildren → (place.Above upload.target → False) ∧
      (upload.target.Above place → upload.Excuses upload.target place)) :
    upload.Invariant base nodes fun location => location = place ∨ has location := by
  refine ⟨fun place origin => .inr (invariant.kept place origin), ?_, ?_, ?_, invariant.opened⟩
  · intro upper lower upperHas lowerHas higher
    rcases upperHas with rfl | upperHas
    · rcases lowerHas with rfl | lowerHas
      · exact absurd higher.length_lt (Nat.lt_irrefl _)
      · exact below lower lowerHas higher
    · rcases lowerHas with rfl | lowerHas
      · exact above upper upperHas higher
      · exact invariant.sound upper lower upperHas lowerHas higher
  · intro node member opens upper upperHas within way
    rcases upperHas with rfl | upperHas
    · exact inner node member opens way
    · exact invariant.clear node member opens upper upperHas within way
  · intro closed
    obtain ⟨notAbove, under⟩ := beside closed
    refine ⟨?_, ?_⟩
    · intro upper upperHas higher
      rcases upperHas with rfl | upperHas
      · exact (notAbove higher).elim
      · exact (invariant.lands closed).above upper upperHas higher
    · intro lower lowerHas higher
      rcases lowerHas with rfl | lowerHas
      · exact under higher
      · exact (invariant.lands closed).below lower lowerHas higher

end TreeUpload

namespace Nested

variable {base node : Node} {outer : List Node} {opened : List String}

theorem base_mem {nodes : List Node} (nested : Nested base nodes opened) : base ∈ nodes := by
  induction nested with
  | base => exact List.mem_cons_self
  | inside _ _ _ _ ih => exact List.mem_cons_of_mem _ ih

/-- The innermost directory has the longest path. -/
theorem longest (nested : Nested base (node :: outer) opened) :
    ∀ other ∈ node :: outer, other.location.stem.length ≤ node.location.stem.length := by
  generalize given : node :: outer = nodes at nested
  induction nested generalizing node outer with
  | base =>
      cases given
      exact List.forall_mem_singleton.2 (Nat.le_refl _)
  | inside below plain located takes ih =>
      cases given
      refine List.forall_mem_cons.2 ⟨Nat.le_refl _, fun other member => Nat.le_trans (ih rfl other member) ?_⟩
      rw [located, Location.stem_childDirectory _ plain.1, List.append_assoc, List.length_append]
      exact Nat.le_add_right _ _

end Nested

theorem prefix_of_segment {path stem : List Char} {name : String} (segment : IsSegment name)
    (way : path ++ ['/'] <+: stem ++ name.toList) : path ++ ['/'] <+: stem := by
  rcases List.prefix_or_prefix_of_prefix way (List.prefix_append stem name.toList) with within | ⟨rest, longer⟩
  · exact within
  · rw [← longer, List.prefix_append_right_inj] at way
    rcases List.eq_nil_or_concat rest with rfl | ⟨front, c, rfl⟩
    · exact ⟨[], by rw [List.append_nil, ← longer, List.append_nil]⟩
    · rw [List.concat_eq_append, ← List.append_assoc] at longer
      obtain rfl : c = '/' := List.singleton_inj.1 (List.append_inj_right' longer rfl)
      exact absurd (way.subset (by simp)) segment.2

namespace TreeUpload

variable {upload : TreeUpload} {base node : Node} {outer : List Node} {opened : List String} {name : String}
  {has : Location → Prop} {place : Location}

section Child

variable (segment : IsSegment name)

include segment

theorem child_ne_target (roots : upload.Roots base) (nested : Nested base (node :: outer) opened) :
    node.location.child name ≠ upload.target := by
  intro same
  have longer := nested.longest base nested.base_mem
  rw [roots.location, ← same, Location.stem_child _ segment, List.append_assoc, List.length_append] at longer
  have some : (name.toList ++ ['/']).length = name.toList.length + 1 := List.length_append
  omega

/-- A file may be put under a name into a directory that is open, if what lies below that place is excused. -/
theorem Invariant.put_child (invariant : upload.Invariant base (node :: outer) has) (roots : upload.Roots base)
    (nested : Nested base (node :: outer) opened) (takes : node.TakesChildren)
    (below : ∀ lower, has lower → (node.location.child name).Above lower →
      upload.Excuses (node.location.child name) lower) :
    upload.Invariant base (node :: outer) fun location => location = node.location.child name ∨ has location := by
  have path : (node.location.child name).path.toList = node.location.stem ++ name.toList := by
    rw [Location.child_eq, String.toList_ofList]
  have notTarget := child_ne_target segment roots nested
  apply invariant.put
  · intro upper upperHas higher
    refine invariant.clear node List.mem_cons_self (.inl takes) upper upperHas ?_ ?_ _ notTarget
    · exact higher.1.trans (Location.child_repository _ _)
    · exact prefix_of_segment segment (path ▸ higher.2)
  · exact below
  · -- No directory that is open has a path as long as the file's, so the file is above none of them.
    intro other member _ way
    have short := way.length_le
    have longer := nested.longest other member
    rw [path, List.length_append, List.length_append, List.length_singleton] at short
    omega
  · intro closed
    have opens : upload.Opens base := by
      rcases invariant.opened with alone | opens
      · cases alone
        exact absurd takes closed
      · exact opens
    refine ⟨?_, fun _ => roots.excuses opens closed _⟩
    intro higher
    have short := higher.length_lt
    rw [path, Location.path_of_namesFile (roots.missing opens closed).2.2, List.length_append] at short
    have longer := nested.longest base nested.base_mem
    have stem := upload.target.trimmedPath_prefix_stem.length_le
    rw [roots.location] at longer
    omega

/-- A directory may be opened under a name, if there is no file under that name. -/
theorem Invariant.enter (invariant : upload.Invariant base (node :: outer) has) (opens : upload.Opens node)
    {directory : Node}
    (located : directory.location = node.location.childDirectory name) (free : ¬has (node.location.child name)) :
    upload.Invariant base (directory :: node :: outer) has := by
  have clear := invariant.clear node List.mem_cons_self opens
  refine ⟨invariant.kept, invariant.sound, List.forall_mem_cons.2 ⟨fun _ => ?_, invariant.clear⟩, invariant.lands,
    .inr ?_⟩
  · -- A file above the new directory has its name, or is above the directory that it is opened in.
    intro upper upperHas within way lower notTarget
    rw [located] at within way
    rw [Location.childDirectory_repository] at within
    obtain ⟨_, here | way⟩ := Location.eq_or_prefix_of_stem way
    · rw [Location.trimmedPath_childDirectory _ segment] at here
      have same : node.location.child name = upper := by
        rw [Location.child_eq, ← here, ← within, String.ofList_toList]
      exact absurd upperHas (same ▸ free)
    · rw [Location.trimmedPath_childDirectory _ segment] at way
      exact clear upper upperHas within (prefix_of_segment segment way) lower notTarget
  · rcases invariant.opened with alone | opens
    · cases alone
      exact opens
    · exact opens

end Child

/-- A file may be put at the target itself, if that is no directory and its parent is no file. -/
theorem Invariant.put_target (invariant : upload.Invariant base [base] has) (roots : upload.Roots base)
    (closed : ¬base.TakesChildren)
    (parent : base.exists? = false → ∀ upper, has upper → upper.Above upload.target →
      ¬upload.Guards upper upload.target) :
    upload.Invariant base [base] fun location => location = upload.target ∨ has location := by
  have lands := invariant.lands closed
  apply invariant.put
  · intro upper upperHas higher
    rcases lands.above upper upperHas higher with ⟨missing, guards⟩ | excused
    · exact absurd guards (parent missing upper upperHas higher)
    · exact excused
  · exact lands.below
  · intro node member opens _ lower _
    obtain rfl := List.mem_singleton.1 member
    exact roots.excuses opens closed lower
  · intro _
    have apart : ¬upload.target.Above upload.target := fun higher => Nat.lt_irrefl _ higher.length_lt
    exact ⟨apart, fun higher => absurd higher apart⟩

theorem Invariant.leave {other : Node} (invariant : upload.Invariant base (node :: other :: outer) has) :
    upload.Invariant base (other :: outer) has := by
  have clear := (List.forall_mem_cons.1 invariant.clear).2
  refine ⟨invariant.kept, invariant.sound, clear, invariant.lands, .inr ?_⟩
  rcases invariant.opened with alone | opens
  · cases alone
  · exact opens

/-- What the store had at the target, as the node for it shows. -/
inductive Sees (upload : TreeUpload) (base : Node) : Prop
  | checksum (named : Gateway.checksumSize? upload.target.path ≠ none) (isFile : base.isFile = true)
  | file (isFile : base.isFile = true)
    (here : upload.origin.Has ⟨upload.target.repository, String.ofList upload.target.trimmedPath⟩)
  | directory {lower : Location} (isFile : base.isFile = false) (some : base.exists? = true)
    (absent : ¬upload.origin.Has ⟨upload.target.repository, String.ofList upload.target.trimmedPath⟩)
    (has : upload.origin.Has lower) (within : lower.repository = upload.target.repository)
    (below : upload.target.stem <+: lower.path.toList)
  | missing (isFile : base.isFile = false) (none : base.exists? = false)
    (vacant : upload.origin.Vacant upload.target)

theorem Sees.vacant (sees : upload.Sees base) (none : base.exists? = false) :
    upload.origin.Vacant upload.target := by
  have noFile : base.isFile = false := by
    rw [Node.exists?, Option.isSome_eq_false_iff, Option.isNone_iff_eq_none] at none
    rw [Node.isFile, none]
  cases sees with
  | checksum _ isFile => exact absurd (noFile.symm.trans isFile) Bool.false_ne_true
  | file isFile _ => exact absurd (noFile.symm.trans isFile) Bool.false_ne_true
  | directory _ some => exact absurd (none.symm.trans some) Bool.false_ne_true
  | missing _ _ vacant => exact vacant

theorem Sees.clear (sees : upload.Sees base) (tree : upload.origin.IsTree) (location : base.location = upload.target)
    (opens : upload.Opens base) : upload.Clear upload.origin.Has upload.target := by
  have noFile : base.isFile = false := opens.elim (fun takes => takes.1) fun recursive => recursive.2
  intro upper has within way lower notTarget
  obtain ⟨_, here | way⟩ := Location.eq_or_prefix_of_stem way
  · have same : (⟨upload.target.repository, String.ofList upload.target.trimmedPath⟩ : Location) = upper := by
      rw [← here, ← within, String.ofList_toList]
    cases sees with
    | checksum _ isFile => exact absurd (noFile.symm.trans isFile) Bool.false_ne_true
    | file isFile _ => exact absurd (noFile.symm.trans isFile) Bool.false_ne_true
    | directory _ _ absent => exact absurd has (same ▸ absent)
    | missing _ _ vacant => exact absurd (.inl here) (vacant.not_covers has within)
  · cases sees with
    | checksum _ isFile => exact absurd (noFile.symm.trans isFile) Bool.false_ne_true
    | file isFile _ => exact absurd (noFile.symm.trans isFile) Bool.false_ne_true
    | directory _ _ _ other beside below =>
        have higher : upper.path.toList ++ ['/'] <+: upload.target.stem :=
          way.trans upload.target.trimmedPath_prefix_stem
        exact absurd ⟨within.trans beside.symm, higher.trans below⟩ (tree upper has _ other)
    | missing _ none _ =>
        -- The parent of a missing target is looked at only for a file that goes to the target itself.
        refine .above ⟨within, way.trans upload.target.trimmedPath_prefix⟩ has fun guards => ?_
        rcases opens with takes | ⟨recursive, _⟩
        · have named := takes.2
          rw [none, location, guards.namesFile] at named
          cases named
        · exact notTarget (guards.itself recursive)

theorem Sees.lands (sees : upload.Sees base) (tree : upload.origin.IsTree) (location : base.location = upload.target)
    (closed : ¬base.TakesChildren) : upload.Lands base upload.origin.Has := by
  have trimmed : upload.target.trimmedPath ++ ['/'] <+: upload.target.path.toList ++ ['/'] := by
    rcases upload.target.path_eq_or_trimmed with same | longer
    · exact same ▸ List.prefix_refl _
    · exact longer.trans (List.prefix_append _ _)
  cases sees with
  | checksum named isFile =>
      refine ⟨fun upper has higher => ?_, fun lower has higher => ?_⟩
      · exact .inr (.above higher has fun guards => named guards.asked)
      · exact .checksum named fun here => tree _ here lower has higher
  | file isFile here =>
      refine ⟨fun upper has higher => .inr (.above higher has fun guards => ?_), fun lower has higher => ?_⟩
      · have same :
            (⟨upload.target.repository, String.ofList upload.target.trimmedPath⟩ : Location) = upload.target := by
          rw [← Location.path_of_namesFile guards.namesFile, String.ofList_toList]
        exact tree upper has _ here (same.symm ▸ higher)
      · refine absurd ⟨higher.1, ?_⟩ (tree _ here lower has)
        rw [String.toList_ofList]
        exact trimmed.trans higher.2
  | directory isFile some => exact absurd ⟨isFile, by rw [some, Bool.true_or]⟩ closed
  | missing isFile none vacant =>
      refine ⟨fun upper has higher => ?_, fun lower has higher => ?_⟩
      · by_cases guards : upload.Guards upper upload.target
        · exact .inl ⟨none, guards⟩
        · exact .inr (.above higher has guards)
      · have named : upload.target.namesDirectory = false := by
          rw [← location]
          exact Bool.eq_false_iff.2 fun named => closed ⟨isFile, by rw [named, Bool.or_true]⟩
        refine absurd (.inr ?_) (vacant.not_covers has higher.1.symm)
        rw [Location.stem_of_namesFile named]
        exact higher.2

/-- Before anything is put, what is in the way of an upload to a tree is what no look at the store shows. -/
theorem Sees.invariant (sees : upload.Sees base) (tree : upload.origin.IsTree)
    (location : base.location = upload.target) :
    upload.Invariant base [base] upload.origin.Has where
  kept place has := has
  sound upper lower has also higher := absurd higher (tree upper has lower also)
  clear node member opens := by
    obtain rfl := List.mem_singleton.1 member
    exact location ▸ sees.clear tree location opens
  lands := sees.lands tree location
  opened := .inl rfl

end TreeUpload

end ArtifactGate
