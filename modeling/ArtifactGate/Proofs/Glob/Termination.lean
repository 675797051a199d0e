import ArtifactGate.Proofs.Glob.Standing
import ArtifactGate.Proofs.Glob.Worklist
import ArtifactGate.Session.Basic

/-!
Where a search ends. Whatever is listed below a directory lies a name deeper than the directory, when no segment of a
path below it is empty; so there is nothing to list below the deepest objects. A directory with an empty segment below
it lists itself, and a search without a limit then goes round for ever.
-/
namespace ArtifactGate

namespace Text

theorem length_pieces (cs : List Char) : (pieces Location.isSlash cs).length = cs.count '/' + 1 := by
  induction cs with
  | nil => rfl
  | cons c cs ih =>
      obtain ⟨piece, more, split⟩ := List.exists_cons_of_ne_nil (pieces_ne_nil Location.isSlash cs)
      rw [split] at ih
      cases slash : Location.isSlash c with
      | true =>
          obtain rfl : c = '/' := eq_of_beq slash
          rw [pieces, slash, if_pos rfl, List.length_cons, split, ih, List.count_cons_self]
      | false =>
          have other : c ≠ '/' := ne_of_beq_false slash
          simp only [pieces, slash, split, List.count_cons_of_ne other]
          exact ih

theorem dropTrailing_append (p : Char → Bool) (front cs : List Char) :
    dropTrailing p (front ++ cs) =
      if dropTrailing p cs = [] then dropTrailing p front else front ++ dropTrailing p cs := by
  cases dropped : cs.reverse.dropWhile p <;>
    simp [dropTrailing, List.reverse_append, List.dropWhile_append, dropped]

theorem dropTrailing_dropTrailing (p : Char → Bool) (cs : List Char) :
    dropTrailing p (dropTrailing p cs) = dropTrailing p cs := by
  rcases List.eq_nil_or_concat (dropTrailing p cs) with none | ⟨front, c, shape⟩
  · rw [none]
    rfl
  · rw [List.concat_eq_append] at shape
    have last : (dropTrailing p cs).getLast? = some c := by rw [shape, List.getLast?_concat]
    have kept := not_of_dropTrailing last
    rw [shape, dropTrailing_append]
    have single : dropTrailing p [c] = [c] := by simp [dropTrailing, kept]
    rw [single, if_neg (List.cons_ne_nil _ _)]

end Text

namespace Location

theorem trimmedPath_child_below {location : Location} (below : location.trimmedPath ≠ []) (name : String) :
    (location.child name).trimmedPath =
      location.trimmedPath ++ Text.dropTrailing isSlash ('/' :: name.toList) := by
  have path : (location.child name).path.toList = location.trimmedPath ++ '/' :: name.toList := by
    rw [child_eq, String.toList_ofList, stem_of_trimmedPath below, List.append_assoc, List.singleton_append]
  have same : Text.dropTrailing isSlash location.trimmedPath = location.trimmedPath :=
    Text.dropTrailing_dropTrailing isSlash location.path.toList
  rw [trimmedPath, path, Text.dropTrailing_append, same]
  split
  · rename_i none
    rw [none, List.append_nil]
  · rfl

/-- Whatever the name, a child of a location is at or below it. -/
theorem stem_prefix_child (location : Location) (name : String) :
    location.stem <+: (location.child name).stem := by
  by_cases root : location.trimmedPath = []
  · rw [stem, root]
    exact List.nil_prefix
  · have trimmed := trimmedPath_child_below root name
    have deeper : (location.child name).trimmedPath ≠ [] := trimmed ▸ List.append_ne_nil_of_left_ne_nil root _
    rw [stem_of_trimmedPath root, stem_of_trimmedPath deeper, trimmed, List.append_assoc,
      List.prefix_append_right_inj]
    cases shape : Text.dropTrailing isSlash ('/' :: name.toList) with
    | nil => exact List.prefix_refl ['/']
    | cons d more =>
        have kept := Text.dropTrailing_append_takeTrailing isSlash ('/' :: name.toList)
        rw [shape, List.cons_append] at kept
        rw [(List.cons.inj kept).1]
        exact ⟨more ++ ['/'], rfl⟩

/-- The directory of an empty name below a location is the location itself. -/
theorem stem_childDirectory_empty (location : Location) :
    (location.childDirectory "").stem = location.stem ∧
      (location.childDirectory "").trimmedPath = location.trimmedPath := by
  have trimmed : (location.childDirectory "").trimmedPath = location.trimmedPath := by
    rw [childDirectory_eq_folder, trimmedPath_folder, child]
    split
    · rename_i root
      exact root.symm
    · rw [trimmedPath, String.toList_ofList, String.toList_empty, Text.dropTrailing_snoc rfl]
      exact Text.dropTrailing_dropTrailing isSlash location.path.toList
  exact ⟨by rw [stem, stem, trimmed], trimmed⟩

theorem childDirectory_empty_again (location : Location) :
    (location.childDirectory "").childDirectory "" = location.childDirectory "" := by
  rw [(location.childDirectory "").childDirectory_eq, location.stem_childDirectory_empty.1,
    location.childDirectory_repository, ← childDirectory_eq]

end Location

namespace MemoryStore

/-- No object below a location has an empty segment in its path there. -/
def Segmented (store : MemoryStore) (location : Location) : Prop :=
  ∀ place, store.Has place → place.repository = location.repository →
    ∀ rest, place.path.toList = location.stem ++ rest → [] ∉ Text.pieces Location.isSlash rest

instance (store : MemoryStore) (location : Location) : Decidable (store.Segmented location) :=
  decidable_of_iff (∀ place ∈ store.objects.keys, place.repository = location.repository →
      location.stem <+: place.path.toList →
        [] ∉ Text.pieces Location.isSlash (place.path.toList.drop location.stem.length)) <| by
    constructor
    · intro segmented place has within rest path
      have pieces := segmented place has within (path ▸ List.prefix_append _ _)
      rwa [path, List.drop_left] at pieces
    · intro segmented place has within below
      obtain ⟨rest, path⟩ := below
      rw [← path, List.drop_left]
      exact segmented place has within rest path.symm

theorem Segmented.of_prefix {store : MemoryStore} {location inner : Location} (segmented : store.Segmented location)
    (within : inner.repository = location.repository) (below : location.stem <+: inner.stem) :
    store.Segmented inner := by
  intro place has repository rest path
  obtain ⟨middle, stem⟩ := below
  rw [← stem, List.append_assoc] at path
  have pieces := segmented place has (repository.trans within) _ path
  rcases List.eq_nil_or_concat middle with none | ⟨front, c, shape⟩
  · rwa [none, List.nil_append] at pieces
  · rw [List.concat_eq_append] at shape
    have last : inner.stem.getLast? = some c := by
      rw [← stem, shape, ← List.append_assoc, List.getLast?_concat]
    obtain rfl : c = '/' := Location.isSlash_of_stem last
    rw [shape, List.append_assoc, List.singleton_append, Text.pieces_append_pieces rfl, List.mem_append,
      not_or] at pieces
    exact pieces.2

theorem Segmented.isSegment {store : MemoryStore} {location place : Location} {entry : Entry}
    (segmented : store.Segmented location) (has : store.Has place)
    (listed : listed? location.repository location.stem place = some entry) : IsSegment entry.name := by
  have within := repository_of_listed listed
  obtain ⟨slashless, path⟩ := listed?_cases listed
  refine ⟨fun empty => ?_, slashless⟩
  rw [empty, String.toList_empty, List.append_nil] at path
  rcases path with ⟨_, path⟩ | ⟨_, rest, path⟩
  · exact segmented place has within [] (path.trans (List.append_nil _).symm) List.mem_cons_self
  · exact segmented place has within _ path List.mem_cons_self

end MemoryStore

theorem Node.stem_entryLocation (node : Node) {entry : Entry} (segment : IsSegment entry.name) :
    (node.entryLocation entry).stem = node.location.stem ++ (entry.name.toList ++ ['/']) := by
  rw [entryLocation, ← List.append_assoc]
  split
  · exact node.location.stem_childDirectory segment
  · exact node.location.stem_child segment

namespace Gateway

variable {gateway : Gateway MemoryStore} {depth : Nat} {node child : Node}

/-- A node so many levels below a directory: a directory there is on the way to an object, and has as many names on
its own path at least. -/
structure Under (gateway : Gateway MemoryStore) (depth : Nat) (node : Node) : Prop where
  here : node = gateway.fetched node.user node.location
  segmented : gateway.store.Segmented node.location
  deep : depth ≤ node.location.stem.count '/'
  kept : depth ≠ 0 → node.isDirectory = true →
    ∃ lower, gateway.store.Has lower ∧ node.location.stem <+: lower.path.toList

theorem Under.listed (under : gateway.Under depth node) (isDirectory : node.isDirectory = true)
    (member : child ∈ gateway.listed node) : gateway.Under (depth + 1) child := by
  have outside : node.location.isSink = false := outside_of_isDirectory (under.here ▸ isDirectory)
  have remote : node = gateway.nodeAt node.user node.location :=
    under.here.trans (fetched_outside outside node.user)
  have entries : node.entries = gateway.store.entriesOf node.location.repository node.location.trimmedPath := by
    rw [remote] at isDirectory ⊢
    exact entries_nodeAt isDirectory
  rw [Gateway.listed, entries] at member
  obtain ⟨entry, among, rfl⟩ := List.mem_map.1 member
  obtain ⟨place, object, stored, listed⟩ := MemoryStore.mem_entriesOf.1 among
  have within := MemoryStore.repository_of_listed listed
  have has : gateway.store.Has place := MemoryStore.has_iff.2 ⟨object, stored⟩
  have segment := under.segmented.isSegment has listed
  have stem := node.stem_entryLocation segment
  refine ⟨?_, ?_, ?_, fun _ isDirectory => ⟨place, has, ?_⟩⟩
  · rw [user_fetched, location_fetched]
  · rw [location_fetched]
    exact under.segmented.of_prefix (node.entryLocation_repository entry) (stem ▸ List.prefix_append _ _)
  · have further := under.deep
    rw [location_fetched, stem, List.count_append, List.count_append, List.count_singleton_self]
    omega
  · rcases (MemoryStore.listed?_cases listed).2 with ⟨isFile, path⟩ | ⟨_, rest, path⟩
    · -- What is listed as a file is an object, so it is no directory.
      have trimmed := node.location.trimmedPath_child segment
      have object : gateway.store.Has ⟨(node.location.child entry.name).repository,
          String.ofList (node.location.child entry.name).trimmedPath⟩ := by
        rw [trimmed, ← path, String.ofList_toList, node.location.child_repository, ← within]
        exact has
      have file := @isFile_nodeAt gateway node.user _ object
      rw [Node.entryLocation, isFile, if_neg Bool.false_ne_true, fetched_outside, ← Bool.not_eq_false',
        ← Node.isFile_eq, file] at isDirectory
      · cases isDirectory
      · rw [Location.isSink, node.location.child_repository]
        exact outside
    · rw [location_fetched, stem, path]
      exact ⟨rest, by simp⟩

/-- A directory below which an object's path goes on with a slash lists itself. -/
theorem lists_itself {user : String} {location place : Location} (outside : location.isSink = false)
    (isDirectory : (gateway.nodeAt user location).isDirectory = true) (has : gateway.store.Has place)
    (within : place.repository = location.repository) {rest : List Char}
    (path : place.path.toList = location.stem ++ '/' :: rest) :
    let self := gateway.nodeAt user (location.childDirectory "")
    self.isDirectory = true ∧ self ∈ gateway.listed (gateway.nodeAt user location) ∧
      self ∈ gateway.listed self := by
  intro self
  have entry : ⟨"", true⟩ ∈ gateway.store.entriesOf location.repository location.trimmedPath := by
    obtain ⟨object, stored⟩ := MemoryStore.has_iff.1 has
    refine MemoryStore.mem_entriesOf.2 ⟨place, object, stored, ?_⟩
    simp only [MemoryStore.listed?, within, beq_self_eq_true, if_true, MemoryStore.entryBelow?, path,
      List.isPrefixOf_iff_prefix.2 (List.prefix_append _ _), List.drop_left, Text.splitFirst]
  have directory : self.isDirectory = true := by
    apply isDirectory_nodeAt (location.namesDirectory_childDirectory "")
    rw [location.stem_childDirectory_empty.2, location.childDirectory_repository]
    intro has
    have file := @isFile_nodeAt gateway user location has
    rw [Node.isFile_eq, isDirectory] at file
    cases file
  have inner (upper : Location) : (upper.childDirectory "").isSink = upper.isSink := by
    rw [Location.isSink, upper.childDirectory_repository, Location.isSink]
  have among {upper : Location} (outside : upper.isSink = false)
      (directory : (gateway.nodeAt user upper).isDirectory = true)
      (entry : ⟨"", true⟩ ∈ gateway.store.entriesOf upper.repository upper.trimmedPath) :
      gateway.nodeAt user (upper.childDirectory "") ∈ gateway.listed (gateway.nodeAt user upper) := by
    rw [listed, entries_nodeAt directory]
    exact List.mem_map.2 ⟨_, entry, fetched_outside ((inner upper).trans outside) user⟩
  refine ⟨directory, among outside isDirectory entry, ?_⟩
  have again := @among (location.childDirectory "") ((inner location).trans outside) directory (by
    rw [location.stem_childDirectory_empty.2, location.childDirectory_repository]
    exact entry)
  rwa [location.childDirectory_empty_again] at again

/-- Whatever a node says that it holds, the places it gives are at or below its own. -/
theorem Under.outermost (segmented : gateway.store.Segmented node.location) (member : child ∈ gateway.listed node) :
    gateway.Under 0 child := by
  obtain ⟨entry, _, rfl⟩ := List.mem_map.1 member
  have below : node.location.stem <+: (node.entryLocation entry).stem := by
    rw [Node.entryLocation]
    split
    · rw [Location.childDirectory_eq_folder, Location.stem_folder]
      exact node.location.stem_prefix_child entry.name
    · exact node.location.stem_prefix_child entry.name
  refine ⟨?_, ?_, Nat.zero_le _, fun some => absurd rfl some⟩
  · rw [user_fetched, location_fetched]
  · rw [location_fetched]
    exact segmented.of_prefix (node.entryLocation_repository entry) below

end Gateway

namespace Glob

section Ending

variable {gateway : Gateway MemoryStore} {pattern : Pattern} {recursive : Bool} {base : Node}

theorem under_of_mem_levels (segmented : gateway.store.Segmented base.location) {depth : Nat} {candidate : Candidate}
    (member : candidate ∈ levels (inside gateway) pattern recursive depth (outermost gateway base)) :
    gateway.Under depth candidate.node := by
  induction depth generalizing candidate with
  | zero =>
      obtain ⟨child, listed, rfl⟩ := List.mem_map.1 member
      exact .outermost segmented listed
  | succ depth ih =>
      rw [levels_succ] at member
      obtain ⟨above, among, opened, below⟩ := mem_next.1 member
      obtain ⟨child, listed, rfl⟩ := List.mem_map.1 below
      exact (ih among).listed (isDirectory_of_opens opened).2 listed

/-- There is nothing left to list on the level that no object of the store is as deep as. -/
theorem closed_of_segmented (segmented : gateway.store.Segmented base.location) :
    (levels (inside gateway) pattern recursive gateway.store.listingDepth (outermost gateway base)).filter
      (opens pattern recursive) = [] := by
  rw [List.filter_eq_nil_iff]
  intro candidate member opened
  have under := under_of_mem_levels segmented member
  obtain ⟨lower, has, below⟩ := under.kept gateway.store.listingDepth_spec.1 (isDirectory_of_opens opened).2
  have shallow := MemoryStore.lt_listingDepth has
  rw [Text.length_pieces] at shallow
  have deep := Nat.le_trans under.deep (below.count_le '/')
  omega

end Ending

namespace Worklist

/-- Over a store that does not fail, the worklist of a search below any node is empty after finitely many turns, when
the pattern has no `**` or no object below the node has an empty segment in its path there; and a scan then gives what
has been found by then. -/
theorem ends_empty {live : Live MemoryStore} {text : String} {pattern : Pattern}
    (reliable : live.gateway.store.failuresPending = 0) (parsed : Pattern.parse text = .ok pattern) (base : Node)
    (recursive : Bool) (segmented : levelLimit? text = none → live.gateway.store.Segmented base.location) :
    ∃ count found,
      live.Yields (start base >>= turns pattern recursive (levelLimit? text) count)
        (fun work _ => work = { pending := [], found }) ∧
      live.Gives (scan base text recursive) fun nodes _ => nodes = (sortResults found).map Candidate.node := by
  have spent := fun unlimited : levelLimit? text = none =>
    @closed_of_segmented live.gateway pattern recursive base (segmented unlimited)
  have more : (levelLimit? text = none → reach live.gateway.store text = live.gateway.store.listingDepth) ∧
      ∀ most ∈ levelLimit? text, reach live.gateway.store text = most - 1 := by
    rw [reach]
    cases levelLimit? text with
    | none => exact ⟨fun _ => rfl, fun most limited => by cases limited⟩
    | some limit => exact ⟨(fun unlimited => by cases unlimited), fun most same => by cases same; rfl⟩
  obtain ⟨count, ended⟩ := @step_results (inside live.gateway) pattern recursive (levelLimit? text)
    (outermost live.gateway base) _ 1 [] more.2 fun unlimited => more.1 unlimited ▸ spent unlimited
  refine ⟨count, results (inside live.gateway) pattern recursive (reach live.gateway.store text)
    (outermost live.gateway base), ?_, (gives_scan reliable parsed base spent).mono fun _ _ valid => valid.1⟩
  refine (yields_start reliable base).bind ?_
  rintro _ middle ⟨rfl, asks⟩
  obtain ⟨_, last, ran, rfl, _⟩ := yields_turns (asks.consulted.reliable reliable) count
    (between 1 (outermost live.gateway base) [] [])
  exact ⟨_, last, ran, by rw [inside_consulted asks.consulted, ended, List.nil_append]⟩

/-- A directory in a repository of which another path has an empty segment. -/
theorem ends_empty_beside_slash :
    let store := ((({} : MemoryStore).insert ⟨"libs", "com/a.jar"⟩ [97] .empty).insert ⟨"libs", "com/sub/b.jar"⟩ [98]
      .empty).insert ⟨"libs", "/x"⟩ [120] .empty
    let live : Live MemoryStore := { gateway := Gateway.new {} store (fun _ _ _ => true) ⟨7, 0⟩ }
    let base := live.gateway.fetched "ann" ⟨"libs", "com/"⟩
    store.Segmented base.location ∧
      Pattern.parse "**/*.jar" = .ok ([.anySegments, .anyRun] ++ ".jar".toList.map .literal) ∧
      ∃ count found,
        live.Yields
            (start base >>= turns ([.anySegments, .anyRun] ++ ".jar".toList.map .literal) false (levelLimit? "**/*.jar")
              count)
            (fun work _ => work = { pending := [], found }) ∧
          live.Gives (scan base "**/*.jar" false) fun nodes _ => nodes = (sortResults found).map Candidate.node := by
  intro store live base
  have segmented : store.Segmented base.location := by decide +kernel
  have parsed : Pattern.parse "**/*.jar" = .ok ([.anySegments, .anyRun] ++ ".jar".toList.map .literal) := rfl
  exact ⟨segmented, parsed, ends_empty rfl parsed base false fun _ => segmented⟩

/-! Without a limit, a directory that lists itself is pending again after every turn, since no directory is a result
where only files are wanted. -/

def Holds (node : Node) (work : Worklist) : Prop :=
  ∃ entry ∈ work.pending, entry.1.node = node

section GoingOn

variable {gateway : Gateway MemoryStore} {live : Live MemoryStore} {pattern : Pattern} {node : Node} {work : Worklist}

theorem Holds.step (holds : Holds node work) (isDirectory : node.isDirectory = true)
    (loops : node ∈ gateway.listed node) :
    Holds node (work.step (inside gateway) pattern false none) := by
  obtain ⟨⟨candidate, depth⟩, member, same⟩ := holds
  obtain ⟨pending, found⟩ := work
  cases pending with
  | nil => cases member
  | cons first rest =>
      rcases List.mem_cons.1 member with rfl | later
      · subst same
        have unselected : selects pattern false candidate = false := by
          rw [selects, Node.isFile_eq, isDirectory]
          simp
        refine ⟨(⟨candidate.path ++ "/" ++ candidate.node.name, candidate.node⟩, depth + 1), ?_, rfl⟩
        simp only [Worklist.step, unselected, isDirectory, Bool.false_eq_true, if_false, Option.all_none,
          Bool.and_self, if_true]
        exact List.mem_append_right _ (List.mem_map.2 ⟨_, List.mem_map.2 ⟨_, loops, rfl⟩, rfl⟩)
      · refine ⟨(candidate, depth), ?_, same⟩
        simp only [Worklist.step]
        split
        · exact later
        · split
          · exact List.mem_append_left _ later
          · exact later

/-- Over a store that does not fail, a directory below which an object's path goes on with a slash lists itself, and
the worklist of a search for files below it is not empty after any number of turns, when nothing limits its depth. -/
theorem never_empty {user : String} {location place : Location}
    (reliable : live.gateway.store.failuresPending = 0)
    (isDirectory : (live.gateway.fetched user location).isDirectory = true) (has : live.gateway.store.Has place)
    (within : place.repository = location.repository) {rest : List Char}
    (path : place.path.toList = location.stem ++ '/' :: rest) (count : Nat) :
    live.Yields (start (live.gateway.fetched user location) >>= turns pattern false none count) fun work _ =>
      work.pending ≠ [] := by
  have outside := Gateway.outside_of_isDirectory isDirectory
  rw [Gateway.fetched_outside outside] at isDirectory ⊢
  obtain ⟨directory, first, loops⟩ := Gateway.lists_itself outside isDirectory has within path
  have kept (count : Nat) : Holds (live.gateway.nodeAt user (location.childDirectory ""))
      ((Worklist.step (inside live.gateway) pattern false none)^[count]
        (between 1 (outermost live.gateway (live.gateway.nodeAt user location)) [] [])) := by
    induction count with
    | zero =>
        let node := live.gateway.nodeAt user (location.childDirectory "")
        have member : (⟨node.name, node⟩ : Candidate) ∈
            outermost live.gateway (live.gateway.nodeAt user location) := List.mem_map.2 ⟨node, first, rfl⟩
        exact ⟨(⟨node.name, node⟩, 1), List.mem_append_left _ (List.mem_map.2 ⟨_, member, rfl⟩), rfl⟩
    | succ count ih =>
        rw [Function.iterate_succ_apply']
        exact ih.step directory loops
  refine (yields_start reliable _).bind ?_
  rintro _ middle ⟨rfl, asks⟩
  obtain ⟨_, last, ran, rfl, _⟩ := yields_turns (asks.consulted.reliable reliable) count
    (between 1 (outermost live.gateway (live.gateway.nodeAt user location)) [] [])
  refine ⟨_, last, ran, ?_⟩
  obtain ⟨entry, member, _⟩ := kept count
  rw [inside_consulted asks.consulted]
  exact List.ne_nil_of_mem member

/-- A file put at a path with two slashes by an upload, and a search for it below the root of its repository. -/
theorem uploaded_slash_never_empty :
    let gateway := Gateway.new {} ({} : MemoryStore) (fun _ _ _ => true) ⟨7, 0⟩
    let ended := Session.run ⟨"ann", "::1", .empty⟩ "scp -t /libs//x" (Text.encode "C0644 1 x\ny" ++ [0]) .closed
      { gateway }
    let base := ended.2.gateway.fetched "ann" (Location.resolve "/libs/")
    exitValue ended.1 = 0 ∧ ended.2.gateway.store.objects.keys = [⟨"libs", "/x"⟩] ∧ base.isDirectory = true ∧
      Pattern.parse "**/x" = .ok [.anySegments, .literal 'x'] ∧
      ∀ count, ended.2.Yields (start base >>= turns [.anySegments, .literal 'x'] false (levelLimit? "**/x") count)
        fun work _ => work.pending ≠ [] := by
  intro gateway ended base
  have keys : ended.2.gateway.store.objects.keys = [⟨"libs", "/x"⟩] := by decide +kernel
  have isDirectory : base.isDirectory = true := by decide +kernel
  have has : ended.2.gateway.store.Has ⟨"libs", "/x"⟩ := by
    rw [MemoryStore.Has, keys]
    exact List.mem_cons_self
  have path : "/x".toList = (Location.resolve "/libs/").stem ++ '/' :: ['x'] := by decide +kernel
  refine ⟨by decide +kernel, keys, isDirectory, rfl, ?_⟩
  exact never_empty (by decide +kernel) isDirectory has rfl path

end GoingOn

end Worklist

end Glob

end ArtifactGate
