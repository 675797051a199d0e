import ArtifactGate.Proofs.Glob.Depth
import ArtifactGate.Proofs.Glob.Standing

/-!
What a pattern is expanded to. The levels of a search hold what stands below its directory, each place at the depth of
its names, as far as no directory above it is a result; so a scan finds what matches, and finds it once.
-/
namespace ArtifactGate

namespace Glob

/-- A candidate for what stands where some names lead from a directory. None of the directories on the way to it is
a result. -/
structure Reached (gateway : Gateway MemoryStore) (user : String) (location : Location) (pattern : Pattern)
    (recursive : Bool) (names : List String) (candidate : Candidate) : Prop where
  some : names ≠ []
  segments : ∀ name ∈ names, IsSegment name
  path : candidate.path = "/".intercalate names
  stands : gateway.Stands user (location.descend names) candidate.node
  free : recursive = true → ∀ upper, upper ≠ [] → upper <+: names → upper ≠ names →
    pattern.isMatch ("/".intercalate upper) = false

variable {gateway : Gateway MemoryStore} {user : String} {location : Location} {pattern : Pattern} {recursive : Bool}
  {names others : List String} {candidate other : Candidate}

namespace Reached

theorem names_eq (reached : Reached gateway user location pattern recursive names candidate)
    (also : Reached gateway user location pattern recursive others other) (same : candidate.path = other.path) :
    names = others := by
  have texts : names.map String.toList = others.map String.toList := by
    rw [← Location.pieces_intercalate reached.some reached.segments, ← reached.path, same, also.path,
      Location.pieces_intercalate also.some also.segments]
  exact List.map_injective_iff.2 (fun _ _ => String.toList_inj.1) texts

/-- Names lead to an object, which is a file, or to a directory on the way to an object. -/
theorem cases (reached : Reached gateway user location pattern recursive names candidate)
    (outside : location.isSink = false) (arranged : gateway.store.Arranged location.repository) :
    gateway.store.Has (location.descend names) ∧ candidate.node.isDirectory = false ∨
      candidate.node = gateway.nodeAt user (location.descend names).folder ∧ candidate.node.isDirectory = true ∧
        ∃ lower, gateway.store.Has lower ∧ (location.descend names).Above lower := by
  have trimmed := @Location.trimmedPath_descend location names reached.segments reached.some
  have place : (⟨location.repository, String.ofList (location.descend names).trimmedPath⟩ : Location) =
      location.descend names := by
    rw [trimmed, String.ofList_toList]
    rfl
  cases reached.stands with
  | file stored here =>
      have remote : candidate.node = gateway.nodeAt user (location.descend names) :=
        here.trans (@Gateway.fetched_outside gateway (location.descend names) outside user)
      have isFile := @Gateway.isFile_nodeAt gateway user (location.descend names) (place.symm ▸ stored)
      rw [Node.isFile_eq, Bool.not_eq_true'] at isFile
      exact .inl ⟨stored, remote ▸ isFile⟩
  | folder lower stored above here =>
      have remote : candidate.node = gateway.nodeAt user (location.descend names).folder :=
        here.trans (@Gateway.fetched_outside gateway (location.descend names).folder outside user)
      refine .inr ⟨remote, ?_, lower, stored, above⟩
      rw [remote]
      apply Gateway.isDirectory_nodeAt (Location.namesDirectory_folder _)
      rw [Location.trimmedPath_folder]
      intro has
      exact @MemoryStore.Arranged.not_above _ (location.descend names) lower arranged (place ▸ has) stored above

/-- The depth of what names lead to is below the depth of the store's listings. -/
theorem length_lt (reached : Reached gateway user location pattern recursive names candidate)
    (outside : location.isSink = false) (arranged : gateway.store.Arranged location.repository) :
    names.length < gateway.store.listingDepth ∧
      (candidate.node.isDirectory = true → names.length + 1 < gateway.store.listingDepth) := by
  have pieces := @Location.length_le_pieces location names reached.segments reached.some
  rcases reached.cases outside arranged with ⟨stored, isFile⟩ | ⟨_, _, lower, stored, above⟩
  · have deep := MemoryStore.lt_listingDepth stored
    refine ⟨by omega, fun isDirectory => ?_⟩
    rw [isFile] at isDirectory
    cases isDirectory
  · have deep := MemoryStore.lt_listingDepth stored
    have further := Location.pieces_lt_of_above above
    exact ⟨by omega, fun _ => by omega⟩

theorem selects_eq_false (reached : Reached gateway user location pattern recursive names candidate)
    (isDirectory : candidate.node.isDirectory = true)
    (free : recursive = true → pattern.isMatch ("/".intercalate names) = false) :
    selects pattern recursive candidate = false := by
  rw [selects, Node.isFile_eq, isDirectory, reached.path]
  cases recursive with
  | false => simp
  | true => simp [free rfl]

end Reached

/-! What is listed below a candidate has the candidate's names and one more. -/

section Steps

variable (outside : location.isSink = false) (arranged : gateway.store.Arranged location.repository)

include outside arranged in
theorem Reached.remote (reached : Reached gateway user location pattern recursive names candidate)
    (isDirectory : candidate.node.isDirectory = true) :
    candidate.node = gateway.nodeAt user (location.descend names).folder ∧
      candidate.node.entries = gateway.store.entriesOf candidate.node.location.repository
        candidate.node.location.trimmedPath := by
  rcases reached.cases outside arranged with ⟨_, isFile⟩ | ⟨remote, _, _⟩
  · rw [isFile] at isDirectory
    cases isDirectory
  · rw [remote] at isDirectory ⊢
    exact ⟨rfl, Gateway.entries_nodeAt isDirectory⟩

include outside arranged in
theorem mem_inside (reached : Reached gateway user location pattern recursive names candidate)
    (opened : opens pattern recursive candidate = true) :
    other ∈ inside gateway candidate ↔
      ∃ name, Reached gateway user location pattern recursive (names ++ [name]) other := by
  obtain ⟨unselected, isDirectory⟩ := isDirectory_of_opens opened
  obtain ⟨remote, entries⟩ := reached.remote outside arranged isDirectory
  have place (name : String) : candidate.node.location.child name = location.descend (names ++ [name]) := by
    rw [Location.descend_append reached.segments reached.some (List.cons_ne_nil _ _), Location.descend_singleton,
      remote]
    rfl
  have user : candidate.node.user = user := by
    rw [remote]
    rfl
  have within : candidate.node.location.repository = location.repository := by
    rw [remote]
    rfl
  have path (name : String) : "/".intercalate (names ++ [name]) = candidate.path ++ "/" ++ name := by
    rw [String.intercalate_append_of_ne_nil reached.some (List.cons_ne_nil _ _), String.intercalate_singleton,
      reached.path]
  have listed (child : Node) := @Gateway.mem_listed gateway candidate.node child (within ▸ arranged) entries
  simp only [place, user] at listed
  simp only [inside, List.mem_map, listed]
  constructor
  · rintro ⟨child, ⟨name, segment, stands⟩, rfl⟩
    refine ⟨name, List.append_ne_nil_of_left_ne_nil reached.some _, ?_, ?_, stands, ?_⟩
    · exact List.forall_mem_append.2 ⟨reached.segments, List.forall_mem_singleton.2 segment⟩
    · rw [path, stands.name_descend reached.segments segment]
    · intro wanted upper some way other
      rcases List.prefix_concat_iff.1 way with same | above
      · exact absurd same other
      · by_cases whole : upper = names
        · rw [selects, wanted, Bool.or_true, Bool.and_true, reached.path, ← whole] at unselected
          exact unselected
        · exact reached.free wanted upper some above whole
  · rintro ⟨name, further⟩
    have segment : IsSegment name := further.segments name (List.mem_append_right _ List.mem_cons_self)
    refine ⟨other.node, ⟨name, segment, further.stands⟩, ?_⟩
    rw [further.stands.name_descend reached.segments segment, ← path, ← further.path]

include outside arranged in
theorem inside_nodup (reached : Reached gateway user location pattern recursive names candidate)
    (opened : opens pattern recursive candidate = true) : ((inside gateway candidate).map Candidate.path).Nodup := by
  obtain ⟨remote, entries⟩ := reached.remote outside arranged (isDirectory_of_opens opened).2
  have within : candidate.node.location.repository = location.repository := by
    rw [remote]
    rfl
  have once := Gateway.names_listed_nodup (within ▸ arranged) entries
  rw [inside, List.map_map]
  rw [List.Nodup, List.pairwise_map] at once ⊢
  exact once.imp fun differ same => differ (String.append_right_inj _ |>.1 same)

include outside arranged in
/-- What is listed below one candidate is not listed below another. -/
theorem inside_disjoint (reached : Reached gateway user location pattern recursive names candidate)
    (opened : opens pattern recursive candidate = true)
    (alsoReached : Reached gateway user location pattern recursive others other)
    (alsoOpened : opens pattern recursive other = true) (differ : candidate.path ≠ other.path) :
    ((inside gateway candidate).map Candidate.path).Disjoint ((inside gateway other).map Candidate.path) := by
  intro path inFirst inSecond
  obtain ⟨child, below, rfl⟩ := List.mem_map.1 inFirst
  obtain ⟨otherChild, alsoBelow, same⟩ := List.mem_map.1 inSecond
  obtain ⟨name, further⟩ := (mem_inside outside arranged reached opened).1 below
  obtain ⟨otherName, alsoFurther⟩ := (mem_inside outside arranged alsoReached alsoOpened).1 alsoBelow
  have equal : names = others := List.append_inj_left' (further.names_eq alsoFurther same.symm) rfl
  refine differ ?_
  rw [reached.path, alsoReached.path, equal]

include outside arranged in
/-- What is reached by several names is listed below a directory that is searched. -/
theorem Reached.parent {name : String}
    (reached : Reached gateway user location pattern recursive (names ++ [name]) other) (some : names ≠ []) :
    ∃ above, Reached gateway user location pattern recursive names above ∧ opens pattern recursive above = true := by
  have segments : ∀ name ∈ names, IsSegment name :=
    fun name member => reached.segments name (List.mem_append_left _ member)
  obtain ⟨lower, stored, above⟩ : ∃ lower, gateway.store.Has lower ∧ (location.descend names).Above lower := by
    have step := @Location.above_descend location names segments some name
    rcases reached.stands with ⟨stored, _⟩ | ⟨lower, stored, above, _⟩
    · exact ⟨_, stored, step⟩
    · exact ⟨lower, stored, step.trans above⟩
  let parent : Candidate :=
    { path := "/".intercalate names, node := gateway.fetched user (location.descend names).folder }
  have free (wanted : recursive = true) (upper : List String) (inner : upper ≠ []) (way : upper <+: names) :
      pattern.isMatch ("/".intercalate upper) = false := by
    refine reached.free wanted upper inner (way.trans (List.prefix_append _ _)) ?_
    rintro rfl
    have long := way.length_le
    rw [List.length_append, List.length_singleton] at long
    omega
  have stands : Reached gateway user location pattern recursive names parent :=
    ⟨some, segments, rfl, .folder lower stored above rfl, fun wanted upper inner way _ => free wanted upper inner way⟩
  have isDirectory : parent.node.isDirectory = true := by
    rcases stands.cases outside arranged with ⟨has, _⟩ | ⟨_, isDirectory, _⟩
    · exact absurd above (@MemoryStore.Arranged.not_above _ (location.descend names) lower arranged has stored)
    · exact isDirectory
  have unselected := stands.selects_eq_false isDirectory fun wanted => free wanted names some (List.prefix_refl _)
  refine ⟨parent, stands, ?_⟩
  rw [opens, isDirectory, unselected]
  rfl

variable (isDirectory : (gateway.nodeAt user location).isDirectory = true)

include arranged isDirectory in
theorem mem_outermost : other ∈ outermost gateway (gateway.nodeAt user location) ↔
    ∃ name, Reached gateway user location pattern recursive [name] other := by
  have listed (child : Node) := @Gateway.mem_listed gateway (gateway.nodeAt user location) child arranged
    (Gateway.entries_nodeAt isDirectory)
  have place (name : String) : (gateway.nodeAt user location).location.child name = location.descend [name] :=
    (location.descend_singleton name).symm
  simp only [place] at listed
  simp only [outermost, List.mem_map, listed]
  constructor
  · rintro ⟨child, ⟨name, segment, stands⟩, rfl⟩
    have named : child.name = name := stands.name_descend (List.forall_mem_nil _) segment
    refine ⟨name, List.cons_ne_nil _ _, List.forall_mem_singleton.2 segment, ?_, stands, ?_⟩
    · rw [String.intercalate_singleton, named]
    · intro _ upper some way unlike
      rcases (@List.prefix_concat_iff _ upper [] name).1 way with same | none
      · exact absurd same unlike
      · exact absurd (List.prefix_nil.1 none) some
  · rintro ⟨name, reached⟩
    have segment := reached.segments name List.mem_cons_self
    have named : other.node.name = name := reached.stands.name_descend (List.forall_mem_nil _) segment
    have path := reached.path
    rw [String.intercalate_singleton] at path
    exact ⟨other.node, ⟨name, segment, reached.stands⟩, by rw [named, ← path]⟩

include outside arranged isDirectory in
/-- A level of a search holds what as many names lead to. -/
theorem mem_levels {depth : Nat} :
    other ∈ levels (inside gateway) pattern recursive depth (outermost gateway (gateway.nodeAt user location)) ↔
      ∃ names, names.length = depth + 1 ∧ Reached gateway user location pattern recursive names other := by
  induction depth generalizing other with
  | zero =>
      rw [levels, mem_outermost arranged isDirectory]
      constructor
      · rintro ⟨name, reached⟩
        exact ⟨[name], rfl, reached⟩
      · rintro ⟨names, single, reached⟩
        obtain ⟨name, rfl⟩ := List.length_eq_one_iff.1 single
        exact ⟨name, reached⟩
  | succ depth ih =>
      simp only [levels_succ, mem_next, ih]
      constructor
      · rintro ⟨above, ⟨names, length, reached⟩, opened, member⟩
        obtain ⟨name, further⟩ := (mem_inside outside arranged reached opened).1 member
        exact ⟨names ++ [name], by rw [List.length_append, length, List.length_singleton], further⟩
      · rintro ⟨names, length, reached⟩
        obtain ⟨front, name, rfl⟩ := (List.eq_nil_or_concat' names).resolve_left reached.some
        rw [List.length_append, List.length_singleton, Nat.add_right_cancel_iff] at length
        have some : front ≠ [] := List.ne_nil_of_length_eq_add_one length
        obtain ⟨above, parent, opened⟩ := reached.parent outside arranged some
        exact ⟨above, ⟨front, length, parent⟩, opened, (mem_inside outside arranged parent opened).2 ⟨name, reached⟩⟩

include outside arranged isDirectory in
theorem levels_nodup (depth : Nat) :
    ((levels (inside gateway) pattern recursive depth (outermost gateway (gateway.nodeAt user location))).map
      Candidate.path).Nodup := by
  induction depth with
  | zero =>
      rw [levels, outermost, List.map_map]
      exact Gateway.names_listed_nodup arranged (Gateway.entries_nodeAt isDirectory)
  | succ depth ih =>
      rw [levels_succ, next, List.map_flatMap, List.nodup_flatMap]
      have above {candidate : Candidate} (member : candidate ∈ (levels (inside gateway) pattern recursive depth
            (outermost gateway (gateway.nodeAt user location))).filter (opens pattern recursive)) :
          opens pattern recursive candidate = true ∧
            ∃ names, Reached gateway user location pattern recursive names candidate := by
        obtain ⟨member, opened⟩ := List.mem_filter.1 member
        obtain ⟨names, _, reached⟩ := (mem_levels outside arranged isDirectory).1 member
        exact ⟨opened, names, reached⟩
      constructor
      · intro candidate member
        obtain ⟨opened, names, reached⟩ := above member
        exact inside_nodup outside arranged reached opened
      · rw [List.Nodup, List.pairwise_map] at ih
        refine (ih.filter _).imp_of_mem fun {first second} member among differ => ?_
        obtain ⟨opened, names, reached⟩ := above member
        obtain ⟨alsoOpened, others, alsoReached⟩ := above among
        exact inside_disjoint outside arranged reached opened alsoReached alsoOpened differ

include outside arranged isDirectory in
theorem results_nodup (more depth : Nat) :
    ((results (inside gateway) pattern recursive more (levels (inside gateway) pattern recursive depth
      (outermost gateway (gateway.nodeAt user location)))).map Candidate.path).Nodup := by
  have once (depth : Nat) : (((levels (inside gateway) pattern recursive depth
      (outermost gateway (gateway.nodeAt user location))).filter (selects pattern recursive)).map
        Candidate.path).Nodup :=
    (levels_nodup outside arranged isDirectory depth).sublist (List.filter_sublist.map Candidate.path)
  induction more generalizing depth with
  | zero => exact once depth
  | succ more ih =>
      rw [results, List.map_append, ← levels_succ, List.nodup_append]
      refine ⟨once depth, ih (depth + 1), ?_⟩
      intro path here _ further same
      subst same
      obtain ⟨candidate, member, rfl⟩ := List.mem_map.1 here
      obtain ⟨other, among, same⟩ := List.mem_map.1 further
      obtain ⟨⟨steps, _, below⟩, _⟩ := mem_results.1 among
      rw [levels_levels] at below
      obtain ⟨names, length, reached⟩ := (mem_levels outside arranged isDirectory).1 (List.mem_filter.1 member).1
      obtain ⟨others, otherLength, alsoReached⟩ := (mem_levels outside arranged isDirectory).1 below
      rw [reached.names_eq alsoReached same.symm, otherLength] at length
      omega

end Steps

theorem sortResults_ascending {results : List Candidate} (once : (results.map Candidate.path).Nodup) :
    ((sortResults results).map Candidate.path).Pairwise (· < ·) := by
  have transitive (a b c : Candidate) (first : decide (a.path ≤ b.path) = true)
      (second : decide (b.path ≤ c.path) = true) : decide (a.path ≤ c.path) = true := by
    rw [decide_eq_true_eq] at first second ⊢
    exact String.le_trans first second
  have total (a b : Candidate) : (decide (a.path ≤ b.path) || decide (b.path ≤ a.path)) = true := by
    rw [Bool.or_eq_true, decide_eq_true_eq, decide_eq_true_eq]
    exact String.le_total a.path b.path
  have ordered := List.pairwise_mergeSort transitive total results
  have distinct := ((List.mergeSort_perm results fun a b => a.path ≤ b.path).map Candidate.path).nodup_iff.2 once
  rw [List.Nodup, List.pairwise_map] at distinct
  rw [List.pairwise_map, sortResults]
  exact (ordered.and distinct).imp fun both => Std.lt_of_le_of_ne (of_decide_eq_true both.1) both.2

/-- What a pattern asks for below a directory: the files whose path matches and, where directories are wanted, the
directories whose path matches; then nothing that lies below a directory that matches. -/
def Sought (gateway : Gateway MemoryStore) (user : String) (location : Location) (pattern : Pattern) (recursive : Bool)
    (candidate : Candidate) : Prop :=
  ∃ names, Reached gateway user location pattern recursive names candidate ∧
    pattern.isMatch candidate.path = true ∧ (gateway.store.Has (location.descend names) ∨ recursive = true)

theorem mem_results_iff_sought (outside : location.isSink = false)
    (arranged : gateway.store.Arranged location.repository)
    (isDirectory : (gateway.nodeAt user location).isDirectory = true) {text : String}
    (parsed : Pattern.parse text = .ok pattern) :
    candidate ∈ results (inside gateway) pattern recursive (reach gateway.store text)
        (outermost gateway (gateway.nodeAt user location)) ↔
      Sought gateway user location pattern recursive candidate := by
  have isFile {names : List String} (reached : Reached gateway user location pattern recursive names candidate) :
      candidate.node.isFile = true ↔ gateway.store.Has (location.descend names) := by
    rw [Node.isFile_eq, Bool.not_eq_true']
    rcases reached.cases outside arranged with ⟨has, isFile⟩ | ⟨_, isDirectory, lower, stored, above⟩
    · exact iff_of_true isFile has
    · refine iff_of_false (by rw [isDirectory]; exact Bool.noConfusion) fun has => ?_
      exact @MemoryStore.Arranged.not_above _ (location.descend names) lower arranged has stored above
  rw [mem_results, selects, Bool.and_eq_true, Bool.or_eq_true]
  constructor
  · rintro ⟨⟨depth, _, member⟩, matched, wanted⟩
    obtain ⟨names, _, reached⟩ := (mem_levels outside arranged isDirectory).1 member
    exact ⟨names, reached, matched, wanted.imp_left (isFile reached).1⟩
  · rintro ⟨names, reached, matched, wanted⟩
    refine ⟨⟨names.length - 1, ?_, (mem_levels outside arranged isDirectory).2 ⟨names, ?_, reached⟩⟩, matched,
      wanted.imp_left (isFile reached).2⟩
    · rw [reach]
      cases limited : levelLimit? text with
      | some limit =>
          have bounded := length_le_levelLimit limited parsed reached.segments (reached.path ▸ matched)
          exact Nat.sub_le_sub_right bounded 1
      | none => exact Nat.le_trans (Nat.sub_le _ _) (Nat.le_of_lt (reached.length_lt outside arranged).1)
    · have some := List.length_pos_iff.2 reached.some
      omega

/-- Over a store that is arranged as a tree and does not fail, a scan of a directory finds exactly what the pattern
asks for below it, once and in ascending order of the paths. -/
theorem scan_exact {live : Live MemoryStore} {text : String} (reliable : live.gateway.store.failuresPending = 0)
    (arranged : live.gateway.store.Arranged location.repository)
    (isDirectory : (live.gateway.fetched user location).isDirectory = true)
    (parsed : Pattern.parse text = .ok pattern) (recursive : Bool) :
    live.Gives (scan (live.gateway.fetched user location) text recursive) fun nodes _ =>
      ∃ found : List Candidate, nodes = found.map Candidate.node ∧ (found.map Candidate.path).Pairwise (· < ·) ∧
        ∀ candidate, candidate ∈ found ↔ Sought live.gateway user location pattern recursive candidate := by
  have outside := Gateway.outside_of_isDirectory isDirectory
  rw [Gateway.fetched_outside outside] at isDirectory ⊢
  have spent : levelLimit? text = none → (levels (inside live.gateway) pattern recursive
      live.gateway.store.listingDepth (outermost live.gateway (live.gateway.nodeAt user location))).filter
        (opens pattern recursive) = [] := by
    intro _
    rw [List.filter_eq_nil_iff]
    intro candidate member opened
    obtain ⟨names, length, reached⟩ := (mem_levels outside arranged isDirectory).1 member
    have deep := (reached.length_lt outside arranged).2 (isDirectory_of_opens opened).2
    omega
  refine (gives_scan reliable parsed _ spent).mono ?_
  rintro _ after ⟨rfl, _⟩
  refine ⟨_, rfl, sortResults_ascending (results_nodup outside arranged isDirectory _ 0), fun candidate => ?_⟩
  rw [sortResults, List.mem_mergeSort]
  exact mem_results_iff_sought outside arranged isDirectory parsed

/-- A directory with two files and, in a directory of its own, a third; the directory matches, so what is in it is not
searched. -/
theorem scan_exact_of_directory :
    let store := ((({} : MemoryStore).insert ⟨"libs", "com/b.jar"⟩ [98] .empty).insert ⟨"libs", "com/s.txt"⟩ [115]
      .empty).insert ⟨"libs", "com/sub/s.jar"⟩ [99] .empty
    let live : Live MemoryStore := { gateway := Gateway.new {} store (fun _ _ _ => true) ⟨7, 0⟩ }
    let base := live.gateway.fetched "ann" ⟨"libs", "com/"⟩
    base.isDirectory = true ∧ Pattern.parse "s[!/]*" = .ok [.literal 's', .noneOf [.single '/'], .anyRun] ∧
      live.Gives (scan base "s[!/]*" true) fun nodes _ =>
        ∃ found : List Candidate, nodes = found.map Candidate.node ∧ (found.map Candidate.path).Pairwise (· < ·) ∧
          ∀ candidate, candidate ∈ found ↔ Sought live.gateway "ann" ⟨"libs", "com/"⟩
            [.literal 's', .noneOf [.single '/'], .anyRun] true candidate := by
  intro store live base
  have isDirectory : base.isDirectory = true := by decide +kernel
  have parsed : Pattern.parse "s[!/]*" = .ok [.literal 's', .noneOf [.single '/'], .anyRun] := rfl
  exact ⟨isDirectory, parsed, scan_exact rfl ⟨by decide +kernel, by decide +kernel⟩ isDirectory parsed true⟩

end Glob

end ArtifactGate
