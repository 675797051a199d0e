import Mathlib.Data.List.Chain
import Mathlib.Data.List.TakeDrop
import ArtifactGate.Glob.Split
import ArtifactGate.Proofs.Location

/-!
Where the pattern of a path begins. The segments that a path is cut into make it up, and every one but the last ends in
a slash. So the base and the pattern make up the path, and a beginning of it made of whole segments is no longer than
the base, unless it has a glob character.
-/
namespace ArtifactGate.Glob

theorem segments_flatten (cs : List Char) : (segments cs).flatten = cs := by
  induction cs with
  | nil => rfl
  | cons c cs ih =>
      rw [segments]
      split
      · rename_i slash
        rw [List.flatten_cons, ih, slash]
        rfl
      · cases rest : segments cs with
        | nil =>
            rw [rest] at ih
            rw [← ih]
            rfl
        | cons segment more =>
            rw [rest] at ih
            exact congrArg (c :: ·) ih

/-- Every segment but the last ends in a slash. -/
theorem segments_chain (cs : List Char) :
    (segments cs).IsChain fun segment _ => segment.getLast? = some '/' := by
  induction cs with
  | nil => exact .nil
  | cons c cs ih =>
      rw [segments]
      split
      · exact List.isChain_cons.2 ⟨fun _ _ => rfl, ih⟩
      · cases rest : segments cs with
        | nil => exact .singleton _
        | cons segment more =>
            rw [rest] at ih
            obtain ⟨ends, others⟩ := List.isChain_cons.1 ih
            refine List.isChain_cons.2 ⟨fun next member => ?_, others⟩
            rw [List.getLast?_cons, ends next member]
            rfl

theorem splitSegments_eq (cs : List Char) :
    splitSegments cs = ((segments cs).takeWhile fun segment => !segment.any isGlobChar,
      (segments cs).dropWhile fun segment => !segment.any isGlobChar) := by
  rw [splitSegments, List.span_eq_takeWhile_dropWhile]

theorem splitSegments_append (cs : List Char) :
    (splitSegments cs).1 ++ (splitSegments cs).2 = segments cs := by
  rw [splitSegments_eq, List.takeWhile_append_dropWhile]

/-- The base of a path ends in a slash, if there is one and a pattern follows it. -/
theorem base_ends (cs : List Char) :
    (splitSegments cs).1 = [] ∨ (splitSegments cs).2 = [] ∨
      (splitSegments cs).1.flatten.getLast? = some '/' := by
  have chain := segments_chain cs
  rw [← splitSegments_append] at chain
  rcases List.eq_nil_or_concat (splitSegments cs).1 with none | ⟨front, last, base⟩
  · exact .inl none
  · rcases pattern : (splitSegments cs).2 with _ | ⟨first, more⟩
    · exact .inr (.inl rfl)
    · rw [base, pattern] at chain
      have ends := (List.isChain_append.1 chain).2.2 last (by simp) first rfl
      rw [base, List.concat_eq_append, List.flatten_append, List.getLast?_append, List.flatten_singleton, ends]
      exact .inr (.inr rfl)

/-- A slash can only end a segment. -/
theorem exists_body (cs : List Char) :
    ∀ segment ∈ segments cs, ∃ body ending, segment = body ++ ending ∧ '/' ∉ body ∧ ∀ c ∈ ending, c = '/' := by
  induction cs with
  | nil => exact List.forall_mem_nil _
  | cons c cs ih =>
      rw [segments]
      split
      · exact List.forall_mem_cons.2 ⟨⟨[], ['/'], rfl, List.not_mem_nil, fun c => List.eq_of_mem_singleton⟩, ih⟩
      · rename_i other
        cases rest : segments cs with
        | nil =>
            refine List.forall_mem_singleton.2 ⟨[c], [], rfl, ?_, List.forall_mem_nil _⟩
            exact fun slash => other (List.eq_of_mem_singleton slash).symm
        | cons segment more =>
            rw [rest] at ih
            obtain ⟨⟨body, ending, rfl, slashless, only⟩, others⟩ := List.forall_mem_cons.1 ih
            refine List.forall_mem_cons.2 ⟨⟨c :: body, ending, rfl, ?_, only⟩, others⟩
            rw [List.mem_cons, not_or]
            exact ⟨Ne.symm other, slashless⟩

theorem mem_of_splitSegments {cs first : List Char} {more : List (List Char)}
    (pattern : (splitSegments cs).2 = first :: more) : first ∈ segments cs ∧ first.any isGlobChar = true := by
  rw [splitSegments_eq] at pattern
  dsimp only at pattern
  have stops := List.head?_dropWhile_not (fun segment : List Char => !segment.any isGlobChar) (segments cs)
  rw [pattern] at stops
  exact ⟨(List.dropWhile_sublist _).subset (pattern ▸ List.mem_cons_self), by simpa using stops⟩

/-- A segment has its glob characters before its slash. -/
theorem glob_before_slash {cs segment : List Char} (member : segment ∈ segments cs)
    (glob : segment.any isGlobChar = true) (rest : List Char) :
    ((segment ++ rest).takeWhile fun c => !Location.isSlash c).any isGlobChar = true := by
  obtain ⟨body, ending, rfl, slashless, only⟩ := exists_body cs segment member
  obtain ⟨c, among, glob⟩ := List.any_eq_true.1 glob
  have inner : c ∈ body := (List.mem_append.1 among).resolve_right fun ends => by
    rw [only c ends] at glob
    exact absurd glob (by decide)
  have kept : ∀ d ∈ body, (!Location.isSlash d) = true := by
    intro d held
    rw [Location.isSlash_of_slashless slashless held]
    rfl
  rw [List.append_assoc, List.takeWhile_append_of_pos kept]
  exact List.any_eq_true.2 ⟨c, List.mem_append_left _ inner, glob⟩

/-- What stands before the first slash. -/
def firstSegment (text : String) : String :=
  String.ofList (text.toList.takeWhile fun c => !Location.isSlash c)

/-- No segment of the text is without its slash. -/
def EndsSegment (text : String) : Prop :=
  text = "" ∨ text.toList.getLast? = some '/'

/-- How many bytes stand before the first segment with a glob character, counted segment by segment. -/
def baseSize : List (List Char) → Nat
  | [] => 0
  | segment :: more =>
    if segment.any isGlobChar then 0 else (String.ofList segment).utf8ByteSize + baseSize more

theorem hasGlob_append (front rest : String) : hasGlob (front ++ rest) = (hasGlob front || hasGlob rest) := by
  rw [hasGlob, String.toList_append, List.any_append]
  rfl

theorem hasGlob_of_subset {part text : String} (within : part.toList ⊆ text.toList) (glob : hasGlob part = true) :
    hasGlob text = true := by
  rw [hasGlob, List.any_eq_true] at glob ⊢
  obtain ⟨c, member, glob⟩ := glob
  exact ⟨c, within member, glob⟩

theorem firstSegment_subset (text : String) : (firstSegment text).toList ⊆ text.toList := by
  rw [firstSegment, String.toList_ofList]
  exact (List.takeWhile_prefix _).subset

/-- The first segment of a text ends before any slash in it. -/
theorem firstSegment_subset_of_slash {text : String} {front : List Char} (begins : front ++ ['/'] <+: text.toList) :
    (firstSegment text).toList ⊆ front := by
  obtain ⟨rest, whole⟩ := begins
  rw [firstSegment, String.toList_ofList, ← whole, List.append_assoc, List.singleton_append,
    Text.takeWhile_append_cons (by decide)]
  exact (List.takeWhile_prefix _).subset

section Splitting

variable (path : String)

theorem splitPattern_eq :
    splitPattern path = (String.ofList (splitSegments path.toList).1.flatten,
      String.ofList (splitSegments path.toList).2.flatten) := rfl

theorem base_append_pattern : (splitPattern path).1 ++ (splitPattern path).2 = path := by
  rw [splitPattern_eq, ← String.ofList_append, ← List.flatten_append, splitSegments_append, segments_flatten,
    String.ofList_toList]

theorem hasGlob_base : hasGlob (splitPattern path).1 = false := by
  rw [splitPattern_eq, hasGlob, String.toList_ofList, List.any_flatten, List.any_eq_false, splitSegments_eq]
  intro segment member
  have plain := List.all_eq_true.1 List.all_takeWhile segment member
  simpa using plain

theorem hasGlob_pattern : hasGlob (splitPattern path).2 = hasGlob path := by
  have whole := congrArg hasGlob (base_append_pattern path)
  rw [hasGlob_append, hasGlob_base, Bool.false_or] at whole
  exact whole

/-- A pattern that is not empty has a glob character in its first segment. -/
theorem firstSegment_pattern : (splitPattern path).2 = "" ∨ hasGlob (firstSegment (splitPattern path).2) = true := by
  rw [splitPattern_eq]
  cases pattern : (splitSegments path.toList).2 with
  | nil => exact .inl rfl
  | cons first more =>
      obtain ⟨member, glob⟩ := mem_of_splitSegments pattern
      rw [hasGlob, firstSegment, String.toList_ofList, String.toList_ofList, List.flatten_cons]
      exact .inr (glob_before_slash member glob _)

theorem firstSegment_pattern_of_glob (glob : hasGlob path = true) :
    hasGlob (firstSegment (splitPattern path).2) = true := by
  refine (firstSegment_pattern path).resolve_left fun none => ?_
  rw [← hasGlob_pattern, none] at glob
  cases glob

theorem pattern_of_plain (plain : hasGlob path = false) : (splitPattern path).2 = "" := by
  refine (firstSegment_pattern path).resolve_right fun first => ?_
  have glob := hasGlob_of_subset (firstSegment_subset _) first
  rw [hasGlob_pattern, plain] at glob
  cases glob

theorem endsSegment_base (glob : hasGlob path = true) : EndsSegment (splitPattern path).1 := by
  have pattern : (splitSegments path.toList).2 ≠ [] := by
    intro none
    rw [← hasGlob_pattern, splitPattern_eq, none] at glob
    cases glob
  rw [EndsSegment, splitPattern_eq, String.toList_ofList]
  rcases base_ends path.toList with none | none | slash
  · exact .inl (by rw [none]; rfl)
  · exact absurd none pattern
  · exact .inr slash

theorem utf8ByteSize_takeWhile (parts : List (List Char)) :
    (String.ofList (parts.takeWhile fun segment => !segment.any isGlobChar).flatten).utf8ByteSize =
      baseSize parts := by
  induction parts with
  | nil => rfl
  | cons segment more ih =>
      rw [baseSize, List.takeWhile_cons]
      cases segment.any isGlobChar with
      | true => rfl
      | false =>
          rw [← ih, ← String.utf8ByteSize_append, ← String.ofList_append]
          rfl

/-- So many bytes are whole characters, and the path is cut after them. -/
theorem exists_cut : ∃ cut : path.Pos, cut.offset.byteIdx = baseSize (segments path.toList) ∧
    cut.Splits (splitPattern path).1 (splitPattern path).2 := by
  have whole := (base_append_pattern path).symm
  have size : (splitPattern path).1.utf8ByteSize = baseSize (segments path.toList) := by
    rw [splitPattern_eq, splitSegments_eq, utf8ByteSize_takeWhile]
  have boundary := String.Pos.Raw.isValid_iff_exists_append.2 ⟨_, _, whole, rfl⟩
  exact ⟨⟨_, boundary⟩, size, whole, rfl⟩

end Splitting

/-- Whole segments without a glob character end before the first segment that has one. -/
theorem prefix_of_endsSegment {base pattern other : String} (first : hasGlob (firstSegment pattern) = true)
    (begins : other.toList <+: (base ++ pattern).toList) (ends : EndsSegment other) (plain : hasGlob other = false) :
    other.toList <+: base.toList := by
  rw [String.toList_append] at begins
  rcases List.prefix_or_prefix_of_prefix begins (List.prefix_append _ _) with within | ⟨more, longer⟩
  · exact within
  · rcases List.eq_nil_or_concat more with rfl | ⟨front, last, rfl⟩
    · rw [List.append_nil] at longer
      exact longer ▸ List.prefix_refl _
    · -- The whole first segment of the pattern, with its glob character, would be in the other text.
      rw [List.concat_eq_append, ← List.append_assoc] at longer
      have slash : last = '/' := by
        rcases ends with none | slash
        · rw [none] at longer
          exact absurd longer (by simp)
        · rw [← longer, List.getLast?_concat] at slash
          exact Option.some.inj slash
      subst slash
      rw [← longer, List.append_assoc, List.prefix_append_right_inj] at begins
      have within : (firstSegment pattern).toList ⊆ other.toList := fun c member =>
        longer ▸ List.mem_append_left _ (List.mem_append_right _ (firstSegment_subset_of_slash begins member))
      rw [hasGlob_of_subset within first] at plain
      cases plain

/-- A path is cut into base and pattern after a number of bytes that is that of whole characters. The base has no glob
character. Where the path has one, so has the first segment of the pattern, and the base is the longest beginning of the
path that is made of whole segments without any; otherwise there is no pattern. -/
theorem cut_at_first_glob (path : String) :
    (splitPattern path).1 ++ (splitPattern path).2 = path ∧
    (∃ cut : path.Pos, cut.offset.byteIdx = baseSize (segments path.toList) ∧
      cut.Splits (splitPattern path).1 (splitPattern path).2) ∧
    hasGlob (splitPattern path).1 = false ∧
    (hasGlob path = true →
      EndsSegment (splitPattern path).1 ∧ hasGlob (firstSegment (splitPattern path).2) = true ∧
      ∀ base : String, base.toList <+: path.toList → EndsSegment base → hasGlob base = false →
        base.toList <+: (splitPattern path).1.toList) ∧
    (hasGlob path = false → (splitPattern path).2 = "") := by
  refine ⟨base_append_pattern path, exists_cut path, hasGlob_base path, fun glob => ?_, pattern_of_plain path⟩
  have first := firstSegment_pattern_of_glob path glob
  refine ⟨endsSegment_base path glob, first, fun base begins ends plain => ?_⟩
  rw [← base_append_pattern path] at begins
  exact prefix_of_endsSegment first begins ends plain

/-- Empty segments, letters of more than one byte, and a class that holds a slash. -/
theorem cut_at_first_glob_of_class :
    let path := "/é//ü[a/b]/*"
    hasGlob path = true ∧ splitPattern path = ("/é//", "ü[a/b]/*") ∧ baseSize (segments path.toList) = 5 ∧
      (∃ cut : path.Pos, cut.offset.byteIdx = 5 ∧ cut.Splits "/é//" "ü[a/b]/*") ∧
      firstSegment "ü[a/b]/*" = "ü[a" ∧ hasGlob "ü[a" = true ∧ EndsSegment "/é//" ∧
      "/é/".toList <+: "/é//".toList := by
  intro path
  have glob : hasGlob path = true := by decide +kernel
  have split : splitPattern path = ("/é//", "ü[a/b]/*") := by decide +kernel
  have size : baseSize (segments path.toList) = 5 := by decide +kernel
  have first : firstSegment "ü[a/b]/*" = "ü[a" := by decide +kernel
  have ⟨_, cut, _, found, _⟩ := cut_at_first_glob path
  have ⟨ends, starts, longest⟩ := found glob
  rw [split, size] at cut
  rw [split] at ends starts longest
  rw [first] at starts
  exact ⟨glob, split, size, cut, first, starts, ends,
    longest "/é/" (by decide +kernel) (.inr (by decide +kernel)) (by decide +kernel)⟩

end ArtifactGate.Glob
