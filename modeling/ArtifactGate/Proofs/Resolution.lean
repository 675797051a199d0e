import ArtifactGate.Proofs.Location

/-!
Texts and the locations they name. What is shown of a location is read back as that location, unless the sink's
name is spelled by a repository and a path; a location that is read of a text has no slash in its repository,
and an empty repository comes of two slashes before a path.
-/
namespace ArtifactGate.Location

/-- A text goes on below the sink when it starts with the sink's name and goes on with a slash, if it goes on. -/
theorem belowSink?_isSome {cs : List Char} :
    (belowSink? cs).isSome = true ↔
      ∃ rest, cs = "dev/null".toList ++ rest ∧ (rest = [] ∨ rest.head? = some '/') := by
  have dropped (rest : List Char) : ("dev/null".toList ++ rest).drop "dev/null".length = rest :=
    List.drop_left' rfl
  constructor
  · intro below
    rw [belowSink?] at below
    split at below
    · obtain ⟨rest, rfl⟩ := List.isPrefixOf_iff_prefix.1 ‹_›
      rw [dropped] at below
      refine ⟨rest, rfl, ?_⟩
      split at below
      · exact .inl rfl
      · exact .inr rfl
      · cases below
    · cases below
  · rintro ⟨rest, rfl, ends⟩
    rw [belowSink?, if_pos (List.isPrefixOf_iff_prefix.2 (List.prefix_append _ _)), dropped]
    rcases ends with rfl | slash
    · rfl
    · obtain ⟨more, rfl⟩ := List.head?_eq_some_iff.1 slash
      rfl

/-- What a text is without one slash before it. -/
def unslashed : List Char → List Char
  | '/' :: rest => rest
  | cs => cs

theorem unslashed_cons {c : Char} (other : c ≠ '/') (cs : List Char) : unslashed (c :: cs) = c :: cs := by
  rw [unslashed]
  rintro _ same
  exact other (List.cons.inj same).1

theorem unslashed_append {cs : List Char} (some : cs ≠ []) (rest : List Char) :
    unslashed (cs ++ rest) = unslashed cs ++ rest := by
  cases cs with
  | nil => exact absurd rfl some
  | cons c cs =>
      by_cases slash : c = '/'
      · subst slash
        rfl
      · rw [List.cons_append, unslashed_cons slash, unslashed_cons slash, List.cons_append]

theorem getLast?_unslashed {cs : List Char} (some : unslashed cs ≠ []) :
    (unslashed cs).getLast? = cs.getLast? := by
  cases cs with
  | nil => rfl
  | cons c cs =>
      by_cases slash : c = '/'
      · subst slash
        exact (List.getLast?_cons_of_ne_nil some).symm
      · rw [unslashed_cons slash]

theorem resolve_eq (text : String) :
    resolve text =
      match belowSink? (unslashed text.toList) with
      | some path => ⟨sinkRepository, String.ofList path⟩
      | none =>
        match Text.splitFirst '/' (unslashed text.toList) with
        | some (repository, path) => ⟨String.ofList repository, String.ofList path⟩
        | none => empty :=
  rfl

theorem isSink_resolve (text : String) : (resolve text).isSink = (belowSink? (unslashed text.toList)).isSome := by
  rw [resolve_eq]
  cases below : belowSink? (unslashed text.toList) with
  | some path => rfl
  | none =>
      cases split : Text.splitFirst '/' (unslashed text.toList) with
      | none => rfl
      | some parts =>
          apply beq_false_of_ne
          intro same
          have named : parts.1 = sinkRepository.toList := by
            rw [← same, String.toList_ofList]
          have free := (Text.eq_of_splitFirst split).2
          rw [named] at free
          exact free (by decide)

/-- The repository and the path together spell the name of the sink, alone or with a path after it. -/
def SpellsSink (location : Location) : Prop :=
  location.repository = "dev" ∧ (location.path = "null" ∨ "null/".toList <+: location.path.toList)

/-- The sink and what is in it, and what is in a repository whose name is one segment, unless its text is one
of the sink's. -/
def IsNamed (location : Location) : Prop :=
  location.repository = sinkRepository ∨ IsSegment location.repository ∧ ¬location.SpellsSink

section Display

variable {location : Location}

theorem toList_display (location : Location) :
    location.display.toList = location.repository.toList ++ '/' :: location.path.toList := by
  rw [display, String.toList_append, String.toList_append, List.append_assoc]
  rfl

theorem unslashed_display (segment : IsSegment location.repository) :
    unslashed location.display.toList = location.display.toList := by
  have some : location.repository.toList ≠ [] := by
    simpa using segment.1
  obtain ⟨c, rest, shape⟩ := List.exists_cons_of_ne_nil some
  have other : c ≠ '/' := fun slash => segment.2 (shape ▸ slash ▸ List.mem_cons_self)
  rw [toList_display, shape, List.cons_append, unslashed_cons other]

theorem belowSink?_display (free : '/' ∉ location.repository.toList) :
    (belowSink? location.display.toList).isSome = true ↔ location.SpellsSink := by
  have spelled : "dev/null".toList = "dev".toList ++ '/' :: "null".toList := rfl
  rw [belowSink?_isSome, toList_display, spelled]
  constructor
  · rintro ⟨rest, same, ends⟩
    rw [List.append_assoc, List.cons_append] at same
    have split := Text.splitFirst_append free location.path.toList
    rw [same, Text.splitFirst_append (by decide)] at split
    obtain ⟨repository, path⟩ := Prod.mk.inj (Option.some.inj split)
    refine ⟨String.toList_inj.1 repository.symm, ?_⟩
    rcases ends with rfl | slash
    · exact .inl (String.toList_inj.1 (path.symm.trans (List.append_nil _)))
    · obtain ⟨more, rfl⟩ := List.head?_eq_some_iff.1 slash
      exact .inr ⟨more, path⟩
  · rintro ⟨repository, path | ⟨more, path⟩⟩
    · exact ⟨[], by rw [repository, path, List.append_nil], .inl rfl⟩
    · exact ⟨'/' :: more, by rw [repository, ← path]; rfl, .inr rfl⟩

theorem resolve_of_display {text : String} (free : '/' ∉ location.repository.toList)
    (apart : ¬location.SpellsSink) (shown : unslashed text.toList = location.display.toList) :
    resolve text = location := by
  have outside : belowSink? location.display.toList = none := by
    rw [← Option.not_isSome_iff_eq_none]
    exact mt (belowSink?_display free).1 apart
  rw [resolve_eq, shown, outside, toList_display, Text.splitFirst_append free]
  simp only [String.ofList_toList]

theorem isSink_of_spellsSink {text : String} (free : '/' ∉ location.repository.toList)
    (spells : location.SpellsSink) (shown : unslashed text.toList = location.display.toList) :
    (resolve text).isSink = true := by
  rw [isSink_resolve, shown]
  exact (belowSink?_display free).2 spells

theorem resolve_of_below {text path : String} (below : belowSink? (unslashed text.toList) = some path.toList) :
    resolve text = ⟨sinkRepository, path⟩ := by
  rw [resolve_eq, below]
  simp only [String.ofList_toList]

/-- The sink is told by its name with a slash before it and without one. -/
theorem resolve_sink (path : String) :
    resolve ("/dev/null/" ++ path) = ⟨sinkRepository, path⟩ ∧
      resolve ("dev/null/" ++ path) = ⟨sinkRepository, path⟩ := by
  constructor
  all_goals
    apply resolve_of_below
    rw [String.toList_append]
    rfl

theorem resolve_display (named : location.IsNamed) : resolve location.display = location := by
  rcases named with sink | ⟨segment, apart⟩
  · obtain ⟨repository, path⟩ := location
    cases sink
    exact (resolve_sink path).1
  · exact resolve_of_display segment.2 apart (unslashed_display segment)

/-- What is shown of a location, with a slash before it or without, is read as that location just when the
repository and the path do not spell the sink; the sink is read of both of its names with any path. So no two of
these locations are shown alike. -/
theorem resolve_display_exact :
    (∀ repository path, IsSegment repository →
      ((resolve (repository ++ "/" ++ path) = ⟨repository, path⟩ ∧
          resolve ("/" ++ repository ++ "/" ++ path) = ⟨repository, path⟩) ↔
        ¬SpellsSink ⟨repository, path⟩)) ∧
      (∀ path, resolve ("/dev/null/" ++ path) = ⟨sinkRepository, path⟩ ∧
        resolve ("dev/null/" ++ path) = ⟨sinkRepository, path⟩) ∧
      ∀ first second, IsNamed first → IsNamed second → display first = display second → first = second := by
  refine ⟨fun repository path segment => ⟨fun reads spells => ?_, fun apart => ⟨?_, ?_⟩⟩, resolve_sink, ?_⟩
  · have sink := isSink_of_spellsSink segment.2 spells (unslashed_display segment)
    rw [display, reads.1] at sink
    have named : repository = sinkRepository := beq_iff_eq.1 sink
    exact segment.2 (named ▸ List.mem_cons_self)
  · exact @resolve_display ⟨repository, path⟩ (.inr ⟨segment, apart⟩)
  · refine resolve_of_display segment.2 apart ?_
    rw [String.append_assoc, String.append_assoc, String.toList_append, ← String.append_assoc]
    rfl
  · intro first second named otherNamed same
    rw [← resolve_display named, same, resolve_display otherNamed]

end Display

/-- The text begins with two slashes, and a path comes after them. -/
def Skips (text : String) : Prop :=
  ∃ path, path ≠ "" ∧ text = "//" ++ path

theorem eq_empty {location : Location} (unnamed : location.repository = "") (bare : location.path = "") :
    location = empty := by
  cases location
  cases unnamed
  cases bare
  rfl

section Reading

variable {text : String}

/-- Outside of the sink a text names what is shown as the text, but for one slash before it. -/
theorem unslashed_of_resolve (named : resolve text ≠ empty) (outside : (resolve text).isSink = false) :
    '/' ∉ (resolve text).repository.toList ∧ ¬(resolve text).SpellsSink ∧
      unslashed text.toList = (resolve text).display.toList := by
  have free := slash_not_mem_resolve outside
  have shown : unslashed text.toList = (resolve text).display.toList := by
    rw [resolve_eq] at named outside ⊢
    rcases below : belowSink? (unslashed text.toList) with _ | path <;> rw [below] at named outside
    · cases split : Text.splitFirst '/' (unslashed text.toList) with
      | none =>
          rw [split] at named
          exact absurd rfl named
      | some parts =>
          rw [toList_display, String.toList_ofList, String.toList_ofList]
          exact (Text.eq_of_splitFirst split).1
    · cases outside
  refine ⟨free, fun spells => ?_, shown⟩
  have sink := isSink_of_spellsSink free spells shown
  rw [outside] at sink
  cases sink

theorem resolve_skipping (path : String) : resolve ("//" ++ path) = ⟨"", path⟩ := by
  have other : "" ≠ "dev" := by decide
  refine @resolve_of_display ⟨"", path⟩ _ List.not_mem_nil (fun spells => other spells.1) ?_
  rw [String.toList_append, toList_display]
  rfl

theorem skips_of_unslashed {path : List Char} (slash : unslashed text.toList = '/' :: path) (some : path ≠ []) :
    Skips text := by
  refine ⟨String.ofList path, by simpa using some, ?_⟩
  rw [← String.toList_inj, String.toList_append, @String.toList_ofList path]
  cases whole : text.toList with
  | nil =>
      rw [whole] at slash
      cases slash
  | cons c rest =>
      rw [whole] at slash
      by_cases first : c = '/'
      · subst first
        exact congrArg _ slash
      · rw [unslashed_cons first] at slash
        exact absurd (List.cons.inj slash).1 first

/-- An empty repository comes of a text that begins with two slashes, and of no other. -/
theorem skips_iff : Skips text ↔ resolve text ≠ empty ∧ (resolve text).repository = "" := by
  constructor
  · rintro ⟨path, some, rfl⟩
    rw [resolve_skipping]
    exact ⟨fun none => some (congrArg Location.path none), rfl⟩
  · rintro ⟨named, unnamed⟩
    have outside : (resolve text).isSink = false := by
      rw [isSink, unnamed]
      decide
    obtain ⟨_, _, shown⟩ := unslashed_of_resolve named outside
    rw [toList_display, unnamed] at shown
    exact skips_of_unslashed shown fun none => named (eq_empty unnamed (String.toList_inj.1 none))

theorem skips_of_prefix {longer : String} (skips : Skips text) (begins : text.toList <+: longer.toList) :
    Skips longer := by
  obtain ⟨path, some, rfl⟩ := skips
  obtain ⟨rest, whole⟩ := begins
  rw [String.toList_append, List.append_assoc] at whole
  refine ⟨String.ofList (path.toList ++ rest), by simp [some], ?_⟩
  rw [← String.toList_inj, String.toList_append, @String.toList_ofList (path.toList ++ rest)]
  exact whole.symm

theorem isNamed_resolve (plain : ¬Skips text) (named : resolve text ≠ empty) : (resolve text).IsNamed := by
  cases sink : (resolve text).isSink with
  | true => exact .inl (beq_iff_eq.1 sink)
  | false =>
      obtain ⟨free, apart, _⟩ := unslashed_of_resolve named sink
      exact .inr ⟨⟨fun unnamed => plain (skips_iff.2 ⟨named, unnamed⟩), free⟩, apart⟩

/-- What is shown of a location with an empty repository is read as another. -/
theorem resolve_display_of_skips (skips : Skips text) : resolve (resolve text).display ≠ resolve text := by
  obtain ⟨path, some, rfl⟩ := skips
  rw [resolve_skipping]
  intro same
  have named : resolve (display ⟨"", path⟩) ≠ empty := by
    rw [same]
    exact fun none => some (congrArg Location.path none)
  have outside : (resolve (display ⟨"", path⟩)).isSink = false := by
    rw [same]
    rfl
  obtain ⟨_, _, shown⟩ := unslashed_of_resolve named outside
  have longer := congrArg List.length shown
  rw [same, toList_display] at longer
  change path.toList.length = path.toList.length + 1 at longer
  omega

end Reading

end ArtifactGate.Location
