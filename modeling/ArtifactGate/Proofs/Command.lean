import ArtifactGate.Command
import ArtifactGate.Proofs.Text.Words
import Mathlib.Data.List.Basic

/-!
Which lines are commands, and of which command. The words after the first are told apart by where they stand and
how they begin: options before the first `--`, and paths wherever else. A command is read of a line just when the
letters of the options and the paths are its own, so one that is written out in any arrangement of its letters is
read back.
-/
namespace ArtifactGate

def Direction.letter : Direction → Char
  | .source => 'f'
  | .sink => 't'

namespace Command

/-- What a command may ask for besides its direction. -/
inductive Flag
  | recursive
  | preserve
  | targetIsDirectory
  | verbose
  deriving DecidableEq, Repr, Inhabited

def Flag.all : List Flag := [.recursive, .preserve, .targetIsDirectory, .verbose]

def Flag.letter : Flag → Char
  | .recursive => 'r'
  | .preserve => 'p'
  | .targetIsDirectory => 'd'
  | .verbose => 'v'

def has (command : Command) : Flag → Bool
  | .recursive => command.recursive
  | .preserve => command.preserve
  | .targetIsDirectory => command.targetIsDirectory
  | .verbose => command.verbose

section Arguments

variable {arguments : List String}

def beforeMark (arguments : List String) : List String :=
  arguments.takeWhile fun argument => argument != "--"

def afterMark (arguments : List String) : List String :=
  (arguments.dropWhile fun argument => argument != "--").tail

/-- Before the first `--`, what begins with a dash and is more than that. -/
def options (arguments : List String) : List String :=
  (beforeMark arguments).filter isOption

/-- All but the options and the first `--`. -/
def operands (arguments : List String) : List String :=
  ((beforeMark arguments).filter fun argument => !isOption argument) ++ afterMark arguments

/-- One of the options holds the letter. -/
def Given (arguments : List String) (letter : Char) : Prop :=
  ∃ option ∈ options arguments, letter ∈ option.toList

instance (arguments : List String) : DecidablePred (Given arguments) := fun letter =>
  inferInstanceAs (Decidable (∃ option ∈ options arguments, letter ∈ option.toList))

def isMode (letter : Char) : Bool :=
  letter == 't' || letter == 'f'

/-- The last letter in the options that tells the direction. -/
def lastMode? (arguments : List String) : Option Char :=
  (((options arguments).flatMap String.toList).filter isMode).getLast?

theorem sortArguments_eq (arguments : List String) :
    sortArguments arguments = (options arguments, operands arguments) := by
  induction arguments with
  | nil => rfl
  | cons argument rest ih =>
      rw [sortArguments, options, operands, beforeMark, afterMark]
      cases mark : argument == "--" with
      | true =>
          rw [List.takeWhile_cons_of_neg (by simp [bne, mark]), List.dropWhile_cons_of_neg (by simp [bne, mark])]
          rfl
      | false =>
          rw [List.takeWhile_cons_of_pos (by simp [bne, mark]), List.dropWhile_cons_of_pos (by simp [bne, mark]), ih]
          cases option : isOption argument <;>
            simp only [List.filter_cons, option, Bool.not_true, Bool.not_false, Bool.false_eq_true, if_true, if_false,
              List.cons_append] <;> rfl

theorem toList_of_isOption {argument : String} (option : isOption argument = true) :
    argument.toList = '-' :: argument.toList.drop 1 := by
  rw [isOption, Bool.and_eq_true, beq_iff_eq] at option
  obtain ⟨rest, whole⟩ := List.head?_eq_some_iff.1 option.1
  rw [whole, List.drop_one, List.tail_cons]

theorem isOption_of_mem {option : String} (member : option ∈ options arguments) : isOption option = true :=
  (List.mem_filter.1 member).2

/-- Without their dashes the options hold the letters that they hold with them. -/
theorem mem_flags {letter : Char} (other : letter ≠ '-') :
    letter ∈ flags (options arguments) ↔ Given arguments letter := by
  rw [flags, List.mem_flatMap, Given]
  refine exists_congr fun option => and_congr_right fun member => ?_
  conv_rhs => rw [toList_of_isOption (isOption_of_mem member)]
  exact (List.mem_cons.trans (or_iff_right other)).symm

theorem filter_flags : (flags (options arguments)).filter isMode =
    ((options arguments).flatMap String.toList).filter isMode := by
  rw [flags, List.filter_flatMap, List.filter_flatMap]
  apply List.flatMap_congr
  intro option member
  conv_rhs => rw [toList_of_isOption (isOption_of_mem member)]
  rfl

theorem flagDirection?_eq_some {letter : Char} {direction : Direction} :
    flagDirection? letter = some direction ↔ letter = direction.letter := by
  constructor
  · intro read
    unfold flagDirection? at read
    split at read <;> cases read <;> rfl
  · rintro rfl
    cases direction <;> rfl

theorem isMode_iff {letter : Char} : isMode letter = true ↔ ∃ direction, flagDirection? letter = some direction := by
  simp only [isMode, Bool.or_eq_true, beq_iff_eq, flagDirection?_eq_some]
  constructor
  · rintro (rfl | rfl)
    · exact ⟨.sink, rfl⟩
    · exact ⟨.source, rfl⟩
  · rintro ⟨direction, rfl⟩
    cases direction
    · exact .inr rfl
    · exact .inl rfl

theorem direction?_eq_some {letters : List Char} {direction : Direction} :
    direction? letters = some direction ↔ (letters.filter isMode).getLast? = some direction.letter := by
  rw [direction?, List.getLast?_eq_head?_reverse, ← List.filter_reverse, List.head?_filter]
  induction letters.reverse with
  | nil => exact ⟨nofun, nofun⟩
  | cons letter rest ih =>
      rw [List.findSome?_cons, List.find?_cons]
      cases read : flagDirection? letter with
      | none =>
          have other : isMode letter = false := Bool.eq_false_iff.2 fun mode => by
            obtain ⟨_, found⟩ := isMode_iff.1 mode
            rw [read] at found
            cases found
          rw [other]
          exact ih
      | some found =>
          rw [isMode_iff.2 ⟨found, read⟩, Option.some_inj, Option.some_inj, ← flagDirection?_eq_some, read,
            Option.some_inj]

/-- What the arguments have to be for the command to be read of them. -/
structure Describes (arguments : List String) (command : Command) : Prop where
  direction : lastMode? arguments = some command.direction.letter
  flags : ∀ flag, command.has flag = true ↔ Given arguments flag.letter
  paths : command.paths = operands arguments
  some : operands arguments ≠ []
  alone : command.direction = .sink → (operands arguments).length = 1

theorem direction?_flags {direction : Direction} :
    direction? (flags (options arguments)) = some direction ↔ lastMode? arguments = some direction.letter := by
  rw [direction?_eq_some, filter_flags, lastMode?]

theorem allowsPaths_iff {direction : Direction} {paths : List String} (some : paths ≠ []) :
    (direction == .sink && decide (paths.length > 1)) = false ↔ (direction = .sink → paths.length = 1) := by
  have present := List.length_pos_iff.2 some
  cases direction
  · simp
  · simp
    omega

/-- The command in this direction with the letters and the paths that are given. -/
def gather (direction : Direction) (arguments : List String) : Command where
  direction
  recursive := (flags (options arguments)).contains 'r'
  preserve := (flags (options arguments)).contains 'p'
  targetIsDirectory := (flags (options arguments)).contains 'd'
  verbose := (flags (options arguments)).contains 'v'
  paths := operands arguments

theorem has_gather {direction : Direction} (flag : Flag) :
    (gather direction arguments).has flag = true ↔ Given arguments flag.letter := by
  have other : flag.letter ≠ '-' := by cases flag <;> decide
  have held : (gather direction arguments).has flag = (flags (options arguments)).contains flag.letter := by
    cases flag <;> rfl
  rw [held, List.contains_iff_mem, mem_flags other]

theorem eq_of_has {first second : Command} (direction : first.direction = second.direction)
    (flags : ∀ flag, first.has flag = second.has flag) (paths : first.paths = second.paths) : first = second := by
  cases first
  cases second
  cases direction
  cases paths
  cases flags .recursive
  cases flags .preserve
  cases flags .targetIsDirectory
  cases flags .verbose
  rfl

theorem Describes.eq_gather {command : Command} (describes : Describes arguments command) :
    command = gather command.direction arguments :=
  eq_of_has rfl (fun flag => Bool.eq_iff_iff.2 ((describes.flags flag).trans (has_gather flag).symm)) describes.paths

theorem ofArguments_eq_ok {command : Command} :
    ofArguments arguments = .ok command ↔ Describes arguments command := by
  rw [ofArguments, sortArguments_eq]
  dsimp only
  constructor
  · intro read
    split at read
    · cases read
    · rename_i direction found
      split at read
      · cases read
      · rename_i some
        split at read
        · cases read
        · rename_i alone
          have some : operands arguments ≠ [] := by simpa using some
          cases read
          exact ⟨direction?_flags.1 found, fun flag => has_gather flag, rfl, some,
            (allowsPaths_iff some).1 (Bool.eq_false_iff.2 alone)⟩
  · intro describes
    have some : ¬(operands arguments).isEmpty = true := by simpa using describes.some
    have alone := (allowsPaths_iff describes.some).2 describes.alone
    rw [direction?_flags.2 describes.direction]
    dsimp only
    rw [if_neg some, alone, describes.eq_gather]
    rfl

theorem exists_describes : (∃ command, Describes arguments command) ↔
    (∃ letter ∈ ['t', 'f'], Given arguments letter) ∧ operands arguments ≠ [] ∧
      (lastMode? arguments = some 't' → (operands arguments).length = 1) := by
  constructor
  · rintro ⟨command, describes⟩
    refine ⟨⟨command.direction.letter, by cases command.direction <;> decide, ?_⟩, describes.some, fun sink => ?_⟩
    · exact List.mem_flatMap.1 (List.mem_filter.1 (List.mem_of_getLast? describes.direction)).1
    · have found := flagDirection?_eq_some.2 (Option.some.inj (sink.symm.trans describes.direction))
      exact describes.alone (Option.some.inj found).symm
  · rintro ⟨⟨letter, mode, option, among, held⟩, some, alone⟩
    have mode : isMode letter = true := by
      simpa [isMode] using mode
    have member : letter ∈ ((options arguments).flatMap String.toList).filter isMode :=
      List.mem_filter.2 ⟨List.mem_flatMap.2 ⟨option, among, held⟩, mode⟩
    obtain ⟨last, ends⟩ : ∃ last, lastMode? arguments = Option.some last :=
      ⟨_, List.getLast?_eq_some_getLast (List.ne_nil_of_mem member)⟩
    obtain ⟨direction, found⟩ := isMode_iff.1 (List.mem_filter.1 (List.mem_of_getLast? ends)).2
    obtain rfl := flagDirection?_eq_some.1 found
    refine ⟨gather direction arguments, ends, has_gather, rfl, some, fun sink => alone ?_⟩
    cases sink
    exact ends

end Arguments

theorem parse_eq_ok {line : String} {command : Command} :
    parse line = .ok command ↔
      ∃ arguments, Text.Worded line.toList ("scp" :: arguments) ∧ Describes arguments command := by
  simp only [← Text.words_eq_iff, parse]
  cases Text.words line with
  | nil => exact ⟨nofun, nofun⟩
  | cons program arguments =>
      by_cases named : program = "scp"
      · subst named
        dsimp only
        rw [if_pos (beq_self_eq_true _), ofArguments_eq_ok]
        constructor
        · intro describes
          exact ⟨arguments, rfl, describes⟩
        · rintro ⟨_, ⟨⟩, describes⟩
          exact describes
      · dsimp only
        rw [if_neg (by simpa using named)]
        constructor
        · intro refused
          cases refused
        · rintro ⟨_, ⟨⟩, _⟩
          exact absurd rfl named

section Rendering

variable {command : Command} {groups : List (List Char)} {paths : List String}

/-- The letters that ask for all that the command asks for. -/
def letters (command : Command) : List Char :=
  command.direction.letter :: (Flag.all.filter command.has).map Flag.letter

def spellOption (group : List Char) : String :=
  String.ofList ('-' :: group)

/-- Options with the letters of each group, and the paths after the mark. -/
def render (groups : List (List Char)) (paths : List String) : List String :=
  groups.map spellOption ++ "--" :: paths

theorem toList_spellOption (group : List Char) : (spellOption group).toList = '-' :: group :=
  String.toList_ofList

theorem spellOption_eq_iff {group : List Char} {text : String} :
    spellOption group = text ↔ '-' :: group = text.toList := by
  rw [← String.toList_inj, toList_spellOption]

theorem isOption_spellOption {group : List Char} (some : group ≠ []) : isOption (spellOption group) = true := by
  have longer : spellOption group ≠ "-" := fun same => some (List.cons.inj (spellOption_eq_iff.1 same)).2
  rw [isOption, Bool.and_eq_true, toList_spellOption, bne_iff_ne]
  exact ⟨rfl, longer⟩

theorem spellOption_ne_mark {group : List Char} (dashless : '-' ∉ group) : spellOption group ≠ "--" := by
  intro same
  have rest : group = ['-'] := (List.cons.inj (spellOption_eq_iff.1 same)).2
  exact dashless (rest ▸ List.mem_singleton_self _)

section Grouped

variable (some : ∀ group ∈ groups, group ≠ []) (dashless : '-' ∉ groups.flatten)

include dashless in
theorem ne_mark_of_mem : ∀ option ∈ groups.map spellOption, (option != "--") = true :=
  List.forall_mem_map.2 fun _ among =>
    bne_iff_ne.2 (spellOption_ne_mark fun member => dashless (List.mem_flatten_of_mem among member))

include dashless in
theorem beforeMark_render : beforeMark (render groups paths) = groups.map spellOption := by
  rw [beforeMark, render, List.takeWhile_append_of_pos (ne_mark_of_mem dashless),
    List.takeWhile_cons_of_neg (by decide), List.append_nil]

include dashless in
theorem afterMark_render : afterMark (render groups paths) = paths := by
  rw [afterMark, render, List.dropWhile_append_of_pos (ne_mark_of_mem dashless),
    List.dropWhile_cons_of_neg (by decide), List.tail_cons]

include some dashless in
theorem options_render : options (render groups paths) = groups.map spellOption := by
  rw [options, beforeMark_render dashless, List.filter_eq_self]
  exact List.forall_mem_map.2 fun group among => isOption_spellOption (some group among)

include some dashless in
theorem operands_render : operands (render groups paths) = paths := by
  have none : ((groups.map spellOption).filter fun option => !isOption option) = [] := by
    rw [List.filter_eq_nil_iff]
    exact List.forall_mem_map.2 fun group among => by simp [isOption_spellOption (some group among)]
  rw [operands, beforeMark_render dashless, afterMark_render dashless, none, List.nil_append]

include some dashless in
theorem given_render {letter : Char} (other : letter ≠ '-') :
    Given (render groups paths) letter ↔ letter ∈ groups.flatten := by
  rw [Given, options_render some dashless, List.mem_flatten]
  constructor
  · rintro ⟨_, spelled, held⟩
    obtain ⟨group, among, rfl⟩ := List.mem_map.1 spelled
    rw [toList_spellOption] at held
    exact ⟨group, among, (List.mem_cons.1 held).resolve_left other⟩
  · rintro ⟨group, among, held⟩
    refine ⟨spellOption group, List.mem_map_of_mem among, ?_⟩
    rw [toList_spellOption]
    exact List.mem_cons_of_mem _ held

include some dashless in
theorem lastMode?_render : lastMode? (render groups paths) = (groups.flatten.filter isMode).getLast? := by
  have letters (groups : List (List Char)) :
      ((groups.map spellOption).flatMap String.toList).filter isMode = groups.flatten.filter isMode := by
    induction groups with
    | nil => rfl
    | cons group groups ih =>
        rw [List.map_cons, List.flatMap_cons, List.filter_append, ih, toList_spellOption, List.flatten_cons,
          List.filter_append]
        rfl
  rw [lastMode?, options_render some dashless, letters]

end Grouped

theorem letter_injective : Function.Injective Flag.letter := by
  intro first second
  cases first <;> cases second <;> decide

theorem mem_letters (flag : Flag) : flag.letter ∈ command.letters ↔ command.has flag = true := by
  have apart : flag.letter ≠ command.direction.letter := by
    cases flag <;> cases command.direction <;> decide
  have all : flag ∈ Flag.all := by cases flag <;> decide
  rw [letters, List.mem_cons, or_iff_right apart, List.mem_map_of_injective letter_injective, List.mem_filter,
    and_iff_right all]

theorem filter_letters (command : Command) : command.letters.filter isMode = [command.direction.letter] := by
  have mode : isMode command.direction.letter = true := by cases command.direction <;> decide
  rw [letters, List.filter_cons_of_pos mode, List.filter_eq_nil_iff.2]
  intro letter among
  obtain ⟨flag, _, rfl⟩ := List.mem_map.1 among
  cases flag <;> decide

/-- The letters stand in a word behind its dash. -/
theorem letters_plain (command : Command) : ∀ letter ∈ command.letters, letter ≠ '-' ∧ Text.isBlank letter = false := by
  rw [letters, List.forall_mem_cons, List.forall_mem_map]
  constructor
  · cases command.direction <;> decide
  · intro flag _
    cases flag <;> decide

/-- Whatever stands together and in whatever order, the command is told by its letters and its paths, if it has as
many paths as its direction wants. -/
theorem describes_render (some : ∀ group ∈ groups, group ≠ []) (arranged : groups.flatten.Perm command.letters) :
    Describes (render groups command.paths) command ↔
      command.paths ≠ [] ∧ (command.direction = .sink → command.paths.length = 1) := by
  have dashless : '-' ∉ groups.flatten := fun member =>
    (letters_plain command '-' (arranged.mem_iff.1 member)).1 rfl
  have paths : operands (render groups command.paths) = command.paths := operands_render some dashless
  constructor
  · intro describes
    exact ⟨paths ▸ describes.some, paths ▸ describes.alone⟩
  · rintro ⟨present, alone⟩
    refine ⟨?_, fun flag => ?_, paths.symm, paths.symm ▸ present, paths.symm ▸ alone⟩
    · have modes := arranged.filter isMode
      rw [filter_letters, List.perm_singleton] at modes
      rw [lastMode?_render some dashless, modes]
      rfl
    · have other : flag.letter ≠ '-' := by cases flag <;> decide
      rw [given_render some dashless other, arranged.mem_iff, mem_letters]

theorem isWord_render (arranged : groups.flatten.Perm command.letters)
    (isWord : ∀ path ∈ paths, Text.IsWord path) : ∀ word ∈ "scp" :: render groups paths, Text.IsWord word := by
  have inner (letter : Char) (member : letter ∈ groups.flatten) : Text.isBlank letter = false :=
    (letters_plain command letter (arranged.mem_iff.1 member)).2
  have isWord_option (group : List Char) (among : group ∈ groups) : Text.IsWord (spellOption group) := by
    rw [Text.IsWord, toList_spellOption]
    constructor
    · intro none
      cases spellOption_eq_iff.1 none
    · refine List.forall_mem_cons.2 ⟨by decide, fun letter member => ?_⟩
      exact inner letter (List.mem_flatten_of_mem among member)
  have operands := List.forall_mem_cons.2 ⟨(by decide : Text.IsWord "--"), isWord⟩
  exact List.forall_mem_cons.2 ⟨by decide, List.forall_mem_append.2 ⟨List.forall_mem_map.2 isWord_option, operands⟩⟩

end Rendering

/-- A line is read as a command just when it is made of words as they describe that command, and it is read as some
command just when its options hold a direction and it names as many paths as the last direction wants. A command whose
paths are words is read back from its letters in any arrangement, if it has that many paths. -/
theorem parse_exact :
    (∀ line command, parse line = .ok command ↔
      ∃ arguments, Text.Worded line.toList ("scp" :: arguments) ∧ Describes arguments command) ∧
    (∀ line, (∃ command, parse line = .ok command) ↔
      ∃ arguments, Text.Worded line.toList ("scp" :: arguments) ∧
        (∃ letter ∈ ['t', 'f'], Given arguments letter) ∧ operands arguments ≠ [] ∧
        (lastMode? arguments = some 't' → (operands arguments).length = 1)) ∧
    ∀ (command : Command) (groups : List (List Char)), (∀ path ∈ command.paths, Text.IsWord path) →
      (∀ group ∈ groups, group ≠ []) → groups.flatten.Perm command.letters →
      (parse (" ".intercalate ("scp" :: render groups command.paths)) = .ok command ↔
        command.paths ≠ [] ∧ (command.direction = .sink → command.paths.length = 1)) := by
  refine ⟨fun line command => parse_eq_ok, fun line => ?_, fun command groups isWord some arranged => ?_⟩
  · simp only [parse_eq_ok, ← exists_describes]
    exact ⟨fun ⟨command, arguments, worded, describes⟩ => ⟨arguments, worded, command, describes⟩,
      fun ⟨arguments, worded, command, describes⟩ => ⟨command, arguments, worded, describes⟩⟩
  · have worded := Text.worded_intercalate (isWord_render arranged isWord)
    rw [parse_eq_ok, ← describes_render some arranged]
    refine ⟨fun ⟨arguments, other, describes⟩ => ?_, fun describes => ⟨_, worded, describes⟩⟩
    have same := (Text.words_eq_iff.2 other).symm.trans (Text.words_eq_iff.2 worded)
    exact (List.cons.inj same).2 ▸ describes

/-- Options and paths in turn, both directions, a letter that asks for nothing, and dashes among the paths. -/
theorem parse_exact_of_mixed_words :
    let line := "scp -tq a\t-rf - -- -p --"
    let arguments := ["-tq", "a", "-rf", "-", "--", "-p", "--"]
    let command : Command := ⟨.source, true, false, false, false, ["a", "-", "-p", "--"]⟩
    let groups := [['r'], ['f']]
    Text.Worded line.toList ("scp" :: arguments) ∧ Describes arguments command ∧ parse line = .ok command ∧
      (∀ path ∈ command.paths, Text.IsWord path) ∧ (∀ group ∈ groups, group ≠ []) ∧
      groups.flatten.Perm command.letters ∧ parse "scp -r -f -- a - -p --" = .ok command := by
  intro line arguments command groups
  have worded : Text.Worded line.toList ("scp" :: arguments) := Text.words_eq_iff.1 (by decide +kernel)
  have describes : Describes arguments command := by
    refine ⟨by decide +kernel, fun flag => ?_, by decide +kernel, by decide +kernel, nofun⟩
    cases flag <;> decide +kernel
  have isWord : ∀ path ∈ command.paths, Text.IsWord path := by decide +kernel
  have some : ∀ group ∈ groups, group ≠ [] := by decide
  have arranged : groups.flatten.Perm command.letters := by decide
  exact ⟨worded, describes, (parse_exact.1 line command).2 ⟨arguments, worded, describes⟩, isWord, some, arranged,
    (parse_exact.2.2 command groups isWord some arranged).2 ⟨by decide, nofun⟩⟩

/-- The letters of a longer option count one by one. -/
example : parse "scp --format a" = .ok ⟨.sink, true, false, false, false, ["a"]⟩ := by
  decide +kernel

end Command

end ArtifactGate
