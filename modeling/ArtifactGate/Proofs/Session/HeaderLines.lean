import Mathlib.Data.List.Infix
import ArtifactGate.Proofs.Session.Outline
import ArtifactGate.Proofs.Session.Receipts

/-!
The header lines among a client's bytes, and the times that hold for a file: those of the last `T` line in the
file's directory, unless a file or a directory was announced there after it. Such a line is of the file's own
directory, and its times hold for no second file.
-/
namespace ArtifactGate

/-- A header line among a client's bytes. -/
structure HeaderLine where
  /-- The bytes up to the end of the line. -/
  upTo : List UInt8
  kind : LineKind
  text : String
  /-- The directories that were open when the line came, the innermost first. -/
  opened : List String
  deriving DecidableEq, Repr, Inhabited

/-- The line that a byte ends. -/
def Outline.line? (outline : Outline) (byte : UInt8) : Option (LineKind × String) :=
  match outline.phase with
  | .line kind line =>
    match line.push byte with
    | .done (.ok text) => some (kind, text)
    | _ => none
  | _ => none

namespace HeaderLine

def depth (line : HeaderLine) : Nat :=
  line.opened.length

def times? (line : HeaderLine) : Option Wire.Timestamps :=
  (Wire.Timestamps.parse ("T" ++ line.text)).toOption

/-- The header line that some bytes end with. -/
def ending? (taken : List UInt8) : Option HeaderLine :=
  let outline := Outline.ofBytes taken.dropLast
  (taken.getLast?.bind outline.line?).map fun (kind, text) => { upTo := taken, kind, text, opened := outline.opened }

end HeaderLine

def headerLines (bytes : List UInt8) : List HeaderLine :=
  bytes.inits.filterMap HeaderLine.ending?

/-- The line whose times hold for a file at a depth when these lines have come, the latest first: the last `T` line of
the depth, if since then no file or directory was announced there and the directory was not left. -/
def timesFor? (depth : Nat) : List HeaderLine → Option HeaderLine
  | [] => none
  | line :: earlier =>
    -- after a line of an outer directory, the one of this depth is another one
    if line.depth < depth then none
    else if depth < line.depth then timesFor? depth earlier
    else
      match line.kind with
      | .times => some line
      | .file | .directory => none
      | .leave | .warning | .error => timesFor? depth earlier

section Times

variable {depth : Nat} {last : HeaderLine} {earlier : List HeaderLine}

theorem timesFor?_of_outer (outer : last.depth < depth) : timesFor? depth (last :: earlier) = none :=
  if_pos outer

theorem timesFor?_of_inner (inner : depth < last.depth) :
    timesFor? depth (last :: earlier) = timesFor? depth earlier := by
  rw [timesFor?, if_neg (Nat.not_lt_of_lt inner), if_pos inner]

theorem timesFor?_of_here (here : last.depth = depth) :
    timesFor? depth (last :: earlier) =
      match last.kind with
      | .times => some last
      | .file | .directory => none
      | .leave | .warning | .error => timesFor? depth earlier := by
  rw [timesFor?, if_neg (Nat.not_lt_of_le (Nat.le_of_eq here.symm)), if_neg (Nat.not_lt_of_le (Nat.le_of_eq here))]

end Times

/-- The times are those of the last line, or those that the lines before it leave if it lets them be. -/
theorem timesFor?_cons {depth : Nat} {last line : HeaderLine} {earlier : List HeaderLine}
    (found : timesFor? depth (last :: earlier) = some line) :
    last.depth = depth ∧ last = line ∨
      depth ≤ last.depth ∧ (last.kind = .file ∨ last.kind = .directory → last.depth ≠ depth) ∧
        timesFor? depth earlier = some line := by
  rcases Nat.lt_trichotomy last.depth depth with outer | here | inner
  · rw [timesFor?_of_outer outer] at found
    cases found
  · rw [timesFor?_of_here here] at found
    split at found <;> rename_i kind
    · exact .inl ⟨here, Option.some.inj found⟩
    · cases found
    · cases found
    all_goals
      refine .inr ⟨Nat.le_of_eq here.symm, ?_, found⟩
      rw [kind]
      rintro (other | other) <;> cases other
  · rw [timesFor?_of_inner inner] at found
    exact .inr ⟨Nat.le_of_lt inner, fun _ => Nat.ne_of_gt inner, found⟩

section Lines

variable {taken bytes : List UInt8} {byte : UInt8} {line : HeaderLine}

theorem HeaderLine.ending?_append_singleton (taken : List UInt8) (byte : UInt8) :
    ending? (taken ++ [byte]) = ((Outline.ofBytes taken).line? byte).map fun (kind, text) =>
      ⟨taken ++ [byte], kind, text, (Outline.ofBytes taken).opened⟩ := by
  rw [ending?, List.dropLast_concat, List.getLast?_concat]
  rfl

theorem HeaderLine.upTo_of_ending? (ends : ending? taken = some line) : line.upTo = taken := by
  obtain ⟨_, _, rfl⟩ := Option.map_eq_some_iff.1 ends
  rfl

theorem headerLines_append_singleton (taken : List UInt8) (byte : UInt8) :
    headerLines (taken ++ [byte]) = headerLines taken ++ (HeaderLine.ending? (taken ++ [byte])).toList := by
  rw [headerLines, List.inits_append, List.filterMap_append]
  rfl

theorem headerLines_append_of_line? {kind : LineKind} {text : String}
    (ends : (Outline.ofBytes taken).line? byte = some (kind, text)) :
    (headerLines (taken ++ [byte])).reverse =
      ⟨taken ++ [byte], kind, text, (Outline.ofBytes taken).opened⟩ :: (headerLines taken).reverse := by
  rw [headerLines_append_singleton, HeaderLine.ending?_append_singleton, ends, List.reverse_append]
  rfl

theorem headerLines_append_of_none (ends : (Outline.ofBytes taken).line? byte = none) :
    headerLines (taken ++ [byte]) = headerLines taken := by
  rw [headerLines_append_singleton, HeaderLine.ending?_append_singleton, ends]
  exact List.append_nil _

theorem mem_headerLines :
    line ∈ headerLines bytes ↔ line.upTo <+: bytes ∧ HeaderLine.ending? line.upTo = some line := by
  rw [headerLines, List.mem_filterMap]
  constructor
  · rintro ⟨taken, within, ends⟩
    rw [HeaderLine.upTo_of_ending? ends]
    exact ⟨(List.mem_inits _ _).1 within, ends⟩
  · exact fun ⟨within, ends⟩ => ⟨line.upTo, (List.mem_inits _ _).2 within, ends⟩

theorem Outline.push_of_line? {outline : Outline} {kind : LineKind} {text : String}
    (ends : outline.line? byte = some (kind, text)) : outline.push byte = outline.onLine kind text := by
  rw [line?] at ends
  split at ends <;> rename_i phase
  · split at ends <;> rename_i pushed
    · cases ends
      simp only [push, phase, pushed]
    · cases ends
  · cases ends

/-- Only a header line opens a directory or leaves one. -/
theorem Outline.opened_push {outline : Outline} (goesOn : outline.line? byte = none) :
    (outline.push byte).opened = outline.opened := by
  obtain ⟨opened, file, phase⟩ := outline
  cases phase with
  | control =>
      rw [push]
      cases Receiver.lineKind? byte <;> rfl
  | line kind line =>
      rw [line?] at goesOn
      simp only [push]
      cases pushed : line.push byte with
      | more next => rfl
      | done result =>
          cases result with
          | error fault => rfl
          | ok text =>
              simp only [pushed] at goesOn
              cases goesOn
  | body remaining => rfl
  | lastWord state =>
      simp only [push]
      cases state.push byte with
      | more next => rfl
      | done result => cases result <;> rfl
  | stopped => rfl

/-- A header line opens a directory, leaves one, or lets them be. -/
theorem Outline.opened_onLine (outline : Outline) (kind : LineKind) (text : String) :
    (outline.onLine kind text).opened = outline.opened ∨
      (∃ name, (outline.onLine kind text).opened = name :: outline.opened) ∨
      (outline.onLine kind text).opened = outline.opened.tail := by
  cases kind with
  | times =>
      rw [onLine]
      cases Wire.Timestamps.parse ("T" ++ text) <;> exact .inl rfl
  | file =>
      rw [onLine]
      cases Wire.Header.parse ("C" ++ text) <;> exact .inl rfl
  | directory =>
      rw [onLine]
      cases Wire.Header.parse ("D" ++ text) with
      | error fault => exact .inl rfl
      | ok header => exact .inr (.inl ⟨header.name, rfl⟩)
  | leave =>
      obtain ⟨opened, file, phase⟩ := outline
      cases opened with
      | nil => exact .inl rfl
      | cons name opened => exact .inr (.inr rfl)
  | _ => exact .inl rfl

/-- Directories that are open stay open as long as there are no fewer. -/
theorem Outline.suffix_onLine {outline : Outline} {opened : List String} {kind : LineKind} {text : String}
    (within : opened <:+ outline.opened) (few : opened.length ≤ (outline.onLine kind text).opened.length) :
    opened <:+ (outline.onLine kind text).opened := by
  rcases outline.opened_onLine kind text with same | ⟨name, inner⟩ | left
  · rwa [same]
  · rw [inner]
    exact within.trans (List.suffix_cons _ _)
  · rw [left] at few ⊢
    exact List.suffix_of_suffix_length_le within (List.tail_suffix _) few

theorem Outline.suffix_append_singleton {opened : List String} (within : opened <:+ (ofBytes taken).opened)
    (few : opened.length ≤ (ofBytes (taken ++ [byte])).opened.length) :
    opened <:+ (ofBytes (taken ++ [byte])).opened := by
  rw [ofBytes_append_singleton] at few ⊢
  cases ends : (ofBytes taken).line? byte with
  | none => rwa [opened_push ends]
  | some line =>
      rw [push_of_line? ends] at few ⊢
      exact suffix_onLine within few

/-- What is so of a line whose times hold for a file when some bytes have come: since the line its directory was not
left, and neither a file nor a directory was announced there. -/
structure HeaderLine.Holds (taken : List UInt8) (line : HeaderLine) : Prop where
  came : line ∈ headerLines taken
  opened : line.opened <:+ (Outline.ofBytes taken).opened
  since : ∀ other ∈ headerLines taken, line.upTo.length < other.upTo.length → line.opened <:+ other.opened ∧
    (other.kind = .file ∨ other.kind = .directory → other.opened ≠ line.opened)

theorem HeaderLine.line?_of_ending? (ends : ending? (taken ++ [byte]) = some line) :
    (Outline.ofBytes taken).line? byte = some (line.kind, line.text) ∧
      line.opened = (Outline.ofBytes taken).opened := by
  rw [ending?_append_singleton] at ends
  obtain ⟨⟨kind, text⟩, found, rfl⟩ := Option.map_eq_some_iff.1 ends
  exact ⟨found, rfl⟩

theorem HeaderLine.Holds.further (holds : line.Holds taken)
    (few : line.depth ≤ (Outline.ofBytes (taken ++ [byte])).opened.length)
    (ends : ∀ last, ending? (taken ++ [byte]) = some last →
      last.kind = .file ∨ last.kind = .directory → last.opened ≠ line.opened) :
    line.Holds (taken ++ [byte]) := by
  refine ⟨?_, Outline.suffix_append_singleton holds.opened few, ?_⟩
  · rw [headerLines_append_singleton]
    exact List.mem_append_left _ holds.came
  · intro other came later
    rw [headerLines_append_singleton, List.mem_append, Option.mem_toList] at came
    rcases came with came | last
    · exact holds.since other came later
    · exact ⟨(line?_of_ending? last).2 ▸ holds.opened, ends other last⟩

theorem HeaderLine.holds_of_ending? (ends : ending? (taken ++ [byte]) = some line)
    (few : line.depth ≤ (Outline.ofBytes (taken ++ [byte])).opened.length) : line.Holds (taken ++ [byte]) := by
  refine ⟨?_, ?_, fun other came later => ?_⟩
  · rw [headerLines_append_singleton, ends]
    exact List.mem_append_right _ (List.mem_singleton_self _)
  · exact Outline.suffix_append_singleton ((line?_of_ending? ends).2 ▸ List.suffix_refl _) few
  · have within := (mem_headerLines.1 came).1.length_le
    rw [← upTo_of_ending? ends] at within
    exact absurd later (Nat.not_lt.2 within)

/-- The times that hold for a file at an open depth are those of a line that holds. -/
theorem holds_of_timesFor? {depth : Nat} (few : depth ≤ (Outline.ofBytes taken).opened.length)
    (found : timesFor? depth (headerLines taken).reverse = some line) : line.depth = depth ∧ line.Holds taken := by
  induction taken using List.reverseRecOn with
  | nil => cases found
  | append_singleton taken byte ih =>
      rw [headerLines_append_singleton, List.reverse_append] at found
      cases ends : HeaderLine.ending? (taken ++ [byte]) with
      | none =>
          -- the directories and the lines are as before
          rw [ends] at found
          have same : (Outline.ofBytes taken).line? byte = none := by
            rwa [HeaderLine.ending?_append_singleton, Option.map_eq_none_iff] at ends
          have before := few
          rw [Outline.ofBytes_append_singleton, Outline.opened_push same] at before
          obtain ⟨rfl, holds⟩ := ih before found
          refine ⟨rfl, holds.further few ?_⟩
          rw [ends]
          exact fun _ absent => absurd absent (Option.some_ne_none _).symm
      | some last =>
          -- the last line is the one, or it lets the one before it be
          rw [ends, Option.toList_some, List.reverse_singleton, List.singleton_append] at found
          rcases timesFor?_cons found with ⟨here, rfl⟩ | ⟨inside, other, found⟩
          · exact ⟨here, HeaderLine.holds_of_ending? ends (here ▸ few)⟩
          · have opened := congrArg List.length (HeaderLine.line?_of_ending? ends).2
            obtain ⟨rfl, holds⟩ := ih (opened ▸ inside) found
            refine ⟨rfl, holds.further few fun same known kind equal => ?_⟩
            rw [ends] at known
            cases known
            exact other kind (congrArg List.length equal)

/-- The times that were sent before a directory are the directory's, and do not hold for the file after it. -/
example :
    let bytes := Text.encode "T5 0 6 0\nD0755 0 d\nE\n"
    (timesFor? 0 (headerLines (bytes.take 9)).reverse).isSome = true ∧
      timesFor? 0 (headerLines bytes).reverse = none := by
  decide +kernel

/-- A reader takes a line that is not too long. -/
theorem Outline.foldl_push_line {outline : Outline} {kind : LineKind} (phase : outline.phase = .line kind {})
    (bytes : List UInt8) (unbroken : Wire.newline ∉ bytes) (short : bytes.length ≤ Wire.maxLineLength) :
    bytes.foldl push outline = { outline with phase := .line kind ⟨bytes.toArray⟩ } := by
  induction bytes using List.reverseRecOn with
  | nil => rw [List.foldl_nil, ← phase]
  | append_singleton bytes byte ih =>
      rw [List.length_append, List.length_singleton] at short
      rw [List.mem_append, List.mem_singleton, not_or] at unbroken
      rw [List.foldl_append, ih unbroken.1 (Nat.le_of_succ_le short), List.foldl_cons, List.foldl_nil]
      have more : (Wire.Line.mk bytes.toArray).push byte = .more ⟨(bytes ++ [byte]).toArray⟩ := by
        have room : ¬(Wire.Line.mk bytes.toArray).bytes.size ≥ Wire.maxLineLength := Nat.not_le.2 short
        rw [Wire.Line.push, if_neg (Ne.symm unbroken.2), if_neg room, List.push_toArray]
      simp only [push, more]

end Lines

namespace Receipt

variable {receipt earlier later : Receipt} {line : HeaderLine} {text : String}

/-- The line whose times hold for a file. -/
def timesLine? (receipt : Receipt) : Option HeaderLine :=
  timesFor? (Outline.ofBytes receipt.before).opened.length (headerLines receipt.before).reverse

def times? (receipt : Receipt) : Option Wire.Timestamps :=
  receipt.timesLine?.bind HeaderLine.times?

/-- The line whose times hold for a file is of the file's directory. -/
theorem holds_of_timesLine? (found : receipt.timesLine? = some line) :
    line.opened = (Outline.ofBytes receipt.before).opened ∧ line.Holds receipt.before := by
  obtain ⟨depth, holds⟩ := holds_of_timesFor? (Nat.le_refl _) found
  exact ⟨holds.opened.eq_of_length depth, holds⟩

/-- The line that announces a file. -/
def fileLine (receipt : Receipt) (text : String) : HeaderLine where
  upTo := receipt.before ++ 67 :: (receipt.line ++ [Wire.newline])
  kind := .file
  text := text
  opened := (Outline.ofBytes receipt.before).opened

theorem ending?_of_control (control : (Outline.ofBytes receipt.before).phase = .control)
    (unbroken : Wire.newline ∉ receipt.line) (short : receipt.line.length ≤ Wire.maxLineLength)
    (decoded : Text.decode? receipt.line = some text) :
    HeaderLine.ending? (receipt.fileLine text).upTo = some (receipt.fileLine text) := by
  have begun : Outline.ofBytes (receipt.before ++ 67 :: receipt.line) =
      { Outline.ofBytes receipt.before with phase := .line .file ⟨receipt.line.toArray⟩ } := by
    have pushed : (Outline.ofBytes receipt.before).push 67 =
        { Outline.ofBytes receipt.before with phase := .line .file {} } := by
      simp only [Outline.push, control]
      rfl
    rw [Outline.ofBytes, List.foldl_append, List.foldl_cons, ← Outline.ofBytes, pushed]
    exact Outline.foldl_push_line rfl receipt.line unbroken short
  have split : (receipt.fileLine text).upTo = (receipt.before ++ 67 :: receipt.line) ++ [Wire.newline] := by
    rw [fileLine, List.append_assoc, List.cons_append]
  have done : (Wire.Line.mk receipt.line.toArray).push Wire.newline = .done (.ok text) := by
    rw [Wire.Line.push, if_pos rfl, Wire.Line.text]
    simp only [decoded]
  rw [split, HeaderLine.ending?_append_singleton, begun]
  simp only [Outline.line?, done, Option.map_some, fileLine, List.append_assoc, List.cons_append]

/-- The times of one line do not hold for two files. -/
theorem timesLine?_ne (apart : earlier.upTo <+: later.before)
    (control : (Outline.ofBytes earlier.before).phase = .control) (unbroken : Wire.newline ∉ earlier.line)
    (short : earlier.line.length ≤ Wire.maxLineLength) (decoded : Text.decode? earlier.line = some text)
    (found : earlier.timesLine? = some line) : later.timesLine? ≠ some line := by
  intro also
  obtain ⟨opened, holds⟩ := holds_of_timesLine? found
  obtain ⟨_, still⟩ := holds_of_timesLine? also
  have announced : (earlier.fileLine text).upTo <+: later.before := by
    refine List.IsPrefix.trans ⟨earlier.body, ?_⟩ apart
    simp only [fileLine, upTo, List.append_assoc, List.cons_append, List.nil_append]
  have came := mem_headerLines.2 ⟨announced, ending?_of_control control unbroken short decoded⟩
  have longer : line.upTo.length < (earlier.fileLine text).upTo.length := by
    have before := (mem_headerLines.1 holds.came).1.length_le
    rw [fileLine, List.length_append, List.length_cons]
    omega
  exact (still.since _ came longer).2 (.inl rfl) opened.symm

end Receipt

end ArtifactGate
