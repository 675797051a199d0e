/-!
Patterns for paths. `*` stands for any characters but a slash, `**` as a whole segment for any segments,
`?` for one character but a slash, and a bracket for one of the characters it lists, or for one it does
not list when it begins with `!`.
-/
namespace ArtifactGate.Glob

/-- What a bracket lists: single characters and ranges. -/
inductive Range
  | single (c : Char)
  | between (first last : Char)
  deriving DecidableEq, Repr, Inhabited

def Range.holds (c : Char) : Range → Bool
  | .single d => c == d
  | .between first last => first ≤ c && c ≤ last

inductive Token
  | literal (c : Char)
  | anyChar
  | anyRun
  | anySegments
  | oneOf (ranges : List Range)
  | noneOf (ranges : List Range)
  deriving DecidableEq, Repr, Inhabited

abbrev Pattern := List Token

/-- Why a text is no pattern. -/
inductive PatternFlaw
  | tooManyStars
  | starsNotSegment
  | openBracket
  deriving DecidableEq, Repr, Inhabited

structure PatternError where
  position : Nat
  flaw : PatternFlaw
  deriving DecidableEq, Repr, Inhabited

def PatternFlaw.message : PatternFlaw → String
  | .tooManyStars => "wildcards are either regular `*` or recursive `**`"
  | .starsNotSegment => "recursive wildcards must form a single path component"
  | .openBracket => "invalid range pattern"

def PatternError.message (error : PatternError) : String :=
  "Pattern syntax error near position " ++ toString error.position ++ ": " ++ error.flaw.message

/-- Reads what a bracket lists: three characters with a dash between them are a range. -/
def readRanges : List Char → List Range
  | first :: '-' :: last :: rest => .between first last :: readRanges rest
  | c :: rest => .single c :: readRanges rest
  | [] => []

/-- Splits the text after an open bracket at the bracket that closes it. The first character listed
may itself be a closing bracket. -/
def splitBracket : List Char → Option (List Char × List Char)
  | [] => none
  | first :: rest =>
    let listed := rest.takeWhile fun c => c != ']'
    match rest.drop listed.length with
    | [] => none
    | _ :: after => some (first :: listed, after)

/-- Reads the text after an open bracket: a token, and what follows the bracket. -/
def readBracket : List Char → Option (Token × List Char)
  | '!' :: rest => (splitBracket rest).map fun (listed, after) => (.noneOf (readRanges listed), after)
  | rest => (splitBracket rest).map fun (listed, after) => (.oneOf (readRanges listed), after)

/-- Two stars must stand at the start or after a slash, and before a slash or the end. The slash after
them belongs to them. -/
def readSegments (position : Nat) (last : Option Char) (rest : List Char) :
    Except PatternError (List Char) :=
  if last = none || last = some '/' then
    match rest with
    | '/' :: after => .ok after
    | [] => .ok []
    | _ => .error ⟨position + 2, .starsNotSegment⟩
  else .error ⟨position - 1, .starsNotSegment⟩

/-- Reads a pattern from a text at a position, after the character `last` and the tokens `before`, which
are in reverse. Every step reads a character at least, so the text's length is fuel enough. -/
def readTokens : (fuel position : Nat) → (last : Option Char) → (before : List Token) →
    List Char → Except PatternError Pattern
  | _, _, _, before, [] => .ok before.reverse
  | 0, _, _, before, _ => .ok before.reverse
  | fuel + 1, position, last, before, c :: rest =>
    if c = '?' then readTokens fuel (position + 1) (some c) (.anyChar :: before) rest
    else if c = '*' then
      let more := rest.takeWhile fun c => c == '*'
      let after := rest.drop more.length
      match more.length with
      | 0 => readTokens fuel (position + 1) (some c) (.anyRun :: before) after
      | 1 => do
        let remaining ← readSegments position last after
        let slash := after.length - remaining.length
        let repeated := before.head? = some .anySegments && 1 < before.length
        readTokens fuel (position + 2 + slash) (some (if slash = 0 then '*' else '/'))
          (if repeated then before else .anySegments :: before) remaining
      | _ => .error ⟨position + 2, .tooManyStars⟩
    else if c = '[' then
      match readBracket rest with
      | some (token, after) =>
        readTokens fuel (position + 1 + (rest.length - after.length)) (some ']') (token :: before)
          after
      | none => .error ⟨position, .openBracket⟩
    else readTokens fuel (position + 1) (some c) (.literal c :: before) rest

namespace Pattern

def parse (text : String) : Except PatternError Pattern :=
  readTokens text.length 0 none [] text.toList

/-- What matching the rest of a pattern tells: `mismatch` leaves it to an earlier star to take more,
`exhausted` says that the text is too short whatever an earlier star takes. -/
inductive Verdict
  | matched
  | mismatch
  | exhausted
  deriving DecidableEq, Repr, Inhabited

/-- Lets a star take more and more characters until what follows it has a verdict. A run stops before a
slash; segments end only after one, or at the end of the text. -/
def sweep (segments : Bool) (next : List Char → Verdict) : List Char → Verdict
  | [] => next []
  | c :: rest =>
    if segments && c != '/' then sweep segments next rest
    else if !segments && c == '/' then .mismatch
    else
      match next rest with
      | .mismatch => sweep segments next rest
      | verdict => verdict

/-- Whether a token that stands for one character stands for this one. -/
def tokenHolds (c : Char) : Token → Bool
  | .literal d => c == d
  | .anyChar => c != '/'
  | .oneOf ranges => c != '/' && ranges.any (Range.holds c)
  | .noneOf ranges => c != '/' && !ranges.any (Range.holds c)
  | .anyRun | .anySegments => false

def matchFrom : Pattern → List Char → Verdict
  | [], [] => .matched
  | [], _ => .mismatch
  | .anyRun :: rest, text =>
    match matchFrom rest text with
    | .mismatch => sweep false (matchFrom rest) text
    | verdict => verdict
  | .anySegments :: rest, text =>
    match matchFrom rest text with
    | .mismatch => sweep true (matchFrom rest) text
    | verdict => verdict
  | _ :: _, [] => .exhausted
  | token :: rest, c :: text => if tokenHolds c token then matchFrom rest text else .mismatch

def isMatch (pattern : Pattern) (text : String) : Bool :=
  matchFrom pattern text.toList == .matched

end Pattern

end ArtifactGate.Glob
