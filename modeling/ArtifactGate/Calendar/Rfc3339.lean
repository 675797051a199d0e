import ArtifactGate.Artifact
import ArtifactGate.Calendar.Date
import ArtifactGate.Text.Numeral

/-!
Moments written as a date, a time of day and an offset from universal time, such as
`2024-02-22T14:59:12.535+01:00`. The reading is lenient: blanks may stand between the parts, numbers
may have fewer digits than usual, and the date may be set off from the time by a blank. Each reader gives
what it read and the text after it.
-/
namespace ArtifactGate.Calendar

def skipBlanks (text : List Char) : List Char :=
  text.dropWhile Text.isBlank

def readNumber (width : Nat) (text : List Char) : Option (Nat × List Char) :=
  match (text.take width).takeWhile Char.isDigit with
  | [] => none
  | digits => some (Text.digitsValue digits, text.drop digits.length)

def readField (width : Nat) (text : List Char) : Option (Nat × List Char) :=
  readNumber width (skipBlanks text)

/-- A year of at most four digits, or a sign and a year of any length. -/
def readYear (text : List Char) : Option (Int × List Char) :=
  match skipBlanks text with
  | '-' :: rest => (readNumber rest.length rest).map fun (year, rest) => (-Int.ofNat year, rest)
  | '+' :: rest => (readNumber rest.length rest).map fun (year, rest) => (Int.ofNat year, rest)
  | rest => (readNumber 4 rest).map fun (year, rest) => (Int.ofNat year, rest)

def readMark (mark : Char) (text : List Char) : Option (List Char) :=
  match skipBlanks text with
  | c :: rest => if c = mark then some (skipBlanks rest) else none
  | [] => none

def readDate (text : List Char) : Option (Date × List Char) := do
  let (year, rest) ← readYear text
  let (month, rest) ← readField 2 (← readMark '-' rest)
  let (day, rest) ← readField 2 (← readMark '-' rest)
  return ({ year, month, day }, rest)

/-- A time of day, in seconds and nanoseconds. A leap second is counted as the nanoseconds after the
second before it. -/
structure TimeOfDay where
  seconds : Nat
  nanos : Nat
  deriving DecidableEq, Repr, Inhabited

/-- A fraction of a second, if there is one; digits beyond the ninth mean nothing. -/
def readFraction : List Char → Option (Nat × List Char)
  | '.' :: rest =>
    match rest.takeWhile Char.isDigit with
    | [] => none
    | digits =>
      let places := digits.take 9
      some (Text.digitsValue places * Nat.pow 10 (9 - places.length), rest.drop digits.length)
  | text => some (0, text)

def readTime (text : List Char) : Option (TimeOfDay × List Char) := do
  let (hour, rest) ← readField 2 text
  let (minute, rest) ← readField 2 (← readMark ':' rest)
  let (second, rest) ← readField 2 (← readMark ':' rest)
  let (nanos, rest) ← readFraction rest
  if hour < 24 && minute < 60 && second ≤ 60 then
    let leap := second - 59
    return ({ seconds := (hour * 60 + minute) * 60 + (second - leap)
              nanos := leap * 1000000000 + nanos }, rest)
  else none

def readPair : List Char → Option (Nat × List Char)
  | a :: b :: rest =>
    if a.isDigit && b.isDigit then some (Text.digitsValue [a, b], rest) else none
  | _ => none

/-- The sign of an offset; the minus sign of typography is one too. -/
def readSign : List Char → Option (Int × List Char)
  | '+' :: rest => some (1, rest)
  | '-' :: rest => some (-1, rest)
  | '\u2212' :: rest => some (-1, rest)
  | _ => none

/-- An offset in seconds, with or without a colon or blanks between its hours and its minutes. -/
def readSigned (text : List Char) : Option (Int × List Char) := do
  let (sign, rest) ← readSign text
  let (hours, rest) ← readPair rest
  let (minutes, rest) ← readPair (rest.dropWhile fun c => c == ':' || Text.isBlank c)
  if minutes < 60 then return (sign * (hours * 3600 + minutes * 60 : Nat), rest) else none

def readOffset (text : List Char) : Option (Int × List Char) :=
  match skipBlanks text with
  | 'Z' :: rest => some (0, rest)
  | 'z' :: rest => some (0, rest)
  | rest =>
    if (rest.take 3).map Char.toUpper = ['U', 'T', 'C'] then some (0, rest.drop 3)
    else readSigned rest

def firstYear : Int := -262143

def lastYear : Int := 262142

/-- The seconds from the beginning of 1970 to the beginning of a year. -/
def yearStart (year : Int) : Int :=
  Date.daysSinceEpoch { year, month := 1, day := 1 } * 86400

def inRange (seconds : Int) : Bool :=
  yearStart firstYear ≤ seconds && seconds < yearStart (lastYear + 1)

def readMoment (text : String) : Option Instant := do
  let (date, rest) ← readDate text.toList
  let rest ←
    match rest with
    | c :: rest => if c = 'T' || c = 't' || c = ' ' then some rest else none
    | [] => none
  let (time, rest) ← readTime rest
  let (offset, rest) ← readOffset rest
  let shown := date.daysSinceEpoch * 86400 + time.seconds
  let seconds := shown - offset
  if (skipBlanks rest).isEmpty && date.exists? && offset.natAbs < 86400 && inRange shown &&
      inRange seconds then
    return { seconds, nanos := time.nanos }
  else none

end ArtifactGate.Calendar
