import ArtifactGate.Json.Basic
import ArtifactGate.Text.Utf8

/-!
Reading JSON from bytes. Exactly one document is accepted, with blanks around it. Each reader gives what
it read and the bytes after it.
-/
namespace ArtifactGate.Json

def isBlank (byte : UInt8) : Bool :=
  byte == 32 || byte == 9 || byte == 10 || byte == 13

def isDigit (byte : UInt8) : Bool :=
  48 ≤ byte && byte ≤ 57

def skipBlanks (bytes : List UInt8) : List UInt8 :=
  bytes.dropWhile isBlank

def hexValue? (byte : UInt8) : Option Nat :=
  if isDigit byte then some (byte.toNat - 48)
  else if 65 ≤ byte && byte ≤ 70 then some (byte.toNat - 55)
  else if 97 ≤ byte && byte ≤ 102 then some (byte.toNat - 87)
  else none

def unit? (a b c d : UInt8) : Option Nat := do
  return (((← hexValue? a) * 16 + (← hexValue? b)) * 16 + (← hexValue? c)) * 16 + (← hexValue? d)

/-- What a string is made of: bytes that stand for themselves, and 16-bit units. -/
inductive Piece
  | byte (value : UInt8)
  | unit (value : Nat)
  deriving DecidableEq, Repr, Inhabited

def escaped? (byte : UInt8) : Option UInt8 :=
  [(34, 34), (92, 92), (47, 47), (98, 8), (102, 12), (110, 10), (114, 13), (116, 9)].lookup byte

/-- Reads a string up to its closing mark, after the pieces `done`, the last of them first. A control
character does not stand in a string. -/
def readPieces (done : List Piece) : List UInt8 → Option (List Piece × List UInt8)
  | [] => none
  | 34 :: rest => some (done.reverse, rest)
  | 92 :: 117 :: a :: b :: c :: d :: rest =>
    match unit? a b c d with
    | some unit => readPieces (.unit unit :: done) rest
    | none => none
  | 92 :: byte :: rest =>
    match escaped? byte with
    | some value => readPieces (.byte value :: done) rest
    | none => none
  | byte :: rest => if byte < 32 then none else readPieces (.byte byte :: done) rest

def isHighUnit (unit : Nat) : Bool := 0xD800 ≤ unit && unit < 0xDC00

def isLowUnit (unit : Nat) : Bool := 0xDC00 ≤ unit && unit < 0xE000

def charBytes (code : Nat) : List UInt8 :=
  Text.encode (String.singleton (Char.ofNat code))

/-- The bytes of a string after those in `done`, the last of them first. The units of a pair must stand
together. -/
def joinPieces (done : List UInt8) : List Piece → Option (List UInt8)
  | [] => some done.reverse
  | .byte value :: rest => joinPieces (value :: done) rest
  | .unit high :: .unit low :: rest =>
    if isHighUnit high then
      if isLowUnit low then
        let code := 0x10000 + (high - 0xD800) * 1024 + (low - 0xDC00)
        joinPieces ((charBytes code).reverse ++ done) rest
      else none
    else if isLowUnit high then none
    else joinPieces ((charBytes high).reverse ++ done) (.unit low :: rest)
  | .unit value :: rest =>
    if isHighUnit value || isLowUnit value then none
    else joinPieces ((charBytes value).reverse ++ done) rest

def readString (bytes : List UInt8) : Option (Option String × List UInt8) := do
  let (pieces, rest) ← readPieces [] bytes
  return ((joinPieces [] pieces).bind Text.decode?, rest)

def numeralOf (bytes : List UInt8) : List Char :=
  bytes.map fun byte => Char.ofNat byte.toNat

def readDigitRun (bytes : List UInt8) : Option (List Char × List UInt8) :=
  match bytes.span isDigit with
  | ([], _) => none
  | (digits, rest) => some (numeralOf digits, rest)

/-- The whole part of a number; it has no needless zero before it. -/
def readWhole (bytes : List UInt8) : Option (List Char × List UInt8) := do
  let (digits, rest) ← readDigitRun bytes
  match digits with
  | '0' :: _ :: _ => none
  | _ => return (digits, rest)

def readPlaces : List UInt8 → Option (List Char × List UInt8)
  | 46 :: rest => do
    let (digits, rest) ← readDigitRun rest
    return ('.' :: digits, rest)
  | bytes => some ([], bytes)

def readPower : List UInt8 → Option (List Char × List UInt8)
  | byte :: rest => do
    if byte == 101 || byte == 69 then
      let (sign, rest) :=
        match rest with
        | 43 :: rest => (['+'], rest)
        | 45 :: rest => (['-'], rest)
        | _ => ([], rest)
      let (digits, rest) ← readDigitRun rest
      return ('e' :: sign ++ digits, rest)
    else return ([], byte :: rest)
  | [] => some ([], [])

def readNumber (bytes : List UInt8) : Option (Json × List UInt8) := do
  let (sign, bytes) :=
    match bytes with
    | 45 :: rest => (['-'], rest)
    | _ => ([], bytes)
  let (whole, rest) ← readWhole bytes
  let (places, rest) ← readPlaces rest
  let (power, rest) ← readPower rest
  return (.number (sign ++ whole ++ places ++ power), rest)

def readWord (word : String) (value : Json) (bytes : List UInt8) : Option (Json × List UInt8) :=
  let spelled := Text.encode word
  if spelled.isPrefixOf bytes then some (value, bytes.drop spelled.length) else none

/-- Reads what is left of a list after its opening bracket, with `read` for its items. -/
def readItems (read : List UInt8 → Option (Json × List UInt8)) :
    (fuel : Nat) → List UInt8 → Option (List Json × List UInt8)
  | 0, _ => none
  | fuel + 1, bytes => do
    let (item, rest) ← read bytes
    match skipBlanks rest with
    | 93 :: rest => return ([item], rest)
    | 44 :: rest =>
      let (items, rest) ← readItems read fuel rest
      return (item :: items, rest)
    | _ => none

/-- Reads what is left of an object after its opening brace, with `read` for its values. -/
def readFields (read : List UInt8 → Option (Json × List UInt8)) :
    (fuel : Nat) → List UInt8 → Option (List (Option String × Json) × List UInt8)
  | 0, _ => none
  | fuel + 1, bytes => do
    match skipBlanks bytes with
    | 34 :: rest =>
      let (key, rest) ← readString rest
      match skipBlanks rest with
      | 58 :: rest =>
        let (value, rest) ← read rest
        match skipBlanks rest with
        | 125 :: rest => return ([(key, value)], rest)
        | 44 :: rest =>
          let (fields, rest) ← readFields read fuel rest
          return ((key, value) :: fields, rest)
        | _ => none
      | _ => none
    | _ => none

/-- Reads a value that goes at most `fuel` levels deep, with at most `fuel` values in each of them. -/
def readValue : (fuel : Nat) → List UInt8 → Option (Json × List UInt8)
  | 0, _ => none
  | fuel + 1, bytes =>
    match skipBlanks bytes with
    | 34 :: rest => (readString rest).map fun (text, rest) => (.string text, rest)
    | 91 :: rest =>
      match skipBlanks rest with
      | 93 :: rest => some (.array [], rest)
      | rest => (readItems (readValue fuel) fuel rest).map fun (items, rest) =>
        (.array items, rest)
    | 123 :: rest =>
      match skipBlanks rest with
      | 125 :: rest => some (.object [], rest)
      | rest => (readFields (readValue fuel) fuel rest).map fun (fields, rest) =>
        (.object fields, rest)
    | 110 :: rest => readWord "null" .null (110 :: rest)
    | 116 :: rest => readWord "true" (.bool true) (116 :: rest)
    | 102 :: rest => readWord "false" (.bool false) (102 :: rest)
    | bytes => readNumber bytes

/-- The document that the bytes hold. A value at any depth is shorter than the fuel left for it, since every
level takes a byte. -/
def parse? (bytes : List UInt8) : Option Json := do
  let (json, rest) ← readValue (bytes.length + 1) bytes
  if (skipBlanks rest).isEmpty then return json else none

end ArtifactGate.Json
