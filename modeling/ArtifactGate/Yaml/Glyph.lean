/-!
The text of a YAML stream as characters that know their place. Line ends of all kinds that mean the same
are one character.
-/
namespace ArtifactGate.Yaml

/-- A character and where it stands: its line, its column, and the number of characters before it. -/
structure Glyph where
  char : Char
  line : Nat
  column : Nat
  index : Nat
  deriving DecidableEq, Repr, Inhabited

def isSpecialBreak (c : Char) : Bool :=
  c == '\u2028' || c == '\u2029'

def isBreak (c : Char) : Bool :=
  c == '\n' || isSpecialBreak c

def isBlank (c : Char) : Bool :=
  c == ' ' || c == '\t'

def isWordChar (c : Char) : Bool :=
  c.isAlphanum || c == '_' || c == '-'

def isAllowed (c : Char) : Bool :=
  let n := c.toNat
  n == 9 || n == 10 || n == 13 || (0x20 ≤ n && n ≤ 0x7E) || n == 0x85 ||
    (0xA0 ≤ n && n ≤ 0xFFFD) || 0x10000 ≤ n

def joinBreaks : List Char → List Char
  | '\r' :: '\n' :: rest => '\n' :: joinBreaks rest
  | c :: rest => (if c == '\r' || c == '\u0085' then '\n' else c) :: joinBreaks rest
  | [] => []

namespace Glyph

def place (line column index : Nat) : List Char → List Glyph
  | [] => []
  | c :: rest =>
    ⟨c, line, column, index⟩ ::
      if isBreak c then place (line + 1) 0 (index + 1) rest
      else place line (column + 1) (index + 1) rest

/-- The glyphs of a text, unless a character in it is not allowed. -/
def ofText? (text : String) : Option (List Glyph) :=
  if text.toList.all isAllowed then some (place 0 0 0 (joinBreaks text.toList)) else none

end Glyph

def atWordEnd : List Glyph → Bool
  | [] => true
  | glyph :: _ => isBlank glyph.char || isBreak glyph.char

def atLineEnd : List Glyph → Bool
  | [] => true
  | glyph :: _ => isBreak glyph.char

/-- Whether three of this character stand at the beginning of a line, as a word. -/
def atMarker (mark : Char) : List Glyph → Bool
  | a :: b :: c :: rest =>
    a.column == 0 && a.char == mark && b.char == mark && c.char == mark && atWordEnd rest
  | _ => false

def atDocumentMarker (glyphs : List Glyph) : Bool :=
  atMarker '-' glyphs || atMarker '.' glyphs

def startsWith (c : Char) : List Glyph → Bool
  | [] => false
  | glyph :: _ => glyph.char == c

end ArtifactGate.Yaml
