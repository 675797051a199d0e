import ArtifactGate.Yaml.Glyph

/-!
Scalars: the texts that a stream is made of, in the styles they are written in. Where the text of a scalar
goes over a line end, a single line end becomes a space and a run of them loses one; only a literal
keeps its lines as they are. Each reader gives the text and the glyphs after it.
-/
namespace ArtifactGate.Yaml

inductive ScalarStyle
  | plain
  | quoted
  | literal
  | folded
  deriving DecidableEq, Repr, Inhabited

/-- The blanks and line ends between two stretches of a scalar. -/
structure Gap where
  blanks : List Char := []
  isBroken : Bool := false
  first : Option Char := none
  more : List Char := []
  deriving DecidableEq, Repr, Inhabited

namespace Gap

def isEmpty (gap : Gap) : Bool :=
  gap.blanks.isEmpty && !gap.isBroken

def addBlank (gap : Gap) (c : Char) : Gap :=
  if gap.isBroken then gap else { gap with blanks := c :: gap.blanks }

def addBreak (gap : Gap) (c : Char) : Gap :=
  if gap.isBroken then { gap with more := c :: gap.more }
  else { gap with isBroken := true, first := some c }

/-- What a gap is in the text of a scalar, put before `text`; all is the last character first. -/
def join (gap : Gap) (text : List Char) : List Char :=
  if !gap.isBroken then gap.blanks ++ text
  else
    match gap.first with
    | none => gap.more ++ text
    | some c =>
      if c != '\n' then gap.more ++ c :: text
      else if gap.more.isEmpty then ' ' :: text
      else gap.more ++ text

end Gap

/-- The characters that enclose or separate the items of a collection in brackets. -/
def isFlowIndicator (c : Char) : Bool :=
  [',', '[', ']', '\x7b', '\x7d'].contains c

def endsPlain (inFlow : Bool) : List Glyph → Bool
  | [] => true
  | glyph :: rest =>
    (glyph.char == ':' && atWordEnd rest) || (inFlow && isFlowIndicator glyph.char)

/-- Whether a colon stands here that a plain scalar in brackets must not have. -/
def hasStrayColon (inFlow : Bool) : List Glyph → Bool
  | colon :: next :: _ =>
    inFlow && colon.char == ':' && (isFlowIndicator next.char || next.char == '?')
  | _ => false

/-- Reads on in a plain scalar whose lines are indented by `indent` columns. Tells also whether a line
ended after its last character. -/
def readPlain (inFlow : Bool) (indent : Nat) (text : List Char) (gap : Gap) :
    List Glyph → Option (List Char × Bool × List Glyph)
  | [] => some (text.reverse, gap.isBroken, [])
  | glyph :: rest =>
    if isBlank glyph.char then
      if gap.isBroken && glyph.column < indent && glyph.char == '\t' then none
      else readPlain inFlow indent text (gap.addBlank glyph.char) rest
    else if isBreak glyph.char then readPlain inFlow indent text (gap.addBreak glyph.char) rest
    else
      let isOver :=
        !gap.isEmpty &&
          ((!inFlow && glyph.column < indent) || atDocumentMarker (glyph :: rest) ||
            glyph.char == '#')
      if isOver then some (text.reverse, gap.isBroken, glyph :: rest)
      else if hasStrayColon inFlow (glyph :: rest) then none
      else if endsPlain inFlow (glyph :: rest) then
        some (text.reverse, gap.isBroken, glyph :: rest)
      else readPlain inFlow indent (glyph.char :: gap.join text) {} rest

/-- Where a reader is in a quoted scalar. -/
inductive QuoteState
  | text
  /-- After a single mark, which may be the last one or the first of two. -/
  | mark
  | escape
  /-- In the digits of a code point: how many are missing, and its value so far. -/
  | code (missing value : Nat)
  deriving DecidableEq, Repr, Inhabited

def escapes : List (Char × Char) :=
  [('0', '\x00'), ('a', '\x07'), ('b', '\x08'), ('t', '\t'), ('\t', '\t'), ('n', '\n'),
    ('v', '\x0b'), ('f', '\x0c'), ('r', '\r'), ('e', '\x1b'), (' ', ' '), ('"', '"'),
    ('/', '/'), ('\\', '\\'), ('N', '\u0085'), ('_', '\u00a0'), ('L', '\u2028'),
    ('P', '\u2029')]

def codeWidth? (c : Char) : Option Nat :=
  [('x', 2), ('u', 4), ('U', 8)].lookup c

def hexValue? (c : Char) : Option Nat :=
  if c.isDigit then some (c.toNat - '0'.toNat)
  else if 'a' ≤ c && c ≤ 'f' then some (c.toNat - 'a'.toNat + 10)
  else if 'A' ≤ c && c ≤ 'F' then some (c.toNat - 'A'.toNat + 10)
  else none

def readQuoted (mark : Char) (state : QuoteState) (text : List Char) (gap : Gap) :
    List Glyph → Option (List Char × List Glyph)
  | [] => if state = .mark then some (text.reverse, []) else none
  | glyph :: rest =>
    match state with
    | .mark =>
      if glyph.char == mark then readQuoted mark .text (mark :: text) {} rest
      else some (text.reverse, glyph :: rest)
    | .escape =>
      if isBreak glyph.char then readQuoted mark .text text { isBroken := true } rest
      else
        match codeWidth? glyph.char, escapes.lookup glyph.char with
        | some width, _ => readQuoted mark (.code width 0) text {} rest
        | none, some c => readQuoted mark .text (c :: text) {} rest
        | none, none => none
    | .code missing value =>
      match hexValue? glyph.char with
      | none => none
      | some digit =>
        let value := value * 16 + digit
        if missing > 1 then readQuoted mark (.code (missing - 1) value) text {} rest
        else if value.isValidChar then
          readQuoted mark .text (Char.ofNat value :: text) {} rest
        else none
    | .text =>
      if isBlank glyph.char then readQuoted mark .text text (gap.addBlank glyph.char) rest
      else if isBreak glyph.char then readQuoted mark .text text (gap.addBreak glyph.char) rest
      else if atDocumentMarker (glyph :: rest) then none
      else if glyph.char == mark then
        if mark == '\'' then readQuoted mark .mark (gap.join text) {} rest
        else some ((gap.join text).reverse, rest)
      else if mark == '"' && glyph.char == '\\' then
        readQuoted mark .escape (gap.join text) {} rest
      else readQuoted mark .text (glyph.char :: gap.join text) {} rest

/-- What becomes of the line ends at the end of a block scalar. -/
inductive Chomping
  | strip
  | clip
  | keep
  deriving DecidableEq, Repr, Inhabited

/-- The beginning of a block scalar: how it is chomped, and by how many columns it is indented, if it
says so. -/
structure BlockHeader where
  chomping : Chomping := .clip
  indent? : Option Nat := none
  deriving DecidableEq, Repr, Inhabited

def readChomping? (c : Char) : Option Chomping :=
  if c == '-' then some .strip else if c == '+' then some .keep else none

/-- The indicators at the beginning of a block scalar, in any order. -/
def readIndicators (header : BlockHeader) (glyphs : List Glyph) :
    Option (BlockHeader × List Glyph) :=
  let readChomping (header : BlockHeader) (glyphs : List Glyph) : BlockHeader × List Glyph :=
    match glyphs with
    | glyph :: rest =>
      match readChomping? glyph.char with
      | some chomping => ({ header with chomping }, rest)
      | none => (header, glyphs)
    | [] => (header, [])
  let readIndent (header : BlockHeader) (glyphs : List Glyph) : Option (BlockHeader × List Glyph) :=
    match glyphs with
    | glyph :: rest =>
      if glyph.char == '0' then none
      else if glyph.char.isDigit then
        some ({ header with indent? := some (glyph.char.toNat - '0'.toNat) }, rest)
      else some (header, glyphs)
    | [] => some (header, [])
  match readChomping header glyphs with
  | (header, rest) =>
    if rest.length < glyphs.length then readIndent header rest
    else (readIndent header glyphs).map fun (header, rest) => readChomping header rest

/-- The rest of a line on which nothing but a comment may stand; gives the next line. -/
def readLineEnd (glyphs : List Glyph) : Option (List Glyph) :=
  let glyphs := glyphs.dropWhile fun glyph => isBlank glyph.char
  let glyphs :=
    if startsWith '#' glyphs then glyphs.dropWhile fun glyph => !isBreak glyph.char else glyphs
  if atLineEnd glyphs then some (glyphs.drop 1) else none

/-- Reads the indentation of the next line of a block scalar, and the empty lines before it, whose line
ends are added to `breaks`. Where `indent` is 0 the widest of these lines gives it. -/
def readIndentation (outer : Nat) (indent widest : Nat) (breaks : List Char) :
    List Glyph → Option (Nat × List Char × List Glyph)
  | [] => some (if indent = 0 then max widest (max outer 1) else indent, breaks, [])
  | glyph :: rest =>
    let isInside := indent = 0 || glyph.column < indent
    if isInside && glyph.char == ' ' then readIndentation outer indent widest breaks rest
    else
      let widest := max widest glyph.column
      if isInside && glyph.char == '\t' then none
      else if isBreak glyph.char then
        readIndentation outer indent widest (glyph.char :: breaks) rest
      else some (if indent = 0 then max widest (max outer 1) else indent, breaks, glyph :: rest)

/-- A block scalar as far as it has been read; texts and line ends are the last character first. -/
structure BlockText where
  text : List Char := []
  lineEnd : Option Char := none
  breaks : List Char := []
  wasBlank : Bool := false
  deriving Repr, Inhabited

/-- Adds a line. Between two lines of a folded scalar a line end is a space, unless one of them begins
with a blank. -/
def BlockText.addLine (block : BlockText) (isLiteral : Bool) (line : List Char) : BlockText :=
  let isBlankLine := (line.head?.map isBlank).getD false
  let folds := !isLiteral && block.lineEnd == some '\n' && !block.wasBlank && !isBlankLine
  let text :=
    if !folds then block.lineEnd.toList ++ block.text
    else if block.breaks.isEmpty then ' ' :: block.text
    else block.text
  { text := line.reverse ++ (block.breaks ++ text), wasBlank := isBlankLine }

def BlockText.finish (block : BlockText) (chomping : Chomping) : List Char :=
  let text := if chomping = .strip then block.text else block.lineEnd.toList ++ block.text
  (if chomping = .keep then block.breaks ++ text else text).reverse

def readBlockLines (isLiteral : Bool) (outer indent : Nat) :
    (fuel : Nat) → BlockText → List Glyph → Option (BlockText × List Glyph)
  | 0, _, _ => none
  | _ + 1, block, [] => some (block, [])
  | fuel + 1, block, glyph :: rest =>
    if glyph.column != indent then some (block, glyph :: rest)
    else
      let (line, rest) := (glyph :: rest).span fun glyph => !isBreak glyph.char
      let block := block.addLine isLiteral (line.map Glyph.char)
      match rest with
      | [] => some (block, [])
      | lineEnd :: rest =>
        match readIndentation outer indent 0 [] rest with
        | none => none
        | some (_, breaks, rest) =>
          readBlockLines isLiteral outer indent fuel
            { block with lineEnd := some lineEnd.char, breaks } rest

/-- Reads a block scalar after its first character. `outer` is the least column its lines may begin
at. -/
def readBlock (isLiteral : Bool) (outer fuel : Nat) (glyphs : List Glyph) :
    Option (List Char × List Glyph) := do
  let (header, rest) ← readIndicators {} glyphs
  let rest ← readLineEnd rest
  let indent := (header.indent?.map (outer - 1 + ·)).getD 0
  let (indent, breaks, rest) ← readIndentation outer indent 0 [] rest
  let (block, rest) ← readBlockLines isLiteral outer indent fuel { breaks } rest
  return (block.finish header.chomping, rest)

end ArtifactGate.Yaml
