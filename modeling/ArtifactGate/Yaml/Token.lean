import ArtifactGate.Text.Utf8
import ArtifactGate.Yaml.Scalar

/-!
The marks and texts of a YAML stream in order. Indentation becomes explicit: a collection that is
indented has a token at its beginning and one at its end, and what stands before the colon of a
mapping has a token before it, however late the colon comes.
-/
namespace ArtifactGate.Yaml

inductive Token
  | versionDirective (major minor : Nat)
  | tagDirective (handle target : String)
  | documentStart
  | documentEnd
  | blockSequenceStart
  | blockMappingStart
  | blockEnd
  | flowSequenceStart
  | flowSequenceEnd
  | flowMappingStart
  | flowMappingEnd
  | blockEntry
  | flowEntry
  | key
  | value
  | alias (name : String)
  | anchor (name : String)
  | tag (handle suffix : String)
  | scalar (style : ScalarStyle) (text : String)
  deriving DecidableEq, Repr, Inhabited

/-- Something that turns out to be a key if a colon follows it. -/
structure KeyCandidate where
  position : Nat
  line : Nat
  column : Nat
  index : Nat
  isRequired : Bool
  deriving DecidableEq, Repr, Inhabited

/-- What is known between two tokens. -/
structure Scanner where
  tokens : Array Token := #[]
  indents : List Nat := []
  flow : List (Option KeyCandidate) := []
  candidate : Option KeyCandidate := none
  allowsKey : Bool := true
  deriving Repr, Inhabited

namespace Scanner

def inFlow (scanner : Scanner) : Bool := !scanner.flow.isEmpty

/-- The least column that is inside the innermost collection: one past its own. -/
def inner (scanner : Scanner) : Nat :=
  match scanner.indents with
  | [] => 0
  | column :: _ => column + 1

def push (scanner : Scanner) (token : Token) : Scanner :=
  { scanner with tokens := scanner.tokens.push token }

def current (scanner : Scanner) : Option KeyCandidate :=
  match scanner.flow with
  | [] => scanner.candidate
  | candidate :: _ => candidate

def setCurrent (scanner : Scanner) (candidate : Option KeyCandidate) : Scanner :=
  match scanner.flow with
  | [] => { scanner with candidate }
  | _ :: outer => { scanner with flow := candidate :: outer }

def dropCandidate (scanner : Scanner) : Option Scanner :=
  match scanner.current with
  | some candidate => if candidate.isRequired then none else some (scanner.setCurrent none)
  | none => some scanner

def longestKey : Nat := 1024

/-- A candidate does not outlive its line, and its colon is not far. -/
def isStale (glyph : Glyph) (candidate : KeyCandidate) : Bool :=
  candidate.line < glyph.line || candidate.index + longestKey < glyph.index

def refresh (glyph : Glyph) : Option KeyCandidate → Option (Option KeyCandidate)
  | none => some none
  | some candidate =>
    if isStale glyph candidate then
      if candidate.isRequired then none else some none
    else some (some candidate)

def dropStale (scanner : Scanner) (glyph : Glyph) : Option Scanner := do
  let flow ← scanner.flow.mapM (refresh glyph)
  let candidate ← refresh glyph scanner.candidate
  return { scanner with flow, candidate }

def saveCandidate (scanner : Scanner) (glyph : Glyph) : Option Scanner :=
  if scanner.allowsKey then do
    let isRequired := !scanner.inFlow && scanner.indents.head? == some glyph.column
    let scanner ← scanner.dropCandidate
    return scanner.setCurrent (some
      { position := scanner.tokens.size, line := glyph.line, column := glyph.column
        index := glyph.index, isRequired })
  else some scanner

/-- Opens a collection if the column is further in than the innermost one; its token goes before the
tokens from `position` on. -/
def openBlock (scanner : Scanner) (column position : Nat) (token : Token) : Scanner :=
  if !scanner.inFlow && scanner.inner ≤ column then
    { scanner with
      indents := column :: scanner.indents
      tokens := scanner.tokens.insertIdxIfInBounds position token }
  else scanner

/-- Closes the collections that are indented further than `limit` allows. -/
def closeIndents (limit : Option Nat) (tokens : Array Token) : List Nat → Array Token × List Nat
  | [] => (tokens, [])
  | column :: outer =>
    if limit.all (· < column) then closeIndents limit (tokens.push .blockEnd) outer
    else (tokens, column :: outer)

/-- Closes the collections that end before this column, or all of them. -/
def closeBlocks (scanner : Scanner) (limit : Option Nat) : Scanner :=
  if scanner.inFlow then scanner
  else
    let (tokens, indents) := closeIndents limit scanner.tokens scanner.indents
    { scanner with tokens, indents }

def allowKey (scanner : Scanner) (allowsKey : Bool) : Scanner :=
  { scanner with allowsKey }

/-- A mark between documents, or a directive: nothing goes on over it. -/
def breakOff (scanner : Scanner) : Option Scanner := do
  return (← (scanner.closeBlocks none).dropCandidate).allowKey false

/-- Goes to the next token. In brackets, and where no key may begin, a tab is a blank like another. -/
def skipToToken (inFlow : Bool) (allowsKey inComment : Bool) : List Glyph → Bool × List Glyph
  | [] => (allowsKey, [])
  | glyph :: rest =>
    if isBreak glyph.char then skipToToken inFlow (allowsKey || !inFlow) false rest
    else if inComment then skipToToken inFlow allowsKey true rest
    else if glyph.char == '#' then skipToToken inFlow allowsKey true rest
    else if glyph.char == ' ' || (glyph.char == '\t' && (inFlow || !allowsKey)) ||
        (glyph.char == '\ufeff' && glyph.column == 0) then
      skipToToken inFlow allowsKey false rest
    else (allowsKey, glyph :: rest)

def openFlow (scanner : Scanner) (glyph : Glyph) (token : Token) : Option Scanner := do
  let scanner ← scanner.saveCandidate glyph
  return ({ scanner with flow := none :: scanner.flow, allowsKey := true }).push token

def closeFlow (scanner : Scanner) (token : Token) : Option Scanner := do
  let scanner ← scanner.dropCandidate
  return ({ scanner with flow := scanner.flow.tail, allowsKey := false }).push token

def addFlowEntry (scanner : Scanner) : Option Scanner := do
  return ((← scanner.dropCandidate).allowKey true).push .flowEntry

/-- A mark of the block style, which may only stand where a key may; in brackets it is left to the
reader of the tokens. -/
def addBlockMark (scanner : Scanner) (glyph : Glyph) (collection : Token) : Option Scanner :=
  if scanner.inFlow then some scanner
  else if scanner.allowsKey then
    some (scanner.openBlock glyph.column scanner.tokens.size collection)
  else none

def addBlockEntry (scanner : Scanner) (glyph : Glyph) : Option Scanner := do
  let scanner ← scanner.addBlockMark glyph .blockSequenceStart
  return ((← scanner.dropCandidate).allowKey true).push .blockEntry

def addKey (scanner : Scanner) (glyph : Glyph) : Option Scanner := do
  let scanner ← scanner.addBlockMark glyph .blockMappingStart
  return ((← scanner.dropCandidate).allowKey (!scanner.inFlow)).push .key

def addValue (scanner : Scanner) (glyph : Glyph) : Option Scanner := do
  match scanner.current with
  | some candidate =>
    let tokens := scanner.tokens.insertIdxIfInBounds candidate.position .key
    let scanner := { scanner with tokens }
    let scanner := scanner.openBlock candidate.column candidate.position .blockMappingStart
    return ((scanner.setCurrent none).allowKey false).push .value
  | none =>
    let scanner ← scanner.addBlockMark glyph .blockMappingStart
    return (scanner.allowKey (!scanner.inFlow)).push .value

def readWord (glyphs : List Glyph) : String × List Glyph :=
  let (word, rest) := glyphs.span fun glyph => isWordChar glyph.char
  (String.ofList (word.map Glyph.char), rest)

def anchorEnds : List Char := ['?', ':', ',', ']', '\x7d', '%', '@', '\x60']

def readAnchor (glyphs : List Glyph) : Option (String × List Glyph) :=
  let (name, rest) := readWord glyphs
  if !name.isEmpty && (atWordEnd rest || anchorEnds.any (startsWith · rest)) then
    some (name, rest)
  else none

/-- The handle of a tag as far as there is one: a mark of exclamation, and a word in two of them. -/
def readHandle (glyphs : List Glyph) : String × List Glyph :=
  let (word, rest) := readWord glyphs
  if startsWith '!' rest then ("!" ++ word ++ "!", rest.drop 1) else ("!" ++ word, rest)

def uriMarks : List Char := ";/?:@&=+$.%!~*'()".toList

def verbatimMarks : List Char := [',', '[', ']']

def isUriChar (isVerbatim : Bool) (c : Char) : Bool :=
  isWordChar c || uriMarks.contains c || (isVerbatim && verbatimMarks.contains c)

/-- The bytes of a text in which a percent sign begins the two digits of a byte. -/
def unescapeUri : List Char → Option (List UInt8)
  | [] => some []
  | '%' :: a :: b :: rest => do
    return UInt8.ofNat ((← hexValue? a) * 16 + (← hexValue? b)) :: (← unescapeUri rest)
  | c :: rest => do
    if c == '%' then none else return Text.encode (String.singleton c) ++ (← unescapeUri rest)

def readUri (isVerbatim : Bool) (glyphs : List Glyph) : Option (String × List Glyph) := do
  let (uri, rest) := glyphs.span fun glyph => isUriChar isVerbatim glyph.char
  return (← Text.decode? (← unescapeUri (uri.map Glyph.char)), rest)

/-- Reads a tag after its mark of exclamation: its handle and what follows the handle. -/
def readTag (inFlow : Bool) (glyphs : List Glyph) : Option (Token × List Glyph) := do
  let (token, rest) ←
    if startsWith '<' glyphs then do
      let (uri, rest) ← readUri true (glyphs.drop 1)
      if uri.isEmpty || !startsWith '>' rest then none
      else return (Token.tag "" uri, rest.drop 1)
    else do
      let (handle, rest) := readHandle glyphs
      if handle.length > 1 && handle.endsWith "!" then
        let (suffix, rest) ← readUri false rest
        if suffix.isEmpty then none else return (Token.tag handle suffix, rest)
      else
        let (more, rest) ← readUri false rest
        let suffix := String.ofList (handle.toList.drop 1) ++ more
        return (if suffix.isEmpty then Token.tag "" "!" else Token.tag "!" suffix, rest)
  if atWordEnd rest || (inFlow && startsWith ',' rest) then return (token, rest) else none

def readVersionPart (glyphs : List Glyph) : Option (Nat × List Glyph) :=
  let (digits, rest) := glyphs.span fun glyph => glyph.char.isDigit
  if digits.isEmpty || digits.length > 9 then none
  else
    some (digits.foldl (fun n glyph => n * 10 + (glyph.char.toNat - '0'.toNat)) 0, rest)

def dropBlanks (glyphs : List Glyph) : List Glyph :=
  glyphs.dropWhile fun glyph => isBlank glyph.char

def readDirective (glyphs : List Glyph) : Option (Token × List Glyph) := do
  let (name, rest) := readWord glyphs
  if !atWordEnd rest then none
  else
    let (token, rest) ←
      match name with
      | "YAML" => do
        let (major, rest) ← readVersionPart (dropBlanks rest)
        if !startsWith '.' rest then none
        else
          let (minor, rest) ← readVersionPart (rest.drop 1)
          return (Token.versionDirective major minor, rest)
      | "TAG" => do
        let rest := dropBlanks rest
        if !startsWith '!' rest then none
        else
          let (handle, rest) := readHandle (rest.drop 1)
          if (handle != "!" && !(handle.length > 1 && handle.endsWith "!")) ||
              atLineEnd rest || !atWordEnd rest then none
          else
            let (target, rest) ← readUri true (dropBlanks rest)
            if target.isEmpty || !atWordEnd rest then none
            else return (Token.tagDirective handle target, rest)
      | _ => none
    return (token, ← readLineEnd rest)

/-- The characters that a plain scalar does not begin with, or not always. -/
def indicators : List Char :=
  ['-', '?', ':', ',', '[', ']', '\x7b', '\x7d', '#', '&', '*', '!', '|', '>', '\'', '"', '%',
    '@', '\x60']

def beginsPlain (inFlow : Bool) (glyph : Glyph) (rest : List Glyph) : Bool :=
  (!isBlank glyph.char && !indicators.contains glyph.char) ||
    (glyph.char == '-' && !(rest.head?.map fun next => isBlank next.char).getD false) ||
    (!inFlow && (glyph.char == '?' || glyph.char == ':') && !atWordEnd rest)

def addContent (scanner : Scanner) (glyph : Glyph) (read : Option (Token × List Glyph)) :
    Option (Scanner × List Glyph) := do
  let scanner ← scanner.saveCandidate glyph
  let (token, rest) ← read
  return ((scanner.allowKey false).push token, rest)

def addQuoted (scanner : Scanner) (glyph : Glyph) (rest : List Glyph) :
    Option (Scanner × List Glyph) :=
  scanner.addContent glyph do
    let (text, rest) ← readQuoted glyph.char .text [] {} rest
    return (.scalar .quoted (String.ofList text), rest)

def addPlain (scanner : Scanner) (glyph : Glyph) (rest : List Glyph) :
    Option (Scanner × List Glyph) := do
  let scanner ← scanner.saveCandidate glyph
  let (text, isBroken, rest) ←
    readPlain scanner.inFlow scanner.inner [] {} (glyph :: rest)
  return ((scanner.allowKey isBroken).push (.scalar .plain (String.ofList text)), rest)

def addBlock (scanner : Scanner) (isLiteral : Bool) (fuel : Nat) (rest : List Glyph) :
    Option (Scanner × List Glyph) := do
  let scanner ← scanner.dropCandidate
  let (text, rest) ← readBlock isLiteral scanner.inner fuel rest
  let style := if isLiteral then ScalarStyle.literal else .folded
  return ((scanner.allowKey true).push (.scalar style (String.ofList text)), rest)

def readToken (scanner : Scanner) (fuel : Nat) (glyph : Glyph) (rest : List Glyph) :
    Option (Scanner × List Glyph) := do
  let inFlow := scanner.inFlow
  let here := glyph :: rest
  if glyph.column == 0 && glyph.char == '%' then
    let scanner ← scanner.breakOff
    let (token, rest) ← readDirective rest
    return (scanner.push token, rest)
  else if atMarker '-' here then return ((← scanner.breakOff).push .documentStart, rest.drop 2)
  else if atMarker '.' here then return ((← scanner.breakOff).push .documentEnd, rest.drop 2)
  else if glyph.char == '[' then return (← scanner.openFlow glyph .flowSequenceStart, rest)
  else if glyph.char == '\x7b' then return (← scanner.openFlow glyph .flowMappingStart, rest)
  else if glyph.char == ']' then return (← scanner.closeFlow .flowSequenceEnd, rest)
  else if glyph.char == '\x7d' then return (← scanner.closeFlow .flowMappingEnd, rest)
  else if glyph.char == ',' then return (← scanner.addFlowEntry, rest)
  else if glyph.char == '-' && atWordEnd rest then return (← scanner.addBlockEntry glyph, rest)
  else if glyph.char == '?' && (inFlow || atWordEnd rest) then
    return (← scanner.addKey glyph, rest)
  else if glyph.char == ':' && (inFlow || atWordEnd rest) then
    return (← scanner.addValue glyph, rest)
  else if glyph.char == '*' then
    scanner.addContent glyph ((readAnchor rest).map fun (name, rest) => (.alias name, rest))
  else if glyph.char == '&' then
    scanner.addContent glyph ((readAnchor rest).map fun (name, rest) => (.anchor name, rest))
  else if glyph.char == '!' then scanner.addContent glyph (readTag inFlow rest)
  else if glyph.char == '|' && !inFlow then scanner.addBlock true fuel rest
  else if glyph.char == '>' && !inFlow then scanner.addBlock false fuel rest
  else if glyph.char == '\'' || glyph.char == '"' then scanner.addQuoted glyph rest
  else if beginsPlain inFlow glyph rest then scanner.addPlain glyph rest
  else none

def readTokens : (fuel : Nat) → Scanner → List Glyph → Option (List Token)
  | 0, _, _ => none
  | fuel + 1, scanner, glyphs => do
    let (allowsKey, glyphs) := skipToToken scanner.inFlow scanner.allowsKey false glyphs
    let scanner := scanner.allowKey allowsKey
    match glyphs with
    | [] => return (← (scanner.closeBlocks none).dropCandidate).tokens.toList
    | glyph :: rest =>
      let scanner ← scanner.dropStale glyph
      let (scanner, rest) ← (scanner.closeBlocks (some glyph.column)).readToken (fuel + 1) glyph rest
      readTokens fuel scanner rest

end Scanner

def Token.ofText? (text : String) : Option (List Token) := do
  let glyphs ← Glyph.ofText? text
  Scanner.readTokens (glyphs.length + 1) {} glyphs

end ArtifactGate.Yaml
