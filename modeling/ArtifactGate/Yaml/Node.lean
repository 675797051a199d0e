import ArtifactGate.SortedMap
import ArtifactGate.Yaml.Token

/-!
A YAML document as a tree. An alias stays an alias: it has the number of the anchor that it means, and the
document knows the nodes of its anchors, so that a node may hold an alias of itself.
-/
namespace ArtifactGate.Yaml

inductive Node
  | scalar (style : ScalarStyle) (tag : Option String) (text : String)
  | sequence (items : List Node)
  | mapping (entries : List (Node × Node))
  | alias (number : Nat)
  deriving Repr, Inhabited

def Node.nothing : Node := .scalar .plain none ""

/-- A node with an anchor: the anchor's number, and how many events came before the node. -/
structure Anchored where
  number : Nat
  start : Nat
  node : Node
  deriving Repr, Inhabited

structure Document where
  root : Node
  anchored : List Anchored
  /-- The number of scalars and aliases, and of beginnings and ends of collections. -/
  events : Nat
  deriving Repr, Inhabited

/-- The node that an alias means: of several with its number the last to begin. -/
def Document.resolve (document : Document) (number : Nat) : Option Node :=
  let candidates := document.anchored.filter fun anchored => anchored.number = number
  (candidates.foldl (fun (best : Option Anchored) anchored =>
    match best with
    | some other => if other.start < anchored.start then some anchored else best
    | none => some anchored) none).map Anchored.node

/-- The tokens that are left, and what is known of the document so far. -/
structure Builder where
  tokens : List Token
  handles : List (String × String) := [("!", "!"), ("!!", "tag:yaml.org,2002:")]
  /-- The numbers of the anchors; a name that is used again has the number of its last use. -/
  anchors : SortedMap String Nat := .empty
  anchored : List Anchored := []
  events : Nat := 0
  deriving Inhabited

abbrev Build := StateT Builder Option

namespace Build

def peek : Build (Option Token) := return (← get).tokens.head?

def skip : Build Unit := modify fun builder => { builder with tokens := builder.tokens.tail }

/-- Whether the next token is one of these, or there is none where `atEnd` allows it. -/
def isNext (tokens : List Token) : Build Bool := do
  return ((← peek).map tokens.contains).getD false

def expect (token : Token) : Build Unit := do
  if ← isNext [token] then skip else failure

def countEvents (count : Nat) : Build Unit :=
  modify fun builder => { builder with events := builder.events + count }

/-- What may stand before a node: an anchor and a tag. -/
structure Properties where
  anchor : Option String := none
  tag : Option String := none

def Properties.isEmpty (properties : Properties) : Bool :=
  properties.anchor.isNone && properties.tag.isNone

def resolveTag (handle suffix : String) : Build String := do
  if handle.isEmpty then return suffix
  else
    match (← get).handles.lookup handle with
    | some target => return target ++ suffix
    | none => failure

def properties : Build Properties := do
  match ← peek with
  | some (.anchor name) =>
    skip
    match ← peek with
    | some (.tag handle suffix) =>
      skip
      return { anchor := some name, tag := some (← resolveTag handle suffix) }
    | _ => return { anchor := some name }
  | some (.tag handle suffix) =>
    skip
    match ← peek with
    | some (.anchor name) =>
      skip
      return { anchor := some name, tag := some (← resolveTag handle suffix) }
    | _ => return { tag := some (← resolveTag handle suffix) }
  | _ => return {}

def declare (name : String) : Build Nat := do
  let builder ← get
  let number := builder.anchors.entries.length
  set { builder with anchors := builder.anchors.insert name number }
  return number

/-- Builds a node, which begins and ends with an event unless it is a scalar, and keeps it for the
aliases of its anchor. -/
def anchoring (anchor : Option String) (isCollection : Bool) (build : Build Node) : Build Node := do
  let start := (← get).events
  countEvents 1
  match anchor with
  | none =>
    let node ← build
    countEvents (if isCollection then 1 else 0)
    return node
  | some name =>
    let number ← declare name
    let node ← build
    countEvents (if isCollection then 1 else 0)
    modify fun builder =>
      { builder with anchored := { number, start, node } :: builder.anchored }
    return node

def nothing : Build Node := do
  countEvents 1
  return .nothing

mutual

/-- A node. In a block it may be a collection made by indentation; `openList` says that it may also
be a list at the indentation of the mapping around it. -/
def node : (fuel : Nat) → (inBlock openList : Bool) → Build Node
  | 0, _, _ => failure
  | fuel + 1, inBlock, openList => do
    match ← peek with
    | some (.alias name) =>
      skip
      countEvents 1
      match (← get).anchors.get? name with
      | some number => return .alias number
      | none => failure
    | _ =>
      let properties ← properties
      match ← peek with
      | some .blockEntry =>
        if openList then
          anchoring properties.anchor true do return .sequence (← openItems fuel)
        else unwritten properties
      | some (.scalar style text) =>
        skip
        anchoring properties.anchor false do return .scalar style properties.tag text
      | some .flowSequenceStart =>
        skip
        anchoring properties.anchor true do return .sequence (← flowItems fuel true)
      | some .flowMappingStart =>
        skip
        anchoring properties.anchor true do return .mapping (← flowEntries fuel true)
      | some .blockSequenceStart =>
        if inBlock then
          skip
          anchoring properties.anchor true do return .sequence (← blockItems fuel)
        else unwritten properties
      | some .blockMappingStart =>
        if inBlock then
          skip
          anchoring properties.anchor true do return .mapping (← blockEntries fuel)
        else unwritten properties
      | _ => unwritten properties
where
  unwritten (properties : Properties) : Build Node :=
    if properties.isEmpty then failure
    else anchoring properties.anchor false do return .scalar .plain properties.tag ""

def nodeBefore (ends : List Token) : (fuel : Nat) → (inBlock openList : Bool) → Build Node
  | 0, _, _ => failure
  | fuel + 1, inBlock, openList => do
    if ← isNext ends then nothing else node fuel inBlock openList

def blockItems : (fuel : Nat) → Build (List Node)
  | 0 => failure
  | fuel + 1 => do
    match ← peek with
    | some .blockEntry =>
      skip
      let item ← nodeBefore [.blockEntry, .blockEnd] fuel true false
      return item :: (← blockItems fuel)
    | some .blockEnd =>
      skip
      return []
    | _ => failure

/-- The items of a list at the indentation of the mapping around it. -/
def openItems : (fuel : Nat) → Build (List Node)
  | 0 => failure
  | fuel + 1 => do
    match ← peek with
    | some .blockEntry =>
      skip
      let item ← nodeBefore [.blockEntry, .key, .value, .blockEnd] fuel true false
      return item :: (← openItems fuel)
    | _ => return []

def blockEntries : (fuel : Nat) → Build (List (Node × Node))
  | 0 => failure
  | fuel + 1 => do
    match ← peek with
    | some .key =>
      skip
      let key ← nodeBefore [.key, .value, .blockEnd] fuel true true
      let value ← valueBefore [.key, .value, .blockEnd] fuel true
      return (key, value) :: (← blockEntries fuel)
    | some .blockEnd =>
      skip
      return []
    | _ => failure

/-- The value after a colon, if there is one; before one of these tokens it is not written. -/
def valueBefore (ends : List Token) : (fuel : Nat) → (inBlock : Bool) → Build Node
  | 0, _ => failure
  | fuel + 1, inBlock => do
    if ← isNext [.value] then
      skip
      nodeBefore ends fuel inBlock inBlock
    else nothing

def flowItems : (fuel : Nat) → (isFirst : Bool) → Build (List Node)
  | 0, _ => failure
  | fuel + 1, isFirst => do
    if ← isNext [.flowSequenceEnd] then
      skip
      return []
    else
      if !isFirst then expect .flowEntry
      match ← peek with
      | some .flowSequenceEnd =>
        skip
        return []
      | some .key =>
        skip
        let item ← anchoring none true do return .mapping [← flowPair fuel]
        return item :: (← flowItems fuel false)
      | _ =>
        let item ← node fuel false false
        return item :: (← flowItems fuel false)

/-- A mapping of one entry that stands in a list without brackets of its own. A key that is not written
takes the place of the token that shows it. -/
def flowPair : (fuel : Nat) → Build (Node × Node)
  | 0 => failure
  | fuel + 1 => do
    let key ←
      if ← isNext [.value, .flowEntry, .flowSequenceEnd] then
        skip
        nothing
      else node fuel false false
    return (key, ← valueBefore [.flowEntry, .flowSequenceEnd] fuel false)

/-- The entries of a mapping in braces, and its closing brace. A key may stand alone. -/
def flowEntries : (fuel : Nat) → (isFirst : Bool) → Build (List (Node × Node))
  | 0, _ => failure
  | fuel + 1, isFirst => do
    if ← isNext [.flowMappingEnd] then
      skip
      return []
    else
      if !isFirst then expect .flowEntry
      match ← peek with
      | some .flowMappingEnd =>
        skip
        return []
      | some .key =>
        skip
        let key ← nodeBefore [.value, .flowEntry, .flowMappingEnd] fuel false false
        let value ← valueBefore [.flowEntry, .flowMappingEnd] fuel false
        return (key, value) :: (← flowEntries fuel false)
      | _ =>
        let key ← node fuel false false
        let value ← nothing
        return (key, value) :: (← flowEntries fuel false)

end

def isDirective : Token → Bool
  | .versionDirective _ _ | .tagDirective _ _ => true
  | _ => false

def isKnownVersion (major minor : Nat) : Bool :=
  major == 1 && (minor == 1 || minor == 2)

/-- Takes directives. The version stands once, and a handle of a tag has one meaning. -/
def directives (hasVersion : Bool) (declared : List String) : List Token → Build Unit
  | .versionDirective major minor :: rest => do
    if hasVersion || !isKnownVersion major minor then failure
    else
      skip
      directives true declared rest
  | .tagDirective handle target :: rest => do
    if declared.contains handle then failure
    else
      skip
      modify fun builder => { builder with handles := (handle, target) :: builder.handles }
      directives hasVersion (handle :: declared) rest
  | _ => pure ()

def skipEnds : List Token → Build Unit
  | .documentEnd :: rest => do
    skip
    skipEnds rest
  | _ => pure ()

/-- The root of the document that begins here. The first one may begin without a mark. -/
def root (fuel : Nat) : Build Node := do
  let tokens := (← get).tokens
  match tokens with
  | [] => return .nothing
  | first :: _ =>
    if isDirective first || first == .documentStart then
      directives false [] tokens
      expect .documentStart
      match ← peek with
      | none => nothing
      | some next =>
        if isDirective next || next == .documentStart || next == .documentEnd then nothing
        else node fuel true false
    else node fuel true false

/-- The only document of a stream. A stream with nothing in it holds an empty document. -/
def stream (fuel : Nat) : Build Document := do
  let root ← root fuel
  skipEnds (← get).tokens
  let builder ← get
  if builder.tokens.isEmpty then
    return { root, anchored := builder.anchored, events := builder.events }
  else failure

end Build

/-- The only document of a text. A node is at most three calls away from the one around it, and there are
at most two nodes to a token. -/
def Document.ofText? (text : String) : Option Document := do
  let tokens ← Token.ofText? text
  return (← (Build.stream (6 * tokens.length + 6)).run { tokens }).1

end ArtifactGate.Yaml
