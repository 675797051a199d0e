import ArtifactGate.Text.Numeral
import ArtifactGate.Yaml.Node

/-!
Reading typed values out of a YAML document. What a value is follows from what is read: a plain scalar is
a text where a text is wanted and a number where a number is, and one that is empty is also an empty
list, an empty map or nothing.
-/
namespace ArtifactGate.Yaml

/-- A reader knows the document and counts the aliases it has followed. -/
abbrev Reading := ReaderT Document (StateT Nat Option)

namespace Reading

def aliasesPerEvent : Nat := 100

def follow : Node → Reading Node
  | .alias number => do
    let document ← read
    modify (· + 1)
    if (← get) > document.events * aliasesPerEvent then failure
    else
      match document.resolve number with
      | some node => return node
      | none => failure
  | node => return node

def isNothing : Node → Bool
  | .scalar .plain _ text => text.isEmpty
  | _ => false

def text (node : Node) : Reading String := do
  match ← follow node with
  | .scalar _ _ text => return text
  | _ => failure

def nullTag : String := "tag:yaml.org,2002:null"

def intTag : String := "tag:yaml.org,2002:int"

def nulls : List String := ["null", "Null", "NULL", "~"]

def optional {α : Type} (read : Node → Reading α) (node : Node) : Reading (Option α) := do
  match ← follow node with
  | .scalar .plain none text =>
    if text.isEmpty || nulls.contains text then return none
    else return some (← read (.scalar .plain none text))
  | .scalar .plain (some tag) text =>
    if tag == nullTag then
      if nulls.contains text then return none else failure
    else return some (← read (.scalar .plain (some tag) text))
  | node => return some (← read node)

def digit? (base : Nat) (c : Char) : Option Nat :=
  (hexValue? c).filter (· < base)

def digits? (base : Nat) : List Char → Option Nat
  | [] => none
  | digits =>
    digits.foldl (fun value c => do return (← value) * base + (← digit? base c)) (some 0)

def bases : List (Char × Nat) := [('x', 16), ('o', 8), ('b', 2)]

/-- A natural number below `bound`, after a plus sign or none. A decimal number has no needless zero
before it. -/
def readNumeral (bound : Nat) (numeral : List Char) : Option Nat :=
  let unsigned :=
    match numeral with
    | '+' :: rest => rest
    | _ => numeral
  let value :=
    match unsigned with
    | '0' :: mark :: rest =>
      match bases.lookup mark with
      | some base => digits? base rest
      | none => none
    | _ => digits? 10 unsigned
  value.filter (· < bound)

def isNumberStyle : ScalarStyle → Option String → Bool
  | .plain, _ => true
  | .literal, some tag => tag == intTag
  | _, _ => false

def nat (bound : Nat) (node : Node) : Reading Nat := do
  match ← follow node with
  | .scalar style tag text =>
    match isNumberStyle style tag, readNumeral bound text.toList with
    | true, some value => return value
    | _, _ => failure
  | _ => failure

def list {α : Type} (read : Node → Reading α) (node : Node) : Reading (List α) := do
  match ← follow node with
  | .sequence items => items.mapM read
  | node => if isNothing node then return [] else failure

def entries (node : Node) : Reading (List (String × Node)) := do
  match ← follow node with
  | .mapping entries => entries.mapM fun (key, value) => do return (← text key, value)
  | node => if isNothing node then return [] else failure

def map {α : Type} (read : Node → Reading α) (node : Node) : Reading (SortedMap String α) := do
  let values ← (← entries node).mapM fun (key, value) => do return (key, ← read value)
  return .ofList values

/-- The fields of a mapping, of which each of these names may stand once. -/
def fields (names : List String) (node : Node) : Reading (List (String × Node)) := do
  let fields ← entries node
  let standsOnce (name : String) : Bool :=
    (fields.filter fun field => field.1 == name).length ≤ 1
  if names.all standsOnce then return fields else failure

def fieldOr {α : Type} (default : α) (read : Node → Reading α) (name : String)
    (fields : List (String × Node)) : Reading α :=
  match fields.lookup name with
  | some node => read node
  | none => pure default

def run? {α : Type} (read : Node → Reading α) (document : Document) : Option α :=
  ((read document.root).run document 0).map Prod.fst

end Reading

end ArtifactGate.Yaml
