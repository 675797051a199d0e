import ArtifactGate.Text.Numeral
import ArtifactGate.SortedMap

/-!
JSON documents, and reading typed values out of them. A field that is read must have the type that is
asked for; what nobody reads may be anything.
-/
namespace ArtifactGate

/-- A document. A string whose bytes or escapes make no text is a string with nothing in it. A number is
its numeral. -/
inductive Json
  | null
  | bool (value : Bool)
  | number (numeral : List Char)
  | string (text : Option String)
  | array (items : List Json)
  | object (fields : List (Option String × Json))
  deriving Repr, Inhabited

namespace Json

def asText? : Json → Option String
  | .string text => text
  | _ => none

def asBool? : Json → Option Bool
  | .bool value => some value
  | _ => none

def asNat? (bound : Nat) : Json → Option Nat
  | .number numeral => (Text.readDigits numeral).filter (· < bound)
  | _ => none

def asList? {α : Type} (read : Json → Option α) : Json → Option (List α)
  | .array items => items.mapM read
  | _ => none

def orNull? {α : Type} (read : Json → Option α) : Json → Option (Option α)
  | .null => some none
  | json => (read json).map some

def asMap? {α : Type} (read : Json → Option α) : Json → Option (SortedMap String α)
  | .object fields =>
    let readField (field : Option String × Json) : Option (String × α) := do
      return (← field.1, ← read field.2)
    (fields.mapM readField).map SortedMap.ofList
  | _ => none

/-- The values of the named fields. A field stands at most once in an object, which may have others
too; a list has the values of the first fields in their order, of `least` fields at least. -/
def fields? (names : List String) (least : Nat) : Json → Option (List (Option Json))
  | .array items =>
    if least ≤ items.length && items.length ≤ names.length then
      some (items.map some ++ List.replicate (names.length - items.length) none)
    else none
  | .object fields =>
    let standsOnce (name : String) : Bool :=
      (fields.filter fun field => field.1 == some name).length ≤ 1
    if fields.all (fun field => field.1.isSome) && names.all standsOnce then
      some (names.map fun name => fields.lookup (some name))
    else none
  | _ => none

def fieldOr {α : Type} (default : α) (read : Json → Option α) : Option Json → Option α
  | none => some default
  | some json => read json

end Json

end ArtifactGate
