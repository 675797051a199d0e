import ArtifactGate.Calendar.Rfc3339
import ArtifactGate.Fault
import ArtifactGate.Json.Parse
import ArtifactGate.Text.Split

/-!
How a server describes an item: a JSON object of its repository, its path, three times, its size, its url
and, for a directory, what it holds.
-/
namespace ArtifactGate.Http

def itemFields : List String :=
  ["repo", "path", "created", "lastModified", "lastUpdated", "size", "uri", "children"]

def entryFields : List String := ["uri", "folder"]

def readMoment? (json : Json) : Option Instant :=
  json.asText?.bind Calendar.readMoment

/-- A size is a number or a text; a text that is no number means nothing. -/
def readSize? : Json → Option Nat
  | .string text => text.map fun text => (Text.readNat Text.nat64Bound (Text.trim text)).getD 0
  | json => json.asNat? Text.nat64Bound

/-- An item that a directory holds is named by the url it has below the directory. -/
def readEntry? (json : Json) : Option Entry := do
  match ← json.fields? entryFields 1 with
  | [uri, folder] =>
    let uri ← (← uri).asText?
    let isFolder ← Json.fieldOr false Json.asBool? folder
    return { name := String.ofList (uri.toList.dropWhile Location.isSlash), isFolder }
  | _ => none

/-- What a description says. An item that has a list of what it holds is a directory, even if the list
is empty. The repository that was asked stands in for one that is not named, the path for a url. -/
def readItem? (repository : String) (json : Json) : Option Metadata := do
  match ← json.fields? itemFields itemFields.length with
  | [repo, path, created, modified, updated, size, uri, children] =>
    let repo ← Json.fieldOr "" Json.asText? repo
    let path ← Json.fieldOr "" Json.asText? path
    let uri ← Json.fieldOr "" Json.asText? uri
    let entries ← Json.fieldOr none (Json.orNull? (Json.asList? readEntry?)) children
    return {
      kind := if entries.isSome then .directory else .file
      size := (← Json.fieldOr none (Json.orNull? readSize?) size).getD 0
      created := ← Json.fieldOr none (Json.orNull? readMoment?) created
      modified := ← Json.fieldOr none (Json.orNull? readMoment?) modified
      updated := ← Json.fieldOr none (Json.orNull? readMoment?) updated
      uri := if uri.isEmpty then path else uri
      repository := if repo.isEmpty then repository else repo
      entries := entries.getD [] }
  | _ => none

def itemInfo (repository : String) (body : List UInt8) : Except Fault Metadata :=
  match (Json.parse? body).bind (readItem? repository) with
  | some metadata => .ok metadata
  | none => .error (.json "the description of an item cannot be read")

end ArtifactGate.Http
