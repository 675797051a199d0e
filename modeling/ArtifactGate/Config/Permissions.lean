import ArtifactGate.Json.Basic

/-!
Who may read and write a repository. Neither right stands in for the other, and a repository that the
table does not name denies both. As a JSON document the table is an object of repositories, each with
the users that may read and those that may write it.
-/
namespace ArtifactGate

inductive Access
  | read
  | write
  deriving DecidableEq, Repr, Inhabited

/-- Decides about a repository, a user and an access. It is asked anew at every check. -/
abbrev Authorizer := String → String → Access → Bool

/-- The users that may read and those that may write. -/
structure Grants where
  read : List String := []
  write : List String := []
  deriving DecidableEq, Repr, Inhabited

namespace Grants

def fieldNames : List String := ["read", "write"]

def anyUser : String := "*"

def users (grants : Grants) : Access → List String
  | .read => grants.read
  | .write => grants.write

def allow (grants : Grants) (user : String) (access : Access) : Bool :=
  (grants.users access).any fun entry => entry == anyUser || entry == user

end Grants

abbrev PermissionTable := SortedMap String Grants

def PermissionTable.authorizer (table : PermissionTable) : Authorizer :=
  fun repository user access =>
    match table.get? repository with
    | some grants => grants.allow user access
    | none => false

def Grants.ofJson? (json : Json) : Option Grants := do
  match ← json.fields? Grants.fieldNames 0 with
  | [read, write] =>
    let users := Json.fieldOr [] (Json.asList? Json.asText?)
    return { read := ← users read, write := ← users write }
  | _ => none

def PermissionTable.ofJson? (json : Json) : Option PermissionTable :=
  json.asMap? Grants.ofJson?

end ArtifactGate
