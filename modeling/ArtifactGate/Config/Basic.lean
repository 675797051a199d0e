import ArtifactGate.Gateway.Basic
import ArtifactGate.Http.Message
import ArtifactGate.Store.Http

/-!
The configuration of a gateway: where its store is and how to get in, the settings of the gateway itself,
and who may do what. A configuration is checked as a whole, and all that is wrong with it is told at
once.
-/
namespace ArtifactGate

structure Config where
  storeUrl : String := ""
  storeUser : Option String := none
  storePassword : Option String := none
  storeToken : Option String := none
  settings : Settings := {}
  permissions : PermissionTable := .empty
  deriving DecidableEq, Repr, Inhabited

namespace Config

def problemIf (condition : Bool) (text : String) : List String :=
  if condition then [text] else []

def urlSchemes : List String := ["http://", "https://"]

def hasScheme (url : String) : Bool :=
  urlSchemes.any fun scheme => scheme.toList.isPrefixOf url.toList

def urlProblems (url : String) : List String :=
  if url.isEmpty then ["`store_url` is not set"]
  else problemIf (!hasScheme url) ("`store_url` `" ++ url ++ "` must be an http:// or https:// url")

def countProblems (name : String) (count : Nat) : List String :=
  problemIf (count == 0) ("`" ++ name ++ "` must be at least 1")

def problems (config : Config) : List String :=
  urlProblems config.storeUrl ++
    problemIf (config.storeUser.isSome != config.storePassword.isSome)
      "`store_username` and `store_password` must be set together" ++
    countProblems "retry_count" config.settings.retries ++
    countProblems "client_cache_capacity" config.settings.clientCapacity ++
    countProblems "upload_buffer_size" config.settings.uploadBuffer ++
    countProblems "max_concurrent_uploads" config.settings.uploadSlots

def validate (config : Config) : Except Fault Config :=
  match config.problems with
  | [] => .ok config
  | problems => .error (.config ("\n".intercalate problems))

def credentials (config : Config) : Http.Credentials :=
  match config.storeToken, config.storeUser, config.storePassword with
  | some token, _, _ => .bearer token
  | none, some user, some password => .basic user password
  | _, _, _ => .anonymous

/-- The gateway that a configuration describes, over the way to its store. -/
def gateway (config : Config) (transport : Transport) (now : Instant) :
    Except Fault (Gateway HttpStore) := do
  let config ← config.validate
  let store := HttpStore.ofUrl config.storeUrl config.credentials transport
  return Gateway.new config.settings store config.permissions.authorizer now

end Config

end ArtifactGate
