import ArtifactGate.Config.Basic
import ArtifactGate.Text.Utf8
import ArtifactGate.Yaml.Reading

/-!
A configuration as a YAML document. Fields that are missing have their defaults, and fields that mean
nothing are passed over.
-/
namespace ArtifactGate

open Yaml (Reading)

def Grants.ofYaml (node : Yaml.Node) : Reading Grants := do
  let fields ← Reading.fields Grants.fieldNames node
  let users := Reading.list Reading.text
  return {
    read := ← Reading.fieldOr [] users "read" fields
    write := ← Reading.fieldOr [] users "write" fields }

namespace Config

def fieldNames : List String :=
  ["store_url", "store_username", "store_password", "store_token", "retry_count",
    "client_cache_capacity", "upload_buffer_size", "max_concurrent_uploads", "env_properties",
    "permissions"]

def settingsOfYaml (fields : List (String × Yaml.Node)) : Reading Settings := do
  let standard : Settings := {}
  let long := Reading.nat Text.nat64Bound
  return {
    retries :=
      ← Reading.fieldOr standard.retries (Reading.nat Text.nat32Bound) "retry_count" fields
    clientCapacity :=
      ← Reading.fieldOr standard.clientCapacity long "client_cache_capacity" fields
    uploadBuffer := ← Reading.fieldOr standard.uploadBuffer long "upload_buffer_size" fields
    uploadSlots := ← Reading.fieldOr standard.uploadSlots long "max_concurrent_uploads" fields
    environmentProperties :=
      ← Reading.fieldOr .empty (Reading.map Reading.text) "env_properties" fields }

def ofYaml (node : Yaml.Node) : Reading Config := do
  let fields ← Reading.fields fieldNames node
  let optional := Reading.fieldOr none (Reading.optional Reading.text)
  return {
    storeUrl := ← Reading.fieldOr "" Reading.text "store_url" fields
    storeUser := ← optional "store_username" fields
    storePassword := ← optional "store_password" fields
    storeToken := ← optional "store_token" fields
    settings := ← settingsOfYaml fields
    permissions := ← Reading.fieldOr .empty (Reading.map Grants.ofYaml) "permissions" fields }

/-- Why a configuration cannot be used. -/
inductive LoadError
  | unreadable
  | malformed
  | invalid (fault : Fault)
  deriving DecidableEq, Repr, Inhabited

def LoadError.message : LoadError → String
  | .unreadable => "Failed to read config"
  | .malformed => "Failed to parse YAML config"
  | .invalid fault => fault.message

def load (content : Option (List UInt8)) : Except LoadError Config :=
  match content.bind Text.decode? with
  | none => .error .unreadable
  | some text =>
    match (Yaml.Document.ofText? text).bind (Reading.run? ofYaml) with
    | none => .error .malformed
    | some config => config.validate.mapError .invalid

end Config

end ArtifactGate
