import ArtifactGate.Fault
import ArtifactGate.Location

/-!
One line of the access log: a transfer that was completed or that failed.
-/
namespace ArtifactGate

inductive Method
  | get
  | put
  deriving DecidableEq, Repr, Inhabited

def Method.display : Method → String
  | .get => "GET"
  | .put => "PUT"

def Method.successStatus : Method → Nat
  | .get => 200
  | .put => 201

structure AccessRecord where
  user : String
  address : String
  method : Method
  location : Location
  size : Nat
  status : Nat
  exitValue : Nat
  deriving DecidableEq, Repr, Inhabited

end ArtifactGate
