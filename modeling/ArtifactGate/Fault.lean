import ArtifactGate.Text.Split

/-!
What can go wrong, by cause. `message` words a fault for the client, `retryable` says whether another
attempt could help, and `statusCode` is what the access log shows for it.
-/
namespace ArtifactGate

inductive Fault
  | notFound (item : String)
  | readDenied (item : String)
  | writeDenied (item : String)
  | protocol (reason : String)
  | unsupportedOffset (offset : Nat)
  | peer (text : String)
  | remote (status text : String)
  | retriesExhausted (operation : String) (attempts : Nat) (last : Fault)
  | uploadFailed (cause : Fault)
  | uploadRejected (reason : String)
  | cancelled
  | config (problems : String)
  | io (reason : String)
  | http (reason : String)
  | json (reason : String)
  deriving DecidableEq, Repr, Inhabited

namespace Fault

def message : Fault → String
  | .notFound item => item ++ ": no such file or directory"
  | .readDenied item => item ++ ": read permission denied"
  | .writeDenied item => item ++ ": write permission denied"
  | .protocol reason => "protocol error: " ++ reason
  | .unsupportedOffset offset => "offset " ++ toString offset ++ " is not supported when writing"
  | .peer text => "client reported an error: " ++ text
  | .remote status text => "remote store returned " ++ status ++ ": " ++ text
  | .retriesExhausted operation attempts last =>
    operation ++ " failed after " ++ toString attempts ++ " attempts: " ++ last.message
  | .uploadFailed cause => "upload failed: " ++ cause.message
  | .uploadRejected reason => "upload rejected: " ++ reason
  | .cancelled => "transfer cancelled"
  | .config problems => "invalid configuration:\n" ++ problems
  | .io reason => "IO error: " ++ reason
  | .http reason => "HTTP error: " ++ reason
  | .json reason => "JSON error: " ++ reason

/-- Answers about permission and existence are final, and so are the client's own mistakes;
everything else may pass. -/
def retryable : Fault → Bool
  | .notFound _ | .readDenied _ | .writeDenied _ | .protocol _ | .unsupportedOffset _
  | .cancelled => false
  | _ => true

def isNotFound : Fault → Bool
  | .notFound _ => true
  | _ => false

def conflictWord : String := "Conflict"

def statusOfMessage (text : String) : Nat :=
  if Text.occursIn conflictWord.toList text.toList then 409 else 500

def statusCode : Fault → Nat
  | .notFound _ => 404
  | .readDenied _ | .writeDenied _ => 403
  | .protocol _ | .unsupportedOffset _ => 400
  | fault => statusOfMessage fault.message

end Fault

end ArtifactGate
