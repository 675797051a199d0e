import ArtifactGate.Fault
import ArtifactGate.Proofs.Text.Numerals
import Mathlib.Data.List.Infix

/-!
The status of a fault that is passed on inside of others. What a fault is wrapped in puts a text before its message,
and no such text holds or begins the word that tells a conflict, so the status tells what went wrong first.
-/
namespace ArtifactGate.Fault

/-- The calls that are attempted more than once. -/
inductive Retried
  | metadata
  | content
  deriving DecidableEq, Repr, Inhabited

def Retried.operation : Retried → String
  | .metadata => "get metadata"
  | .content => "get content"

/-- What a fault is passed on in. -/
inductive Wrapping
  | retriesExhausted (retried : Retried) (attempts : Nat)
  | uploadFailed
  deriving DecidableEq, Repr, Inhabited

namespace Wrapping

variable (wrapping : Wrapping) (fault : Fault)

def apply : Wrapping → Fault → Fault
  | .retriesExhausted retried attempts, fault => .retriesExhausted retried.operation attempts fault
  | .uploadFailed, fault => .uploadFailed fault

/-- What stands before the message of the fault inside. -/
def preface : Wrapping → String
  | .retriesExhausted retried attempts =>
    retried.operation ++ " failed after " ++ toString attempts ++ " attempts: "
  | .uploadFailed => "upload failed: "

theorem message_apply : (wrapping.apply fault).message = wrapping.preface ++ fault.message := by
  cases wrapping <;> rfl

theorem statusCode_apply : (wrapping.apply fault).statusCode = statusOfMessage (wrapping.apply fault).message := by
  cases wrapping <;> rfl

theorem capital_not_mem_preface : 'C' ∉ wrapping.preface.toList := by
  cases wrapping with
  | uploadFailed => decide
  | retriesExhausted retried attempts =>
      have operation : 'C' ∉ retried.operation.toList := by cases retried <;> decide
      have numeral : 'C' ∉ (toString attempts).toList := fun member =>
        absurd (Text.isDigit_of_mem_digits (Text.toList_toString attempts ▸ member)) (by decide)
      simp only [preface, String.toList_append, List.mem_append, not_or]
      exact ⟨⟨⟨operation, by decide⟩, numeral⟩, by decide⟩

theorem statusOfMessage_apply : statusOfMessage (wrapping.apply fault).message = statusOfMessage fault.message := by
  have occurs : Text.occursIn conflictWord.toList (wrapping.preface.toList ++ fault.message.toList) =
      Text.occursIn conflictWord.toList fault.message.toList :=
    Text.occursIn_append wrapping.capital_not_mem_preface _
  rw [statusOfMessage, statusOfMessage, message_apply, String.toList_append]
  exact congrArg (fun conflict => if conflict = true then 409 else 500) occurs

end Wrapping

/-- The fault inside of all of these, the first of which is the outermost. -/
def wrap (wrappings : List Wrapping) (fault : Fault) : Fault :=
  wrappings.foldr Wrapping.apply fault

theorem statusOfMessage_wrap (wrappings : List Wrapping) (fault : Fault) :
    statusOfMessage (wrap wrappings fault).message = statusOfMessage fault.message := by
  induction wrappings with
  | nil => rfl
  | cons wrapping wrappings ih => exact (wrapping.statusOfMessage_apply _).trans ih

theorem statusOfMessage_eq (text : String) :
    statusOfMessage text = if "Conflict".toList <:+: text.toList then 409 else 500 := by
  rw [statusOfMessage, conflictWord]
  simp only [Text.occursIn_iff]

/-- However deep a fault is wrapped and in what order, the status tells whether its own message tells of a
conflict. -/
theorem status_seen_through (fault : Fault) (outermost : Wrapping) (inner : List Wrapping) :
    (wrap (outermost :: inner) fault).statusCode =
        (if "Conflict".toList <:+: fault.message.toList then 409 else 500) ∧
      ∀ (other : Wrapping) (others : List Wrapping),
        (wrap (other :: others) fault).statusCode = (wrap (outermost :: inner) fault).statusCode := by
  have told (outermost : Wrapping) (inner : List Wrapping) :
      (wrap (outermost :: inner) fault).statusCode = statusOfMessage fault.message :=
    (outermost.statusCode_apply _).trans (statusOfMessage_wrap (outermost :: inner) fault)
  refine ⟨?_, fun other others => ?_⟩
  · rw [told, statusOfMessage_eq]
  · rw [told, told]

/-- On its own a fault may have a status by its kind, whatever it is about. -/
example :
    (notFound "libs/Conflict").statusCode = 404 ∧ (uploadFailed (notFound "libs/Conflict")).statusCode = 409 := by
  decide +kernel

end ArtifactGate.Fault
