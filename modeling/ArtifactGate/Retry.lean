import ArtifactGate.Fault

/-!
Repeating a call to the remote store. A call is repeated while it fails in a way that may pass and
attempts are left; the first other outcome is the answer.
-/
namespace ArtifactGate

/-- How many attempts a call has in all, and the pause between two of them in milliseconds. -/
structure RetryPolicy where
  attempts : Nat := 5
  delay : Nat := 0
  deriving DecidableEq, Repr, Inhabited

namespace RetryPolicy

variable {m : Type → Type} [Monad m] {α : Type}

/-- The attempts from the one numbered `attempt` on, with `left` more after it. -/
def attemptsFrom (operation : String) (pause : m Unit) (call : m (Except Fault α)) :
    (attempt left : Nat) → m (Except Fault α)
  | attempt, left => do
    match ← call with
    | .ok value => return .ok value
    | .error fault =>
      if !fault.retryable then return .error fault
      else
        match left with
        | 0 => return .error (.retriesExhausted operation attempt fault)
        | left + 1 =>
          pause
          attemptsFrom operation pause call (attempt + 1) left

/-- Makes a call under the policy; there is always a first attempt. -/
def execute (policy : RetryPolicy) (operation : String) (pause : Nat → m Unit)
    (call : m (Except Fault α)) : m (Except Fault α) :=
  attemptsFrom operation (if policy.delay = 0 then Pure.pure () else pause policy.delay) call 1
    (max 1 policy.attempts - 1)

end RetryPolicy

/-- What repeating a call costs: the calls made and the milliseconds paused. -/
structure RetryCost where
  calls : Nat := 0
  paused : Nat := 0
  deriving DecidableEq, Repr, Inhabited

namespace RetryCost

/-- Makes the next call; the n-th call has the n-th of the outcomes. -/
def call {α : Type} (outcomes : Nat → Except Fault α) : StateM RetryCost (Except Fault α) :=
  fun cost => (outcomes cost.calls, { cost with calls := cost.calls + 1 })

def pause (delay : Nat) : StateM RetryCost Unit :=
  fun cost => ((), { cost with paused := cost.paused + delay })

end RetryCost

/-- Makes a call whose outcomes are given, and counts what it costs. -/
def RetryPolicy.tally {α : Type} (policy : RetryPolicy) (operation : String)
    (outcomes : Nat → Except Fault α) : Except Fault α × RetryCost :=
  (policy.execute operation RetryCost.pause (RetryCost.call outcomes)).run {}

end ArtifactGate
