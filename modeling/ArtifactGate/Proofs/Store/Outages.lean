import ArtifactGate.Proofs.Live

/-!
A store that cannot be reached now and then. What is asked for in an outage fails in a way that may pass and
does not come to the store. A call whose attempts do not all fail has the answer that it has without the
outages.
-/
namespace ArtifactGate

/-- Which of the attempts to get metadata or content meet an outage, counted from the first one. -/
structure Outages where
  fault? : Nat → Option Fault
  pass : ∀ attempt fault, fault? attempt = some fault → fault.retryable = true

/-- A store behind outages, with the attempts made so far: whether each of them failed in a way that may
pass. -/
structure Faltering (σ : Type) where
  store : σ
  outages : Outages
  failed : List Bool := []

namespace Faltering

variable {α σ : Type}

/-- Makes an attempt, which comes to the store unless there is an outage. -/
def attempt (call : σ → Except Fault α × σ) (faltering : Faltering σ) : Except Fault α × Faltering σ :=
  match faltering.outages.fault? faltering.failed.length with
  | some fault => (.error fault, { faltering with failed := faltering.failed ++ [true] })
  | none =>
    let (answer, store) := call faltering.store
    (answer, { faltering with store, failed := faltering.failed ++ [mayPass answer] })

/-- What was asked of the store leaves the outages as they are. -/
def through (faltering : Faltering σ) (result : α × σ) : α × Faltering σ :=
  (result.1, { faltering with store := result.2 })

instance [RemoteStore σ] : RemoteStore (Faltering σ) where
  metadata location := attempt (RemoteStore.metadata location)
  content location := attempt (RemoteStore.content location)
  openUpload location properties faltering :=
    faltering.through (RemoteStore.openUpload location properties faltering.store)
  admitUpload location properties faltering :=
    faltering.through (RemoteStore.admitUpload location properties faltering.store)
  storeBody location properties bytes faltering :=
    faltering.through (RemoteStore.storeBody location properties bytes faltering.store)
  dropAdmitted faltering := { faltering with store := RemoteStore.dropAdmitted faltering.store }
  listingDepth faltering := RemoteStore.listingDepth faltering.store

/-- An attempt fails in a way that may pass, or it is made on the store. -/
theorem attempt_cases (call : σ → Except Fault α × σ) (faltering : Faltering σ) :
    (∃ fault, fault.retryable = true ∧ faltering.attempt call =
        (.error fault, { faltering with failed := faltering.failed ++ [true] })) ∨
      faltering.attempt call = ((call faltering.store).1,
        { faltering with
          store := (call faltering.store).2
          failed := faltering.failed ++ [mayPass (call faltering.store).1] }) := by
  rw [attempt]
  split
  · rename_i fault met
    exact .inl ⟨fault, faltering.outages.pass _ fault met, rfl⟩
  · exact .inr rfl

/-- The induction is on the attempts that are left behind the outages; without them at least as many are
left, since no outage takes one away. -/
theorem attemptsFrom_store (operation : String) (call : StateM σ (Except Fault α)) (left : Nat) :
    ∀ (faltering : Faltering σ) (number other more : Nat), left ≤ more →
      let ran := RetryPolicy.attemptsFrom (m := StateM (Faltering σ)) operation (Pure.pure ())
        (attempt call) number left faltering
      ∃ made, ran.2.failed = faltering.failed ++ made ∧
        (made ≠ List.replicate (left + 1) true →
          RetryPolicy.attemptsFrom operation (Pure.pure ()) call other more faltering.store =
            (ran.1, ran.2.store)) := by
  induction left with
  | zero =>
      intro faltering number other more enough
      rw [Gateway.attemptsFrom_apply, Gateway.attemptsFrom_apply]
      rcases attempt_cases call faltering with ⟨fault, passes, met⟩ | reached
      · rw [met]
        exact ⟨[true], rfl, fun some => absurd rfl some⟩
      · rw [reached]
        rcases call faltering.store with ⟨fault | value, after⟩
        · refine ⟨[fault.retryable], rfl, fun some => ?_⟩
          have final : fault.retryable = false := by
            cases passes : fault.retryable with
            | false => rfl
            | true => exact absurd (congrArg ([·]) passes) some
          cases more <;> simp only [final, Bool.false_eq_true, if_false]
        · exact ⟨[false], rfl, fun _ => rfl⟩
  | succ left ih =>
      intro faltering number other more enough
      rw [Gateway.attemptsFrom_apply]
      rcases attempt_cases call faltering with ⟨fault, passes, met⟩ | reached
      · rw [met]
        simp only [passes, if_true]
        obtain ⟨made, failed, same⟩ :=
          ih { faltering with failed := faltering.failed ++ [true] } (number + 1) other more (by omega)
        refine ⟨true :: made, by rw [failed, List.append_assoc, List.singleton_append], fun some => ?_⟩
        exact same fun all => some (congrArg (true :: ·) all)
      · rw [reached, Gateway.attemptsFrom_apply]
        rcases call faltering.store with ⟨fault | value, after⟩
        · obtain ⟨rest, rfl⟩ : ∃ rest, more = rest + 1 := ⟨more - 1, by omega⟩
          cases passes : fault.retryable with
          | false =>
              simp only [mayPass, passes, Bool.false_eq_true, if_false]
              exact ⟨[false], rfl, fun _ => trivial⟩
          | true =>
              simp only [passes, if_true]
              obtain ⟨made, failed, same⟩ :=
                ih { faltering with store := after, failed := faltering.failed ++ [mayPass (.error (α := α) fault)] }
                  (number + 1) (other + 1) rest (by omega)
              refine ⟨true :: made, ?_, fun some => same fun all => some (congrArg (true :: ·) all)⟩
              rw [failed, mayPass, passes, List.append_assoc, List.singleton_append]
        · exact ⟨[false], rfl, fun _ => rfl⟩

end Faltering

end ArtifactGate
