import ArtifactGate.Retry
import Mathlib.Data.ENat.Lattice

/-!
A call that is repeated. It is made until an answer cannot pass, or until no attempt is left: the first such
answer is the answer, and without one the last fault is wrapped. Between two attempts there is one pause, and
none after the last.
-/
namespace ArtifactGate

/-- The answer is a failure that may pass. -/
def mayPass {α : Type} : Except Fault α → Bool
  | .error fault => fault.retryable
  | .ok _ => false

/-- What is done in the course of a call. -/
inductive RetryEvent
  | attempt
  | pause (delay : Nat)
  deriving DecidableEq, Repr, Inhabited

namespace RetryEvent

/-- Makes the next attempt; the n-th one has the n-th of the outcomes. -/
def attempting {α : Type} (outcomes : Nat → Except Fault α) : StateM (List RetryEvent) (Except Fault α) :=
  fun events => (outcomes (events.count .attempt), events ++ [.attempt])

def pausing (delay : Nat) : StateM (List RetryEvent) Unit :=
  fun events => ((), events ++ [.pause delay])

end RetryEvent

namespace RetryPolicy

section Attempts

variable {α σ : Type} (operation : String) (pause : StateM σ Unit) (call : StateM σ (Except Fault α))

/-- The state after an attempt and the pause that follows it. -/
def next (state : σ) : σ :=
  (pause (call state).2).2

/-- What a call comes to whose last attempt is the one numbered `attempts`. -/
def conclude (attempts : Nat) : Except Fault α → Except Fault α
  | .error fault => .error (if fault.retryable then .retriesExhausted operation attempts fault else fault)
  | .ok value => .ok value

theorem conclude_of_final {answer : Except Fault α} (final : mayPass answer = false) (attempts : Nat) :
    conclude operation attempts answer = answer := by
  cases answer with
  | ok value => rfl
  | error fault => exact congrArg Except.error (if_neg (Bool.eq_false_iff.1 final))

theorem conclude_of_mayPass {answer : Except Fault α} (passes : mayPass answer = true) (attempts : Nat) :
    ∃ last, answer = .error last ∧
      conclude operation attempts answer = .error (.retriesExhausted operation attempts last) := by
  cases answer with
  | ok value => cases passes
  | error fault => exact ⟨fault, rfl, congrArg Except.error (if_pos passes)⟩

theorem retryable_of_conclude {answer : Except Fault α} {attempts number : Nat} {name : String} {last : Fault}
    (wrapped : conclude operation attempts answer = .error (.retriesExhausted name number last)) :
    last.retryable = true := by
  cases passes : mayPass answer with
  | true =>
      obtain ⟨fault, rfl, concluded⟩ := conclude_of_mayPass operation passes attempts
      cases concluded.symm.trans wrapped
      exact passes
  | false =>
      rw [conclude_of_final operation passes] at wrapped
      rw [wrapped] at passes
      cases passes

theorem attemptsFrom_apply (attempt left : Nat) (state : σ) :
    attemptsFrom operation pause call attempt left state =
      match left with
      | 0 => (conclude operation attempt (call state).1, (call state).2)
      | left + 1 =>
        if mayPass (call state).1 then
          attemptsFrom operation pause call (attempt + 1) left (next pause call state)
        else call state := by
  rw [next]
  rcases called : call state with ⟨fault | value, after⟩ <;> cases left <;>
    rw [attemptsFrom] <;> simp only [bind, StateT.bind, called, mayPass, conclude]
  · cases fault.retryable <;> rfl
  · by_cases passes : fault.retryable = true
    · simp only [passes, Bool.not_true, Bool.false_eq_true, if_false, if_true]
      rfl
    · simp only [passes, Bool.not_false, Bool.false_eq_true, if_false, if_true]
      rfl
  · rfl
  · rfl

/-- Attempts are made up to the first whose answer cannot pass, or up to the last that is left. -/
theorem attemptsFrom_eq {last left : Nat} (attempt : Nat) {state : σ} (enough : last ≤ left)
    (before : ∀ earlier < last, mayPass (call ((next pause call)^[earlier] state)).1 = true)
    (ends : mayPass (call ((next pause call)^[last] state)).1 = false ∨ last = left) :
    attemptsFrom operation pause call attempt left state =
      (conclude operation (attempt + left) (call ((next pause call)^[last] state)).1,
        (call ((next pause call)^[last] state)).2) := by
  induction last generalizing attempt left state with
  | zero =>
      rw [attemptsFrom_apply]
      cases left with
      | zero => rfl
      | succ left =>
          have final : mayPass (call state).1 = false := ends.resolve_right nofun
          simp only [final, Bool.false_eq_true, if_false]
          exact Prod.ext (conclude_of_final operation final _).symm rfl
  | succ last ih =>
      obtain ⟨left, rfl⟩ : ∃ more, left = more + 1 := ⟨left - 1, by omega⟩
      have passes : mayPass (call state).1 = true := before 0 last.succ_pos
      rw [attemptsFrom_apply]
      simp only [passes, if_true]
      rw [ih (attempt + 1) (Nat.le_of_succ_le_succ enough)
        (fun earlier less => before (earlier + 1) (Nat.succ_lt_succ less))
        (ends.imp_right Nat.succ.inj), Nat.add_assoc, Nat.add_comm 1 left]
      rfl

end Attempts

/-- The attempts that a policy allows. -/
def bound (policy : RetryPolicy) : Nat := max 1 policy.attempts

/-- The attempt of this number, counted from zero, is the last of a call that has these outcomes. -/
structure IsLast {α : Type} (policy : RetryPolicy) (outcomes : Nat → Except Fault α) (last : Nat) : Prop where
  within : last < policy.bound
  before : ∀ earlier < last, mayPass (outcomes earlier) = true
  ends : mayPass (outcomes last) = false ∨ last + 1 = policy.bound

/-- Where the first outcome stands that cannot pass, counted from one. -/
noncomputable def firstFinal {α : Type} (outcomes : Nat → Except Fault α) : ℕ∞ :=
  ⨅ (position : ℕ) (_ : mayPass (outcomes position) = false), ((position + 1 : ℕ) : ℕ∞)

section Outcomes

variable {α : Type} {policy : RetryPolicy} {outcomes : Nat → Except Fault α} {last : Nat}

theorem firstFinal_le (final : mayPass (outcomes last) = false) : firstFinal outcomes ≤ (last + 1 : ℕ) :=
  iInf₂_le last final

theorem le_firstFinal {count : Nat} (before : ∀ earlier < count, mayPass (outcomes earlier) = true) :
    ((count + 1 : ℕ) : ℕ∞) ≤ firstFinal outcomes := by
  refine le_iInf₂ fun position final => ?_
  have late : count ≤ position := by
    refine Nat.not_lt.1 fun early => ?_
    rw [before position early] at final
    cases final
  exact Nat.cast_le.2 (Nat.succ_le_succ late)

theorem exists_isLast (policy : RetryPolicy) (outcomes : Nat → Except Fault α) :
    ∃ last, policy.IsLast outcomes last := by
  have some : 0 < policy.bound := Nat.lt_of_lt_of_le Nat.one_pos (Nat.le_max_left 1 policy.attempts)
  have ending : ∃ last, mayPass (outcomes last) = false ∨ last + 1 = policy.bound :=
    ⟨policy.bound - 1, .inr (Nat.sub_add_cancel some)⟩
  refine ⟨Nat.find ending, ?_, fun earlier less => ?_, Nat.find_spec ending⟩
  · have early : Nat.find ending ≤ policy.bound - 1 := Nat.find_le (.inr (Nat.sub_add_cancel some))
    omega
  · exact Bool.not_eq_false _ ▸ fun final => Nat.find_min ending less (.inl final)

namespace IsLast

variable (isLast : policy.IsLast outcomes last)
include isLast

theorem eq_min : ((last + 1 : ℕ) : ℕ∞) = min (firstFinal outcomes) policy.bound := by
  refine le_antisymm (le_min (le_firstFinal isLast.before) (Nat.cast_le.2 isLast.within)) ?_
  rcases isLast.ends with final | full
  · exact min_le_of_left_le (firstFinal_le final)
  · exact min_le_of_right_le (Nat.cast_le.2 full.ge)

theorem final (early : firstFinal outcomes ≤ policy.bound) : mayPass (outcomes last) = false := by
  rcases isLast.ends with final | full
  · exact final
  · refine Bool.not_eq_true _ ▸ fun passes => ?_
    have late : ((last + 1 + 1 : ℕ) : ℕ∞) ≤ firstFinal outcomes := by
      refine le_firstFinal fun earlier less => ?_
      rcases Nat.lt_succ_iff_lt_or_eq.1 less with less | rfl
      · exact isLast.before earlier less
      · exact passes
    have beyond := Nat.cast_le.1 (late.trans early)
    omega

theorem passes (late : policy.bound < firstFinal outcomes) : mayPass (outcomes last) = true := by
  refine Bool.not_eq_false _ ▸ fun final => ?_
  have early : firstFinal outcomes ≤ policy.bound := (firstFinal_le final).trans (Nat.cast_le.2 isLast.within)
  exact absurd early late.not_ge

end IsLast

end Outcomes

section Execution

variable {α σ : Type} {outcomes : Nat → Except Fault α} {last : Nat}

/-- What is done between two attempts. -/
def between (policy : RetryPolicy) (pause : Nat → StateM σ Unit) : StateM σ Unit :=
  if policy.delay = 0 then Pure.pure () else pause policy.delay

/-- A call whose attempts have these outcomes in turn ends with the last one. -/
theorem execute_eq {policy : RetryPolicy} (isLast : policy.IsLast outcomes last) (operation : String)
    {pause : Nat → StateM σ Unit} {call : StateM σ (Except Fault α)} {state : σ}
    (answers : ∀ number, (call ((next (policy.between pause) call)^[number] state)).1 = outcomes number) :
    (policy.execute operation pause call).run state =
      (conclude operation policy.bound (outcomes last),
        (call ((next (policy.between pause) call)^[last] state)).2) := by
  have within := isLast.within
  have enough : last ≤ policy.bound - 1 := by omega
  have counted : 1 + (policy.bound - 1) = policy.bound := by omega
  have before (earlier : Nat) (less : earlier < last) :
      mayPass (call ((next (policy.between pause) call)^[earlier] state)).1 = true := by
    rw [answers]
    exact isLast.before earlier less
  have ends : mayPass (call ((next (policy.between pause) call)^[last] state)).1 = false ∨
      last = policy.bound - 1 := by
    rw [answers]
    exact isLast.ends.imp_right Nat.eq_sub_of_add_eq
  have ran := attemptsFrom_eq operation _ call 1 enough before ends
  rw [answers, counted] at ran
  exact ran

/-- Makes a call whose outcomes are given, and records what is done. -/
def record (policy : RetryPolicy) (operation : String) (outcomes : Nat → Except Fault α) :
    Except Fault α × List RetryEvent :=
  (policy.execute operation RetryEvent.pausing (RetryEvent.attempting outcomes)).run []

/-- What is recorded between two attempts. There is no pause of no length. -/
def pauses (policy : RetryPolicy) : List RetryEvent :=
  if policy.delay = 0 then [] else [.pause policy.delay]

theorem iterate_record (policy : RetryPolicy) (outcomes : Nat → Except Fault α) (count : Nat) :
    (next (policy.between RetryEvent.pausing) (RetryEvent.attempting outcomes))^[count] [] =
      (List.replicate count (.attempt :: policy.pauses)).flatten := by
  have goesOn (events : List RetryEvent) :
      next (policy.between RetryEvent.pausing) (RetryEvent.attempting outcomes) events =
        events ++ .attempt :: policy.pauses := by
    rw [next, between, pauses]
    split
    · rfl
    · exact List.append_assoc events [.attempt] [.pause policy.delay]
  induction count with
  | zero => rfl
  | succ count ih =>
      rw [Function.iterate_succ_apply', goesOn, ih, List.replicate_succ', List.flatten_append,
        List.flatten_singleton]

theorem count_replicate (policy : RetryPolicy) (count : Nat) :
    (List.replicate count (.attempt :: policy.pauses)).flatten.count .attempt = count := by
  have silent : policy.pauses.count .attempt = 0 := by
    rw [pauses]
    split <;> rfl
  induction count with
  | zero => rfl
  | succ count ih => rw [List.replicate_succ, List.flatten_cons, List.count_append, ih, List.count_cons_self, silent,
      Nat.zero_add, Nat.add_comm]

theorem intercalate_replicate {event : RetryEvent} (pauses : List RetryEvent) (count : Nat) :
    List.intercalate pauses (List.replicate (count + 1) [event]) =
      (List.replicate count (event :: pauses)).flatten ++ [event] := by
  induction count with
  | zero => rfl
  | succ count ih =>
      rw [List.replicate_succ, List.replicate_succ, List.intercalate_cons_cons, ← List.replicate_succ, ih]
      simp [List.replicate_succ]

theorem record_eq {policy : RetryPolicy} (isLast : policy.IsLast outcomes last) (operation : String) :
    policy.record operation outcomes =
      (conclude operation policy.bound (outcomes last),
        List.intercalate policy.pauses (List.replicate (last + 1) [.attempt])) := by
  rw [record, execute_eq isLast operation fun number => ?_]
  · rw [intercalate_replicate, ← iterate_record policy outcomes]
    rfl
  · rw [iterate_record]
    exact congrArg outcomes (policy.count_replicate number)

theorem iterate_cost (policy : RetryPolicy) (outcomes : Nat → Except Fault α) (count : Nat) :
    (next (policy.between RetryCost.pause) (RetryCost.call outcomes))^[count] {} =
      ⟨count, policy.delay * count⟩ := by
  induction count with
  | zero => rfl
  | succ count ih =>
      rw [Function.iterate_succ_apply', ih, next, between]
      split
      · rename_i none
        rw [none, Nat.zero_mul, Nat.zero_mul]
        rfl
      · rfl

theorem tally_eq {policy : RetryPolicy} (isLast : policy.IsLast outcomes last) (operation : String) :
    policy.tally operation outcomes =
      (conclude operation policy.bound (outcomes last), ⟨last + 1, policy.delay * last⟩) := by
  rw [tally, execute_eq isLast operation fun number => ?_]
  · rw [iterate_cost]
    rfl
  · rw [iterate_cost]
    rfl

/-- A call is repeated up to the first outcome that cannot pass, within the attempts of the policy. If there is
one, it is the answer; otherwise the last fault is, wrapped with the number of attempts. So what is wrapped may
pass: it is never an answer about existence or permission. Between two attempts there is the pause of the policy,
and none before the first or after the last. -/
theorem execute_exact (policy : RetryPolicy) (operation : String) (outcomes : Nat → Except Fault α) :
    let bound := max 1 policy.attempts
    let made := policy.record operation outcomes
    let calls := made.2.count .attempt
    (calls : ℕ∞) = min (firstFinal outcomes) bound ∧
      (firstFinal outcomes ≤ bound → made.1 = outcomes (calls - 1)) ∧
      (bound < firstFinal outcomes → calls = bound ∧ ∃ last, outcomes (calls - 1) = .error last ∧
        made.1 = .error (.retriesExhausted operation bound last)) ∧
      (∀ name attempts last, made.1 = .error (.retriesExhausted name attempts last) → last.retryable = true ∧
        ∀ item, last ≠ .notFound item ∧ last ≠ .readDenied item ∧ last ≠ .writeDenied item) ∧
      made.2 = List.intercalate policy.pauses (List.replicate calls [.attempt]) ∧
      policy.tally operation outcomes = (made.1, ⟨calls, policy.delay * (calls - 1)⟩) := by
  obtain ⟨last, isLast⟩ := exists_isLast policy outcomes
  have counted : (policy.record operation outcomes).2.count .attempt = last + 1 := by
    rw [record_eq isLast, intercalate_replicate, List.count_append, count_replicate]
    rfl
  intro bound made calls
  rw [show calls = last + 1 from counted, show made = _ from record_eq isLast operation, Nat.add_sub_cancel]
  refine ⟨isLast.eq_min, fun early => ?_, fun late => ?_, fun name attempts fault wrapped => ?_, rfl,
    tally_eq isLast operation⟩
  · exact conclude_of_final operation (isLast.final early) bound
  · have passes := isLast.passes late
    have full : last + 1 = bound := isLast.ends.resolve_left (Bool.not_eq_false _ ▸ passes)
    exact ⟨full, conclude_of_mayPass operation passes bound⟩
  · have passes := retryable_of_conclude operation wrapped
    refine ⟨passes, fun item => ⟨?_, ?_, ?_⟩⟩ <;> rintro rfl <;> cases passes

/-- Three attempts that all fail, and the two pauses between them. -/
example : ({ attempts := 3, delay := 100 } : RetryPolicy).record "get" (fun _ => .error (.io "reset")) =
    ((.error (.retriesExhausted "get" 3 (.io "reset")) : Except Fault Unit),
      [.attempt, .pause 100, .attempt, .pause 100, .attempt]) := by cbv

end Execution

end RetryPolicy

end ArtifactGate
