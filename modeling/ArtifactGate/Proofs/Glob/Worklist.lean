import ArtifactGate.Proofs.Glob.Levels
import Mathlib.Logic.Function.Iterate

/-!
A search as a loop over a worklist. Candidates are taken from its front and what their directories list is put at its
end, so the loop goes through one level after the other: where it comes to an end, it has found what a search by levels
finds.
-/
namespace ArtifactGate

namespace Glob

/-- The candidates that the loop has still to look at, each with its depth, and those that it has found. -/
structure Worklist where
  pending : List (Candidate × Nat)
  found : List Candidate := []

namespace Worklist

/-- What a directory lists, before the first turn. -/
def start (base : Node) : Action Worklist := do
  let children ← base.children
  return { pending := children.map fun node => (⟨node.name, node⟩, 1) }

/-- One turn of the loop. A directory is listed where the depth is below the limit, if there is one. -/
def turn (pattern : Pattern) (recursive : Bool) (limit : Option Nat) (work : Worklist) : Action Worklist :=
  match work.pending with
  | [] => return work
  | (candidate, depth) :: rest =>
    if selects pattern recursive candidate then
      return { pending := rest, found := work.found ++ [candidate] }
    else if candidate.node.isDirectory && limit.all fun limit => depth < limit then do
      let children ← below candidate
      return { work with pending := rest ++ children.map fun child => (child, depth + 1) }
    else return { work with pending := rest }

def turns (pattern : Pattern) (recursive : Bool) (limit : Option Nat) : Nat → Worklist → Action Worklist
  | 0, work => return work
  | count + 1, work => do turns pattern recursive limit count (← work.turn pattern recursive limit)

section Steps

variable (expand : Candidate → List Candidate) (pattern : Pattern) (recursive : Bool) (limit : Option Nat)

/-- A turn when it is known what every candidate's directory lists. -/
def step (work : Worklist) : Worklist :=
  match work.pending with
  | [] => work
  | (candidate, depth) :: rest =>
    if selects pattern recursive candidate then { pending := rest, found := work.found ++ [candidate] }
    else if candidate.node.isDirectory && limit.all fun limit => depth < limit then
      { work with pending := rest ++ (expand candidate).map fun child => (child, depth + 1) }
    else { work with pending := rest }

/-- The worklist with the rest of a level and what has been listed of the next one. -/
def between (depth : Nat) (level following found : List Candidate) : Worklist :=
  { pending := level.map (fun candidate => (candidate, depth)) ++
      following.map fun candidate => (candidate, depth + 1)
    found }

variable {expand : Candidate → List Candidate} {pattern : Pattern} {recursive : Bool} {limit : Option Nat}
  {level : List Candidate}

theorem next_cons (candidate : Candidate) (level : List Candidate) :
    next expand pattern recursive (candidate :: level) =
      (if opens pattern recursive candidate then expand candidate else []) ++ next expand pattern recursive level := by
  rw [next, List.filter_cons]
  split <;> rfl

theorem step_between (candidate : Candidate) (depth : Nat) (level following found : List Candidate) :
    step expand pattern recursive limit (between depth (candidate :: level) following found) =
      between depth level
        (following ++ if opens pattern recursive candidate && limit.all fun limit => depth < limit then
          expand candidate else [])
        (found ++ if selects pattern recursive candidate then [candidate] else []) := by
  have first : (between depth (candidate :: level) following found).pending =
      (candidate, depth) :: (between depth level following found).pending := rfl
  rw [step, first, opens]
  dsimp only
  cases selected : selects pattern recursive candidate with
  | true => simp [between]
  | false =>
      cases listed : candidate.node.isDirectory && limit.all fun limit => depth < limit with
      | true => simp [between, listed]
      | false => simp [between, listed]

/-- As many turns as a level has candidates look at the whole level. -/
theorem step_level (depth : Nat) (level following found : List Candidate) :
    (step expand pattern recursive limit)^[level.length] (between depth level following found) =
      between depth [] (following ++
          if limit.all fun limit => depth < limit then next expand pattern recursive level else [])
        (found ++ level.filter (selects pattern recursive)) := by
  induction level generalizing following found with
  | nil =>
      have none : next expand pattern recursive [] = [] := rfl
      rw [none, ite_self, List.append_nil, List.filter_nil, List.append_nil]
      rfl
  | cons candidate level ih =>
      rw [List.length_cons, Function.iterate_succ_apply, step_between, ih, next_cons, List.filter_cons,
        List.append_assoc, List.append_assoc]
      congr 2
      · cases limit.all fun limit => depth < limit <;> simp
      · split <;> rfl

theorem between_nil (depth : Nat) (following found : List Candidate) :
    between depth [] following found = between (depth + 1) following [] found := by
  rw [between, between, List.map_nil, List.map_nil, List.nil_append, List.append_nil]

/-- The loop comes to its end where a search by levels does, and has found the same. -/
theorem step_results {more depth : Nat} (found : List Candidate) (limited : ∀ most ∈ limit, more = most - depth)
    (spent : limit = none → (levels expand pattern recursive more level).filter (opens pattern recursive) = []) :
    ∃ count, (step expand pattern recursive limit)^[count] (between depth level [] found) =
      { pending := [], found := found ++ results expand pattern recursive more level } := by
  induction more generalizing depth level found with
  | zero =>
      refine ⟨level.length, ?_⟩
      have nothing : (if limit.all fun limit => depth < limit then next expand pattern recursive level else []) =
          [] := by
        cases limit with
        | none =>
            have closed : next expand pattern recursive level = [] := next_of_closed (spent rfl)
            rw [closed, ite_self]
        | some most =>
            have reached : ¬depth < most := by
              have exhausted := limited most rfl
              omega
            rw [Option.all_some, if_neg (by rwa [decide_eq_true_eq])]
      rw [step_level, nothing]
      rfl
  | succ more ih =>
      have goesOn : limit.all (fun limit => depth < limit) = true := by
        cases limit with
        | none => rfl
        | some most =>
            have left := limited most rfl
            rw [Option.all_some, decide_eq_true_eq]
            omega
      obtain ⟨count, ended⟩ := @ih (next expand pattern recursive level) (depth + 1)
        (found ++ level.filter (selects pattern recursive)) (fun most same => by
          have left := limited most same
          omega) spent
      refine ⟨count + level.length, ?_⟩
      rw [Function.iterate_add_apply, step_level, goesOn, if_pos rfl, List.nil_append, between_nil, ended,
        List.append_assoc]
      rfl

end Steps

section Running

variable {live : Live MemoryStore} {pattern : Pattern} {recursive : Bool} {limit : Option Nat}

theorem yields_start (reliable : live.gateway.store.failuresPending = 0) (base : Node) :
    live.Yields (start base) fun work after =>
      work = between 1 (outermost live.gateway base) [] [] ∧ live.Asks [] [] after := by
  refine (live.yields_children reliable base).bind fun children after valid => Live.Yields.pure ⟨?_, valid.2⟩
  rw [valid.1, between, outermost, List.map_map, List.map_nil, List.append_nil]
  rfl

theorem yields_turn (reliable : live.gateway.store.failuresPending = 0) (work : Worklist) :
    live.Yields (work.turn pattern recursive limit) fun next after =>
      next = work.step (inside live.gateway) pattern recursive limit ∧ live.Asks [] [] after := by
  rw [turn, step]
  split
  · exact Live.Yields.pure ⟨rfl, .refl live⟩
  · split
    · exact Live.Yields.pure ⟨rfl, .refl live⟩
    · split
      · refine (yields_below reliable _).bind fun children after valid => Live.Yields.pure ⟨?_, valid.2⟩
        rw [valid.1]
      · exact Live.Yields.pure ⟨rfl, .refl live⟩

theorem yields_turns (reliable : live.gateway.store.failuresPending = 0) (count : Nat) (work : Worklist) :
    live.Yields (turns pattern recursive limit count work) fun last after =>
      last = (step (inside live.gateway) pattern recursive limit)^[count] work ∧ live.Asks [] [] after := by
  induction count generalizing live work with
  | zero => exact Live.Yields.pure ⟨rfl, .refl live⟩
  | succ count ih =>
      refine (yields_turn reliable work).bind ?_
      rintro _ middle ⟨rfl, asks⟩
      obtain ⟨_, after, ran, rfl, more⟩ := ih (asks.consulted.reliable reliable) _
      exact ⟨_, after, ran, by rw [inside_consulted asks.consulted, Function.iterate_succ_apply], asks.trans more⟩

end Running

end Worklist

end Glob

end ArtifactGate
