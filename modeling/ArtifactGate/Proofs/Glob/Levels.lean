import ArtifactGate.Glob.Scan
import ArtifactGate.Proofs.Session.Listing

/-!
A search by levels. Over a store that does not fail, what is listed below a node depends on the objects of the store
alone, so the levels of a search are known without running it; a search gives what is selected on each of them.
-/
namespace ArtifactGate

namespace Glob

def inside (gateway : Gateway MemoryStore) (candidate : Candidate) : List Candidate :=
  (gateway.listed candidate.node).map fun node => ⟨candidate.path ++ "/" ++ node.name, node⟩

/-- The candidates right below a directory that is searched. -/
def outermost (gateway : Gateway MemoryStore) (base : Node) : List Candidate :=
  (gateway.listed base).map fun node => ⟨node.name, node⟩

theorem inside_consulted {before after : Gateway MemoryStore} (consulted : before.Consulted after) :
    inside after = inside before := by
  funext candidate
  rw [inside, inside, consulted.listed]

section Levels

variable (expand : Candidate → List Candidate) (pattern : Pattern) (recursive : Bool)

/-- A candidate whose directory is searched: it is no result itself. -/
def opens (candidate : Candidate) : Bool :=
  !selects pattern recursive candidate && candidate.node.isDirectory

def next (level : List Candidate) : List Candidate :=
  (level.filter (opens pattern recursive)).flatMap expand

/-- The level so many steps further down. -/
def levels : Nat → List Candidate → List Candidate
  | 0, level => level
  | depth + 1, level => levels depth (next expand pattern recursive level)

/-- What is selected on a level and on so many more below it. -/
def results : Nat → List Candidate → List Candidate
  | 0, level => level.filter (selects pattern recursive)
  | more + 1, level =>
    level.filter (selects pattern recursive) ++ results more (next expand pattern recursive level)

variable {expand : Candidate → List Candidate} {pattern : Pattern} {recursive : Bool} {level : List Candidate}
  {candidate : Candidate}

theorem isDirectory_of_opens (opened : opens pattern recursive candidate = true) :
    selects pattern recursive candidate = false ∧ candidate.node.isDirectory = true := by
  rw [opens, Bool.and_eq_true, Bool.not_eq_true'] at opened
  exact opened

theorem mem_next : candidate ∈ next expand pattern recursive level ↔
    ∃ above ∈ level, opens pattern recursive above = true ∧ candidate ∈ expand above := by
  simp only [next, List.mem_flatMap, List.mem_filter, and_assoc]

theorem next_of_closed (closed : level.filter (opens pattern recursive) = []) :
    next expand pattern recursive level = [] := by
  rw [next, closed, List.flatMap_nil]

theorem results_nil (more : Nat) : results expand pattern recursive more [] = [] := by
  induction more with
  | zero => rfl
  | succ more ih => exact ih

theorem levels_levels (more depth : Nat) (level : List Candidate) :
    levels expand pattern recursive more (levels expand pattern recursive depth level) =
      levels expand pattern recursive (depth + more) level := by
  induction depth generalizing level with
  | zero => rw [Nat.zero_add, levels]
  | succ depth ih =>
      rw [Nat.succ_add]
      exact ih (next expand pattern recursive level)

theorem levels_succ (depth : Nat) (level : List Candidate) :
    levels expand pattern recursive (depth + 1) level =
      next expand pattern recursive (levels expand pattern recursive depth level) :=
  (levels_levels 1 depth level).symm

theorem mem_results {more : Nat} : candidate ∈ results expand pattern recursive more level ↔
    (∃ depth ≤ more, candidate ∈ levels expand pattern recursive depth level) ∧
      selects pattern recursive candidate = true := by
  induction more generalizing level with
  | zero => simp only [results, List.mem_filter, Nat.le_zero, exists_eq_left, levels]
  | succ more ih =>
      rw [results, List.mem_append, List.mem_filter, ih, ← or_and_right]
      refine and_congr_left fun _ => ?_
      constructor
      · rintro (here | ⟨depth, bounded, below⟩)
        · exact ⟨0, Nat.zero_le _, here⟩
        · exact ⟨depth + 1, Nat.succ_le_succ bounded, below⟩
      · rintro ⟨_ | depth, bounded, member⟩
        · exact .inl member
        · exact .inr ⟨depth, Nat.le_of_succ_le_succ bounded, member⟩

end Levels

section Searching

variable {live : Live MemoryStore} {pattern : Pattern} {recursive : Bool} {level : List Candidate}

theorem yields_below (reliable : live.gateway.store.failuresPending = 0) (candidate : Candidate) :
    live.Yields (below candidate) fun found after =>
      found = inside live.gateway candidate ∧ live.Asks [] [] after := by
  refine (live.yields_children reliable candidate.node).bind fun children after valid => Live.Yields.pure ?_
  exact ⟨valid.1 ▸ rfl, valid.2⟩

theorem yields_belowAll (reliable : live.gateway.store.failuresPending = 0) (candidates : List Candidate) :
    live.Yields (belowAll candidates) fun found after =>
      found = candidates.flatMap (inside live.gateway) ∧ live.Asks [] [] after := by
  induction candidates generalizing live with
  | nil => exact Live.Yields.pure ⟨rfl, .refl live⟩
  | cons candidate rest ih =>
      refine (yields_below reliable candidate).bind ?_
      rintro _ after ⟨rfl, asks⟩
      refine (ih (asks.consulted.reliable reliable)).bind ?_
      rintro _ last ⟨rfl, more⟩
      refine Live.Yields.pure ⟨?_, asks.trans more⟩
      rw [List.flatMap_cons, inside_consulted asks.consulted]

/-- A search gives what is selected on the levels it goes through. One without an end has to come to a level below
which there is nothing to search. -/
theorem yields_search (reliable : live.gateway.store.failuresPending = 0) {endless : Bool} {more : Nat}
    (spent : endless = true →
      (levels (inside live.gateway) pattern recursive more level).filter (opens pattern recursive) = []) :
    live.Yields (search pattern recursive endless more level) fun found after =>
      found = results (inside live.gateway) pattern recursive more level ∧ live.Asks [] [] after := by
  induction more generalizing live level with
  | zero =>
      rw [search]
      split
      · exact Live.Yields.pure ⟨rfl, .refl live⟩
      · rename_i some
        split
        · rename_i unending
          exact absurd (List.isEmpty_iff.2 (spent unending)) some
        · exact Live.Yields.pure ⟨rfl, .refl live⟩
  | succ more ih =>
      rw [search]
      split
      · rename_i none
        refine Live.Yields.pure ⟨?_, .refl live⟩
        rw [results, next_of_closed (List.isEmpty_iff.1 none), results_nil, List.append_nil]
      · refine (yields_belowAll reliable _).bind ?_
        rintro _ middle ⟨rfl, asks⟩
        have same := inside_consulted asks.consulted
        refine (ih (asks.consulted.reliable reliable) fun unending => ?_).bind ?_
        · rw [same]
          exact spent unending
        · rintro _ after ⟨rfl, more⟩
          refine Live.Yields.pure ⟨?_, asks.trans more⟩
          rw [same]
          rfl

/-- How many levels a scan goes through below the outermost. -/
def reach (store : MemoryStore) (text : String) : Nat :=
  match levelLimit? text with
  | some limit => limit - 1
  | none => store.listingDepth

theorem gives_scan (reliable : live.gateway.store.failuresPending = 0) {text : String}
    (parsed : Pattern.parse text = .ok pattern) (base : Node)
    (spent : levelLimit? text = none →
      (levels (inside live.gateway) pattern recursive live.gateway.store.listingDepth
        (outermost live.gateway base)).filter (opens pattern recursive) = []) :
    live.Gives (scan base text recursive) fun nodes after =>
      nodes = (sortResults (results (inside live.gateway) pattern recursive (reach live.gateway.store text)
        (outermost live.gateway base))).map Candidate.node ∧ live.Asks [] [] after := by
  rw [scan, parsed]
  refine (Live.Gives.lift (live.yields_children reliable base)).bind ?_
  rintro _ middle ⟨rfl, asks⟩
  have same := inside_consulted asks.consulted
  have steady := asks.consulted.reliable reliable
  have depth : middle.gateway.store.listingDepth = live.gateway.store.listingDepth := by
    obtain ⟨_, _, _, _, consulted⟩ := asks.consulted
    rw [consulted]
    rfl
  have found {endless : Bool} {more : Nat} (ends : endless = true →
        (levels (inside live.gateway) pattern recursive more (outermost live.gateway base)).filter
          (opens pattern recursive) = []) :
      middle.Gives (do
        let results ← liftM (search pattern recursive endless more (outermost live.gateway base))
        return (sortResults results).map Candidate.node : Attempt (List Node)) fun nodes after =>
        nodes = (sortResults (results (inside live.gateway) pattern recursive more
          (outermost live.gateway base))).map Candidate.node ∧ live.Asks [] [] after := by
    refine (Live.Gives.lift (yields_search steady (same.symm ▸ ends))).bind ?_
    rintro _ after ⟨rfl, more⟩
    exact Live.Gives.pure ⟨by rw [same], asks.trans more⟩
  rw [reach]
  cases limited : levelLimit? text with
  | some limit => exact found fun endless => absurd endless Bool.false_ne_true
  | none =>
      have listing : middle.Yields (Action.request .listingDepth) fun depth after =>
          depth = live.gateway.store.listingDepth ∧ after = middle := by
        refine ⟨_, middle, ?_, depth, rfl⟩
        rw [Live.run_request, Live.perform]
        rfl
      refine (Live.Gives.lift listing).bind ?_
      rintro _ _ ⟨rfl, rfl⟩
      exact found fun _ => spent limited

end Searching

end Glob

end ArtifactGate
