import ArtifactGate.Proofs.Session.Targets
import ArtifactGate.Session.Sender

/-!
What a path of a download leads to: the node there, or the nodes below a directory that match a pattern. What holds
of a node that is found, and is passed on by every directory that is listed, holds of all of them.
-/
namespace ArtifactGate

variable {possible : (effect : Effect) → effect.Answer → Prop} {allowed : Effect → Prop}
  {listed taken : Node → Prop}

/-- What is listed passes on to its children what holds of all that is taken up, and that can be listed too. The
listing asks for what is allowed. -/
structure Inherits (possible : (effect : Effect) → effect.Answer → Prop) (allowed : Effect → Prop)
    (listed taken : Node → Prop) : Prop where
  children : ∀ node, listed node →
    node.children.Heeds possible allowed fun children => ∀ child ∈ children, taken child
  listed : ∀ node, taken node → listed node
  depth : allowed .listingDepth
  diverges : allowed .diverge

namespace Glob

abbrev AllTaken (taken : Node → Prop) (candidates : List Candidate) : Prop :=
  ∀ candidate ∈ candidates, taken candidate.node

theorem below_takes (inherits : Inherits possible allowed listed taken) {candidate : Candidate}
    (first : taken candidate.node) : (below candidate).Heeds possible allowed (AllTaken taken) := by
  apply Action.Heeds.bind (inherits.children _ (inherits.listed _ first))
  intro children all
  exact List.forall_mem_map.2 all

theorem belowAll_takes (inherits : Inherits possible allowed listed taken) {candidates : List Candidate}
    (all : AllTaken taken candidates) : (belowAll candidates).Heeds possible allowed (AllTaken taken) := by
  induction candidates with
  | nil => exact List.forall_mem_nil _
  | cons candidate rest ih =>
      obtain ⟨first, others⟩ := List.forall_mem_cons.1 all
      apply Action.Heeds.bind (below_takes inherits first)
      intro children found
      exact Action.Heeds.bind (ih others) fun more also => List.forall_mem_append.2 ⟨found, also⟩

theorem search_takes (inherits : Inherits possible allowed listed taken) (pattern : Pattern) (recursive endless : Bool)
    (more : Nat) {level : List Candidate} (all : AllTaken taken level) :
    (search pattern recursive endless more level).Heeds possible allowed (AllTaken taken) := by
  have filtered (level : List Candidate) (all : AllTaken taken level) (keep : Candidate → Bool) :
      AllTaken taken (level.filter keep) :=
    fun candidate member => all candidate (List.mem_filter.1 member).1
  induction more generalizing level with
  | zero =>
      rw [search]
      split
      · exact filtered level all _
      · split
        · exact ⟨inherits.diverges, fun answer _ => answer.elim⟩
        · exact filtered level all _
  | succ more ih =>
      rw [search]
      split
      · exact filtered level all _
      · apply Action.Heeds.bind (belowAll_takes inherits (filtered level all _))
        intro next below
        exact Action.Heeds.bind (ih below) fun found also => List.forall_mem_append.2 ⟨filtered level all _, also⟩

theorem scan_takes (inherits : Inherits possible allowed listed taken) {base : Node} (first : listed base)
    (text : String)
    (recursive : Bool) :
    Complies possible allowed (fun nodes => ∀ node ∈ nodes, taken node) (scan base text recursive) := by
  rw [scan]
  cases Pattern.parse text with
  | error flaw => exact Complies.throw
  | ok pattern =>
      apply Complies.bind (Complies.lift (inherits.children base first))
      intro children all
      have level : AllTaken taken (children.map fun node => ⟨node.name, node⟩) := List.forall_mem_map.2 all
      have sorted (results : List Candidate) (found : AllTaken taken results) :
          ∀ node ∈ (sortResults results).map Candidate.node, taken node :=
        List.forall_mem_map.2 fun candidate member => found candidate (List.mem_mergeSort.1 member)
      cases levelLimit? text with
      | some limit =>
          apply Complies.bind (Complies.lift (search_takes inherits pattern recursive false _ level))
          exact fun results found => Complies.pure (sorted results found)
      | none =>
          have deep : (Action.request .listingDepth >>= fun depth =>
              search pattern recursive true depth _).Heeds possible allowed (AllTaken taken) :=
            ⟨inherits.depth, fun depth _ => search_takes inherits pattern recursive true depth level⟩
          apply Complies.bind (Complies.lift deep)
          exact fun results found => Complies.pure (sorted results found)

end Glob

/-- What a command's path leads to is taken up: the node there, or what a pattern finds below its base. -/
theorem Sender.nodesOf_takes (inherits : Inherits possible allowed listed taken) (transfer : Transfer) {path : String}
    (here : ¬Glob.hasGlob path = true → Complies possible allowed taken
      (Node.resolve transfer.login.user path))
    (base : Glob.hasGlob path = true → Complies possible allowed listed
      (Node.resolve transfer.login.user (Glob.splitPattern path).1)) :
    Complies possible allowed (fun nodes => ∀ node ∈ nodes, taken node) (nodesOf transfer path) := by
  rw [nodesOf]
  refine Complies.ite (fun glob => ?_) fun plain => ?_
  · apply Complies.bind (base glob)
    intro directory first
    apply Complies.bind (Glob.scan_takes inherits first (Glob.splitPattern path).2 transfer.command.recursive)
    intro nodes all
    cases nodes with
    | nil => exact Complies.throw
    | cons node rest => exact Complies.pure all
  · exact Complies.bind (here plain) fun node first => Complies.pure (List.forall_mem_singleton.2 first)

end ArtifactGate
