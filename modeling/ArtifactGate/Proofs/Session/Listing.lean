import ArtifactGate.Proofs.Session.Passage
import ArtifactGate.Proofs.Session.Reading

/-!
What a node lists. Over a store that does not fail, the children of a node are what its entries stand for, whatever has
been asked before.
-/
namespace ArtifactGate

def Node.entries (node : Node) : List Entry :=
  match node.metadata with
  | some metadata => metadata.entries
  | none => []

theorem Node.children_eq (node : Node) : node.children = node.childrenOf node.entries := by
  rw [children, entries]
  cases node.metadata <;> rfl

namespace Gateway

/-- The node that fetching a location gives while the store does not fail. -/
def fetched (gateway : Gateway MemoryStore) (user : String) (location : Location) : Node :=
  if location.isSink then .ofSink gateway.now user location else gateway.nodeAt user location

def listed (gateway : Gateway MemoryStore) (node : Node) : List Node :=
  node.entries.map fun entry => gateway.fetched node.user (node.entryLocation entry)

theorem fetched_outside {gateway : Gateway MemoryStore} {location : Location} (outside : location.isSink = false)
    (user : String) : gateway.fetched user location = gateway.nodeAt user location := by
  rw [fetched, outside, if_neg Bool.false_ne_true]

variable {before after : Gateway MemoryStore}

theorem Consulted.reliable (consulted : before.Consulted after) (reliable : before.store.failuresPending = 0) :
    after.store.failuresPending = 0 := by
  obtain ⟨_, _, _, _, rfl⟩ := consulted
  exact reliable

theorem Consulted.fetched (consulted : before.Consulted after) : after.fetched = before.fetched := by
  obtain ⟨_, _, _, _, rfl⟩ := consulted
  rfl

theorem Consulted.listed (consulted : before.Consulted after) : after.listed = before.listed := by
  obtain ⟨_, _, _, _, rfl⟩ := consulted
  rfl

end Gateway

namespace Live

variable {live : Live MemoryStore}

theorem gives_fetched (reliable : live.gateway.store.failuresPending = 0) (user : String) (location : Location) :
    live.Gives (Node.fetch user location) fun node after =>
      node = live.gateway.fetched user location ∧ live.Asks [] [] after := by
  rw [Gateway.fetched]
  cases sink : location.isSink with
  | false => exact gives_fetch reliable sink user
  | true =>
      have now : live.Gives (liftM (Action.request .now) : Attempt Instant) fun now after =>
          now = live.gateway.now ∧ live.Asks [] [] after := by
        refine Gives.lift ⟨live.gateway.now, live, ?_, rfl, .refl live⟩
        rw [run_request, perform]
      simp only [Node.fetch, sink, if_true]
      exact now.bind fun now after valid => Gives.pure ⟨valid.1 ▸ rfl, valid.2⟩

theorem yields_childrenOf (reliable : live.gateway.store.failuresPending = 0) (node : Node) (entries : List Entry) :
    live.Yields (node.childrenOf entries) fun children after =>
      children = entries.map (fun entry => live.gateway.fetched node.user (node.entryLocation entry)) ∧
        live.Asks [] [] after := by
  induction entries generalizing live with
  | nil => exact Yields.pure ⟨rfl, .refl live⟩
  | cons entry entries ih =>
      obtain ⟨_, middle, ran, rfl, asks⟩ := gives_fetched reliable node.user (node.entryLocation entry)
      obtain ⟨_, after, ranRest, rfl, more⟩ := ih (asks.consulted.reliable reliable)
      refine ⟨_, after, ?_, rfl, asks.trans more⟩
      rw [Node.childrenOf, run_bind, ran]
      dsimp only
      rw [run_bind, ranRest, asks.consulted.fetched]
      exact run_pure _ after

theorem yields_children (reliable : live.gateway.store.failuresPending = 0) (node : Node) :
    live.Yields node.children fun children after =>
      children = live.gateway.listed node ∧ live.Asks [] [] after := by
  rw [node.children_eq]
  exact yields_childrenOf reliable node node.entries

end Live

end ArtifactGate
