import ArtifactGate.Proofs.Session.Permission

/-!
Visits, one after the other: sessions of any users, each while some authorizer is in force. No visit puts,
gets or sends anything that its own authorizer does not let its own user write or read, whatever was allowed
before.
-/
namespace ArtifactGate

/-- A session of a user while an authorizer is in force: the command, what the client sends, how that ends,
and the client's end for what it is told. -/
structure Visit where
  authorizer : Authorizer
  login : Login
  line : String
  input : List UInt8
  ending : Ending
  outlet : Outlet := {}

namespace Visit

variable {σ : Type} [RemoteStore σ]

/-- The gateway as a visit finds it. -/
def arrival (visit : Visit) (gateway : Gateway σ) : Live σ :=
  { gateway := { gateway with authorizer := visit.authorizer }, outlet := visit.outlet }

/-- The session when the client has sent some bytes. -/
def upTo (visit : Visit) (taken : List UInt8) (gateway : Gateway σ) : Session × Live σ :=
  Session.feedAll taken (Session.start visit.login visit.line (visit.arrival gateway))

/-- The gateway that a visit leaves. -/
def pass (visit : Visit) (gateway : Gateway σ) : Gateway σ :=
  (Session.run visit.login visit.line visit.input visit.ending (visit.arrival gateway)).2.gateway

def passAll (visits : List Visit) (gateway : Gateway σ) : Gateway σ :=
  visits.foldl (fun gateway visit => visit.pass gateway) gateway

section Lawful

variable {gateway : Gateway σ}

theorem start_lawful (idle : gateway.uploads = []) (visit : Visit) :
    Session.Lawful visit.authorizer visit.login.user (visit.upTo [] gateway) ∧
      (visit.arrival gateway).Follows (visit.authorizer.Allows visit.login.user)
        (fun bytes => IsOk bytes ∨ IsReport bytes) (visit.upTo [] gateway).2 :=
  @Session.start_lawful _ _ _ (visit.arrival gateway) visit.login visit.line rfl idle

theorem upTo_lawful (idle : gateway.uploads = []) (visit : Visit) (taken : List UInt8) :
    Session.Lawful visit.authorizer visit.login.user (visit.upTo taken gateway) ∧
      (visit.arrival gateway).gateway.Follows (visit.authorizer.Allows visit.login.user)
        (visit.upTo taken gateway).2.gateway := by
  obtain ⟨begun, follows⟩ := visit.start_lawful idle
  obtain ⟨lawful, further⟩ := Session.feedAll_lawful begun taken
  exact ⟨lawful, follows.gateway.trans further⟩

/-- How a visit ends. -/
theorem finish_lawful (idle : gateway.uploads = []) (visit : Visit) :
    (visit.pass gateway).uploads = [] ∧
      (visit.upTo visit.input gateway).2.Follows (visit.authorizer.Allows visit.login.user) IsReport
        (Session.run visit.login visit.line visit.input visit.ending (visit.arrival gateway)).2 := by
  rw [pass, Session.run_eq_finish]
  exact Session.finish_closes (visit.upTo_lawful idle visit.input).1.tidy visit.ending

theorem pass_follows (idle : gateway.uploads = []) (visit : Visit) :
    (visit.arrival gateway).gateway.Follows (visit.authorizer.Allows visit.login.user) (visit.pass gateway) :=
  (visit.upTo_lawful idle visit.input).2.trans (visit.finish_lawful idle).2.gateway

theorem passAll_uploads (idle : gateway.uploads = []) (visits : List Visit) :
    (passAll visits gateway).uploads = [] := by
  induction visits generalizing gateway with
  | nil => exact idle
  | cons visit rest ih => exact ih (visit.finish_lawful idle).1

end Lawful

/-- No visit goes beyond its rights, whatever visits came before it. It makes only calls that its authorizer
grants to its user: puts where the user may write, and gets where the user may read. What is seen of a
repository that the user may not write to stays as it was. What a client is told when a byte comes is about
a path whose repository the user may read, where the sender's nodes are; to an upload it is that all is well;
and else it is the report of a fault, which is also all that a client is told at the end. -/
theorem keeps_to_rights {gateway : Gateway (Recorded σ)} (idle : gateway.uploads = []) (earlier : List Visit)
    (visit : Visit) :
    let before := passAll earlier gateway
    let after := visit.pass before
    Recorded.CallsOnly (visit.authorizer.Allows visit.login.user) before.store after.store ∧
      (∀ repository, visit.authorizer repository visit.login.user .write = false →
        ∀ (β : Type) (view : σ → β), Confined (fun location => location.repository = repository) view →
          view after.store.store = view before.store.store) ∧
      visit.outlet.Hears (fun bytes => IsOk bytes ∨ IsReport bytes) (visit.upTo [] before).2.outlet ∧
      (∀ taken byte,
        let state := visit.upTo taken before
        state.2.outlet.Hears
            (fun bytes => Session.MaySay visit.authorizer visit.login.user state.1 bytes ∨ IsReport bytes)
            (visit.upTo (taken ++ [byte]) before).2.outlet ∧
          ∀ transfer sender, state.1 = .sending transfer sender → ∀ node ∈ sender.nodes,
            ∃ path, sender.current? transfer.command.paths = some path ∧
              node.Under visit.login.user (Sender.base path)) ∧
      (visit.upTo visit.input before).2.outlet.Hears IsReport
        (Session.run visit.login visit.line visit.input visit.ending (visit.arrival before)).2.outlet := by
  intro before after
  have idle : before.uploads = [] := passAll_uploads idle earlier
  have reaches : Reaches (visit.authorizer.Allows visit.login.user) before.store after.store :=
    (visit.pass_follows idle).store (Gateway.guarded_of_idle (by exact idle))
  refine ⟨Recorded.callsOnly_of_reaches reaches, ?_, (visit.start_lawful idle).2.outlet, ?_,
    (visit.finish_lawful idle).2.outlet⟩
  · intro repository denied β view confined
    refine confined.kept (fun location allowed within => ?_) reaches
    exact absurd (within ▸ allowed) (Bool.eq_false_iff.1 denied)
  · intro taken byte state
    have lawful : Session.Lawful visit.authorizer visit.login.user state := (visit.upTo_lawful idle taken).1
    refine ⟨?_, ?_⟩
    · rw [upTo, Session.feedAll_append_singleton]
      exact (Session.feed_lawful lawful byte).2.outlet
    · intro transfer sender same node member
      have proper := lawful.proper
      rw [same] at proper
      exact proper.2.nodes member

/-- Ann, who may write to a repository, stores a file there; then Bob asks for it, who may read it and not write
to it. -/
theorem keeps_to_rights_of_two_users :
    let rights : Authorizer := fun _ user access => (user == "ann") == (access == .write)
    let gateway : Gateway (Recorded ScriptedStore) := Gateway.new {} { store := {} } rights ⟨0, 0⟩
    let ann : Visit :=
      ⟨rights, ⟨"ann", "::1", .empty⟩, "scp -t libs/a", Text.encode "C0644 2 a\nhi" ++ [0], .closed, {}⟩
    let bob : Visit := ⟨rights, ⟨"bob", "::1", .empty⟩, "scp -f libs/a", [0, 0, 0], .closed, {}⟩
    (passAll [ann] gateway).store.calls = [.put ⟨"libs", "a"⟩] ∧
      Recorded.CallsOnly (rights.Allows "bob") (passAll [ann] gateway).store
        (bob.pass (passAll [ann] gateway)).store ∧
      (bob.pass (passAll [ann] gateway)).store.store.objectsOf "libs" =
        (passAll [ann] gateway).store.store.objectsOf "libs" := by
  intro rights gateway ann bob
  obtain ⟨calls, kept, _⟩ := @keeps_to_rights ScriptedStore _ gateway rfl [ann] bob
  refine ⟨by decide +kernel, calls, ?_⟩
  exact kept "libs" rfl _ _ (ScriptedStore.objectsOf_confined "libs")

end Visit

end ArtifactGate
