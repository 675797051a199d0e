import ArtifactGate.Proofs.Gateway.Slots
import ArtifactGate.Proofs.Session.Beginning
import ArtifactGate.Proofs.Session.Lasting
import ArtifactGate.Proofs.Session.Permission
import ArtifactGate.Proofs.Session.Proceeding

/-!
A gateway that serves one session after the other, and all that can happen to it meanwhile: a client sends what
it likes and ends as it likes, a session is cancelled wherever it waits, the tasks of uploads go on and let go of
their slots, others work on the store, and the gateway is shut down. No slot is lost on any of these ways.
-/
namespace ArtifactGate

variable {σ : Type} [RemoteStore σ]

/-- What goes on while a session waits for the answer to an effect: the tasks move, and some of what was asked
for is done. -/
inductive Effect.Stirs : Effect → Gateway σ → Gateway σ → Prop
  | polled {effect : Effect} {gateway : Gateway σ} : Stirs effect gateway gateway.pollAll
  | letGo {effect : Effect} {gateway : Gateway σ} (number : Nat) : Stirs effect gateway (gateway.letGo number)
  | poured {number : Nat} {chunk part : List UInt8} {gateway : Gateway σ} (begun : part <+: chunk) :
    Stirs (.writeUpload number chunk) gateway (gateway.pour number part).2
  | ended {number : Nat} {upload : Upload} {gateway : Gateway σ} (found : gateway.upload? number = some upload)
      (whole : upload.writer ≠ .broken) :
    Stirs (.finishUpload number) gateway (gateway.setUpload number upload.endBody)

namespace Session

/-- Whose session it is, and the number that its uploads begin with. -/
def owner? : Session × Live σ → Option (Transfer × Nat)
  | (.receiving transfer mark _, _) => some (transfer, mark)
  | (.sending transfer _, live) => some (transfer, live.gateway.nextUpload)
  | (.ended _, _) => none

/-- A session may wait for the answer to an effect: on a byte, at the end of the bytes, or when it begins after
another one. -/
inductive WaitsOn : Session × Live σ → Effect × Live σ → Prop
  | byte {state : Session × Live σ} {entry : Effect × Live σ} (byte : UInt8) (asks : entry ∈ asked byte state) :
    WaitsOn state entry
  | ending {state : Session × Live σ} {entry : Effect × Live σ} (ending : Ending)
      (asks : entry ∈ closing ending state) : WaitsOn state entry
  | opening {result : Except Fault Unit} {live : Live σ} {entry : Effect × Live σ} (login : Login) (line : String)
      (outlet : Outlet) (asks : entry ∈ opening login line { live with outlet }) : WaitsOn (.ended result, live) entry

/-- The number that the uploads of a session begin with. -/
def mark : Session → Nat
  | .receiving _ mark _ => mark
  | _ => 0

end Session

namespace Service

open Session

def cancelled : Failure := { fault := .cancelled }

/-- What can happen to a gateway that serves one session after the other, while others change its store as they
may. -/
inductive Happens (others : σ → σ → Prop) : Session × Live σ → Session × Live σ → Prop
  | came {result : Except Fault Unit} {live : Live σ} (login : Login) (line : String) (outlet : Outlet) :
    Happens others (.ended result, live) (start login line { live with outlet })
  | sent {state : Session × Live σ} (byte : UInt8) : Happens others state (feed byte state)
  | left {state : Session × Live σ} (ending : Ending) : Happens others state (finish ending state)
  | dropped {state : Session × Live σ} {transfer : Transfer} {mark : Nat}
      (owned : owner? state = some (transfer, mark)) :
    Happens others state (fail transfer mark cancelled state.2)
  | interrupted {state : Session × Live σ} {transfer : Transfer} {mark : Nat} {entry : Effect × Live σ}
      {gateway : Gateway σ} (owned : owner? state = some (transfer, mark)) (waits : WaitsOn state entry)
      (stirs : Relation.ReflTransGen entry.1.Stirs entry.2.gateway gateway) :
    Happens others state (fail transfer mark cancelled { entry.2 with gateway })
  | repelled {result : Except Fault Unit} {live : Live σ} {login : Login} {line : String} {outlet : Outlet}
      {command : Command} {entry : Effect × Live σ} {gateway : Gateway σ}
      (parsed : Command.parse line = .ok command) (asks : entry ∈ opening login line { live with outlet })
      (stirs : Relation.ReflTransGen entry.1.Stirs entry.2.gateway gateway) :
    Happens others (.ended result, live)
      (fail (login.transfer command live.gateway.settings) live.gateway.nextUpload cancelled
        { entry.2 with gateway })
  | polled {session : Session} {live : Live σ} :
    Happens others (session, live) (session, { live with gateway := live.gateway.pollAll })
  | letGo {session : Session} {live : Live σ} (number : Nat) :
    Happens others (session, live) (session, { live with gateway := live.gateway.letGo number })
  | shutDown {session : Session} {live : Live σ} :
    Happens others (session, live) (session, { live with gateway := live.gateway.shutdown })
  | elsewhere {session : Session} {live : Live σ} {store : σ} (moved : others live.gateway.store store)
      (authorizer : Authorizer) (now : Instant) :
    Happens others (session, live) (session, { live with gateway := { live.gateway with store, authorizer, now } })

/-- A gateway that has served nobody yet. -/
def fresh (settings : Settings) (store : σ) (authorizer : Authorizer) (now : Instant) : Session × Live σ :=
  (.ended (.ok ()), { gateway := Gateway.new settings store authorizer now })

end Service

namespace Gateway

variable {slots mark : Nat}

theorem works_of_stirs {permitted : Call → Prop} {before after : Gateway σ} {effect : Effect}
    (stirs : Relation.ReflTransGen effect.Stirs before after) : before.WorksOn permitted after := by
  induction stirs with
  | refl => exact .refl
  | tail _ last ih =>
      cases last with
      | polled => exact ih.tail .polled
      | letGo number => exact ih.tail (.letGo number)
      | poured begun => exact ih.trans (pour_pours _ _ _).works
      | ended found whole => exact ih.tail (.edited found (.ended whole))

theorem Accounted.stirs {before after : Gateway σ} (accounted : before.Accounted slots mark) {effect : Effect}
    (stirs : Relation.ReflTransGen effect.Stirs before after) : after.Accounted slots mark := by
  have works : before.WorksOn (fun _ => True) after := works_of_stirs stirs
  exact works.accounted accounted

end Gateway

namespace Service

open Session

variable {slots : Nat} {live : Live σ} {state : Session × Live σ} {transfer : Transfer}

/-- The slots are accounted for, and only the upload of a file that is coming in is in progress. -/
structure Sound (slots : Nat) (state : Session × Live σ) : Prop where
  accounted : state.2.gateway.Accounted slots state.1.mark
  tidy : Tidy state

omit [RemoteStore σ] in
theorem Sound.idle (sound : Sound slots state) {result : Except Fault Unit} (ended : state.1 = .ended result) :
    state.2.gateway.uploads = [] := by
  have tidy := sound.tidy
  rw [Tidy, ended] at tidy
  exact tidy

omit [RemoteStore σ] in
/-- The number that the uploads of a session begin with is that of its owner's. -/
theorem Sound.since (sound : Sound slots state) {mark : Nat} (owned : owner? state = some (transfer, mark)) :
    state.2.gateway.Accounted slots mark := by
  obtain ⟨session, live⟩ := state
  cases session with
  | receiving given number receiver =>
      cases owned
      exact sound.accounted
  | sending given sender =>
      cases owned
      exact sound.accounted.idle sound.tidy (Nat.le_refl _)
  | ended result => cases owned

omit [RemoteStore σ] in
theorem Sound.of_undisturbed {session : Session} (sound : Sound slots (session, live)) {gateway : Gateway σ}
    (accounted : gateway.Accounted slots session.mark) (undisturbed : live.gateway.Undisturbed gateway) :
    Sound slots (session, { live with gateway }) := by
  refine ⟨accounted, ?_⟩
  have tidy := sound.tidy
  cases session with
  | receiving transfer mark receiver =>
      obtain ⟨level, outer, phase⟩ := receiver
      cases phase with
      | body file => exact Writer.Alone.of_undisturbed tidy undisturbed
      | _ => exact undisturbed.idle tidy
  | sending transfer sender => exact undisturbed.uploads tidy
  | ended result => exact undisturbed.uploads tidy

section Known

/-- Whatever happens, the work of a sender stays what its command says. -/
theorem happens_known {others : σ → σ → Prop} {before after : Session × Live σ} (known : before.1.Known)
    (happens : Happens others before after) : after.1.Known := by
  cases happens with
  | came login line outlet => exact start_known login line _
  | sent byte => exact feed_known known byte
  | left ending =>
      obtain ⟨result, ended⟩ := finish_ended ending before
      rw [ended]
      trivial
  | dropped | interrupted | repelled => trivial
  | _ => exact known

theorem known_of_reached {others : σ → σ → Prop} {before after : Session × Live σ} (known : before.1.Known)
    (reached : Relation.ReflTransGen (Happens others) before after) : after.1.Known := by
  induction reached with
  | refl => exact known
  | tail _ last ih => exact happens_known ih last

end Known

theorem reached_feedAll {others : σ → σ → Prop} (input : List UInt8) (state : Session × Live σ) :
    Relation.ReflTransGen (Happens others) state (feedAll input state) := by
  induction input generalizing state with
  | nil => exact .refl
  | cons byte rest ih => exact .head (.sent byte) (ih _)

end Service

end ArtifactGate
