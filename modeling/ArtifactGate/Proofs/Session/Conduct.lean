import ArtifactGate.Proofs.Session.Passage

/-!
Sessions that follow a script. A script says byte by byte what a client sends, and what the session then
sends and logs. A session that follows it does so whatever others do with the gateway in the meantime, as
long as they keep to what is agreed, and keeps to it itself.
-/
namespace ArtifactGate

/-- A byte of a client, and what a session makes of it. -/
structure Beat where
  byte : UInt8
  sent : List UInt8 := []
  logged : List AccessRecord := []
  deriving DecidableEq, Repr, Inhabited

namespace Beat

def bytes (beats : List Beat) : List UInt8 := beats.map Beat.byte

def sendings (beats : List Beat) : List UInt8 := beats.flatMap Beat.sent

def records (beats : List Beat) : List AccessRecord := beats.flatMap Beat.logged

/-- A byte on which nothing happens but that it is taken. -/
def quiet (byte : UInt8) : Beat := { byte := byte }

/-- A line after its control byte, answered at its end. -/
def line (control : UInt8) (text : String) (sent : List UInt8) : List Beat :=
  quiet control :: ((Text.encode text).map quiet ++ [{ byte := Wire.newline, sent }])

/-- What the last byte before the rest of a body is answered: nothing, as long as there is a rest. -/
def bodyAnswer (rest : List UInt8) : List UInt8 :=
  if rest.isEmpty then [Wire.okStatus] else []

def body : List UInt8 → List Beat
  | [] => []
  | byte :: rest => { byte, sent := bodyAnswer rest } :: body rest

theorem bytes_append (first second : List Beat) : bytes (first ++ second) = bytes first ++ bytes second :=
  List.map_append

theorem bytes_line (control : UInt8) (text : String) (sent : List UInt8) :
    bytes (line control text sent) = control :: Wire.lineBytes text := by
  simp only [bytes, line, List.map_cons, List.map_append, List.map_map, List.map_nil, Wire.lineBytes]
  exact congrArg (fun text => control :: (text ++ [Wire.newline])) (List.map_id' _)

theorem bytes_body (rest : List UInt8) : bytes (body rest) = rest := by
  induction rest with
  | nil => rfl
  | cons byte rest ih =>
      rw [body, bytes, List.map_cons, ← bytes, ih]

end Beat

/-- What is agreed on a gateway: what others may do with it, and what a session does. -/
structure Conduct (σ : Type) where
  aside : Gateway σ → Gateway σ → Prop
  kept : Gateway σ → Gateway σ → Prop
  aside_refl (gateway : Gateway σ) : aside gateway gateway
  aside_trans {first middle last : Gateway σ} : aside first middle → aside middle last → aside first last
  kept_refl (gateway : Gateway σ) : kept gateway gateway

/-- Outside a repository the gateway is as before, uploads and bookkeeping aside. -/
structure Gateway.Aside (repository : String) (before after : Gateway MemoryStore) : Prop where
  authorizer : after.authorizer = before.authorizer
  now : after.now = before.now
  steady : before.store.Steady after.store
  storeNow : after.store.now = before.store.now
  objects : ∀ location, location.repository ≠ repository →
    after.store.objects.get? location = before.store.objects.get? location

theorem Gateway.Aside.refl {repository : String} (gateway : Gateway MemoryStore) :
    gateway.Aside repository gateway :=
  ⟨rfl, rfl, .refl _, rfl, fun _ _ => rfl⟩

theorem Gateway.Aside.trans {repository : String} {first middle last : Gateway MemoryStore}
    (start : first.Aside repository middle) (rest : middle.Aside repository last) :
    first.Aside repository last where
  authorizer := rest.authorizer.trans start.authorizer
  now := rest.now.trans start.now
  steady := start.steady.trans rest.steady
  storeNow := rest.storeNow.trans start.storeNow
  objects location outside := (rest.objects location outside).trans (start.objects location outside)

/-- A session that fills a repository, while others ask. -/
def Conduct.receiving (repository : String) : Conduct MemoryStore where
  aside := Gateway.Consulted
  kept := Gateway.Aside repository
  aside_refl := .refl
  aside_trans := .trans
  kept_refl := .refl

/-- A session that asks, while others fill a repository. -/
def Conduct.sending (repository : String) : Conduct MemoryStore where
  aside := Gateway.Aside repository
  kept := Gateway.Consulted
  aside_refl := .refl
  aside_trans := .trans
  kept_refl := .refl

namespace Session

variable {σ : Type} [RemoteStore σ]

/-- The session takes the bytes of a script one by one and does what the script says; after the last of
them it has come to the goal. -/
def Follows (conduct : Conduct σ) (goal : Session → Live σ → Prop) : List Beat → Session → Live σ → Prop
  | [], session, live =>
    ∀ gateway, conduct.aside live.gateway gateway → goal session { live with gateway }
  | beat :: beats, session, live =>
    session.result? = none ∧ ∀ gateway, conduct.aside live.gateway gateway →
      ∃ next after, feed beat.byte (session, { live with gateway }) = (next, after) ∧
        after.outlet = live.outlet.extend beat.sent ∧ after.gateway.log = gateway.log ++ beat.logged ∧
        conduct.kept gateway after.gateway ∧ Follows conduct goal beats next after

namespace Follows

variable {conduct : Conduct σ} {goal : Session → Live σ → Prop} {beats : List Beat} {session next : Session}
  {live : Live σ}

theorem stable (follows : Follows conduct goal beats session live) {gateway : Gateway σ}
    (aside : conduct.aside live.gateway gateway) :
    Follows conduct goal beats session { live with gateway } := by
  cases beats with
  | nil => exact fun last further => follows last (conduct.aside_trans aside further)
  | cons beat beats =>
      exact ⟨follows.1, fun last further => follows.2 last (conduct.aside_trans aside further)⟩

theorem quiet {byte : UInt8} (waits : session.result? = none)
    (fed : ∀ live : Live σ, feed byte (session, live) = (next, live))
    (follows : Follows conduct goal beats next live) :
    Follows conduct goal (Beat.quiet byte :: beats) session live := by
  refine ⟨waits, fun gateway aside => ⟨next, { live with gateway }, fed _, ?_, ?_, ?_, ?_⟩⟩
  · exact live.outlet.extend_nil.symm
  · exact (List.append_nil _).symm
  · exact conduct.kept_refl gateway
  · exact follows.stable aside

theorem feedAll (follows : Follows conduct goal beats session live) :
    ∃ next after, Session.feedAll (Beat.bytes beats) (session, live) = (next, after) ∧
      after.outlet = live.outlet.extend (Beat.sendings beats) ∧
      after.gateway.log = live.gateway.log ++ Beat.records beats ∧ goal next after := by
  induction beats generalizing session live with
  | nil =>
      refine ⟨session, live, rfl, ?_, ?_, follows live.gateway (conduct.aside_refl _)⟩
      · exact live.outlet.extend_nil.symm
      · exact (List.append_nil _).symm
  | cons beat beats ih =>
      obtain ⟨middle, reached, fed, sent, logged, _, rest⟩ := follows.2 live.gateway (conduct.aside_refl _)
      obtain ⟨next, after, fedRest, sentRest, loggedRest, valid⟩ := ih rest
      refine ⟨next, after, ?_, ?_, ?_, valid⟩
      · rw [Beat.bytes, List.map_cons, Session.feedAll, List.foldl_cons, fed]
        exact fedRest
      · rw [sentRest, sent, ← Outlet.extend_append, Beat.sendings, Beat.sendings, List.flatMap_cons]
      · rw [loggedRest, logged, List.append_assoc, Beat.records, Beat.records, List.flatMap_cons]

theorem waits {count : Nat} (follows : Follows conduct goal beats session live) (fewer : count < beats.length) :
    (Session.feedAll ((Beat.bytes beats).take count) (session, live)).1.result? = none := by
  induction count generalizing beats session live with
  | zero =>
      cases beats with
      | nil => cases fewer
      | cons beat rest => exact follows.1
  | succ count ih =>
      cases beats with
      | nil => cases fewer
      | cons beat rest =>
          obtain ⟨middle, reached, fed, _, _, _, following⟩ := follows.2 live.gateway (conduct.aside_refl _)
          rw [Beat.bytes, List.map_cons, List.take_succ_cons, Session.feedAll, List.foldl_cons, fed]
          exact ih following (Nat.lt_of_succ_lt_succ fewer)

end Follows

theorem carryOut_gives {α : Type} {step : Step α} {live : Live σ} {holds : α → Live σ → Prop}
    (transfer : Transfer) (mark : Nat) (next : α → Session) (gives : live.Gives step holds) :
    ∃ value after, carryOut transfer mark step next live = (next value, after) ∧ holds value after := by
  obtain ⟨value, after, ran, valid⟩ := gives
  refine ⟨value, after, ?_, valid⟩
  rw [carryOut, ran]

end Session

end ArtifactGate
