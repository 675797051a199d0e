import ArtifactGate.Proofs.Session.Conduct
import ArtifactGate.Proofs.Session.KeptForest

/-!
A sender sends a forest. What it has to send is a list of deliveries, each released by the acknowledgement of
the one before; its agenda keeps the order of the tree, whatever others store in another repository in the
meantime.
-/
namespace ArtifactGate

/-- What is sent at once, and what is logged when it is acknowledged. -/
structure Delivery where
  message : List UInt8
  logged : List AccessRecord := []
  deriving DecidableEq, Repr, Inhabited

/-- Deliveries released by good statuses, when these records are due for what was sent before. -/
def Beat.deliver : List AccessRecord → List Delivery → List Beat
  | logged, [] => [{ byte := Wire.okStatus, logged }]
  | logged, delivery :: rest =>
    { byte := Wire.okStatus, sent := delivery.message, logged } :: deliver delivery.logged rest

namespace Live

/-- The gateway shows a user what it showed of a repository at some moment, and the client takes what it is
sent. -/
structure Shows (live : Live MemoryStore) (origin : Gateway MemoryStore) (user repository : String) : Prop where
  granted : live.gateway.authorizer repository user .read = true
  reliable : live.gateway.store.failuresPending = 0
  unlimited : live.outlet.limit = none
  described : ∀ location, location.repository = repository →
    live.gateway.described location = origin.described location
  retrieved : ∀ location, location.repository = repository →
    live.gateway.store.retrieve location = origin.store.retrieve location

variable {live after : Live MemoryStore} {origin : Gateway MemoryStore} {user repository filled : String}
  {sent : List UInt8} {logged : List AccessRecord}

theorem Shows.asks (shows : live.Shows origin user repository) (asks : live.Asks sent logged after) :
    after.Shows origin user repository := by
  have unlimited : after.outlet.limit = none := asks.outlet ▸ shows.unlimited
  obtain ⟨_, _, ⟨_, _, _, _, same⟩⟩ := asks
  refine ⟨?_, ?_, unlimited, fun location within => ?_, fun location within => ?_⟩ <;> rw [same]
  · exact shows.granted
  · exact shows.reliable
  · exact shows.described location within
  · exact shows.retrieved location within

theorem Shows.aside (shows : live.Shows origin user repository) (apart : repository ≠ filled)
    {gateway : Gateway MemoryStore} (aside : live.gateway.Aside filled gateway) :
    ({ live with gateway } : Live _).Shows origin user repository where
  granted := aside.authorizer ▸ shows.granted
  reliable := aside.steady.failuresPending.trans shows.reliable
  unlimited := shows.unlimited
  described location within := by
    rw [← shows.described location within, Gateway.described, Gateway.described, aside.now]
    have same : gateway.store.describe location = live.gateway.store.describe location :=
      MemoryStore.describe_congr (fun place inside => aside.objects place (by rw [inside, within]; exact apart))
        aside.storeNow
    rw [same]
  retrieved location within := by
    rw [← shows.retrieved location within, MemoryStore.retrieve, MemoryStore.retrieve,
      aside.objects location (within ▸ apart), aside.steady.announced]

end Live

namespace Sender

variable {live before middle : Live MemoryStore} {origin : Gateway MemoryStore} {transfer : Transfer}
  {repository filled : String} {deliveries rest : List Delivery} {agenda : List Job} {pending : Pending}
  {logged due : List AccessRecord} {message : List UInt8}

def Over (session : Session) (_ : Live MemoryStore) : Prop :=
  session = .ended (.ok ())

/-- A step logs what is due, sends the first of some deliveries, and its session then delivers the rest; or
nothing is left and the session is over. -/
def Continues {ε : Type} (filled : String) (transfer : Transfer) (due : List AccessRecord)
    (deliveries : List Delivery) (step : ExceptT ε Action (Progress Sender)) (live : Live MemoryStore) : Prop :=
  live.Gives step fun progress after =>
    match deliveries with
    | [] => progress = .over ∧ live.Asks [] due after
    | delivery :: rest => ∃ sender, progress = .waiting sender ∧ live.Asks delivery.message due after ∧
        Session.Follows (.sending filled) Over (Beat.deliver delivery.logged rest) (.sending transfer sender)
          after

theorem Continues.logging {attempt : Attempt (Progress Sender)}
    (continues : Continues filled transfer due deliveries attempt live) (site : Site) :
    Continues filled transfer due deliveries (transfer.logging site attempt) live :=
  Live.Gives.logging continues

theorem Continues.bind {α ε : Type} {part : ExceptT ε Action α} {next : α → ExceptT ε Action (Progress Sender)}
    {valid : α → Prop} {further : List AccessRecord}
    (asked : live.Gives part fun value after => valid value ∧ live.Asks [] due after)
    (goesOn : ∀ value after, valid value → live.Asks [] due after →
      Continues filled transfer further deliveries (next value) after) :
    Continues filled transfer (due ++ further) deliveries (part >>= next) live := by
  apply Live.Gives.bind asked
  rintro value middle ⟨known, asks⟩
  obtain ⟨progress, after, ran, continues⟩ := goesOn value middle known asks
  refine ⟨progress, after, ran, ?_⟩
  cases deliveries with
  | nil => exact ⟨continues.1, asks.trans continues.2⟩
  | cons delivery deliveries =>
      obtain ⟨sender, waiting, more, follows⟩ := continues
      exact ⟨sender, waiting, asks.trans more, follows⟩

theorem Continues.behind {ε : Type} {part : ExceptT ε Action Unit}
    {next : Unit → ExceptT ε Action (Progress Sender)} {first : List UInt8}
    (asked : live.Gives part fun _ after => live.Asks first [] after)
    (goesOn : ∀ after, live.Asks first [] after →
      Continues filled transfer [] ({ message, logged } :: rest) (next ()) after) :
    Continues filled transfer [] ({ message := first ++ message, logged } :: rest) (part >>= next) live := by
  apply Live.Gives.bind asked
  intro _ middle asks
  obtain ⟨progress, after, ran, sender, waiting, more, follows⟩ := goesOn middle asks
  exact ⟨progress, after, ran, sender, waiting, asks.trans more, follows⟩

theorem follows_await
    (continues : ∀ gateway, live.gateway.Aside filled gateway →
      Continues filled transfer due deliveries (acknowledged transfer agenda pending) { live with gateway }) :
    Session.Follows (.sending filled) Over (Beat.deliver due deliveries)
      (.sending transfer { pending, agenda }) live := by
  have fed (live : Live MemoryStore) : Session.feed Wire.okStatus (.sending transfer { pending, agenda }, live) =
      Session.carryOut transfer live.gateway.nextUpload (acknowledged transfer agenda pending)
        (Session.ofProgress (.sending transfer)) live := by
    rw [← pure_bind () fun _ => acknowledged transfer agenda pending,
      ← transfer.loggingIn_ok pending.site? ()]
    rfl
  cases deliveries with
  | nil =>
      refine ⟨rfl, ?_⟩
      intro gateway aside
      obtain ⟨progress, after, carried, rfl, asks⟩ := Session.carryOut_gives transfer gateway.nextUpload
        (Session.ofProgress (.sending transfer)) (continues gateway aside)
      exact ⟨_, after, (fed _).trans carried, asks.outlet, asks.log, asks.consulted, fun _ _ => rfl⟩
  | cons delivery deliveries =>
      refine ⟨rfl, ?_⟩
      intro gateway aside
      obtain ⟨progress, after, carried, sender, rfl, asks, follows⟩ := Session.carryOut_gives transfer
        gateway.nextUpload (Session.ofProgress (.sending transfer)) (continues gateway aside)
      exact ⟨_, after, (fed _).trans carried, asks.outlet, asks.log, asks.consulted, follows⟩

section Steps

variable {user : String} {location : Location}

theorem continues_send {ε : Type} {sends : ExceptT ε Action Unit} (shows : live.Shows origin user repository)
    (apart : repository ≠ filled) (sent : live.Gives sends fun _ after => live.Asks message [] after)
    (next : ∀ after, after.Shows origin user repository →
      Continues filled transfer logged rest (acknowledged transfer agenda pending) after) :
    Continues filled transfer [] ({ message, logged } :: rest) (do sends; return await pending agenda) live := by
  refine sent.bind fun _ after asks => Live.Gives.pure ?_
  refine ⟨_, rfl, asks, follows_await fun gateway aside => next _ ?_⟩
  exact (shows.asks asks).aside apart aside

theorem gives_openRead (shows : live.Shows origin user location.repository) {bytes : List UInt8}
    (retrieved : origin.store.retrieve location = .ok { length := some bytes.length, bytes }) :
    live.Gives ((origin.nodeAt user location).openRead 0) fun content after =>
      content = { length := bytes.length, bytes } ∧ live.Asks [] [] after := by
  have readable : live.Gives (liftM (origin.nodeAt user location).isReadable : Attempt Bool)
      fun allowed after => allowed = true ∧ after = live :=
    Live.Gives.lift (Live.yields_allows rfl shows.granted)
  have held := shows.retrieved location rfl
  rw [retrieved] at held
  rw [Node.openRead]
  apply readable.bind
  rintro allowed after ⟨yes, same⟩
  subst yes same
  refine Live.Gives.accepted (by decide) (Live.Gives.accepted (by simp [Node.isSink, Gateway.nodeAt,
    Node.ofRemote]) ?_)
  apply (Live.gives_fetchContent shows.reliable location).bind
  rintro content last ⟨known, asks⟩
  rw [held] at known
  subst known
  refine ⟨_, last, Live.run_pure _ last, ?_, asks⟩
  simp

end Steps

end Sender

end ArtifactGate
