import ArtifactGate.Proofs.Service
import ArtifactGate.Proofs.Session.Denied
import ArtifactGate.Proofs.Session.Logged
import ArtifactGate.Proofs.Session.Twins
import ArtifactGate.Proofs.Session.Uploadless

/-!
A gateway that is shut down. It begins no upload any more, so that its store stays as it is; an upload that
would be begun fails, and is logged; and nothing else that its clients do goes otherwise.
-/
namespace ArtifactGate

variable {σ : Type} [RemoteStore σ]

def shuttingDown : Fault := .uploadRejected "gateway is shutting down"

namespace Gateway

variable {gateway : Gateway σ}

theorem beginUpload_refused (shut : gateway.acceptsUploads = false) (location : Location) (properties : Properties)
    (capacity : Nat) :
    gateway.beginUpload location properties capacity = (some (.error shuttingDown), gateway) := by
  rw [beginUpload, takeSlot, shut]
  rfl

theorem write_idle (idle : gateway.uploads = []) (number : Nat) (chunk : List UInt8) :
    gateway.write number chunk = (.failed uploadClosed, gateway) := by
  rw [write, writeRest, upload?, idle, List.lookup_nil]

theorem pour_idle (idle : gateway.uploads = []) (number : Nat) (chunk : List UInt8) :
    (gateway.pour number chunk).2 = gateway := by
  cases chunk with
  | nil => rfl
  | cons byte rest =>
      have none : gateway.offerNow number byte = none := by
        rw [offerNow, upload?, idle, List.lookup_nil]
        rfl
      rw [pour, offer, none]

theorem finish_idle (idle : gateway.uploads = []) (number : Nat) :
    gateway.finish number = (some (.error answerGone), gateway) := by
  rw [finish, upload?, idle, List.lookup_nil]

theorem abandonSince_idle (idle : gateway.uploads = []) (mark : Nat) : gateway.abandonSince mark = gateway := by
  rw [abandonSince, idle]
  rfl

end Gateway

/-- The gateway takes no uploads and has none, and it has made no call but to get. -/
structure Live.Shut (origin : σ) (live : Live σ) : Prop where
  shut : live.gateway.acceptsUploads = false
  idle : live.gateway.uploads = []
  store : Reaches Call.Gets origin live.gateway.store

theorem Live.shut_lasting (origin : σ) : Lasting fun live : Live σ => live.Shut origin where
  perform live effect shut := by
    have quiet (permits : effect.Permitted Call.Gets fun _ => True)
        (still : (live.perform effect).2.gateway.acceptsUploads = live.gateway.acceptsUploads)
        (idle : (live.perform effect).2.gateway.uploads = live.gateway.uploads) :
        (live.perform effect).2.Shut origin := by
      have follows := (perform_follows permits live).gateway
      exact ⟨still.trans shut.shut, idle.trans shut.idle,
        shut.store.trans (follows.store (Gateway.guarded_of_idle shut.idle))⟩
    cases effect with
    | metadata location =>
        have inquires : (Effect.metadata location).Inquires location.repository := rfl
        obtain ⟨store, clients, same⟩ := perform_inquired inquires live
        exact quiet trivial (by rw [same]) (by rw [same])
    | beginUpload location properties =>
        rw [perform, Gateway.beginUpload_refused shut.shut]
        exact shut
    | writeUpload upload chunk =>
        rw [perform, Gateway.write_idle shut.idle]
        exact shut
    | finishUpload upload =>
        rw [perform, Gateway.finish_idle shut.idle]
        exact shut
    | _ => exact quiet trivial rfl rfl
  settle live shut := by
    rw [Gateway.settle_idle shut.idle]
    exact shut
  abandon live mark shut := by
    rw [Gateway.abandonSince_idle shut.idle]
    exact shut

namespace Service

open Session

variable {origin : σ} {state : Session × Live σ}

theorem stirs_idle {effect : Effect} {before after : Gateway σ} (idle : before.uploads = [])
    (stirs : Relation.ReflTransGen effect.Stirs before after) :
    ∃ freeSlots leaving, after = { before with freeSlots, leaving } := by
  induction stirs with
  | refl => exact ⟨_, _, rfl⟩
  | tail _ last ih =>
      obtain ⟨freeSlots, leaving, rfl⟩ := ih
      cases last with
      | polled => exact ⟨_, _, Gateway.pollAll_idle (by exact idle)⟩
      | letGo number => exact Gateway.letGo_cases _ number
      | poured begun => exact ⟨_, _, Gateway.pour_idle (by exact idle) _ _⟩
      | ended found whole =>
          rw [Gateway.upload?, idle, List.lookup_nil] at found
          cases found

theorem waits_shut (shut : state.2.Shut origin) {entry : Effect × Live σ} (waits : WaitsOn state entry) :
    entry.2.Shut origin := by
  have lasting := Live.shut_lasting origin
  cases waits with
  | byte byte asks => exact lasting.feed_asked shut byte entry asks
  | ending ending asks => exact lasting.closing_asked shut ending entry asks
  | opening login line outlet asks =>
      exact lasting.opening_asked login line (by exact ⟨shut.shut, shut.idle, shut.store⟩) entry asks

/-- Whatever happens to a gateway that is shut down, it stays so. -/
theorem happens_shut {before after : Session × Live σ} (shut : before.2.Shut origin)
    (happens : Happens Eq before after) : after.2.Shut origin := by
  have lasting := Live.shut_lasting origin
  have stirred {state : Session × Live σ} {entry : Effect × Live σ} {gateway : Gateway σ}
      (shut : state.2.Shut origin) (waits : WaitsOn state entry)
      (stirs : Relation.ReflTransGen entry.1.Stirs entry.2.gateway gateway) :
      Live.Shut origin { entry.2 with gateway } := by
    have there := waits_shut shut waits
    obtain ⟨freeSlots, leaving, rfl⟩ := stirs_idle there.idle stirs
    exact ⟨there.shut, there.idle, there.store⟩
  cases happens with
  | came login line outlet => exact lasting.start login line ⟨shut.shut, shut.idle, shut.store⟩
  | sent byte => exact lasting.feed shut byte
  | left ending => exact lasting.finish shut ending
  | dropped owned => exact lasting.fail _ _ _ shut
  | interrupted owned waits stirs => exact lasting.fail _ _ _ (stirred shut waits stirs)
  | repelled parsed asks stirs => exact lasting.fail _ _ _ (stirred shut (.opening _ _ _ asks) stirs)
  | polled =>
      rw [Gateway.pollAll_idle shut.idle]
      exact shut
  | @letGo session live number =>
      obtain ⟨freeSlots, leaving, gone⟩ := live.gateway.letGo_cases number
      rw [gone]
      exact ⟨shut.shut, shut.idle, shut.store⟩
  | shutDown => exact ⟨rfl, shut.idle, shut.store⟩
  | elsewhere moved authorizer now => exact ⟨shut.shut, shut.idle, moved ▸ shut.store⟩

theorem shut_of_reached {before after : Session × Live σ} (shut : before.2.Shut origin)
    (reached : Relation.ReflTransGen (Happens Eq) before after) : after.2.Shut origin := by
  induction reached with
  | refl => exact shut
  | tail _ last ih => exact happens_shut ih last

/-- A session is over for the shutdown: its client is told so, and the file is logged as it was announced. -/
structure TurnedAway (transfer : Transfer) (location : Location) (size : Nat) (before after : Session × Live σ) :
    Prop where
  result : after.1 = .ended (.error shuttingDown)
  log : after.2.gateway.log = before.2.gateway.log ++
    [{ user := transfer.login.user, address := transfer.login.address, method := transfer.method, location, size,
       status := 500, exitValue := 1 }]
  outlet : after.2.outlet =
    (before.2.outlet.take (Wire.statusBytes Wire.errorStatus shuttingDown.message)).2

theorem fail_turnsAway {live world : Live σ} (shut : world.Shut origin) (inquired : live.Inquired world)
    (session : Session) (transfer : Transfer) (mark : Nat) (location : Location) (size : Nat) :
    TurnedAway transfer location size (session, live)
      (fail transfer mark ⟨shuttingDown, true⟩
        (world.withEntry (transfer.failureRecord ⟨location, size⟩ shuttingDown))) := by
  have status : shuttingDown.statusCode = 500 := by decide +kernel
  have reported : isReported shuttingDown = true := rfl
  have idle : (world.withEntry (transfer.failureRecord ⟨location, size⟩ shuttingDown)).gateway.uploads = [] :=
    shut.idle
  rw [fail, if_pos rfl, Gateway.abandonSince_idle idle, if_pos reported, Transfer.failureRecord, status]
  obtain ⟨store, clients, rfl⟩ := inquired
  exact ⟨rfl, report_log _ _, report_outlet _ _⟩

/-- Where an upload would be begun the session fails instead. -/
theorem begin_turnsAway (shut : state.2.Shut origin) (known : state.1.Known) {byte : UInt8} {location : Location}
    {properties : Properties} {world : Live σ}
    (asks : (Effect.beginUpload location properties, world) ∈ asked byte state) :
    ∃ transfer mark receiver line text header, state.1 = .receiving transfer mark receiver ∧
      receiver.phase = .line .file line ∧ line.push byte = .done (.ok text) ∧
      Wire.Header.parse ("C" ++ text) = .ok header ∧
      TurnedAway transfer location header.length state (feed byte state) := by
  have there := waits_shut shut (.byte byte asks)
  obtain ⟨session, live⟩ := state
  cases session with
  | receiving transfer mark receiver =>
      obtain ⟨line, text, header, phase, done, parsed, begins⟩ := Receiver.push_begins asks
      refine ⟨transfer, mark, receiver, line, text, header, rfl, phase, done, parsed, ?_⟩
      have refused : world.perform (.beginUpload location properties) = (some (.error shuttingDown), world) := by
        rw [Live.perform, Gateway.beginUpload_refused there.shut]
        rfl
      have failed : feed byte (.receiving transfer mark receiver, live) =
          fail transfer mark ⟨shuttingDown, true⟩
            (world.withEntry (transfer.failureRecord ⟨location, header.length⟩ shuttingDown)) := by
        rw [feed, carryOut, begins.refused _ _ refused]
      rw [failed]
      exact fail_turnsAway there begins.inquired _ transfer mark location header.length
  | sending transfer sender =>
      obtain ⟨_, _, reads⟩ := Live.allowed_of_asked (sender.push_reads vouches_anyAnswer transfer known byte) asks
      exact reads.quiet.elim
  | ended result => cases asks

end Service

/-- Another gateway over the same store, with the same settings, rights and clock and nothing in progress. Whether it
is shut down does not matter. -/
structure Gateway.Like (gateway other : Gateway σ) : Prop where
  settings : other.settings = gateway.settings
  store : other.store = gateway.store
  authorizer : other.authorizer = gateway.authorizer
  now : other.now = gateway.now
  idle : other.uploads = []

omit [RemoteStore σ] in
theorem Gateway.Like.twin {gateway other : Gateway σ} (like : gateway.Like other) (idle : gateway.uploads = [])
    (outlet : Outlet) :
    Live.Twin gateway.log other.log { gateway, outlet } { gateway := other, outlet } :=
  ⟨rfl, like.settings, like.store, like.authorizer, like.now, idle, like.idle,
    [], (List.append_nil _).symm, (List.append_nil _).symm⟩

/-- A shutdown stops uploads and nothing else. Whatever happens to a gateway that was shut down with nothing in
progress, it only gets from its store, and what is there stays as it is; a session that is about to begin an
upload fails, its client is told why, and it is logged with status 500; and a session that downloads, or
receives into the sink, ends with the same result, sends the same and has the same logged as over a gateway
that is not shut down. -/
theorem shutdown_stops_uploads {origin : Gateway (Recorded σ)} (idle : origin.uploads = [])
    {result : Except Fault Unit} {outlet : Outlet} {state : Session × Live (Recorded σ)}
    (reached : Relation.ReflTransGen (Service.Happens Eq)
      (.ended result, { gateway := origin.shutdown, outlet }) state) :
    Recorded.CallsOnly Call.Gets origin.store state.2.gateway.store ∧
      (∀ (β : Type) (view : σ → β), Confined (fun _ => True) view →
        view state.2.gateway.store.store = view origin.store.store) ∧
      (∀ byte location properties world, (Effect.beginUpload location properties, world) ∈ Session.asked byte state →
        ∃ transfer mark receiver line text header, state.1 = .receiving transfer mark receiver ∧
          receiver.phase = .line .file line ∧ line.push byte = .done (.ok text) ∧
          Wire.Header.parse ("C" ++ text) = .ok header ∧
          Service.TurnedAway transfer location header.length state (Session.feed byte state)) ∧
      ∀ other, state.2.gateway.Like other → ∀ (login : Login) (line : String),
        (∀ command, Command.parse line = .ok command →
          command.direction = .source ∨ (Location.resolve (command.paths.headD "")).isSink = true) →
        ∀ (outlet : Outlet) (input : List UInt8) (ending : Ending),
          let one := Session.run login line input ending { gateway := state.2.gateway, outlet }
          let two := Session.run login line input ending { gateway := other, outlet }
          one.1 = two.1 ∧ one.2.outlet = two.2.outlet ∧ one.2.gateway.store = two.2.gateway.store ∧
            ∃ records, one.2.gateway.log = state.2.gateway.log ++ records ∧
              two.2.gateway.log = other.log ++ records := by
  have unknown : (Session.ended result).Known := trivial
  have known : state.1.Known := Service.known_of_reached unknown reached
  have shut : state.2.Shut origin.store := Service.shut_of_reached ⟨rfl, idle, .refl⟩ reached
  refine ⟨Recorded.callsOnly_of_reaches shut.store, ?_, ?_, ?_⟩
  · intro β view confined
    exact confined.kept (fun location put => put.elim) shut.store
  · intro byte location properties world asks
    exact Service.begin_turnsAway shut known asks
  · intro other like login line uploadless outlet input ending one two
    obtain ⟨same, twin⟩ := Session.run_twin (Session.effects_quiet uploadless input ending)
      (like.twin shut.idle outlet)
    exact ⟨same.symm, twin.outlet.symm, twin.store.symm, twin.logged⟩

/-- Ann's upload is turned away by a gateway that is shut down; the file that is there is downloaded as before. -/
theorem shutdown_stops_uploads_of_two_sessions :
    let objects : SortedMap Location StoredObject := SortedMap.empty.insert ⟨"libs", "a"⟩ ⟨[104, 105], .empty, ⟨0, 0⟩⟩
    let origin : Gateway (Recorded ScriptedStore) :=
      Gateway.new {} { store := { memory := { objects } } } (fun _ _ _ => true) ⟨0, 0⟩
    let begun : Live (Recorded ScriptedStore) := { gateway := origin.shutdown }
    let state := Session.feedAll (Text.encode "C0644 2 b") (Session.start ⟨"ann", "::1", .empty⟩ "scp -t libs/b" begun)
    let fetched (gateway : Gateway (Recorded ScriptedStore)) :=
      Session.run ⟨"ann", "::1", .empty⟩ "scp -f libs/a" [0, 0, 0] .closed { gateway }
    (Session.feed 10 state).1 = .ended (.error shuttingDown) ∧
      (Session.feed 10 state).2.gateway.log.map AccessRecord.status = [500] ∧
      (fetched origin.shutdown).2.outlet = (fetched origin).2.outlet ∧
      (fetched origin).2.outlet.taken.toList = Text.encode "C0644 2 a\nhi" ++ [0] := by
  intro objects origin begun state fetched
  have still : Relation.ReflTransGen (Service.Happens Eq) (.ended (.ok ()), begun) (.ended (.ok ()), begun) := .refl
  have reached : Relation.ReflTransGen (Service.Happens Eq) (.ended (.ok ()), begun) state :=
    .head (.came ⟨"ann", "::1", .empty⟩ "scp -t libs/b" {}) (Service.reached_feedAll _ _)
  have begins : ∃ entry ∈ Session.asked 10 state, ¬ entry.1.BeginsNone := by decide +kernel
  have unlogged : state.2.gateway.log = [] := by decide +kernel
  have parsed : Command.parse "scp -f libs/a" = .ok ⟨.source, false, false, false, false, ["libs/a"]⟩ := by
    decide +kernel
  obtain ⟨⟨effect, world⟩, member, upload⟩ := begins
  obtain ⟨_, _, turnsAway, _⟩ := shutdown_stops_uploads (by rfl) reached
  obtain ⟨_, _, _, alike⟩ := shutdown_stops_uploads (by rfl) still
  cases effect with
  | beginUpload location properties =>
      obtain ⟨_, _, _, _, _, _, _, _, _, _, away⟩ := turnsAway 10 location properties world member
      refine ⟨away.result, ?_, ?_, by decide +kernel⟩
      · rw [away.log, unlogged]
        rfl
      · refine (alike origin ⟨rfl, rfl, rfl, rfl, rfl⟩ _ "scp -f libs/a" (fun command same => ?_) {} _ .closed).2.1
        rw [parsed] at same
        cases same
        exact .inl rfl
  | _ => exact absurd trivial upload

end ArtifactGate
