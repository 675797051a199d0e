import ArtifactGate.Proofs.Session.Output
import ArtifactGate.Proofs.Sink

/-!
Sessions on the sink. Whatever a session does whose paths lead there, it asks the store and the authorizer for
nothing, takes no slot and leaves the gateway as it was, its log aside; and what a client gets from the sink is
an empty file for each path.
-/
namespace ArtifactGate

/-- The effect concerns the client, the log or the clock, and nothing else that a gateway has. -/
def Effect.Apart : Effect → Prop
  | .send _ | .log _ | .now | .listingDepth => True
  | _ => False

/-- The fault is one of the wire, of the client or of a path that leads nowhere. -/
def Fault.Local : Fault → Prop
  | .notFound _ | .protocol _ | .peer _ | .io _ => True
  | _ => False

/-- What effects are answered at some time. Sending fails only if there is a limit to what the client takes. -/
def Effect.AnsweredAt (now : Instant) (limited : Prop) : (effect : Effect) → effect.Answer → Prop
  | .send _, answer => ∀ fault, answer = .error fault → fault.Local ∧ limited
  | .now, answer => answer = now
  | _, _ => True

/-- The part of a session keeps apart from all but the client, the log and the clock. -/
abbrev KeepsApart (now : Instant) (limited : Prop) {α ε : Type} (holds : α → Prop) (fails : ε → Prop)
    (part : ExceptT ε Action α) : Prop :=
  Ensures (Effect.AnsweredAt now limited) Effect.Apart holds fails part

section Faults

variable {fault : Fault} {byte : UInt8}

theorem checkName_local {name : String} (refused : checkName name = .error fault) : fault.Local := by
  rw [checkName] at refused
  split at refused
  · cases refused
  · cases refused
    trivial

namespace Wire

theorem Header.parse_local {line : String} (refused : parse line = .error fault) : fault.Local := by
  rw [parse] at refused
  split at refused
  · cases refused
  · cases refused
    trivial

theorem Timestamps.parse_local {line : String} (refused : parse line = .error fault) : fault.Local := by
  rw [parse] at refused
  split at refused
  · cases refused
  · cases refused
    trivial

theorem Line.text_local {line : Line} (refused : line.text = .error fault) : fault.Local := by
  rw [text] at refused
  split at refused
  · cases refused
  · cases refused
    trivial

theorem Line.push_local {line : Line} (refused : line.push byte = .done (.error fault)) : fault.Local := by
  rw [push] at refused
  split at refused
  · exact text_local (Reading.done.inj refused)
  · split at refused
    · cases refused
      trivial
    · cases refused

theorem Acknowledgement.push_local {state : Acknowledgement} (refused : state.push byte = .done (.error fault)) :
    fault.Local := by
  cases state with
  | status =>
      rw [push] at refused
      split at refused
      · cases refused
      · split at refused <;> cases refused
  | message isError line =>
      rw [push] at refused
      split at refused
      · cases refused
      · rename_i pushed
        cases refused
        exact Line.push_local pushed
      · split at refused <;> cases refused
        trivial

theorem Acknowledgement.atEnd_local {state : Acknowledgement} {mayEnd : Bool}
    (refused : state.atEnd mayEnd = .error fault) : fault.Local := by
  cases state with
  | status =>
      cases mayEnd <;> cases refused
      trivial
  | message isError line =>
      cases refused
      trivial

end Wire

end Faults

section Parts

variable {α : Type} {now : Instant} {limited : Prop} {holds : α → Prop} {fails : Failure → Prop}

theorem send_keepsApart (bytes : List UInt8) :
    KeepsApart now limited (fun _ => True) (fun fault => fault.Local ∧ limited) (send bytes) := by
  refine Ensures.mk ⟨trivial, fun answer possible => ?_⟩
  cases answer with
  | ok _ => trivial
  | error fault => exact possible fault rfl

theorem logSuccess_keepsApart (transfer : Transfer) (site : Site) :
    KeepsApart now limited (fun _ => True) fails (transfer.logSuccess site) :=
  Ensures.lift ⟨trivial, fun _ _ => trivial⟩

theorem ofExcept_keepsApart (result : Except Fault α) (lose : ∀ fault, result = .error fault → fails { fault }) :
    KeepsApart now limited (fun value => result = .ok value) fails (Step.ofExcept result) := by
  cases result with
  | ok value => exact Ensures.pure rfl
  | error fault => exact Ensures.throw (lose fault rfl)

end Parts

section Worlds

variable {α ε σ : Type}

/-- The log may have changed, and nothing else. -/
def Gateway.OnlyLogs (before after : Gateway σ) : Prop :=
  after = { before with log := after.log }

theorem Gateway.OnlyLogs.trans {first middle last : Gateway σ} (start : first.OnlyLogs middle)
    (rest : middle.OnlyLogs last) : first.OnlyLogs last := by
  rw [OnlyLogs] at start rest ⊢
  rw [rest, start]

/-- The uploads in progress were begun before the next one is. -/
def Gateway.Fresh (gateway : Gateway σ) : Prop :=
  ∀ number ∈ gateway.numbers, number < gateway.nextUpload

/-- What a session leaves of a gateway that it keeps to: when it waits for ever, the uploads of others go on. -/
def Gateway.after [RemoteStore σ] (gateway : Gateway σ) : Except Fault Unit → Gateway σ
  | .error .cancelled => gateway.settle
  | _ => gateway

theorem Gateway.after_local [RemoteStore σ] (gateway : Gateway σ) {fault : Fault} (own : fault.Local) :
    gateway.after (.error fault) = gateway := by
  cases fault <;> first | rfl | exact own.elim

theorem Gateway.abandonSince_fresh [RemoteStore σ] {gateway : Gateway σ} {mark : Nat}
    (fresh : ∀ number ∈ gateway.numbers, number < mark) : gateway.abandonSince mark = gateway := by
  have none : (gateway.uploads.filter fun entry => mark ≤ entry.1) = [] := by
    apply List.filter_eq_nil_iff.2
    intro entry member
    have earlier := fresh entry.1 (List.mem_map_of_mem member)
    simpa using earlier
  rw [abandonSince, none]
  rfl

theorem Gateway.settle_onlyLogs [RemoteStore σ] {before after : Gateway σ} (keeps : before.OnlyLogs after) :
    before.settle.OnlyLogs after.settle := by
  have polled (count : Nat) (gateway : Gateway σ) (log : List AccessRecord) :
      count.repeat pollAll { gateway with log } = { count.repeat pollAll gateway with log } := by
    induction count with
    | zero => rfl
    | succ count ih => exact congrArg pollAll ih
  have settled : settle { before with log := after.log } = { before.settle with log := after.log } :=
    polled _ before after.log
  rw [keeps, OnlyLogs, settled]

namespace Live

/-- The gateway is as before, its log aside, and so is what the client takes. -/
structure KeepsTo (before after : Live σ) : Prop where
  gateway : before.gateway.OnlyLogs after.gateway
  limit : after.outlet.limit = before.outlet.limit

theorem KeepsTo.refl (live : Live σ) : live.KeepsTo live := ⟨rfl, rfl⟩

theorem KeepsTo.trans {first middle last : Live σ} (start : first.KeepsTo middle) (rest : middle.KeepsTo last) :
    first.KeepsTo last :=
  ⟨start.gateway.trans rest.gateway, rest.limit.trans start.limit⟩

theorem KeepsTo.now {before after : Live σ} (keeps : before.KeepsTo after) :
    after.gateway.now = before.gateway.now := by
  rw [keeps.gateway]

variable [RemoteStore σ]

theorem perform_apart {effect : Effect} (apart : effect.Apart) (live : Live σ) :
    live.KeepsTo (live.perform effect).2 ∧ ∀ answer, (live.perform effect).1 = some answer →
      effect.AnsweredAt live.gateway.now (live.outlet.limit ≠ none) answer := by
  refine ⟨⟨?_, perform_limit effect live⟩, ?_⟩
  · cases effect <;> first | rfl | exact apart.elim
  · cases effect with
    | send bytes =>
        rintro answer answered fault rfl
        obtain ⟨rfl, limited⟩ := Outlet.refused answered
        exact ⟨trivial, limited⟩
    | now => exact fun answer same => (Option.some.inj same).symm
    | _ => exact fun _ _ => trivial

variable {origin live : Live σ} {holds : α → Prop} {fails : ε → Prop} {part : ExceptT ε Action α}

/-- The part keeps apart, on the world it begins in. -/
abbrev Apart (origin : Live σ) (holds : α → Prop) (fails : ε → Prop) (part : ExceptT ε Action α) : Prop :=
  KeepsApart origin.gateway.now (origin.outlet.limit ≠ none) holds fails part

theorem keeps_of_apart (origin : Live σ) (effect : Effect) (apart : effect.Apart) (world : Live σ)
    (keeps : origin.KeepsTo world) : origin.KeepsTo (perform effect world).2 ∧
      ∀ answer, (perform effect world).1 = some answer →
        effect.AnsweredAt origin.gateway.now (origin.outlet.limit ≠ none) answer := by
  obtain ⟨further, answers⟩ := perform_apart apart world
  rw [keeps.now, keeps.limit] at answers
  exact ⟨keeps.trans further, answers⟩

theorem ends_of_apart (apart : origin.Apart holds fails part) (keeps : origin.KeepsTo live) :
    live.Ends part (fun value after => holds value ∧ origin.KeepsTo after)
      (fun failure after => (∀ known, failure = some known → fails known) ∧ origin.KeepsTo after) :=
  ends_of_ensures apart origin.KeepsTo origin.keeps_of_apart keeps

/-- A part that cannot fail gives its value if the client takes whatever it is sent. -/
theorem gives_of_apart (apart : origin.Apart holds (fun _ => False) part) (keeps : origin.KeepsTo live)
    (unlimited : origin.outlet.limit = none) :
    live.Gives part fun value after => holds value ∧ origin.KeepsTo after := by
  have answered (effect : Effect) (apart : effect.Apart) (world : Live σ) (keeps : origin.KeepsTo world) :
      (perform effect world).1 ≠ none := by
    cases effect with
    | send bytes =>
        rw [perform, Outlet.take_unlimited (keeps.limit.trans unlimited)]
        exact Option.some_ne_none _
    | log entry => exact Option.some_ne_none _
    | now => exact Option.some_ne_none _
    | listingDepth => exact Option.some_ne_none _
    | _ => exact apart.elim
  obtain ⟨result, ran⟩ := apart.heeds.ends perform origin.KeepsTo origin.keeps_of_apart answered keeps
  have ends := ends_of_apart apart keeps
  rw [Ends] at ends
  rw [← Live.run] at ran
  rcases ended : live.run part.run with ⟨_ | failure | value, after⟩ <;> simp only [ended] at ran ends
  · cases ran
  · exact (ends.1 failure rfl).elim
  · exact ⟨value, after, ended, ends⟩

theorem asked_of_apart (apart : origin.Apart holds fails part) (keeps : origin.KeepsTo live) :
    ∀ entry ∈ live.asked part, entry.1.Apart ∧ origin.KeepsTo entry.2 :=
  Action.Heeds.asked apart.heeds perform origin.KeepsTo origin.keeps_of_apart keeps

end Live

end Worlds

def Failure.Local (failure : Failure) : Prop := failure.fault.Local

section Receiving

variable {α : Type} {now : Instant} {limited : Prop} {holds : α → Prop}

section Failing

variable {transfer : Transfer} {attempt : Attempt α} (apart : KeepsApart now limited holds Fault.Local attempt)

include apart

theorem unlogged_keepsApart : KeepsApart now limited holds Failure.Local (Step.unlogged attempt) :=
  apart.unlogged fun _ own => own

theorem logging_keepsApart (site : Site) :
    KeepsApart now limited holds Failure.Local (transfer.logging site attempt) :=
  apart.logging (fun _ => trivial) fun _ own => own

theorem loggingIn_keepsApart (site? : Option Site) :
    KeepsApart now limited holds Failure.Local (transfer.loggingIn site? attempt) :=
  apart.loggingIn (fun _ _ => trivial) fun _ _ own => own

end Failing

theorem result_keepsApart (result : Except Fault α) (own : ∀ fault, result = .error fault → fault.Local) :
    KeepsApart now limited (fun value => result = .ok value) Fault.Local
      (ExceptT.mk (pure result) : Attempt α) := by
  cases result with
  | ok value => exact Ensures.pure rfl
  | error fault => exact Ensures.throw (own fault rfl)

theorem sendOk_keepsApart : KeepsApart now limited (fun _ => True) Fault.Local sendOk :=
  (send_keepsApart _).mono (fun _ valid => valid) fun _ failed => failed.1

theorem checkName_keepsApart (name : String) :
    KeepsApart now limited (fun _ => True) Fault.Local (ExceptT.mk (pure (checkName name)) : Attempt Unit) :=
  (result_keepsApart _ fun _ => checkName_local).mono (fun _ _ => trivial) fun _ own => own

theorem lookUp_apart (user : String) {location : Location} (sink : location.isSink = true) :
    (Node.lookUp user location).Heeds (Effect.AnsweredAt now limited) Effect.Apart
      (· = Node.ofSink now user location) := by
  rw [Node.lookUp_sink user sink]
  exact ⟨trivial, fun answer same => congrArg (Node.ofSink · user location) same⟩

theorem resolve_keepsApart {fails : Fault → Prop} (user : String) {path : String}
    (sink : (Location.resolve path).isSink = true) :
    KeepsApart now limited (· = Node.ofSink now user (Location.resolve path)) fails (Node.resolve user path) := by
  have named : (Location.resolve path).isEmpty = false := by
    rw [Location.isSink, beq_iff_eq] at sink
    rw [Location.isEmpty, sink]
    rfl
  rw [Node.resolve]
  apply Ensures.refuse fun empty => absurd (named.symm.trans empty) Bool.false_ne_true
  intro _
  exact Ensures.lift (lookUp_apart user sink)

variable {target : Node}

theorem fileTarget_keepsApart (inside : target.InSink) (name : String) :
    KeepsApart now limited Node.InSink Fault.Local (fileTarget target name) := by
  have chosen : chooseFileTarget target name = pure target := by
    simp only [chooseFileTarget, inside.file, if_true]
  rw [fileTarget, chosen]
  apply Ensures.bind (checkName_keepsApart name)
  intro _ _
  rw [pure_bind]
  apply Ensures.refuse fun _ => trivial
  intro _
  rw [Node.isWritable, inside.allows]
  exact Ensures.pure inside

theorem directoryTarget_keepsApart (inside : target.InSink) (name : String) :
    KeepsApart now limited Node.InSink Fault.Local (directoryTarget target name) := by
  have below : (target.location.childDirectory name).isSink = true := by
    rw [Location.isSink, Location.childDirectory_repository]
    exact inside.location
  rw [directoryTarget]
  apply Ensures.bind (checkName_keepsApart name)
  intro _ _
  apply Ensures.refuse fun _ => trivial
  intro _
  apply Ensures.bind (Ensures.lift (lookUp_apart target.user below))
  rintro directory rfl
  have inside := Node.inSink_ofSink now target.user below
  apply Ensures.refuse fun _ => trivial
  intro _
  rw [Node.isWritable, inside.allows]
  exact Ensures.pure inside

/-- A file that is coming in is dropped. -/
def Reception.Drops : Reception → Prop
  | .body file => ∃ written, file.writer = .sink written
  | _ => True

namespace Receiver

/-- The receiver stands in the sink, and a file that is coming in is dropped there. -/
structure InSink (receiver : Receiver) : Prop where
  target : receiver.level.target.InSink
  outer : ∀ level ∈ receiver.outer, level.target.InSink
  drops : receiver.phase.Drops

theorem start_keepsApart (transfer : Transfer) {path : String} (sink : (Location.resolve path).isSink = true) :
    KeepsApart now limited InSink Failure.Local (start transfer path) := by
  rw [start]
  apply Ensures.bind (unlogged_keepsApart (resolve_keepsApart transfer.login.user sink))
  rintro target rfl
  apply Ensures.refuse fun _ => trivial
  intro _
  apply Ensures.bind (unlogged_keepsApart sendOk_keepsApart)
  intro _ _
  exact Ensures.pure ⟨Node.inSink_ofSink now _ sink, List.forall_mem_nil _, trivial⟩

variable {level : Level} {outer : List Level} {file : Incoming} {written : Nat}

theorem awaitBody_keepsApart (target : level.target.InSink) (others : ∀ level ∈ outer, level.target.InSink)
    (dropped : file.writer = .sink written) (phase : Reception) :
    KeepsApart now limited (·.Holds InSink) Fault.Local (awaitBody ⟨level, outer, phase⟩ file) := by
  rw [awaitBody]
  split
  · rw [finishFile, dropped, Writer.finish]
    have finished : KeepsApart now limited (fun _ => True) Fault.Local (pure written : Attempt Nat) :=
      Ensures.pure trivial
    apply Ensures.bind finished
    intro _ _
    apply Ensures.bind sendOk_keepsApart
    intro _ _
    exact Ensures.pure ⟨target, others, trivial⟩
  · exact Ensures.pure ⟨target, others, written, dropped⟩

theorem openFile_keepsApart (transfer : Transfer) (target : level.target.InSink)
    (others : ∀ level ∈ outer, level.target.InSink) (header : Wire.Header) (phase : Reception) :
    KeepsApart now limited (·.Holds InSink) Failure.Local (openFile transfer ⟨level, outer, phase⟩ header) := by
  rw [openFile]
  apply Ensures.bind (logging_keepsApart (fileTarget_keepsApart target header.name) _)
  intro node inside
  have opens := ((inside.withSize header.length).withProperties (fileProperties transfer header level.times)).openWrite
  have opened : KeepsApart now limited (· = .sink 0) Fault.Local (pure (.sink 0) : Attempt Writer) :=
    Ensures.pure rfl
  apply logging_keepsApart
  rw [beginFile, opens]
  apply Ensures.bind opened
  rintro writer rfl
  apply Ensures.bind sendOk_keepsApart
  intro _ _
  exact awaitBody_keepsApart (by exact target) others rfl phase

theorem enter_keepsApart (transfer : Transfer) (target : level.target.InSink)
    (others : ∀ level ∈ outer, level.target.InSink) (header : Wire.Header) (phase : Reception) :
    KeepsApart now limited (·.Holds InSink) Failure.Local (enter transfer ⟨level, outer, phase⟩ header) := by
  rw [enter]
  apply Ensures.refuse fun _ => trivial
  intro _
  apply Ensures.bind (unlogged_keepsApart (directoryTarget_keepsApart target header.name))
  intro directory inside
  apply Ensures.bind (unlogged_keepsApart sendOk_keepsApart)
  intro _ _
  exact Ensures.pure ⟨inside, List.forall_mem_cons.2 ⟨target, others⟩, trivial⟩

theorem leave_keepsApart (others : ∀ level ∈ outer, level.target.InSink) (phase : Reception) :
    KeepsApart now limited (·.Holds InSink) Failure.Local (leave ⟨level, outer, phase⟩) := by
  apply Ensures.bind (unlogged_keepsApart sendOk_keepsApart)
  intro _ _
  cases outer with
  | nil => exact Ensures.pure trivial
  | cons next rest =>
      obtain ⟨first, others⟩ := List.forall_mem_cons.1 others
      exact Ensures.pure ⟨first, others, trivial⟩

theorem onLine_keepsApart (transfer : Transfer) (target : level.target.InSink)
    (others : ∀ level ∈ outer, level.target.InSink) (kind : LineKind) (text : String) :
    KeepsApart now limited (·.Holds InSink) Failure.Local (onLine transfer ⟨level, outer, .control⟩ kind text) := by
  cases kind with
  | times =>
      apply Ensures.bind (ofExcept_keepsApart _ fun _ => Wire.Timestamps.parse_local)
      intro times _
      apply Ensures.bind (unlogged_keepsApart sendOk_keepsApart)
      intro _ _
      exact Ensures.pure ⟨target, others, trivial⟩
  | file =>
      apply Ensures.bind (ofExcept_keepsApart _ fun _ => Wire.Header.parse_local)
      exact fun header _ => openFile_keepsApart transfer target others header .control
  | directory =>
      apply Ensures.bind (ofExcept_keepsApart _ fun _ => Wire.Header.parse_local)
      exact fun header _ => enter_keepsApart transfer target others header .control
  | leave => exact leave_keepsApart others .control
  | warning => exact Ensures.pure ⟨target, others, trivial⟩
  | error => exact Ensures.throw trivial

/-- Whatever a byte makes of a receiver in the sink, it stays there. -/
theorem push_keepsApart (transfer : Transfer) {receiver : Receiver} (inside : receiver.InSink) (byte : UInt8) :
    KeepsApart now limited (·.Holds InSink) Failure.Local (receiver.push transfer byte) := by
  obtain ⟨level, outer, phase⟩ := receiver
  obtain ⟨target, others, drops⟩ := inside
  cases phase with
  | control =>
      rw [push]
      cases lineKind? byte with
      | none => exact Ensures.throw trivial
      | some kind => exact Ensures.pure ⟨target, others, trivial⟩
  | line kind line =>
      rw [push]
      cases pushed : line.push byte with
      | more next => exact Ensures.pure ⟨target, others, trivial⟩
      | done result =>
          apply Ensures.bind (ofExcept_keepsApart result fun _ same => Wire.Line.push_local (same ▸ pushed))
          exact fun text _ => onLine_keepsApart transfer target others kind text
  | body file =>
      obtain ⟨written, dropped⟩ := drops
      have wrote : KeepsApart now limited (· = .sink (written + [byte].length)) Fault.Local
          (file.writer.write [byte]) := by
        rw [dropped]
        exact Ensures.pure rfl
      rw [push]
      apply logging_keepsApart
      apply Ensures.bind wrote
      rintro writer rfl
      exact awaitBody_keepsApart target others rfl .control
  | lastWord site state =>
      rw [push]
      cases pushed : state.push byte with
      | more next => exact Ensures.pure ⟨target, others, trivial⟩
      | done word =>
          apply Ensures.bind (logging_keepsApart (result_keepsApart word fun _ same =>
            Wire.Acknowledgement.push_local (same ▸ pushed)) site)
          intro _ _
          apply Ensures.bind (logSuccess_keepsApart transfer site)
          exact fun _ _ => Ensures.pure ⟨target, others, trivial⟩

theorem atEnd_keepsApart (transfer : Transfer) (receiver : Receiver) :
    KeepsApart now limited (fun _ => True) Failure.Local (receiver.atEnd transfer) := by
  obtain ⟨level, outer, phase⟩ := receiver
  rw [atEnd]
  cases phase with
  | control => exact Ensures.pure trivial
  | line kind line => exact Ensures.throw trivial
  | body file =>
      have cut : KeepsApart now limited (fun _ => True) Fault.Local (throw (cutShort file) : Attempt Unit) :=
        Ensures.throw trivial
      exact logging_keepsApart cut file.node.site
  | lastWord site state =>
      apply Ensures.bind (logging_keepsApart (result_keepsApart _ fun _ => Wire.Acknowledgement.atEnd_local) site)
      exact fun _ _ => logSuccess_keepsApart transfer site

end Receiver

end Receiving

namespace Glob

/-- A search that has nothing to begin with finds nothing. -/
theorem search_nil (pattern : Pattern) (recursive endless : Bool) (more : Nat) :
    search pattern recursive endless more [] = pure [] := by
  cases more <;> rfl

/-- Nothing in the sink matches a pattern. -/
theorem scan_keepsApart {now : Instant} {limited : Prop} {base : Node} (inside : base.InSink) (text : String)
    (recursive : Bool) : KeepsApart now limited (· = []) Fault.Local (scan base text recursive) := by
  have listed : KeepsApart now limited (· = []) Fault.Local (liftM base.children : Attempt (List Node)) := by
    rw [inside.children]
    exact Ensures.lift rfl
  have searched (pattern : Pattern) (endless : Bool) (more : Nat) :
      (search pattern recursive endless more []).Heeds (Effect.AnsweredAt now limited) Effect.Apart (· = []) := by
    rw [search_nil]
    rfl
  have sorted : (sortResults []).map Candidate.node = [] := by
    rw [sortResults, List.mergeSort_nil]
    rfl
  rw [scan]
  cases Pattern.parse text with
  | error flaw => exact Ensures.throw trivial
  | ok pattern =>
      apply Ensures.bind listed
      rintro _ rfl
      cases levelLimit? text with
      | some limit =>
          apply Ensures.bind (Ensures.lift (searched pattern false _))
          rintro _ rfl
          exact Ensures.pure sorted
      | none =>
          have deep : (Action.request .listingDepth >>= fun depth => search pattern recursive true depth []).Heeds
              (Effect.AnsweredAt now limited) Effect.Apart (· = []) :=
            ⟨trivial, fun depth _ => searched pattern true depth⟩
          apply Ensures.bind (Ensures.lift deep)
          rintro _ rfl
          exact Ensures.pure sorted

end Glob

namespace Sender

/-- What is opened of a file in the sink. -/
def nothing : OpenedContent := { length := 0, bytes := [] }

/-- What a client is sent for a path in the sink, one part for each acknowledgement: an empty file. -/
def emptyFile (transfer : Transfer) (now : Instant) (path : String) : List (List UInt8) :=
  let node := Node.ofSink now transfer.login.user (Location.resolve path)
  (if transfer.command.preserve then [Wire.lineBytes (timesLine node)] else []) ++
    [Wire.lineBytes (fileHeader ⟨node, nothing⟩), [Wire.okStatus]]

/-- What a client is sent for some paths in the sink, up to the first that is a pattern. -/
def script (transfer : Transfer) (now : Instant) (paths : List String) : List (List UInt8) :=
  (paths.takeWhile fun path => !Glob.hasGlob path).flatMap (emptyFile transfer now)

/-- What is still to be sent while a client is to acknowledge something, with some paths not taken up. -/
inductive Leaves (transfer : Transfer) (now : Instant) (rest : List String) : Pending → List (List UInt8) → Prop
  | request : Leaves transfer now rest .request (script transfer now rest)
  | times {node : Node} : Leaves transfer now rest (.fileTimes ⟨node, nothing⟩)
      (Wire.lineBytes (fileHeader ⟨node, nothing⟩) :: [Wire.okStatus] :: script transfer now rest)
  | header {node : Node} :
      Leaves transfer now rest (.fileHeader ⟨node, nothing⟩) ([Wire.okStatus] :: script transfer now rest)
  | body {file : Outgoing} : Leaves transfer now rest (.fileBody file) (script transfer now rest)

/-- A sender of some paths in the sink, with these parts still to be sent; no pattern was taken up. -/
def Plays (transfer : Transfer) (now : Instant) (paths : List String) (parts : List (List UInt8))
    (sender : Sender) : Prop :=
  ∃ taken rest, paths = taken ++ rest ∧ (∀ path ∈ taken, Glob.hasGlob path = false) ∧
    sender.agenda = rest.map .path ∧ Leaves transfer now rest sender.pending parts

/-- What an acknowledgement makes of a sender: the next part is sent, or there is none and all is over. -/
def Goes (transfer : Transfer) (now : Instant) (paths : List String) (parts : List (List UInt8)) :
    Progress Sender → Prop
  | .waiting sender =>
    ∃ first more, parts = first :: more ∧ sender.state = .status ∧ Plays transfer now paths more sender
  | .over => parts = [] ∧ ∀ path ∈ paths, Glob.hasGlob path = false

/-- What a byte makes of a sender of paths in the sink. -/
def Turns (transfer : Transfer) (now : Instant) (paths : List String) (progress : Progress Sender) : Prop :=
  progress.Holds fun sender => ∃ parts, Plays transfer now paths parts sender

theorem turns_of_goes {transfer : Transfer} {now : Instant} {paths : List String} {parts : List (List UInt8)}
    {progress : Progress Sender} (goes : Goes transfer now paths parts progress) :
    Turns transfer now paths progress := by
  cases progress with
  | waiting sender =>
      obtain ⟨_, more, _, _, plays⟩ := goes
      exact ⟨more, plays⟩
  | _ => trivial

/-- Why a sender of paths in the sink fails: the client takes no more, or one of the paths is a pattern. -/
def Stops (limited : Prop) (paths : List String) (failure : Failure) : Prop :=
  failure.Local ∧ (limited ∨ ∃ path ∈ paths, Glob.hasGlob path = true)

section Playing

variable {now : Instant} {limited : Prop} {transfer : Transfer} {taken paths rest : List String}
  {agenda : List Job} {path : String} {node : Node}

/-- Nothing is found for a pattern in the sink. -/
theorem nodesOf_pattern (pattern : Glob.hasGlob path = true) (sink : (base path).isSink = true) :
    KeepsApart now limited (fun _ => False) Fault.Local (nodesOf transfer path) := by
  rw [base, if_pos pattern] at sink
  rw [nodesOf, if_pos pattern]
  apply Ensures.bind (resolve_keepsApart transfer.login.user sink)
  rintro base rfl
  apply Ensures.bind (Glob.scan_keepsApart (Node.inSink_ofSink now _ sink) _ _)
  rintro _ rfl
  exact Ensures.throw trivial

theorem nodesOf_plain {fails : Fault → Prop} (plain : Glob.hasGlob path = false) (sink : (base path).isSink = true) :
    KeepsApart now limited (· = [Node.ofSink now transfer.login.user (Location.resolve path)]) fails
      (nodesOf transfer path) := by
  have other := Bool.eq_false_iff.1 plain
  rw [base, if_neg other] at sink
  rw [nodesOf, if_neg other]
  apply Ensures.bind (resolve_keepsApart transfer.login.user sink)
  rintro node rfl
  exact Ensures.pure rfl

/-- Something is sent, and then the client is to acknowledge it. -/
def tell (bytes : List UInt8) (pending : Pending) (agenda : List Job) : Attempt (Progress Sender) := do
  send bytes
  return await pending agenda

theorem beginNode_sink (inside : node.InSink) (transfer : Transfer) (agenda : List Job) :
    beginNode transfer node agenda = transfer.logging node.site
      (if transfer.command.preserve then
        tell (Wire.lineBytes (timesLine node)) (.fileTimes ⟨node, nothing⟩) agenda
      else tell (Wire.lineBytes (fileHeader ⟨node, nothing⟩)) (.fileHeader ⟨node, nothing⟩) agenda) := by
  rw [beginNode, if_pos inside.file, beginFile, inside.openRead]
  rfl

theorem sendBody_nothing (node : Node) (agenda : List Job) :
    sendBody ⟨node, nothing⟩ agenda = (do
      send []
      tell [Wire.okStatus] (.fileBody ⟨node, nothing⟩) agenda) := rfl

theorem tell_keepsApart {holds : Progress Sender → Prop} {pending : Pending} (bytes : List UInt8)
    (goes : holds (await pending agenda)) :
    KeepsApart now limited holds (fun fault => fault.Local ∧ limited) (tell bytes pending agenda) :=
  Ensures.bind (send_keepsApart bytes) fun _ _ => Ensures.pure goes

theorem logging_stops {holds : Progress Sender → Prop} {attempt : Attempt (Progress Sender)}
    (apart : KeepsApart now limited holds (fun fault => fault.Local ∧ limited) attempt) (site : Site) :
    KeepsApart now limited holds (Stops limited paths) (transfer.logging site attempt) :=
  apart.logging (fun _ => trivial) fun _ failed => ⟨failed.1, .inl failed.2⟩

theorem script_plain (plain : Glob.hasGlob path = false) (rest : List String) :
    script transfer now (path :: rest) = emptyFile transfer now path ++ script transfer now rest := by
  simp only [script, List.takeWhile_cons, plain, Bool.not_false, if_true, List.flatMap_cons]

/-- A path in the sink is taken up by the first part of its empty file. -/
theorem takeUp_keepsApart (sink : (Location.resolve path).isSink = true) (split : paths = taken ++ path :: rest)
    (plain : ∀ path ∈ taken, Glob.hasGlob path = false) (alone : Glob.hasGlob path = false) :
    KeepsApart now limited (Goes transfer now paths (script transfer now (path :: rest))) (Stops limited paths)
      (beginNode transfer (Node.ofSink now transfer.login.user (Location.resolve path)) (rest.map .path)) := by
  have split : paths = (taken ++ [path]) ++ rest := by
    rw [split, List.append_assoc, List.singleton_append]
  have plain : ∀ earlier ∈ taken ++ [path], Glob.hasGlob earlier = false :=
    List.forall_mem_append.2 ⟨plain, List.forall_mem_singleton.2 alone⟩
  rw [beginNode_sink (Node.inSink_ofSink now _ sink), script_plain alone, emptyFile]
  apply logging_stops
  cases transfer.command.preserve with
  | true =>
      apply tell_keepsApart
      exact ⟨_, _, rfl, rfl, _, rest, split, plain, rfl, .times⟩
  | false =>
      apply tell_keepsApart
      exact ⟨_, _, rfl, rfl, _, rest, split, plain, rfl, .header⟩

/-- The paths that are not taken up go on with the first of them. -/
theorem proceed_keepsApart (sinks : ∀ path ∈ paths, (base path).isSink = true) (split : paths = taken ++ rest)
    (plain : ∀ path ∈ taken, Glob.hasGlob path = false) :
    KeepsApart now limited (Goes transfer now paths (script transfer now rest)) (Stops limited paths)
      (proceed transfer (rest.map .path)) := by
  cases rest with
  | nil => exact Ensures.pure ⟨rfl, by rwa [split, List.append_nil]⟩
  | cons path rest =>
      have among : path ∈ paths := split ▸ List.mem_append_right _ List.mem_cons_self
      have sink := sinks path among
      rw [List.map_cons, proceed]
      cases pattern : Glob.hasGlob path with
      | true =>
          have stops : KeepsApart now limited (fun _ => False) (Stops limited paths)
              (Step.unlogged (nodesOf transfer path)) :=
            Ensures.adapt ((nodesOf_pattern pattern sink).mono (fun _ impossible => impossible)
              fun _ failed => ⟨failed, .inr ⟨path, among, pattern⟩⟩)
          exact Ensures.bind stops fun _ impossible => impossible.elim
      | false =>
          apply Ensures.bind (Ensures.adapt (nodesOf_plain pattern sink))
          rintro _ rfl
          exact takeUp_keepsApart (Location.isSink_of_base sink) split plain pattern

/-- What a client acknowledges makes a sender of paths in the sink send the next part. -/
theorem acknowledged_keepsApart {parts : List (List UInt8)} {sender : Sender}
    (sinks : ∀ path ∈ paths, (base path).isSink = true) (plays : Plays transfer now paths parts sender) :
    KeepsApart now limited (Goes transfer now paths parts) (Stops limited paths)
      (acknowledged transfer sender.agenda sender.pending) := by
  obtain ⟨pending, state, agenda⟩ := sender
  obtain ⟨taken, rest, split, plain, rfl, leaves⟩ := plays
  cases leaves with
  | request => exact proceed_keepsApart sinks split plain
  | times =>
      apply logging_stops
      apply tell_keepsApart
      exact ⟨_, _, rfl, rfl, taken, rest, split, plain, rfl, .header⟩
  | header =>
      rw [acknowledged, sendBody_nothing]
      apply logging_stops
      apply Ensures.bind (send_keepsApart [])
      intro _ _
      apply tell_keepsApart
      exact ⟨_, _, rfl, rfl, taken, rest, split, plain, rfl, .body⟩
  | body =>
      apply Ensures.bind (logSuccess_keepsApart transfer _)
      exact fun _ _ => proceed_keepsApart sinks split plain

theorem push_keepsApart {parts : List (List UInt8)} {sender : Sender}
    (sinks : ∀ path ∈ paths, (base path).isSink = true) (plays : Plays transfer now paths parts sender)
    (byte : UInt8) : KeepsApart now limited (Turns transfer now paths) Failure.Local (sender.push transfer byte) := by
  rw [push]
  cases pushed : sender.state.push byte with
  | more state => exact Ensures.pure ⟨parts, plays⟩
  | done word =>
      apply Ensures.bind (loggingIn_keepsApart (result_keepsApart word fun _ same =>
        Wire.Acknowledgement.push_local (same ▸ pushed)) _)
      intro _ _
      exact (acknowledged_keepsApart sinks plays).mono (fun _ => turns_of_goes) fun _ stops => stops.1

theorem atEnd_keepsApart (sender : Sender) :
    KeepsApart now limited (fun _ => True) Failure.Local (sender.atEnd transfer) :=
  loggingIn_keepsApart ((result_keepsApart _ fun _ => Wire.Acknowledgement.atEnd_local).mono (fun _ _ => trivial)
    fun _ own => own) _

end Playing

end Sender

namespace Session

variable {σ : Type} [RemoteStore σ] {transfer : Transfer} {origin live : Live σ} {mark : Nat}

/-- The session is on the sink: the gateway is as at its beginning, and it fails for reasons of its own. -/
def InSink (transfer : Transfer) (origin : Live σ) (state : Session × Live σ) : Prop :=
  match state.1 with
  | .receiving given mark receiver =>
    given = transfer ∧ mark = origin.gateway.nextUpload ∧ receiver.InSink ∧ origin.KeepsTo state.2
  | .sending given sender =>
    given = transfer ∧ origin.KeepsTo state.2 ∧
      ∃ parts, sender.Plays transfer origin.gateway.now transfer.command.paths parts
  | .ended result =>
    (∀ fault, result = .error fault → fault.Local ∨ fault = .cancelled) ∧
      (origin.gateway.Fresh → (origin.gateway.after result).OnlyLogs state.2.gateway)

theorem breakOff_keepsApart {now : Instant} {limited : Prop} (transfer : Transfer) (site? : Option Site)
    (reason : String) :
    KeepsApart now limited (fun _ => True) Failure.Local (breakOff transfer site? reason) := by
  have broken : KeepsApart now limited (fun _ => True) Fault.Local (throw (.io reason) : Attempt Unit) :=
    Ensures.throw trivial
  exact loggingIn_keepsApart broken site?

theorem report_keepsTo (fault : Fault) (live : Live σ) : live.KeepsTo (report fault live) :=
  ((Live.ends_of_apart (send_keepsApart _) (.refl live)).mono (fun _ _ ended => ended.2) fun _ _ lost => lost.2).reached

theorem fail_onlyLogs {before : Gateway σ} (keeps : before.OnlyLogs live.gateway)
    (fresh : ∀ number ∈ before.numbers, number < mark) (transfer : Transfer) (failure : Failure) :
    before.OnlyLogs (fail transfer mark failure live).2.gateway := by
  have same : live.gateway.abandonSince mark = live.gateway := by
    apply Gateway.abandonSince_fresh
    rwa [keeps]
  apply fail_keeps (fun world => before.OnlyLogs world.gateway) transfer failure
  · dsimp only
    rwa [same]
  · intro world entry keeps
    rw [Live.withEntry, keeps]
    rfl
  · exact fun world keeps => keeps.trans (report_keepsTo _ world).gateway

/-- A session on the sink that fails leaves the gateway as it was. -/
theorem fail_inSink (keeps : origin.KeepsTo live) (first : origin.gateway.nextUpload ≤ mark) {failure : Failure}
    (own : failure.Local) : InSink transfer origin (fail transfer mark failure live) := by
  refine ⟨fun fault same => .inl (Except.error.inj same ▸ own), fun fresh => ?_⟩
  rw [Gateway.after_local _ own]
  exact fail_onlyLogs keeps.gateway (fun number member => Nat.lt_of_lt_of_le (fresh number member) first) transfer _

theorem cancel_inSink (keeps : origin.KeepsTo live) (first : origin.gateway.nextUpload ≤ mark) :
    InSink transfer origin (cancel transfer mark live) := by
  refine ⟨fun fault same => .inr (Except.error.inj same).symm, fun fresh => ?_⟩
  apply fail_onlyLogs (Gateway.settle_onlyLogs keeps.gateway)
  intro number member
  replace member : number ∈ origin.gateway.settle.numbers := member
  rw [(Gateway.settle_undisturbed origin.gateway).numbers] at member
  exact Nat.lt_of_lt_of_le (fresh number member) first

theorem carryOut_inSink {α : Type} {step : Step α} {next : α → Session} {holds : α → Prop}
    (apart : origin.Apart holds Failure.Local step) (keeps : origin.KeepsTo live)
    (first : origin.gateway.nextUpload ≤ mark)
    (goesOn : ∀ value (after : Live σ), holds value → origin.KeepsTo after →
      InSink transfer origin (next value, after)) :
    InSink transfer origin (carryOut transfer mark step next live) := by
  have ends := Live.ends_of_apart apart keeps
  rw [Live.Ends] at ends
  rw [carryOut]
  rcases ran : live.run step.run with ⟨_ | failure | value, after⟩ <;> simp only [ran] at ends
  · exact cancel_inSink ends.2 first
  · exact fail_inSink ends.2 first (ends.1 failure rfl)
  · exact goesOn value after ends.1 ends.2

theorem over_inSink (keeps : origin.KeepsTo live) : InSink transfer origin (.ended (.ok ()), live) := by
  refine ⟨?_, fun _ => keeps.gateway⟩
  intro _ absent
  cases absent

omit [RemoteStore σ] in
theorem mark_of_keepsTo (keeps : origin.KeepsTo live) : origin.gateway.nextUpload ≤ live.gateway.nextUpload := by
  rw [keeps.gateway]

variable {state : Session × Live σ} (sinks : ∀ path ∈ transfer.command.paths, (Sender.base path).isSink = true)

include sinks

theorem feed_inSink (inside : InSink transfer origin state) (byte : UInt8) :
    InSink transfer origin (feed byte state) := by
  obtain ⟨session, live⟩ := state
  cases session with
  | receiving given mark receiver =>
      obtain ⟨rfl, rfl, inside, keeps⟩ := inside
      apply carryOut_inSink (receiver.push_keepsApart given inside byte) keeps (Nat.le_refl _)
      intro progress after holds keeps
      cases progress with
      | waiting next => exact ⟨rfl, rfl, holds, keeps⟩
      | _ => exact over_inSink keeps
  | sending given sender =>
      obtain ⟨rfl, keeps, parts, plays⟩ := inside
      apply carryOut_inSink (sender.push_keepsApart sinks plays byte) keeps (mark_of_keepsTo keeps)
      intro progress after turns keeps
      cases progress with
      | waiting next => exact ⟨rfl, keeps, turns⟩
      | _ => exact over_inSink keeps
  | ended result => exact inside

/-- What a session on the sink asks for on a byte concerns the client, the log and the clock. -/
theorem asked_inSink (inside : InSink transfer origin state) (byte : UInt8) :
    ∀ entry ∈ asked byte state, entry.1.Apart ∧ origin.KeepsTo entry.2 := by
  obtain ⟨session, live⟩ := state
  cases session with
  | receiving given mark receiver =>
      obtain ⟨rfl, rfl, inside, keeps⟩ := inside
      exact Live.asked_of_apart (receiver.push_keepsApart given inside byte) keeps
  | sending given sender =>
      obtain ⟨rfl, keeps, parts, plays⟩ := inside
      exact Live.asked_of_apart (sender.push_keepsApart sinks plays byte) keeps
  | ended result => exact List.forall_mem_nil _

theorem feedAll_inSink (inside : InSink transfer origin state) (input : List UInt8) :
    InSink transfer origin (feedAll input state) := by
  induction input generalizing state with
  | nil => exact inside
  | cons byte rest ih => exact ih (feed_inSink sinks inside byte)

theorem transcript_inSink (inside : InSink transfer origin state) (input : List UInt8) :
    ∀ entry ∈ transcript input state, entry.1.Apart ∧ origin.KeepsTo entry.2 := by
  induction input generalizing state with
  | nil => exact List.forall_mem_nil _
  | cons byte rest ih =>
      exact List.forall_mem_append.2 ⟨asked_inSink sinks inside byte, ih (feed_inSink sinks inside byte)⟩

omit sinks

theorem finish_inSink (inside : InSink transfer origin state) (ending : Ending) :
    InSink transfer origin (finish ending state) := by
  obtain ⟨session, live⟩ := state
  have last {step : Step Unit} {mark : Nat} (apart : origin.Apart (fun _ => True) Failure.Local step)
      (keeps : origin.KeepsTo live) (first : origin.gateway.nextUpload ≤ mark) :
      InSink transfer origin (carryOut transfer mark step (fun _ => .ended (.ok ())) live) :=
    carryOut_inSink apart keeps first fun _ _ _ keeps => over_inSink keeps
  cases session with
  | receiving given mark receiver =>
      obtain ⟨rfl, rfl, inside, keeps⟩ := inside
      cases ending with
      | closed => exact last (receiver.atEnd_keepsApart given) keeps (Nat.le_refl _)
      | broken reason => exact last (breakOff_keepsApart given _ reason) keeps (Nat.le_refl _)
      | silent => exact cancel_inSink keeps (Nat.le_refl _)
  | sending given sender =>
      obtain ⟨rfl, keeps, _⟩ := inside
      cases ending with
      | closed => exact last sender.atEnd_keepsApart keeps (mark_of_keepsTo keeps)
      | broken reason => exact last (breakOff_keepsApart given _ reason) keeps (mark_of_keepsTo keeps)
      | silent => exact cancel_inSink keeps (mark_of_keepsTo keeps)
  | ended result => cases ending <;> exact inside

theorem closing_inSink (inside : InSink transfer origin state) (ending : Ending) :
    ∀ entry ∈ closing ending state, entry.1.Apart ∧ origin.KeepsTo entry.2 := by
  obtain ⟨session, live⟩ := state
  cases session with
  | receiving given mark receiver =>
      obtain ⟨rfl, rfl, inside, keeps⟩ := inside
      cases ending with
      | closed => exact Live.asked_of_apart (receiver.atEnd_keepsApart given) keeps
      | broken reason => exact Live.asked_of_apart (breakOff_keepsApart given _ reason) keeps
      | silent => exact List.forall_mem_nil _
  | sending given sender =>
      obtain ⟨rfl, keeps, _⟩ := inside
      cases ending with
      | closed => exact Live.asked_of_apart sender.atEnd_keepsApart keeps
      | broken reason => exact Live.asked_of_apart (breakOff_keepsApart given _ reason) keeps
      | silent => exact List.forall_mem_nil _
  | ended result => cases ending <;> exact List.forall_mem_nil _

section Start

variable {login : Login} {line : String} {command : Command}

theorem start_inSink (parsed : Command.parse line = .ok command)
    (sinks : ∀ path ∈ command.paths, (Sender.base path).isSink = true) :
    InSink (login.transfer command live.gateway.settings) live (start login line live) := by
  cases direction : command.direction with
  | source =>
      rw [start_source parsed direction]
      exact ⟨rfl, .refl live, _, [], command.paths, rfl, List.forall_mem_nil _, rfl, .request⟩
  | sink =>
      rw [start_sink parsed direction]
      have sink := Location.isSink_of_base (sinks _ (Command.first_mem parsed))
      apply carryOut_inSink (Receiver.start_keepsApart _ sink) (.refl live) (Nat.le_refl _)
      exact fun receiver after inside keeps => ⟨rfl, rfl, inside, keeps⟩

theorem opening_inSink (parsed : Command.parse line = .ok command)
    (sinks : ∀ path ∈ command.paths, (Sender.base path).isSink = true) :
    ∀ entry ∈ opening login line live, entry.1.Apart ∧ live.KeepsTo entry.2 := by
  cases direction : command.direction with
  | source =>
      rw [opening_source parsed direction]
      exact List.forall_mem_nil _
  | sink =>
      rw [opening_sink parsed direction]
      have sink := Location.isSink_of_base (sinks _ (Command.first_mem parsed))
      exact Live.asked_of_apart (Receiver.start_keepsApart _ sink) (.refl live)

end Start

end Session

end ArtifactGate
