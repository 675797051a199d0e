import ArtifactGate.Proofs.Gateway.Consulting
import ArtifactGate.Proofs.Gateway.Views
import ArtifactGate.Proofs.Session.Isolation
import ArtifactGate.Proofs.Session.Statuses

/-!
What a user learns who may not read. The fault of a download that is refused names the place that it found
first and tells what is there, and nothing else of what the store has gets to the client. A path without a
pattern finds the place that it names; a pattern finds a place that nobody gave the user to see.
-/
namespace ArtifactGate

/-- What an answer about a place tells of it. -/
def kindOf (answer : Except Fault Metadata) : Option Kind :=
  answer.toOption.map Metadata.kind

namespace MemoryStore

/-- What the store has at a place. -/
def kind? (store : MemoryStore) (location : Location) : Option Kind :=
  kindOf (store.describe location)

end MemoryStore

/-- The place of a node, and what is there. -/
def Node.glimpse (node : Node) : Location × Option Kind :=
  (node.location, node.metadata.map Metadata.kind)

/-- The fault with which a node is refused to a user who may not read it. -/
def Sender.refusal (recursive : Bool) : Location × Option Kind → Fault
  | (location, none) => .notFound location.display
  | (location, some .file) => .readDenied location.display
  | (location, some .directory) =>
    if recursive then .readDenied location.display
    else .protocol (location.display ++ ": is a directory, use -r")

/-- What shows of a search: its fault, or what it finds first. -/
def Sender.glimpse {σ : Type} [RemoteStore σ] (transfer : Transfer) (path : String) (live : Live σ) :
    Option (Except Fault (Option (Location × Option Kind))) :=
  (live.run (Sender.nodesOf transfer path).run).1.map fun found =>
    found.map fun nodes => nodes.head?.map Node.glimpse

namespace MemoryStore

variable {first second : MemoryStore} {location : Location}

/-- Two stores that have the same at a place, and fail as often, tell the same about it. -/
theorem attemptsFrom_kind {pending : Nat} (same : first.kind? location = second.kind? location)
    (failing : first.failuresPending = pending) (alike : second.failuresPending = pending) (operation : String)
    (attempt left : Nat) :
    kindOf (RetryPolicy.attemptsFrom (m := StateM MemoryStore) operation (Pure.pure ())
        (RemoteStore.metadata location) attempt left first).1 =
      kindOf (RetryPolicy.attemptsFrom (m := StateM MemoryStore) operation (Pure.pure ())
        (RemoteStore.metadata location) attempt left second).1 := by
  induction pending generalizing first second attempt left with
  | zero =>
      obtain ⟨_, here, _⟩ := attemptsFrom_reliable failing operation location attempt left
      obtain ⟨_, there, _⟩ := attemptsFrom_reliable alike operation location attempt left
      rw [here, there]
      exact same
  | succ pending ih =>
      rw [Gateway.attemptsFrom_apply, Gateway.attemptsFrom_apply, metadata_failing failing, metadata_failing alike]
      cases left with
      | zero => rfl
      | succ left =>
          let spent (store : MemoryStore) : MemoryStore :=
            { store with metadataCalls := store.metadataCalls + 1, failuresPending := pending }
          have still : (spent first).kind? location = (spent second).kind? location := same
          exact ih still rfl rfl (attempt + 1) left

end MemoryStore

theorem Gateway.metadata_kind {gateway : Gateway MemoryStore} {first second : MemoryStore} {location : Location}
    (same : first.kind? location = second.kind? location)
    (pending : first.failuresPending = second.failuresPending) :
    kindOf (({ gateway with store := first } : Gateway MemoryStore).metadata location).1 =
      kindOf (({ gateway with store := second } : Gateway MemoryStore).metadata location).1 := by
  simp only [metadata]
  split
  · rfl
  · exact MemoryStore.attemptsFrom_kind same pending rfl _ _ _

variable {σ : Type} [RemoteStore σ]

theorem Live.run_adapted {α ε δ : Type} (translate : ε → δ) (part : ExceptT ε Action α) (live : Live σ) :
    live.run (part.adapt translate).run =
      ((live.run part.run).1.map (Except.mapError translate), (live.run part.run).2) := by
  rw [run_adapt, run_bind]
  rcases live.run part.run with ⟨_ | result, after⟩
  · rfl
  · exact run_pure _ after

section Refused

variable {node : Node} {live : Live σ} (remote : node.backing = .remote)
  (denied : live.gateway.authorizer node.location.repository node.user .read = false)

include remote denied

theorem Node.run_isReadable : live.run node.isReadable = (some false, live) := by
  rw [isReadable, allows, remote, Live.run_request, Live.perform, denied]

theorem Node.run_openRead (offset : Nat) :
    live.run (node.openRead offset).run = (some (.error (.readDenied node.location.display)), live) := by
  have asked : live.run (liftM node.isReadable : Attempt Bool).run = (some (.ok false), live) := by
    change live.run (node.isReadable >>= fun value => Pure.pure (Except.ok value)) = _
    rw [Live.run_bind, run_isReadable remote denied]
    exact Live.run_pure _ live
  rw [openRead, Live.run_attempt_bind _ asked]
  exact Live.run_pure _ live

theorem Sender.run_refusal? (noFile : node.isFile = false) (transfer : Transfer) :
    live.run (refusal? transfer node) = (some (some (refusal transfer.command.recursive node.glimpse)), live) := by
  cases found : node.metadata with
  | none =>
      have absent : node.exists? = false := by rw [Node.exists?, found]; rfl
      simp only [refusal?, absent, Node.glimpse, found]
      exact Live.run_pure _ live
  | some metadata =>
      have present : node.exists? = true := by rw [Node.exists?, found]; rfl
      have directory : metadata.kind = .directory := by
        simpa [Node.isFile, found, Metadata.isDirectory] using noFile
      cases recursive : transfer.command.recursive with
      | false =>
          simp only [refusal?, present, recursive, Node.glimpse, found, Option.map_some, directory]
          exact Live.run_pure _ live
      | true =>
          simp only [refusal?, present, recursive, Node.glimpse, found, Option.map_some, directory]
          exact (Live.run_bind _ _ live).trans (by
            rw [Node.run_isReadable remote denied]
            exact Live.run_pure _ live)

/-- A node that the user may not read is refused before anything is sent. -/
theorem Sender.run_beginNode (transfer : Transfer) (agenda : List Job) :
    ∃ site, live.run (beginNode transfer node agenda).run =
      (some (.error ⟨refusal transfer.command.recursive node.glimpse, true⟩),
        live.withEntry (transfer.failureRecord site (refusal transfer.command.recursive node.glimpse))) := by
  rw [beginNode]
  cases file : node.isFile with
  | true =>
      refine ⟨node.site, ?_⟩
      have fault : refusal transfer.command.recursive node.glimpse = .readDenied node.location.display := by
        cases found : node.metadata with
        | none => simp [Node.isFile, found] at file
        | some metadata =>
            have kind : metadata.kind = .file := by
              cases kind : metadata.kind <;> simp [Node.isFile, found, Metadata.isDirectory, kind] at file ⊢
            simp only [Node.glimpse, found, Option.map_some, kind, refusal]
      have failed : live.run (beginFile transfer node agenda).run =
          (some (.error (.readDenied node.location.display)), live) := by
        rw [beginFile, ExceptT.run_bind, Live.run_bind, Node.run_openRead remote denied]
        exact Live.run_pure _ live
      rw [if_pos rfl, Live.run_logging, failed, fault]
  | false =>
      refine ⟨⟨node.location, 0⟩, ?_⟩
      have refused : live.run (liftM (refusal? transfer node) : Step (Option Fault)).run =
          (some (.ok (some (refusal transfer.command.recursive node.glimpse))), live) := by
        change live.run (refusal? transfer node >>= fun value => Pure.pure (Except.ok value)) = _
        rw [Live.run_bind, run_refusal? remote denied file]
        exact Live.run_pure _ live
      rw [if_neg Bool.false_ne_true, Live.run_attempt_bind _ refused]
      dsimp only
      rw [Live.run_logging, Live.run_throw]

end Refused

namespace Sender

/-- A path that is no pattern shows what is at the place that it names. -/
theorem glimpse_plain {transfer : Transfer} {path : String} (plain : Glob.hasGlob path = false)
    (outside : (Location.resolve path).isSink = false) (live : Live σ) :
    glimpse transfer path live = some
      (if (Location.resolve path).isEmpty then
        .error (.protocol (path ++ ": path does not name a repository"))
      else .ok (some (Location.resolve path, kindOf (live.gateway.metadata (Location.resolve path)).1))) := by
  rw [glimpse, nodesOf, if_neg (by rw [plain]; exact Bool.false_ne_true), ExceptT.run_bind, Live.run_bind,
    Live.run_resolve outside]
  by_cases empty : (Location.resolve path).isEmpty = true
  · simp only [empty, if_true, Live.run_pure]
    rfl
  · simp only [empty, if_false, Bool.false_eq_true, ExceptT.run_pure, Live.run_pure]
    rfl

/-- What becomes of a search in which the user may read nothing. -/
def verdict (recursive : Bool) : Except Fault (Option (Location × Option Kind)) → Except Fault (Progress Sender)
  | .error fault => .error fault
  | .ok none => .ok .over
  | .ok (some found) => .error (refusal recursive found)

variable [DepositStore σ] {transfer : Transfer} {path : String} {live : Live σ}

/-- A user who may not read sees the search fail, or its first node refused. -/
theorem run_proceed (denied : ¬(base path).Readable
      (fun repository user access => live.gateway.authorizer repository user access = true) transfer.login.user) :
    ∃ outcome after, live.run (proceed transfer [.path path]).run = (outcome, after) ∧
      after.outlet = live.outlet ∧
      outcome.map (Except.mapError Failure.fault) =
        (glimpse transfer path live).map (verdict transfer.command.recursive) := by
  have found := Live.ends_of_attempts live ((nodesOf_inquires transfer path).weaken fun _ => Effect.Inquires.quiet)
  have searched : (live.run (nodesOf transfer path).run).2.outlet = live.outlet :=
    Live.outlet_of_run ((nodesOf_inquires transfer path).weaken fun _ => Effect.Inquires.silent).heeds live
  rw [proceed, ExceptT.run_bind, Live.run_bind, Step.unlogged, Live.run_adapted, glimpse]
  rw [Live.Ends] at found
  rcases ran : live.run (nodesOf transfer path).run with ⟨_ | fault | nodes, after⟩ <;>
    rw [ran] at searched <;> simp only [ran] at found ⊢
  · exact ⟨_, _, rfl, searched, rfl⟩
  · exact ⟨_, _, Live.run_pure _ after, searched, rfl⟩
  · obtain ⟨under, unmoved⟩ := found
    cases nodes with
    | nil => exact ⟨_, _, Live.run_pure _ after, searched, rfl⟩
    | cons node rest =>
        have first := under node List.mem_cons_self
        obtain ⟨notSink, notGranted⟩ := not_or.1 denied
        have remote : node.backing = .remote := by
          rw [← first.isSink, Node.isSink] at notSink
          cases backing : node.backing <;> simp [backing] at notSink ⊢
        have refused : after.gateway.authorizer node.location.repository node.user .read = false := by
          rw [unmoved.authorizer, first.repository, first.user]
          exact Bool.eq_false_iff.2 notGranted
        obtain ⟨site, begun⟩ := run_beginNode remote refused transfer (rest.map .node ++ [])
        exact ⟨_, _, begun, searched, rfl⟩

theorem verdict_over {recursive : Bool} {found : Except Fault (Option (Location × Option Kind))}
    {progress : Progress Sender} (decided : verdict recursive found = .ok progress) : progress = .over := by
  rcases found with fault | _ | place
  · cases decided
  · exact (Except.ok.inj decided).symm
  · cases decided

end Sender

namespace Session

/-- Two sessions that are over with the same result, and have sent the same. -/
def EndAlike (one other : Session × Live σ) : Prop :=
  ∃ result, one.1 = .ended result ∧ other.1 = .ended result ∧ one.2.outlet = other.2.outlet

section Alike

variable {first second : Live σ} {transfer : Transfer} {mark also : Nat}

theorem report_outlet (fault : Fault) (live : Live σ) :
    (report fault live).outlet = (live.outlet.take (Wire.statusBytes Wire.errorStatus fault.message)).2 := by
  rw [report, report.sendError, send, ExceptT.run_mk, Live.run_request]
  rfl

theorem fail_alike (outlet : first.outlet = second.outlet) {failure other : Failure}
    (same : failure.fault = other.fault) :
    EndAlike (fail transfer mark failure first) (fail transfer also other second) := by
  have told (mark : Nat) (failure : Failure) (live : Live σ) : (fail transfer mark failure live).2.outlet =
      if isReported failure.fault then
        (live.outlet.take (Wire.statusBytes Wire.errorStatus failure.fault.message)).2
      else live.outlet := by
    rw [fail]
    split
    · exact report_outlet _ _
    · rfl
  refine ⟨.error failure.fault, rfl, ?_, ?_⟩
  · rw [same]
    rfl
  · rw [told, told, same, outlet]

theorem cancel_alike (outlet : first.outlet = second.outlet) :
    EndAlike (cancel transfer mark first) (cancel transfer also second) := by
  have settled : ({ first with gateway := first.gateway.settle } : Live σ).outlet =
      ({ second with gateway := second.gateway.settle } : Live σ).outlet := outlet
  exact fail_alike settled rfl

/-- Two steps that end the session for the same reason, wherever they book it. -/
theorem carryOut_alike {α : Type} {step other : Step α} {next : α → Session}
    (outlet : (first.run step.run).2.outlet = (second.run other.run).2.outlet)
    (same : (first.run step.run).1.map (Except.mapError Failure.fault) =
      (second.run other.run).1.map (Except.mapError Failure.fault))
    (ends : ∀ value, (first.run step.run).1 = some (.ok value) → ∃ result, next value = .ended result) :
    EndAlike (carryOut transfer mark step next first) (carryOut transfer also other next second) := by
  rw [carryOut, carryOut]
  rcases ran : first.run step.run with ⟨_ | failure | value, after⟩ <;>
    rcases also : second.run other.run with ⟨_ | failed | valued, final⟩ <;>
      simp only [ran, also, Option.map_none, Option.map_some, Except.mapError, Option.some.injEq, reduceCtorEq,
        Except.error.injEq, Except.ok.injEq] at outlet same ends ⊢
  · exact cancel_alike outlet
  · exact fail_alike outlet same
  · obtain ⟨result, ended⟩ := ends value rfl
    exact ⟨result, ended, same ▸ ended, outlet⟩

/-- A fault that befalls no file ends two sessions alike. -/
theorem stop_alike {α : Type} {next : α → Session} (outlet : first.outlet = second.outlet) (fault : Fault) :
    EndAlike (carryOut transfer mark (Step.unlogged (throw fault)) next first)
      (carryOut transfer also (Step.unlogged (throw fault)) next second) := by
  rw [carryOut, carryOut, Live.run_unlogged, Live.run_unlogged, Live.run_throw, Live.run_throw]
  exact fail_alike outlet rfl

end Alike

/-- The runs of one session over two gateways, from which the user may not read: they wait for the request, or are
over. -/
inductive Refusing (transfer : Transfer) (path : String) (first second : Live σ) :
    Session × Live σ → Session × Live σ → Prop
  | asked (state : Wire.Acknowledgement) :
    Refusing transfer path first second (.sending transfer { state, agenda := [.path path] }, first)
      (.sending transfer { state, agenda := [.path path] }, second)
  | ended {one other : Session × Live σ} (alike : EndAlike one other) : Refusing transfer path first second one other

section Runs

variable {transfer : Transfer} {path : String} {first second : Live σ} {one other : Session × Live σ}

/-- Two gateways that look the same to one who may not read the path: they have sent the same, deny the same, and
show the same of the search for it. -/
structure SeemSame (transfer : Transfer) (path : String) (first second : Live σ) : Prop where
  outlet : first.outlet = second.outlet
  authorizer : first.gateway.authorizer = second.gateway.authorizer
  denied : ¬(Sender.base path).Readable
    (fun repository user access => first.gateway.authorizer repository user access = true) transfer.login.user
  glimpse : Sender.glimpse transfer path first = Sender.glimpse transfer path second

theorem proceed_alike [DepositStore σ] (same : SeemSame transfer path first second) {mark also : Nat} :
    EndAlike
      (carryOut transfer mark (Sender.proceed transfer [.path path]) (ofProgress (sending transfer)) first)
      (carryOut transfer also (Sender.proceed transfer [.path path]) (ofProgress (sending transfer)) second) := by
  obtain ⟨outcome, after, ran, silent, shown⟩ := Sender.run_proceed same.denied
  obtain ⟨again, final, also, still, seen⟩ := Sender.run_proceed (same.authorizer ▸ same.denied)
  apply carryOut_alike
  · rw [ran, also]
    exact silent.trans (same.outlet.trans still.symm)
  · rw [ran, also]
    exact shown.trans ((congrArg _ same.glimpse).trans seen.symm)
  · intro progress gone
    rw [ran] at gone
    rw [show outcome = some (.ok progress) from gone, Option.map_some, eq_comm, Option.map_eq_some_iff] at shown
    obtain ⟨found, _, decided⟩ := shown
    exact ⟨.ok (), by rw [Sender.verdict_over decided]; rfl⟩

theorem feed_refusing [DepositStore σ] (same : SeemSame transfer path first second)
    (refusing : Refusing transfer path first second one other) (byte : UInt8) :
    Refusing transfer path first second (feed byte one) (feed byte other) := by
  cases refusing with
  | asked state =>
      rw [feed, feed]
      cases pushed : state.push byte with
      | more next =>
          rw [Sender.push_more pushed, carryOut, carryOut, ExceptT.run_pure, Live.run_pure, Live.run_pure]
          exact .asked next
      | done word =>
          cases word with
          | error fault =>
              rw [Sender.push_refused pushed]
              exact .ended (stop_alike same.outlet fault)
          | ok _ =>
              rw [Sender.push_done pushed]
              exact .ended (proceed_alike same)
  | ended alike =>
      obtain ⟨result, here, there, outlet⟩ := alike
      obtain ⟨session, live⟩ := one
      obtain ⟨session', live'⟩ := other
      subst here there
      exact .ended ⟨result, rfl, rfl, outlet⟩

theorem feedAll_refusing [DepositStore σ] (same : SeemSame transfer path first second)
    (refusing : Refusing transfer path first second one other) (input : List UInt8) :
    Refusing transfer path first second (feedAll input one) (feedAll input other) := by
  induction input generalizing one other with
  | nil => exact refusing
  | cons byte rest ih => exact ih (feed_refusing same refusing byte)

theorem finish_alike (same : SeemSame transfer path first second)
    (refusing : Refusing transfer path first second one other) (ending : Ending) :
    EndAlike (finish ending one) (finish ending other) := by
  cases refusing with
  | asked state =>
      cases ending with
      | closed =>
          obtain ⟨fault, refused⟩ : ∃ fault, state.atEnd false = .error fault := by
            cases state <;> exact ⟨_, rfl⟩
          have closed : ({ state, agenda := [.path path] } : Sender).atEnd transfer =
              Step.unlogged (throw fault) := by
            rw [Sender.atEnd, refused]
            rfl
          rw [finish, finish, closed]
          exact stop_alike same.outlet fault
      | broken reason => exact stop_alike same.outlet (.io reason)
      | silent => exact cancel_alike same.outlet
  | ended alike =>
      obtain ⟨result, here, there, outlet⟩ := alike
      obtain ⟨session, live⟩ := one
      obtain ⟨session', live'⟩ := other
      subst here there
      exact ⟨result, rfl, rfl, outlet⟩

end Runs

/-- A download that the user may not make tells only what is at the place it names. Over two stores that fail as
often and have the same there, it ends with the same result and sends the same. What a pattern names is what
the search for it finds first. -/
theorem denied_ends_alike {login : Login} {line : String} {command : Command} {path : String}
    {live : Live MemoryStore} {first second : MemoryStore} (parsed : Command.parse line = .ok command)
    (source : command.direction = .source) (single : command.paths = [path])
    (denied : ¬(Sender.base path).Readable
      (fun repository user access => live.gateway.authorizer repository user access = true) login.user)
    (failing : first.failuresPending = second.failuresPending)
    (plain : Glob.hasGlob path = false → first.kind? (Location.resolve path) = second.kind? (Location.resolve path))
    (pattern : Glob.hasGlob path = true →
      Sender.glimpse (login.transfer command live.gateway.settings) path (live.map fun _ => first) =
        Sender.glimpse (login.transfer command live.gateway.settings) path (live.map fun _ => second))
    (input : List UInt8) (ending : Ending) :
    let one := run login line input ending (live.map fun _ => first)
    let other := run login line input ending (live.map fun _ => second)
    one.1 = other.1 ∧ one.2.outlet = other.2.outlet := by
  intro one other
  have same : SeemSame (login.transfer command live.gateway.settings) path (live.map fun _ => first)
      (live.map fun _ => second) := by
    refine ⟨rfl, rfl, denied, ?_⟩
    cases globs : Glob.hasGlob path with
    | true => exact pattern globs
    | false =>
        have based : Sender.base path = Location.resolve path := by rw [Sender.base, globs]; rfl
        have outside : (Location.resolve path).isSink = false := by
          rw [← based]
          exact Bool.eq_false_iff.2 (not_or.1 denied).1
        have told : kindOf ((live.map fun _ => first).gateway.metadata (Location.resolve path)).1 =
            kindOf ((live.map fun _ => second).gateway.metadata (Location.resolve path)).1 :=
          Gateway.metadata_kind (plain globs) failing
        rw [Sender.glimpse_plain globs outside, Sender.glimpse_plain globs outside, told]
  have started (store : MemoryStore) : start login line (live.map fun _ => store) =
      (.sending (login.transfer command live.gateway.settings) { agenda := [.path path] },
        live.map fun _ => store) := by
    have agenda : command.paths.map Job.path = [.path path] := congrArg (List.map Job.path) single
    rw [start_source parsed source]
    exact congrArg (fun agenda => (Session.sending _ { agenda }, _)) agenda
  have begun : Refusing (login.transfer command live.gateway.settings) path (live.map fun _ => first)
      (live.map fun _ => second) (start login line (live.map fun _ => first))
      (start login line (live.map fun _ => second)) := by
    rw [started, started]
    exact .asked .status
  obtain ⟨result, here, there, outlet⟩ := finish_alike same (feedAll_refusing same begun input) ending
  rw [finish_eq_run] at here there outlet
  rw [finish_eq_run] at outlet
  exact ⟨Session.ended.inj (here.trans there.symm), outlet⟩

/-- Who may only write sees that `d` is a directory, whatever is in it. -/
theorem denied_ends_alike_of_directory :
    let live : Live MemoryStore := { gateway := Gateway.new {} {} (fun _ _ access => access = .write) ⟨0, 0⟩ }
    let one := MemoryStore.insert {} ⟨"libs", "d/a"⟩ [104, 105] .empty
    let other := MemoryStore.insert (MemoryStore.insert {} ⟨"libs", "d/b"⟩ [] .empty) ⟨"libs", "d/e/f"⟩ [1] .empty
    let ended (store : MemoryStore) :=
      run ⟨"ann", "::1", .empty⟩ "scp -r -f libs/d" [0] .closed (live.map fun _ => store)
    (ended one).1 = .error (.readDenied "libs/d") ∧ (ended other).1 = (ended one).1 ∧
      (ended other).2.outlet = (ended one).2.outlet := by
  intro live one other ended
  have parsed : Command.parse "scp -r -f libs/d" = .ok ⟨.source, true, false, false, false, ["libs/d"]⟩ := by
    decide +kernel
  have denied : ¬(Sender.base "libs/d").Readable
      (fun repository user access => live.gateway.authorizer repository user access = true) "ann" :=
    not_or.2 ⟨by decide +kernel, by decide⟩
  have glob : Glob.hasGlob "libs/d" = false := by decide +kernel
  have failing : other.failuresPending = one.failuresPending := rfl
  have same : other.kind? (Location.resolve "libs/d") = one.kind? (Location.resolve "libs/d") := by decide +kernel
  have pattern (globs : Glob.hasGlob "libs/d" = true) := Bool.false_ne_true (glob.symm.trans globs)
  have alike : (ended other).1 = (ended one).1 ∧ (ended other).2.outlet = (ended one).2.outlet :=
    denied_ends_alike parsed rfl rfl denied failing (fun _ => same) (fun globs => (pattern globs).elim) [0] .closed
  exact ⟨by decide +kernel, alike⟩

/-- Who may only write learns from a pattern whether `a` is there. -/
theorem pattern_tells_match :
    let live : Live MemoryStore := { gateway := Gateway.new {} {} (fun _ _ access => access = .write) ⟨0, 0⟩ }
    let stored (path : String) := MemoryStore.insert {} ⟨"libs", path⟩ [] .empty
    let ended (path : String) :=
      run ⟨"ann", "::1", .empty⟩ "scp -f libs/a*" [0] .closed (live.map fun _ => stored path)
    (stored "a").kind? (Sender.base "libs/a*") = (stored "b").kind? (Sender.base "libs/a*") ∧
      (ended "a").2.outlet.taken.toList =
        Wire.statusBytes Wire.errorStatus "libs/a: read permission denied" ∧
      (ended "b").2.outlet.taken.toList =
        Wire.statusBytes Wire.errorStatus "libs/a*: no such file or directory" := by
  decide +kernel

end Session

end ArtifactGate
