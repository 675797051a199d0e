import ArtifactGate.Proofs.Session.Logged

/-!
The store and the access log agree on what was uploaded. The store has a file for each one that is finished,
and one more while the word about it is awaited. If that word is not good, or the status that answers the file could
not be sent to the client, the session fails at that file: it is stored, and logged as failed.
-/
namespace ArtifactGate

variable {σ : Type} [RemoteStore σ]

/-- The status that all is well was refused, in a world with such a store. -/
def Refused (asked : List (Effect × Live σ)) (has : σ → Prop) : Prop :=
  ∃ world fault, (.send [Wire.okStatus], world) ∈ asked ∧
    (world.perform (.send [Wire.okStatus])).1 = some (.error fault) ∧ has world.gateway.store

namespace Refused

variable {asked : List (Effect × Live σ)} {has wider : σ → Prop}

theorem mono (refused : Refused asked has) (widen : ∀ store, has store → wider store) : Refused asked wider := by
  obtain ⟨world, fault, asks, answer, held⟩ := refused
  exact ⟨world, fault, asks, answer, widen _ held⟩

theorem prepend (refused : Refused asked has) (earlier : List (Effect × Live σ)) : Refused (earlier ++ asked) has := by
  obtain ⟨world, fault, asks, answer⟩ := refused
  exact ⟨world, fault, List.mem_append_right _ asks, answer⟩

theorem append (refused : Refused asked has) (later : List (Effect × Live σ)) : Refused (asked ++ later) has := by
  obtain ⟨world, fault, asks, answer⟩ := refused
  exact ⟨world, fault, List.mem_append_left _ asks, answer⟩

end Refused

/-- A store has accepted the file while this was asked for, and then the status that all is well was refused. -/
def Unheard [DepositStore σ] (asked : List (Effect × Live σ)) (before : σ) (site : Site) (store : σ) : Prop :=
  ∃ deposit, deposit.location = site.location ∧ Gains before [deposit] store ∧
    Refused asked fun had => Gains had [] store

namespace Session

variable {start : Session × Live σ} {taken : List UInt8} {site : Site} {state next : Wire.Acknowledgement}
  {byte : UInt8} {fault : Fault}

/-- The word that the client sends about a file is not a good one, or is not sent. -/
def Unconfirmed (start : Session × Live σ) (input : List UInt8) (ending : Ending) (site : Site) : Prop :=
  ∃ taken word, input = taken ++ word ∧ AwaitsWord start taken site ∧
    (Wire.readStatus (ending == .closed) word).1 ≠ .ok ()

/-- On one byte the store has accepted the file, and the client could not be told so. -/
def Untold [DepositStore σ] (start : Session × Live σ) (input : List UInt8) (site : Site) (store : σ) : Prop :=
  ∃ taken byte, taken ++ [byte] <+: input ∧
    Unheard (asked byte (feedAll taken start)) (feedAll taken start).2.gateway.store site store

/-- The session waits for the word about a file, and has come so far with it. -/
def Awaits (start : Session × Live σ) (taken : List UInt8) (site : Site) (state : Wire.Acknowledgement) : Prop :=
  ∃ before word, taken = before ++ word ∧ AwaitsWord start before site ∧
    ∀ mayEnd rest, Wire.readStatus mayEnd (word ++ rest) =
      Wire.drive Wire.Acknowledgement.push (Wire.Acknowledgement.atEnd mayEnd) state rest

theorem Awaits.begin (awaited : AwaitsWord start taken site) :
    Awaits start taken site .status :=
  ⟨taken, [], (List.append_nil _).symm, awaited, fun _ _ => rfl⟩

theorem Awaits.more (awaits : Awaits start taken site state) (more : state.push byte = .more next) :
    Awaits start (taken ++ [byte]) site next := by
  obtain ⟨before, word, rfl, awaited, read⟩ := awaits
  refine ⟨before, word ++ [byte], List.append_assoc _ _ _, awaited, fun mayEnd rest => ?_⟩
  rw [List.append_assoc, List.singleton_append, read, Wire.drive, more]

theorem Awaits.disputed (awaits : Awaits start taken site state) (done : state.push byte = .done (.error fault))
    (more : List UInt8) (ending : Ending) : Unconfirmed start (taken ++ [byte] ++ more) ending site := by
  obtain ⟨before, word, rfl, awaited, read⟩ := awaits
  refine ⟨before, word ++ byte :: more, by simp only [List.append_assoc, List.singleton_append], awaited, ?_⟩
  rw [read, Wire.drive, done]
  intro same
  cases same

theorem Awaits.atEnd (awaits : Awaits start taken site state) {ending : Ending}
    (refused : state.atEnd (ending == .closed) ≠ .ok ()) : Unconfirmed start taken ending site := by
  obtain ⟨before, word, rfl, awaited, read⟩ := awaits
  refine ⟨before, word, rfl, awaited, ?_⟩
  rw [← List.append_nil word, read, Wire.drive]
  exact refused

end Session

variable [DepositStore σ]

/-- The store has accepted a body for each of these files, in turn, and nothing else. -/
def UploadContext.Keeps (context : UploadContext σ) (files : List Site) (live : Live σ) : Prop :=
  ∃ deposits, Gains context.origin deposits live.gateway.store ∧
    deposits.map Deposit.location = files.map Site.location

omit [RemoteStore σ] [DepositStore σ] in
/-- The same upload, with the books opened anew. -/
def UploadContext.since (context : UploadContext σ) (live : Live σ) : UploadContext σ :=
  { context with origin := live.gateway.store }

namespace UploadContext.Keeps

variable {context : UploadContext σ} {files : List Site} {before after : Live σ}

theorem then_nothing (keeps : context.Keeps files before)
    (nothing : Gains before.gateway.store [] after.gateway.store) : context.Keeps files after := by
  obtain ⟨deposits, gains, places⟩ := keeps
  exact ⟨deposits, gains_then_nothing gains nothing, places⟩

theorem then_one {deposit : Deposit} {site : Site} (keeps : context.Keeps files before)
    (one : Gains before.gateway.store [deposit] after.gateway.store) (same : deposit.location = site.location) :
    context.Keeps (files ++ [site]) after := by
  obtain ⟨deposits, gains, places⟩ := keeps
  refine ⟨deposits ++ [deposit], DepositStore.gains_trans gains one, ?_⟩
  rw [List.map_append, List.map_append, places, List.map_singleton, List.map_singleton, same]

/-- What the store has come to since, after what it had. -/
theorem since {more : List Site} (keeps : context.Keeps files before)
    (later : (context.since before).Keeps more after) : context.Keeps (files ++ more) after := by
  obtain ⟨deposits, gains, places⟩ := keeps
  obtain ⟨others, further, morePlaces⟩ := later
  refine ⟨deposits ++ others, DepositStore.gains_trans gains further, ?_⟩
  rw [List.map_append, List.map_append, places, morePlaces]

end UploadContext.Keeps

/-- How a fault of a file leaves the store: it has what was finished, or the file besides, as the client could not be
told of it. -/
def UploadContext.Drops (context : UploadContext σ) (files : List Site) (site : Site) (asked : List (Effect × Live σ)) :
    Option Fault → Live σ → Prop
  | none, _ => True
  | some _, live => live.gateway.Droppable context.mark ∧ (context.Keeps files live ∨
      context.Keeps (files ++ [site]) live ∧ Refused asked fun store => Gains store [] live.gateway.store)

/-- How a failure leaves the store: it has what was finished, or the file besides that the failure is logged
at, as the client could not be told of it or has disputed it. -/
def UploadContext.Loses (context : UploadContext σ) (files : List Site) (disputed : Site → Prop)
    (asked : List (Effect × Live σ)) :
    Option Failure → Live σ → Prop
  | none, _ => True
  | some failure, live => live.gateway.Droppable context.mark ∧ (context.Keeps files live ∨
      ∃ site earlier, failure.logged = true ∧
        live.gateway.log = earlier ++ [context.transfer.failureRecord site failure.fault] ∧
        context.Keeps (files ++ [site]) live ∧
        (Refused asked (fun store => Gains store [] live.gateway.store) ∨ disputed site))

namespace Receiver

/-- The file that the store has and that the client has not confirmed. -/
def unconfirmed (receiver : Receiver) : List Site :=
  match receiver.phase with
  | .lastWord site _ => [site]
  | _ => []

/-- The byte ends a word that something is wrong with the file. -/
def Disputes (receiver : Receiver) (byte : UInt8) (site : Site) : Prop :=
  ∃ state fault, receiver.phase = .lastWord site state ∧ state.push byte = .done (.error fault)

/-- The one upload in progress is that of the file that is coming in. -/
def Writes (mark : Nat) (gateway : Gateway σ) (receiver : Receiver) : Prop :=
  match receiver.phase with
  | .body file => ∃ number properties bytes, file.writer = .upload number ∧ mark ≤ number ∧
      gateway.Uploading number file.node.location properties bytes
  | _ => gateway.Idle mark

/-- The store has the files that are finished, and the one that is not confirmed. -/
structure Balances (context : UploadContext σ) (files : List Site) (receiver : Receiver) (live : Live σ) : Prop where
  inside : receiver.Inside context.repository
  kept : context.Keeps (files ++ receiver.unconfirmed) live
  writes : receiver.Writes context.mark live.gateway

end Receiver

def Progress.Balances (context : UploadContext σ) (files : List Site) (progress : Progress Receiver) (live : Live σ) :
    Prop :=
  match progress with
  | .waiting receiver => receiver.Balances context files live
  | .over => live.gateway.Idle context.mark ∧ context.Keeps files live

namespace Receiver

variable {context : UploadContext σ} {files : List Site} {disputed : Site → Prop} {receiver : Receiver} {live : Live σ}

theorem drops_of_interrupted {before : Live σ} (kept : context.Keeps files before) {site : Site} {fault : Option Fault}
    (interrupted : before.gateway.Interrupted context.mark live.gateway) (asked : List (Effect × Live σ)) :
    context.Drops files site asked fault live := by
  cases fault with
  | none => trivial
  | some fault => exact ⟨interrupted.1, .inl (kept.then_nothing interrupted.2)⟩

theorem loses_of_interrupted {before : Live σ} (kept : context.Keeps files before) {failure : Option Failure}
    (interrupted : before.gateway.Interrupted context.mark live.gateway) (asked : List (Effect × Live σ)) :
    context.Loses files disputed asked failure live := by
  cases failure with
  | none => trivial
  | some failure => exact ⟨interrupted.1, .inl (kept.then_nothing interrupted.2)⟩

theorem drops_prepend {site : Site} (earlier asked : List (Effect × Live σ)) (fault : Option Fault) (last : Live σ)
    (drops : context.Drops files site asked fault last) : context.Drops files site (earlier ++ asked) fault last := by
  cases fault with
  | none => trivial
  | some fault => exact ⟨drops.1, drops.2.imp id fun ⟨kept, refused⟩ => ⟨kept, refused.prepend earlier⟩⟩

theorem loses_prepend (earlier asked : List (Effect × Live σ)) (failure : Option Failure) (last : Live σ)
    (loses : context.Loses files disputed asked failure last) :
    context.Loses files disputed (earlier ++ asked) failure last := by
  cases failure with
  | none => trivial
  | some failure =>
      refine ⟨loses.1, loses.2.imp id ?_⟩
      rintro ⟨site, before, marked, logged, kept, cause⟩
      exact ⟨site, before, marked, logged, kept, cause.imp (fun refused => refused.prepend earlier) id⟩

/-- A fault of a file is logged at the file. -/
theorem loses_of_drops {α : Type} {attempt : Attempt α} {site : Site} {holds : α → Live σ → Prop}
    (results : live.Results attempt holds (context.Drops files site)) :
    live.Results (context.transfer.logging site attempt) holds (context.Loses files disputed) := by
  apply results.logging
  · rintro asked fault after ⟨droppable, kept | ⟨kept, refused⟩⟩
    · exact ⟨droppable, .inl kept⟩
    · exact ⟨droppable, .inr ⟨site, after.gateway.log, rfl, rfl, kept, .inl (refused.append _)⟩⟩
  · exact fun _ _ _ => trivial

/-- What cannot be sent is refused, and nothing else is asked for. -/
theorem results_send (live : Live σ) :
    live.Results sendOk (fun _ after => live.gateway.Unmoved after.gateway)
      (fun asked fault after => live.gateway.Unmoved after.gateway ∧
        (fault ≠ none → Refused asked fun store => store = live.gateway.store)) := by
  have unmoved := Live.ends_of_attempts live (send_quiet [Wire.okStatus])
  have asks : live.asked sendOk = [(.send [Wire.okStatus], live)] := Live.asked_send _ live
  rw [Live.Ends] at unmoved
  rw [Live.Results, asks]
  have run : live.run sendOk.run = live.perform (.send [Wire.okStatus]) := Live.run_request _ live
  have same : live.run (send [Wire.okStatus]).run = live.run sendOk.run := rfl
  rw [same, run] at unmoved
  rw [run]
  rcases performed : live.perform (.send [Wire.okStatus]) with ⟨_ | fault | _, after⟩ <;>
    simp only [performed] at unmoved ⊢
  · exact ⟨unmoved, fun some => absurd rfl some⟩
  · exact ⟨unmoved, fun _ => ⟨live, fault, List.mem_cons_self, congrArg Prod.fst performed, rfl⟩⟩
  · exact unmoved.2

section Steps

variable {progress : Progress Receiver}

/-- A part that asks for nothing about uploads leaves the books as they are. -/
theorem quiet_balances {α ε : Type} {part : ExceptT ε Action α} {valid : α → Prop}
    (idle : live.gateway.Idle context.mark) (kept : context.Keeps files live)
    (attempts : Attempts Effect.Quiet valid part) :
    live.Ends part (fun value after => valid value ∧ after.gateway.Idle context.mark ∧ context.Keeps files after)
      (fun _ after => live.gateway.Interrupted context.mark after.gateway) := by
  apply (Live.ends_of_attempts live attempts).mono
  · intro value after ended
    exact ⟨ended.1, ended.2.idle idle, kept.then_nothing ended.2.store⟩
  · exact fun _ _ unmoved => ⟨.inl (unmoved.idle idle).1, unmoved.store⟩

theorem quiet_loses {α : Type} {part : Step α} {valid : α → Prop} (idle : live.gateway.Idle context.mark)
    (kept : context.Keeps files live) (attempts : Attempts Effect.Quiet valid part) :
    live.Results part (fun value after => valid value ∧ after.gateway.Idle context.mark ∧ context.Keeps files after)
      (context.Loses files disputed) :=
  (quiet_balances idle kept attempts).results fun asked _ _ interrupted => loses_of_interrupted kept interrupted asked

theorem finishFile_balances {file : Incoming} {number : Nat} {properties : Properties} {bytes : List UInt8}
    (inside : receiver.Inside context.repository) (kept : context.Keeps files live)
    (writer : file.writer = .upload number) (begun : context.mark ≤ number)
    (uploading : live.gateway.Uploading number file.node.location properties bytes) :
    live.Results (receiver.finishFile file) (Progress.Balances context files) (context.Drops files file.node.site) := by
  rw [finishFile, writer]
  have finishes : live.Results (Writer.upload number).finish
      (fun _ after => after.gateway.Idle context.mark ∧ context.Keeps (files ++ [file.node.site]) after)
      (context.Drops files file.node.site) := by
    apply ((Live.ends_finishUpload uploading begun).results
      fun asked _ _ interrupted => drops_of_interrupted kept interrupted asked).mono
    · rintro _ after ⟨idle, next, gains⟩
      exact ⟨⟨idle, Nat.le_of_lt (Nat.lt_of_le_of_lt begun next)⟩, kept.then_one gains rfl⟩
    · exact fun _ _ _ drops => drops
  apply finishes.bind drops_prepend
  rintro _ after ⟨idle, kept⟩
  have tells : after.Results sendOk
      (fun _ last => last.gateway.Idle context.mark ∧ context.Keeps (files ++ [file.node.site]) last)
      (context.Drops files file.node.site) := by
    apply (results_send after).mono
    · exact fun _ _ unmoved => ⟨unmoved.idle idle, kept.then_nothing unmoved.store⟩
    · rintro asked fault last ⟨unmoved, refused⟩
      cases fault with
      | none => trivial
      | some fault =>
          refine ⟨.inl (unmoved.idle idle).1, .inr ⟨kept.then_nothing unmoved.store, ?_⟩⟩
          exact (refused (Option.some_ne_none fault)).mono fun store same => same ▸ unmoved.store
  apply tells.bind drops_prepend
  rintro _ last ⟨idle, kept⟩
  exact Live.Results.pure ⟨inside, kept, idle⟩

theorem awaitBody_balances {file : Incoming} {number : Nat} {properties : Properties} {bytes : List UInt8}
    (inside : receiver.Inside context.repository) (kept : context.Keeps files live)
    (writer : file.writer = .upload number) (begun : context.mark ≤ number)
    (uploading : live.gateway.Uploading number file.node.location properties bytes) :
    live.Results (receiver.awaitBody file) (Progress.Balances context files) (context.Drops files file.node.site) := by
  rw [awaitBody]
  apply Live.Results.ite
  · exact fun _ => finishFile_balances inside kept writer begun uploading
  · intro _
    have waiting : Balances context files { receiver with phase := .body file } live :=
      ⟨inside, by rwa [unconfirmed, List.append_nil], number, properties, bytes, writer, begun, uploading⟩
    exact Live.Results.pure waiting

theorem beginFile_balances (inside : receiver.Inside context.repository) (idle : live.gateway.Idle context.mark)
    (kept : context.Keeps files live) {node : Node} (within : node.In context.repository) (length : Nat) :
    live.Results (receiver.beginFile node length) (Progress.Balances context files)
      (context.Drops files node.site) := by
  have opens : live.Results (node.openWrite 0)
      (fun writer after => ∃ number properties, writer = .upload number ∧ context.mark ≤ number ∧
        after.gateway.Uploading number node.location properties [] ∧ context.Keeps files after)
      (context.Drops files node.site) := by
    apply ((Live.ends_openWrite within idle).results
      fun asked _ _ interrupted => drops_of_interrupted kept interrupted asked).mono
    · rintro writer after ⟨number, same, begun, uploading, gains⟩
      exact ⟨number, _, same, begun, uploading, kept.then_nothing gains⟩
    · exact fun _ _ _ drops => drops
  apply opens.bind drops_prepend
  rintro writer opened ⟨number, properties, same, begun, uploading, kept⟩
  have tells : opened.Results sendOk
      (fun _ after => after.gateway.Uploading number node.location properties [] ∧ context.Keeps files after)
      (context.Drops files node.site) := by
    apply (results_send opened).mono
    · exact fun _ _ unmoved => ⟨unmoved.uploading uploading, kept.then_nothing unmoved.store⟩
    · rintro asked fault after ⟨unmoved, _⟩
      exact drops_of_interrupted kept ⟨(unmoved.uploading uploading).droppable begun, unmoved.store⟩ asked
  apply tells.bind drops_prepend
  rintro _ after ⟨uploading, kept⟩
  have waiting : after.Results (receiver.awaitBody ⟨node, length, writer, length⟩) (Progress.Balances context files)
      (context.Drops files node.site) := awaitBody_balances inside kept same begun uploading
  exact waiting

theorem openFile_balances (inside : receiver.Inside context.repository) (idle : live.gateway.Idle context.mark)
    (kept : context.Keeps files live) (header : Wire.Header) :
    live.Results (receiver.openFile context.transfer header) (Progress.Balances context files)
      (context.Loses files disputed) := by
  have choosing : Attempts Effect.Quiet (Chosen receiver.level.target header.name)
      (fileTarget receiver.level.target header.name) :=
    ((fileTarget_inquires vouches_anyAnswer _ _).mono fun _ found => found.1).weaken fun _ => Effect.Inquires.quiet
  rw [openFile]
  apply (quiet_loses idle kept (choosing.logging fun _ => trivial)).bind loses_prepend
  rintro target reached ⟨chosen, idle, kept⟩
  have within := chosen.within inside.1
  have nodeWithin : ((target.withSize header.length).withProperties
      (fileProperties context.transfer header receiver.level.times)).In context.repository :=
    ⟨within.backing, within.within, within.outside⟩
  have insideToo : Inside context.repository { receiver with level := { receiver.level with times := none } } := inside
  exact loses_of_drops (beginFile_balances insideToo idle kept nodeWithin header.length)

omit [RemoteStore σ] [DepositStore σ] in
theorem inside_of_turns {granted : String → String → Access → Prop} {kind : LineKind} {text : String}
    (turns : receiver.Turns granted kind text progress) (inside : receiver.Inside context.repository) :
    progress.Holds fun next => next.Inside context.repository ∧ next.phase = .control := by
  have free := freeIn_of_turns turns inside
  cases turns with
  | closed => trivial
  | _ => exact ⟨free.1, rfl⟩

theorem balances_of_control (idle : live.gateway.Idle context.mark) (kept : context.Keeps files live)
    (inside : progress.Holds fun next => next.Inside context.repository ∧ next.phase = .control) :
    progress.Balances context files live := by
  cases progress with
  | waiting next =>
      obtain ⟨level, outer, phase⟩ := next
      obtain ⟨inside, rfl⟩ := inside
      exact ⟨inside, by rwa [unconfirmed, List.append_nil], idle⟩
  | _ => exact ⟨idle, kept⟩

theorem line_balances {level : Level} {outer : List Level} {kind : LineKind} {line : Wire.Line} (byte : UInt8)
    (inside : Receiver.Inside context.repository ⟨level, outer, .control⟩) (idle : live.gateway.Idle context.mark)
    (kept : context.Keeps files live) :
    live.Results (push context.transfer ⟨level, outer, .line kind line⟩ byte) (Progress.Balances context files)
      (context.Loses files disputed) := by
  rw [push]
  cases line.push byte with
  | more next => exact Live.Results.pure ⟨inside, by rwa [unconfirmed, List.append_nil], idle⟩
  | done result =>
      apply (quiet_loses idle kept (Complies.ofExcept result)).bind loses_prepend
      rintro text reached ⟨_, idle, kept⟩
      by_cases file : kind = .file
      · subst file
        apply (quiet_loses idle kept (Complies.ofExcept _)).bind loses_prepend
        rintro header after ⟨_, idle, kept⟩
        exact openFile_balances inside idle kept header
      · have turning := (onLine_turns vouches_anyAnswer ⟨level, outer, .control⟩ context.transfer file text).weaken
          fun _ => Effect.Courteous.quiet
        apply (quiet_loses idle kept turning).mono
        · rintro _ _ ⟨turns, idle, kept⟩
          exact balances_of_control idle kept (inside_of_turns turns inside)
        · exact fun _ _ _ lost => lost

omit [DepositStore σ] in
theorem Writes.droppable {gateway : Gateway σ} {mark : Nat} (writes : receiver.Writes mark gateway) :
    gateway.Droppable mark := by
  obtain ⟨level, outer, phase⟩ := receiver
  cases phase with
  | body file =>
      obtain ⟨number, properties, bytes, _, begun, uploading⟩ := writes
      exact uploading.droppable begun
  | _ => exact .inl writes.1

theorem Writes.of_unmoved {before after : Gateway σ} {mark : Nat} (writes : receiver.Writes mark before)
    (unmoved : before.Unmoved after) : receiver.Writes mark after := by
  obtain ⟨level, outer, phase⟩ := receiver
  cases phase with
  | body file =>
      obtain ⟨number, properties, bytes, writer, begun, uploading⟩ := writes
      exact ⟨number, properties, bytes, writer, begun, unmoved.uploading uploading⟩
  | _ => exact unmoved.idle writes

theorem body_balances {level : Level} {outer : List Level} {file : Incoming} {number : Nat} {properties : Properties}
    {bytes : List UInt8} (byte : UInt8) (inside : Receiver.Inside context.repository ⟨level, outer, .control⟩)
    (kept : context.Keeps files live) (writer : file.writer = .upload number) (begun : context.mark ≤ number)
    (uploading : live.gateway.Uploading number file.node.location properties bytes) :
    live.Results (push context.transfer ⟨level, outer, .body file⟩ byte) (Progress.Balances context files)
      (context.Loses files disputed) := by
  rw [push]
  apply loses_of_drops
  rw [pushBody, writer]
  have writes : live.Results ((Writer.upload number).write [byte])
      (fun writer after => writer = .upload number ∧
        after.gateway.Uploading number file.node.location properties (bytes ++ [byte]) ∧ context.Keeps files after)
      (context.Drops files file.node.site) := by
    apply ((Live.ends_write uploading begun [byte]).results
      fun asked _ _ interrupted => drops_of_interrupted kept interrupted asked).mono
    · rintro _ _ ⟨same, uploading, gains⟩
      exact ⟨same, uploading, kept.then_nothing gains⟩
    · exact fun _ _ _ drops => drops
  apply writes.bind drops_prepend
  rintro written after ⟨same, uploading, kept⟩
  exact awaitBody_balances inside kept same begun uploading

/-- A part that can only fail, and asks for nothing about uploads, leaves what was finished. -/
theorem refuses_balances {α : Type} {holds : α → Live σ → Prop} {part : Step α}
    (writes : receiver.Writes context.mark live.gateway) (kept : context.Keeps files live)
    (refuses : Attempts Effect.Quiet (fun _ => False) part) :
    live.Results part holds (context.Loses files disputed) := by
  have ends : live.Ends part holds (fun _ after => live.gateway.Interrupted context.mark after.gateway) :=
    (Live.ends_of_attempts live refuses).mono (fun _ _ ended => ended.1.elim) fun _ _ unmoved =>
      ⟨(writes.of_unmoved unmoved).droppable, unmoved.store⟩
  exact ends.results fun asked _ _ interrupted => loses_of_interrupted kept interrupted asked

/-- A fault in the word about a file is logged at the file, which the store has. -/
theorem disputes_balances {α : Type} {holds : α → Live σ → Prop} {site : Site} {fault : Fault}
    (droppable : live.gateway.Droppable context.mark) (kept : context.Keeps (files ++ [site]) live)
    (disputes : disputed site) :
    live.Results (context.transfer.logging site (throw fault : Attempt α)) holds (context.Loses files disputed) := by
  have thrown : live.Ends (throw fault : Attempt α) holds fun failed after => failed = some fault ∧ after = live :=
    Live.Ends.throw ⟨rfl, rfl⟩
  apply (thrown.results fun _ _ _ lost => lost).logging
  · rintro asked given after ⟨_, rfl⟩
    exact ⟨droppable, .inr ⟨site, after.gateway.log, rfl, rfl, kept, .inr disputes⟩⟩
  · rintro asked after ⟨none, _⟩
    cases none

/-- What a word about a file makes of the books: the file is finished, or it is logged as failed. -/
theorem lastWord_balances {level : Level} {outer : List Level} {site : Site} {state : Wire.Acknowledgement}
    (byte : UInt8) (inside : Receiver.Inside context.repository ⟨level, outer, .control⟩)
    (kept : context.Keeps (files ++ [site]) live) (idle : live.gateway.Idle context.mark) :
    live.Results (push context.transfer ⟨level, outer, .lastWord site state⟩ byte)
      (Progress.Balances context (files ++ Session.finishedBy byte
        (.receiving context.transfer context.mark ⟨level, outer, .lastWord site state⟩)))
      (context.Loses (files ++ Session.finishedBy byte
        (.receiving context.transfer context.mark ⟨level, outer, .lastWord site state⟩))
        (Disputes ⟨level, outer, .lastWord site state⟩ byte)) := by
  have unfinished (other : state.push byte ≠ .done (.ok ())) : Session.finishedBy byte
      (.receiving context.transfer context.mark ⟨level, outer, .lastWord site state⟩) = [] := by
    apply Session.finishedBy_of_unfinished
    intro booked word awaits
    cases awaits
    exact other
  cases pushed : state.push byte with
  | more next =>
      rw [unfinished (by rw [pushed]; intro same; cases same), List.append_nil, push, pushed]
      exact Live.Results.pure ⟨inside, kept, idle⟩
  | done word =>
      cases word with
      | error fault =>
          rw [unfinished (by rw [pushed]; intro same; cases same), List.append_nil, push, pushed]
          exact disputes_balances (.inl idle.1) kept ⟨state, fault, rfl, pushed⟩
      | ok _ =>
          rw [Session.finishedBy_of_done rfl pushed, push, pushed]
          have logging : Attempts Effect.Quiet (fun _ => True) (context.transfer.logSuccess site) :=
            context.transfer.logSuccess_complies (fun _ => trivial) site
          apply (quiet_loses idle kept logging).bind loses_prepend
          rintro _ after ⟨_, idle, kept⟩
          exact Live.Results.pure ⟨inside, by rwa [unconfirmed, List.append_nil], idle⟩

/-- A byte that is no word about a file leaves the books in balance. -/
theorem push_balances (unawaited : receiver.unconfirmed = []) (inside : receiver.Inside context.repository)
    (kept : context.Keeps files live) (writes : receiver.Writes context.mark live.gateway) (byte : UInt8) :
    live.Results (receiver.push context.transfer byte) (Progress.Balances context files)
      (context.Loses files fun _ => False) := by
  obtain ⟨level, outer, phase⟩ := receiver
  cases phase with
  | control =>
      rw [push]
      cases lineKind? byte with
      | none =>
          have atControl : Receiver.Writes context.mark live.gateway ⟨level, outer, .control⟩ := writes
          exact refuses_balances atControl kept Complies.throw
      | some kind => exact Live.Results.pure ⟨inside, by rwa [unconfirmed, List.append_nil], writes⟩
  | line kind line =>
      exact line_balances byte inside writes kept
  | body file =>
      obtain ⟨number, properties, bytes, writer, begun, uploading⟩ := writes
      exact body_balances byte inside kept writer begun uploading
  | lastWord site state => cases unawaited

end Steps

end Receiver

/-- How a session leaves the store: it has the files that are finished, or, if the session failed, one more at
which the failure is logged, for such a cause. -/
def UploadContext.Settles (context : UploadContext σ) (files : List Site) (cause : Site → σ → Prop)
    (result : Except Fault Unit)
    (live : Live σ) : Prop :=
  match result with
  | .ok () => context.Keeps files live
  | .error fault => fault ≠ .cancelled → context.Keeps files live ∨
      ∃ site earlier, context.Keeps (files ++ [site]) live ∧
        live.gateway.log = earlier ++ [context.transfer.failureRecord site fault] ∧ cause site live.gateway.store

/-- How a session settles that began with books opened anew, and what it had before. -/
theorem UploadContext.Settles.since {context : UploadContext σ} {files : List Site} {cause wider : Site → σ → Prop}
    {result : Except Fault Unit} {before after : Live σ} (kept : context.Keeps files before)
    (settles : (context.since before).Settles [] cause result after)
    (widen : ∀ site deposit, deposit.location = site.location →
      Gains before.gateway.store [deposit] after.gateway.store → cause site after.gateway.store →
        wider site after.gateway.store) : context.Settles files wider result after := by
  cases result with
  | ok _ => exact List.append_nil files ▸ kept.since settles
  | error fault =>
      intro uncancelled
      rcases settles uncancelled with same | ⟨site, earlier, one, logged, caused⟩
      · exact .inl (List.append_nil files ▸ kept.since same)
      · refine .inr ⟨site, earlier, kept.since one, logged, ?_⟩
        obtain ⟨deposits, gains, places⟩ := one
        obtain ⟨deposit, rfl, place⟩ := List.map_eq_singleton_iff.1 places
        exact widen site deposit place gains caused

theorem UploadContext.Settles.mono {context : UploadContext σ} {files : List Site} {cause wider : Site → σ → Prop}
    {result : Except Fault Unit} {live : Live σ} (settles : context.Settles files cause result live)
    (widen : ∀ site store, cause site store → wider site store) : context.Settles files wider result live := by
  cases result with
  | ok _ => exact settles
  | error fault =>
      intro uncancelled
      rcases settles uncancelled with kept | ⟨site, earlier, kept, logged, caused⟩
      · exact .inl kept
      · exact .inr ⟨site, earlier, kept, logged, widen site _ caused⟩

namespace Session

variable {context : UploadContext σ} {taken : List UInt8} {files : List Site} {disputed : Site → Prop} {live : Live σ}

/-- The client could not be told that the store has the file, or it did not confirm the file. -/
def Doubted (start : Session × Live σ) (input : List UInt8) (ending : Ending) (site : Site) (store : σ) : Prop :=
  Untold start input site store ∨ Unconfirmed start input ending site

/-- Where a session stands when some bytes have come. -/
def Balances (context : UploadContext σ) (taken : List UInt8) (state : Session × Live σ) : Prop :=
  match state.1 with
  | .receiving transfer mark receiver => transfer = context.transfer ∧ mark = context.mark ∧
      receiver.Balances context (finished taken context.start) state.2 ∧
      ∀ site word, receiver.phase = .lastWord site word → Awaits context.start taken site word
  | .sending _ _ => False
  | .ended result => context.Settles (finished taken context.start)
      (fun site store => ∀ more ending, Doubted context.start (taken ++ more) ending site store) result state.2

theorem carryOut_settles {α : Type} {step : Step α} {holds : α → Live σ → Prop} (next : α → Session)
    (results : live.Results step holds (context.Loses files disputed)) :
    (∃ value after, holds value after ∧
        carryOut context.transfer context.mark step next live = (next value, after)) ∨
      ∃ fault after, context.Settles files (fun site store =>
          Refused (live.asked step) (fun had => Gains had [] store) ∨ disputed site) (.error fault) after ∧
        carryOut context.transfer context.mark step next live = (.ended (.error fault), after) := by
  rw [Live.Results] at results
  rw [carryOut]
  rcases ran : live.run step.run with ⟨_ | failure | value, reached⟩ <;> simp only [ran] at results ⊢
  · exact .inr ⟨_, _, fun uncancelled => absurd rfl uncancelled, rfl⟩
  · refine .inr ⟨failure.fault, (fail context.transfer context.mark failure reached).2, fun _ => ?_, rfl⟩
    obtain ⟨droppable, kept⟩ := results
    have settled := (fail_settles droppable context.transfer failure).2
    rcases kept with kept | ⟨site, earlier, marked, logged, kept, cause⟩
    · exact .inl (kept.then_nothing settled)
    · refine .inr ⟨site, earlier, kept.then_nothing settled, ?_, ?_⟩
      · rw [fail_log, marked, logged]
        exact List.append_nil _
      · exact cause.imp (fun refused => refused.mono fun _ had => gains_then_nothing had settled) id
  · exact .inl ⟨value, reached, results, rfl⟩

/-- A part that is interrupted leaves what was finished, whatever the cause. -/
theorem carryOut_interrupted {α : Type} {step : Step α} {holds : α → Live σ → Prop} (next : α → Session)
    (kept : context.Keeps files live)
    (ends : live.Ends step holds fun _ after => live.gateway.Interrupted context.mark after.gateway) :
    (∃ value after, holds value after ∧
        carryOut context.transfer context.mark step next live = (next value, after)) ∨
      ∃ fault after, (∀ cause, context.Settles files cause (.error fault) after) ∧
        carryOut context.transfer context.mark step next live = (.ended (.error fault), after) := by
  refine (carryOut_cases context.transfer next ends).imp id ?_
  rintro ⟨fault, before, after, nothing, settled, _, same⟩
  exact ⟨fault, after, fun _ _ => .inl ((kept.then_nothing nothing).then_nothing settled), same⟩

omit [DepositStore σ] in
/-- Where nothing is sent, no status is refused. -/
theorem not_refused_of_logs {α : Type} {step : Step α} {valid : α → Prop} {has : σ → Prop}
    (logs : Attempts (fun effect => ∃ entry, effect = .log entry) valid step) : ¬Refused (live.asked step) has := by
  rintro ⟨world, fault, asks, _⟩
  obtain ⟨entry, same⟩ := Live.allowed_of_asked logs asks
  cases same

theorem since_balances {progress : Progress Receiver} {after : Live σ} (kept : context.Keeps files live)
    (balances : progress.Balances (context.since live) [] after) : progress.Balances context files after := by
  cases progress with
  | waiting next =>
      obtain ⟨inside, since, writes⟩ := balances
      exact ⟨inside, kept.since since, writes⟩
  | _ => exact ⟨balances.1, List.append_nil files ▸ kept.since balances.2⟩

omit [DepositStore σ] in
/-- A word about a file is not answered. -/
theorem lastWord_logs (transfer : Transfer) (level : Level) (outer : List Level) (site : Site)
    (state : Wire.Acknowledgement) (byte : UInt8) :
    Attempts (fun effect => ∃ entry, effect = .log entry) (fun _ => True)
      (Receiver.push transfer ⟨level, outer, .lastWord site state⟩ byte) := by
  rw [Receiver.push]
  cases state.push byte with
  | more next => exact Complies.pure trivial
  | done word =>
      apply Complies.bind ((Complies.result word).logging fun _ => ⟨_, rfl⟩)
      intro _ _
      apply Complies.bind (transfer.logSuccess_complies (fun entry => ⟨entry, rfl⟩) site)
      exact fun _ _ => Complies.pure trivial

/-- What a byte makes of the books. If the session fails with a file more in the store, it was stored on this byte and
the client could not be told so, or it is the file that the byte disputes. -/
theorem push_settles {receiver : Receiver} (balances : receiver.Balances context files live) (byte : UInt8) :
    let now := files ++ finishedBy byte (.receiving context.transfer context.mark receiver)
    let step := receiver.push context.transfer byte
    let next := ofProgress (receiving context.transfer context.mark)
    (∃ progress after, (progress.Balances context now after ∧ receiver.Steps (fun _ _ _ => True) byte progress) ∧
        carryOut context.transfer context.mark step next live = (next progress, after)) ∨
      ∃ fault after, context.Settles now (fun site store =>
          Unheard (live.asked step) live.gateway.store site store ∨ receiver.Disputes byte site) (.error fault) after ∧
        carryOut context.transfer context.mark step next live = (.ended (.error fault), after) := by
  intro now step next
  have steps : live.Ends step (fun progress _ => receiver.Steps (fun _ _ _ => True) byte progress) (fun _ _ => True) :=
    (Live.ends_of_complies (Receiver.push_steps vouches_anyAnswer context.transfer receiver byte)
      (fun _ => True) (fun _ _ _ _ => ⟨trivial, fun _ _ => trivial⟩) trivial).mono
      (fun _ _ ended => ended.1) fun _ _ lost => lost
  obtain ⟨inside, kept, writes⟩ := balances
  by_cases unawaited : receiver.unconfirmed = []
  · have unfinished : now = files := by
      obtain ⟨level, outer, phase⟩ := receiver
      cases phase with
      | lastWord site state => cases unawaited
      | _ => exact List.append_nil files
    rw [unawaited, List.append_nil] at kept
    rw [unfinished]
    have within : receiver.Inside (context.since live).repository := inside
    have nothing : (context.since live).Keeps [] live := ⟨[], DepositStore.gains_refl _, rfl⟩
    have anew : live.Results (receiver.push (context.since live).transfer byte)
        (Progress.Balances (context.since live) []) ((context.since live).Loses [] fun _ => False) :=
      Receiver.push_balances unawaited within nothing writes byte
    rcases carryOut_settles next (anew.and_ends steps) with
      ⟨progress, after, ⟨balances, steps⟩, same⟩ | ⟨fault, after, settles, same⟩
    · exact .inl ⟨progress, after, ⟨since_balances kept balances, steps⟩, same⟩
    · refine .inr ⟨fault, after, settles.since kept fun site deposit place gains cause => ?_, same⟩
      exact .inl ⟨deposit, place, gains, cause.resolve_right id⟩
  · obtain ⟨level, outer, phase⟩ := receiver
    cases phase with
    | lastWord site state =>
        have word := (Receiver.lastWord_balances byte inside kept writes).and_ends steps
        refine (carryOut_settles next word).imp id ?_
        rintro ⟨fault, after, settles, same⟩
        refine ⟨fault, after, settles.mono fun _ _ cause => ?_, same⟩
        exact .inr (cause.resolve_left (not_refused_of_logs (lastWord_logs _ level outer site state byte)))
    | _ => exact absurd rfl unawaited

theorem feed_balances {state : Session × Live σ} (balances : Balances context taken state)
    (reached : feedAll taken context.start = state) (byte : UInt8) :
    Balances context (taken ++ [byte]) (feed byte state) := by
  have files : finished (taken ++ [byte]) context.start = finished taken context.start ++ finishedBy byte state.1 := by
    rw [finished_append_singleton, reached]
  have further : feedAll (taken ++ [byte]) context.start = feed byte state := by
    rw [feedAll_append_singleton, reached]
  obtain ⟨session, live⟩ := state
  cases session with
  | receiving transfer mark receiver =>
      obtain ⟨rfl, rfl, balances, awaits⟩ := balances
      have pushed := push_settles balances byte
      rw [← files] at pushed
      rw [feed] at further ⊢
      rcases pushed with ⟨progress, after, ⟨balances, steps⟩, same⟩ | ⟨fault, after, settles, same⟩ <;>
        rw [same] at further ⊢
      · cases progress with
        | waiting next =>
            refine ⟨rfl, rfl, balances, fun site word awaited => ?_⟩
            rcases steps.awaits awaited with rfl | ⟨earlier, phase, more⟩
            · apply Awaits.begin
              rw [AwaitsWord, further]
              obtain ⟨level, outer, phase⟩ := next
              obtain rfl : phase = .lastWord site .status := awaited
              rfl
            · exact (awaits site earlier phase).more more
        | _ => exact balances.2
      · change context.Settles (finished (taken ++ [byte]) context.start)
          (fun site store => ∀ more ending, Doubted context.start (taken ++ [byte] ++ more) ending site store)
          (.error fault) after
        apply settles.mono
        rintro site store (unheard | ⟨state, fault, phase, done⟩) more ending
        · refine .inl ⟨taken, byte, List.prefix_append _ _, ?_⟩
          rw [reached]
          exact unheard
        · exact .inr ((awaits site state phase).disputed done more ending)
  | sending transfer sender => exact balances.elim
  | ended result =>
      have none : finishedBy byte (.ended result) = [] := rfl
      rw [none, List.append_nil] at files
      have settles : context.Settles (finished taken context.start)
          (fun site store => ∀ more ending, Doubted context.start (taken ++ more) ending site store) result
          live := balances
      rw [← files] at settles
      change context.Settles (finished (taken ++ [byte]) context.start)
        (fun site store => ∀ more ending, Doubted context.start (taken ++ [byte] ++ more) ending site store) result live
      apply settles.mono
      intro site store doubted more ending
      rw [List.append_assoc]
      exact doubted ([byte] ++ more) ending

/-- The end of the client's bytes may stand for the word about a file. -/
theorem atEnd_balances {receiver : Receiver} (balances : receiver.Balances context files live)
    (awaits : ∀ site word, receiver.phase = .lastWord site word → Awaits context.start taken site word) :
    live.Results (receiver.atEnd context.transfer)
      (fun _ after => context.Keeps
        (files ++ finishedAtEnd .closed (.receiving context.transfer context.mark receiver)) after)
      (context.Loses (files ++ finishedAtEnd .closed (.receiving context.transfer context.mark receiver))
        (Unconfirmed context.start taken .closed)) := by
  have droppable := balances.writes.droppable
  obtain ⟨level, outer, phase⟩ := receiver
  obtain ⟨inside, kept, writes⟩ := balances
  rw [Receiver.atEnd]
  cases phase with
  | control => exact Live.Results.pure kept
  | line kind line => exact Receiver.refuses_balances writes kept Complies.throw
  | body file => exact Receiver.refuses_balances writes kept (Complies.throw.logging fun _ => trivial)
  | lastWord site state =>
      cases state with
      | status =>
          have logging : Attempts Effect.Quiet (fun _ => True) (context.transfer.logSuccess site) :=
            context.transfer.logSuccess_complies (fun _ => trivial) site
          exact (Receiver.quiet_loses writes kept logging).mono (fun _ _ ended => ended.2.2) fun _ _ _ lost => lost
      | message isError line =>
          have refused : (Wire.Acknowledgement.message isError line).atEnd (Ending.closed == .closed) ≠ .ok () := by
            intro same
            cases same
          have disputed := (awaits site _ rfl).atEnd refused
          exact Receiver.disputes_balances droppable ((List.append_nil files).symm ▸ kept) disputed

theorem breakOff_balances {receiver : Receiver} (balances : receiver.Balances context files live)
    (awaits : ∀ site word, receiver.phase = .lastWord site word → Awaits context.start taken site word)
    (reason : String) :
    live.Results (breakOff context.transfer receiver.site? reason) (fun _ _ => False)
      (context.Loses files (Unconfirmed context.start taken (.broken reason))) := by
  have droppable := balances.writes.droppable
  obtain ⟨level, outer, phase⟩ := receiver
  obtain ⟨inside, kept, writes⟩ := balances
  cases phase with
  | control => exact Receiver.refuses_balances writes (List.append_nil files ▸ kept) Complies.throw.unlogged
  | line kind line => exact Receiver.refuses_balances writes (List.append_nil files ▸ kept) Complies.throw.unlogged
  | body file =>
      exact Receiver.refuses_balances writes (List.append_nil files ▸ kept) (Complies.throw.logging fun _ => trivial)
  | lastWord site state =>
      have refused : state.atEnd (Ending.broken reason == .closed) ≠ .ok () := by
        intro same
        cases state <;> cases same
      exact Receiver.disputes_balances droppable kept ((awaits site state rfl).atEnd refused)

theorem finish_settles {state : Session × Live σ} (balances : Balances context taken state) (ending : Ending) :
    ∃ result, (finish ending state).1 = .ended result ∧
      context.Settles (finished taken context.start ++ finishedAtEnd ending state.1)
        (Doubted context.start taken ending) result (finish ending state).2 := by
  obtain ⟨session, live⟩ := state
  cases session with
  | receiving transfer mark receiver =>
      obtain ⟨rfl, rfl, balances, awaits⟩ := balances
      cases ending with
      | closed =>
          have silent : ∀ has, ¬Refused (live.asked (receiver.atEnd context.transfer)) has := fun has =>
            not_refused_of_logs (receiver.atEnd_complies (fun entry => ⟨entry, rfl⟩) context.transfer)
          rcases carryOut_settles (fun _ => .ended (.ok ())) (atEnd_balances balances awaits) with
            ⟨_, after, kept, same⟩ | ⟨fault, after, settles, same⟩ <;> rw [finish, same]
          · exact ⟨_, rfl, kept⟩
          · refine ⟨_, rfl, settles.mono fun site store cause => ?_⟩
            exact .inr (cause.resolve_left (silent _))
      | broken reason =>
          have none : finishedAtEnd (.broken reason) (.receiving context.transfer context.mark receiver) = [] := rfl
          rw [none, List.append_nil]
          have silent : ∀ has, ¬Refused (live.asked (breakOff context.transfer receiver.site? reason)) has := fun has =>
            not_refused_of_logs (breakOff_complies (fun entry => ⟨entry, rfl⟩) context.transfer receiver.site? reason)
          rcases carryOut_settles (fun _ => .ended (.ok ())) (breakOff_balances balances awaits reason) with
            ⟨_, after, impossible, _⟩ | ⟨fault, after, settles, same⟩
          · exact impossible.elim
          · rw [finish, same]
            refine ⟨_, rfl, settles.mono fun site store cause => ?_⟩
            exact .inr (cause.resolve_left (silent _))
      | silent => exact ⟨_, rfl, fun uncancelled => absurd rfl uncancelled⟩
  | sending transfer sender => exact balances.elim
  | ended result =>
      have settles : context.Settles (finished taken context.start)
          (fun site store => ∀ more ending, Doubted context.start (taken ++ more) ending site store) result
          live := balances
      refine ⟨result, rfl, ?_⟩
      change context.Settles (_ ++ finishedAtEnd ending (.ended result)) _ result live
      rw [finishedAtEnd_ended, List.append_nil]
      apply settles.mono
      intro site store doubted
      have now := doubted [] ending
      rwa [List.append_nil] at now

theorem start_balances {login : Login} {line : String} {command : Command}
    (parsed : Command.parse line = .ok command) (sink : command.direction = .sink)
    (outside : (Location.resolve (command.paths.headD "")).isSink = false) (idle : live.gateway.uploads = []) :
    Balances (uploadContext login line command live) [] (start login line live) := by
  let context := uploadContext login line command live
  have kept : context.Keeps [] live := ⟨[], DepositStore.gains_refl _, rfl⟩
  have beginning : Attempts Effect.Quiet (Receiver.Begins context.transfer (command.paths.headD ""))
      (Receiver.start context.transfer (command.paths.headD "")) :=
    (Receiver.start_begins _ _).weaken fun _ => Effect.Courteous.quiet
  have ends : live.Ends (Receiver.start context.transfer (command.paths.headD ""))
      (fun receiver after => receiver.Begins context.transfer (command.paths.headD "") ∧
        after.gateway.Idle context.mark ∧ context.Keeps [] after)
      (fun _ after => live.gateway.Interrupted context.mark after.gateway) :=
    Receiver.quiet_balances ⟨idle, Nat.le_refl _⟩ kept beginning
  rw [start_sink parsed sink]
  change Balances context [] (carryOut context.transfer context.mark
    (Receiver.start context.transfer (command.paths.headD "")) (receiving context.transfer context.mark) live)
  rcases carryOut_interrupted (receiving context.transfer context.mark) kept ends with
    ⟨receiver, after, ⟨begun, idle, kept⟩, same⟩ | ⟨fault, after, settles, same⟩ <;> rw [same]
  · obtain ⟨level, outer, phase⟩ := receiver
    obtain ⟨rfl, rfl, _, located, _⟩ := begun
    have inside : level.target.In (Location.resolve (command.paths.headD "")).repository :=
      Node.in_of_at located rfl (ne_of_beq_false outside)
    refine ⟨rfl, rfl, ⟨⟨inside, List.forall_mem_nil _⟩, kept, idle⟩, ?_⟩
    intro site word phase
    cases phase
  · exact settles fun site store => ∀ more ending, Doubted context.start ([] ++ more) ending site store

theorem feedAll_balances (begun : Balances context [] context.start) (input : List UInt8) :
    Balances context input (feedAll input context.start) := by
  induction input using List.reverseRecOn with
  | nil => exact begun
  | append_singleton input byte ih =>
      rw [feedAll_append_singleton]
      exact feed_balances ih rfl byte

end Session

/-- The places of the files that are logged as stored. -/
def created (records : List AccessRecord) : List Location :=
  (records.filter fun record => record.status == 201).map AccessRecord.location

theorem Fault.statusCode_ne (fault : Fault) : fault.statusCode ≠ 201 := by
  have worded (text : String) : statusOfMessage text ≠ 201 := by
    rw [statusOfMessage]
    split <;> decide
  cases fault <;> first | exact worded _ | simp [statusCode]

theorem created_append (first rest : List AccessRecord) : created (first ++ rest) = created first ++ created rest := by
  rw [created, List.filter_append, List.map_append]
  rfl

namespace Transfer

variable {transfer : Transfer}

theorem created_successes (sink : transfer.command.direction = .sink) (files : List Site) :
    created (transfer.successes files) = files.map Site.location := by
  rw [successes, sink, created]
  induction files with
  | nil => rfl
  | cons site rest ih =>
      rw [List.map_cons, List.filter_cons_of_pos rfl, List.map_cons, ih]
      rfl

theorem created_failure (transfer : Transfer) (fault : Fault) (site : Site) :
    created [transfer.entry fault.statusCode 1 site] = [] := by
  simp [created, entry, fault.statusCode_ne]

end Transfer

namespace Session

variable {login : Login} {line : String} {command : Command}

/-- The books of the log and those of the store, side by side. -/
theorem agrees_of_settles {context : UploadContext σ} {files : List Site} {cause : Site → σ → Prop}
    {before : List AccessRecord} {result : Except Fault Unit} {last : Live σ}
    (accounts : context.transfer.Accounts files before result last.gateway.log)
    (settles : context.Settles files cause result last) (sink : context.transfer.command.direction = .sink)
    (uncancelled : result ≠ .error .cancelled) :
    ∃ stored records, Gains context.origin stored last.gateway.store ∧ last.gateway.log = before ++ records ∧
      (stored.map Deposit.location = created records ∨
        ∃ fault site, result = .error fault ∧
          records.getLast? = some (context.transfer.entry fault.statusCode 1 site) ∧
          stored.map Deposit.location = created records ++ [site.location] ∧ cause site last.gateway.store) := by
  have places := Transfer.created_successes sink files
  generalize log : last.gateway.log = after at accounts
  cases accounts with
  | succeeded =>
      obtain ⟨deposits, gains, same⟩ := settles
      exact ⟨deposits, _, gains, rfl, .inl (same.trans places.symm)⟩
  | failed fault booked =>
      have failed (site : Site) : created (context.transfer.successes files ++
          [context.transfer.entry fault.statusCode 1 site]) = files.map Site.location := by
        rw [created_append, places, Transfer.created_failure, List.append_nil]
      rcases settles (fun same => uncancelled (congrArg Except.error same)) with
        ⟨deposits, gains, same⟩ | ⟨site, earlier, ⟨deposits, gains, same⟩, logged, caused⟩
      · exact ⟨deposits, _, gains, List.append_assoc _ _ _, .inl (same.trans (failed booked).symm)⟩
      · rw [log, Transfer.failureRecord_eq] at logged
        obtain ⟨_, one⟩ := List.append_inj' logged rfl
        refine ⟨deposits, _, gains, List.append_assoc _ _ _, .inr ⟨fault, site, rfl, ?_, ?_, caused⟩⟩
        · rw [List.getLast?_append, one]
          rfl
        · rw [same, failed, List.map_append, List.map_singleton]

/-- What was uploaded and what was logged of it. The places where the store has accepted a file in a session that
is not cancelled are, in turn, those of the files that are logged as stored; if there is one more, it is the
last, it is logged as failed, and the status that answers it could not be sent when the store had accepted it, or the
client did not confirm it. -/
theorem log_agrees_with_store {live : Live ScriptedStore} (parsed : Command.parse line = .ok command)
    (sink : command.direction = .sink) (outside : (Location.resolve (command.paths.headD "")).isSink = false)
    (idle : live.gateway.uploads = []) (input : List UInt8) (ending : Ending)
    (uncancelled : (run login line input ending live).1 ≠ .error .cancelled) :
    let start := Session.start login line live
    let ended := run login line input ending live
    ∃ stored records, ended.2.gateway.store.deposits = live.gateway.store.deposits ++ stored ∧
      ended.2.gateway.log = live.gateway.log ++ records ∧
      (stored.map Deposit.location = created records ∨
        ∃ fault last, ended.1 = .error fault ∧
          records.getLast? = some ((login.transfer command live.gateway.settings).entry fault.statusCode 1 last) ∧
          stored.map Deposit.location = created records ++ [last.location] ∧
          (Untold start input last ended.2.gateway.store ∨ Unconfirmed start input ending last)) := by
  intro start ended
  have balances : Balances (uploadContext login line command live) input (feedAll input start) :=
    feedAll_balances (start_balances parsed sink outside idle) input
  obtain ⟨result, same, settles⟩ := finish_settles balances ending
  rw [finish_eq_run] at same settles
  obtain rfl : ended.1 = result := Session.ended.inj same
  have accounts := run_accounts parsed login live input ending
  obtain ⟨stored, records, gains, log, agree⟩ := agrees_of_settles accounts settles sink uncancelled
  exact ⟨stored, records, gains.1, log, agree⟩

/-- Two files, of which the client disputes the second: it is stored, and logged as failed. -/
theorem log_agrees_with_store_of_disputed_second :
    let live : Live ScriptedStore := { gateway := Gateway.new {} {} (fun _ _ _ => true) ⟨0, 0⟩ }
    let input := Text.encode "C0644 2 a\nhi" ++ 0 :: Text.encode "C0644 2 b\nho" ++ 2 :: Text.encode "no\n"
    let ended := run ⟨"ann", "::1", .empty⟩ "scp -t libs/d/" input .closed live
    ∃ place, ended.2.gateway.store.deposits.map Deposit.location = created ended.2.gateway.log ++ [place] := by
  intro live input ended
  have parsed : Command.parse "scp -t libs/d/" = .ok ⟨.sink, false, false, false, false, ["libs/d/"]⟩ := by
    decide +kernel
  have uncancelled : ended.1 ≠ .error .cancelled := by decide +kernel
  have apart : ended.2.gateway.store.deposits.map Deposit.location ≠ created ended.2.gateway.log := by
    decide +kernel
  obtain ⟨stored, records, deposits, log, agree⟩ :=
    log_agrees_with_store parsed rfl (by decide +kernel) rfl input .closed uncancelled
  subst ended
  revert deposits log agree apart
  generalize run ⟨"ann", "::1", .empty⟩ "scp -t libs/d/" input .closed live = ended
  intro deposits log agree apart
  replace deposits : ended.2.gateway.store.deposits = stored := deposits
  replace log : ended.2.gateway.log = records := log
  rw [deposits, log] at apart ⊢
  rcases agree with equal | ⟨fault, last, _, _, one, _⟩
  · exact absurd equal apart
  · exact ⟨last.location, one⟩

/-- A file that the client disputes after it was stored: the store has it, and it is logged as failed only. -/
theorem disputed_file_stays_stored :
    let live : Live ScriptedStore := { gateway := Gateway.new {} {} (fun _ _ _ => true) ⟨0, 0⟩ }
    let input := Text.encode "C0644 2 a\nhi" ++ 2 :: Text.encode "no\n"
    let ended := run ⟨"ann", "::1", .empty⟩ "scp -t /libs/a" input .closed live
    ended.1 = .error (.peer "no") ∧ ended.2.gateway.store.deposits.map Deposit.location = [⟨"libs", "a"⟩] ∧
      ended.2.gateway.log = [⟨"ann", "::1", .put, ⟨"libs", "a"⟩, 2, 500, 1⟩] ∧
      created ended.2.gateway.log = [] := by
  decide +kernel

end Session

end ArtifactGate
