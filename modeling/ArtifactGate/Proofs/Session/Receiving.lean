import ArtifactGate.Proofs.Forest
import ArtifactGate.Proofs.Session.Conduct

/-!
A receiver takes a forest. Each file that a client announces is begun, filled byte by byte, stored and
acknowledged, and each directory is entered and left, whatever else the gateway is asked in the meantime.
-/
namespace ArtifactGate

namespace Live

/-- A user may write to a repository, no call fails, and the client takes what it is sent. -/
structure Serves (live : Live MemoryStore) (user repository : String) : Prop where
  granted : live.gateway.authorizer repository user .write = true
  reliable : live.gateway.store.failuresPending = 0
  unlimited : live.outlet.limit = none

/-- An upload of a user to a repository can be begun. -/
structure Receives (live : Live MemoryStore) (user repository : String) : Prop
    extends live.Serves user repository where
  ready : live.gateway.Ready

variable {live after : Live MemoryStore} {user repository : String} {sent : List UInt8}
  {logged : List AccessRecord} {stored : List Deposit}

theorem Passage.serves (passage : live.Passage sent logged stored after)
    (serves : live.Serves user repository) : after.Serves user repository where
  granted := passage.authorizer ▸ serves.granted
  reliable := passage.steady.failuresPending.trans serves.reliable
  unlimited := passage.outlet ▸ serves.unlimited

theorem Asks.receives (asks : live.Asks sent logged after) (receives : live.Receives user repository) :
    after.Receives user repository :=
  ⟨asks.passage.serves receives.toServes, asks.consulted.ready receives.ready⟩

theorem Serves.consulted (serves : live.Serves user repository) {gateway : Gateway MemoryStore}
    (consulted : live.gateway.Consulted gateway) : ({ live with gateway } : Live _).Serves user repository := by
  obtain ⟨_, _, _, _, rfl⟩ := consulted
  exact ⟨serves.granted, serves.reliable, serves.unlimited⟩

theorem Receives.consulted (receives : live.Receives user repository) {gateway : Gateway MemoryStore}
    (consulted : live.gateway.Consulted gateway) : ({ live with gateway } : Live _).Receives user repository :=
  ⟨receives.toServes.consulted consulted, consulted.ready receives.ready⟩

theorem Passage.aside (passage : live.Passage sent logged stored after)
    (within : ∀ deposit ∈ stored, deposit.location.repository = repository) :
    live.gateway.Aside repository after.gateway := by
  obtain ⟨objects, now⟩ : live.gateway.store.Holds stored after.gateway.store := passage.gains
  refine ⟨passage.authorizer, passage.now, passage.steady, now, ?_⟩
  intro location outside
  rw [objects]
  rcases MemoryStore.get?_of_deposits live.gateway.store.now stored live.gateway.store.objects location with
    kept | ⟨deposit, member, same, _⟩
  · exact kept
  · exact absurd (same ▸ within deposit member) outside

end Live

/-- A directory of a repository, as the node that a user's uploads go to. -/
structure Node.Takes (target : Node) (user repository : String) : Prop where
  inside : target.In repository
  user : target.user = user
  names : target.location.namesDirectory = true
  isDirectory : target.isDirectory = true

section Targets

variable {live : Live MemoryStore} {target : Node} {user repository name : String}

theorem Node.Takes.isFile (takes : target.Takes user repository) : target.isFile = false := by
  have directory := takes.isDirectory
  rw [Node.isDirectory] at directory
  rw [Node.isFile]
  cases metadata : target.metadata with
  | none => rfl
  | some known =>
      rw [metadata] at directory
      exact congrArg not directory

theorem Node.Takes.child_isSink (takes : target.Takes user repository) (name : String) :
    (target.location.child name).isSink = false := by
  rw [Location.isSink, Location.child_repository, takes.inside.within]
  exact beq_false_of_ne takes.inside.outside

theorem gives_checkName (named : isFileName name = true) :
    live.Gives (ExceptT.mk (pure (checkName name)) : Attempt Unit) fun _ after => after = live := by
  refine ⟨(), live, ?_, rfl⟩
  rw [ExceptT.run_mk, Live.run_pure, checkName, if_pos named]

theorem nodeAt_vacant {location : Location} (vacant : live.gateway.store.Vacant location) (user : String) :
    ((live.gateway.nodeAt user location).exists? && (live.gateway.nodeAt user location).isDirectory) =
      false := by
  rw [Gateway.nodeAt, Node.ofRemote]
  cases described : live.gateway.described location with
  | error fault => rfl
  | ok metadata => exact Gateway.isDirectory_of_vacant vacant described

theorem gives_fileTarget (takes : target.Takes user repository) (receives : live.Receives user repository)
    (named : isFileName name = true)
    (vacant : live.gateway.store.Vacant (target.location.child name)) :
    live.Gives (fileTarget target name) fun node after =>
      node = live.gateway.nodeAt user (target.location.child name) ∧ live.Asks [] [] after := by
  have chosen : live.Gives (chooseFileTarget target name) fun node after =>
      node = live.gateway.nodeAt user (target.location.child name) ∧ live.Asks [] [] after := by
    rw [chooseFileTarget, takes.isFile, takes.names, Bool.or_true]
    apply Live.Gives.lift
    rw [Node.child, takes.user]
    exact Live.yields_lookUp receives.reliable (takes.child_isSink name) user
  rw [fileTarget]
  apply (gives_checkName named).bind
  intro _ checked same
  subst same
  apply chosen.bind
  rintro node after ⟨known, asks⟩
  subst known
  have granted := (asks.receives receives).granted
  apply Live.Gives.accepted (by rw [nodeAt_vacant vacant]; decide)
  have writable : after.Gives (liftM (checked.gateway.nodeAt user (target.location.child name)).isWritable :
      Attempt Bool) fun allowed last => allowed = true ∧ last = after := by
    refine Live.Gives.lift (Live.yields_allows rfl ?_)
    rw [Gateway.nodeAt, Node.ofRemote, Location.child_repository, takes.inside.within]
    exact granted
  apply writable.bind
  rintro allowed last ⟨yes, same⟩
  subst yes same
  exact Live.Gives.accepted (by decide) (Live.Gives.pure ⟨rfl, asks⟩)

theorem gives_directoryTarget (takes : target.Takes user repository)
    (receives : live.Receives user repository) (named : isFileName name = true)
    (segment : IsSegment name) (vacant : live.gateway.store.Vacant (target.location.child name)) :
    live.Gives (directoryTarget target name) fun node after => node.Takes user repository ∧
      node.location = target.location.childDirectory name ∧ live.Asks [] [] after := by
  have outside : (target.location.childDirectory name).isSink = false := takes.child_isSink name
  have missing : live.gateway.nodeAt user (target.location.childDirectory name) =
      .ofRemote user (target.location.childDirectory name) none := by
    rw [Gateway.nodeAt, Gateway.described_of_namesDirectory
        (target.location.namesDirectory_childDirectory name),
      MemoryStore.describe_vacant (MemoryStore.vacant_childDirectory segment vacant)]
    rfl
  have found : live.Gives (liftM (target.childDirectory name) : Attempt Node) fun node after =>
      node = .ofRemote user (target.location.childDirectory name) none ∧ live.Asks [] [] after := by
    rw [Node.childDirectory, takes.user, ← missing]
    exact Live.Gives.lift (Live.yields_lookUp receives.reliable outside user)
  have within : (target.location.childDirectory name).repository = repository :=
    (target.location.childDirectory_repository name).trans takes.inside.within
  rw [directoryTarget]
  apply (gives_checkName named).bind
  intro _ checked same
  subst same
  apply Live.Gives.accepted (by simp [takes.isDirectory])
  apply found.bind
  rintro node after ⟨known, asks⟩
  subst known
  apply Live.Gives.accepted Bool.false_ne_true
  have writable : after.Gives (liftM (Node.ofRemote user (target.location.childDirectory name) none).isWritable :
      Attempt Bool) fun allowed last => allowed = true ∧ last = after := by
    refine Live.Gives.lift (Live.yields_allows rfl ?_)
    rw [Node.ofRemote, within]
    exact (asks.receives receives).granted
  apply writable.bind
  rintro allowed last ⟨yes, same⟩
  subst yes same
  refine Live.Gives.accepted (by decide) (Live.Gives.pure ⟨?_, rfl, asks⟩)
  exact ⟨⟨rfl, within, takes.inside.outside⟩, rfl, target.location.namesDirectory_childDirectory name, rfl⟩

theorem gives_openWrite {node : Node} (inside : node.In repository) (ours : node.user = user)
    (receives : live.Receives user repository) :
    live.Gives (node.openWrite 0) fun writer after => ∃ number, writer = .upload number ∧
      after.gateway.Busy number ∧ after.gateway.Uploading number node.location
        (node.properties.insert Node.uploadedBy user) [] ∧ live.Passage [] [] [] after := by
  have writable : live.Gives (liftM node.isWritable : Attempt Bool)
      fun allowed last => allowed = true ∧ last = live := by
    refine Live.Gives.lift (Live.yields_allows inside.backing ?_)
    rw [inside.within, ours]
    exact receives.granted
  subst ours
  rw [Node.openWrite]
  apply writable.bind
  rintro allowed last ⟨yes, same⟩
  subst yes same
  refine Live.Gives.accepted (by decide) (Live.Gives.accepted (fun nonzero => nonzero rfl) ?_)
  simp only [Node.isSink_of_in inside, Bool.false_eq_true, if_false]
  apply (Live.gives_beginUpload receives.ready _ _).bind
  intro number after begun
  exact Live.Gives.pure ⟨number, rfl, begun⟩

end Targets

section Script

variable {repository user : String} {goal : Session → Live MemoryStore → Prop} {beats : List Beat}
  {transfer : Transfer} {mark : Nat} {live before middle : Live MemoryStore} {level : Level} {outer : List Level}
  {sent : List UInt8} {logged : List AccessRecord} {stored : List Deposit}

/-- After a step of a receiver its session follows the rest of a script. -/
def Receiver.GoesOn (repository : String) (goal : Session → Live MemoryStore → Prop) (transfer : Transfer)
    (mark : Nat) (beats : List Beat) (before : Live MemoryStore) (sent : List UInt8)
    (logged : List AccessRecord) (progress : Progress Receiver) (after : Live MemoryStore) : Prop :=
  ∃ next stored, progress = .waiting next ∧ before.Passage sent logged stored after ∧
    (∀ deposit ∈ stored, deposit.location.repository = repository) ∧
    Session.Follows (.receiving repository) goal beats (.receiving transfer mark next) after

namespace Receiver

theorem GoesOn.after {more : List UInt8} {further : List AccessRecord}
    (passage : before.Passage sent logged stored middle)
    (within : ∀ deposit ∈ stored, deposit.location.repository = repository) {progress : Progress Receiver}
    {after : Live MemoryStore}
    (goesOn : GoesOn repository goal transfer mark beats middle more further progress after) :
    GoesOn repository goal transfer mark beats before (sent ++ more) (logged ++ further) progress after := by
  obtain ⟨next, others, same, rest, withinToo, follows⟩ := goesOn
  exact ⟨next, _, same, passage.trans rest, List.forall_mem_append.2 ⟨within, withinToo⟩, follows⟩

theorem follows_push {receiver : Receiver} {byte : UInt8}
    (gives : ∀ gateway, live.gateway.Consulted gateway →
      ({ live with gateway } : Live _).Gives (receiver.push transfer byte)
        (GoesOn repository goal transfer mark beats { live with gateway } sent logged)) :
    Session.Follows (.receiving repository) goal ({ byte, sent, logged } :: beats)
      (.receiving transfer mark receiver) live := by
  refine ⟨rfl, ?_⟩
  intro gateway consulted
  obtain ⟨progress, after, carried, next, stored, rfl, passage, within, follows⟩ :=
    Session.carryOut_gives transfer mark (Session.ofProgress (.receiving transfer mark))
      (gives gateway consulted)
  exact ⟨_, after, carried, passage.outlet, passage.log, passage.aside within, follows⟩

theorem follows_note {receiver next : Receiver} {byte : UInt8}
    (noted : receiver.push transfer byte = pure (.waiting next))
    (follows : Session.Follows (.receiving repository) goal beats (.receiving transfer mark next) live) :
    Session.Follows (.receiving repository) goal (Beat.quiet byte :: beats) (.receiving transfer mark receiver)
      live := by
  refine Session.Follows.quiet rfl (fun live => ?_) follows
  rw [Session.feed, noted, Session.carryOut, ExceptT.run_pure, Live.run_pure]
  rfl

theorem follows_bytes {kind : LineKind} (bytes : List UInt8) {line : Wire.Line}
    (inner : Wire.newline ∉ bytes) (room : line.bytes.size + bytes.length ≤ Wire.maxLineLength)
    (follows : Session.Follows (.receiving repository) goal beats
      (.receiving transfer mark ⟨level, outer, .line kind ⟨line.bytes ++ bytes.toArray⟩⟩) live) :
    Session.Follows (.receiving repository) goal (bytes.map Beat.quiet ++ beats)
      (.receiving transfer mark ⟨level, outer, .line kind line⟩) live := by
  induction bytes generalizing line with
  | nil => rwa [Array.append_empty] at follows
  | cons byte bytes ih =>
      rw [List.mem_cons, not_or] at inner
      rw [List.length_cons] at room
      have noted : push transfer ⟨level, outer, .line kind line⟩ byte =
          pure (.waiting ⟨level, outer, .line kind ⟨line.bytes.push byte⟩⟩) := by
        rw [push, Wire.Line.push_more (Ne.symm inner.1) (by omega)]
      refine follows_note noted (ih inner.2 ?_ ?_)
      · rw [Array.size_push]
        omega
      · have grown : line.bytes.push byte ++ bytes.toArray = line.bytes ++ (byte :: bytes).toArray :=
          Array.ext' (by simp)
        rwa [grown]

theorem follows_line {control : UInt8} (kind : LineKind) (meaning : lineKind? control = some kind)
    {text : String} (unbroken : '\n' ∉ text.toList)
    (short : (Text.encode text).length ≤ Wire.maxLineLength)
    (gives : ∀ gateway, live.gateway.Consulted gateway →
      ({ live with gateway } : Live _).Gives (onLine transfer ⟨level, outer, .control⟩ kind text)
        (GoesOn repository goal transfer mark beats { live with gateway } sent [])) :
    Session.Follows (.receiving repository) goal (Beat.line control text sent ++ beats)
      (.receiving transfer mark ⟨level, outer, .control⟩) live := by
  have opened : push transfer ⟨level, outer, .control⟩ control =
      pure (.waiting ⟨level, outer, .line kind {}⟩) := by
    rw [push, meaning]
  rw [Beat.line, List.cons_append, List.append_assoc]
  apply follows_note opened
  apply follows_bytes (Text.encode text) (Text.newline_not_mem_encode unbroken)
  · rwa [List.size_toArray, List.length_nil, Nat.zero_add]
  · apply follows_push
    intro gateway consulted
    rw [push, Wire.Line.push_newline, Array.empty_append, Wire.Line.text_encode]
    exact gives gateway consulted

section Body

variable {location : Location} {properties : Properties} {file : Incoming} {number : Nat} {taken : List UInt8}

theorem finishFile_goesOn (writer : file.writer = .upload number) (serves : live.Serves user repository)
    (busy : live.gateway.Busy number)
    (uploading : live.gateway.Uploading number location properties taken)
    (within : location.repository = repository)
    (next : ∀ after : Live MemoryStore, after.Receives user repository →
      Gains live.gateway.store [⟨location, properties, taken⟩] after.gateway.store →
      Session.Follows (.receiving repository) goal beats
        (.receiving transfer mark ⟨level, outer, .lastWord file.node.site .status⟩) after) :
    live.Gives (finishFile ⟨level, outer, .control⟩ file)
      (GoesOn repository goal transfer mark beats live [Wire.okStatus] []) := by
  rw [finishFile, writer]
  apply (Live.gives_finishUpload busy uploading).bind
  rintro _ stored ⟨ready, passage⟩
  apply (Live.gives_sendOk (passage.serves serves).unlimited).bind
  intro _ after asks
  have receives : after.Receives user repository := asks.receives ⟨passage.serves serves, ready⟩
  have whole : live.Passage [Wire.okStatus] [] [⟨location, properties, taken⟩] after :=
    passage.trans asks.passage
  exact Live.Gives.pure ⟨_, _, rfl, whole, List.forall_mem_singleton.2 within,
    next after receives whole.gains⟩

theorem awaitBody_goesOn (rest : List UInt8) (remaining : file.remaining = rest.length)
    (writer : file.writer = .upload number) (serves : live.Serves user repository)
    (busy : live.gateway.Busy number)
    (uploading : live.gateway.Uploading number location properties taken)
    (within : location.repository = repository)
    (next : ∀ after : Live MemoryStore, after.Receives user repository →
      Gains live.gateway.store [⟨location, properties, taken ++ rest⟩] after.gateway.store →
      Session.Follows (.receiving repository) goal beats
        (.receiving transfer mark ⟨level, outer, .lastWord file.node.site .status⟩) after) :
    live.Gives (awaitBody ⟨level, outer, .control⟩ file)
      (GoesOn repository goal transfer mark (Beat.body rest ++ beats) live (Beat.bodyAnswer rest) []) := by
  induction rest generalizing file live taken with
  | nil =>
      have none : file.remaining = 0 := remaining
      rw [List.append_nil] at next
      rw [awaitBody, if_pos none]
      exact finishFile_goesOn writer serves busy uploading within next
  | cons byte rest ih =>
      have some : file.remaining ≠ 0 := by
        rw [remaining]
        exact Nat.succ_ne_zero _
      rw [awaitBody, if_neg some]
      refine Live.Gives.pure ⟨_, [], rfl, (Live.Asks.refl live).passage, List.forall_mem_nil _, ?_⟩
      apply follows_push
      intro gateway consulted
      rw [push]
      apply Live.Gives.logging
      rw [pushBody, writer]
      have written : ({ live with gateway } : Live _).Gives ((Writer.upload number).write [byte])
          fun same after => same = .upload number ∧ after.gateway.Busy number ∧
            after.gateway.Uploading number location properties (taken ++ [byte]) ∧
            ({ live with gateway } : Live _).Passage [] [] [] after :=
        (Live.gives_writeUpload (consulted.busy busy) (consulted.uploading uploading) [byte]).bind
          fun _ _ valid => Live.Gives.pure ⟨rfl, valid⟩
      apply written.bind
      rintro same after ⟨known, busy, uploading, passage⟩
      subst known
      refine (ih ?_ rfl (passage.serves (serves.consulted consulted)) busy uploading ?_).mono ?_
      · rw [remaining]
        rfl
      · intro last receives gains
        apply next last receives
        rw [List.append_assoc, List.singleton_append] at gains
        exact nothing_then_gains (nothing_then_gains consulted.gains passage.gains) gains
      · exact fun _ _ goesOn => goesOn.after passage (List.forall_mem_nil _)

end Body

end Receiver

end Script

end ArtifactGate
