import ArtifactGate.Proofs.Session.Atomic
import ArtifactGate.Proofs.Session.Placement
import ArtifactGate.Proofs.Session.Sink

/-!
Uploads to a store whose objects are the files of a tree. What an upload looks at in the store, byte after byte,
keeps it from putting a file above or below another, but for what it does not look at.
-/
namespace ArtifactGate

def Receiver.nodes (receiver : Receiver) : List Node :=
  receiver.level.target :: receiver.outer.map Level.target

/-- A file that is coming in may be put, and the store has not got it; otherwise nothing is coming in. -/
def Receiver.Puts (upload : TreeUpload) (base : Node) (mark : Nat) (receiver : Receiver) (live : Live MemoryStore) :
    Prop :=
  match receiver.phase with
  | .body file => ∃ number location properties bytes, file.writer = .upload number ∧ mark ≤ number ∧
      live.gateway.Uploading number location properties bytes ∧
      upload.Invariant base receiver.nodes fun place => place = location ∨ live.gateway.store.Has place
  | _ => live.gateway.Idle mark

/-- The directories that are open and what there is around them. -/
structure Receiver.KeepsLevels (upload : TreeUpload) (base : Node) (receiver : Receiver) (live : Live MemoryStore) :
    Prop where
  nested : ∃ opened, Nested base receiver.nodes opened
  inside : ∀ node ∈ receiver.nodes, node.In upload.target.repository
  invariant : upload.Invariant base receiver.nodes live.gateway.store.Has

/-- A receiver between two bytes of an upload. -/
structure Receiver.KeepsTree (upload : TreeUpload) (base : Node) (mark : Nat) (receiver : Receiver)
    (live : Live MemoryStore) : Prop extends receiver.KeepsLevels upload base live where
  puts : receiver.Puts upload base mark live

/-- A receiver that goes on, or a session that is over. -/
def Progress.KeepsTree (upload : TreeUpload) (base : Node) (mark : Nat) (live : Live MemoryStore) :
    Progress Receiver → Prop
  | .waiting receiver => receiver.KeepsTree upload base mark live
  | .over => upload.Sound live.gateway.store.Has

/-- What a step that fails leaves can be dropped, and the store is sound. -/
def TreeUpload.Fails (upload : TreeUpload) (mark : Nat) (live : Live MemoryStore) : Prop :=
  live.gateway.Droppable mark ∧ upload.Sound live.gateway.store.Has

theorem TreeUpload.fails_of_unmoved {upload : TreeUpload} {mark : Nat} {live after : Live MemoryStore}
    (idle : live.gateway.Idle mark) (sound : upload.Sound live.gateway.store.Has)
    (unmoved : live.gateway.Unmoved after.gateway) : upload.Fails mark after :=
  ⟨.inl (unmoved.idle idle).1, MemoryStore.has_of_gains_nothing unmoved.store ▸ sound⟩

namespace Receiver

variable {upload : TreeUpload} {base : Node} {mark : Nat} {receiver : Receiver}
  {live after : Live MemoryStore}

theorem KeepsTree.fails (keeps : receiver.KeepsTree upload base mark live) : upload.Fails mark live := by
  refine ⟨?_, keeps.invariant.sound⟩
  have puts := keeps.puts
  rw [Puts] at puts
  split at puts
  · obtain ⟨_, _, _, _, _, begun, uploading, _⟩ := puts
    exact uploading.droppable begun
  · exact .inl puts.1

/-- Whoever is still asked about the store is answered. -/
theorem KeepsLevels.answered (levels : receiver.KeepsLevels upload base live)
    (calm : base.isFile = false → live.gateway.store.failuresPending = 0) :
    receiver.level.target.isFile = true ∨ live.gateway.store.failuresPending = 0 := by
  rcases levels.invariant.opened with alone | opens
  · have same : receiver.level.target = base := (List.cons.inj alone).1
    rw [same]
    cases file : base.isFile with
    | true => exact .inl rfl
    | false => exact .inr (calm file)
  · exact .inr (calm (opens.elim And.left And.right))

theorem KeepsLevels.of_gains (levels : receiver.KeepsLevels upload base live)
    (gains : Gains live.gateway.store [] after.gateway.store) : receiver.KeepsLevels upload base after :=
  ⟨levels.nested, levels.inside, MemoryStore.has_of_gains_nothing gains ▸ levels.invariant⟩

theorem KeepsTree.of_unmoved (keeps : receiver.KeepsTree upload base mark live)
    (unmoved : live.gateway.Unmoved after.gateway) : receiver.KeepsTree upload base mark after := by
  have same := MemoryStore.has_of_gains_nothing unmoved.store
  refine ⟨keeps.of_gains unmoved.store, ?_⟩
  have puts := keeps.puts
  rw [Puts] at puts ⊢
  split at puts
  · obtain ⟨number, location, properties, bytes, writer, begun, uploading, invariant⟩ := puts
    exact ⟨number, location, properties, bytes, writer, begun, unmoved.uploading uploading, same ▸ invariant⟩
  · exact unmoved.idle puts

theorem quiet_keepsTree {α ε : Type} {part : ExceptT ε Action α} {valid : α → Prop}
    (keeps : receiver.KeepsTree upload base mark live) (attempts : Attempts Effect.Quiet valid part) :
    live.Ends part (fun value after => valid value ∧ receiver.KeepsTree upload base mark after)
      (fun _ after => upload.Fails mark after) :=
  (Live.ends_of_attempts live attempts).mono (fun _ _ ended => ⟨ended.1, keeps.of_unmoved ended.2⟩)
    fun _ _ unmoved => (keeps.of_unmoved unmoved).fails

/-- A line that opens neither a file nor a directory leaves what is open, or less. -/
theorem Turns.keepsTree {granted : String → String → Access → Prop} {kind : LineKind} {text : String}
    {progress : Progress Receiver} (turns : receiver.Turns granted kind text progress) (other : kind ≠ .directory)
    (keeps : receiver.KeepsTree upload base mark live) (idle : live.gateway.Idle mark) :
    progress.KeepsTree upload base mark live := by
  cases turns with
  | times parsed => exact ⟨⟨keeps.nested, keeps.inside, keeps.invariant⟩, idle⟩
  | entered => exact absurd rfl other
  | @left _ level outer inner =>
      obtain ⟨opened, nested⟩ := keeps.nested
      have inside := keeps.inside
      have invariant := keeps.invariant
      rw [nodes, inner] at nested inside invariant
      cases nested with
      | inside below plain located takes =>
          exact ⟨⟨⟨_, below⟩, (List.forall_mem_cons.1 inside).2, invariant.leave⟩, idle⟩
  | closed outermost => exact keeps.invariant.sound
  | warned => exact ⟨⟨keeps.nested, keeps.inside, keeps.invariant⟩, idle⟩

theorem KeepsTree.enter (keeps : receiver.KeepsTree upload base mark live) (idle : live.gateway.Idle mark)
    (calm : base.isFile = false → live.gateway.store.failuresPending = 0) {transfer : Transfer}
    (allowed : upload.recursive = transfer.command.recursive) (header : Wire.Header) :
    live.Ends (receiver.enter transfer header) (fun progress after => progress.KeepsTree upload base mark after)
      (fun _ after => upload.Fails mark after) := by
  obtain ⟨opened, nested⟩ := keeps.nested
  obtain ⟨inside, _⟩ := List.forall_mem_cons.1 keeps.inside
  rw [Receiver.enter]
  refine Live.Ends.refuse (fun _ => keeps.fails) fun recursive => ?_
  rw [Bool.not_eq_true', Bool.not_eq_false, ← allowed] at recursive
  have looked := (Live.ends_directoryTarget inside (keeps.answered calm) header.name).mono
    (fun _ _ found => found) fun _ _ unmoved => (keeps.of_unmoved unmoved).fails
  refine Live.Ends.bind (Live.Ends.adapt looked) ?_
  intro directory reached found
  obtain ⟨named, noFile, isDirectory, rfl, unmoved⟩ := found
  have segment := isSegment_of_isFileName named
  have there := keeps.of_unmoved unmoved
  have entered : Receiver.KeepsTree upload base mark
      ⟨{ target := Node.ofRemote receiver.level.target.user (receiver.level.target.location.childDirectory header.name)
          (live.gateway.described (receiver.level.target.location.childDirectory header.name)).toOption },
        { receiver.level with times := none } :: receiver.outer, .control⟩ reached := by
    refine ⟨⟨⟨_, .inside nested (isPlain_of_isFileName named) rfl ⟨isDirectory, ?_⟩⟩,
      List.forall_mem_cons.2 ⟨⟨rfl, ?_, inside.outside⟩, there.inside⟩, ?_⟩, unmoved.idle idle⟩
    · exact Bool.or_eq_true_iff.2 (.inr (Location.namesDirectory_childDirectory _ _))
    · exact (Location.childDirectory_repository _ _).trans inside.within
    · have free := Gateway.free_of_described (Location.namesDirectory_childDirectory _ _)
        (Node.directory_of_described isDirectory)
      rw [Location.trimmedPath_childDirectory _ segment, Location.childDirectory_repository, ← Location.child_eq,
        ← MemoryStore.has_of_gains_nothing unmoved.store] at free
      exact there.invariant.enter segment (.inr ⟨recursive, noFile⟩) rfl free
  refine Live.Ends.bind (quiet_keepsTree entered (send_quiet _).unlogged) ?_
  exact fun _ last sent => Live.Ends.pure sent.2

section Opening

variable {file : Incoming} {number : Nat} {location : Location} {properties : Properties} {bytes : List UInt8}

/-- The bytes of a file have come: it is put. -/
theorem KeepsLevels.finishFile (levels : receiver.KeepsLevels upload base live)
    (writer : file.writer = .upload number) (begun : mark ≤ number)
    (uploading : live.gateway.Uploading number location properties bytes)
    (invariant : upload.Invariant base receiver.nodes fun place => place = location ∨ live.gateway.store.Has place) :
    live.Ends (receiver.finishFile file) (fun progress after => progress.KeepsTree upload base mark after)
      (fun _ after => upload.Fails mark after) := by
  rw [Receiver.finishFile, writer]
  refine Live.Ends.bind ((Live.ends_finishUpload uploading begun).mono
    (fun _ _ finished => finished) fun _ _ interrupted => ?_) ?_
  · exact ⟨interrupted.1, (levels.of_gains interrupted.2).invariant.sound⟩
  · intro _ reached finished
    obtain ⟨none, next, gains⟩ := finished
    have idle : reached.gateway.Idle mark := ⟨none, Nat.le_of_lt (Nat.lt_of_le_of_lt begun next)⟩
    have stored : Receiver.KeepsTree upload base mark
        { receiver with phase := .lastWord file.node.site .status } reached := by
      refine ⟨⟨levels.nested, levels.inside, ?_⟩, idle⟩
      rw [MemoryStore.has_of_gains_one gains]
      exact invariant
    refine Live.Ends.bind (quiet_keepsTree stored (send_quiet _)) ?_
    exact fun _ last sent => Live.Ends.pure sent.2

theorem KeepsLevels.awaitBody (levels : receiver.KeepsLevels upload base live)
    (writer : file.writer = .upload number) (begun : mark ≤ number)
    (uploading : live.gateway.Uploading number location properties bytes)
    (invariant : upload.Invariant base receiver.nodes fun place => place = location ∨ live.gateway.store.Has place) :
    live.Ends (receiver.awaitBody file) (fun progress after => progress.KeepsTree upload base mark after)
      (fun _ after => upload.Fails mark after) := by
  rw [Receiver.awaitBody]
  refine Live.Ends.ite (fun _ => levels.finishFile writer begun uploading invariant) fun _ => ?_
  refine Live.Ends.pure ⟨⟨levels.nested, levels.inside, levels.invariant⟩, ?_⟩
  exact ⟨number, location, properties, bytes, writer, begun, uploading, invariant⟩

end Opening

theorem KeepsTree.openFile (keeps : receiver.KeepsTree upload base mark live) (idle : live.gateway.Idle mark)
    (roots : upload.Roots base) (calm : base.isFile = false → live.gateway.store.failuresPending = 0)
    (transfer : Transfer) (header : Wire.Header) :
    live.Ends (receiver.openFile transfer header) (fun progress after => progress.KeepsTree upload base mark after)
      (fun _ after => upload.Fails mark after) := by
  obtain ⟨opened, nested⟩ := keeps.nested
  obtain ⟨inside, _⟩ := List.forall_mem_cons.1 keeps.inside
  rw [Receiver.openFile]
  have looked := (Live.ends_fileTarget inside (keeps.answered calm) header.name).mono
    (fun _ _ found => found) fun _ _ unmoved => (keeps.of_unmoved unmoved).fails
  refine Live.Ends.bind (looked.logs fun _ _ fails => fails) ?_
  intro target reached found
  obtain ⟨named, picked, accepted, unmoved⟩ := found
  have there := keeps.of_unmoved unmoved
  have invariant := picked.invariant accepted (isSegment_of_isFileName named) roots nested keeps.invariant
  rw [← MemoryStore.has_of_gains_nothing unmoved.store] at invariant
  have within : target.In upload.target.repository := by
    cases picked with
    | below takes same =>
        subst same
        exact ⟨rfl, (Location.child_repository _ _).trans inside.within, inside.outside⟩
    | here closed same _ => exact same ▸ inside
  let node := (target.withSize header.length).withProperties
    (fileProperties transfer header receiver.level.times)
  have nodeWithin : node.In upload.target.repository := ⟨within.backing, within.within, within.outside⟩
  refine Live.Ends.logs ?_ fun _ _ fails => fails
  rw [beginFile]
  refine Live.Ends.bind ((Live.ends_openWrite nodeWithin (unmoved.idle idle)).mono
    (fun _ _ begun => begun) fun _ _ interrupted => ?_) ?_
  · exact ⟨interrupted.1, (there.of_gains interrupted.2).invariant.sound⟩
  · intro writer opened begun
    obtain ⟨number, writer_eq, begun, uploading, gains⟩ := begun
    have levels := there.of_gains gains
    have invariant := MemoryStore.has_of_gains_nothing gains ▸ invariant
    have sends := (Live.ends_of_attempts opened (send_quiet (Wire.statusBytes Wire.okStatus ""))).mono
      (fun _ _ sent => sent.2) fun _ after unmoved =>
        (⟨(unmoved.uploading uploading).droppable begun, (levels.of_gains unmoved.store).invariant.sound⟩ :
          upload.Fails mark after)
    refine Live.Ends.bind sends ?_
    intro _ after unmoved
    have invariant := MemoryStore.has_of_gains_nothing unmoved.store ▸ invariant
    have waiting : Receiver.KeepsLevels upload base
        { receiver with level := { receiver.level with times := none } } after := by
      have last := levels.of_gains unmoved.store
      exact ⟨last.nested, last.inside, last.invariant⟩
    exact waiting.awaitBody writer_eq begun (unmoved.uploading uploading) invariant

theorem KeepsTree.onLine (keeps : receiver.KeepsTree upload base mark live) (idle : live.gateway.Idle mark)
    (roots : upload.Roots base) (calm : base.isFile = false → live.gateway.store.failuresPending = 0)
    {transfer : Transfer} (allowed : upload.recursive = transfer.command.recursive) (kind : LineKind) (text : String) :
    live.Ends (receiver.onLine transfer kind text) (fun progress after => progress.KeepsTree upload base mark after)
      (fun _ after => upload.Fails mark after) := by
  have other (file : kind ≠ .file) (directory : kind ≠ .directory) :
      live.Ends (receiver.onLine transfer kind text)
        (fun progress after => progress.KeepsTree upload base mark after)
        (fun _ after => upload.Fails mark after) := by
    have turns := (onLine_turns vouches_anyAnswer receiver transfer file text).weaken fun _ => Effect.Courteous.quiet
    refine (Live.ends_of_attempts live turns).mono ?_ fun _ _ unmoved => (keeps.of_unmoved unmoved).fails
    exact fun _ _ ended => ended.1.keepsTree directory (keeps.of_unmoved ended.2) (ended.2.idle idle)
  cases kind with
  | file =>
      change live.Ends (Step.ofExcept (Wire.Header.parse ("C" ++ text)) >>= _) _ _
      cases Wire.Header.parse ("C" ++ text) with
      | error fault => exact Live.Ends.throw keeps.fails
      | ok header => exact keeps.openFile idle roots calm transfer header
  | directory =>
      change live.Ends (Step.ofExcept (Wire.Header.parse ("D" ++ text)) >>= _) _ _
      cases Wire.Header.parse ("D" ++ text) with
      | error fault => exact Live.Ends.throw keeps.fails
      | ok header => exact keeps.enter idle calm allowed header
  | times => exact other nofun nofun
  | leave => exact other nofun nofun
  | warning => exact other nofun nofun
  | error => exact other nofun nofun

/-- One byte of an upload. -/
theorem KeepsTree.push (keeps : receiver.KeepsTree upload base mark live) (roots : upload.Roots base)
    (calm : base.isFile = false → live.gateway.store.failuresPending = 0) {transfer : Transfer}
    (allowed : upload.recursive = transfer.command.recursive) (byte : UInt8) :
    live.Ends (receiver.push transfer byte) (fun progress after => progress.KeepsTree upload base mark after)
      (fun _ after => upload.Fails mark after) := by
  obtain ⟨level, outer, phase⟩ := receiver
  -- Which part of a line or of a file has come makes no difference to the directories that are open.
  have still (next : Reception) : Receiver.KeepsLevels upload base ⟨level, outer, next⟩ live :=
    ⟨keeps.nested, keeps.inside, keeps.invariant⟩
  cases phase with
  | control =>
      have idle : live.gateway.Idle mark := keeps.puts
      rw [Receiver.push]
      cases lineKind? byte with
      | none => exact Live.Ends.throw keeps.fails
      | some kind => exact Live.Ends.pure ⟨still _, idle⟩
  | line kind line =>
      have idle : live.gateway.Idle mark := keeps.puts
      have waiting : Receiver.KeepsTree upload base mark ⟨level, outer, .control⟩ live := ⟨still _, idle⟩
      rw [Receiver.push]
      cases line.push byte with
      | more next => exact Live.Ends.pure ⟨still _, idle⟩
      | done text =>
          cases text with
          | error fault => exact Live.Ends.throw keeps.fails
          | ok text => exact waiting.onLine idle roots calm allowed kind text
  | body file =>
      obtain ⟨number, location, properties, bytes, writer, begun, uploading, invariant⟩ := keeps.puts
      have wrote := (Live.ends_write uploading begun [byte]).mono (fun _ _ written => written)
        fun _ after interrupted =>
          (⟨interrupted.1, (keeps.of_gains interrupted.2).invariant.sound⟩ : upload.Fails mark after)
      rw [Receiver.push, pushBody, writer]
      refine Live.Ends.logs (Live.Ends.bind wrote ?_) fun _ _ fails => fails
      intro writer after written
      obtain ⟨same, uploading, gains⟩ := written
      exact ((still .control).of_gains gains).awaitBody same begun uploading
        (MemoryStore.has_of_gains_nothing gains ▸ invariant)
  | lastWord site state =>
      have idle : live.gateway.Idle mark := keeps.puts
      rw [Receiver.push]
      cases state.push byte with
      | more next => exact Live.Ends.pure ⟨still _, idle⟩
      | done word =>
          cases word with
          | error fault =>
              have refused : live.Ends (transfer.logging site (throw fault : Attempt Unit)) (fun _ _ => False)
                  fun _ after => upload.Fails mark after :=
                Live.Ends.logs (Live.Ends.throw keeps.fails) fun _ _ fails => fails
              exact refused.bind fun _ _ => False.elim
          | ok _ =>
              have waiting : Receiver.KeepsTree upload base mark ⟨level, outer, .control⟩ live :=
                ⟨still _, idle⟩
              have logged : Attempts Effect.Quiet (fun _ => True) (transfer.logSuccess site) :=
                transfer.logSuccess_complies (fun _ => trivial) site
              change live.Ends (transfer.logSuccess site >>= fun _ => Pure.pure _) _ _
              refine Live.Ends.bind (quiet_keepsTree waiting logged) ?_
              exact fun _ last ended => Live.Ends.pure ended.2

/-- An upload that keeps the store sound: what it takes goes into a repository, or into the sink. -/
inductive KeepsSound (upload : TreeUpload) (mark : Nat) (receiver : Receiver) (live : Live MemoryStore) : Prop
  | stores {base : Node} (keeps : receiver.KeepsTree upload base mark live) (roots : upload.Roots base)
    (calm : base.isFile = false → live.gateway.store.failuresPending = 0)
  | drops (inside : receiver.InSink) (idle : live.gateway.Idle mark) (sound : upload.Sound live.gateway.store.Has)

theorem KeepsSound.fails (keeping : receiver.KeepsSound upload mark live)
    (unmoved : live.gateway.Unmoved after.gateway) :
    upload.Fails mark after := by
  cases keeping with
  | stores keeps => exact (keeps.of_unmoved unmoved).fails
  | drops _ idle sound => exact TreeUpload.fails_of_unmoved idle sound unmoved

end Receiver

/-- An upload that goes on, or one that is over. -/
def Session.KeepsSound (upload : TreeUpload) (transfer : Transfer) (mark : Nat) : Session × Live MemoryStore → Prop
  | (.receiving given number receiver, live) => given = transfer ∧ number = mark ∧ receiver.KeepsSound upload mark live
  | (.sending _ _, _) => False
  | (.ended _, live) => upload.Sound live.gateway.store.Has

section Calm

variable {α ε : Type} {live : Live MemoryStore} {part : ExceptT ε Action α} {holds : α → Live MemoryStore → Prop}
  {lost : Option ε → Live MemoryStore → Prop} {asked : Prop}

theorem Live.Ends.calm (ends : live.Ends part holds lost) (calm : asked → live.gateway.store.failuresPending = 0) :
    live.Ends part (fun value after => holds value after ∧ (asked → after.gateway.store.failuresPending = 0)) lost := by
  have still := fun given => Live.reliable_of_run part.run (calm given)
  rw [Live.Ends] at ends ⊢
  rcases ran : live.run part.run with ⟨_ | _ | value, after⟩ <;> simp only [ran] at ends still ⊢
  · exact ends
  · exact ends
  · exact ⟨ends, still⟩

end Calm

namespace Session

variable {upload : TreeUpload} {transfer : Transfer} {mark : Nat} {live : Live MemoryStore}
  {state : Session × Live MemoryStore}

theorem carryOut_keepsSound {α : Type} {step : Step α} {next : α → Session} {holds : α → Live MemoryStore → Prop}
    (ends : live.Ends step holds fun _ after => upload.Fails mark after)
    (goesOn : ∀ value after, holds value after → KeepsSound upload transfer mark (next value, after)) :
    KeepsSound upload transfer mark (carryOut transfer mark step next live) := by
  rcases carryOut_cases transfer next ends with
    ⟨value, after, valid, same⟩ | ⟨result, before, after, sound, gains, _, same⟩
  · rw [same]
    exact goesOn value after valid
  · rw [same]
    change upload.Sound after.gateway.store.Has
    rw [MemoryStore.has_of_gains_nothing gains]
    exact sound

/-- Whatever keeps apart from the store changes nothing there. -/
theorem sound_of_keepsTo {after : Live MemoryStore} (keeps : live.KeepsTo after) (idle : live.gateway.Idle mark)
    (sound : upload.Sound live.gateway.store.Has) :
    after.gateway.Idle mark ∧ upload.Sound after.gateway.store.Has := by
  rw [keeps.gateway]
  exact ⟨idle, sound⟩

theorem feed_keepsSound (allowed : upload.recursive = transfer.command.recursive)
    (keeping : KeepsSound upload transfer mark state) (byte : UInt8) :
    KeepsSound upload transfer mark (feed byte state) := by
  obtain ⟨session, live⟩ := state
  cases session with
  | receiving given number receiver =>
      obtain ⟨rfl, rfl, keeping⟩ := keeping
      rw [feed]
      cases keeping with
      | stores keeps roots calm =>
          apply carryOut_keepsSound ((keeps.push roots calm allowed byte).calm calm)
          intro progress after ended
          cases progress with
          | waiting next => exact ⟨rfl, rfl, .stores ended.1 roots ended.2⟩
          | _ => exact ended.1
      | drops inside idle sound =>
          have pushed := Live.ends_of_apart (receiver.push_keepsApart given inside byte) (.refl live)
          apply carryOut_keepsSound (pushed.mono (fun _ _ ended => ended) fun _ after lost => ?_)
          · intro progress after ended
            obtain ⟨holds, keeps⟩ := ended
            obtain ⟨idle, sound⟩ := sound_of_keepsTo keeps idle sound
            cases progress with
            | waiting next => exact ⟨rfl, rfl, .drops holds idle sound⟩
            | _ => exact sound
          · obtain ⟨idle, sound⟩ := sound_of_keepsTo lost.2 idle sound
            exact ⟨.inl idle.1, sound⟩
  | sending given sender => exact keeping.elim
  | ended result => exact keeping

theorem feedAll_keepsSound (allowed : upload.recursive = transfer.command.recursive)
    (keeping : KeepsSound upload transfer mark state) (input : List UInt8) :
    KeepsSound upload transfer mark (feedAll input state) := by
  induction input generalizing state with
  | nil => exact keeping
  | cons byte rest ih => exact ih (feed_keepsSound allowed keeping byte)

theorem finish_keepsSound (keeping : KeepsSound upload transfer mark state) (ending : Ending) :
    KeepsSound upload transfer mark (finish ending state) := by
  obtain ⟨session, live⟩ := state
  cases session with
  | receiving given number receiver =>
      obtain ⟨rfl, rfl, keeping⟩ := keeping
      have last {part : Step Unit} (attempts : Attempts Effect.Quiet (fun _ => receiver.Rests) part) :
          KeepsSound upload given number (carryOut given number part (fun _ => .ended (.ok ())) live) :=
        carryOut_keepsSound ((Live.ends_of_attempts live attempts).mono (fun _ _ ended => keeping.fails ended.2)
          fun _ _ unmoved => keeping.fails unmoved) fun _ _ fails => fails.2
      cases ending with
      | closed => exact last (receiver.atEnd_complies (fun _ => trivial) given)
      | broken reason => exact last ((breakOff_complies (fun _ => trivial) given _ reason).mono fun _ => False.elim)
      | silent =>
          obtain ⟨droppable, sound⟩ := keeping.fails (Gateway.Unmoved.refl _)
          have settled := (cancel_settles droppable given).2
          change upload.Sound (cancel given number live).2.gateway.store.Has
          rw [MemoryStore.has_of_gains_nothing settled]
          exact sound
  | sending given sender => exact keeping.elim
  | ended result => exact keeping

theorem KeepsSound.sound (keeping : KeepsSound upload transfer mark state) :
    upload.Sound state.2.gateway.store.Has := by
  obtain ⟨session, live⟩ := state
  cases session with
  | receiving given number receiver => exact (keeping.2.2.fails (Gateway.Unmoved.refl _)).2
  | sending given sender => exact keeping.elim
  | ended result => exact keeping

section Beginning

variable {login : Login} {line path : String} {command : Command}

/-- The target of an upload is seen as the store has it. -/
theorem ends_resolve (outside : (Location.resolve path).isSink = false)
    (absorbs : live.gateway.store.failuresPending < max 1 live.gateway.settings.retries) (user : String) :
    live.Ends (Node.resolve user path)
      (fun node after =>
        node = Node.ofRemote user (Location.resolve path) (live.gateway.described (Location.resolve path)).toOption ∧
        (node.isFile = false → after.gateway.store.failuresPending = 0) ∧ live.gateway.Unmoved after.gateway)
      (fun _ after => live.gateway.Unmoved after.gateway) := by
  obtain ⟨answered, calm⟩ := Gateway.metadata_absorbs absorbs (Location.resolve path)
  have unmoved := live.gateway.metadata_unmoved (Location.resolve path)
  rw [Live.Ends, Live.run_resolve outside, answered]
  by_cases empty : (Location.resolve path).isEmpty = true
  · rw [if_pos empty]
    exact Gateway.Unmoved.refl live.gateway
  · rw [if_neg empty]
    refine ⟨rfl, fun noFile => calm ?_, unmoved⟩
    cases named : Gateway.checksumSize? (Location.resolve path).path with
    | none => rfl
    | some size =>
        rw [Node.isFile, Gateway.described, named] at noFile
        cases noFile

/-- Before an upload puts anything, the store is sound. -/
theorem ends_start (target : upload.target = Location.resolve path) (origin : upload.origin = live.gateway.store)
    (idle : live.gateway.Idle mark)
    (absorbs : live.gateway.store.failuresPending < max 1 live.gateway.settings.retries)
    (tree : live.gateway.store.IsTree) :
    live.Ends (Receiver.start transfer path) (fun receiver after => receiver.KeepsSound upload mark after)
      (fun _ after => upload.Fails mark after) := by
  have sound : upload.Sound live.gateway.store.Has :=
    fun upper lower has also higher => absurd higher (tree upper has lower also)
  cases outside : (Location.resolve path).isSink with
  | true =>
      refine (Live.ends_of_apart (Receiver.start_keepsApart transfer outside) (.refl live)).mono ?_ ?_
      · intro receiver after ended
        obtain ⟨idle, sound⟩ := sound_of_keepsTo ended.2 idle sound
        exact .drops ended.1 idle sound
      · intro _ after lost
        obtain ⟨idle, sound⟩ := sound_of_keepsTo lost.2 idle sound
        exact ⟨.inl idle.1, sound⟩
  | false =>
      have fails (after : Live MemoryStore) (unmoved : live.gateway.Unmoved after.gateway) :
          upload.Fails mark after :=
        TreeUpload.fails_of_unmoved idle sound unmoved
      rw [Receiver.start]
      have looked := (ends_resolve outside absorbs transfer.login.user).mono (fun _ _ found => found)
        fun _ after unmoved => fails after unmoved
      refine Live.Ends.bind (Live.Ends.adapt looked) ?_
      intro base reached found
      obtain ⟨same, calm, unmoved⟩ := found
      refine Live.Ends.refuse (fun _ => fails reached unmoved) fun _ => ?_
      have location : base.location = upload.target := (congrArg Node.location same).trans target.symm
      have metadata := congrArg Node.metadata same
      rw [← target] at metadata
      have sees : upload.Sees base := TreeUpload.sees_of_described origin metadata
      have invariant := sees.invariant (origin ▸ tree) location
      rw [origin, ← MemoryStore.has_of_gains_nothing unmoved.store] at invariant
      have inside : base.In upload.target.repository :=
        ⟨congrArg Node.backing same, congrArg Location.repository location, target ▸ ne_of_beq_false outside⟩
      have keeps : Receiver.KeepsTree upload base mark { level := { target := base } } reached :=
        ⟨⟨⟨[], .base⟩, List.forall_mem_singleton.2 inside, invariant⟩, unmoved.idle idle⟩
      have sent := (Receiver.quiet_keepsTree keeps (send_quiet (Wire.statusBytes Wire.okStatus "")).unlogged).calm calm
      refine Live.Ends.bind sent ?_
      exact fun _ last ended => Live.Ends.pure (.stores ended.1.2 ⟨location, sees.vacant⟩ ended.2)

/-- Uploads keep the store a tree, but for what they do not look at. When no call of the store is seen to fail and
nothing else is uploaded, whatever the client sends, a file comes to be above another one only if the gate does not
ask about it, if it is above the target and not the parent that is checked when a file goes to the target itself, or
if the client has made both a file and a directory of a target that was missing. -/
theorem uploads_keep_tree {live : Live MemoryStore} (parsed : Command.parse line = .ok command)
    (sink : command.direction = .sink) (idle : live.gateway.uploads = [])
    (absorbs : live.gateway.store.failuresPending < max 1 live.gateway.settings.retries)
    (tree : live.gateway.store.IsTree) (input : List UInt8) (ending : Ending) :
    let upload : TreeUpload := ⟨Location.resolve (command.paths.headD ""), command.recursive, live.gateway.store⟩
    let store := (run login line input ending live).2.gateway.store
    ∀ upper lower, store.Has upper → store.Has lower → upper.Above lower → upload.Excuses upper lower := by
  intro upload store
  have begun : KeepsSound upload (login.transfer command live.gateway.settings) live.gateway.nextUpload
      (start login line live) := by
    rw [start_sink parsed sink]
    exact carryOut_keepsSound (ends_start rfl rfl ⟨idle, Nat.le_refl _⟩ absorbs tree) fun _ _ keeping =>
      ⟨rfl, rfl, keeping⟩
  have sound := (finish_keepsSound (feedAll_keepsSound rfl begun input) ending).sound
  rwa [finish_eq_run] at sound

end Beginning

/-- While four of five attempts fail, a file is stored in a directory, and then nothing is put below it. -/
theorem uploads_keep_tree_of_directory :
    let store := { MemoryStore.insert {} ⟨"libs", "d/a"⟩ [104, 105] .empty with failuresPending := 4 }
    let live : Live MemoryStore := { gateway := Gateway.new {} store (fun _ _ _ => true) ⟨0, 0⟩ }
    let input := Text.encode "C0644 1 b\ny\x00D0755 0 b\n"
    let upload : TreeUpload := ⟨Location.resolve "libs/d", true, store⟩
    let result := (run ⟨"ann", "::1", .empty⟩ "scp -r -t libs/d" input .closed live).1
    let after := (run ⟨"ann", "::1", .empty⟩ "scp -r -t libs/d" input .closed live).2.gateway.store
    result = .error (.protocol "libs/d/b/: exists and is not a directory") ∧
      after.objects.keys = [⟨"libs", "d/a"⟩, ⟨"libs", "d/b"⟩] ∧
      ∀ upper lower, after.Has upper → after.Has lower → upper.Above lower → upload.Excuses upper lower := by
  intro store live input upload result after
  have parsed : Command.parse "scp -r -t libs/d" = .ok ⟨.sink, true, false, false, false, ["libs/d"]⟩ := by
    decide +kernel
  have absorbs : live.gateway.store.failuresPending < max 1 live.gateway.settings.retries := by decide
  have tree : live.gateway.store.IsTree := by decide +kernel
  exact ⟨by decide +kernel, by decide +kernel, uploads_keep_tree parsed rfl rfl absorbs tree input .closed⟩

/-- What an upload does not look at: a file two levels above the target, or above a target that is named as a
directory or as a checksum, or above a directory that is made of the target; a directory where a file goes that is
named as a checksum; a file that the client has made of the target, where it makes a directory of it too; and a file
that the store has failed to tell of. -/
theorem unseen_files_break_tree :
    let trees (path line input : String) (failuresPending : Nat) :=
      let store := { MemoryStore.insert {} ⟨"libs", path⟩ [104, 105] .empty with failuresPending }
      let live : Live MemoryStore := { gateway := Gateway.new {} store (fun _ _ _ => true) ⟨0, 0⟩ }
      let ended := run ⟨"ann", "::1", .empty⟩ line (Text.encode input) .closed live
      (decide store.IsTree, exitValue ended.1, decide ended.2.gateway.store.IsTree)
    trees "a" "scp -t libs/a/b/c" "C0644 1 c\ny\x00" 0 = (true, 0, false) ∧
      trees "a" "scp -t libs/a/b/" "C0644 1 c\ny\x00" 0 = (true, 0, false) ∧
      trees "a" "scp -t libs/a/b.sha1" "C0644 1 c\ny\x00" 0 = (true, 0, false) ∧
      trees "a" "scp -r -t libs/a/b" "D0755 0 d\nC0644 1 c\ny\x00E\n" 0 = (true, 0, false) ∧
      trees "d/x.sha1/y" "scp -t libs/d/" "C0644 1 x.sha1\ny\x00" 0 = (true, 0, false) ∧
      trees "a" "scp -r -t libs/b" "C0644 1 c\ny\x00D0755 0 d\nC0644 1 c\ny\x00E\n" 0 = (true, 0, false) ∧
      trees "a" "scp -t libs/a/" "C0644 1 c\ny\x00" 5 = (true, 0, false) := by
  decide +kernel

end Session

end ArtifactGate
