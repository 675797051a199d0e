import ArtifactGate.Proofs.Session.Steps

/-!
Where an upload is begun. The header line of a file has just ended; since the byte that ended it the session has
only inquired, and where the upload is refused the session fails with that fault, at the file.
-/
namespace ArtifactGate

variable {σ : Type} [RemoteStore σ] {α β ε : Type}

/-- The effect begins no upload. -/
def Effect.BeginsNone : Effect → Prop
  | .beginUpload _ _ => False
  | _ => True

instance : DecidablePred Effect.BeginsNone
  | .beginUpload _ _ => isFalse id
  | .authorize _ _ _ | .metadata _ | .content _ | .writeUpload _ _ | .finishUpload _ | .send _ | .log _ | .now
  | .listingDepth | .diverge => isTrue trivial

namespace Live

variable {live middle world : Live σ} {location : Location} {properties : Properties}

/-- Nothing has moved but the store, by what was asked of it. -/
def Inquired (before after : Live σ) : Prop :=
  ∃ store clients, after = { before with gateway := { before.gateway with store, clients } }

omit [RemoteStore σ] in
theorem Inquired.refl (live : Live σ) : live.Inquired live :=
  ⟨_, _, rfl⟩

omit [RemoteStore σ] in
theorem Inquired.trans {first last : Live σ} (start : first.Inquired middle) (rest : middle.Inquired last) :
    first.Inquired last := by
  obtain ⟨_, _, rfl⟩ := start
  obtain ⟨store, clients, rfl⟩ := rest
  exact ⟨store, clients, rfl⟩

theorem perform_inquired {repository : String} {effect : Effect} (inquires : effect.Inquires repository)
    (live : Live σ) :
    live.Inquired (live.perform effect).2 := by
  cases effect with
  | metadata location =>
      rw [perform]
      simp only [Gateway.metadata]
      split <;> exact ⟨_, _, rfl⟩
  | authorize _ _ _ | now | listingDepth | diverge => exact .refl live
  | _ => exact inquires.elim

theorem ends_inquired {part : ExceptT ε Action α} {valid : α → Prop}
    {repository : String} (attempts : Attempts (Effect.Inquires repository) valid part) (live : Live σ) :
    live.Ends part (fun value after => valid value ∧ live.Inquired after) fun _ after => live.Inquired after :=
  ends_of_complies attempts (fun after => live.Inquired after)
    (fun _ asks world inquired => ⟨inquired.trans (perform_inquired asks world), fun _ _ => trivial⟩) (.refl live)

/-- An attempt comes to where it asks to begin an upload by inquiring only, and if it is refused there it fails. -/
structure Begins (part : Attempt α) (live world : Live σ) (location : Location) (properties : Properties) :
    Prop where
  inquired : live.Inquired world
  refused : ∀ fault after, world.perform (.beginUpload location properties) = (some (.error fault), after) →
    live.run part.run = (some (.error fault), after)

/-- The same of a step of a session, which logs the fault at a site if it is refused. -/
structure BeginsAt (site : Site) (transfer : Transfer) (step : Step α) (live world : Live σ) (location : Location)
    (properties : Properties) : Prop where
  inquired : live.Inquired world
  refused : ∀ fault after, world.perform (.beginUpload location properties) = (some (.error fault), after) →
    live.run step.run = (some (.error ⟨fault, true⟩), after.withEntry (transfer.failureRecord site fault))

namespace Begins

variable {part : Attempt α} {next : α → Attempt β} {valid : α → Prop}

theorem request {place : Location} {given : Properties}
    (member : (Effect.beginUpload location properties, world) ∈
      live.asked (ExceptT.mk (Action.request (.beginUpload place given)) : Attempt Nat)) :
    Begins (ExceptT.mk (Action.request (.beginUpload place given)) : Attempt Nat) live world location
      properties := by
  have only : live.asked (ExceptT.mk (Action.request (.beginUpload place given)) : Attempt Nat) =
      [(.beginUpload place given, live)] := by
    rw [asked, ExceptT.run_mk, Action.request, Action.asked]
    rcases live.perform (.beginUpload place given) with ⟨_ | answer, after⟩ <;> rfl
  rw [only] at member
  obtain ⟨same, rfl⟩ := Prod.mk.inj (List.mem_singleton.1 member)
  cases same
  refine ⟨.refl world, fun fault after performed => ?_⟩
  rw [ExceptT.run_mk, run_request, performed]

/-- What comes before the beginning inquires only. -/
theorem behind {repository : String} (inquires : Attempts (Effect.Inquires repository) valid part)
    (member : (Effect.beginUpload location properties, world) ∈ live.asked (part >>= next))
    (rest : ∀ value reached, valid value →
      (Effect.beginUpload location properties, world) ∈ reached.asked (next value) →
        Begins (next value) reached world location properties) :
    Begins (part >>= next) live world location properties := by
  have valued := ends_inquired inquires live
  rw [asked_bind] at member
  rcases List.mem_append.1 member with member | member
  · exact (allowed_of_asked inquires member).elim
  · rw [Ends] at valued
    rcases ran : live.run part.run with ⟨_ | failure | value, reached⟩ <;> simp only [ran] at member valued
    · cases member
    · cases member
    · obtain ⟨inquired, refused⟩ := rest value reached valued.1 member
      refine ⟨valued.2.trans inquired, fun fault after performed => ?_⟩
      rw [run_attempt_bind next ran]
      exact refused fault after performed

/-- What comes after it begins nothing. -/
theorem before (begins : (Effect.beginUpload location properties, world) ∈ live.asked part →
      Begins part live world location properties)
    (after : ∀ value, Attempts Effect.BeginsNone (fun _ => True) (next value))
    (member : (Effect.beginUpload location properties, world) ∈ live.asked (part >>= next)) :
    Begins (part >>= next) live world location properties := by
  rw [asked_bind] at member
  rcases List.mem_append.1 member with member | member
  · obtain ⟨inquired, refused⟩ := begins member
    refine ⟨inquired, fun fault after performed => ?_⟩
    rw [ExceptT.run_bind, run_bind, refused fault after performed]
    exact run_pure _ after
  · rcases ran : live.run part.run with ⟨_ | failure | value, reached⟩ <;> simp only [ran] at member
    · cases member
    · cases member
    · exact (allowed_of_asked (after value) member).elim

/-- What is refused before it begins nothing. -/
theorem refuse {condition : Prop} [Decidable condition] {failure : Fault} {next : β → Attempt α}
    (member : (Effect.beginUpload location properties, world) ∈
      live.asked (if condition then (MonadExcept.throw failure : Attempt β) >>= next else part))
    (go : (Effect.beginUpload location properties, world) ∈ live.asked part →
      Begins part live world location properties) :
    Begins (if condition then (MonadExcept.throw failure : Attempt β) >>= next else part) live world
      location properties := by
  split at member
  · cases member
  · rw [if_neg ‹_›]
    exact go member

end Begins

namespace BeginsAt

variable {site : Site} {transfer : Transfer} {attempt : Attempt α} {next : α → Step β} {valid : α → Prop}

theorem logging (begins : (Effect.beginUpload location properties, world) ∈ live.asked attempt →
      Begins attempt live world location properties)
    (member : (Effect.beginUpload location properties, world) ∈ live.asked (transfer.logging site attempt)) :
    BeginsAt site transfer (transfer.logging site attempt) live world location properties := by
  rcases mem_asked_logging member with member | ⟨_, logs, _⟩
  · obtain ⟨inquired, refused⟩ := begins member
    refine ⟨inquired, fun fault after performed => ?_⟩
    rw [run_logging, refused fault after performed]
  · cases logs

theorem behind {repository : String} {first : Site} (inquires : Attempts (Effect.Inquires repository) valid attempt)
    (member : (Effect.beginUpload location properties, world) ∈ live.asked (transfer.logging first attempt >>= next))
    (rest : ∀ value reached, valid value →
      (Effect.beginUpload location properties, world) ∈ reached.asked (next value) →
        BeginsAt site transfer (next value) reached world location properties) :
    BeginsAt site transfer (transfer.logging first attempt >>= next) live world location properties := by
  have valued := ends_inquired inquires live
  rw [asked_bind, run_logging] at member
  rcases List.mem_append.1 member with member | member
  · rcases mem_asked_logging member with member | ⟨_, logs, _⟩
    · exact (allowed_of_asked inquires member).elim
    · cases logs
  · rw [Ends] at valued
    rcases ran : live.run attempt.run with ⟨_ | failure | value, reached⟩ <;> simp only [ran] at member valued
    · cases member
    · cases member
    · obtain ⟨inquired, refused⟩ := rest value reached valued.1 member
      refine ⟨valued.2.trans inquired, fun fault after performed => ?_⟩
      rw [run_attempt_bind next (run_logging_of_ok ran)]
      exact refused fault after performed

end BeginsAt

end Live

variable {live world : Live σ} {location : Location} {properties : Properties}

theorem Node.openWrite_begins {node : Node}
    (member : (Effect.beginUpload location properties, world) ∈ live.asked (node.openWrite 0)) :
    location = node.location ∧ Live.Begins (node.openWrite 0) live world location properties := by
  have placed : location = node.location := by
    have asks : Attempts (fun effect => ∀ place given, effect = .beginUpload place given → place = node.location)
        (fun _ => True) (node.openWrite 0) := by
      apply node.openWrite_complies vouches_anyAnswer
      · rintro effect inquires place given rfl
        exact inquires.elim
      · rintro _ _ place given same
        cases same
        rfl
    exact Live.allowed_of_asked asks member _ _ rfl
  refine ⟨placed, ?_⟩
  subst placed
  rw [openWrite] at member ⊢
  have checking : Attempts (Effect.Inquires node.location.repository) (fun _ => True)
      (liftM node.isWritable : Attempt Bool) :=
    (Complies.lift (allows_inquires vouches_anyAnswer node .write)).mono fun _ _ => trivial
  refine Live.Begins.behind checking member fun allowed reached _ member => ?_
  refine Live.Begins.refuse member fun member => ?_
  refine Live.Begins.refuse member fun member => ?_
  split at member
  · cases member
  · rw [if_neg ‹_›]
    exact Live.Begins.before Live.Begins.request (fun number => Complies.pure trivial) member

namespace Receiver

theorem awaitBody_beginsNone (receiver : Receiver) (file : Incoming) :
    Attempts Effect.BeginsNone (fun _ => True) (receiver.awaitBody file) := by
  rw [awaitBody]
  split
  · refine Complies.bind (file.writer.finish_complies fun _ => trivial) fun _ _ => ?_
    exact Complies.bind (sendOk_complies trivial) fun _ _ => Complies.pure trivial
  · exact Complies.pure trivial

theorem beginFile_begins {receiver : Receiver} {node : Node} {length : Nat}
    (member : (Effect.beginUpload location properties, world) ∈ live.asked (receiver.beginFile node length)) :
    location = node.location ∧ Live.Begins (receiver.beginFile node length) live world location properties := by
  have answers (writer : Writer) : Attempts Effect.BeginsNone (fun _ => True)
      (do sendOk; receiver.awaitBody { node, length, writer, remaining := length }) :=
    Complies.bind (sendOk_complies trivial) fun _ _ => awaitBody_beginsNone _ _
  rw [beginFile] at member ⊢
  have placed : location = node.location := by
    rw [Live.asked_bind] at member
    rcases List.mem_append.1 member with member | member
    · exact (Node.openWrite_begins member).1
    · rcases ran : live.run (node.openWrite 0).run with ⟨_ | failure | writer, reached⟩ <;>
        simp only [ran] at member
      · cases member
      · cases member
      · exact (Live.allowed_of_asked (answers writer) member).elim
  exact ⟨placed, Live.Begins.before (fun member => (Node.openWrite_begins member).2) answers member⟩

theorem openFile_begins {transfer : Transfer} {receiver : Receiver} {header : Wire.Header}
    (member : (Effect.beginUpload location properties, world) ∈ live.asked (receiver.openFile transfer header)) :
    Live.BeginsAt ⟨location, header.length⟩ transfer (receiver.openFile transfer header) live world location
      properties := by
  rw [openFile] at member ⊢
  have choosing := fileTarget_inquires vouches_anyAnswer receiver.level.target header.name
  refine Live.BeginsAt.behind choosing member fun target reached _ member => ?_
  rcases Live.mem_asked_logging member with begun | ⟨_, logs, _⟩
  · obtain ⟨rfl, _⟩ := beginFile_begins begun
    exact .logging (fun member => (beginFile_begins member).2) member
  · cases logs

/-- A byte makes a receiver begin an upload only if it ends the header line of a file. -/
theorem push_begins {transfer : Transfer} {receiver : Receiver} {byte : UInt8}
    (member : (Effect.beginUpload location properties, world) ∈ live.asked (receiver.push transfer byte)) :
    ∃ line text header, receiver.phase = .line .file line ∧ line.push byte = .done (.ok text) ∧
      Wire.Header.parse ("C" ++ text) = .ok header ∧
      Live.BeginsAt ⟨location, header.length⟩ transfer (receiver.push transfer byte) live world location
        properties := by
  obtain ⟨line, text, header, target, phase, done, parsed, _⟩ :=
    Live.allowed_of_asked (receiver.push_steps vouches_anyAnswer transfer byte) member
  refine ⟨line, text, header, phase, done, parsed, ?_⟩
  obtain ⟨level, outer, given⟩ := receiver
  subst phase
  rw [push] at member ⊢
  rw [done] at member ⊢
  simp only [Step.ofExcept, pure_bind, onLine, parsed] at member ⊢
  exact openFile_begins member

end Receiver

end ArtifactGate
