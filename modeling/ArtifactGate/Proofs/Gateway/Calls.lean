import ArtifactGate.Proofs.Gateway.Operations

/-!
The calls a gateway makes on its store, and what its client is told. The tasks of uploads go on whenever
something is waited for, so a gateway makes the calls it is asked for and those of the uploads that are in
progress, and no others. The authorizer answers as it does throughout a session.
-/
namespace ArtifactGate

variable {σ : Type} [RemoteStore σ] {permitted : Call → Prop}

namespace Upload

variable {upload : Upload} {store : σ}

theorem storeComplete_reaches (upload : Upload) (allowed : permitted (.put upload.location)) (store : σ) :
    (upload.storeComplete store).1.location = upload.location ∧
      Reaches permitted store (upload.storeComplete store).2 := by
  rw [storeComplete]
  split
  · exact ⟨rfl, .single (.storeBody allowed _ _ _)⟩
  · exact ⟨rfl, .refl⟩

theorem drain_reaches (allowed : permitted (.put upload.location)) (body : ByteQueue) (store : σ) :
    (upload.drain body store).1.location = upload.location ∧
      Reaches permitted store (upload.drain body store).2 :=
  storeComplete_reaches (upload.receive body) allowed store

theorem enter_reaches (allowed : permitted (.put upload.location)) (store : σ) :
    (upload.enter store).1.location = upload.location ∧ Reaches permitted store (upload.enter store).2 := by
  have admitted : Reaches permitted store
      (RemoteStore.admitUpload upload.location upload.properties store).2 :=
    .single (.admitUpload allowed _ _)
  rw [enter]
  split <;> rename_i after answer <;> rw [answer] at admitted
  · exact ⟨rfl, admitted⟩
  · exact ⟨rfl, admitted⟩
  · obtain ⟨location, drained⟩ := drain_reaches allowed .empty after
    exact ⟨location, admitted.trans drained⟩

theorem poll_reaches (allowed : permitted (.put upload.location)) (store : σ) :
    (upload.poll store).1.location = upload.location ∧ Reaches permitted store (upload.poll store).2 := by
  rw [poll]
  cases upload.stage with
  | unstarted =>
      have opened : Reaches permitted store
          (RemoteStore.openUpload upload.location upload.properties store).2 :=
        .single (.openUpload allowed _ _)
      dsimp only
      split <;> rename_i after answer <;> rw [answer] at opened
      · exact ⟨rfl, opened⟩
      · obtain ⟨location, entered⟩ := enter_reaches allowed after
        exact ⟨location, opened.trans entered⟩
  | waiting => exact enter_reaches allowed store
  | reading body => exact drain_reaches allowed body store
  | answered verdict => exact ⟨rfl, .refl⟩

theorem abort_reaches (upload : Upload) (store : σ) : Reaches permitted store (upload.abort store) := by
  rw [abort]
  split
  · exact .single (.dropAdmitted _)
  · exact .refl

end Upload

namespace Gateway

omit [RemoteStore σ] in
/-- The uploads in progress go to places where puts are permitted. -/
def Guarded (permitted : Call → Prop) (gateway : Gateway σ) : Prop :=
  ∀ entry ∈ gateway.uploads, permitted (.put entry.2.location)

omit [RemoteStore σ] in
theorem guarded_of_idle {gateway : Gateway σ} (idle : gateway.uploads = []) : gateway.Guarded permitted := by
  rw [Guarded, idle]
  exact List.forall_mem_nil _

/-- A gateway comes from another by permitted calls, if the uploads that were in progress are permitted. -/
structure Follows (permitted : Call → Prop) (before after : Gateway σ) : Prop where
  store : before.Guarded permitted → Reaches permitted before.store after.store
  guarded : before.Guarded permitted → after.Guarded permitted
  authorizer : after.authorizer = before.authorizer

section Follows

variable {first middle last before after gateway : Gateway σ} {number : Nat} {upload : Upload}

theorem Follows.refl (gateway : Gateway σ) : gateway.Follows permitted gateway :=
  ⟨fun _ => .refl, fun guarded => guarded, rfl⟩

theorem Follows.trans (start : first.Follows permitted middle) (rest : middle.Follows permitted last) :
    first.Follows permitted last where
  store guarded := (start.store guarded).trans (rest.store (start.guarded guarded))
  guarded guarded := rest.guarded (start.guarded guarded)
  authorizer := rest.authorizer.trans start.authorizer

/-- The store, the uploads and the rights are as before. -/
theorem Follows.of_same (store : after.store = before.store) (uploads : after.uploads = before.uploads)
    (authorizer : after.authorizer = before.authorizer) : before.Follows permitted after where
  store _ := store ▸ .refl
  guarded guarded := by rwa [Guarded, uploads]
  authorizer := authorizer

omit [RemoteStore σ] in
theorem Guarded.of_upload? (guarded : gateway.Guarded permitted) (found : gateway.upload? number = some upload) :
    permitted (.put upload.location) := by
  obtain ⟨earlier, later, uploads, _⟩ := List.lookup_eq_some_iff.1 found
  exact guarded (number, upload) (uploads ▸ List.mem_append_right _ List.mem_cons_self)

theorem setUpload_follows (allowed : gateway.Guarded permitted → permitted (.put upload.location))
    (number : Nat) : gateway.Follows permitted (gateway.setUpload number upload) where
  store _ := .refl
  guarded guarded := by
    intro entry member
    obtain ⟨earlier, among, rfl⟩ := List.mem_map.1 member
    split
    · exact allowed guarded
    · exact guarded earlier among
  authorizer := rfl

theorem removeUpload_follows (gateway : Gateway σ) (number : Nat) :
    gateway.Follows permitted (gateway.removeUpload number) where
  store _ := .refl
  guarded guarded entry member := guarded entry (List.mem_filter.1 member).1
  authorizer := rfl

theorem pollEach_reaches {uploads : List (Nat × Upload)}
    (guarded : ∀ entry ∈ uploads, permitted (.put entry.2.location)) (store : σ) :
    (∀ entry ∈ (pollEach uploads store).1, permitted (.put entry.2.location)) ∧
      Reaches permitted store (pollEach uploads store).2.1 := by
  induction uploads generalizing store with
  | nil => exact ⟨List.forall_mem_nil _, .refl⟩
  | cons entry rest ih =>
      obtain ⟨allowed, guarded⟩ := List.forall_mem_cons.1 guarded
      obtain ⟨location, polled⟩ := Upload.poll_reaches allowed store
      obtain ⟨others, reached⟩ := ih guarded (entry.2.poll store).2
      have kept : permitted (.put (entry.2.poll store).1.location) := location.symm ▸ allowed
      exact ⟨List.forall_mem_cons.2 ⟨kept, others⟩, polled.trans reached⟩

/-- Every step of a gateway is made of permitted calls. -/
theorem Works.follows (works : before.Works permitted after) : before.Follows permitted after := by
  cases works with
  | asked clients reaches => exact ⟨fun _ => reaches, fun guarded => guarded, rfl⟩
  | polled =>
      exact ⟨fun guarded => (pollEach_reaches guarded before.store).2,
        fun guarded => (pollEach_reaches guarded before.store).1, rfl⟩
  | edited found edits =>
      exact setUpload_follows (fun guarded => edits.stage.1.symm ▸ guarded.of_upload? found) _
  | letGo number =>
      obtain ⟨freeSlots, leaving, gone⟩ := before.letGo_cases number
      exact gone ▸ .of_same rfl rfl rfl

theorem Steps.follows (steps : before.Steps permitted after) : before.Follows permitted after := by
  cases steps with
  | works works => exact works.follows
  | started allowed free properties capacity =>
      exact ⟨fun _ => .refl,
        fun guarded => List.forall_mem_append.2 ⟨guarded, List.forall_mem_singleton.2 allowed⟩, rfl⟩
  | removed => exact removeUpload_follows before _
  | abandoned number =>
      rw [abandon]
      cases before.upload? number with
      | none => exact .refl before
      | some upload =>
          refine Follows.trans ?_ (removeUpload_follows _ number)
          exact ⟨fun _ => upload.abort_reaches before.store, fun guarded => guarded, rfl⟩

theorem Operates.follows (operates : before.Operates permitted after) : before.Follows permitted after := by
  induction operates with
  | refl => exact .refl before
  | tail _ steps ih => exact ih.trans steps.follows

end Follows

end Gateway

/-- What a client has been told grows by what may be said, or by a part of it when the client takes no more. -/
def Outlet.Hears (said : List UInt8 → Prop) : Outlet → Outlet → Prop :=
  Relation.ReflTransGen fun before after => ∃ bytes, said bytes ∧ after = (before.take bytes).2

/-- The effect makes no call that is not permitted, and tells the client only what may be said. -/
def Effect.Permitted (permitted : Call → Prop) (said : List UInt8 → Prop) : Effect → Prop
  | .content location => permitted (.content location)
  | .beginUpload location _ => permitted (.put location)
  | .send bytes => said bytes
  | _ => True

/-- The answers there are while an authorizer is in force. -/
def Authorizer.Answers (authorizer : Authorizer) : (effect : Effect) → effect.Answer → Prop
  | .authorize repository user access, answer => answer = authorizer repository user access
  | _, _ => True

namespace Live

/-- The gateway comes from another by permitted calls, and the client has been told what may be said. -/
structure Follows (permitted : Call → Prop) (said : List UInt8 → Prop) (before after : Live σ) : Prop where
  gateway : before.gateway.Follows permitted after.gateway
  outlet : before.outlet.Hears said after.outlet

variable {said : List UInt8 → Prop}

section Follows

variable {first middle last before after : Live σ}

theorem Follows.refl (live : Live σ) : live.Follows permitted said live :=
  ⟨.refl _, .refl⟩

theorem Follows.trans (start : first.Follows permitted said middle) (rest : middle.Follows permitted said last) :
    first.Follows permitted said last :=
  ⟨start.gateway.trans rest.gateway, start.outlet.trans rest.outlet⟩

theorem Follows.of_gateway {gateway : Gateway σ} (follows : before.gateway.Follows permitted gateway) :
    before.Follows permitted said { before with gateway } :=
  ⟨follows, .refl⟩

end Follows

/-- Whatever a session asks for, but for a record in the log, is done in steps of the gateway. -/
theorem perform_operates {effect : Effect} (allowed : effect.Permitted permitted said) (live : Live σ) :
    (∃ entry, effect = .log entry) ∨ live.gateway.Operates permitted (live.perform effect).2.gateway := by
  cases effect with
  | metadata location => exact .inr (live.gateway.metadata_works location).operates
  | content location => exact .inr (live.gateway.content_works allowed).operates
  | beginUpload location properties =>
      exact .inr ((live.gateway.beginUpload_begins location properties _).operates allowed)
  | writeUpload upload chunk =>
      have written : live.gateway.Operates permitted (live.gateway.write upload chunk).2 :=
        (live.gateway.write_writes upload chunk).works.operates
      rw [perform]
      rcases result : live.gateway.write upload chunk with ⟨_ | _ | _, after⟩ <;> rw [result] at written <;>
        exact .inr written
  | finishUpload upload => exact .inr (live.gateway.finish_finishes upload).operates
  | log entry => exact .inl ⟨entry, rfl⟩
  | _ => exact .inr .refl

theorem perform_follows {effect : Effect} (allowed : effect.Permitted permitted said) (live : Live σ) :
    live.Follows permitted said (live.perform effect).2 := by
  refine ⟨?_, ?_⟩
  · rcases perform_operates allowed live with ⟨entry, rfl⟩ | operates
    · exact .of_same rfl rfl rfl
    · exact operates.follows
  · cases effect with
    | send bytes => exact .single ⟨bytes, allowed, rfl⟩
    | writeUpload upload chunk =>
        rw [perform]
        rcases live.gateway.write upload chunk with ⟨_ | _ | _, after⟩ <;> exact .refl
    | _ => exact .refl

theorem perform_answers (effect : Effect) (live : Live σ) (answer : effect.Answer)
    (performed : (live.perform effect).1 = some answer) :
    live.gateway.authorizer.Answers effect answer := by
  cases effect with
  | authorize repository user access => exact (Option.some.inj performed).symm
  | _ => trivial

/-- A part of a session that complies while the authorizer is in force makes permitted calls only, and says
only what may be said. -/
theorem follows_of_complies {α ε : Type} {part : ExceptT ε Action α} {allowed : Effect → Prop} {valid : α → Prop}
    {live : Live σ} (complies : Complies live.gateway.authorizer.Answers allowed valid part)
    (permits : ∀ effect, allowed effect → effect.Permitted permitted said) :
    live.Ends part (fun value after => valid value ∧ live.Follows permitted said after)
      (fun _ after => live.Follows permitted said after) := by
  refine ends_of_complies complies (fun after => live.Follows permitted said after) ?_ (.refl live)
  intro effect asks world follows
  refine ⟨follows.trans (perform_follows (permits effect asks) world), fun answer performed => ?_⟩
  have answers := perform_answers effect world answer performed
  rwa [follows.gateway.authorizer] at answers

end Live

end ArtifactGate
