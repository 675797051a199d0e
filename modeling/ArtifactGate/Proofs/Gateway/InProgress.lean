import ArtifactGate.Proofs.Gateway.Calls

/-!
Which uploads are in progress, whatever the store does. An upload has a number from when it is begun until it
is finished or given up; nothing else changes the numbers.
-/
namespace ArtifactGate

variable {σ : Type}

namespace Gateway

/-- The numbers of the uploads in progress. -/
def numbers (gateway : Gateway σ) : List Nat :=
  gateway.uploads.map Prod.fst

/-- The same uploads are in progress, and the next one has the same number. -/
structure Undisturbed (before after : Gateway σ) : Prop where
  numbers : after.numbers = before.numbers
  nextUpload : after.nextUpload = before.nextUpload

/-- Nothing is in progress, and what is begun next has a number from `mark` on. -/
def Idle (gateway : Gateway σ) (mark : Nat) : Prop :=
  gateway.uploads = [] ∧ mark ≤ gateway.nextUpload

/-- At most one upload is in progress, and its number is `mark` or after it. -/
def AtMostSince (mark : Nat) (gateway : Gateway σ) : Prop :=
  gateway.uploads = [] ∨ ∃ number, mark ≤ number ∧ gateway.numbers = [number]

section Undisturbed

variable {first middle last before after gateway : Gateway σ} {number mark : Nat} {upload : Upload}

theorem Undisturbed.refl (gateway : Gateway σ) : gateway.Undisturbed gateway :=
  ⟨rfl, rfl⟩

theorem Undisturbed.trans (start : first.Undisturbed middle) (rest : middle.Undisturbed last) :
    first.Undisturbed last :=
  ⟨rest.numbers.trans start.numbers, rest.nextUpload.trans start.nextUpload⟩

theorem numbers_eq_nil : gateway.numbers = [] ↔ gateway.uploads = [] :=
  List.map_eq_nil_iff

theorem Undisturbed.uploads (undisturbed : before.Undisturbed after) (none : before.uploads = []) :
    after.uploads = [] :=
  numbers_eq_nil.1 (undisturbed.numbers.trans (numbers_eq_nil.2 none))

theorem Undisturbed.idle (undisturbed : before.Undisturbed after) (idle : before.Idle mark) : after.Idle mark :=
  ⟨undisturbed.uploads idle.1, undisturbed.nextUpload ▸ idle.2⟩

theorem AtMostSince.of_undisturbed (atMost : before.AtMostSince mark) (undisturbed : before.Undisturbed after) :
    after.AtMostSince mark := by
  rcases atMost with none | ⟨number, begun, single⟩
  · exact .inl (undisturbed.uploads none)
  · exact .inr ⟨number, begun, undisturbed.numbers.trans single⟩

theorem single_of_numbers (single : gateway.numbers = [number]) :
    ∃ upload, gateway.uploads = [(number, upload)] := by
  obtain ⟨⟨given, upload⟩, uploads, rfl⟩ := List.map_eq_singleton_iff.1 single
  exact ⟨upload, uploads⟩

theorem setUpload_undisturbed (gateway : Gateway σ) (number : Nat) (upload : Upload) :
    gateway.Undisturbed (gateway.setUpload number upload) := by
  refine ⟨?_, rfl⟩
  rw [numbers, setUpload, List.map_map, numbers]
  refine List.map_congr_left fun entry _ => ?_
  rw [Function.comp_apply]
  split
  · exact Eq.symm ‹_›
  · rfl

theorem pollAll_idle [RemoteStore σ] (idle : gateway.uploads = []) : gateway.pollAll = gateway := by
  cases gateway
  cases idle
  exact congrArg (Gateway.mk _ _ _ _ _ _ _ _ _ · _) (List.append_nil _)

theorem settle_idle [RemoteStore σ] (idle : gateway.uploads = []) : gateway.settle = gateway := by
  rw [settle, idle]
  exact pollAll_idle idle

theorem slotAwaited_idle [RemoteStore σ] (idle : gateway.uploads = []) :
    ∃ freeSlots leaving, gateway.slotAwaited = { gateway with freeSlots, leaving } := by
  have settled (freeSlots : Nat) : ({ gateway with freeSlots, leaving := [] } : Gateway σ).settle =
      { gateway with freeSlots, leaving := [] } := settle_idle (by exact idle)
  rw [slotAwaited]
  split
  · simp only [awaitSlot, letAllGo_eq, settled]
    split <;> exact ⟨_, _, rfl⟩
  · exact ⟨_, _, rfl⟩

/-- Where nothing is in progress, what holds the slots only has to let go of them. -/
theorem takeSlot_idle [RemoteStore σ] (idle : gateway.uploads = []) (accepts : gateway.acceptsUploads = true)
    (some : 0 < gateway.freeSlots + gateway.leaving.length) :
    ∃ freeSlots leaving, gateway.takeSlot = (.some (.ok ()), { gateway with freeSlots, leaving }) := by
  have takes := gateway.takeSlot_takes
  revert takes
  generalize gateway.takeSlot = result
  intro takes
  have waited : gateway.slotAwaited.freeSlots ≠ 0 := by
    rw [slotAwaited]
    split
    · have all : ({ gateway with leaving := [], freeSlots := gateway.freeSlots + gateway.leaving.length } :
          Gateway σ).freeSlots ≠ 0 := Nat.ne_of_gt some
      simp only [awaitSlot, letAllGo_eq, if_neg all]
      exact all
    · assumption
  obtain ⟨freeSlots, leaving, same⟩ := slotAwaited_idle idle
  cases takes with
  | refused shut => cases accepts.symm.trans shut
  | taken _ free =>
      rw [same]
      exact ⟨_, _, rfl⟩
  | waits _ full => exact absurd full waited

theorem upload?_single (single : gateway.uploads = [(number, upload)]) :
    gateway.upload? number = some upload := by
  rw [upload?, single, List.lookup_cons_self]

theorem setUpload_single (single : gateway.uploads = [(number, upload)]) (replacement : Upload) :
    gateway.setUpload number replacement = { gateway with uploads := [(number, replacement)] } := by
  simp only [setUpload, single, List.map_cons, List.map_nil, if_true]

theorem removeUpload_single (single : gateway.uploads = [(number, upload)]) :
    gateway.removeUpload number = { gateway with uploads := [] } := by
  simp [removeUpload, single]

theorem uploads_removeUpload (single : gateway.numbers = [number]) : (gateway.removeUpload number).uploads = [] := by
  obtain ⟨upload, uploads⟩ := single_of_numbers single
  rw [removeUpload_single uploads]

end Undisturbed

variable [RemoteStore σ] {gateway before after : Gateway σ} {number mark : Nat} {permitted : Call → Prop}

theorem pollEach_numbers (uploads : List (Nat × Upload)) (store : σ) :
    (pollEach uploads store).1.map Prod.fst = uploads.map Prod.fst := by
  induction uploads generalizing store with
  | nil => rfl
  | cons entry rest ih => exact congrArg (entry.1 :: ·) (ih _)

/-- No upload begins or comes to its end by what the tasks and the writers do. -/
theorem Works.undisturbed (works : before.Works permitted after) : before.Undisturbed after := by
  cases works with
  | asked => exact ⟨rfl, rfl⟩
  | polled => exact ⟨pollEach_numbers _ _, rfl⟩
  | edited => exact setUpload_undisturbed before _ _
  | letGo number =>
      obtain ⟨freeSlots, leaving, gone⟩ := before.letGo_cases number
      exact gone ▸ ⟨rfl, rfl⟩

theorem WorksOn.undisturbed (works : before.WorksOn permitted after) : before.Undisturbed after := by
  induction works with
  | refl => exact .refl before
  | tail _ works ih => exact ih.trans works.undisturbed

theorem settle_undisturbed (gateway : Gateway σ) : gateway.Undisturbed gateway.settle := by
  have works : gateway.WorksOn (fun _ => True) gateway.settle := gateway.settle_works
  exact works.undisturbed

theorem slotAwaited_undisturbed (gateway : Gateway σ) : gateway.Undisturbed gateway.slotAwaited := by
  have works : gateway.WorksOn (fun _ => True) gateway.slotAwaited := gateway.slotAwaited_works
  exact works.undisturbed

theorem write_undisturbed (number : Nat) (chunk : List UInt8) (gateway : Gateway σ) :
    gateway.Undisturbed (gateway.write number chunk).2 := by
  have works : gateway.WorksOn (fun _ => True) (gateway.write number chunk).2 :=
    (gateway.write_writes number chunk).works
  exact works.undisturbed

theorem beginUpload_numbers (location : Location) (properties : Properties) (capacity : Nat)
    (gateway : Gateway σ) :
    match gateway.beginUpload location properties capacity with
    | (some (.ok number), after) => number = gateway.nextUpload ∧
        after.numbers = gateway.numbers ++ [number] ∧ after.nextUpload = gateway.nextUpload + 1
    | (_, after) => gateway.Undisturbed after := by
  have waited := gateway.slotAwaited_undisturbed
  have begins := gateway.beginUpload_begins location properties capacity
  revert begins
  generalize gateway.beginUpload location properties capacity = result
  intro begins
  cases begins with
  | refused shut => exact .refl gateway
  | begun accepts free =>
      refine ⟨waited.nextUpload, ?_, congrArg (· + 1) waited.nextUpload⟩
      rw [← waited.numbers]
      exact List.map_append
  | waits accepts full => exact waited

/-- An upload that is finished is in progress no more, unless the store does not answer. -/
theorem finish_numbers (single : gateway.numbers = [number]) :
    match gateway.finish number with
    | (some _, after) => after.uploads = [] ∧ after.nextUpload = gateway.nextUpload
    | (none, after) => gateway.Undisturbed after := by
  obtain ⟨upload, uploads⟩ := single_of_numbers single
  have present := upload?_single uploads
  have ended := (setUpload_undisturbed gateway number upload.endBody).trans (settle_undisturbed _)
  have finishes := gateway.finish_finishes number
  revert finishes
  generalize gateway.finish number = result
  intro finishes
  cases finishes with
  | unknown missing => cases missing.symm.trans present
  | broken found broken => exact ⟨uploads_removeUpload single, rfl⟩
  | told found whole left told =>
      cases present.symm.trans found
      exact ⟨uploads_removeUpload (ended.numbers.trans single), ended.nextUpload⟩
  | waits found whole left untold =>
      cases present.symm.trans found
      exact ended

theorem abandonSince_single {upload : Upload} (single : gateway.uploads = [(number, upload)])
    (begun : mark ≤ number) :
    gateway.abandonSince mark =
      { gateway with
        uploads := []
        store := upload.abort gateway.store
        leaving := if upload.isAnswered then gateway.leaving else gateway.leaving ++ [number] } := by
  have only : (gateway.uploads.filter fun entry => mark ≤ entry.1) = [(number, upload)] := by
    simp only [single, List.filter_cons, begun, decide_true, if_true, List.filter_nil]
  rw [abandonSince, only, List.foldl_cons, List.foldl_nil, abandon, upload?_single single]
  dsimp only
  rw [removeUpload_single (by exact single)]

theorem abandonSince_numbers (atMost : gateway.AtMostSince mark) : (gateway.abandonSince mark).uploads = [] := by
  rcases atMost with none | ⟨number, begun, single⟩
  · rw [abandonSince, none]
    exact none
  · obtain ⟨upload, uploads⟩ := single_of_numbers single
    rw [abandonSince_single uploads begun]

end Gateway

namespace Live

variable [RemoteStore σ]

theorem perform_undisturbed {effect : Effect} (quiet : effect.Quiet) (live : Live σ) :
    live.gateway.Undisturbed (live.perform effect).2.gateway := by
  cases effect with
  | metadata location =>
      have works : live.gateway.WorksOn (fun _ => True) (live.gateway.metadata location).2 :=
        live.gateway.metadata_works location
      exact works.undisturbed
  | content location =>
      have works : live.gateway.WorksOn (fun _ => True) (live.gateway.content location).2 :=
        live.gateway.content_works trivial
      exact works.undisturbed
  | beginUpload location properties => exact quiet.elim
  | writeUpload upload chunk => exact quiet.elim
  | finishUpload upload => exact quiet.elim
  | _ => exact ⟨rfl, rfl⟩

/-- A part of a session that asks for no upload leaves those that are in progress, while the authorizer is in
force. -/
theorem undisturbed_of_complies {α ε : Type} {part : ExceptT ε Action α} {allowed : Effect → Prop} {valid : α → Prop}
    {live : Live σ} (complies : Complies live.gateway.authorizer.Answers allowed valid part)
    (quiet : ∀ effect, allowed effect → effect.Quiet) :
    live.Ends part (fun value after => valid value ∧ live.gateway.Undisturbed after.gateway)
      (fun _ after => live.gateway.Undisturbed after.gateway) := by
  have same (effect : Effect) (world : Live σ) :
      (world.perform effect).2.gateway.authorizer = world.gateway.authorizer := by
    have permits : effect.Permitted (fun _ => True) fun _ => True := by
      cases effect <;> trivial
    exact (perform_follows permits world).gateway.authorizer
  refine (ends_of_complies complies (fun after => after.gateway.authorizer = live.gateway.authorizer ∧
    live.gateway.Undisturbed after.gateway) ?_ ⟨rfl, .refl _⟩).mono (fun _ _ ended => ⟨ended.1, ended.2.2⟩)
    fun _ _ lost => lost.2
  rintro effect asks world ⟨unchanged, undisturbed⟩
  have stays := perform_undisturbed (quiet effect asks) world
  refine ⟨⟨(same effect world).trans unchanged, undisturbed.trans stays⟩, ?_⟩
  intro answer performed
  exact unchanged ▸ perform_answers effect world answer performed

theorem undisturbed_of_attempts {α ε : Type} {part : ExceptT ε Action α} {valid : α → Prop} (live : Live σ)
    (attempts : Attempts Effect.Quiet valid part) :
    live.Ends part (fun value after => valid value ∧ live.gateway.Undisturbed after.gateway)
      (fun _ after => live.gateway.Undisturbed after.gateway) :=
  undisturbed_of_complies attempts.of_attempts fun _ quiet => quiet

end Live

end ArtifactGate
