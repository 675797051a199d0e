import ArtifactGate.Proofs.Gateway.Uploads

/-!
The slots of a gateway. An upload holds one from when it is begun until its task lets go of it, which it does
when the store has answered the upload or the upload has been given up. So the slots that are free and those that
are held are always as many as there are slots.
-/
namespace ArtifactGate

variable {σ : Type}

namespace Upload

/-- Only an upload that the store has answered breaks its writer off. -/
def Sound (upload : Upload) : Prop :=
  upload.writer = .broken → upload.isAnswered = true

variable {upload after : Upload}

theorem sound_of_answered (answered : upload.isAnswered = true) : upload.Sound :=
  fun _ => answered

theorem isAnswered_of_stage (same : after.stage = upload.stage) : after.isAnswered = upload.isAnswered := by
  rw [isAnswered, verdict?, same, isAnswered, verdict?]

theorem Edits.sound (sound : upload.Sound) (edits : upload.Edits after) : after.Sound := by
  have same := isAnswered_of_stage edits.stage.2
  cases edits with
  | @offered byte after offered =>
      cases answer : upload.offer byte with
      | taken next =>
          rw [answer] at offered
          cases offered
          rw [(offer_taken answer).2.2]
          exact sound
      | full =>
          rw [answer] at offered
          cases offered
      | refused fault next =>
          rw [answer] at offered
          cases offered
          obtain ⟨verdict, told, _, rfl⟩ := offer_refused answer
          exact sound_of_answered (by rw [same, isAnswered, told, Option.isSome_some])
  | counted size => exact sound
  | ended whole =>
      intro broken
      cases broken

variable [RemoteStore σ]

theorem storeComplete_writer (upload : Upload) (store : σ) : (upload.storeComplete store).1.writer = upload.writer := by
  rw [storeComplete]
  split <;> rfl

theorem enter_writer (upload : Upload) (store : σ) : (upload.enter store).1.writer = upload.writer := by
  rw [enter]
  split
  · rfl
  · rfl
  · exact storeComplete_writer _ _

theorem poll_writer (upload : Upload) (store : σ) : (upload.poll store).1.writer = upload.writer := by
  rw [poll]
  split
  · split
    · rfl
    · exact enter_writer upload _
  · exact enter_writer upload store
  · exact storeComplete_writer _ store
  · rfl

/-- The task has no more to do for an upload that is answered. -/
theorem poll_answered (answered : upload.isAnswered = true) (store : σ) : upload.poll store = (upload, store) := by
  rw [isAnswered, verdict?] at answered
  rw [poll]
  cases stage : upload.stage <;> simp only [stage] at answered ⊢ <;> cases answered

theorem poll_sound (sound : upload.Sound) (store : σ) : (upload.poll store).1.Sound := by
  intro broken
  rw [poll_writer] at broken
  rw [poll_answered (sound broken)]
  exact sound broken

end Upload

namespace Gateway

/-- The uploads among some that the store has not answered. -/
def unansweredOf (uploads : List (Nat × Upload)) : List (Nat × Upload) :=
  uploads.filter fun entry => !entry.2.isAnswered

/-- The numbers of the uploads that hold a slot: those whose tasks have yet to let go of it, and those that the
store has not answered. -/
def holders (gateway : Gateway σ) : List Nat :=
  gateway.leaving ++ (unansweredOf gateway.uploads).map Prod.fst

/-- Every slot is free or held by one upload. The uploads in progress have numbers of their own, from `mark` on. -/
structure Accounted (slots mark : Nat) (gateway : Gateway σ) : Prop where
  balance : gateway.freeSlots + gateway.holders.length = slots
  single : gateway.holders.Nodup
  past : ∀ number ∈ gateway.holders, number < gateway.nextUpload
  since : mark ≤ gateway.nextUpload
  numbered : ∀ entry ∈ gateway.uploads, mark ≤ entry.1 ∧ entry.1 < gateway.nextUpload
  distinct : gateway.numbers.Nodup
  sound : ∀ entry ∈ gateway.uploads, entry.2.Sound

variable {slots mark number : Nat} {gateway before after : Gateway σ} {upload : Upload}

theorem holders_idle (idle : gateway.uploads = []) : gateway.holders = gateway.leaving := by
  rw [holders, idle]
  exact List.append_nil _

/-- Where nothing is in progress, only tasks that have yet to let go hold slots. -/
theorem Accounted.free (accounted : gateway.Accounted slots mark) (idle : gateway.uploads = []) :
    gateway.freeSlots + gateway.leaving.length = slots := by
  have balance := accounted.balance
  rwa [holders_idle idle] at balance

/-- Where nothing is in progress, it does not matter where the numbers of the uploads began. -/
theorem Accounted.idle {later : Nat} (accounted : gateway.Accounted slots mark) (idle : gateway.uploads = [])
    (since : later ≤ gateway.nextUpload) : gateway.Accounted slots later where
  balance := accounted.balance
  single := accounted.single
  past := accounted.past
  since := since
  numbered := idle ▸ List.forall_mem_nil _
  distinct := accounted.distinct
  sound := accounted.sound

theorem Accounted.mono {less : Nat} (accounted : gateway.Accounted slots mark) (lower : less ≤ mark) :
    gateway.Accounted slots less :=
  { accounted with
    since := Nat.le_trans lower accounted.since
    numbered := fun entry member => (accounted.numbered entry member).imp_left (Nat.le_trans lower) }

theorem Accounted.of_same (accounted : before.Accounted slots mark) (uploads : after.uploads = before.uploads)
    (nextUpload : after.nextUpload = before.nextUpload) (leaving : after.leaving = before.leaving)
    (freeSlots : after.freeSlots = before.freeSlots) : after.Accounted slots mark := by
  have holders : after.holders = before.holders := by rw [holders, leaving, uploads, holders]
  have numbers : after.numbers = before.numbers := by rw [numbers, uploads, numbers]
  exact
    { balance := by rw [holders, freeSlots, accounted.balance]
      single := holders ▸ accounted.single
      past := by rw [holders, nextUpload]; exact accounted.past
      since := nextUpload ▸ accounted.since
      numbered := by rw [uploads, nextUpload]; exact accounted.numbered
      distinct := numbers ▸ accounted.distinct
      sound := by rw [uploads]; exact accounted.sound }

/-- The uploads in progress are those that were, or some of them, and the same ones hold the slots. -/
theorem Accounted.of_kept (accounted : before.Accounted slots mark) (held : after.holders.Perm before.holders)
    (freeSlots : after.freeSlots = before.freeSlots) (nextUpload : after.nextUpload = before.nextUpload)
    (numbers : after.numbers.Sublist before.numbers) (sound : ∀ entry ∈ after.uploads, entry.2.Sound) :
    after.Accounted slots mark where
  balance := by rw [held.length_eq, freeSlots, accounted.balance]
  single := held.nodup_iff.2 accounted.single
  past number member := nextUpload ▸ accounted.past number (held.mem_iff.1 member)
  since := nextUpload ▸ accounted.since
  numbered entry member := by
    obtain ⟨earlier, among, same⟩ := List.mem_map.1 (numbers.subset (List.mem_map_of_mem member))
    rw [nextUpload, ← same]
    exact accounted.numbered earlier among
  distinct := numbers.nodup accounted.distinct
  sound := sound

section Numbers

/-- An upload among the others: no other has its number. -/
theorem Accounted.split (accounted : gateway.Accounted slots mark) (found : gateway.upload? number = some upload) :
    ∃ earlier later, gateway.uploads = earlier ++ (number, upload) :: later ∧
      ∀ entry ∈ earlier ++ later, entry.1 ≠ number := by
  obtain ⟨earlier, later, uploads, others⟩ := List.lookup_eq_some_iff.1 found
  refine ⟨earlier, later, uploads, ?_⟩
  have distinct := accounted.distinct
  rw [numbers, uploads, List.map_append, List.map_cons] at distinct
  obtain ⟨absent, _⟩ := List.nodup_cons.1 (List.perm_middle.nodup_iff.1 distinct)
  rw [← List.map_append] at absent
  intro entry member same
  exact absent (List.mem_map.2 ⟨entry, member, same⟩)

theorem Accounted.upload?_sound (accounted : gateway.Accounted slots mark)
    (found : gateway.upload? number = some upload) : upload.Sound := by
  obtain ⟨earlier, later, uploads, _⟩ := accounted.split found
  exact accounted.sound (number, upload) (uploads ▸ List.mem_append_right _ List.mem_cons_self)

theorem setUpload_split {earlier later : List (Nat × Upload)}
    (uploads : gateway.uploads = earlier ++ (number, upload) :: later)
    (others : ∀ entry ∈ earlier ++ later, entry.1 ≠ number) (replacement : Upload) :
    (gateway.setUpload number replacement).uploads = earlier ++ (number, replacement) :: later := by
  have same (entries : List (Nat × Upload)) (apart : ∀ entry ∈ entries, entry.1 ≠ number) :
      entries.map (fun entry => if entry.1 = number then (number, replacement) else entry) = entries :=
    (List.map_congr_left fun entry member => if_neg (apart entry member)).trans (List.map_id entries)
  obtain ⟨first, second⟩ := List.forall_mem_append.1 others
  simp only [setUpload, uploads, List.map_append, List.map_cons, same earlier first, same later second, if_true]

theorem removeUpload_split {earlier later : List (Nat × Upload)}
    (uploads : gateway.uploads = earlier ++ (number, upload) :: later)
    (others : ∀ entry ∈ earlier ++ later, entry.1 ≠ number) :
    (gateway.removeUpload number).uploads = earlier ++ later := by
  have kept : (earlier ++ later).filter (fun entry => entry.1 != number) = earlier ++ later :=
    List.filter_eq_self.2 fun entry member => bne_iff_ne.2 (others entry member)
  rw [List.filter_append] at kept
  simp only [removeUpload, uploads, List.filter_append, List.filter_cons, bne_self_eq_false, Bool.false_eq_true,
    if_false, kept]

/-- One of some uploads holds a slot if it is unanswered, whatever the others do. -/
theorem unansweredOf_middle (earlier later : List (Nat × Upload)) (number : Nat) (upload : Upload) :
    ((unansweredOf (earlier ++ (number, upload) :: later)).map Prod.fst).Perm
      ((if upload.isAnswered then [] else [number]) ++ (unansweredOf (earlier ++ later)).map Prod.fst) := by
  simp only [unansweredOf, List.filter_append, List.filter_cons]
  cases upload.isAnswered with
  | true => exact .refl _
  | false =>
      simp only [Bool.not_false, if_true, Bool.false_eq_true, if_false, List.map_append, List.map_cons]
      exact List.perm_middle

end Numbers

/-- An upload is replaced by one that is answered if it was. -/
theorem setUpload_accounted (accounted : gateway.Accounted slots mark) (found : gateway.upload? number = some upload)
    {replacement : Upload} (same : replacement.isAnswered = upload.isAnswered) (sound : replacement.Sound) :
    (gateway.setUpload number replacement).Accounted slots mark := by
  obtain ⟨earlier, later, uploads, others⟩ := accounted.split found
  have replaced := setUpload_split uploads others replacement
  have numbers := (setUpload_undisturbed gateway number replacement).numbers
  refine accounted.of_kept ?_ rfl rfl (numbers ▸ List.Sublist.refl _) ?_
  · rw [holders, replaced, holders, uploads]
    have before := unansweredOf_middle earlier later number upload
    rw [← same] at before
    exact List.Perm.append_left gateway.leaving
      ((unansweredOf_middle earlier later number replacement).trans before.symm)
  · rw [replaced]
    have all := accounted.sound
    rw [uploads] at all
    intro entry member
    rcases List.mem_append.1 member with member | member
    · exact all entry (List.mem_append_left _ member)
    · rcases List.mem_cons.1 member with rfl | member
      · exact sound
      · exact all entry (List.mem_append_right _ (List.mem_cons_of_mem _ member))

/-- The upload's task holds the slot on, if it is not over already. -/
theorem removeUpload_accounted (accounted : gateway.Accounted slots mark)
    (found : gateway.upload? number = some upload) (store : σ) :
    (({ gateway with
        store, leaving := if upload.isAnswered then gateway.leaving else gateway.leaving ++ [number] } :
      Gateway σ).removeUpload number).Accounted slots mark := by
  obtain ⟨earlier, later, uploads, others⟩ := accounted.split found
  have remaining : (gateway.removeUpload number).uploads = earlier ++ later := removeUpload_split uploads others
  have sublist : (earlier ++ later).Sublist gateway.uploads :=
    uploads ▸ List.Sublist.append (List.Sublist.refl _) (List.sublist_cons_self _ _)
  refine accounted.of_kept ?_ rfl rfl ?_ ?_
  · have held := (unansweredOf_middle earlier later number upload).append_left gateway.leaving
    rw [← uploads] at held
    refine List.Perm.trans ?_ held.symm
    change ((if upload.isAnswered then gateway.leaving else gateway.leaving ++ [number]) ++
      (unansweredOf (gateway.removeUpload number).uploads).map Prod.fst).Perm _
    rw [remaining]
    cases upload.isAnswered with
    | true => exact .refl _
    | false => exact .of_eq (List.append_assoc _ _ _)
  · change ((gateway.removeUpload number).uploads.map Prod.fst).Sublist _
    exact remaining ▸ sublist.map Prod.fst
  · change ∀ entry ∈ (gateway.removeUpload number).uploads, _
    exact remaining ▸ fun entry member => accounted.sound entry (sublist.subset member)

theorem letGo_accounted (accounted : gateway.Accounted slots mark) (number : Nat) :
    (gateway.letGo number).Accounted slots mark := by
  rw [letGo]
  split
  · rename_i member
    have held : gateway.holders.Perm
        (number :: (gateway.leaving.erase number ++ (unansweredOf gateway.uploads).map Prod.fst)) :=
      (List.perm_cons_erase member).append_right _
    have balance := accounted.balance
    rw [held.length_eq, List.length_cons] at balance
    exact
      { accounted with
        balance := (Nat.add_right_comm _ _ _).trans balance
        single := (List.nodup_cons.1 (held.nodup_iff.1 accounted.single)).2
        past := fun other among => accounted.past other (held.mem_iff.2 (List.mem_cons_of_mem _ among)) }
  · exact accounted

/-- The slot of an upload that begins is one that was free. -/
theorem startUpload_accounted {rest : Nat} (accounted : gateway.Accounted slots mark)
    (free : gateway.freeSlots = rest + 1) (location : Location) (properties : Properties) (capacity : Nat) :
    ({ gateway with freeSlots := rest }.startUpload location properties capacity).2.Accounted slots mark := by
  let begun : Gateway σ := ({ gateway with freeSlots := rest }.startUpload location properties capacity).2
  have held : begun.holders = gateway.holders ++ [gateway.nextUpload] := by
    simp only [begun, holders, startUpload, unansweredOf, List.filter_append, List.map_append]
    exact (List.append_assoc _ _ _).symm
  have numbers : begun.numbers = gateway.numbers ++ [gateway.nextUpload] := List.map_append
  have fresh : gateway.nextUpload ∉ gateway.holders :=
    fun member => Nat.lt_irrefl _ (accounted.past gateway.nextUpload member)
  have unknown : gateway.nextUpload ∉ gateway.numbers := by
    intro member
    obtain ⟨entry, member, same⟩ := List.mem_map.1 member
    exact Nat.lt_irrefl _ (same ▸ (accounted.numbered entry member).2)
  have unbroken : ({ location, properties, capacity } : Upload).Sound := by
    intro broken
    cases broken
  have apart {taken : List Nat} (single : taken.Nodup) (fresh : gateway.nextUpload ∉ taken) :
      (taken ++ [gateway.nextUpload]).Nodup :=
    (List.perm_append_singleton _ _).nodup_iff.2 (List.nodup_cons.2 ⟨fresh, single⟩)
  refine ⟨?_, held ▸ apart accounted.single fresh, ?_, Nat.le_succ_of_le accounted.since, ?_,
    numbers ▸ apart accounted.distinct unknown,
    List.forall_mem_append.2 ⟨accounted.sound, List.forall_mem_singleton.2 unbroken⟩⟩
  · have balance := accounted.balance
    rw [free] at balance
    rw [held, List.length_append]
    exact (Nat.add_right_comm _ 1 _).symm.trans balance
  · rw [held]
    exact List.forall_mem_append.2 ⟨fun number member => Nat.lt_succ_of_lt (accounted.past number member),
      List.forall_mem_singleton.2 (Nat.lt_succ_self _)⟩
  · exact List.forall_mem_append.2 ⟨fun entry member =>
      (accounted.numbered entry member).imp_right Nat.lt_succ_of_lt,
      List.forall_mem_singleton.2 ⟨accounted.since, Nat.lt_succ_self _⟩⟩

section Operations

variable [RemoteStore σ] {permitted : Call → Prop}

/-- A task that answers holds its slot on. -/
theorem pollEach_held (uploads : List (Nat × Upload)) (store : σ) :
    ((pollEach uploads store).2.2 ++ (unansweredOf (pollEach uploads store).1).map Prod.fst).Perm
      ((unansweredOf uploads).map Prod.fst) := by
  induction uploads generalizing store with
  | nil => exact .refl _
  | cons entry rest ih =>
      obtain ⟨number, upload⟩ := entry
      have others := ih (upload.poll store).2
      rw [pollEach]
      cases before : upload.isAnswered with
      | true =>
          rw [Upload.poll_answered before] at others ⊢
          simp only [before, unansweredOf, List.filter_cons, Bool.not_true, Bool.and_false, Bool.false_eq_true,
            if_false]
          exact others
      | false =>
          cases after : (upload.poll store).1.isAnswered with
          | true =>
              simp only [before, after, unansweredOf, List.filter_cons, Bool.not_true, Bool.not_false, Bool.and_true,
                Bool.false_eq_true, if_false, if_true]
              exact others.cons number
          | false =>
              simp only [before, after, unansweredOf, List.filter_cons, Bool.not_false, Bool.false_and,
                Bool.false_eq_true, if_false, if_true, List.map_cons]
              exact List.perm_middle.trans (others.cons number)

theorem pollEach_sound {uploads : List (Nat × Upload)} (sound : ∀ entry ∈ uploads, entry.2.Sound) (store : σ) :
    ∀ entry ∈ (pollEach uploads store).1, entry.2.Sound := by
  induction uploads generalizing store with
  | nil => exact List.forall_mem_nil _
  | cons entry rest ih =>
      obtain ⟨first, others⟩ := List.forall_mem_cons.1 sound
      exact List.forall_mem_cons.2 ⟨Upload.poll_sound first store, ih others _⟩

theorem pollAll_accounted (accounted : gateway.Accounted slots mark) : gateway.pollAll.Accounted slots mark := by
  have numbers : gateway.pollAll.numbers = gateway.numbers := pollEach_numbers gateway.uploads gateway.store
  refine accounted.of_kept ?_ rfl rfl (numbers ▸ List.Sublist.refl _) (pollEach_sound accounted.sound gateway.store)
  have held := (pollEach_held gateway.uploads gateway.store).append_left gateway.leaving
  rw [← List.append_assoc] at held
  exact held

theorem Works.accounted (works : before.Works permitted after) (accounted : before.Accounted slots mark) :
    after.Accounted slots mark := by
  cases works with
  | asked => exact accounted.of_same rfl rfl rfl rfl
  | polled => exact pollAll_accounted accounted
  | edited found edits =>
      exact setUpload_accounted accounted found (Upload.isAnswered_of_stage edits.stage.2)
        (edits.sound (accounted.upload?_sound found))
  | letGo number => exact letGo_accounted accounted number

theorem Steps.accounted (steps : before.Steps permitted after) (accounted : before.Accounted slots mark) :
    after.Accounted slots mark := by
  cases steps with
  | works works => exact works.accounted accounted
  | started allowed free properties capacity =>
      exact startUpload_accounted accounted free _ properties capacity
  | @removed number upload found ended =>
      have answered : upload.isAnswered = true := ended.elim (accounted.upload?_sound found) id
      have removed := removeUpload_accounted accounted found before.store
      rw [if_pos answered] at removed
      exact removed
  | abandoned number =>
      rw [abandon]
      cases found : before.upload? number with
      | none => exact accounted
      | some upload => exact removeUpload_accounted accounted found _

theorem WorksOn.accounted (works : before.WorksOn permitted after) (accounted : before.Accounted slots mark) :
    after.Accounted slots mark := by
  induction works with
  | refl => exact accounted
  | tail _ works ih => exact works.accounted ih

theorem Operates.accounted (operates : before.Operates permitted after) (accounted : before.Accounted slots mark) :
    after.Accounted slots mark := by
  induction operates with
  | refl => exact accounted
  | tail _ steps ih => exact steps.accounted ih

end Operations

end Gateway

namespace Live

variable [RemoteStore σ]

end Live

end ArtifactGate
