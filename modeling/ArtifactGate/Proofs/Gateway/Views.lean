import ArtifactGate.Proofs.Gateway.Calls

/-!
A gateway whose store is seen through another. When uploads go through to the store that is seen, all that a
gateway does for them is the same on either store.
-/
namespace ArtifactGate

variable {τ σ : Type}

def Gateway.map (view : τ → σ) (gateway : Gateway τ) : Gateway σ :=
  { gateway with store := view gateway.store }

def Live.map (view : τ → σ) (live : Live τ) : Live σ :=
  { live with gateway := live.gateway.map view }

variable [RemoteStore τ] [RemoteStore σ] {view : τ → σ}

/-- The calls that uploads make go through to the store that is seen, and so does the depth of listings. -/
structure UploadsThrough (view : τ → σ) : Prop where
  openUpload : ∀ location properties store,
    RemoteStore.openUpload location properties (view store) =
      (RemoteStore.openUpload location properties store).map id view
  admitUpload : ∀ location properties store,
    RemoteStore.admitUpload location properties (view store) =
      (RemoteStore.admitUpload location properties store).map id view
  storeBody : ∀ location properties bytes store,
    RemoteStore.storeBody location properties bytes (view store) =
      (RemoteStore.storeBody location properties bytes store).map id view
  dropAdmitted : ∀ store, RemoteStore.dropAdmitted (view store) = view (RemoteStore.dropAdmitted store)
  listingDepth : ∀ store, RemoteStore.listingDepth (view store) = RemoteStore.listingDepth store

namespace Upload

theorem storeComplete_map (through : UploadsThrough view) (upload : Upload) (store : τ) :
    upload.storeComplete (view store) = (upload.storeComplete store).map id view := by
  rw [storeComplete, storeComplete]
  split
  · rw [through.storeBody]
    rfl
  · rfl

theorem enter_map (through : UploadsThrough view) (upload : Upload) (store : τ) :
    upload.enter (view store) = (upload.enter store).map id view := by
  rw [enter, enter, through.admitUpload]
  rcases RemoteStore.admitUpload upload.location upload.properties store with ⟨_ | _ | _, after⟩
  · rfl
  · rfl
  · exact storeComplete_map through (upload.receive .empty) after

theorem poll_map (through : UploadsThrough view) (upload : Upload) (store : τ) :
    upload.poll (view store) = (upload.poll store).map id view := by
  rw [poll, poll]
  cases upload.stage with
  | unstarted =>
      simp only [through.openUpload]
      rcases RemoteStore.openUpload upload.location upload.properties store with ⟨_ | _, after⟩
      · rfl
      · exact enter_map through upload after
  | waiting => exact enter_map through upload store
  | reading body => exact storeComplete_map through (upload.receive body) store
  | answered verdict => rfl

theorem abort_map (through : UploadsThrough view) (upload : Upload) (store : τ) :
    upload.abort (view store) = view (upload.abort store) := by
  rw [abort, abort]
  cases upload.stage with
  | reading body => exact through.dropAdmitted store
  | _ => rfl

end Upload

namespace Gateway

omit [RemoteStore τ] [RemoteStore σ] in
@[simp] theorem upload?_map (gateway : Gateway τ) (number : Nat) :
    (gateway.map view).upload? number = gateway.upload? number := rfl

theorem pollEach_map (through : UploadsThrough view) (uploads : List (Nat × Upload)) (store : τ) :
    pollEach uploads (view store) = (pollEach uploads store).map id (Prod.map view id) := by
  induction uploads generalizing store with
  | nil => rfl
  | cons entry rest ih =>
      simp only [pollEach, Upload.poll_map through, Prod.map_fst, Prod.map_snd, ih]
      rfl

theorem pollAll_map (through : UploadsThrough view) (gateway : Gateway τ) :
    (gateway.map view).pollAll = gateway.pollAll.map view := by
  simp only [pollAll, Gateway.map, pollEach_map through]
  rfl

theorem settle_map (through : UploadsThrough view) (gateway : Gateway τ) :
    (gateway.map view).settle = gateway.settle.map view := by
  rw [settle, settle]
  change (gateway.uploads.length + 1).repeat pollAll (gateway.map view) = _
  induction gateway.uploads.length + 1 with
  | zero => rfl
  | succ polls ih => exact (congrArg pollAll ih).trans (pollAll_map through _)

omit [RemoteStore τ] [RemoteStore σ] in
theorem letAllGo_map (gateway : Gateway τ) : (gateway.map view).letAllGo = gateway.letAllGo.map view := by
  rw [letAllGo_eq, letAllGo_eq]
  rfl

theorem slotAwaited_map (through : UploadsThrough view) (gateway : Gateway τ) :
    (gateway.map view).slotAwaited = gateway.slotAwaited.map view := by
  have waited : (gateway.map view).awaitSlot = gateway.awaitSlot.map view := by
    simp only [awaitSlot, letAllGo_map, settle_map through]
    exact (apply_ite (Gateway.map view) _ _ _).symm
  rw [slotAwaited, waited]
  exact (apply_ite (Gateway.map view) _ _ _).symm

theorem takeSlot_map (through : UploadsThrough view) (gateway : Gateway τ) :
    (gateway.map view).takeSlot = gateway.takeSlot.map id (Gateway.map view) := by
  rw [takeSlot_eq, takeSlot_eq, slotAwaited_map through]
  change (if !gateway.acceptsUploads then _ else _) = _
  cases gateway.acceptsUploads with
  | false => rfl
  | true =>
      have same : (gateway.slotAwaited.map view).freeSlots = gateway.slotAwaited.freeSlots := rfl
      rw [same]
      cases gateway.slotAwaited.freeSlots <;> rfl

theorem beginUpload_map (through : UploadsThrough view) (location : Location) (properties : Properties)
    (capacity : Nat) (gateway : Gateway τ) :
    (gateway.map view).beginUpload location properties capacity =
      (gateway.beginUpload location properties capacity).map id (Gateway.map view) := by
  rw [beginUpload, beginUpload, takeSlot_map through]
  rcases gateway.takeSlot with ⟨_ | _ | _, after⟩ <;> rfl

theorem offer_map (through : UploadsThrough view) (number : Nat) (byte : UInt8) (gateway : Gateway τ) :
    (gateway.map view).offer number byte = (gateway.offer number byte).map id (Gateway.map view) := by
  rw [offer, offer, settle_map through]
  have same : (gateway.map view).offerNow number byte = gateway.offerNow number byte := rfl
  rw [same]
  rcases gateway.offerNow number byte with _ | _ | _ | _ <;> rfl

theorem pour_map (through : UploadsThrough view) (number : Nat) (bytes : List UInt8) (gateway : Gateway τ) :
    (gateway.map view).pour number bytes = (gateway.pour number bytes).map id (Gateway.map view) := by
  induction bytes generalizing gateway with
  | nil => rfl
  | cons byte rest ih =>
      rw [pour, pour, offer_map through]
      rcases gateway.offer number byte with ⟨_ | upload | _ | _, after⟩
      · rfl
      · exact ih (after.setUpload number upload)
      · rfl
      · rfl

omit [RemoteStore τ] [RemoteStore σ] in
theorem countWritten_map (number size : Nat) (gateway : Gateway τ) :
    (gateway.map view).countWritten number size = (gateway.countWritten number size).map view := by
  rw [countWritten, countWritten, upload?_map]
  cases gateway.upload? number <;> rfl

theorem write_map (through : UploadsThrough view) (number : Nat) (chunk : List UInt8) (gateway : Gateway τ) :
    (gateway.map view).write number chunk = (gateway.write number chunk).map id (Gateway.map view) := by
  rw [write, write, writeRest, writeRest, upload?_map]
  cases gateway.upload? number with
  | none => rfl
  | some upload =>
      by_cases writing : upload.writer = .writing
      · simp only [writing, if_true, pour_map through]
        rcases gateway.pour number chunk with ⟨_ | _ | _, after⟩
        · exact congrArg (Prod.mk Written.whole) (countWritten_map number chunk.length after)
        · rfl
        · rfl
      · simp only [writing, if_false]
        rfl

theorem finish_map (through : UploadsThrough view) (number : Nat) (gateway : Gateway τ) :
    (gateway.map view).finish number = (gateway.finish number).map id (Gateway.map view) := by
  rw [finish, finish, upload?_map]
  cases gateway.upload? number with
  | none => rfl
  | some upload =>
      by_cases broken : upload.writer = .broken
      · simp only [broken, if_true]
        rfl
      · simp only [broken, if_false]
        have ended : ((gateway.map view).setUpload number upload.endBody).settle =
            (gateway.setUpload number upload.endBody).settle.map view :=
          settle_map through (gateway.setUpload number upload.endBody)
        rw [ended, upload?_map]
        cases (gateway.setUpload number upload.endBody).settle.upload? number with
        | none => rfl
        | some last => cases outcome : last.outcome? <;> simp only [outcome] <;> rfl

theorem abandon_map (through : UploadsThrough view) (number : Nat) (gateway : Gateway τ) :
    (gateway.map view).abandon number = (gateway.abandon number).map view := by
  rw [abandon, abandon, upload?_map]
  cases gateway.upload? number with
  | none => rfl
  | some upload =>
      simp only [Gateway.map, Upload.abort_map through]
      rfl

theorem abandonSince_map (through : UploadsThrough view) (mark : Nat) (gateway : Gateway τ) :
    (gateway.map view).abandonSince mark = (gateway.abandonSince mark).map view := by
  rw [abandonSince, abandonSince]
  change (gateway.uploads.filter fun entry => mark ≤ entry.1).foldl _ (gateway.map view) = _
  generalize gateway.uploads.filter (fun entry => mark ≤ entry.1) = given
  induction given generalizing gateway with
  | nil => rfl
  | cons entry rest ih =>
      rw [List.foldl_cons, List.foldl_cons, abandon_map through]
      exact ih (gateway.abandon entry.1)

end Gateway

end ArtifactGate
