import ArtifactGate.Proofs.Gateway.Consulting
import ArtifactGate.Proofs.Session.Receipts

/-!
What a part of a session sends, logs and stores, when the gateway answers and the client takes what it is
sent. Two parts in a row send, log and store what the one does and then what the other does.
-/
namespace ArtifactGate

def Outlet.extend (outlet : Outlet) (bytes : List UInt8) : Outlet :=
  { outlet with taken := outlet.taken ++ bytes.toArray }

theorem Outlet.extend_nil (outlet : Outlet) : outlet.extend [] = outlet := by
  rw [extend, Array.append_empty]

theorem Outlet.extend_append (outlet : Outlet) (first second : List UInt8) :
    outlet.extend (first ++ second) = (outlet.extend first).extend second := by
  simp only [extend, List.append_toArray, Array.append_assoc]

theorem Outlet.take_unlimited {outlet : Outlet} (unlimited : outlet.limit = none) (bytes : List UInt8) :
    outlet.take bytes = (some (.ok ()), outlet.extend bytes) := by
  obtain ⟨limit, stalls, taken⟩ := outlet
  obtain rfl : limit = none := unlimited
  rfl

def Gateway.nodeAt (gateway : Gateway MemoryStore) (user : String) (location : Location) : Node :=
  .ofRemote user location (gateway.described location).toOption

namespace Live

/-- From one moment of a session to another it sent, logged and stored these. -/
structure Passage (before : Live MemoryStore) (sent : List UInt8) (logged : List AccessRecord)
    (stored : List Deposit) (after : Live MemoryStore) : Prop where
  outlet : after.outlet = before.outlet.extend sent
  authorizer : after.gateway.authorizer = before.gateway.authorizer
  now : after.gateway.now = before.gateway.now
  log : after.gateway.log = before.gateway.log ++ logged
  steady : before.gateway.store.Steady after.gateway.store
  gains : Gains before.gateway.store stored after.gateway.store

/-- A passage in which the gateway was only asked. -/
structure Asks (before : Live MemoryStore) (sent : List UInt8) (logged : List AccessRecord)
    (after : Live MemoryStore) : Prop where
  outlet : after.outlet = before.outlet.extend sent
  log : after.gateway.log = before.gateway.log ++ logged
  consulted : before.gateway.Consulted after.gateway

variable {before middle after live : Live MemoryStore} {sent more : List UInt8}
  {logged further : List AccessRecord} {stored next : List Deposit}

theorem Passage.trans (start : before.Passage sent logged stored middle)
    (rest : middle.Passage more further next after) :
    before.Passage (sent ++ more) (logged ++ further) (stored ++ next) after where
  outlet := by rw [rest.outlet, start.outlet, Outlet.extend_append]
  authorizer := rest.authorizer.trans start.authorizer
  now := rest.now.trans start.now
  log := by rw [rest.log, start.log, List.append_assoc]
  steady := start.steady.trans rest.steady
  gains := DepositStore.gains_trans start.gains rest.gains

namespace Asks

theorem refl (live : Live MemoryStore) : live.Asks [] [] live :=
  ⟨live.outlet.extend_nil.symm, (List.append_nil _).symm, .refl _⟩

theorem trans (start : before.Asks sent logged middle) (rest : middle.Asks more further after) :
    before.Asks (sent ++ more) (logged ++ further) after where
  outlet := by rw [rest.outlet, start.outlet, Outlet.extend_append]
  log := by rw [rest.log, start.log, List.append_assoc]
  consulted := start.consulted.trans rest.consulted

theorem passage (asks : before.Asks sent logged after) : before.Passage sent logged [] after := by
  obtain ⟨outlet, log, consulted⟩ := asks
  have gains := consulted.gains
  obtain ⟨_, _, _, _, same⟩ := consulted
  rw [same] at log gains
  refine ⟨outlet, ?_, ?_, ?_, ?_, ?_⟩ <;> rw [same]
  · exact log
  · exact ⟨rfl, rfl⟩
  · exact gains

end Asks

theorem Passage.of_steady (outlet : after.outlet = before.outlet)
    (steady : before.gateway.Steady after.gateway)
    (gains : Gains before.gateway.store stored after.gateway.store) : before.Passage [] [] stored after where
  outlet := outlet.trans before.outlet.extend_nil.symm
  authorizer := steady.authorizer
  now := steady.now
  log := steady.log.trans (List.append_nil _).symm
  steady := steady.store
  gains := gains

/-! What the effects of a session give. -/

theorem gives_send (unlimited : live.outlet.limit = none) (bytes : List UInt8) :
    live.Gives (send bytes) fun _ after => live.Asks bytes [] after := by
  refine ⟨(), { live with outlet := live.outlet.extend bytes }, ?_, rfl, (List.append_nil _).symm, .refl _⟩
  rw [send, ExceptT.run_mk, run_request, perform, Outlet.take_unlimited unlimited]

theorem gives_sendOk (unlimited : live.outlet.limit = none) :
    live.Gives sendOk fun _ after => live.Asks [Wire.okStatus] [] after :=
  gives_send unlimited [Wire.okStatus]

theorem gives_logSuccess (transfer : Transfer) (site : Site) :
    live.Gives (transfer.logSuccess site) fun _ after =>
      live.Asks [] [transfer.successRecord site] after := by
  refine Gives.lift ⟨(), { live with gateway := { live.gateway with
    log := live.gateway.log ++ [transfer.successRecord site] } }, ?_, ?_⟩
  · rw [run_request, perform]
  · exact ⟨live.outlet.extend_nil.symm, rfl, _, _, _, _, rfl⟩

theorem yields_allows {node : Node} {access : Access} (remote : node.backing = .remote)
    (granted : live.gateway.authorizer node.location.repository node.user access = true) :
    live.Yields (node.allows access) fun allowed after => allowed = true ∧ after = live := by
  refine ⟨true, live, ?_, rfl, rfl⟩
  simp only [Node.allows, remote]
  rw [run_request, perform, granted]

theorem found_described (gateway : Gateway MemoryStore) (location : Location) :
    Node.found? (gateway.described location) = .ok (gateway.described location).toOption := by
  cases described : gateway.described location with
  | error fault =>
      have absent : fault = .notFound location.display := by
        rw [Gateway.described] at described
        split at described
        · cases described
        · exact Gateway.notFound_of_describe described
      rw [absent]
      rfl
  | ok metadata => rfl

theorem gives_fetch (reliable : live.gateway.store.failuresPending = 0) {location : Location}
    (outside : location.isSink = false) (user : String) :
    live.Gives (Node.fetch user location) fun node after =>
      node = live.gateway.nodeAt user location ∧ live.Asks [] [] after := by
  obtain ⟨gateway, answered, log, consulted⟩ := live.gateway.metadata_described reliable location
  have fetched : live.Gives (Node.fetchMetadata location) fun found after =>
      found = (live.gateway.described location).toOption ∧ live.Asks [] [] after := by
    refine ⟨_, { live with gateway }, ?_, rfl, live.outlet.extend_nil.symm, ?_, consulted⟩
    · rw [Node.fetchMetadata, ExceptT.run_mk, map_eq_pure_bind, run_bind, run_request, perform, answer,
        answered]
      dsimp only
      rw [run_pure, found_described]
    · exact log.trans (List.append_nil _).symm
  simp only [Node.fetch, outside, Bool.false_eq_true, if_false]
  refine fetched.bind fun found after valid => Gives.pure ⟨?_, valid.2⟩
  rw [valid.1, Gateway.nodeAt]

theorem gives_fetchContent (reliable : live.gateway.store.failuresPending = 0) (location : Location) :
    live.Gives (Node.fetchContent location) fun found after =>
      found = (live.gateway.store.retrieve location).toOption ∧ live.Asks [] [] after := by
  obtain ⟨gateway, answered, log, consulted⟩ := live.gateway.content_retrieved reliable location
  have found : Node.found? (live.gateway.store.retrieve location) =
      .ok (live.gateway.store.retrieve location).toOption := by
    cases retrieved : live.gateway.store.retrieve location with
    | error fault =>
        rw [Gateway.notFound_of_retrieve retrieved]
        rfl
    | ok content => rfl
  refine ⟨_, { live with gateway }, ?_, rfl, live.outlet.extend_nil.symm, ?_, consulted⟩
  · rw [Node.fetchContent, ExceptT.run_mk, map_eq_pure_bind, run_bind, run_request, perform, answer, answered]
    dsimp only
    rw [run_pure, found]
  · exact log.trans (List.append_nil _).symm

theorem yields_lookUp (reliable : live.gateway.store.failuresPending = 0) {location : Location}
    (outside : location.isSink = false) (user : String) :
    live.Yields (Node.lookUp user location) fun node after =>
      node = live.gateway.nodeAt user location ∧ live.Asks [] [] after := by
  obtain ⟨node, after, ran, valid⟩ := gives_fetch reliable outside user
  refine ⟨node, after, ?_, valid⟩
  rw [Node.lookUp, run_bind, ran]
  exact run_pure node after

theorem gives_resolve (reliable : live.gateway.store.failuresPending = 0) {text : String}
    (named : (Location.resolve text).isEmpty = false) (outside : (Location.resolve text).isSink = false)
    (user : String) :
    live.Gives (Node.resolve user text) fun node after =>
      node = live.gateway.nodeAt user (Location.resolve text) ∧ live.Asks [] [] after := by
  simp only [Node.resolve, named, Bool.false_eq_true, if_false]
  exact Gives.lift (yields_lookUp reliable outside user)

/-! What the steps of an upload give. -/

theorem gives_beginUpload (ready : live.gateway.Ready) (location : Location) (properties : Properties) :
    live.Gives (ExceptT.mk (Action.request (.beginUpload location properties)) : Attempt Nat)
      fun number after => after.gateway.Busy number ∧
        after.gateway.Uploading number location properties [] ∧ live.Passage [] [] [] after := by
  have room : 0 < live.gateway.pipeCapacity := Nat.lt_of_lt_of_le Nat.zero_lt_one (Nat.le_max_left _ _)
  obtain ⟨number, gateway, begun, busy, steady⟩ := Gateway.beginUpload_ready ready location properties room
  have gives : live.Gives (ExceptT.mk (Action.request (.beginUpload location properties)) : Attempt Nat)
      fun number after => after.gateway.Busy number ∧ after.outlet = live.outlet ∧
        live.gateway.Steady after.gateway := by
    refine ⟨number, { live with gateway }, ?_, busy, rfl, steady⟩
    rw [ExceptT.run_mk, run_request, perform, answer, begun]
  apply (gives.and_ends (ends_beginUpload ready.idle (Nat.zero_le _) location properties)).mono
  rintro number after ⟨⟨busy, outlet, steady⟩, _, uploading, gains⟩
  exact ⟨busy, uploading, Passage.of_steady outlet steady gains⟩

section Upload

variable {number : Nat} {location : Location} {properties : Properties} {bytes : List UInt8}

theorem gives_writeUpload (busy : live.gateway.Busy number)
    (uploading : live.gateway.Uploading number location properties bytes) (chunk : List UInt8) :
    live.Gives (ExceptT.mk (Action.request (.writeUpload number chunk)) : Attempt Unit)
      fun _ after => after.gateway.Busy number ∧
        after.gateway.Uploading number location properties (bytes ++ chunk) ∧
        live.Passage [] [] [] after := by
  obtain ⟨gateway, written, busy, steady⟩ := Gateway.write_busy chunk busy
  have gives : live.Gives (ExceptT.mk (Action.request (.writeUpload number chunk)) : Attempt Unit)
      fun _ after => after.gateway.Busy number ∧ after.outlet = live.outlet ∧
        live.gateway.Steady after.gateway := by
    refine ⟨(), { live with gateway }, ?_, busy, rfl, steady⟩
    rw [ExceptT.run_mk, run_request, perform, written]
  apply (gives.and_ends (ends_writeUpload uploading (Nat.zero_le _) chunk)).mono
  rintro _ after ⟨⟨busy, outlet, steady⟩, uploading, gains⟩
  exact ⟨busy, uploading, Passage.of_steady outlet steady gains⟩

theorem gives_finishUpload (busy : live.gateway.Busy number)
    (uploading : live.gateway.Uploading number location properties bytes) :
    live.Gives (ExceptT.mk (Action.request (.finishUpload number)) : Attempt Nat)
      fun _ after => after.gateway.Ready ∧ live.Passage [] [] [⟨location, properties, bytes⟩] after := by
  obtain ⟨size, gateway, finished, ready, steady⟩ := Gateway.finish_busy busy
  have gives : live.Gives (ExceptT.mk (Action.request (.finishUpload number)) : Attempt Nat)
      fun _ after => after.gateway.Ready ∧ after.outlet = live.outlet ∧
        live.gateway.Steady after.gateway := by
    refine ⟨size, { live with gateway }, ?_, ready, rfl, steady⟩
    rw [ExceptT.run_mk, run_request, perform, answer, finished]
  apply (gives.and_ends (ends_finishUpload uploading (Nat.zero_le _))).mono
  rintro _ after ⟨⟨ready, outlet, steady⟩, _, _, gains⟩
  exact ⟨ready, Passage.of_steady outlet steady gains⟩

end Upload

end Live

end ArtifactGate
