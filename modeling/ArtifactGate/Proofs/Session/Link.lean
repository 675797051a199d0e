import ArtifactGate.Proofs.Session.Sending

/-!
Two sessions of one gateway that talk to each other: each reads what the other sends. They take turns in any
order. As long as the scripts that they follow answer each other, one of the two has a turn until both have
ended, and each turn brings them nearer to the end.
-/
namespace ArtifactGate

/-- A session, what it has sent, and how much it has taken of what it was sent. -/
structure Party where
  session : Session
  outlet : Outlet := {}
  taken : Nat := 0

namespace Party

def hasEnded (party : Party) : Bool := party.session.result?.isSome

def live (party : Party) (gateway : Gateway MemoryStore) : Live MemoryStore :=
  { gateway, outlet := party.outlet }

/-- What the other has sent and this one has not taken. -/
def waiting (party other : Party) : List UInt8 := other.outlet.taken.toList.drop party.taken

def after (taken : Nat) (state : Session × Live MemoryStore) : Party × Gateway MemoryStore :=
  ({ session := state.1, outlet := state.2.outlet, taken }, state.2.gateway)

/-- The turn of a party: it takes the next byte or, when there is none and the other has ended, comes to the end
of its input. It has no turn when it has ended itself, or waits for the other. -/
def turn? (party other : Party) (gateway : Gateway MemoryStore) : Option (Party × Gateway MemoryStore) :=
  if party.hasEnded then none
  else
    match party.waiting other with
    | byte :: _ => some (after (party.taken + 1) (Session.feed byte (party.session, party.live gateway)))
    | [] =>
      if other.hasEnded then
        some (after party.taken (Session.finish .closed (party.session, party.live gateway)))
      else none

section Turn

variable {party other : Party} {gateway : Gateway MemoryStore} {byte : UInt8} {rest : List UInt8}

theorem turn?_take (going : party.hasEnded = false) (waits : party.waiting other = byte :: rest) :
    party.turn? other gateway =
      some (after (party.taken + 1) (Session.feed byte (party.session, party.live gateway))) := by
  rw [turn?, if_neg (by simp [going]), waits]

theorem turn?_close (going : party.hasEnded = false) (nothing : party.waiting other = [])
    (ended : other.hasEnded = true) :
    party.turn? other gateway =
      some (after party.taken (Session.finish .closed (party.session, party.live gateway))) := by
  rw [turn?, if_neg (by simp [going]), nothing]
  exact if_pos ended

theorem turn?_ended (ended : party.hasEnded = true) : party.turn? other gateway = none := by
  rw [turn?, if_pos ended]

theorem turn?_wait (nothing : party.waiting other = []) (going : other.hasEnded = false) :
    party.turn? other gateway = none := by
  rw [turn?, nothing]
  split
  · rfl
  · exact if_neg (by simp [going])

theorem waiting_take {next : Party} (waits : party.waiting other = byte :: rest)
    (taken : next.taken = party.taken + 1) : next.waiting other = rest := by
  rw [waiting, taken, ← List.drop_drop, ← waiting, waits]
  rfl

theorem waiting_extend {next : Party} {sent : List UInt8} (within : party.taken ≤ other.outlet.taken.size)
    (outlet : next.outlet = other.outlet.extend sent) :
    party.waiting next = party.waiting other ++ sent := by
  rw [waiting, outlet, Outlet.extend, Array.toList_append, List.drop_append_of_le_length within, ← waiting]

theorem taken_le_extend {next : Party} {sent : List UInt8} {taken : Nat}
    (within : taken ≤ other.outlet.taken.size) (outlet : next.outlet = other.outlet.extend sent) :
    taken ≤ next.outlet.taken.size := by
  rw [outlet, Outlet.extend, Array.size_append]
  exact Nat.le_add_right_of_le within

theorem taken_lt_of_waiting (waits : party.waiting other = byte :: rest) :
    party.taken < other.outlet.taken.size := by
  apply Nat.lt_of_not_le
  intro beyond
  rw [waiting, List.drop_of_length_le beyond] at waits
  cases waits

theorem turn_of_follows {conduct : Conduct MemoryStore} {goal : Session → Live MemoryStore → Prop} {beat : Beat}
    {beats : List Beat} {next : Party} {reached : Gateway MemoryStore}
    (follows : Session.Follows conduct goal (beat :: beats) party.session (party.live gateway))
    (waits : party.waiting other = beat.byte :: rest)
    (turned : party.turn? other gateway = some (next, reached)) :
    next.outlet = party.outlet.extend beat.sent ∧ next.taken = party.taken + 1 ∧
      conduct.kept gateway reached ∧ Session.Follows conduct goal beats next.session (next.live reached) := by
  obtain ⟨going, step⟩ := follows
  obtain ⟨session, after, fed, outlet, _, kept, rest⟩ := step gateway (conduct.aside_refl gateway)
  have party_fed : Session.feed beat.byte (party.session, party.live gateway) = (session, after) := fed
  rw [turn?_take (by rw [hasEnded, going]; rfl) waits, party_fed] at turned
  cases turned
  exact ⟨outlet, rfl, kept, rest⟩

end Turn

end Party

/-- Two sessions of a gateway that are connected back to back. -/
structure Link where
  gateway : Gateway MemoryStore
  download : Party
  upload : Party

namespace Link

/-- Starts two command lines of two logins, and connects them. -/
def connect (download upload : Login × String) (gateway : Gateway MemoryStore) : Link :=
  let asking := Party.after 0 (Session.start download.1 download.2 { gateway })
  let taking := Party.after 0 (Session.start upload.1 upload.2 { gateway := asking.2 })
  { gateway := taking.2, download := asking.1, upload := taking.1 }

/-- One of the two has its turn. -/
inductive Turn : Link → Link → Prop
  | download {link : Link} {party : Party} {gateway : Gateway MemoryStore}
    (turned : link.download.turn? link.upload link.gateway = some (party, gateway)) :
    Turn link { link with gateway, download := party }
  | upload {link : Link} {party : Party} {gateway : Gateway MemoryStore}
    (turned : link.upload.turn? link.download link.gateway = some (party, gateway)) :
    Turn link { link with gateway, upload := party }

/-- So many turns, in any order. -/
inductive Turns : Nat → Link → Link → Prop
  | none {link : Link} : Turns 0 link link
  | next {count : Nat} {first middle last : Link} (turns : Turns count first middle) (turn : Turn middle last) :
    Turns (count + 1) first last

end Link

/-- A script of a receiver answers deliveries: it takes them one after the other, and by the end of each it has
acknowledged that one, counting what is spare; in the end nothing is. -/
def Answered : Nat → List Delivery → List Beat → Prop
  | spare, [], beats => spare = 0 ∧ beats = []
  | spare, delivery :: rest, beats =>
    ∃ first later answers next, beats = first ++ later ∧ Beat.bytes first = delivery.message ∧
      Beat.sendings first = List.replicate answers Wire.okStatus ∧ spare + answers = next + 1 ∧
      Answered next rest later

namespace Answered

variable {spare : Nat} {deliveries others : List Delivery} {beats more : List Beat} {delivery : Delivery}

theorem append (answered : Answered spare deliveries beats) (rest : Answered 0 others more) :
    Answered spare (deliveries ++ others) (beats ++ more) := by
  induction deliveries generalizing spare beats with
  | nil =>
      obtain ⟨rfl, rfl⟩ := answered
      exact rest
  | cons delivery deliveries ih =>
      obtain ⟨first, later, answers, next, rfl, bytes, sendings, spared, answered⟩ := answered
      exact ⟨first, later ++ more, answers, next, List.append_assoc _ _ _, bytes, sendings, spared, ih answered⟩

theorem once (bytes : Beat.bytes beats = delivery.message) (sendings : Beat.sendings beats = [Wire.okStatus]) :
    Answered 0 [delivery] beats :=
  ⟨beats, [], 1, 0, (List.append_nil _).symm, bytes, sendings, rfl, rfl, rfl⟩

end Answered

namespace Session

/-- When its input ends the session ends well, and the gateway is as it should be. -/
def Done (stored : Gateway MemoryStore → Prop) (session : Session) (live : Live MemoryStore) : Prop :=
  session.result? = none ∧ finish .closed (session, live) = (.ended (.ok ()), live) ∧ stored live.gateway

end Session

namespace Session

variable {filled : String} {stored : Gateway MemoryStore → Prop} {beats : List Beat} {session : Session}
  {live : Live MemoryStore}

theorem result?_of_follows (follows : Follows (.receiving filled) (Done stored) beats session live) :
    session.result? = none := by
  cases beats with
  | nil => exact (follows live.gateway (.refl _)).1
  | cons beat rest => exact follows.1

theorem result?_of_deliver {due : List AccessRecord} {deliveries : List Delivery}
    (follows : Follows (.sending filled) Sender.Over (Beat.deliver due deliveries) session live) :
    session.result? = none := by
  cases deliveries with
  | nil => exact follows.1
  | cons delivery rest => exact follows.1

end Session

namespace Link

/-- Both sessions follow their scripts: what the sender has sent is in flight, its deliveries are to come, and
for each acknowledgement that it needs there is an answer, sent or to be sent for what is in flight. -/
structure Talking (filled : String) (stored : Gateway MemoryStore → Prop) (inFlight later : List Beat)
    (due : List AccessRecord) (deliveries : List Delivery) (spare : Nat) (link : Link) : Prop where
  sending : Session.Follows (.sending filled) Sender.Over (Beat.deliver due deliveries) link.download.session
    (link.download.live link.gateway)
  receiving : Session.Follows (.receiving filled) (Session.Done stored) (inFlight ++ later) link.upload.session
    (link.upload.live link.gateway)
  bytes : link.upload.waiting link.download = Beat.bytes inFlight
  answered : Answered spare deliveries later
  good : ∀ byte ∈ link.download.waiting link.upload ++ Beat.sendings inFlight, byte = Wire.okStatus
  balance : (link.download.waiting link.upload).length + (Beat.sendings inFlight).length = spare + 1
  uploadTaken : link.upload.taken ≤ link.download.outlet.taken.size
  downloadTaken : link.download.taken ≤ link.upload.outlet.taken.size

/-- The sender has ended, and what it has sent is in flight. -/
structure Listening (filled : String) (stored : Gateway MemoryStore → Prop) (inFlight : List Beat)
    (link : Link) : Prop where
  ended : link.download.session = .ended (.ok ())
  receiving : Session.Follows (.receiving filled) (Session.Done stored) inFlight link.upload.session
    (link.upload.live link.gateway)
  bytes : link.upload.waiting link.download = Beat.bytes inFlight

/-- Both sessions have ended well. -/
structure Finished (stored : Gateway MemoryStore → Prop) (link : Link) : Prop where
  download : link.download.session = .ended (.ok ())
  upload : link.upload.session = .ended (.ok ())
  stored : stored link.gateway

/-- How two sessions stand that follow scripts which answer each other, and how many turns are left. -/
inductive Paired (filled : String) (stored : Gateway MemoryStore → Prop) : Nat → Link → Prop
  | talking {link : Link} {inFlight later : List Beat} {due : List AccessRecord} {deliveries : List Delivery}
    {spare : Nat} (talking : Talking filled stored inFlight later due deliveries spare link) :
    Paired filled stored (deliveries.length + inFlight.length + later.length + 2) link
  | listening {link : Link} {inFlight : List Beat} (listening : Listening filled stored inFlight link) :
    Paired filled stored (inFlight.length + 1) link
  | finished {link : Link} (finished : Finished stored link) : Paired filled stored 0 link

section Turns

variable {filled : String} {stored : Gateway MemoryStore → Prop} {inFlight later : List Beat}
  {due : List AccessRecord} {deliveries : List Delivery} {spare left : Nat} {link next : Link} {party : Party}
  {gateway : Gateway MemoryStore}

theorem Talking.downloads (talking : Talking filled stored inFlight later due deliveries spare link) :
    link.download.hasEnded = false := by
  rw [Party.hasEnded, Session.result?_of_deliver talking.sending]
  rfl

theorem Talking.uploads (talking : Talking filled stored inFlight later due deliveries spare link) :
    link.upload.hasEnded = false := by
  rw [Party.hasEnded, Session.result?_of_follows talking.receiving]
  rfl

theorem Listening.uploads (listening : Listening filled stored inFlight link) :
    link.upload.hasEnded = false := by
  rw [Party.hasEnded, Session.result?_of_follows listening.receiving]
  rfl

theorem Listening.hasEnded (listening : Listening filled stored inFlight link) :
    link.download.hasEnded = true := by
  rw [Party.hasEnded, listening.ended]
  rfl

theorem Talking.download_turn (talking : Talking filled stored inFlight later due deliveries spare link)
    (turned : link.download.turn? link.upload link.gateway = some (party, gateway)) :
    ∃ fewer, deliveries.length + inFlight.length + later.length + 2 = fewer + 1 ∧
      Paired filled stored fewer { link with gateway, download := party } := by
  have balance := talking.balance
  have good := talking.good
  cases waits : link.download.waiting link.upload with
  | nil =>
      rw [Party.turn?_wait waits talking.uploads] at turned
      cases turned
  | cons byte waiting =>
      rw [waits] at balance good
      obtain rfl : byte = Wire.okStatus := good byte List.mem_cons_self
      rw [List.length_cons] at balance
      cases deliveries with
      | nil =>
          obtain ⟨rfl, rfl⟩ := talking.answered
          obtain ⟨outlet, _, consulted, gone⟩ := Party.turn_of_follows talking.sending waits turned
          have receiving := talking.receiving.stable consulted
          rw [List.append_nil] at receiving
          refine ⟨inFlight.length + 1, by simp, .listening ⟨gone gateway (.refl _), receiving, ?_⟩⟩
          exact (Party.waiting_extend talking.uploadTaken outlet).trans ((List.append_nil _).trans talking.bytes)
      | cons delivery rest =>
          obtain ⟨first, later, answers, next, rfl, bytes, sendings, spared, answered⟩ := talking.answered
          obtain ⟨outlet, taken, consulted, sending⟩ := Party.turn_of_follows talking.sending waits turned
          have receiving := talking.receiving.stable consulted
          rw [← List.append_assoc] at receiving
          have waitsStill := Party.waiting_take waits taken
          have answer : Beat.sendings (inFlight ++ first) =
              Beat.sendings inFlight ++ List.replicate answers Wire.okStatus := by
            rw [Beat.sendings, List.flatMap_append, ← Beat.sendings, ← Beat.sendings, sendings]
          refine ⟨rest.length + (inFlight ++ first).length + later.length + 2, ?_, .talking ⟨sending, receiving,
            ?_, answered, ?_, ?_, Party.taken_le_extend talking.uploadTaken outlet, ?_⟩⟩
          · simp only [List.length_append, List.length_cons]
            omega
          · apply (Party.waiting_extend talking.uploadTaken outlet).trans
            rw [talking.bytes, Beat.bytes_append, bytes]
          · intro byte member
            rw [answer, ← List.append_assoc] at member
            rcases List.mem_append.1 member with member | member
            · exact good byte (List.mem_cons_of_mem _ (waitsStill ▸ member))
            · exact List.eq_of_mem_replicate member
          · apply (congrArg (fun waiting => List.length waiting + _) waitsStill).trans
            rw [answer, List.length_append, List.length_replicate]
            omega
          · exact taken ▸ Party.taken_lt_of_waiting waits

/-- The receiver takes a byte that is in flight, and what it answers is one acknowledgement or more, or none. -/
theorem Talking.upload_turn (talking : Talking filled stored inFlight later due deliveries spare link)
    (turned : link.upload.turn? link.download link.gateway = some (party, gateway)) :
    ∃ fewer, deliveries.length + inFlight.length + later.length + 2 = fewer + 1 ∧
      Paired filled stored fewer { link with gateway, upload := party } := by
  have balance := talking.balance
  have good := talking.good
  have receiving := talking.receiving
  have bytes := talking.bytes
  cases inFlight with
  | nil =>
      rw [Party.turn?_wait bytes talking.downloads] at turned
      cases turned
  | cons beat inFlight =>
      obtain ⟨outlet, taken, aside, receiving⟩ := Party.turn_of_follows receiving bytes turned
      have waits := Party.waiting_extend talking.downloadTaken outlet
      rw [Beat.sendings, List.flatMap_cons, ← Beat.sendings] at balance
      refine ⟨deliveries.length + inFlight.length + later.length + 2, ?_, .talking ⟨talking.sending.stable aside,
        receiving, Party.waiting_take bytes taken, talking.answered, ?_, ?_, ?_,
        Party.taken_le_extend talking.downloadTaken outlet⟩⟩
      · simp only [List.length_cons]
        omega
      · intro byte member
        apply good byte
        rw [waits, List.append_assoc] at member
        exact member
      · apply (congrArg (fun waiting => List.length waiting + _) waits).trans
        rw [List.length_append] at balance ⊢
        omega
      · exact taken ▸ Party.taken_lt_of_waiting bytes

theorem Listening.upload_turn (listening : Listening filled stored inFlight link)
    (turned : link.upload.turn? link.download link.gateway = some (party, gateway)) :
    Paired filled stored inFlight.length { link with gateway, upload := party } := by
  have receiving := listening.receiving
  have bytes := listening.bytes
  cases inFlight with
  | nil =>
      obtain ⟨_, closed, done⟩ := receiving link.gateway (.refl _)
      have finished : Session.finish .closed (link.upload.session, link.upload.live link.gateway) =
          (.ended (.ok ()), link.upload.live link.gateway) := closed
      rw [Party.turn?_close listening.uploads bytes listening.hasEnded, finished] at turned
      cases turned
      exact .finished ⟨listening.ended, rfl, done⟩
  | cons beat inFlight =>
      obtain ⟨_, taken, _, receiving⟩ := Party.turn_of_follows receiving bytes turned
      exact .listening ⟨listening.ended, receiving, Party.waiting_take bytes taken⟩

theorem Paired.turn (paired : Paired filled stored left link) (turn : Turn link next) :
    ∃ fewer, left = fewer + 1 ∧ Paired filled stored fewer next := by
  cases paired with
  | talking talking =>
      cases turn with
      | download turned => exact talking.download_turn turned
      | upload turned => exact talking.upload_turn turned
  | listening listening =>
      cases turn with
      | download turned =>
          rw [Party.turn?_ended listening.hasEnded] at turned
          cases turned
      | upload turned => exact ⟨_, rfl, listening.upload_turn turned⟩
  | finished finished =>
      cases turn with
      | download turned =>
          rw [Party.turn?_ended (by rw [Party.hasEnded, finished.download]; rfl)] at turned
          cases turned
      | upload turned =>
          rw [Party.turn?_ended (by rw [Party.hasEnded, finished.upload]; rfl)] at turned
          cases turned

theorem Paired.moves (paired : Paired filled stored (left + 1) link) : ∃ next, Turn link next := by
  generalize remaining : left + 1 = count at paired
  cases paired with
  | @talking _ inFlight _ _ _ _ talking =>
      cases waits : link.download.waiting link.upload with
      | cons byte waiting => exact ⟨_, .download (Party.turn?_take talking.downloads waits)⟩
      | nil =>
          -- Nothing is answered yet, so the answer must still come for what is in flight.
          have balance := talking.balance
          have bytes := talking.bytes
          cases inFlight with
          | nil =>
              rw [waits] at balance
              cases balance
          | cons beat inFlight => exact ⟨_, .upload (Party.turn?_take talking.uploads bytes)⟩
  | @listening _ inFlight listening =>
      have bytes := listening.bytes
      cases inFlight with
      | nil => exact ⟨_, .upload (Party.turn?_close listening.uploads bytes listening.hasEnded)⟩
      | cons beat inFlight => exact ⟨_, .upload (Party.turn?_take listening.uploads bytes)⟩
  | finished finished => cases remaining

theorem Paired.finish (paired : Paired filled stored 0 link) : Finished stored link := by
  generalize none : 0 = left at paired
  cases paired with
  | finished finished => exact finished
  | talking => cases none
  | listening => cases none

/-- Two paired sessions take no more turns than are left, whatever their order, and one of them has a turn until
both have ended well. -/
theorem Paired.turns {count : Nat} (start : Paired filled stored left link) (turns : Turns count link next) :
    count ≤ left ∧ ((∃ further, Turn next further) ∨ Finished stored next) := by
  have kept : ∃ remaining, left = count + remaining ∧ Paired filled stored remaining next := by
    induction turns with
    | none => exact ⟨left, (Nat.zero_add _).symm, start⟩
    | next turns turn ih =>
        obtain ⟨remaining, total, paired⟩ := ih start
        obtain ⟨fewer, rfl, after⟩ := paired.turn turn
        exact ⟨fewer, by omega, after⟩
  obtain ⟨remaining, rfl, paired⟩ := kept
  refine ⟨Nat.le_add_right _ _, ?_⟩
  cases remaining with
  | zero => exact .inr paired.finish
  | succ remaining => exact .inl paired.moves

end Turns

end Link

end ArtifactGate
