import ArtifactGate.Proofs.Session.Proceeding

/-!
Files and the words about them. After a file the client is to say that all is well with it: by a byte that is
neither a warning nor an error, or by a warning in one line. The files that a session finishes are those with such a
word after them, in their order.
-/
namespace ArtifactGate

namespace Wire

/-- The words by which a client says that all is well. -/
inductive Accepts : List UInt8 → Prop
  | status {byte : UInt8} (good : byte ≠ warningStatus) (other : byte ≠ errorStatus) : Accepts [byte]
  | warning {line : List UInt8} {text : String} (unbroken : newline ∉ line) (short : line.length ≤ maxLineLength)
    (decoded : Text.decode? line = some text) : Accepts (warningStatus :: (line ++ [newline]))

theorem Accepts.ne_nil {word : List UInt8} (accepts : Accepts word) : word ≠ [] := by
  cases accepts <;> exact List.cons_ne_nil _ _

namespace Acknowledgement

/-- The word that is read up to here. -/
def word : Acknowledgement → List UInt8
  | .status => []
  | .message isError line => (if isError then errorStatus else warningStatus) :: line.bytes.toList

/-- What is read of a word has no line end and is not too long. -/
def Fits : Acknowledgement → Prop
  | .status => True
  | .message _ line => newline ∉ line.bytes.toList ∧ line.bytes.size ≤ maxLineLength

variable {state next : Acknowledgement} {byte : UInt8}

theorem ne_status_of_more (pushed : state.push byte = .more next) : next ≠ .status := by
  rintro rfl
  cases state with
  | status => rw [push] at pushed; repeat (split at pushed <;> try cases pushed)
  | message isError line => rw [push] at pushed; split at pushed <;> cases pushed

theorem push_more (pushed : state.push byte = .more next) (fits : state.Fits) :
    next.word = state.word ++ [byte] ∧ next.Fits := by
  cases state with
  | status =>
      rw [push] at pushed
      split at pushed
      · cases pushed
        exact ⟨by rw [‹byte = _›]; rfl, List.not_mem_nil, Nat.zero_le _⟩
      · split at pushed <;> cases pushed
        exact ⟨by rw [‹byte = _›]; rfl, List.not_mem_nil, Nat.zero_le _⟩
  | message isError line =>
      rw [push] at pushed
      split at pushed <;> cases pushed
      rename_i line' more
      rw [Line.push] at more
      split at more
      · cases more
      · split at more <;> cases more
        refine ⟨?_, ?_, ?_⟩
        · rw [word, word, Array.toList_push, List.cons_append]
        · rw [Array.toList_push, List.mem_append, List.mem_singleton]
          exact not_or.2 ⟨fits.1, Ne.symm ‹_›⟩
        · rw [Array.size_push]
          exact Nat.lt_of_not_le ‹_›

theorem accepts_of_done (pushed : state.push byte = .done (.ok ())) (fits : state.Fits) :
    Accepts (state.word ++ [byte]) := by
  cases state with
  | status =>
      rw [push] at pushed
      split at pushed
      · cases pushed
      · split at pushed
        · cases pushed
        · exact .status ‹_› ‹_›
  | message isError line =>
      rw [push] at pushed
      split at pushed
      · cases pushed
      · cases pushed
      · rename_i text done
        cases isError with
        | true => cases pushed
        | false =>
            rw [Line.push] at done
            split at done
            · obtain rfl : byte = newline := ‹_›
              rw [Line.text] at done
              split at done <;> cases done
              exact .warning fits.1 fits.2 ‹_›
            · split at done <;> cases done

/-- A word that all is well is read to its end, and no further. -/
theorem push_of_accepts {rest : List UInt8} (accepts : Accepts (state.word ++ byte :: rest)) :
    if rest = [] then state.push byte = .done (.ok ()) else ∃ next, state.push byte = .more next := by
  generalize whole : state.word ++ byte :: rest = word at accepts
  cases accepts with
  | @status good notWarning notError =>
      cases state with
      | status =>
          obtain ⟨rfl, rfl⟩ := List.cons.inj whole
          rw [if_pos rfl, push, if_neg notWarning, if_neg notError]
      | message isError line =>
          obtain ⟨_, none⟩ := List.cons.inj whole
          exact absurd none (List.append_ne_nil_of_right_ne_nil _ (List.cons_ne_nil _ _))
  | @warning line text unbroken short decoded =>
      cases state with
      | status =>
          obtain ⟨rfl, rfl⟩ := List.cons.inj whole
          rw [if_neg (List.append_ne_nil_of_right_ne_nil _ (List.cons_ne_nil _ _))]
          exact ⟨.message false {}, rfl⟩
      | message isError read =>
          obtain ⟨kind, rest'⟩ := List.cons.inj whole
          obtain rfl : isError = false := by cases isError <;> first | rfl | cases kind
          rcases List.eq_nil_or_concat rest with rfl | ⟨more, last, rfl⟩
          · obtain ⟨rfl, same⟩ := List.append_inj' rest' rfl
            obtain rfl := (List.cons.inj same).1
            rw [if_pos rfl, push, Line.push, if_pos rfl, Line.text, decoded]
            rfl
          · have inner : (read.bytes.toList ++ byte :: more) ++ [last] = line ++ [newline] := by
              rw [← rest', List.append_assoc, List.cons_append, List.concat_eq_append]
              rfl
            obtain ⟨rfl, _⟩ := List.append_inj' inner rfl
            have other : byte ≠ newline := by
              rintro rfl
              exact unbroken (List.mem_append_right _ List.mem_cons_self)
            have room : ¬read.bytes.size ≥ maxLineLength := by
              rw [List.length_append, List.length_cons, Array.length_toList] at short
              omega
            rw [if_neg (by
                rw [List.concat_eq_append]
                exact List.append_ne_nil_of_right_ne_nil _ (List.cons_ne_nil _ _)),
              push, Line.push, if_neg other, if_neg room]
            exact ⟨_, rfl⟩

end Acknowledgement

end Wire

variable {σ : Type} [RemoteStore σ]

namespace Session

/-- The file whose last word a session waits for, with the size that is logged, and how far the word has
come. -/
def awaitedWord? : Session → Option (Site × Wire.Acknowledgement)
  | .receiving _ _ ⟨_, _, .lastWord site state⟩ => some (site, state)
  | .sending _ ⟨.fileBody file, state, _⟩ => some (⟨file.node.location, file.content.length⟩, state)
  | _ => none

/-- The file that a byte finishes: it ends a word that all is well. -/
def finishedBy (byte : UInt8) (session : Session) : List Site :=
  match session.awaitedWord? with
  | some (site, state) =>
    match state.push byte with
    | .done (.ok ()) => [site]
    | _ => []
  | none => []

/-- The file that the end of the client's bytes finishes: it stands for the word after an upload. -/
def finishedAtEnd : Ending → Session → List Site
  | .closed, .receiving _ _ ⟨_, _, .lastWord site .status⟩ => [site]
  | _, _ => []

theorem finishedAtEnd_ended (ending : Ending) (result : Except Fault Unit) :
    finishedAtEnd ending (.ended result) = [] := by
  cases ending <;> rfl

theorem finishedAtEnd_silent (session : Session) : finishedAtEnd .silent session = [] :=
  rfl

/-- The files that some bytes finish, in turn. -/
def finished : List UInt8 → Session × Live σ → List Site
  | [], _ => []
  | byte :: rest, state => finishedBy byte state.1 ++ finished rest (feed byte state)

theorem finished_append_singleton (taken : List UInt8) (byte : UInt8) (state : Session × Live σ) :
    finished (taken ++ [byte]) state = finished taken state ++ finishedBy byte (feedAll taken state).1 := by
  induction taken generalizing state with
  | nil => exact List.append_nil _
  | cons first rest ih =>
      rw [List.cons_append, finished, finished, ih, List.append_assoc]
      rfl

section Byte

variable {session : Session} {site : Site} {state next : Wire.Acknowledgement} {byte : UInt8}

/-- The byte ends no word that all is well. -/
def Unfinished (byte : UInt8) (session : Session) : Prop :=
  ∀ site state, session.awaitedWord? = some (site, state) → state.push byte ≠ .done (.ok ())

theorem finishedBy_of_done (awaits : session.awaitedWord? = some (site, state))
    (done : state.push byte = .done (.ok ())) : finishedBy byte session = [site] := by
  rw [finishedBy, awaits]
  simp only [done]

theorem finishedBy_of_unfinished (unfinished : Unfinished byte session) : finishedBy byte session = [] := by
  rw [finishedBy]
  cases awaits : session.awaitedWord? with
  | none => rfl
  | some word =>
      have other := unfinished word.1 word.2 awaits
      dsimp only
      split
      · exact absurd ‹_› other
      · rfl

/-- A word that goes on is awaited on. -/
theorem awaits_more (awaits : session.awaitedWord? = some (site, state)) (more : state.push byte = .more next)
    (live : Live σ) : (feed byte (session, live)).1.awaitedWord? = some (site, next) := by
  cases session with
  | receiving transfer mark receiver =>
      obtain ⟨level, outer, phase⟩ := receiver
      cases phase with
      | lastWord given word =>
          cases awaits
          rw [feed, Receiver.push]
          simp only [more, carryOut, ExceptT.run_pure, Live.run_pure]
          rfl
      | _ => cases awaits
  | sending transfer sender =>
      obtain ⟨pending, word, agenda⟩ := sender
      cases pending with
      | fileBody file =>
          cases awaits
          rw [feed, Sender.push_more more, carryOut, ExceptT.run_pure, Live.run_pure]
          rfl
      | _ => cases awaits
  | ended result => cases awaits

end Byte

end Session

/-- A receiver comes to wait for a word at its beginning, or goes on with it. -/
theorem Receiver.Steps.awaits {granted : String → String → Access → Prop} {receiver next : Receiver} {byte : UInt8}
    {site : Site} {state : Wire.Acknowledgement} (steps : receiver.Steps granted byte (.waiting next))
    (phase : next.phase = .lastWord site state) :
    state = .status ∨ ∃ earlier, receiver.phase = .lastWord site earlier ∧ earlier.push byte = .more state := by
  have begun {file : Incoming} (same : awaited file = .lastWord site state) : state = .status := by
    rw [awaited] at same
    split at same <;> cases same
    rfl
  cases steps with
  | control meaning => cases phase
  | line more => cases phase
  | turn done turns => cases turns <;> cases phase
  | opened done parsed letsIn fresh => exact .inl (begun phase)
  | body => exact .inl (begun phase)
  | word more =>
      cases phase
      exact .inr ⟨_, rfl, more⟩
  | acknowledged done => cases phase

namespace Session

variable {site : Site} {state : Wire.Acknowledgement} {byte : UInt8}

theorem awaits_receiving {transfer : Transfer} {mark : Nat} {receiver : Receiver}
    (awaits : (Session.receiving transfer mark receiver).awaitedWord? = some (site, state)) :
    receiver.phase = .lastWord site state := by
  obtain ⟨level, outer, phase⟩ := receiver
  cases phase with
  | lastWord given word =>
      cases awaits
      rfl
  | _ => cases awaits

/-- A byte makes of a session that receives what the steps say, or the session ends. -/
theorem feed_receives (transfer : Transfer) (mark : Nat) (receiver : Receiver) (byte : UInt8) (live : Live σ) :
    (∃ next, (feed byte (receiving transfer mark receiver, live)).1 = receiving transfer mark next ∧
        receiver.Steps (fun _ _ _ => True) byte (.waiting next)) ∨
      ∃ result, (feed byte (receiving transfer mark receiver, live)).1 = ended result := by
  rcases carryOut_reaches transfer mark (receiver.push transfer byte) (ofProgress (receiving transfer mark))
    live with ⟨progress, after, ran, same⟩ | ⟨fault, after, same⟩ <;> rw [feed, same]
  · have steps := (Live.traces_of_attempts (receiver.push_steps vouches_anyAnswer transfer byte) live).of_run ran
    cases progress with
    | waiting next => exact .inl ⟨next, rfl, steps.2⟩
    | _ => exact .inr ⟨_, rfl⟩
  · exact .inr ⟨_, rfl⟩

/-- A word is awaited from its beginning, or it goes on. -/
theorem awaits_of_feed (before : Session × Live σ) (awaits : (feed byte before).1.awaitedWord? = some (site, state)) :
    state = .status ∨ ∃ earlier, before.1.awaitedWord? = some (site, earlier) ∧ earlier.push byte = .more state := by
  obtain ⟨session, live⟩ := before
  cases session with
  | receiving transfer mark receiver =>
      rcases feed_receives transfer mark receiver byte live with ⟨next, same, steps⟩ | ⟨result, same⟩ <;>
        rw [same] at awaits
      · rcases steps.awaits (awaits_receiving awaits) with status | ⟨earlier, phase, more⟩
        · exact .inl status
        · refine .inr ⟨earlier, ?_, more⟩
          obtain ⟨level, outer, given⟩ := receiver
          obtain rfl : given = .lastWord site earlier := phase
          rfl
      · cases awaits
  | sending transfer sender =>
      obtain ⟨pending, word, agenda⟩ := sender
      rcases feed_sends transfer ⟨pending, word, agenda⟩ byte live with ⟨next, same, stepped⟩ | ⟨result, same⟩ <;>
        rw [same] at awaits
      · rcases stepped with ⟨later, more, _, rfl⟩ | ⟨done, proceeds⟩
        · cases pending with
          | fileBody file =>
              cases awaits
              exact .inr ⟨word, rfl, more⟩
          | _ => cases awaits
        · generalize asked byte (sending transfer _, live) = asks at proceeds
          cases proceeds with
          | @next _ pending _ _ due =>
              cases pending with
              | fileBody file => exact due.elim
              | _ => cases awaits
          | header => cases awaits
          | body whole =>
              cases awaits
              exact .inl rfl
      · cases awaits
  | ended result => cases awaits

section Cuts

variable {start : Session × Live σ} {input cut : List UInt8}

/-- What a session asks for on the last of some bytes. -/
def askedLast (start : Session × Live σ) (taken : List UInt8) : List (Effect × Live σ) :=
  match taken.getLast? with
  | some byte => asked byte (feedAll taken.dropLast start)
  | none => []

theorem askedLast_append_singleton (start : Session × Live σ) (taken : List UInt8) (byte : UInt8) :
    askedLast start (taken ++ [byte]) = asked byte (feedAll taken start) := by
  rw [askedLast, List.getLast?_concat, List.dropLast_concat]

/-- The session has not ended with these bytes. -/
def GoesOn (start : Session × Live σ) (taken : List UInt8) : Prop :=
  ∀ result, (feedAll taken start).1 ≠ .ended result

theorem GoesOn.initial {rest : List UInt8} (goesOn : GoesOn start (cut ++ rest)) : GoesOn start cut := by
  intro result ended
  refine goesOn result ?_
  rw [feedAll_append]
  rcases reached : feedAll cut start with ⟨session, live⟩
  rw [reached] at ended
  obtain rfl : session = .ended result := ended
  rw [feedAll_ended]

/-- The word about a file is to come after these bytes. -/
def AwaitsWord (start : Session × Live σ) (cut : List UInt8) (site : Site) : Prop :=
  (feedAll cut start).1.awaitedWord? = some (site, .status)

/-- The word that all is well comes after the first of some bytes. -/
def Confirmed (input cut : List UInt8) : Prop :=
  ∃ word, Wire.Accepts word ∧ cut ++ word <+: input

theorem Confirmed.extend (confirmed : Confirmed input cut) (more : List UInt8) : Confirmed (input ++ more) cut := by
  obtain ⟨word, accepts, within⟩ := confirmed
  exact ⟨word, accepts, within.trans (List.prefix_append _ _)⟩

/-- A word that all is well is awaited as it comes. -/
theorem AwaitsWord.goesOn (awaits : AwaitsWord start cut site) {word rest : List UInt8}
    (accepts : Wire.Accepts (word ++ byte :: rest)) :
    ∃ state, (feedAll (cut ++ word) start).1.awaitedWord? = some (site, state) ∧ state.word = word ∧ state.Fits := by
  induction word using List.reverseRecOn generalizing byte rest with
  | nil => exact ⟨.status, (List.append_nil cut).symm ▸ awaits, rfl, trivial⟩
  | append_singleton word last ih =>
      rw [List.append_assoc, List.singleton_append] at accepts
      obtain ⟨state, awaited, rfl, fits⟩ := ih accepts
      have more := state.push_of_accepts accepts
      rw [if_neg (List.cons_ne_nil _ _)] at more
      obtain ⟨next, more⟩ := more
      obtain ⟨word, fits⟩ := Wire.Acknowledgement.push_more more fits
      refine ⟨next, ?_, word, fits⟩
      rw [← List.append_assoc, feedAll_append_singleton]
      exact awaits_more awaited more _

/-- The cuts of some bytes after which a file was confirmed, each with its file. A word that is awaited now has begun
after them. -/
structure Cuts (start : Session × Live σ) (input : List UInt8) (cuts : List (Site × List UInt8)) : Prop where
  awaits : ∀ entry ∈ cuts, AwaitsWord start entry.2 entry.1
  confirmed : ∀ entry ∈ cuts, Confirmed input entry.2
  apart : cuts.Pairwise fun earlier later => Confirmed later.2 earlier.2
  complete : ∀ site cut, AwaitsWord start cut site → Confirmed input cut → (site, cut) ∈ cuts
  begun : ∀ site state, (feedAll input start).1.awaitedWord? = some (site, state) →
    ∃ cut, input = cut ++ state.word ∧ state.Fits ∧ AwaitsWord start cut site ∧ ∀ entry ∈ cuts, Confirmed cut entry.2

/-- A word that all is well is over with the last byte, if it was not over before. -/
theorem confirmed_of_push (confirmed : Confirmed (input ++ [byte]) cut) (awaits : AwaitsWord start cut site) :
    Confirmed input cut ∨ ∃ state, (feedAll input start).1.awaitedWord? = some (site, state) ∧
      state.push byte = .done (.ok ()) ∧ input = cut ++ state.word := by
  obtain ⟨word, accepts, within⟩ := confirmed
  rcases List.prefix_concat_iff.1 within with whole | earlier
  · obtain rfl | ⟨word, last, rfl⟩ := List.eq_nil_or_concat word
    · exact absurd rfl accepts.ne_nil
    · rw [List.concat_eq_append] at accepts whole
      rw [← List.append_assoc] at whole
      obtain ⟨rfl, same⟩ := List.append_inj' whole rfl
      obtain rfl := (List.cons.inj same).1
      obtain ⟨state, awaited, rfl, _⟩ := awaits.goesOn accepts
      have done := state.push_of_accepts accepts
      rw [if_pos rfl] at done
      exact .inr ⟨state, awaited, done, rfl⟩
  · exact .inl ⟨word, accepts, earlier⟩

variable {cuts : List (Site × List UInt8)}

theorem Cuts.nil (fresh : start.1.awaitedWord? = none) : Cuts start [] [] where
  awaits := List.forall_mem_nil _
  confirmed := List.forall_mem_nil _
  apart := .nil
  complete := by
    rintro site cut _ ⟨word, accepts, within⟩
    exact absurd (List.append_eq_nil_iff.1 (List.prefix_nil.1 within)).2 accepts.ne_nil
  begun site state awaited := by
    rw [feedAll, List.foldl_nil, fresh] at awaited
    cases awaited

/-- A byte that ends a word that all is well adds its file. -/
theorem Cuts.finish (known : Cuts start input cuts)
    (awaited : (feedAll input start).1.awaitedWord? = some (site, state))
    (done : state.push byte = .done (.ok ())) : ∃ cut, Cuts start (input ++ [byte]) (cuts ++ [(site, cut)]) := by
  obtain ⟨cut, rfl, fits, awaits, after⟩ := known.begun site state awaited
  have confirmed : Confirmed (cut ++ state.word ++ [byte]) cut :=
    ⟨state.word ++ [byte], Wire.Acknowledgement.accepts_of_done done fits, by rw [List.append_assoc]⟩
  have all : ∀ entry ∈ cuts ++ [(site, cut)], Confirmed (cut ++ state.word ++ [byte]) entry.2 :=
    List.forall_mem_append.2 ⟨fun entry member => (known.confirmed entry member).extend _,
      List.forall_mem_singleton.2 confirmed⟩
  refine ⟨cut, ?_, all, ?_, ?_, ?_⟩
  · exact List.forall_mem_append.2 ⟨known.awaits, List.forall_mem_singleton.2 awaits⟩
  · refine List.pairwise_append.2 ⟨known.apart, List.pairwise_singleton _ _, ?_⟩
    exact fun entry member last same => List.mem_singleton.1 same ▸ after entry member
  · intro other place waits ended
    rcases confirmed_of_push ended waits with earlier | ⟨given, also, _, same⟩
    · exact List.mem_append_left _ (known.complete other place waits earlier)
    · obtain ⟨rfl, rfl⟩ := Prod.mk.inj (Option.some.inj (awaited.symm.trans also))
      rw [List.append_cancel_right same]
      exact List.mem_append_right _ List.mem_cons_self
  · intro other next waits
    rw [feedAll_append_singleton] at waits
    rcases awaits_of_feed _ waits with rfl | ⟨earlier, also, more⟩
    · exact ⟨_, (List.append_nil _).symm, trivial, by rw [AwaitsWord, feedAll_append_singleton]; exact waits, all⟩
    · obtain ⟨rfl, rfl⟩ := Prod.mk.inj (Option.some.inj (awaited.symm.trans also))
      rw [done] at more
      cases more

/-- A byte that ends no such word adds nothing. -/
theorem Cuts.go (known : Cuts start input cuts) (unfinished : Unfinished byte (feedAll input start).1) :
    Cuts start (input ++ [byte]) cuts where
  awaits := known.awaits
  confirmed entry member := (known.confirmed entry member).extend _
  apart := known.apart
  complete := by
    intro site cut awaits confirmed
    rcases confirmed_of_push confirmed awaits with earlier | ⟨state, awaited, done, _⟩
    · exact known.complete site cut awaits earlier
    · exact absurd done (unfinished site state awaited)
  begun := by
    intro site state awaited
    rw [feedAll_append_singleton] at awaited
    rcases awaits_of_feed _ awaited with rfl | ⟨earlier, before, more⟩
    · refine ⟨_, (List.append_nil _).symm, trivial, ?_, fun entry member => (known.confirmed entry member).extend _⟩
      rw [AwaitsWord, feedAll_append_singleton]
      exact awaited
    · obtain ⟨cut, rfl, fits, awaits, after⟩ := known.begun site earlier before
      obtain ⟨word, fits⟩ := Wire.Acknowledgement.push_more more fits
      exact ⟨cut, by rw [word, List.append_assoc], fits, awaits, after⟩

/-- The files that some bytes finish are those that are confirmed in them. -/
theorem cuts_of_finished (fresh : start.1.awaitedWord? = none) (input : List UInt8) :
    ∃ cuts, Cuts start input cuts ∧ finished input start = cuts.map Prod.fst := by
  induction input using List.reverseRecOn with
  | nil => exact ⟨[], .nil fresh, rfl⟩
  | append_singleton input byte ih =>
      obtain ⟨cuts, known, files⟩ := ih
      rw [finished_append_singleton, files]
      by_cases unfinished : Unfinished byte (feedAll input start).1
      · rw [finishedBy_of_unfinished unfinished, List.append_nil]
        exact ⟨cuts, known.go unfinished, rfl⟩
      · simp only [Unfinished, not_forall, not_not] at unfinished
        obtain ⟨site, state, awaited, done⟩ := unfinished
        obtain ⟨cut, known⟩ := known.finish awaited done
        rw [finishedBy_of_done awaited done]
        exact ⟨_, known, by rw [List.map_append]; rfl⟩

end Cuts

end Session

end ArtifactGate
