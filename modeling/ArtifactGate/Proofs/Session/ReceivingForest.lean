import ArtifactGate.Proofs.Session.Receiving

/-!
A receiver takes a whole forest: by induction on the forest, from one moment between two files to the next.
What it has stored by then lies at the names that were sent, so that the names still to come are vacant.
-/
namespace ArtifactGate

namespace Label

def properties (label : Label) (transfer : Transfer) (length : Nat) : Properties :=
  (SortedMap.empty.insertAll
    (Receiver.fileProperties transfer (label.header length) label.times).entries).insert
      Node.uploadedBy transfer.login.user

def timesBeats (label : Label) : List Beat :=
  match label.times with
  | some times => Beat.line 84 times.fields [Wire.okStatus]
  | none => []

end Label

namespace Forest

def beats (transfer : Transfer) (location : Location) : Forest → List Beat
  | nil => []
  | warning text rest => Beat.line Wire.warningStatus text [] ++ rest.beats transfer location
  | file label bytes rest =>
    label.timesBeats ++
      (Beat.line 67 (label.header bytes.length).fields (Wire.okStatus :: Beat.bodyAnswer bytes) ++
        (Beat.body bytes ++
          { byte := Wire.okStatus
            logged := [transfer.successRecord ⟨location.child label.name, bytes.length⟩] } ::
          rest.beats transfer location))
  | directory label inside rest =>
    label.timesBeats ++
      (Beat.line 68 (label.header 0).fields [Wire.okStatus] ++
        (inside.beats transfer (location.childDirectory label.name) ++
          (Beat.line 69 "" [Wire.okStatus] ++ rest.beats transfer location)))

/-- The bodies a store accepts for a forest that is put below a directory. -/
def deposits (transfer : Transfer) (location : Location) : Forest → List Deposit
  | nil => []
  | warning _ rest => rest.deposits transfer location
  | file label bytes rest =>
    ⟨location.child label.name, label.properties transfer bytes.length, bytes⟩ ::
      rest.deposits transfer location
  | directory label inside rest =>
    inside.deposits transfer (location.childDirectory label.name) ++ rest.deposits transfer location

theorem bytes_timesBeats (label : Label) : Beat.bytes label.timesBeats = label.timesBytes := by
  rw [Label.timesBeats, Label.timesBytes]
  cases label.times with
  | none => rfl
  | some times =>
      dsimp only
      rw [Beat.bytes_line, Wire.Timestamps.format_eq, Wire.lineBytes, Wire.lineBytes, Text.encode_append]
      rfl

theorem bytes_header {kind : Char} {first : UInt8} (single : Text.encode kind.toString = [first])
    (header : Wire.Header) (sent : List UInt8) :
    Beat.bytes (Beat.line first header.fields sent) = Wire.lineBytes (header.format kind) := by
  rw [Beat.bytes_line, Wire.Header.format_eq, Wire.lineBytes, Wire.lineBytes, Text.encode_append, single]
  rfl

theorem bytes_beats (transfer : Transfer) (forest : Forest) (location : Location) :
    Beat.bytes (forest.beats transfer location) = forest.encode := by
  induction forest generalizing location with
  | nil => rfl
  | warning text rest ih =>
      rw [beats, encode, Beat.bytes_append, Beat.bytes_line, ih]
      rfl
  | file label bytes rest ih =>
      have last (beat : Beat) : Beat.bytes (beat :: rest.beats transfer location) =
          beat.byte :: rest.encode := congrArg (List.cons beat.byte) (ih location)
      rw [beats, encode, Beat.bytes_append, Beat.bytes_append, Beat.bytes_append, bytes_timesBeats,
        @bytes_header 'C' 67 (by decide), Beat.bytes_body, last]
      simp only [List.append_assoc]
  | directory label inside rest ihInside ih =>
      rw [beats, encode, Beat.bytes_append, Beat.bytes_append, Beat.bytes_append, Beat.bytes_append,
        bytes_timesBeats, @bytes_header 'D' 68 (by decide), ihInside, ih, Beat.bytes_line]
      simp only [List.append_assoc]
      rfl

theorem deposits_files (transfer : Transfer) {forest : Forest} (distinct : forest.Distinct) (location : Location) :
    (forest.deposits transfer location).map (fun deposit => (deposit.location, deposit.bytes)) =
      forest.files.map fun file => (location.descend file.1, file.2) := by
  induction forest generalizing location with
  | nil => rfl
  | warning text rest ih => exact ih distinct location
  | file label bytes rest ih =>
      rw [deposits, files, List.map_cons, List.map_cons, ih distinct.2.2, Location.descend_singleton]
  | directory label inside rest ihInside ih =>
      obtain ⟨segment, distinctInside, _, distinctRest⟩ := distinct
      rw [deposits, files, List.map_append, List.map_append, ihInside distinctInside, ih distinctRest, List.map_map]
      refine congrArg (· ++ _) (List.map_congr_left fun file member => ?_)
      obtain ⟨first, names, split, _⟩ := names_of_mem_files distinctInside member
      rw [Function.comp_apply, Location.descend_cons segment (split ▸ List.cons_ne_nil _ _)]

theorem covers_of_mem_deposits (transfer : Transfer) {forest : Forest} (distinct : forest.Distinct)
    (location : Location) {deposit : Deposit} (member : deposit ∈ forest.deposits transfer location) :
    deposit.location.repository = location.repository ∧
      ∃ name ∈ forest.names, (location.child name).Covers deposit.location.path.toList := by
  have placed := List.mem_map_of_mem (f := fun deposit => (deposit.location, deposit.bytes)) member
  rw [deposits_files transfer distinct] at placed
  obtain ⟨file, among, same⟩ := List.mem_map.1 placed
  have place : location.descend file.1 = deposit.location := congrArg Prod.fst same
  obtain ⟨first, names, split, outermost, _⟩ := names_of_mem_files distinct among
  rw [← place, split]
  exact ⟨rfl, first, outermost, Location.covers_descend (segment_of_mem_names distinct outermost) names⟩

end Forest

section Steps

variable {repository : String} {goal : Session → Live MemoryStore → Prop} {beats : List Beat}
  {transfer : Transfer} {mark : Nat} {live : Live MemoryStore} {level : Level} {outer : List Level}
  {label : Label} {bytes : List UInt8}

namespace Receiver

theorem sendOk_goesOn {receiver : Receiver} (receives : live.Receives transfer.login.user repository)
    (next : ∀ after : Live MemoryStore, after.Receives transfer.login.user repository →
      Gains live.gateway.store [] after.gateway.store →
      Session.Follows (.receiving repository) goal beats (.receiving transfer mark receiver) after) :
    live.Gives (do Step.unlogged sendOk; return .waiting receiver : Step (Progress Receiver))
      (GoesOn repository goal transfer mark beats live [Wire.okStatus] []) := by
  apply (Live.gives_sendOk receives.unlimited).adapt.bind
  intro _ after asks
  exact Live.Gives.pure ⟨receiver, [], rfl, asks.passage, List.forall_mem_nil _,
    next after (asks.receives receives) asks.consulted.gains⟩

theorem follows_lastWord {site : Site} (receives : live.Receives transfer.login.user repository)
    (next : ∀ after : Live MemoryStore, after.Receives transfer.login.user repository →
      Gains live.gateway.store [] after.gateway.store →
      Session.Follows (.receiving repository) goal beats (.receiving transfer mark ⟨level, outer, .control⟩)
        after) :
    Session.Follows (.receiving repository) goal
      ({ byte := Wire.okStatus, logged := [transfer.successRecord site] } :: beats)
      (.receiving transfer mark ⟨level, outer, .lastWord site .status⟩) live := by
  apply follows_push
  intro gateway consulted
  have word : push transfer ⟨level, outer, .lastWord site .status⟩ Wire.okStatus =
      (do transfer.logSuccess site; return .waiting ⟨level, outer, .control⟩) := rfl
  rw [word]
  apply (Live.gives_logSuccess transfer site).bind
  intro _ after asks
  exact Live.Gives.pure ⟨_, [], rfl, asks.passage, List.forall_mem_nil _,
    next after (asks.receives (receives.consulted consulted))
      (nothing_then_gains consulted.gains asks.consulted.gains)⟩

theorem follows_times {target : Node} (inRange : ∀ times, label.times = some times → times.InRange)
    (receives : live.Receives transfer.login.user repository)
    (next : ∀ after : Live MemoryStore, after.Receives transfer.login.user repository →
      Gains live.gateway.store [] after.gateway.store →
      Session.Follows (.receiving repository) goal beats
        (.receiving transfer mark ⟨{ target, times := label.times }, outer, .control⟩) after) :
    Session.Follows (.receiving repository) goal (label.timesBeats ++ beats)
      (.receiving transfer mark ⟨{ target }, outer, .control⟩) live := by
  rw [Label.timesBeats]
  cases sent : label.times with
  | none =>
      rw [sent] at next
      exact next live receives (DepositStore.gains_refl _)
  | some times =>
      rw [sent] at next
      refine follows_line .times rfl times.newline_not_mem_fields
        (Wire.Timestamps.length_fields_le (inRange times sent)) fun gateway consulted => ?_
      rw [onLine, Wire.Timestamps.parse_fields (inRange times sent)]
      apply sendOk_goesOn (receives.consulted consulted)
      intro after receives gains
      exact next after receives (nothing_then_gains consulted.gains gains)

theorem openFile_goesOn {target : Node} (takes : target.Takes transfer.login.user repository)
    (receives : live.Receives transfer.login.user repository) (valid : label.Valid bytes.length)
    (vacant : live.gateway.store.Vacant (target.location.child label.name))
    (next : ∀ after : Live MemoryStore, after.Receives transfer.login.user repository →
      Gains live.gateway.store
        [⟨target.location.child label.name, label.properties transfer bytes.length, bytes⟩]
        after.gateway.store →
      Session.Follows (.receiving repository) goal beats
        (.receiving transfer mark ⟨{ target }, outer,
          .lastWord ⟨target.location.child label.name, bytes.length⟩ .status⟩) after) :
    live.Gives (openFile transfer ⟨{ target, times := label.times }, outer, .control⟩ (label.header bytes.length))
      (GoesOn repository goal transfer mark (Beat.body bytes ++ beats) live
        (Wire.okStatus :: Beat.bodyAnswer bytes) []) := by
  have within : (target.location.child label.name).repository = repository :=
    (target.location.child_repository label.name).trans takes.inside.within
  rw [openFile]
  apply (gives_fileTarget takes receives valid.named vacant).logging.bind
  rintro _ chosen ⟨known, asks⟩
  subst known
  apply Live.Gives.logging
  rw [beginFile]
  apply (gives_openWrite ⟨rfl, within, takes.inside.outside⟩ rfl (asks.receives receives)).bind
  rintro writer begun ⟨number, same, busy, uploading, passage⟩
  subst same
  have serves := passage.serves (asks.receives receives).toServes
  apply (Live.gives_sendOk serves.unlimited).bind
  intro _ after answered
  have opened : live.Passage [Wire.okStatus] [] [] after :=
    asks.passage.trans (passage.trans answered.passage)
  refine (awaitBody_goesOn bytes rfl rfl (answered.passage.serves serves) (answered.consulted.busy busy)
    (answered.consulted.uploading uploading) within ?_).mono
    fun _ _ goesOn => goesOn.after opened (List.forall_mem_nil _)
  intro last received gains
  exact next last received (nothing_then_gains opened.gains gains)

theorem enter_goesOn {target : Node} (recursive : transfer.command.recursive = true)
    (takes : target.Takes transfer.login.user repository)
    (receives : live.Receives transfer.login.user repository) (valid : label.Valid 0)
    (vacant : live.gateway.store.Vacant (target.location.child label.name))
    (next : ∀ (directory : Node) (after : Live MemoryStore), directory.Takes transfer.login.user repository →
      directory.location = target.location.childDirectory label.name →
      after.Receives transfer.login.user repository → Gains live.gateway.store [] after.gateway.store →
      Session.Follows (.receiving repository) goal beats
        (.receiving transfer mark ⟨{ target := directory }, { target } :: outer, .control⟩) after) :
    live.Gives (enter transfer ⟨{ target, times := label.times }, outer, .control⟩ (label.header 0))
      (GoesOn repository goal transfer mark beats live [Wire.okStatus] []) := by
  rw [enter]
  apply Live.Gives.accepted (by simp [recursive])
  apply (gives_directoryTarget takes receives valid.named valid.segment vacant).adapt.bind
  rintro directory found ⟨inside, place, asks⟩
  refine (sendOk_goesOn (asks.receives receives) fun after received gains => ?_).mono
    fun _ _ goesOn => goesOn.after asks.passage (List.forall_mem_nil _)
  exact next directory after inside place received (nothing_then_gains asks.consulted.gains gains)

/-- A file of a forest: its times, its line, its bytes and the client's last word. -/
theorem follows_file {target : Node} (takes : target.Takes transfer.login.user repository)
    (receives : live.Receives transfer.login.user repository) (valid : label.Valid bytes.length)
    (vacant : live.gateway.store.Vacant (target.location.child label.name))
    (next : ∀ after : Live MemoryStore, after.Receives transfer.login.user repository →
      Gains live.gateway.store
        [⟨target.location.child label.name, label.properties transfer bytes.length, bytes⟩]
        after.gateway.store →
      Session.Follows (.receiving repository) goal beats
        (.receiving transfer mark ⟨{ target }, outer, .control⟩) after) :
    Session.Follows (.receiving repository) goal
      (label.timesBeats ++
        (Beat.line 67 (label.header bytes.length).fields (Wire.okStatus :: Beat.bodyAnswer bytes) ++
          (Beat.body bytes ++
            { byte := Wire.okStatus
              logged := [transfer.successRecord ⟨target.location.child label.name, bytes.length⟩] } :: beats)))
      (.receiving transfer mark ⟨{ target }, outer, .control⟩) live := by
  apply follows_times valid.inRange receives
  intro timed timedReceives timedGains
  apply follows_line .file rfl valid.newline_not_mem_fields valid.short
  intro gateway consulted
  have earlier := nothing_then_gains timedGains consulted.gains
  rw [onLine, valid.parse_file]
  refine openFile_goesOn takes (timedReceives.consulted consulted) valid
    (vacant.of_holds earlier (List.forall_mem_nil _)) fun stored storedReceives storedGains => ?_
  apply follows_lastWord storedReceives
  intro after received lastGains
  exact next after received (gains_then_nothing (nothing_then_gains earlier storedGains) lastGains)

/-- The line that opens a directory, with its times. -/
theorem follows_entering {target : Node} (recursive : transfer.command.recursive = true)
    (takes : target.Takes transfer.login.user repository)
    (receives : live.Receives transfer.login.user repository) (valid : label.Valid 0)
    (vacant : live.gateway.store.Vacant (target.location.child label.name))
    (next : ∀ (directory : Node) (after : Live MemoryStore), directory.Takes transfer.login.user repository →
      directory.location = target.location.childDirectory label.name →
      after.Receives transfer.login.user repository → Gains live.gateway.store [] after.gateway.store →
      Session.Follows (.receiving repository) goal beats
        (.receiving transfer mark ⟨{ target := directory }, { target } :: outer, .control⟩) after) :
    Session.Follows (.receiving repository) goal
      (label.timesBeats ++ (Beat.line 68 (label.header 0).fields [Wire.okStatus] ++ beats))
      (.receiving transfer mark ⟨{ target }, outer, .control⟩) live := by
  apply follows_times valid.inRange receives
  intro timed timedReceives timedGains
  refine follows_line .directory rfl valid.newline_not_mem_fields valid.short fun gateway consulted => ?_
  have earlier := nothing_then_gains timedGains consulted.gains
  rw [onLine, valid.parse_directory]
  apply enter_goesOn recursive takes (timedReceives.consulted consulted) valid
    (vacant.of_holds earlier (List.forall_mem_nil _))
  intro directory entered within place enteredReceives enteredGains
  exact next directory entered within place enteredReceives (nothing_then_gains earlier enteredGains)

/-- The line that closes a directory. -/
theorem follows_leaving {inner : Level} (receives : live.Receives transfer.login.user repository)
    (next : ∀ after : Live MemoryStore, after.Receives transfer.login.user repository →
      Gains live.gateway.store [] after.gateway.store →
      Session.Follows (.receiving repository) goal beats (.receiving transfer mark ⟨level, outer, .control⟩)
        after) :
    Session.Follows (.receiving repository) goal (Beat.line 69 "" [Wire.okStatus] ++ beats)
      (.receiving transfer mark ⟨inner, level :: outer, .control⟩) live := by
  apply follows_line .leave rfl (by decide) (Nat.zero_le _)
  intro gateway consulted
  apply sendOk_goesOn (receives.consulted consulted)
  intro after received gains
  exact next after received (nothing_then_gains consulted.gains gains)

end Receiver

end Steps

theorem MemoryStore.Vacant.beside {before after : MemoryStore} {location : Location} {name other : String}
    {deposits : List Deposit} (vacant : before.Vacant (location.child other))
    (holds : before.Holds deposits after) (segment : IsSegment name) (otherSegment : IsSegment other)
    (differs : name ≠ other)
    (below : ∀ deposit ∈ deposits, (location.child name).Covers deposit.location.path.toList) :
    after.Vacant (location.child other) :=
  vacant.of_holds holds fun deposit member _ covers =>
    differs (Location.eq_of_covers segment otherSegment (below deposit member) covers)

variable {repository : String} {goal : Session → Live MemoryStore → Prop} {transfer : Transfer} {mark : Nat}

theorem Receiver.follows_forest (recursive : transfer.command.recursive = true) {forest : Forest}
    (valid : forest.Valid) {target : Node} {outer : List Level} {live : Live MemoryStore} {beats : List Beat}
    (takes : target.Takes transfer.login.user repository)
    (receives : live.Receives transfer.login.user repository)
    (vacant : ∀ name ∈ forest.names, live.gateway.store.Vacant (target.location.child name))
    (next : ∀ after : Live MemoryStore, after.Receives transfer.login.user repository →
      Gains live.gateway.store (forest.deposits transfer target.location) after.gateway.store →
      Session.Follows (.receiving repository) goal beats
        (.receiving transfer mark ⟨{ target }, outer, .control⟩) after) :
    Session.Follows (.receiving repository) goal (forest.beats transfer target.location ++ beats)
      (.receiving transfer mark ⟨{ target }, outer, .control⟩) live := by
  induction forest generalizing target outer live beats with
  | nil => exact next live receives (DepositStore.gains_refl _)
  | warning text rest ih =>
      obtain ⟨⟨unbroken, short⟩, validRest⟩ := valid
      rw [Forest.beats, List.append_assoc]
      apply follows_line .warning rfl unbroken short
      intro gateway consulted
      refine Live.Gives.pure ⟨_, [], rfl, (Live.Asks.refl _).passage, List.forall_mem_nil _, ?_⟩
      refine ih validRest takes (receives.consulted consulted)
        (fun name member => consulted.vacant (vacant name member)) fun after received gains => ?_
      exact next after received (nothing_then_gains consulted.gains gains)
  | file label bytes rest ih =>
      obtain ⟨validLabel, fresh, validRest⟩ := valid
      obtain ⟨here, others⟩ := List.forall_mem_cons.1 vacant
      simp only [Forest.beats, List.append_assoc, List.cons_append]
      refine follows_file takes receives validLabel here fun after received gains => ?_
      refine ih validRest takes received (fun name member => ?_) fun last lastReceived rest => ?_
      · refine (others name member).beside gains validLabel.segment
          (Forest.segment_of_mem_names validRest.distinct member) (fun same => fresh (same ▸ member)) ?_
        refine List.forall_mem_singleton.2 ((Location.covers_child _ validLabel.segment).2 (.inl ?_))
        rw [Location.child_eq, String.toList_ofList]
      · exact next last lastReceived (DepositStore.gains_trans gains rest)
  | directory label inside rest ihInside ih =>
      obtain ⟨validLabel, validInside, fresh, validRest⟩ := valid
      obtain ⟨here, others⟩ := List.forall_mem_cons.1 vacant
      simp only [Forest.beats, List.append_assoc]
      apply follows_entering recursive takes receives validLabel here
      intro directory entered within place enteredReceives enteredGains
      rw [← place]
      refine ihInside validInside within enteredReceives (fun name member => ?_) ?_
      · intro entry stored same covers
        rw [place] at same covers
        rw [Location.child_repository, Location.childDirectory_repository,
          ← target.location.child_repository label.name] at same
        have segment := Forest.segment_of_mem_names validInside.distinct member
        exact here.of_holds enteredGains (List.forall_mem_nil _) entry stored same
          (Location.covers_of_inside validLabel.segment segment covers)
      · intro filled filledReceives filledGains
        apply follows_leaving filledReceives
        intro after received lastGains
        rw [place] at filledGains
        have gains := gains_then_nothing (nothing_then_gains enteredGains filledGains) lastGains
        refine ih validRest takes received (fun name member => ?_) fun last lastReceived rest => ?_
        · refine (others name member).beside gains validLabel.segment
            (Forest.segment_of_mem_names validRest.distinct member) (fun same => fresh (same ▸ member)) ?_
          intro deposit among
          obtain ⟨_, inner, outermost, covers⟩ := Forest.covers_of_mem_deposits transfer validInside.distinct _ among
          exact Location.covers_of_inside validLabel.segment
            (Forest.segment_of_mem_names validInside.distinct outermost) covers
        · exact next last lastReceived (DepositStore.gains_trans gains rest)

end ArtifactGate
