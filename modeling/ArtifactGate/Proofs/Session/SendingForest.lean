import ArtifactGate.Proofs.Session.Listing
import ArtifactGate.Proofs.Session.Sending

/-!
A sender sends a whole forest: by induction on the forest, from one node on the agenda to the next. A
directory puts its nodes before what was on the agenda, and its end between the two.
-/
namespace ArtifactGate

/-- The times that are sent with what has this metadata, if times are sent. -/
def Transfer.timesOf (transfer : Transfer) (metadata : Metadata) : Option Wire.Timestamps :=
  let seconds (moment : Option Instant) : Int := (moment.map Instant.seconds).getD 0
  if transfer.command.preserve then
    some
      { modified := seconds metadata.modified
        accessed := seconds (metadata.updated <|> metadata.modified) }
  else none

def Label.timesDeliveries (label : Label) : List Delivery :=
  match label.times with
  | some times => [{ message := Wire.lineBytes times.format }]
  | none => []

/-- A directory around what is sent inside it, and what is sent after it. -/
def Label.around (label : Label) (inside rest : List Delivery) : List Delivery :=
  label.timesDeliveries ++
    { message := Wire.lineBytes ((label.header 0).format 'D') } ::
      (inside ++ { message := Wire.lineBytes "E" } :: rest)

namespace Forest

/-- The nodes by which a gateway lists a forest below a directory. -/
def nodes (origin : Gateway MemoryStore) (user : String) (location : Location) : Forest → List Node
  | nil => []
  | warning _ rest => rest.nodes origin user location
  | file label _ rest => origin.nodeAt user (location.child label.name) :: rest.nodes origin user location
  | directory label _ rest =>
    origin.nodeAt user (location.childDirectory label.name) :: rest.nodes origin user location

/-- What is sent of a forest below a directory, each after the acknowledgement of the one before. -/
def deliveries (transfer : Transfer) (location : Location) : Forest → List Delivery
  | nil => []
  | warning _ rest => rest.deliveries transfer location
  | file label bytes rest =>
    label.timesDeliveries ++
      { message := Wire.lineBytes ((label.header bytes.length).format 'C') } ::
        { message := bytes ++ [Wire.okStatus]
          logged := [transfer.successRecord ⟨location.child label.name, bytes.length⟩] } ::
          rest.deliveries transfer location
  | directory label inside rest =>
    label.around (inside.deliveries transfer (location.childDirectory label.name))
      (rest.deliveries transfer location)

end Forest

theorem Label.around_append (label : Label) (inside rest further : List Delivery) :
    label.around inside rest ++ further = label.around inside (rest ++ further) := by
  simp only [around, List.append_assoc, List.cons_append]

namespace Sender

variable {live : Live MemoryStore} {origin : Gateway MemoryStore} {transfer : Transfer} {user filled : String}
  {deliveries rest : List Delivery} {agenda : List Job} {pending : Pending} {location : Location}
  {metadata : Metadata} {label : Label} {bytes : List UInt8}

theorem wireName_nodeAt (free : '/' ∉ location.name.toList) (user : String) :
    (origin.nodeAt user location).wireName = location.name := by
  have others : ∀ c ∈ location.name.toList, (!Location.isSlash c) = true := by
    intro c member
    rw [Location.isSlash_of_slashless free member]
    rfl
  have start : ∀ c, [].getLast? = some c → (!Location.isSlash c) = false := by
    intro c absent
    cases absent
  have taken := Text.takeTrailing_of_all others start
  rw [List.nil_append] at taken
  exact (congrArg String.ofList taken).trans String.ofList_toList

theorem nodeAt_described (described : origin.described location = .ok metadata) (user : String) :
    origin.nodeAt user location = .ofRemote user location (some metadata) := by
  rw [Gateway.nodeAt, described]
  rfl

theorem continues_times {ε : Type} {repository : String} (shows : live.Shows origin user repository)
    (apart : repository ≠ filled) {node : Node} (known : node.metadata = some metadata)
    (times : label.times = transfer.timesOf metadata) {sends : ExceptT ε Action Unit}
    (sent : live.Gives sends fun _ after => live.Asks (Wire.lineBytes (timesLine node)) [] after)
    {header : ExceptT ε Action (Progress Sender)}
    (next : Continues filled transfer [] deliveries header live)
    (goesOn : ∀ after, after.Shows origin user repository →
      Continues filled transfer [] deliveries (acknowledged transfer agenda pending) after) :
    Continues filled transfer [] (label.timesDeliveries ++ deliveries)
      (if transfer.command.preserve then (do sends; return await pending agenda) else header) live := by
  rw [Label.timesDeliveries, times, Transfer.timesOf]
  cases transfer.command.preserve with
  | false => exact next
  | true =>
      have line : timesLine node = Wire.Timestamps.format
          { modified := (metadata.modified.map Instant.seconds).getD 0
            accessed := ((metadata.updated <|> metadata.modified).map Instant.seconds).getD 0 } := by
        rw [timesLine, Node.modified?, Node.accessed?, known]
        rfl
      rw [line] at sent
      exact continues_send shows apart sent goesOn

theorem continues_file (shows : live.Shows origin user location.repository) (apart : location.repository ≠ filled)
    (described : origin.described location = .ok metadata) (isFile : metadata.isDirectory = false)
    (retrieved : origin.store.retrieve location = .ok { length := some bytes.length, bytes })
    (times : label.times = transfer.timesOf metadata) (permissions : label.permissions = filePermissions)
    (named : (origin.nodeAt user location).wireName = label.name)
    (next : ∀ after, after.Shows origin user location.repository →
      Continues filled transfer [] rest (proceed transfer agenda) after) :
    Continues filled transfer [] (label.timesDeliveries ++
      { message := Wire.lineBytes ((label.header bytes.length).format 'C') } ::
        { message := bytes ++ [Wire.okStatus]
          logged := [transfer.successRecord ⟨location, bytes.length⟩] } :: rest)
      (beginNode transfer (origin.nodeAt user location) agenda) live := by
  have node := nodeAt_described described user
  have file : (origin.nodeAt user location).isFile = true := by
    rw [node, Node.ofRemote, Node.isFile]
    simp only [isFile, Bool.not_false]
  let outgoing : Outgoing := { node := origin.nodeAt user location, content := { length := bytes.length, bytes } }
  have header : Wire.lineBytes ((label.header bytes.length).format 'C') =
      Wire.lineBytes (fileHeader outgoing) := by
    rw [fileHeader, named, Label.header, permissions]
  have body : ∀ after, after.Shows origin user location.repository → Continues filled transfer []
      ({ message := bytes ++ [Wire.okStatus]
         logged := [transfer.successRecord ⟨location, bytes.length⟩] } :: rest)
      (acknowledged transfer agenda (.fileHeader outgoing)) after := by
    intro live shows
    refine Continues.logging ?_ outgoing.node.site
    rw [sendBody]
    have whole : outgoing.content.bytes.take outgoing.content.length = bytes := List.take_length
    rw [whole]
    apply Continues.behind (Live.gives_send shows.unlimited bytes)
    intro after asks
    simp only [outgoing, Nat.lt_irrefl, if_false]
    apply continues_send (shows.asks asks) apart (Live.gives_sendOk (shows.asks asks).unlimited)
    intro last shown
    apply Continues.bind ((Live.gives_logSuccess transfer _).mono fun _ _ asks => ⟨trivial, asks⟩)
    exact fun _ final _ asks => next final (shown.asks asks)
  have sendsHeader : ∀ after, after.Shows origin user location.repository → Continues filled transfer []
      ({ message := Wire.lineBytes ((label.header bytes.length).format 'C') } ::
        { message := bytes ++ [Wire.okStatus]
          logged := [transfer.successRecord ⟨location, bytes.length⟩] } :: rest)
      (sendFileHeader outgoing agenda) after := by
    intro live shows
    rw [header]
    exact continues_send shows apart (Live.gives_send shows.unlimited _) body
  rw [beginNode, if_pos file]
  refine Continues.logging ?_ outgoing.node.site
  rw [beginFile]
  apply Continues.bind (gives_openRead shows retrieved)
  intro content after known asks
  subst known
  have shown := shows.asks asks
  exact continues_times shown apart (congrArg Node.metadata node) times (Live.gives_send shown.unlimited _)
    (sendsHeader after shown) fun last shown => (sendsHeader last shown).logging outgoing.node.site

/-- The nodes of a forest are what the entries of its directory stand for. -/
theorem nodes_eq_fetched (forest : Forest) (shows : live.Shows origin user location.repository)
    (outside : location.isSink = false) :
    forest.entries.map (fun entry =>
      live.gateway.fetched user ((origin.nodeAt user location).entryLocation entry)) =
        forest.nodes origin user location := by
  have fetched (entry : Entry) : live.gateway.fetched user ((origin.nodeAt user location).entryLocation entry) =
      origin.nodeAt user ((origin.nodeAt user location).entryLocation entry) := by
    have within := (origin.nodeAt user location).entryLocation_repository entry
    have here : ((origin.nodeAt user location).entryLocation entry).isSink = false := by
      rw [Location.isSink, within]
      exact outside
    rw [Gateway.fetched_outside here, Gateway.nodeAt, shows.described _ within, ← Gateway.nodeAt]
  simp only [fetched]
  induction forest with
  | nil => rfl
  | warning text rest ih => exact ih
  | file label bytes rest ih => exact congrArg (List.cons _) ih
  | directory label inside rest _ ih => exact congrArg (List.cons _) ih

theorem yields_children (forest : Forest) (shows : live.Shows origin user location.repository)
    (outside : location.isSink = false) :
    live.Yields ((origin.nodeAt user location).childrenOf forest.entries) fun found after =>
      found = forest.nodes origin user location ∧ live.Asks [] [] after := by
  obtain ⟨_, after, ran, rfl, asks⟩ :=
    Live.yields_childrenOf shows.reliable (origin.nodeAt user location) forest.entries
  exact ⟨_, after, ran, nodes_eq_fetched forest shows outside, asks⟩

theorem continues_directory (recursive : transfer.command.recursive = true)
    (shows : live.Shows origin user location.repository) (apart : location.repository ≠ filled)
    (outside : location.isSink = false) (described : origin.described location = .ok metadata)
    (isDirectory : metadata.isDirectory = true) {inside : Forest} (entries : metadata.entries = inside.entries)
    (times : label.times = transfer.timesOf metadata) (permissions : label.permissions = directoryPermissions)
    (named : (origin.nodeAt user location).wireName = label.name)
    (within : ∀ {live : Live MemoryStore} {rest : List Delivery} {agenda : List Job},
      live.Shows origin user location.repository →
      (∀ after, after.Shows origin user location.repository →
        Continues filled transfer [] rest (proceed transfer agenda) after) →
      Continues filled transfer [] (inside.deliveries transfer location ++ rest)
        (proceed transfer ((inside.nodes origin user location).map .node ++ agenda)) live)
    (next : ∀ after, after.Shows origin user location.repository →
      Continues filled transfer [] rest (proceed transfer agenda) after) :
    Continues filled transfer [] (label.around (inside.deliveries transfer location) rest)
      (beginNode transfer (origin.nodeAt user location) agenda) live := by
  have node := nodeAt_described described user
  have known : (origin.nodeAt user location).metadata = some metadata := congrArg Node.metadata node
  have noFile : (origin.nodeAt user location).isFile = false := by
    rw [Node.isFile, known]
    simp only [isDirectory, Bool.not_true]
  have header : Wire.lineBytes ((label.header 0).format 'D') =
      Wire.lineBytes (directoryHeader (origin.nodeAt user location)) := by
    rw [directoryHeader, named, Label.header, permissions]
  have accepted : live.Gives (liftM (refusal? transfer (origin.nodeAt user location)) : Step (Option Fault))
      fun fault after => fault = none ∧ live.Asks [] [] after := by
    apply Live.Gives.lift
    rw [refusal?, Node.exists?, known, recursive]
    apply (Live.yields_allows rfl shows.granted).bind
    rintro allowed after ⟨yes, same⟩
    subst yes same
    exact Live.Yields.pure ⟨rfl, .refl after⟩
  have children : ∀ after, after.Shows origin user location.repository → Continues filled transfer []
      (inside.deliveries transfer location ++ { message := Wire.lineBytes "E" } :: rest)
      (acknowledged transfer agenda (.directoryHeader (origin.nodeAt user location))) after := by
    intro live shows
    rw [acknowledged, Node.children, known]
    simp only [entries]
    apply Continues.bind (Live.Gives.lift (yields_children inside shows outside))
    intro found after known asks
    subst known
    exact within (shows.asks asks) fun last shown =>
      continues_send shown apart (Live.gives_send shown.unlimited _).adapt next
  have sendsHeader : ∀ after, after.Shows origin user location.repository → Continues filled transfer []
      ({ message := Wire.lineBytes ((label.header 0).format 'D') } ::
        (inside.deliveries transfer location ++ { message := Wire.lineBytes "E" } :: rest))
      (sendDirectoryHeader (origin.nodeAt user location) agenda) after := by
    intro live shows
    rw [header]
    exact continues_send shows apart (Live.gives_send shows.unlimited _).adapt children
  rw [beginNode, noFile]
  apply Continues.bind accepted
  intro fault after none asks
  subst none
  have shown := shows.asks asks
  exact continues_times shown apart known times (Live.gives_send shown.unlimited _).adapt
    (sendsHeader after shown) sendsHeader

/-- A sender with the nodes of a forest on its agenda sends the forest and goes on after them. -/
theorem continues_forest {forest : Forest} (recursive : transfer.command.recursive = true)
    (shows : live.Shows origin user location.repository) (apart : location.repository ≠ filled)
    (outside : location.isSink = false) (kept : forest.Kept origin transfer.timesOf location)
    (distinct : forest.Distinct)
    (next : ∀ after, after.Shows origin user location.repository →
      Continues filled transfer [] rest (proceed transfer agenda) after) :
    Continues filled transfer [] (forest.deliveries transfer location ++ rest)
      (proceed transfer ((forest.nodes origin user location).map .node ++ agenda)) live := by
  induction forest generalizing live location rest agenda with
  | nil => exact next live shows
  | warning text others ih => exact kept.elim
  | file label bytes others ih =>
      obtain ⟨⟨metadata, described, isFile, same⟩, retrieved, restKept⟩ := kept
      obtain ⟨segment, _, distinctRest⟩ := distinct
      have within := location.child_repository label.name
      have name := location.name_child segment
      have named : (origin.nodeAt user (location.child label.name)).wireName = label.name :=
        (wireName_nodeAt (name.symm ▸ segment.2) user).trans name
      rw [Forest.deliveries, List.append_assoc]
      refine continues_file (within.symm ▸ shows) (within.symm ▸ apart) described isFile retrieved
        (congrArg Label.times same) (congrArg Label.permissions same) named fun after shown => ?_
      exact ih (within ▸ shown) apart outside restKept distinctRest next
  | directory label inside others ihInside ih =>
      obtain ⟨⟨metadata, described, isDirectory, entries, same⟩, insideKept, restKept⟩ := kept
      obtain ⟨segment, distinctInside, _, distinctRest⟩ := distinct
      have within := location.childDirectory_repository label.name
      have outsideStill : (location.childDirectory label.name).isSink = false := by
        rw [Location.isSink, within]
        exact outside
      have name := location.name_childDirectory segment
      have named : (origin.nodeAt user (location.childDirectory label.name)).wireName = label.name :=
        (wireName_nodeAt (name.symm ▸ segment.2) user).trans name
      rw [Forest.deliveries, Label.around_append]
      refine continues_directory recursive (within.symm ▸ shows) (within.symm ▸ apart) outsideStill described
        isDirectory entries (congrArg Label.times same) (congrArg Label.permissions same) named ?_
        fun after shown => ?_
      · intro live rest agenda shows next
        exact ihInside shows (within.symm ▸ apart) outsideStill insideKept distinctInside next
      · exact ih (within ▸ shown) apart outside restKept distinctRest next

end Sender

end ArtifactGate
