import ArtifactGate.Proofs.Session.Search
import ArtifactGate.Proofs.Session.Steps

/-!
What a download reads and sends. The nodes a sender has in hand lie in the repository that the path it has
taken up names; it reads and sends nothing on that path unless the repository may be read.
-/
namespace ArtifactGate

variable {possible : (effect : Effect) → effect.Answer → Prop} {granted : String → String → Access → Prop}
  {user : String} {root : Location}

/-- The node lies in the repository of a place, as a user sees it. -/
structure Node.Under (user : String) (root : Location) (node : Node) : Prop where
  user : node.user = user
  repository : node.location.repository = root.repository
  isSink : node.isSink = root.isSink

/-- The user may read the repository of a place. Everyone may read the sink. -/
def Location.Readable (granted : String → String → Access → Prop) (user : String) (root : Location) : Prop :=
  root.isSink = true ∨ granted root.repository user .read

namespace Node

variable {node : Node} {place : Location}

theorem At.under (located : node.At user place) (within : place.repository = root.repository) :
    node.Under user root := by
  refine ⟨located.user, located.location ▸ within, located.isSink.trans ?_⟩
  rw [Location.isSink, Location.isSink, within]

theorem Under.readable (under : node.Under user root) (allowed : node.Allowed granted .read) :
    root.Readable granted user := by
  rwa [Allowed, under.isSink, under.repository, under.user] at allowed

theorem entryLocation_repository (node : Node) (entry : Entry) :
    (node.entryLocation entry).repository = node.location.repository := by
  rw [entryLocation]
  split
  · exact Location.childDirectory_repository _ _
  · exact Location.child_repository _ _

/-- What a directory holds is in its repository, and is seen by the same user. -/
theorem childrenOf_inquires (node : Node) (entries : List Entry) :
    (node.childrenOf entries).Respects (Effect.Inquires node.location.repository) fun children =>
      ∀ child ∈ children, ∃ place, child.At node.user place ∧ place.repository = node.location.repository := by
  induction entries with
  | nil => exact List.forall_mem_nil _
  | cons entry rest ih =>
      have within := node.entryLocation_repository entry
      rw [childrenOf]
      apply Action.Heeds.bind (within ▸ (fetch_inquires node.user (node.entryLocation entry)).heeds)
      intro result valid
      cases result with
      | error fault => exact ih
      | ok child =>
          have first : ∃ place, child.At node.user place ∧ place.repository = node.location.repository :=
            ⟨_, valid child rfl, within⟩
          exact Action.Heeds.bind ih fun children others => List.forall_mem_cons.2 ⟨first, others⟩

theorem children_inquires (node : Node) :
    node.children.Respects (Effect.Inquires node.location.repository) fun children =>
      ∀ child ∈ children, ∃ place, child.At node.user place ∧ place.repository = node.location.repository := by
  rw [children]
  cases node.metadata with
  | none => exact List.forall_mem_nil _
  | some metadata => exact childrenOf_inquires node metadata.entries

end Node

/-- What lies in a repository has its children there. -/
theorem Node.inherits_under (user : String) (root : Location) :
    Inherits Action.anyAnswer (Effect.Inquires root.repository) (Node.Under user root) (Node.Under user root) where
  children node under := by
    refine (under.repository ▸ node.children_inquires).mono (fun _ _ given => given) (fun _ asks => asks) ?_
    intro children all child member
    obtain ⟨place, located, within⟩ := all child member
    exact (under.user ▸ located).under within
  listed _ := id
  depth := trivial
  diverges := trivial

/-- The effect reads content or sends something, and the repository of the place may be read; or it asks, or
logs. -/
def Effect.Reads (granted : String → String → Access → Prop) (user : String) (root : Location) : Effect → Prop
  | .content location => granted location.repository user .read
  | .send _ => root.Readable granted user
  | .log _ => True
  | effect => effect.Inquires root.repository

theorem Effect.Inquires.reads {effect : Effect} (inquires : effect.Inquires root.repository) :
    effect.Reads granted user root := by
  cases effect <;> first | exact inquires | exact inquires.elim

theorem send_reads (readable : root.Readable granted user) (bytes : List UInt8) :
    Complies possible (Effect.Reads granted user root) (fun _ => True) (send bytes) :=
  Complies.mk ⟨readable, fun _ _ _ _ => trivial⟩

theorem Node.openRead_reads (vouches : Vouches possible granted) {node : Node} (under : node.Under user root)
    (offset : Nat) :
    Complies possible (Effect.Reads granted user root) (fun _ => root.Readable granted user)
      (node.openRead offset) := by
  refine Node.check_inquires vouches node .read (fun _ asks => (under.repository ▸ asks).reads) fun allowed => ?_
  have readable := under.readable allowed
  refine Complies.ite (fun _ => Complies.pure readable) fun outside => ?_
  have elsewhere : granted node.location.repository user .read := by
    rcases allowed with sink | given
    · exact absurd sink outside
    · exact under.user ▸ given
  have fetched : Complies possible (Effect.Reads granted user root) (fun _ => True)
      (Node.fetchContent node.location) :=
    Complies.mk ⟨elsewhere, fun _ _ _ _ => trivial⟩
  apply Complies.bind fetched
  intro content _
  cases content with
  | none => exact Complies.pure readable
  | some content =>
      refine Complies.mk ?_
      exact fun _ _ => readable

/-- The effect asks what there is in a repository and who may do what there, or for content. -/
def Effect.Fetches (repository : String) : Effect → Prop
  | .content location => location.repository = repository
  | effect => effect.Inquires repository

theorem Effect.Inquires.fetches {repository : String} {effect : Effect} (inquires : effect.Inquires repository) :
    effect.Fetches repository := by
  cases effect <;> first | exact inquires | exact inquires.elim

theorem Effect.Fetches.silent {repository : String} {effect : Effect} (fetches : effect.Fetches repository) :
    effect.Silent := by
  cases effect <;> trivial

namespace Node

theorem openRead_fetches (node : Node) (offset : Nat) :
    Attempts (Effect.Fetches node.location.repository) (fun _ => True) (node.openRead offset) := by
  apply check_inquires vouches_anyAnswer node .read fun _ => Effect.Inquires.fetches
  intro _
  apply Complies.ite fun _ => Complies.pure trivial
  intro _
  have fetched : Attempts (Effect.Fetches node.location.repository) (fun _ => True) (fetchContent node.location) :=
    Complies.mk ⟨rfl, fun _ _ _ _ => trivial⟩
  apply Complies.bind fetched
  intro content _
  cases content with
  | none => exact Complies.pure trivial
  | some content => exact Complies.mk fun _ _ => trivial

end Node

/-- The path that a job takes up. -/
def Job.path? : Job → Option String
  | .path text => some text
  | _ => none

def Job.node? : Job → Option Node
  | .node given => some given
  | _ => none

def Pending.node? : Pending → Option Node
  | .fileTimes file | .fileHeader file | .fileBody file => some file.node
  | .directoryTimes node | .directoryHeader node => some node
  | .request | .directoryEnd => none

/-- Nothing more is to be sent before the agenda goes on. -/
def Pending.isLast : Pending → Bool
  | .request | .fileBody _ | .directoryEnd => true
  | _ => false

/-- The job is one of a path that was taken up, which leads to this place. -/
def Job.Under (user : String) (root : Location) : Job → Prop
  | .node given => given.Under user root
  | .leave => True
  | .path _ => False

namespace Sender

/-- The place a path leads to, or for a pattern the place below which it is searched. -/
def base (path : String) : Location :=
  Location.resolve (if Glob.hasGlob path then (Glob.splitPattern path).1 else path)

/-- The paths that a sender has not taken up. -/
def left (sender : Sender) : List String :=
  sender.agenda.filterMap Job.path?

/-- The nodes that a sender has in hand. -/
def nodes (sender : Sender) : List Node :=
  sender.pending.node?.toList ++ sender.agenda.filterMap Job.node?

/-- The last one of some paths that a sender has taken up. -/
def current? (paths : List String) (sender : Sender) : Option String :=
  paths[paths.length - sender.left.length - 1]?

/-- The path that a sender takes up with the next acknowledgement, if it goes on with a new one. -/
def next? (sender : Sender) : Option String :=
  if sender.pending.isLast then sender.agenda.head?.bind Job.path? else none

/-- The path that whatever a sender does next is about. -/
def subject? (paths : List String) (sender : Sender) : Option String :=
  sender.next? <|> sender.current? paths

/-- What a sender may ask for when a byte comes. -/
def Asks (granted : String → String → Access → Prop) (user : String) (paths : List String) (sender : Sender)
    (effect : Effect) : Prop :=
  ∃ path, sender.subject? paths = some path ∧ effect.Reads granted user (base path)

/-- The jobs are those of a path that was taken up, and some paths that were not. -/
def Carries (user : String) (root : Location) (rest : List String) (agenda : List Job) : Prop :=
  ∃ work, agenda = work ++ rest.map .path ∧ ∀ job ∈ work, job.Under user root

/-- A sender that has taken up a path, with others left. -/
structure Engaged (granted : String → String → Access → Prop) (user path : String) (rest : List String)
    (sender : Sender) : Prop where
  begun : sender.pending ≠ .request
  readable : (base path).Readable granted user
  pending : ∀ node ∈ sender.pending.node?, node.Under user (base path)
  agenda : Carries user (base path) rest sender.agenda

/-- A sender of some paths: none of them is taken up yet, or one of them is the last. -/
inductive Stands (granted : String → String → Access → Prop) (user : String) (paths : List String) :
    Sender → Prop
  | requested {state : Wire.Acknowledgement} : Stands granted user paths ⟨.request, state, paths.map .path⟩
  | engaged {taken : List String} {path : String} {rest : List String} {sender : Sender}
      (split : paths = taken ++ path :: rest) (engaged : sender.Engaged granted user path rest) :
    Stands granted user paths sender

section Steps

variable {path : String} {paths rest : List String} {agenda : List Job} {transfer : Transfer}

theorem await_engaged {waiting : Pending} {node : Node} (begun : waiting ≠ .request)
    (held : waiting.node? = some node) (readable : (base path).Readable granted user)
    (under : node.Under user (base path)) (carries : Carries user (base path) rest agenda) :
    (await waiting agenda).Holds (Engaged granted user path rest) :=
  ⟨begun, readable, fun _ same => Option.some.inj (held.symm.trans same) ▸ under, carries⟩

section Sending

variable {file : Outgoing} {node : Node}

theorem sendFileHeader_reads (readable : (base path).Readable granted user)
    (under : file.node.Under user (base path)) (carries : Carries user (base path) rest agenda) :
    Complies possible (Effect.Reads granted user (base path)) (·.Holds (Engaged granted user path rest))
      (sendFileHeader file agenda) :=
  Complies.bind (send_reads readable _) fun _ _ =>
    Complies.pure (await_engaged nofun rfl readable under carries)

theorem sendBody_reads (readable : (base path).Readable granted user)
    (under : file.node.Under user (base path)) (carries : Carries user (base path) rest agenda) :
    Complies possible (Effect.Reads granted user (base path)) (·.Holds (Engaged granted user path rest))
      (sendBody file agenda) := by
  rw [sendBody]
  refine Complies.bind (send_reads readable _) fun _ _ => ?_
  apply Complies.refuse
  intro _
  refine Complies.bind (send_reads readable _) fun _ _ => ?_
  exact Complies.pure (await_engaged nofun rfl readable under carries)

theorem sendDirectoryHeader_reads (readable : (base path).Readable granted user)
    (under : node.Under user (base path)) (carries : Carries user (base path) rest agenda) :
    Complies possible (Effect.Reads granted user (base path)) (·.Holds (Engaged granted user path rest))
      (sendDirectoryHeader node agenda) :=
  Complies.bind (send_reads readable _).unlogged fun _ _ =>
    Complies.pure (await_engaged nofun rfl readable under carries)

theorem beginFile_reads (vouches : Vouches possible granted) (under : node.Under user (base path))
    (carries : Carries user (base path) rest agenda) (transfer : Transfer) :
    Complies possible (Effect.Reads granted user (base path)) (·.Holds (Engaged granted user path rest))
      (beginFile transfer node agenda) := by
  apply Complies.bind (Node.openRead_reads vouches under 0)
  intro content readable
  refine Complies.ite (fun _ => ?_) fun _ => sendFileHeader_reads readable under carries
  refine Complies.bind (send_reads readable _) fun _ _ => ?_
  exact Complies.pure (await_engaged nofun rfl readable under carries)

theorem beginDirectory_reads (readable : (base path).Readable granted user) (under : node.Under user (base path))
    (carries : Carries user (base path) rest agenda) (transfer : Transfer) :
    Complies possible (Effect.Reads granted user (base path)) (·.Holds (Engaged granted user path rest))
      (beginDirectory transfer node agenda) := by
  refine Complies.ite (fun _ => ?_) fun _ => sendDirectoryHeader_reads readable under carries
  refine Complies.bind (send_reads readable _).unlogged fun _ _ => ?_
  exact Complies.pure (await_engaged nofun rfl readable under carries)

theorem refusal?_inquires (vouches : Vouches possible granted) (transfer : Transfer) (node : Node) :
    (refusal? transfer node).Heeds possible (Effect.Inquires node.location.repository) fun fault =>
      fault = none → node.Allowed granted .read := by
  rw [refusal?]
  split
  · exact nofun
  · split
    · exact nofun
    · apply Action.Heeds.bind (Node.allows_inquires vouches node .read)
      intro allowed valid
      cases allowed with
      | false => exact nofun
      | true => exact fun _ => valid rfl

theorem beginNode_reads (vouches : Vouches possible granted) (under : node.Under user (base path))
    (carries : Carries user (base path) rest agenda) (transfer : Transfer) :
    Complies possible (Effect.Reads granted user (base path)) (·.Holds (Engaged granted user path rest))
      (beginNode transfer node agenda) := by
  refine Complies.ite (fun _ => (beginFile_reads vouches under carries transfer).logging fun _ => trivial) fun _ => ?_
  apply Complies.bind ((Complies.lift (refusal?_inquires vouches transfer node)).weaken
    fun _ asks => (under.repository ▸ asks).reads)
  intro fault valid
  cases fault with
  | some fault => exact Complies.logging Complies.throw fun _ => trivial
  | none => exact beginDirectory_reads (under.readable (valid rfl)) under carries transfer

end Sending

theorem nodesOf_inquires (transfer : Transfer) (path : String) :
    Attempts (Effect.Inquires (base path).repository)
      (fun nodes => ∀ node ∈ nodes, node.Under transfer.login.user (base path)) (nodesOf transfer path) := by
  have resolved (text : String) (same : Location.resolve text = base path) :
      Attempts (Effect.Inquires (base path).repository) (Node.Under transfer.login.user (base path))
        (Node.resolve transfer.login.user text) :=
    same ▸ (Node.resolve_inquires transfer.login.user text).mono fun _ located => located.under rfl
  refine nodesOf_takes (Node.inherits_under _ _) transfer (fun plain => resolved path ?_) fun glob => resolved _ ?_
  · rw [base, if_neg plain]
  · rw [base, if_pos glob]

theorem carries_nodes {nodes : List Node} (under : ∀ node ∈ nodes, node.Under user (base path))
    (carries : Carries user (base path) rest agenda) : Carries user (base path) rest (nodes.map .node ++ agenda) := by
  obtain ⟨work, rfl, jobs⟩ := carries
  refine ⟨nodes.map .node ++ work, (List.append_assoc _ _ _).symm, ?_⟩
  exact List.forall_mem_append.2 ⟨List.forall_mem_map.2 under, jobs⟩

theorem takeUp_reads (vouches : Vouches possible granted) (transfer : Transfer) (path : String)
    (rest : List String) :
    Complies possible (Effect.Reads granted transfer.login.user (base path))
      (·.Holds (Engaged granted transfer.login.user path rest))
      (proceed transfer (.path path :: rest.map .path)) := by
  rw [proceed]
  apply Complies.bind (((nodesOf_inquires transfer path).weaken
    fun _ => Effect.Inquires.reads).of_attempts).unlogged
  intro nodes under
  cases nodes with
  | nil => exact Complies.pure trivial
  | cons node others =>
      obtain ⟨first, under⟩ := List.forall_mem_cons.1 under
      have waiting : Carries transfer.login.user (base path) rest (rest.map .path) := ⟨[], rfl, List.forall_mem_nil _⟩
      exact beginNode_reads vouches first (carries_nodes under waiting) transfer

/-- What a sender does after the last of a path's files was acknowledged, or between them. -/
theorem proceed_reads (vouches : Vouches possible granted) {taken : List String} (transfer : Transfer)
    (split : paths = taken ++ path :: rest) (readable : (base path).Readable granted transfer.login.user)
    (carries : Carries transfer.login.user (base path) rest agenda) :
    Complies possible
      (Effect.Reads granted transfer.login.user (base ((agenda.head?.bind Job.path?).getD path)))
      (·.Holds (Stands granted transfer.login.user paths)) (proceed transfer agenda) := by
  obtain ⟨work, rfl, jobs⟩ := carries
  cases work with
  | nil =>
      cases rest with
      | nil => exact Complies.pure trivial
      | cons next rest =>
          have further : paths = (taken ++ [path]) ++ next :: rest := by
            rw [split, List.append_assoc, List.singleton_append]
          exact (takeUp_reads vouches transfer next rest).mono fun _ => .mono fun _ => .engaged further
  | cons job work =>
      obtain ⟨under, jobs⟩ := List.forall_mem_cons.1 jobs
      have carries : Carries transfer.login.user (base path) rest (work ++ rest.map .path) := ⟨work, rfl, jobs⟩
      cases job with
      | path text => exact under.elim
      | node node =>
          exact (beginNode_reads vouches under carries transfer).mono fun _ => .mono fun _ => .engaged split
      | leave =>
          refine Complies.bind (send_reads readable _).unlogged fun _ _ => Complies.pure ?_
          have none (node : Node) (absent : node ∈ Pending.directoryEnd.node?) :
              node.Under transfer.login.user (base path) := by cases absent
          exact .engaged split ⟨nofun, readable, none, carries⟩

theorem acknowledged_reads (vouches : Vouches possible granted) {taken : List String} {sender : Sender}
    (transfer : Transfer) (split : paths = taken ++ path :: rest)
    (engaged : sender.Engaged granted transfer.login.user path rest) :
    Complies possible (Effect.Reads granted transfer.login.user (base (sender.next?.getD path)))
      (·.Holds (Stands granted transfer.login.user paths))
      (acknowledged transfer sender.agenda sender.pending) := by
  obtain ⟨pending, state, agenda⟩ := sender
  obtain ⟨begun, readable, under, carries⟩ := engaged
  have proceeds := proceed_reads vouches transfer split readable carries
  cases pending with
  | request => exact absurd rfl begun
  | fileTimes file =>
      refine Complies.mono (Complies.logging ?_ fun _ => trivial) fun _ => .mono fun _ => .engaged split
      exact sendFileHeader_reads readable (under _ rfl) carries
  | fileHeader file =>
      refine Complies.mono (Complies.logging ?_ fun _ => trivial) fun _ => .mono fun _ => .engaged split
      exact sendBody_reads readable (under _ rfl) carries
  | fileBody file =>
      exact Complies.bind (transfer.logSuccess_complies (fun _ => trivial) _) fun _ _ => proceeds
  | directoryTimes node =>
      exact (sendDirectoryHeader_reads readable (under _ rfl) carries).mono fun _ => .mono fun _ => .engaged split
  | directoryHeader node =>
      have listed : Complies possible (Effect.Reads granted transfer.login.user (base path))
          (fun children => ∀ child ∈ children, child.Under transfer.login.user (base path))
          (liftM node.children : Step _) :=
        ((Complies.lift ((Node.inherits_under _ _).children node (under _ rfl))).weaken
          fun _ => Effect.Inquires.reads).of_attempts
      apply Complies.bind listed
      intro children all
      have leaving : Carries transfer.login.user (base path) rest (.leave :: agenda) := by
        obtain ⟨work, rfl, jobs⟩ := carries
        exact ⟨.leave :: work, rfl, List.forall_mem_cons.2 ⟨trivial, jobs⟩⟩
      have goesOn := proceed_reads vouches transfer split readable (carries_nodes all leaving)
      cases children <;> exact goesOn
  | directoryEnd => exact proceeds

theorem left_of_carries {sender : Sender} (carries : Carries user root rest sender.agenda) : sender.left = rest := by
  obtain ⟨work, agenda, jobs⟩ := carries
  have none : work.filterMap Job.path? = [] := by
    apply List.filterMap_eq_nil_iff.2
    intro job member
    cases job with
    | path text => exact (jobs _ member).elim
    | _ => rfl
  rw [left, agenda, List.filterMap_append, none, List.nil_append, List.filterMap_map]
  exact List.filterMap_some

theorem current?_of_engaged {taken : List String} {sender : Sender} (split : paths = taken ++ path :: rest)
    (engaged : sender.Engaged granted user path rest) : sender.current? paths = some path := by
  have position : paths.length - rest.length - 1 = taken.length := by
    rw [split, List.length_append, List.length_cons]
    omega
  rw [current?, left_of_carries engaged.agenda, position, split, List.getElem?_append_right (Nat.le_refl _),
    Nat.sub_self]
  rfl

theorem subject?_of_engaged {taken : List String} {sender : Sender} (split : paths = taken ++ path :: rest)
    (engaged : sender.Engaged granted user path rest) : sender.subject? paths = some (sender.next?.getD path) := by
  rw [subject?, current?_of_engaged split engaged]
  cases sender.next? <;> rfl

/-- A sender that has a file in hand has taken up a path, and may log. -/
theorem Stands.asks_log {sender : Sender} (stands : sender.Stands granted user paths) {site : Site}
    (file : sender.pending.site? = some site) {entry : AccessRecord} :
    sender.Asks granted user paths (.log entry) := by
  cases stands with
  | requested => cases file
  | engaged split engaged => exact ⟨_, subject?_of_engaged split engaged, trivial⟩

/-- A byte leaves a sender of the same paths; what it makes the sender read and send is about a path whose
repository may be read. -/
theorem push_reads (vouches : Vouches possible granted) (transfer : Transfer) {sender : Sender}
    (stands : sender.Stands granted transfer.login.user paths) (byte : UInt8) :
    Complies possible (sender.Asks granted transfer.login.user paths)
      (·.Holds (Stands granted transfer.login.user paths)) (sender.push transfer byte) := by
  rw [push]
  cases sender.state.push byte with
  | more next =>
      apply Complies.pure
      cases stands with
      | requested => exact .requested
      | engaged split engaged => exact .engaged split ⟨engaged.begun, engaged.readable, engaged.pending, engaged.agenda⟩
  | done word =>
      have read : Complies possible (sender.Asks granted transfer.login.user paths) (fun _ => True)
          (transfer.loggingIn sender.pending.site? (ExceptT.mk (pure word))) :=
        ((Complies.result word).mono fun _ _ => trivial).loggingIn fun _ _ file => stands.asks_log file
      apply Complies.bind read
      intro _ _
      cases stands with
      | requested =>
          cases paths with
          | nil => exact Complies.pure trivial
          | cons path rest =>
              have first : path :: rest = [] ++ path :: rest := rfl
              exact ((takeUp_reads vouches transfer path rest).mono fun _ => .mono fun _ => .engaged first).weaken
                fun _ reads => ⟨path, rfl, reads⟩
      | engaged split engaged =>
          exact (acknowledged_reads vouches transfer split engaged).weaken fun _ reads =>
            ⟨_, subject?_of_engaged split engaged, reads⟩

/-- The nodes a sender has in hand lie in the repository that the path in hand names. -/
theorem Stands.nodes {sender : Sender} (stands : sender.Stands granted user paths) {node : Node}
    (member : node ∈ sender.nodes) :
    ∃ path, sender.current? paths = some path ∧ node.Under user (base path) := by
  cases stands with
  | requested =>
      have none : (paths.map Job.path).filterMap Job.node? = [] := by
        rw [List.filterMap_map]
        exact List.filterMap_eq_nil_iff.2 fun _ _ => rfl
      rw [Sender.nodes, none] at member
      cases member
  | engaged split engaged =>
      refine ⟨_, current?_of_engaged split engaged, ?_⟩
      rcases List.mem_append.1 member with held | queued
      · exact engaged.pending node (Option.mem_toList.1 held)
      · obtain ⟨work, agenda, jobs⟩ := engaged.agenda
        rw [agenda, List.filterMap_append, List.mem_append] at queued
        rcases queued with queued | queued
        · obtain ⟨job, among, same⟩ := List.mem_filterMap.1 queued
          have under := jobs job among
          cases job with
          | node given => exact Option.some.inj same ▸ under
          | _ => cases same
        · obtain ⟨job, among, same⟩ := List.mem_filterMap.1 queued
          obtain ⟨text, _, rfl⟩ := List.mem_map.1 among
          cases same

end Steps

end Sender

end ArtifactGate
