import ArtifactGate.Proofs.Omission
import ArtifactGate.Session.Sender

/-!
A download over a store some of whose places cannot be described, beside one over a store that lists none of
these places. Both do the same, but for asking for the metadata of the places and for the entries that the nodes
in hand list.
-/
namespace ArtifactGate

variable {describes : Location → Except Fault Metadata} {gone : Location → Bool}

namespace Node

variable {node : Node}

@[simp] theorem location_without : (node.without gone).location = node.location := rfl

@[simp] theorem user_without : (node.without gone).user = node.user := rfl

@[simp] theorem metadata_without :
    (node.without gone).metadata = node.metadata.map (Metadata.without gone node.location) := rfl

@[simp] theorem isFile_without : (node.without gone).isFile = node.isFile := by
  rw [isFile, isFile, metadata_without]
  cases node.metadata <;> rfl

@[simp] theorem isDirectory_without : (node.without gone).isDirectory = node.isDirectory := by
  rw [isDirectory, isDirectory, metadata_without]
  cases node.metadata <;> rfl

@[simp] theorem exists?_without : (node.without gone).exists? = node.exists? :=
  Option.isSome_map

@[simp] theorem size_without : (node.without gone).size = node.size := by
  rw [size, size, metadata_without, without]
  cases node.announcedSize <;> cases node.metadata <;> rfl

theorem timesLine_without : timesLine (node.without gone) = timesLine node := by
  simp only [timesLine, modified?, accessed?, metadata_without]
  cases node.metadata <;> rfl

theorem isReadable_without : (node.without gone).isReadable = node.isReadable := rfl

theorem allows_plain (node : Node) (access : Access) :
    (node.allows access).Respects Effect.Plain fun _ => True := by
  rw [allows]
  cases node.backing with
  | sink => exact trivial
  | remote => exact ⟨trivial, fun _ _ => trivial⟩

theorem openRead_plain (node : Node) (offset : Nat) : Attempts Effect.Plain (fun _ => True) (node.openRead offset) := by
  apply Complies.bind (Complies.lift (allows_plain node .read))
  intro _ _
  apply Complies.refuse
  intro _
  refine Complies.ite (fun _ => Complies.pure trivial) fun _ => ?_
  have fetched : Attempts Effect.Plain (fun _ => True) (fetchContent node.location) :=
    Complies.mk ⟨trivial, fun _ _ _ _ => trivial⟩
  apply Complies.bind fetched
  intro content _
  cases content with
  | none => exact Complies.pure trivial
  | some content => exact Complies.mk fun _ _ => trivial

theorem openRead_without (offset : Nat) : (node.without gone).openRead offset = node.openRead offset := by
  simp only [openRead, size_without]
  rfl

theorem found?_without (answer : Except Fault Metadata) (location : Location) :
    found? (answer.map (Metadata.without gone location)) =
      (found? answer).map (Option.map (Metadata.without gone location)) := by
  cases answer with
  | ok metadata => rfl
  | error fault =>
      simp only [found?, Except.map]
      split <;> rfl

theorem fetchMetadata_omits (location : Location) :
    Omitting describes gone (Option.map (Metadata.without gone location)) (fetchMetadata location)
      (fetchMetadata location) := by
  have asked : Action.Omits describes gone (Except.map (Metadata.without gone location))
      (Action.request (.metadata location)) (Action.request (.metadata location)) :=
    .described (.done (describes location))
  rw [Omitting, fetchMetadata, ExceptT.run_mk, map_eq_pure_bind]
  apply asked.bind
  intro answer
  rw [found?_without]
  exact .done (found? answer)

theorem fetch_omits (user : String) (location : Location) :
    Omitting describes gone (without gone) (fetch user location) (fetch user location) := by
  rw [fetch]
  refine Omitting.ite (fun sink => ?_) fun remote => ?_
  · exact Omitting.bind (Omitting.lift (Action.Omits.request trivial)) fun now =>
      Omitting.pure (ofSink now user location)
  · exact (fetchMetadata_omits location).bind fun metadata => Omitting.pure (ofRemote user location metadata)

theorem fetch_remote {location : Location} (remote : location.isSink = false) (user : String) :
    (fetch user location).run = Action.request (.metadata location) >>= fun answer =>
      Pure.pure ((found? answer).map (ofRemote user location)) := by
  rw [fetch, if_neg (by rw [remote]; exact Bool.false_ne_true), ExceptT.run_bind, fetchMetadata, ExceptT.run_mk,
    map_eq_pure_bind, bind_assoc]
  refine congrArg _ (funext fun answer => ?_)
  rw [pure_bind]
  cases found? answer <;> rfl

theorem lookUp_omits (user : String) (location : Location) :
    Action.Omits describes gone (without gone) (lookUp user location) (lookUp user location) := by
  apply Action.Omits.bind (fetch_omits user location)
  intro result
  cases result with
  | ok node => exact .done node
  | error fault => exact .done (ofRemote user location none)

theorem resolve_omits (user text : String) :
    Omitting describes gone (without gone) (resolve user text) (resolve user text) :=
  Omitting.refuse fun _ => Omitting.lift (lookUp_omits user (Location.resolve text))

/-- An entry that cannot be described is left out of the children, as if it were not listed. -/
theorem childrenOf_omits (loses : Loses describes gone) (node : Node) (entries : List Entry) :
    Action.Omits describes gone (List.map (without gone)) (node.childrenOf entries)
      ((node.without gone).childrenOf (entries.filter fun entry => !gone (node.location.ofEntry entry))) := by
  induction entries with
  | nil => exact .done []
  | cons entry rest ih =>
      cases lost : gone (node.location.ofEntry entry) with
      | false =>
          rw [List.filter_cons_of_pos (by rw [lost]; rfl), childrenOf, childrenOf]
          apply Action.Omits.bind (fetch_omits node.user (node.entryLocation entry))
          intro result
          cases result with
          | error fault => exact ih
          | ok child => exact ih.bind fun children => .done (child :: children)
      | true =>
          obtain ⟨remote, fault, failed, other⟩ := loses _ lost
          have unfetched : found? (describes (node.location.ofEntry entry)) = .error fault := by
            rw [failed, found?, other]
            rfl
          have fetched : (fetch node.user (node.entryLocation entry)).run = _ := fetch_remote remote node.user
          rw [List.filter_cons_of_neg (by rw [lost]; exact Bool.false_ne_true), childrenOf, fetched, bind_assoc]
          apply Action.Omits.skipped
          simp only [Action.andThen, pure_bind, unfetched]
          exact ih

theorem children_omits (loses : Loses describes gone) (node : Node) :
    Action.Omits describes gone (List.map (without gone)) node.children (node.without gone).children := by
  rw [children, children, metadata_without]
  cases node.metadata with
  | none => exact .done []
  | some metadata => exact childrenOf_omits loses node metadata.entries

end Node

namespace Glob

def Candidate.without (gone : Location → Bool) (candidate : Candidate) : Candidate :=
  { candidate with node := candidate.node.without gone }

theorem selects_without (pattern : Pattern) (recursive : Bool) (candidate : Candidate) :
    selects pattern recursive (candidate.without gone) = selects pattern recursive candidate := by
  rw [selects, selects, Candidate.without]
  simp only [Node.isFile_without]

/-- What depends on the path and the kind of a candidate chooses the same, with the lost entries or without. -/
theorem filter_without {keep : Candidate → Bool} (same : ∀ candidate, keep (candidate.without gone) = keep candidate)
    (level : List Candidate) :
    (level.map (Candidate.without gone)).filter keep = (level.filter keep).map (Candidate.without gone) := by
  rw [List.filter_map]
  exact congrArg _ (List.filter_congr fun candidate _ => same candidate)

theorem sortResults_without (results : List Candidate) :
    sortResults (results.map (Candidate.without gone)) = (sortResults results).map (Candidate.without gone) :=
  (List.map_mergeSort (f := Candidate.without gone) fun _ _ _ _ => rfl).symm

variable (loses : Loses describes gone)

include loses

theorem below_omits (candidate : Candidate) :
    Action.Omits describes gone (List.map (Candidate.without gone)) (below candidate)
      (below (candidate.without gone)) := by
  apply Action.Omits.bind (Node.children_omits loses candidate.node)
  intro children
  have same : Action.Omits describes gone (List.map (Candidate.without gone)) _ _ :=
    .pure (children.map fun node => ⟨candidate.path ++ "/" ++ node.name, node⟩)
  rw [List.map_map] at same ⊢
  exact same

theorem belowAll_omits (candidates : List Candidate) :
    Action.Omits describes gone (List.map (Candidate.without gone)) (belowAll candidates)
      (belowAll (candidates.map (Candidate.without gone))) := by
  induction candidates with
  | nil => exact .done []
  | cons candidate rest ih =>
      apply Action.Omits.bind (below_omits loses candidate)
      intro first
      apply ih.bind
      intro others
      rw [← List.map_append]
      exact .done (first ++ others)

theorem search_omits (pattern : Pattern) (recursive endless : Bool) (more : Nat) (level : List Candidate) :
    Action.Omits describes gone (List.map (Candidate.without gone)) (search pattern recursive endless more level)
      (search pattern recursive endless more (level.map (Candidate.without gone))) := by
  have results := filter_without fun candidate : Candidate =>
    (selects_without pattern recursive candidate : selects _ _ (candidate.without gone) = _)
  let directory (candidate : Candidate) : Bool :=
    !selects pattern recursive candidate && candidate.node.isDirectory
  have same (candidate : Candidate) : directory (candidate.without gone) = directory candidate := by
    simp only [directory]
    rw [selects_without, Candidate.without]
    simp only [Node.isDirectory_without]
  have directories := filter_without same
  induction more generalizing level with
  | zero =>
      rw [search, search, results, directories, List.isEmpty_map]
      split
      · exact .done _
      · split
        · exact .same trivial fun answer => answer.elim
        · exact .done _
  | succ more ih =>
      rw [search, search, results, directories, List.isEmpty_map]
      split
      · exact .done _
      · apply Action.Omits.bind (belowAll_omits loses _)
        intro next
        apply (ih next).bind
        intro found
        rw [← List.map_append]
        exact .done _

theorem scan_omits (base : Node) (text : String) (recursive : Bool) :
    Omitting describes gone (List.map (Node.without gone)) (scan base text recursive)
      (scan (base.without gone) text recursive) := by
  rw [scan, scan]
  cases Pattern.parse text with
  | error flaw => exact Omitting.throw _
  | ok pattern =>
      apply Omitting.bind (Omitting.lift (Node.children_omits loses base))
      intro children
      have level : (children.map (Node.without gone)).map (fun node => (⟨node.name, node⟩ : Candidate)) =
          (children.map fun node => ⟨node.name, node⟩).map (Candidate.without gone) := by
        rw [List.map_map, List.map_map]
        rfl
      have sorted (results : List Candidate) :
          Omitting (ε := Fault) describes gone (List.map (Node.without gone))
            (Pure.pure ((sortResults results).map Candidate.node))
            (Pure.pure ((sortResults (results.map (Candidate.without gone))).map Candidate.node)) := by
        have same : Omitting (ε := Fault) describes gone (List.map (Node.without gone)) _ _ :=
          Omitting.pure ((sortResults results).map Candidate.node)
        rw [sortResults_without, List.map_map]
        rw [List.map_map] at same
        exact same
      simp only [level]
      cases levelLimit? text with
      | some limit =>
          exact Omitting.bind (Omitting.lift (search_omits loses pattern recursive false _ _)) sorted
      | none =>
          have asked : Action.Omits describes gone id (Action.request .listingDepth) _ := .request trivial
          apply Omitting.bind (Omitting.lift asked)
          intro depth
          exact Omitting.bind (Omitting.lift (search_omits loses pattern recursive true depth _)) sorted

end Glob

section Sending

def Outgoing.without (gone : Location → Bool) (file : Outgoing) : Outgoing :=
  { file with node := file.node.without gone }

def Job.without (gone : Location → Bool) : Job → Job
  | .path text => .path text
  | .node given => .node (given.without gone)
  | .leave => .leave

def Pending.without (gone : Location → Bool) : Pending → Pending
  | .request => .request
  | .fileTimes file => .fileTimes (file.without gone)
  | .fileHeader file => .fileHeader (file.without gone)
  | .fileBody file => .fileBody (file.without gone)
  | .directoryTimes node => .directoryTimes (node.without gone)
  | .directoryHeader node => .directoryHeader (node.without gone)
  | .directoryEnd => .directoryEnd

namespace Sender

def without (gone : Location → Bool) (sender : Sender) : Sender :=
  { sender with
    pending := sender.pending.without gone
    agenda := sender.agenda.map (Job.without gone) }

/-- What a sender goes on with, when the nodes in hand do not list what is gone. -/
def progress (gone : Location → Bool) : Progress Sender → Progress Sender
  | .waiting sender => .waiting (sender.without gone)
  | .over => .over

/-- The parts of a session that send do the same with the nodes of either store. -/
abbrev Follows {ε : Type} (describes : Location → Except Fault Metadata) (gone : Location → Bool)
    (left right : ExceptT ε Action (Progress Sender)) : Prop :=
  Omitting describes gone (progress gone) left right

variable {transfer : Transfer} {agenda : List Job} {node : Node} {file : Outgoing}

@[simp] theorem site_without (node : Node) : (node.without gone).site = node.site := by
  rw [Node.site, Node.site, Node.size_without, Node.location_without]

@[simp] theorem site?_without (pending : Pending) : (pending.without gone).site? = pending.site? := by
  cases pending <;> simp only [Pending.without, Pending.site?, Outgoing.without, site_without]

theorem start_without (transfer : Transfer) : (start transfer).without gone = start transfer := by
  rw [without, start, List.map_map]
  rfl

theorem await_follows {ε : Type} {sends : ExceptT ε Action Unit} (same : Omitting describes gone id sends sends)
    (pending : Pending) (agenda : List Job) :
    Follows describes gone (do sends; return await pending agenda)
      (do sends; return await (pending.without gone) (agenda.map (Job.without gone))) :=
  same.bind fun _ => Omitting.pure (await pending agenda)

theorem sendFileHeader_follows :
    Follows describes gone (sendFileHeader file agenda)
      (sendFileHeader (file.without gone) (agenda.map (Job.without gone))) :=
  await_follows (Omitting.send _) (.fileHeader file) agenda

theorem beginFile_follows :
    Follows describes gone (beginFile transfer node agenda)
      (beginFile transfer (node.without gone) (agenda.map (Job.without gone))) := by
  rw [beginFile, beginFile, Node.openRead_without, Node.timesLine_without]
  apply Omitting.bind (Omitting.of_attempts (Node.openRead_plain node 0))
  intro content
  refine Omitting.ite (fun _ => ?_) fun _ => sendFileHeader_follows
  exact await_follows (Omitting.send _) (.fileTimes { node, content }) agenda

theorem sendBody_follows :
    Follows describes gone (sendBody file agenda) (sendBody (file.without gone) (agenda.map (Job.without gone))) := by
  rw [sendBody, sendBody]
  apply Omitting.bind (Omitting.send _)
  intro _
  apply Omitting.refuse
  intro _
  exact await_follows (Omitting.send _) (.fileBody file) agenda

theorem sendDirectoryHeader_follows :
    Follows describes gone (sendDirectoryHeader node agenda)
      (sendDirectoryHeader (node.without gone) (agenda.map (Job.without gone))) :=
  await_follows (Omitting.send _).adapt (.directoryHeader node) agenda

theorem beginDirectory_follows :
    Follows describes gone (beginDirectory transfer node agenda)
      (beginDirectory transfer (node.without gone) (agenda.map (Job.without gone))) := by
  rw [beginDirectory, beginDirectory, Node.timesLine_without]
  refine Omitting.ite (fun _ => ?_) fun _ => sendDirectoryHeader_follows
  exact await_follows (Omitting.send _).adapt (.directoryTimes node) agenda

theorem beginNode_follows :
    Follows describes gone (beginNode transfer node agenda)
      (beginNode transfer (node.without gone) (agenda.map (Job.without gone))) := by
  have refuses : Attempts Effect.Plain (fun _ => True) (liftM (refusal? transfer node) : Step _) := by
    apply Complies.lift
    rw [refusal?]
    split
    · exact trivial
    · split
      · exact trivial
      · apply Action.Heeds.bind (Node.allows_plain node .read)
        intro allowed _
        cases allowed <;> exact trivial
  have same : refusal? transfer (node.without gone) = refusal? transfer node := by
    rw [refusal?, refusal?, Node.exists?_without, Node.location_without, Node.isReadable_without]
  rw [beginNode, beginNode, Node.isFile_without, Node.location_without, site_without, same]
  refine Omitting.ite (fun _ => beginFile_follows.logging) fun _ => ?_
  apply Omitting.bind (Omitting.of_attempts refuses)
  intro fault
  cases fault with
  | some fault => exact (Omitting.throw fault).logging
  | none => exact beginDirectory_follows

section Lost

variable (loses : Loses describes gone)

include loses

theorem nodesOf_omits (transfer : Transfer) (path : String) :
    Omitting describes gone (List.map (Node.without gone)) (nodesOf transfer path) (nodesOf transfer path) := by
  rw [nodesOf]
  refine Omitting.ite (fun _ => ?_) fun _ => ?_
  · apply Omitting.bind (Node.resolve_omits transfer.login.user (Glob.splitPattern path).1)
    intro base
    apply Omitting.bind (Glob.scan_omits loses base (Glob.splitPattern path).2 transfer.command.recursive)
    intro nodes
    cases nodes with
    | nil => exact Omitting.throw _
    | cons node rest => exact Omitting.pure (node :: rest)
  · exact (Node.resolve_omits transfer.login.user path).bind fun node => Omitting.pure [node]

theorem proceed_follows (agenda : List Job) :
    Follows describes gone (proceed transfer agenda) (proceed transfer (agenda.map (Job.without gone))) := by
  cases agenda with
  | nil => exact Omitting.pure Progress.over
  | cons job agenda =>
      cases job with
      | path text =>
          apply Omitting.bind (nodesOf_omits loses transfer text).adapt
          intro nodes
          cases nodes with
          | nil => exact Omitting.pure Progress.over
          | cons node rest =>
              have begins : Follows describes gone (beginNode transfer node (rest.map .node ++ agenda)) _ :=
                beginNode_follows
              rw [List.map_append, List.map_map] at begins
              rw [List.map_cons, beginNodes, beginNodes, List.map_map]
              exact begins
      | node node => exact beginNode_follows
      | leave => exact await_follows (Omitting.send _).adapt .directoryEnd agenda

theorem acknowledged_follows (agenda : List Job) (pending : Pending) :
    Follows describes gone (acknowledged transfer agenda pending)
      (acknowledged transfer (agenda.map (Job.without gone)) (pending.without gone)) := by
  cases pending with
  | request => exact proceed_follows loses agenda
  | fileTimes file =>
      rw [acknowledged, Pending.without, acknowledged, ← site_without]
      exact sendFileHeader_follows.logging
  | fileHeader file =>
      rw [acknowledged, Pending.without, acknowledged, ← site_without]
      exact sendBody_follows.logging
  | fileBody file =>
      have logs : Attempts Effect.Plain (fun _ => True)
          (transfer.logSuccess ⟨file.node.location, file.content.length⟩) :=
        Complies.lift ⟨trivial, fun _ _ => trivial⟩
      exact (Omitting.of_attempts logs).bind fun _ => proceed_follows loses agenda
  | directoryTimes node => exact sendDirectoryHeader_follows
  | directoryHeader node =>
      apply Omitting.bind (Omitting.lift (Node.children_omits loses node))
      intro children
      have goesOn := @proceed_follows _ _ transfer loses (children.map .node ++ .leave :: agenda)
      rw [List.map_append, List.map_map, List.map_cons] at goesOn
      rw [List.map_map]
      exact goesOn
  | directoryEnd => exact proceed_follows loses agenda

/-- With every byte a sender does the same over either store. -/
theorem push_follows (sender : Sender) (byte : UInt8) :
    Follows describes gone (sender.push transfer byte) ((sender.without gone).push transfer byte) := by
  rw [push, push]
  have state : (sender.without gone).state = sender.state := rfl
  have site : (sender.without gone).pending.site? = sender.pending.site? := site?_without sender.pending
  rw [state, site]
  cases sender.state.push byte with
  | more next => exact Omitting.pure (Progress.waiting { sender with state := next })
  | done word =>
      exact (Omitting.result word).loggingIn.bind fun _ => acknowledged_follows loses sender.agenda sender.pending

end Lost

end Sender

end Sending

end ArtifactGate
