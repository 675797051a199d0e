import ArtifactGate.Proofs.Session.Reading

/-!
What holds of the nodes that a download takes up. If it holds of what is found at the paths of a command, and of
the children of any directory that is listed, it holds of every node that a sender has in hand; and the only
contents that a sender asks for are those of such nodes that are files.
-/
namespace ArtifactGate

variable {possible : (effect : Effect) → effect.Answer → Prop} {allowed : Effect → Prop}
  {listed taken : Node → Prop}

/-- It is allowed to send and to log, to ask about the repositories of what is taken up, and to get the content of
what is taken up and is a file in a store. -/
structure Serves (allowed : Effect → Prop) (taken : Node → Prop) : Prop where
  sends : ∀ bytes, allowed (.send bytes)
  logs : ∀ entry, allowed (.log entry)
  inquires : ∀ node, taken node → ∀ effect, effect.Inquires node.location.repository → allowed effect
  reads : ∀ node, taken node → node.isFile = true → node.isSink = false → allowed (.content node.location)

theorem Serves.send (serves : Serves allowed taken) (bytes : List UInt8) :
    Complies possible allowed (fun _ => True) (send bytes) :=
  Complies.mk ⟨serves.sends bytes, fun _ _ _ _ => trivial⟩

theorem Serves.openRead (serves : Serves allowed taken) {node : Node} (held : taken node)
    (isFile : node.isFile = true) (offset : Nat) :
    Complies possible allowed (fun _ => True) (node.openRead offset) := by
  have readable : Complies possible _ (fun _ => True) (liftM node.isReadable : Attempt Bool) :=
    ((Complies.lift (Node.allows_inquires vouches_anyAnswer node .read)).mono fun _ _ => trivial).of_attempts
  apply Complies.bind (readable.weaken (serves.inquires node held))
  intro _ _
  apply Complies.refuse
  intro _
  refine Complies.ite (fun _ => Complies.pure trivial) fun outside => ?_
  have fetched : Complies possible allowed (fun _ => True) (Node.fetchContent node.location) :=
    Complies.mk ⟨serves.reads node held isFile (Bool.eq_false_iff.2 outside), fun _ _ _ _ => trivial⟩
  apply Complies.bind fetched
  intro content _
  cases content with
  | none => exact Complies.pure trivial
  | some content => exact Complies.mk fun _ _ => trivial

/-- The job is about a node that was taken up, or a path of the command. -/
def Job.Of (taken : Node → Prop) (paths : List String) : Job → Prop
  | .path text => text ∈ paths
  | .node given => taken given
  | .leave => True

namespace Sender

/-- The nodes that a sender has in hand were taken up, and the paths it still has to take up are its own. -/
structure Bears (taken : Node → Prop) (paths : List String) (sender : Sender) : Prop where
  pending : ∀ node ∈ sender.pending.node?, taken node
  agenda : ∀ job ∈ sender.agenda, job.Of taken paths

section Steps

variable {transfer : Transfer} {paths : List String} {agenda : List Job} {node : Node} {file : Outgoing}

theorem start_bears (transfer : Transfer) : (start transfer).Bears taken transfer.command.paths where
  pending := nofun
  agenda := List.forall_mem_map.2 fun _ member => member

theorem await_bears {waiting : Pending} (held : waiting.node? = some node) (first : taken node)
    (jobs : ∀ job ∈ agenda, job.Of taken paths) : (await waiting agenda).Holds (Bears taken paths) :=
  ⟨fun _ same => Option.some.inj (held.symm.trans same) ▸ first, jobs⟩

theorem sendFileHeader_bears (serves : Serves allowed taken) (first : taken file.node)
    (jobs : ∀ job ∈ agenda, job.Of taken paths) :
    Complies possible allowed (·.Holds (Bears taken paths)) (sendFileHeader file agenda) :=
  Complies.bind (serves.send _) fun _ _ => Complies.pure (await_bears rfl first jobs)

theorem sendBody_bears (serves : Serves allowed taken) (first : taken file.node)
    (jobs : ∀ job ∈ agenda, job.Of taken paths) :
    Complies possible allowed (·.Holds (Bears taken paths)) (sendBody file agenda) := by
  rw [sendBody]
  refine Complies.bind (serves.send _) fun _ _ => ?_
  apply Complies.refuse
  intro _
  exact Complies.bind (serves.send _) fun _ _ => Complies.pure (await_bears rfl first jobs)

theorem sendDirectoryHeader_bears (serves : Serves allowed taken) (first : taken node)
    (jobs : ∀ job ∈ agenda, job.Of taken paths) :
    Complies possible allowed (·.Holds (Bears taken paths)) (sendDirectoryHeader node agenda) :=
  Complies.bind (serves.send _).unlogged fun _ _ => Complies.pure (await_bears rfl first jobs)

theorem beginFile_bears (serves : Serves allowed taken) (first : taken node) (isFile : node.isFile = true)
    (jobs : ∀ job ∈ agenda, job.Of taken paths) (transfer : Transfer) :
    Complies possible allowed (·.Holds (Bears taken paths)) (beginFile transfer node agenda) := by
  apply Complies.bind (serves.openRead first isFile 0)
  intro content _
  refine Complies.ite (fun _ => ?_) fun _ => sendFileHeader_bears serves first jobs
  exact Complies.bind (serves.send _) fun _ _ => Complies.pure (await_bears rfl first jobs)

theorem beginDirectory_bears (serves : Serves allowed taken) (first : taken node)
    (jobs : ∀ job ∈ agenda, job.Of taken paths)
    (transfer : Transfer) :
    Complies possible allowed (·.Holds (Bears taken paths)) (beginDirectory transfer node agenda) := by
  refine Complies.ite (fun _ => ?_) fun _ => sendDirectoryHeader_bears serves first jobs
  exact Complies.bind (serves.send _).unlogged fun _ _ => Complies.pure (await_bears rfl first jobs)

theorem beginNode_bears (serves : Serves allowed taken) (first : taken node)
    (jobs : ∀ job ∈ agenda, job.Of taken paths) (transfer : Transfer) :
    Complies possible allowed (·.Holds (Bears taken paths)) (beginNode transfer node agenda) := by
  refine Complies.ite (fun isFile => (beginFile_bears serves first isFile jobs transfer).logging fun _ =>
    serves.logs _) fun _ => ?_
  have asks : Complies possible _ (fun _ => True) (liftM (refusal? transfer node) : Step _) :=
    ((Complies.lift (refusal?_inquires vouches_anyAnswer transfer node)).mono fun _ _ => trivial).of_attempts
  apply Complies.bind (asks.weaken (serves.inquires node first))
  intro fault _
  cases fault with
  | some fault => exact Complies.throw.logging fun _ => serves.logs _
  | none => exact beginDirectory_bears serves first jobs transfer

/-- Every path that is to be taken up leads to nodes of this kind. -/
abbrev Finds (possible : (effect : Effect) → effect.Answer → Prop) (allowed : Effect → Prop) (taken : Node → Prop)
    (transfer : Transfer) (paths : List String) : Prop :=
  ∀ path ∈ paths, Complies possible allowed (fun nodes => ∀ node ∈ nodes, taken node) (nodesOf transfer path)

theorem jobs_of_nodes {nodes : List Node} (all : ∀ node ∈ nodes, taken node)
    (jobs : ∀ job ∈ agenda, job.Of taken paths) : ∀ job ∈ nodes.map .node ++ agenda, job.Of taken paths :=
  List.forall_mem_append.2 ⟨List.forall_mem_map.2 all, jobs⟩

theorem proceed_bears (serves : Serves allowed taken) (finds : Finds possible allowed taken transfer paths)
    (jobs : ∀ job ∈ agenda, job.Of taken paths) :
    Complies possible allowed (·.Holds (Bears taken paths)) (proceed transfer agenda) := by
  cases agenda with
  | nil => exact Complies.pure trivial
  | cons job agenda =>
      obtain ⟨first, later⟩ := List.forall_mem_cons.1 jobs
      cases job with
      | path text =>
          rw [proceed]
          apply Complies.bind (finds text first).unlogged
          intro nodes all
          cases nodes with
          | nil => exact Complies.pure trivial
          | cons node others =>
              obtain ⟨first, others⟩ := List.forall_mem_cons.1 all
              exact beginNode_bears serves first (jobs_of_nodes others later) transfer
      | node node => exact beginNode_bears serves first later transfer
      | leave =>
          refine Complies.bind (serves.send _).unlogged fun _ _ => Complies.pure ⟨fun node none => ?_, later⟩
          cases none

theorem acknowledged_bears (serves : Serves allowed taken) (inherits : Inherits possible allowed listed taken)
    (finds : Finds possible allowed taken transfer paths)
    {sender : Sender} (bears : sender.Bears taken paths) :
    Complies possible allowed (·.Holds (Bears taken paths))
      (acknowledged transfer sender.agenda sender.pending) := by
  obtain ⟨pending, state, agenda⟩ := sender
  obtain ⟨held, jobs⟩ := bears
  cases pending with
  | request => exact proceed_bears serves finds jobs
  | fileTimes file => exact (sendFileHeader_bears serves (held _ rfl) jobs).logging fun _ => serves.logs _
  | fileHeader file => exact (sendBody_bears serves (held _ rfl) jobs).logging fun _ => serves.logs _
  | fileBody file =>
      exact Complies.bind (transfer.logSuccess_complies serves.logs _) fun _ _ => proceed_bears serves finds jobs
  | directoryTimes node => exact sendDirectoryHeader_bears serves (held _ rfl) jobs
  | directoryHeader node =>
      apply Complies.bind (Complies.lift (inherits.children node (inherits.listed _ (held _ rfl))))
      intro children all
      exact proceed_bears serves finds (jobs_of_nodes all (List.forall_mem_cons.2 ⟨trivial, jobs⟩))
  | directoryEnd => exact proceed_bears serves finds jobs

/-- With every byte a sender has only such nodes in hand, and gets the content only of those that are files. -/
theorem push_bears (serves : Serves allowed taken) (inherits : Inherits possible allowed listed taken)
    (finds : Finds possible allowed taken transfer paths)
    {sender : Sender} (bears : sender.Bears taken paths) (byte : UInt8) :
    Complies possible allowed (·.Holds (Bears taken paths)) (sender.push transfer byte) := by
  rw [push]
  cases sender.state.push byte with
  | more next => exact Complies.pure ⟨bears.pending, bears.agenda⟩
  | done word =>
      apply Complies.bind ((Complies.result word).loggingIn fun _ _ _ => serves.logs _)
      intro _ _
      exact acknowledged_bears serves inherits finds bears

end Steps

end Sender

end ArtifactGate
