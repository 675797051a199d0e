import ArtifactGate.Proofs.Glob.Split
import ArtifactGate.Proofs.Resolution
import ArtifactGate.Proofs.Session.Reading

/-!
The sink. A text that names it, or a pattern below it, leads to nodes that are empty files: nothing has to be
asked to open them, to write to them or to list them, and what is made below them is in the sink again.
-/
namespace ArtifactGate

namespace Location

/-- A pattern whose base is in the sink is itself below the sink. -/
theorem isSink_of_base {path : String} (sink : (Sender.base path).isSink = true) :
    (resolve path).isSink = true := by
  rw [Sender.base] at sink
  split at sink
  · rename_i glob
    have parts := congrArg String.toList (Glob.base_append_pattern path)
    have ends := Glob.endsSegment_base path glob
    rw [String.toList_append] at parts
    rw [isSink_resolve, belowSink?_isSome] at sink ⊢
    generalize (Glob.splitPattern path).1 = base at sink parts ends
    generalize (Glob.splitPattern path).2 = pattern at parts
    obtain ⟨rest, named, goesOn⟩ := sink
    have begun : base.toList ≠ [] := by
      intro none
      rw [none] at named
      cases named
    refine ⟨rest ++ pattern.toList, ?_, ?_⟩
    · rw [← parts, unslashed_append begun, named, List.append_assoc]
    · rcases goesOn with rfl | slash
      · -- The name of the sink does not end in a slash, so it is not the whole base of a pattern.
        rcases ends with rfl | slash
        · exact absurd rfl begun
        · have some : unslashed base.toList ≠ [] := by
            rw [named]
            exact List.cons_ne_nil _ _
          have last := getLast?_unslashed some
          rw [slash, named] at last
          exact absurd last (by decide)
      · refine .inr ?_
        rw [List.head?_append, slash]
        rfl
  · exact sink

end Location

/-- The node is an empty file in the sink. -/
structure Node.InSink (node : Node) : Prop where
  isSink : node.isSink = true
  location : node.location.isSink = true
  file : node.isFile = true
  entries : ∀ metadata, node.metadata = some metadata → metadata.entries = []

namespace Node

variable {node : Node}

theorem inSink_ofSink (now : Instant) (user : String) {location : Location} (sink : location.isSink = true) :
    (ofSink now user location).InSink where
  isSink := rfl
  location := sink
  file := rfl
  entries _ same := Option.some.inj same ▸ rfl

theorem lookUp_sink (user : String) {location : Location} (sink : location.isSink = true) :
    lookUp user location = (do return ofSink (← Action.request .now) user location) := by
  simp only [lookUp, fetch, sink, if_true]
  rfl

namespace InSink

theorem withSize (inside : node.InSink) (size : Nat) : (node.withSize size).InSink :=
  ⟨inside.isSink, inside.location, inside.file, inside.entries⟩

theorem withProperties (inside : node.InSink) (properties : Properties) :
    (node.withProperties properties).InSink :=
  ⟨inside.isSink, inside.location, inside.file, inside.entries⟩

theorem exists_metadata (inside : node.InSink) :
    ∃ metadata, node.metadata = some metadata ∧ metadata.isDirectory = false := by
  have file := inside.file
  rw [isFile] at file
  split at file
  · rename_i metadata found
    exact ⟨metadata, found, by simpa using file⟩
  · cases file

theorem allows (inside : node.InSink) (access : Access) : node.allows access = pure true := by
  have sink := beq_iff_eq.1 inside.isSink
  simp only [Node.allows, sink]

theorem children (inside : node.InSink) : node.children = pure [] := by
  obtain ⟨metadata, found, _⟩ := inside.exists_metadata
  simp only [Node.children, found, inside.entries metadata found, childrenOf]

theorem openRead (inside : node.InSink) : node.openRead 0 = pure { length := 0, bytes := [] } := by
  simp only [Node.openRead, isReadable, inside.allows, inside.isSink]
  rfl

theorem openWrite (inside : node.InSink) : node.openWrite 0 = pure (.sink 0) := by
  simp only [Node.openWrite, isWritable, inside.allows, inside.isSink]
  rfl

end InSink

end Node

end ArtifactGate
