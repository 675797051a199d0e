import ArtifactGate.Fault
import ArtifactGate.Location
import ArtifactGate.SortedMap

/-!
What the remote store says about an artifact, and what it sends of it. The store is a state with the calls
that can be made on it. Every call is one attempt; repeating it is the caller's business.

An upload is a conversation: it is opened, it waits for admission, and then its whole body is stored or
it is dropped. The store can refuse it at each of the three.
-/
namespace ArtifactGate

/-- A moment: seconds since 1970, and nanoseconds after that second. -/
structure Instant where
  seconds : Int
  nanos : Nat := 0
  deriving DecidableEq, Repr, Inhabited

abbrev Properties := SortedMap String String

inductive Kind
  | file
  | directory
  deriving DecidableEq, Repr, Inhabited

/-- One name a directory lists. -/
structure Entry where
  name : String
  isFolder : Bool
  deriving DecidableEq, Repr, Inhabited

namespace Entry

instance : Ord Entry := ⟨compareLex (compareOn name) (compareOn isFolder)⟩

instance : Std.TransOrd Entry :=
  inferInstanceAs (Std.TransCmp (compareLex (compareOn name) (compareOn isFolder)))

instance : Std.LawfulEqOrd Entry where
  eq_of_compare {first second} same := by
    obtain ⟨name, isFolder⟩ := compareLex_eq_eq.1 same
    cases first
    cases second
    cases Std.LawfulEqOrd.eq_of_compare name
    cases Std.LawfulEqOrd.eq_of_compare isFolder
    rfl

end Entry

/-- What is known of an artifact. A file lists no entries. -/
structure Metadata where
  kind : Kind
  size : Nat
  created : Option Instant
  modified : Option Instant
  updated : Option Instant
  uri : String
  repository : String
  entries : List Entry
  deriving DecidableEq, Repr, Inhabited

namespace Metadata

def file (now : Instant) (repository uri : String) (size : Nat) : Metadata :=
  { kind := .file, size, created := some now, modified := some now, updated := some now, uri,
    repository, entries := [] }

def directory (now : Instant) (repository uri : String) (entries : List Entry) : Metadata :=
  { file now repository uri 0 with kind := .directory, entries }

def isDirectory (metadata : Metadata) : Bool :=
  metadata.kind == .directory

end Metadata

/-- A download. `length` is what the store announced for it; the bytes may be fewer or more, and
reading may break off after them. -/
structure Content where
  length : Option Nat
  bytes : List UInt8
  breakage : Option String := none
  deriving DecidableEq, Repr, Inhabited

class RemoteStore (σ : Type) where
  metadata : Location → σ → Except Fault Metadata × σ
  content : Location → σ → Except Fault Content × σ
  openUpload : Location → Properties → σ → Except Fault Unit × σ
  /-- An opened upload asks whether its body may be read; without an answer it asks again later. -/
  admitUpload : Location → Properties → σ → Option (Except Fault Unit) × σ
  storeBody : Location → Properties → List UInt8 → σ → Except Fault Unit × σ
  dropAdmitted : σ → σ
  /-- How many levels of directories a listing that ends can go down. -/
  listingDepth : σ → Nat

end ArtifactGate
