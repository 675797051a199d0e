import ArtifactGate.Proofs.Wire.Lines
import ArtifactGate.Session.Receiver

/-!
A client that reads a download and knows nothing but its bytes: a control byte and the rest of its line, and
after the header of a file as many bytes as it says and a good status. What is written for it to read is what
it finds.
-/
namespace ArtifactGate

/-- What a client finds in a download. -/
inductive Sight
  | times (line : String)
  | file (header : Wire.Header) (bytes : List UInt8)
  | directory (header : Wire.Header)
  | leave
  deriving DecidableEq, Repr, Inhabited

/-- Where a client is in a download. -/
inductive Viewer
  | control
  | line (kind : LineKind) (bytes : List UInt8)
  | body (header : Wire.Header) (bytes : List UInt8)
  /-- What came is no part of a download. -/
  | lost
  deriving DecidableEq, Repr, Inhabited

namespace Viewer

def onLine (text : String) : LineKind → Viewer × Option Sight
  | .times => (.control, some (.times ("T" ++ text)))
  | .file =>
    match Wire.Header.parse ("C" ++ text) with
    | .ok header => (.body header [], none)
    | .error _ => (.lost, none)
  | .directory =>
    match Wire.Header.parse ("D" ++ text) with
    | .ok header => (.control, some (.directory header))
    | .error _ => (.lost, none)
  | .leave => (.control, some .leave)
  | .warning | .error => (.lost, none)

def push : Viewer → UInt8 → Viewer × Option Sight
  | .control, byte =>
    match Receiver.lineKind? byte with
    | some kind => (.line kind [], none)
    | none => (.lost, none)
  | .line kind bytes, byte =>
    if byte = Wire.newline then
      match Text.decode? bytes with
      | some text => onLine text kind
      | none => (.lost, none)
    else (.line kind (bytes ++ [byte]), none)
  | .body header bytes, byte =>
    if bytes.length < header.length then (.body header (bytes ++ [byte]), none)
    else if byte = Wire.okStatus then (.control, some (.file header bytes))
    else (.lost, none)
  | .lost, _ => (.lost, none)

/-- Where a client is after some bytes, and what it has found in them. -/
def view : Viewer → List UInt8 → Viewer × List Sight
  | viewer, [] => (viewer, [])
  | viewer, byte :: rest =>
    let next := viewer.push byte
    let viewed := view next.1 rest
    (viewed.1, next.2.toList ++ viewed.2)

theorem view_append (first rest : List UInt8) (viewer : Viewer) :
    viewer.view (first ++ rest) =
      (((viewer.view first).1.view rest).1,
        (viewer.view first).2 ++ ((viewer.view first).1.view rest).2) := by
  induction first generalizing viewer with
  | nil => rfl
  | cons byte first ih =>
      simp only [List.cons_append, view, ih, List.append_assoc]

theorem view_more {viewer middle last : Viewer} {first rest : List UInt8} {seen sights : List Sight}
    (begins : viewer.view first = (middle, seen)) (goesOn : middle.view rest = (last, sights)) :
    viewer.view (first ++ rest) = (last, seen ++ sights) := by
  rw [view_append, begins, goesOn]

/-- Bytes that end no line belong to it. -/
theorem view_within {bytes : List UInt8} (inner : Wire.newline ∉ bytes) (kind : LineKind) (taken : List UInt8) :
    (Viewer.line kind taken).view bytes = (.line kind (taken ++ bytes), []) := by
  induction bytes generalizing taken with
  | nil => rw [view, List.append_nil]
  | cons byte rest ih =>
      obtain ⟨other, inner⟩ := not_or.1 (fun member => inner (List.mem_cons.2 member))
      simp only [view, push, if_neg (Ne.symm other), ih inner, Option.toList_none, List.nil_append,
        List.append_assoc, List.singleton_append]

/-- A line is found as it was written, if nothing in it ends it before. -/
theorem view_lineBytes (letter : Char) (byte : UInt8) (kind : LineKind) {text : String}
    (known : Receiver.lineKind? byte = some kind) (written : Text.encode letter.toString = [byte])
    (unbroken : '\n' ∉ text.toList) :
    Viewer.control.view (Wire.lineBytes (letter.toString ++ text)) =
      ((onLine text kind).1, (onLine text kind).2.toList) := by
  have within : Viewer.control.view (byte :: Text.encode text) = (.line kind (Text.encode text), []) := by
    simp only [view, push, known, view_within (Text.newline_not_mem_encode unbroken), Option.toList_none,
      List.nil_append]
  have ends : (Viewer.line kind (Text.encode text)).view [Wire.newline] =
      ((onLine text kind).1, (onLine text kind).2.toList) := by
    simp only [view, push, if_true, Text.decode?_encode, List.append_nil]
  rw [Wire.lineBytes, Text.encode_append, written]
  exact view_more within ends

/-- As many bytes as the header says, and the status after them. -/
theorem view_body {header : Wire.Header} {bytes : List UInt8} (whole : bytes.length = header.length) :
    (Viewer.body header []).view (bytes ++ [Wire.okStatus]) = (.control, [.file header bytes]) := by
  have inside (taken bytes : List UInt8) (room : taken.length + bytes.length ≤ header.length) :
      (Viewer.body header taken).view bytes = (.body header (taken ++ bytes), []) := by
    induction bytes generalizing taken with
    | nil => rw [view, List.append_nil]
    | cons byte rest ih =>
        rw [List.length_cons] at room
        have more : taken.length < header.length := by omega
        have still : (taken ++ [byte]).length + rest.length ≤ header.length := by
          rw [List.length_append, List.length_singleton]
          omega
        simp only [view, push, if_pos more, ih _ still, Option.toList_none, List.nil_append, List.append_assoc,
          List.singleton_append]
  have ends : (Viewer.body header bytes).view [Wire.okStatus] = (.control, [.file header bytes]) := by
    simp only [view, push, if_neg (Nat.not_lt.2 (Nat.le_of_eq whole.symm)), if_true, Option.toList_some,
      List.append_nil]
  exact view_more (inside [] bytes (by rw [whole]; exact Nat.le_of_eq (Nat.zero_add _))) ends

end Viewer

/-- The header can be read from its line: it names something without a line end in the name, and its length is one
of 64 bits. -/
structure Wire.Header.Legible (header : Wire.Header) : Prop where
  named : header.name ≠ ""
  unbroken : '\n' ∉ header.name.toList
  length : header.length < Text.nat64Bound

instance : DecidablePred Wire.Header.Legible := fun header =>
  decidable_of_iff (header.name ≠ "" ∧ '\n' ∉ header.name.toList ∧ header.length < Text.nat64Bound)
    ⟨fun ⟨named, unbroken, length⟩ => ⟨named, unbroken, length⟩,
      fun legible => ⟨legible.named, legible.unbroken, legible.length⟩⟩

end ArtifactGate
