import ArtifactGate.Proofs.Text.Numerals
import ArtifactGate.Text.Utf8
import ArtifactGate.Wire.Frame
import ArtifactGate.Wire.Header

/-!
Lines that are sent are the lines that are read: their bytes hold no line end but the last, and a header
that is written is the header that is parsed.
-/
namespace ArtifactGate

namespace Text

theorem encode_eq_flatMap (text : String) : encode text = text.toList.flatMap String.utf8EncodeChar := by
  have bytes : text.toByteArray = (text.toList.flatMap String.utf8EncodeChar).toByteArray :=
    String.utf8Encode_toList.symm
  rw [encode, String.toUTF8, bytes, List.data_toByteArray]

theorem encode_append (first second : String) :
    encode (first ++ second) = encode first ++ encode second := by
  simp only [encode_eq_flatMap, String.toList_append, List.flatMap_append]

theorem length_encode_le (text : String) : (encode text).length ≤ 4 * text.toList.length := by
  rw [encode_eq_flatMap]
  induction text.toList with
  | nil => exact Nat.le_refl 0
  | cons c rest ih =>
      have few := c.utf8Size_le_four
      rw [List.flatMap_cons, List.length_append, String.length_utf8EncodeChar, List.length_cons]
      omega

theorem eq_of_ofNat_eq {number : Nat} (small : number < 256) (same : (10 : UInt8) = UInt8.ofNat number) :
    number = 10 := by
  have values := congrArg UInt8.toNat same
  rw [UInt8.toNat_ofNat'] at values
  simp only [UInt8.reduceToNat] at values
  omega

theorem newline_of_mem_utf8EncodeChar {c : Char} (member : (10 : UInt8) ∈ String.utf8EncodeChar c) :
    c = '\n' := by
  have value : c.val.toNat < 1114112 := by
    have valid := c.valid
    simp only [UInt32.isValidChar, Nat.isValidChar] at valid
    omega
  simp only [String.utf8EncodeChar] at member
  split at member
  · have code := eq_of_ofNat_eq (by omega) (List.mem_singleton.1 member)
    exact Char.ext (UInt32.toNat_inj.1 code)
  · split at member
    · simp only [List.mem_cons, List.not_mem_nil, or_false] at member
      rcases member with same | same <;> have code := eq_of_ofNat_eq (by omega) same <;> omega
    · split at member <;> simp only [List.mem_cons, List.not_mem_nil, or_false] at member
      · rcases member with same | same | same <;> have code := eq_of_ofNat_eq (by omega) same <;> omega
      · rcases member with same | same | same | same <;>
          have code := eq_of_ofNat_eq (by omega) same <;> omega

theorem newline_not_mem_encode {text : String} (unbroken : '\n' ∉ text.toList) :
    Wire.newline ∉ encode text := by
  rw [encode_eq_flatMap, List.mem_flatMap]
  rintro ⟨c, member, bytes⟩
  exact unbroken (newline_of_mem_utf8EncodeChar bytes ▸ member)

end Text

namespace Wire

namespace Header

def fields (header : Header) : String :=
  header.permissions ++ " " ++ toString header.length ++ " " ++ header.name

theorem format_eq (header : Header) (kind : Char) :
    header.format kind = kind.toString ++ header.fields := by
  simp only [format, fields, String.append_assoc]

def OctalPermissions (permissions : String) : Prop :=
  ∃ a b c d, permissions.toList = [a, b, c, d] ∧ [a, b, c, d].all isOctal = true

theorem newline_not_mem_fields {header : Header} (octal : OctalPermissions header.permissions)
    (unbroken : '\n' ∉ header.name.toList) : '\n' ∉ header.fields.toList := by
  obtain ⟨a, b, c, d, permissions, digits⟩ := octal
  have octal : '\n' ∉ header.permissions.toList := by
    rw [permissions]
    intro member
    exact absurd (List.all_eq_true.1 digits _ member) (by decide)
  have decimal : '\n' ∉ Nat.toDigits 10 header.length := fun member =>
    absurd (Text.isDigit_of_mem_digits member) (by decide)
  simp only [fields, String.toList_append, Text.toList_toString, List.mem_append, not_or]
  exact ⟨⟨⟨⟨octal, by decide⟩, decimal⟩, by decide⟩, unbroken⟩

theorem parse_fields {header : Header} {kind : Char} (ascii : kind.toNat < 128)
    (octal : OctalPermissions header.permissions) (length : header.length < Text.nat64Bound)
    (named : header.name ≠ "") : parse (kind.toString ++ header.fields) = .ok header := by
  obtain ⟨a, b, c, d, permissions, digits⟩ := octal
  have line : (kind.toString ++ header.fields).toList =
      kind :: a :: b :: c :: d :: ' ' ::
        (Nat.toDigits 10 header.length ++ ' ' :: header.name.toList) := by
    simp only [fields, String.toList_append, permissions, Text.toList_toString]
    simp [Char.toString]
  have absent : ' ' ∉ Nat.toDigits 10 header.length := fun member =>
    absurd (Text.isDigit_of_mem_digits member) (by decide)
  have read : Text.readNat Text.nat64Bound (String.ofList (Nat.toDigits 10 header.length)) =
      some header.length := by
    rw [← Text.toList_toString, String.ofList_toList]
    exact Text.readNat_toString length
  have some : header.name.toList.isEmpty = false := by
    simpa using named
  have known : ofFields (a :: b :: c :: d :: ' ' ::
      (Nat.toDigits 10 header.length ++ ' ' :: header.name.toList)) = .some header := by
    simp only [ofFields, splitPermissions, digits, if_true, Option.bind_eq_bind, Option.bind_some,
      Text.splitFirst_append absent, read, some, Bool.false_eq_true, if_false, String.ofList_toList]
    rw [← permissions, String.ofList_toList]
  rw [parse, parse?, line]
  simp only [ascii, if_true, known]

end Header

namespace Timestamps

def InRange (times : Timestamps) : Prop :=
  (-Text.int64Bound ≤ times.modified ∧ times.modified < Text.int64Bound) ∧
    -Text.int64Bound ≤ times.accessed ∧ times.accessed < Text.int64Bound

def fields (times : Timestamps) : String :=
  toString times.modified ++ " 0 " ++ toString times.accessed ++ " 0"

theorem format_eq (times : Timestamps) : times.format = "T" ++ times.fields := by
  simp only [format, fields, String.append_assoc]

theorem words_fields (times : Timestamps) :
    Text.words times.fields = [toString times.modified, "0", toString times.accessed, "0"] := by
  have line : times.fields.toList = (toString times.modified).toList ++ ' ' :: (['0'] ++ ' ' ::
      ((toString times.accessed).toList ++ ' ' :: ['0'])) := by
    simp [fields, String.toList_append]
  have zero : ∀ c ∈ ['0'], Text.isBlank c = false := List.forall_mem_singleton.2 (by decide)
  have modified : ((toString times.modified).toList).isEmpty = false := by
    simpa using Text.toString_ne_empty times.modified
  have accessed : ((toString times.accessed).toList).isEmpty = false := by
    simpa using Text.toString_ne_empty times.accessed
  rw [Text.words, line, Text.pieces_append (fun _ => Text.isBlank_of_mem_toString) (by decide),
    Text.pieces_append zero (by decide),
    Text.pieces_append (fun _ => Text.isBlank_of_mem_toString) (by decide), Text.pieces_of_none zero]
  simp only [List.filter_cons, modified, accessed, List.isEmpty_cons, Bool.not_false, if_true,
    List.filter_nil, List.map_cons, List.map_nil, String.ofList_toList]

theorem newline_not_mem_fields (times : Timestamps) : '\n' ∉ times.fields.toList := by
  have numeral (number : Int) : '\n' ∉ (toString number).toList := fun member =>
    absurd (Text.isBlank_of_mem_toString member) (by decide)
  simp only [fields, String.toList_append, List.mem_append, not_or]
  exact ⟨⟨⟨numeral _, by decide⟩, numeral _⟩, by decide⟩

theorem length_fields_le {times : Timestamps} (inRange : times.InRange) :
    (Text.encode times.fields).length ≤ maxLineLength := by
  obtain ⟨⟨modifiedAbove, modifiedBelow⟩, accessedAbove, accessedBelow⟩ := inRange
  have modified := Text.length_toString_le modifiedAbove modifiedBelow
  have accessed := Text.length_toString_le accessedAbove accessedBelow
  have short : times.fields.toList.length ≤ 45 := by
    simp only [fields, String.toList_append, List.length_append]
    change (toString times.modified).toList.length + 3 + (toString times.accessed).toList.length + 2 ≤ 45
    omega
  have bytes := Text.length_encode_le times.fields
  have limit : maxLineLength = 65536 := rfl
  omega

theorem parse_fields {times : Timestamps} (inRange : times.InRange) :
    parse ("T" ++ times.fields) = .ok times := by
  have line : ("T" ++ times.fields).toList = 'T' :: times.fields.toList := by
    rw [String.toList_append]
    rfl
  obtain ⟨⟨modifiedAbove, modifiedBelow⟩, accessedAbove, accessedBelow⟩ := inRange
  simp only [parse, parse?, line, String.ofList_toList, words_fields,
    Text.readInt64_toString modifiedAbove modifiedBelow,
    Text.readInt64_toString accessedAbove accessedBelow]
  rfl

end Timestamps

theorem newline_not_mem_oneLine (message : String) : newline ∉ Text.encode (oneLine message) := by
  apply Text.newline_not_mem_encode
  rw [oneLine, String.toList_ofList]
  intro member
  obtain ⟨c, _, same⟩ := List.mem_map.1 member
  split at same
  · cases same
  · contradiction

/-! Feeding a line to its reader. -/

namespace Line

theorem push_more {line : Line} {byte : UInt8} (inner : byte ≠ newline)
    (room : line.bytes.size < maxLineLength) : line.push byte = .more ⟨line.bytes.push byte⟩ := by
  rw [push, if_neg inner, if_neg (Nat.not_le.2 room)]

theorem push_newline (line : Line) : line.push newline = .done line.text := by
  rw [push, if_pos rfl]

theorem text_encode (text : String) :
    (⟨(Text.encode text).toArray⟩ : Line).text = .ok text := by
  simp only [Line.text, Text.decode?_encode]

end Line

end Wire

end ArtifactGate
