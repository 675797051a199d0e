import ArtifactGate.Proofs.Wire.Lines

/-!
Which lines are headers, and of what. A line is read just when its fields stand where they belong, and a header that
is written is such a line, so what is read can be written and read again.
-/
namespace ArtifactGate.Wire

namespace Header

section Reading

variable {fields permissions rest : List Char} {line : String} {header : Header}

theorem splitPermissions_eq_some : splitPermissions fields = some (permissions, rest) ↔
    OctalPermissions (String.ofList permissions) ∧ fields = permissions ++ ' ' :: rest := by
  rw [OctalPermissions, String.toList_ofList]
  constructor
  · intro split
    unfold splitPermissions at split
    split at split
    · split at split
      · rename_i digits
        cases split
        exact ⟨⟨_, _, _, _, rfl, digits⟩, rfl⟩
      · cases split
    · cases split
  · rintro ⟨⟨a, b, c, d, rfl, digits⟩, rfl⟩
    exact if_pos digits

/-- How the fields of a header are written after its first letter: four octal digits, a blank, a numeral of 64 bits, a
blank, and a name that is not empty. -/
def HasFields (fields : List Char) (header : Header) : Prop :=
  OctalPermissions header.permissions ∧ header.length < Text.nat64Bound ∧ header.name ≠ "" ∧
    ∃ numeral, Text.IsNumeral numeral header.length ∧
      fields = header.permissions.toList ++ ' ' :: (numeral ++ ' ' :: header.name.toList)

/-- A numeral ends where the first blank is. -/
theorem blank_not_mem_numeral {numeral : List Char} {number : Nat} (isNumeral : Text.IsNumeral numeral number) :
    ' ' ∉ numeral := by
  obtain ⟨sign, digits, rfl, signed, _, isDigit, _⟩ := isNumeral
  intro member
  rcases List.mem_append.1 member with member | member
  · rcases signed with rfl | rfl
    · cases member
    · exact absurd member (by decide)
  · exact absurd (isDigit _ member) (by decide)

theorem ofFields_eq_some : ofFields fields = some header ↔ HasFields fields header := by
  simp only [ofFields, Option.bind_eq_bind, Option.bind_eq_some_iff, Prod.exists, splitPermissions_eq_some,
    Text.readNat_eq_some, String.toList_ofList]
  constructor
  · rintro ⟨permissions, rest, ⟨octal, rfl⟩, numeral, name, split, length, ⟨isNumeral, bounded⟩, named⟩
    split at named
    · cases named
    · rename_i some
      cases named
      refine ⟨octal, bounded, by simpa using some, numeral, isNumeral, ?_⟩
      rw [String.toList_ofList, String.toList_ofList, (Text.eq_of_splitFirst split).1]
  · rintro ⟨octal, bounded, named, numeral, isNumeral, rfl⟩
    refine ⟨header.permissions.toList, _, ⟨by rwa [String.ofList_toList], rfl⟩, numeral, header.name.toList,
      Text.splitFirst_append (blank_not_mem_numeral isNumeral) _, header.length, ⟨isNumeral, bounded⟩, ?_⟩
    have some : header.name.toList.isEmpty = false := by simpa using named
    rw [some, if_neg (by decide), String.ofList_toList, String.ofList_toList]

/-- The line is an ASCII character and the fields of the header. -/
def Spells (line : String) (header : Header) : Prop :=
  ∃ kind fields, line.toList = kind :: fields ∧ kind.toNat < 128 ∧ HasFields fields header

theorem parse?_eq_some : parse? line = some header ↔ Spells line header := by
  rw [parse?, Spells]
  cases line.toList with
  | nil => simp
  | cons kind fields =>
      constructor
      · intro read
        dsimp only at read
        split at read
        · rename_i ascii
          exact ⟨kind, fields, rfl, ascii, ofFields_eq_some.1 read⟩
        · cases read
      · rintro ⟨_, _, ⟨⟩, ascii, hasFields⟩
        exact (if_pos ascii).trans (ofFields_eq_some.2 hasFields)

theorem parse_eq_ok : parse line = .ok header ↔ Spells line header := by
  rw [parse, ← parse?_eq_some]
  cases parse? line with
  | none => simp
  | some found => rw [Except.ok.injEq, Option.some_inj]

theorem parse_of_not_spells (other : ∀ header, ¬Spells line header) :
    parse line = .error (.protocol ("malformed header: " ++ Text.quoted line)) := by
  rw [parse]
  cases read : parse? line with
  | none => rfl
  | some header => exact absurd (parse?_eq_some.1 read) (other header)

theorem parse_format {kind : Char} (ascii : kind.toNat < 128) (octal : OctalPermissions header.permissions)
    (length : header.length < Text.nat64Bound) (named : header.name ≠ "") :
    parse (header.format kind) = .ok header := by
  rw [format_eq]
  exact parse_fields ascii octal length named

/-- What is read can be written and read again, whatever the letter. -/
theorem parse_format_of_parse {kind : Char} (ascii : kind.toNat < 128) (read : parse line = .ok header) :
    parse (header.format kind) = .ok header := by
  obtain ⟨_, _, _, _, octal, length, named, _⟩ := parse_eq_ok.1 read
  exact parse_format ascii octal length named

end Reading

end Header

theorem Timestamps.parse_format {times : Timestamps} (inRange : times.InRange) : parse times.format = .ok times := by
  rw [format_eq]
  exact parse_fields inRange

namespace Header

/-- A line is read as a header just when it spells it, and is refused as a whole otherwise. A header with octal
permissions, a length of 64 bits and a name is read back from its line whatever the letter is, and so is every header
that was read; and so are the times of a file. -/
theorem headers_exact :
    (∀ line header, parse line = .ok header ↔ Spells line header) ∧
    (∀ line, (∀ header, ¬Spells line header) →
      parse line = .error (.protocol ("malformed header: " ++ Text.quoted line))) ∧
    (∀ header kind, kind.toNat < 128 → OctalPermissions header.permissions → header.length < Text.nat64Bound →
      header.name ≠ "" → parse (header.format kind) = .ok header) ∧
    (∀ line header kind, kind.toNat < 128 → parse line = .ok header → parse (header.format kind) = .ok header) ∧
    ∀ times : Timestamps, times.InRange → Timestamps.parse times.format = .ok times := by
  refine ⟨fun line header => parse_eq_ok, fun line => parse_of_not_spells, fun header kind => parse_format, ?_, ?_⟩
  · exact fun line header kind ascii read => parse_format_of_parse ascii read
  · exact fun times inRange => Timestamps.parse_format inRange

/-- The greatest length with a sign and a zero before it, a name that begins with a blank, the least and the greatest
time, and a length that is one too great. -/
theorem headers_exact_of_greatest_length :
    let line := "C0644 +018446744073709551615  a é"
    let header : Header := ⟨" a é", 18446744073709551615, "0644"⟩
    let tooLong := "C0644 18446744073709551616 a"
    let times : Timestamps := ⟨-9223372036854775808, 9223372036854775807⟩
    Spells line header ∧ parse line = .ok header ∧ (∀ header, ¬Spells tooLong header) ∧
      parse tooLong = .error (.protocol ("malformed header: " ++ Text.quoted tooLong)) ∧
      OctalPermissions header.permissions ∧ parse "D0644 18446744073709551615  a é" = .ok header ∧
      times.InRange ∧ Timestamps.parse "T-9223372036854775808 0 9223372036854775807 0" = .ok times := by
  intro line header tooLong times
  have isNumeral : Text.IsNumeral "+018446744073709551615".toList header.length :=
    ⟨['+'], "018446744073709551615".toList, by decide, .inr rfl, by decide, List.all_eq_true.1 (by decide),
      by decide +kernel⟩
  have octal : OctalPermissions header.permissions := ⟨'0', '6', '4', '4', by decide, by decide⟩
  have spells : Spells line header :=
    ⟨'C', "0644 +018446744073709551615  a é".toList, by decide +kernel, by decide, octal, by decide, by decide,
      "+018446744073709551615".toList, isNumeral, by decide +kernel⟩
  have read := (headers_exact.1 line header).2 spells
  have other : ∀ header, ¬Spells tooLong header := by
    intro header spells
    have none : parse? tooLong = none := by decide +kernel
    rw [parse?_eq_some.2 spells] at none
    cases none
  have inRange : times.InRange := ⟨⟨by decide, by decide⟩, by decide, by decide⟩
  have written : header.format 'D' = "D0644 18446744073709551615  a é" := by decide +kernel
  have timesWritten : times.format = "T-9223372036854775808 0 9223372036854775807 0" := by decide +kernel
  exact ⟨spells, read, other, headers_exact.2.1 tooLong other, octal,
    written ▸ headers_exact.2.2.1 header 'D' (by decide) octal (by decide) (by decide), inRange,
    timesWritten ▸ headers_exact.2.2.2.2 times inRange⟩

/-- Permissions of another length, a sign alone, and a name that is missing. -/
example : ["C644 1 a", "C0644 + a", "C0644 1 "].map parse? = [none, none, none] := by
  decide +kernel

end Header

end ArtifactGate.Wire
