import ArtifactGate.Text.Numeral
import ArtifactGate.Proofs.Text.Split

/-!
A natural number is read of its numerals and of nothing else. Numbers that are written are read back, and fields
that are written with blanks between them are read apart again.
-/
namespace ArtifactGate.Text

theorem digitsValue_eq (digits : List Char) : digitsValue digits = Nat.ofDigitChars 10 digits 0 := by
  simp only [digitsValue, Nat.ofDigitChars, Nat.mul_comm]

theorem readDigits_eq_some {digits : List Char} {number : Nat} :
    readDigits digits = some number ↔
      digits ≠ [] ∧ (∀ c ∈ digits, c.isDigit = true) ∧ Nat.ofDigitChars 10 digits 0 = number := by
  rw [readDigits, ← digitsValue_eq, ← List.all_eq_true, ← and_assoc]
  constructor
  · intro read
    split at read
    · rename_i shape
      rw [Bool.and_eq_true, Bool.not_eq_true', List.isEmpty_eq_false_iff] at shape
      exact ⟨shape, Option.some.inj read⟩
    · cases read
  · rintro ⟨⟨some, digits⟩, value⟩
    rw [List.isEmpty_eq_false_iff.2 some, digits, value]
    rfl

/-- How a number is written for a reader: at least one digit, and at most a plus sign before the digits. -/
def IsNumeral (numeral : List Char) (number : Nat) : Prop :=
  ∃ sign digits, numeral = sign ++ digits ∧ (sign = [] ∨ sign = ['+']) ∧ digits ≠ [] ∧
    (∀ c ∈ digits, c.isDigit = true) ∧ Nat.ofDigitChars 10 digits 0 = number

theorem readNat_eq_some {bound number : Nat} {text : String} :
    readNat bound text = some number ↔ IsNumeral text.toList number ∧ number < bound := by
  rw [readNat, Option.filter_eq_some_iff, decide_eq_true_eq]
  refine and_congr_left fun _ => ?_
  rw [readDigits_eq_some]
  constructor
  · intro read
    split at read
    · rename_i rest signed
      exact ⟨['+'], rest, signed, .inr rfl, read⟩
    · exact ⟨[], text.toList, rfl, .inl rfl, read⟩
  · rintro ⟨sign, digits, whole, rfl | rfl, read⟩
    · split
      · -- No digit is a plus sign.
        rename_i rest signed
        rw [signed] at whole
        have member : '+' ∈ [] ++ digits := whole ▸ List.mem_cons_self
        exact absurd (read.2.1 '+' member) (by decide)
      · exact whole ▸ read
    · rw [whole]
      exact read

theorem isDigit_of_mem_digits {number : Nat} {c : Char} (member : c ∈ Nat.toDigits 10 number) :
    c.isDigit = true :=
  Nat.isDigit_of_mem_toDigits (by decide) (by decide) member

theorem readDigits_toDigits (number : Nat) : readDigits (Nat.toDigits 10 number) = some number :=
  readDigits_eq_some.2
    ⟨Nat.toDigits_ne_nil, fun _ => isDigit_of_mem_digits, Nat.ofDigitChars_toDigits (by decide) (by decide)⟩

theorem digits_cons (number : Nat) :
    ∃ first rest, Nat.toDigits 10 number = first :: rest ∧ first ≠ '+' ∧ first ≠ '-' := by
  cases shape : Nat.toDigits 10 number with
  | nil => exact absurd shape Nat.toDigits_ne_nil
  | cons first rest =>
      have digit : first.isDigit = true := isDigit_of_mem_digits (shape ▸ List.mem_cons_self)
      refine ⟨first, rest, rfl, ?_, ?_⟩ <;> rintro rfl <;> exact absurd digit (by decide)

theorem toList_toString (number : Nat) : (toString number).toList = Nat.toDigits 10 number := by
  rw [Nat.toString_eq_repr, Nat.toList_repr]

theorem isNumeral_toString (number : Nat) : IsNumeral (toString number).toList number :=
  ⟨[], (toString number).toList, rfl, .inl rfl,
    readDigits_eq_some.1 (toList_toString number ▸ readDigits_toDigits number)⟩

theorem readNat_toString {bound number : Nat} (below : number < bound) :
    readNat bound (toString number) = some number :=
  readNat_eq_some.2 ⟨isNumeral_toString number, below⟩

theorem toList_toString_negSucc (number : Nat) :
    (toString (Int.negSucc number)).toList = '-' :: Nat.toDigits 10 (number + 1) := by
  have written : toString (Int.negSucc number) = "-" ++ toString (number + 1) := rfl
  rw [written, String.toList_append, toList_toString]
  rfl

theorem readInt64_toString {number : Int} (above : -int64Bound ≤ number) (below : number < int64Bound) :
    readInt64 (toString number) = some number := by
  cases number with
  | ofNat number =>
      obtain ⟨first, rest, shape, plus, minus⟩ := digits_cons number
      have digits := readDigits_toDigits number
      have text : (toString (Int.ofNat number)).toList = first :: rest :=
        (toList_toString number).trans shape
      have small : number < int64Bound := Int.ofNat_lt.1 below
      rw [shape] at digits
      simp only [readInt64, text]
      split
      · rename_i same
        exact absurd (List.cons.inj same).1 plus
      · rename_i same
        exact absurd (List.cons.inj same).1 minus
      · rw [digits, Option.filter_some, if_pos (decide_eq_true small)]
        rfl
  | negSucc number =>
      have text := toList_toString_negSucc number
      have small : number + 1 ≤ int64Bound := by omega
      simp only [readInt64, text, readDigits_toDigits, Option.filter_some, decide_eq_true small, if_true]
      rfl

theorem length_toString_le {number : Int} (above : -int64Bound ≤ number) (below : number < int64Bound) :
    (toString number).toList.length ≤ 20 := by
  have bound : int64Bound = 9223372036854775808 := by decide
  have few {number : Nat} (below : number ≤ int64Bound) : (Nat.toDigits 10 number).length ≤ 19 := by
    rw [Nat.length_toDigits_le_iff (by decide) (by decide)]
    omega
  cases number with
  | ofNat number =>
      have small : number < int64Bound := Int.ofNat_lt.1 below
      have text : (toString (Int.ofNat number)).toList = Nat.toDigits 10 number := toList_toString number
      rw [text]
      exact Nat.le_succ_of_le (few (Nat.le_of_lt small))
  | negSucc number =>
      have small : number + 1 ≤ int64Bound := by omega
      rw [toList_toString_negSucc, List.length_cons]
      exact Nat.succ_le_succ (few small)

theorem toString_ne_empty (number : Int) : toString number ≠ "" := by
  cases number with
  | ofNat number => exact Nat.repr_ne_empty
  | negSucc number =>
      have written : toString (Int.negSucc number) = "-" ++ toString (number + 1) := rfl
      rw [written]
      intro empty
      simpa using congrArg String.toList empty

theorem isBlank_of_isDigit {c : Char} (digit : c.isDigit = true) : isBlank c = false := by
  simp only [Char.isDigit, Bool.and_eq_true, decide_eq_true_eq] at digit
  have low : 48 ≤ c.toNat := digit.1
  have high : c.toNat ≤ 57 := digit.2
  simp only [isBlank, Bool.or_eq_false_iff, Bool.and_eq_false_iff, decide_eq_false_iff_not, beq_eq_false_iff_ne]
  omega

theorem isBlank_of_mem_toString {number : Int} {c : Char} (member : c ∈ (toString number).toList) :
    isBlank c = false := by
  cases number with
  | ofNat number =>
      have digit : c ∈ Nat.toDigits 10 number := toList_toString number ▸ member
      exact isBlank_of_isDigit (isDigit_of_mem_digits digit)
  | negSucc number =>
      have written : toString (Int.negSucc number) = "-" ++ toString (number + 1) := rfl
      rw [written, String.toList_append, toList_toString] at member
      rcases List.mem_append.1 member with sign | digit
      · obtain rfl := List.mem_singleton.1 sign
        decide
      · exact isBlank_of_isDigit (isDigit_of_mem_digits digit)

end ArtifactGate.Text
