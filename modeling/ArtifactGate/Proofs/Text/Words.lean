import ArtifactGate.Proofs.Text.Split

/-!
The words of a line are what stands in it between blanks: a line has these words in this order just when it is
made of them and of blanks that keep them apart.
-/
namespace ArtifactGate.Text

/-- What a line can have as one of its words. -/
def IsWord (word : String) : Prop :=
  word ≠ "" ∧ ∀ c ∈ word.toList, isBlank c = false

instance : DecidablePred IsWord := fun word =>
  decidable_of_iff (word ≠ "" ∧ word.toList.all (fun c => !isBlank c) = true) (by simp [IsWord])

/-- The text is made of these words in turn and of blanks, with a blank or the end after each word. -/
inductive Worded : List Char → List String → Prop
  | nil : Worded [] []
  | blank {c : Char} {text : List Char} {words : List String} (blank : isBlank c = true) (rest : Worded text words) :
    Worded (c :: text) words
  | word {word : String} {text : List Char} {words : List String} (isWord : IsWord word)
    (apart : ∀ c ∈ text.head?, isBlank c = true) (rest : Worded text words) :
    Worded (word.toList ++ text) (word :: words)

namespace Worded

variable {text : List Char} {tokens : List String}

theorem words_eq (worded : Worded text tokens) : words (String.ofList text) = tokens := by
  rw [words, String.toList_ofList]
  induction worded with
  | nil => rfl
  | blank blank _ ih =>
      rw [pieces, if_pos blank]
      exact ih
  | @word word text tokens isWord apart _ ih =>
      have keeps (others : List (List Char)) :
          ((word.toList :: others).filter fun piece => !piece.isEmpty).map String.ofList =
            word :: (others.filter fun piece => !piece.isEmpty).map String.ofList := by
        have some : (!word.toList.isEmpty) = true := by simpa using isWord.1
        rw [List.filter_cons, if_pos some, List.map_cons, String.ofList_toList]
      cases text with
      | nil =>
          cases ih
          rw [List.append_nil, pieces_of_none isWord.2, keeps]
          rfl
      | cons c text =>
          -- The blank after the word ends it, and leaves an empty piece of the rest.
          have blank : isBlank c = true := apart c rfl
          rw [pieces, if_pos blank] at ih
          rw [pieces_append isWord.2 blank, keeps]
          exact congrArg _ ih

end Worded

/-- What stands before the next blank is a word. -/
theorem exists_word {c : Char} (inner : isBlank c = false) (text : List Char) :
    ∃ word rest, c :: text = String.toList word ++ rest ∧ IsWord word ∧ (∀ d ∈ rest.head?, isBlank d = true) ∧
      rest.length ≤ text.length := by
  let front := text.takeWhile fun d => !isBlank d
  let rest := text.dropWhile fun d => !isBlank d
  have whole : front ++ rest = text := List.takeWhile_append_dropWhile
  have within : ∀ d ∈ c :: front, isBlank d = false := by
    refine List.forall_mem_cons.2 ⟨inner, fun d member => ?_⟩
    simpa using List.all_eq_true.1 List.all_takeWhile d member
  have stops : ∀ d ∈ rest.head?, isBlank d = true := by
    intro d member
    have refused := List.head?_dropWhile_not (fun d => !isBlank d) text
    rw [Option.mem_def.1 member] at refused
    simpa using refused
  refine ⟨String.ofList (c :: front), rest, ?_, ⟨by simp, ?_⟩, stops, ?_⟩
  · rw [String.toList_ofList, List.cons_append, whole]
  · rwa [String.toList_ofList]
  · exact List.Sublist.length_le (List.dropWhile_sublist _)

/-- Every text has words. -/
theorem exists_worded (text : List Char) : ∃ tokens, Worded text tokens := by
  induction size : text.length using Nat.strongRecOn generalizing text with
  | ind size ih =>
      subst size
      cases text with
      | nil => exact ⟨[], .nil⟩
      | cons c text =>
          cases first : isBlank c with
          | true =>
              obtain ⟨tokens, worded⟩ := ih text.length (Nat.lt_succ_self _) text rfl
              exact ⟨tokens, .blank first worded⟩
          | false =>
              obtain ⟨word, rest, whole, isWord, apart, fewer⟩ := exists_word first text
              obtain ⟨tokens, worded⟩ := ih rest.length (Nat.lt_succ_of_le fewer) rest rfl
              exact ⟨word :: tokens, whole ▸ .word isWord apart worded⟩

theorem words_eq_iff {text : String} {tokens : List String} : words text = tokens ↔ Worded text.toList tokens := by
  constructor
  · rintro rfl
    obtain ⟨tokens, worded⟩ := exists_worded text.toList
    have read := worded.words_eq
    rw [String.ofList_toList] at read
    rwa [read]
  · intro worded
    rw [← worded.words_eq, String.ofList_toList]

theorem worded_intercalate {tokens : List String} (isWord : ∀ token ∈ tokens, IsWord token) :
    Worded (" ".intercalate tokens).toList tokens := by
  induction tokens with
  | nil => exact .nil
  | cons token tokens ih =>
      obtain ⟨first, others⟩ := List.forall_mem_cons.1 isWord
      cases tokens with
      | nil =>
          have ends : ∀ c ∈ ([] : List Char).head?, isBlank c = true := by
            rintro c ⟨⟩
          have line := Worded.word first ends .nil
          rwa [List.append_nil] at line
      | cons next tokens =>
          have line : (" ".intercalate (token :: next :: tokens)).toList =
              token.toList ++ ' ' :: (" ".intercalate (next :: tokens)).toList := by
            rw [String.intercalate_cons_cons, String.toList_append, String.toList_append, List.append_assoc]
            rfl
          have blank : isBlank ' ' = true := by decide
          have apart : ∀ c ∈ (' ' :: (" ".intercalate (next :: tokens)).toList).head?, isBlank c = true := by
            rintro c ⟨⟩
            exact blank
          rw [line]
          exact .word first apart (.blank blank (ih others))

end ArtifactGate.Text
