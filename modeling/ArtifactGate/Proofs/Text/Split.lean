import ArtifactGate.Text.Split

/-!
Text that is cut at separators: fields that were joined are the fields that are cut, and what is cut off is
what stood before the first separator.
-/
namespace ArtifactGate.Text

section Fields

variable {sep : Char → Bool} {field : List Char}

theorem pieces_of_none (none : ∀ c ∈ field, sep c = false) : pieces sep field = [field] := by
  induction field with
  | nil => rfl
  | cons c rest ih =>
      have other := none c List.mem_cons_self
      rw [pieces, ih fun d member => none d (List.mem_cons_of_mem _ member), other]
      rfl

theorem pieces_append (none : ∀ c ∈ field, sep c = false) {mark : Char} (marks : sep mark = true)
    (rest : List Char) : pieces sep (field ++ mark :: rest) = field :: pieces sep rest := by
  induction field with
  | nil => rw [List.nil_append, pieces, marks, if_pos rfl]
  | cons c field ih =>
      have other := none c List.mem_cons_self
      rw [List.cons_append, pieces, ih fun d member => none d (List.mem_cons_of_mem _ member), other]
      rfl

theorem splitFirst_append {c : Char} (absent : c ∉ field) (rest : List Char) :
    splitFirst c (field ++ c :: rest) = some (field, rest) := by
  induction field with
  | nil => rw [List.nil_append, splitFirst, if_pos rfl]
  | cons d field ih =>
      have other : d ≠ c := fun same => absent (same ▸ List.mem_cons_self)
      rw [List.cons_append, splitFirst, if_neg other,
        ih fun member => absent (List.mem_cons_of_mem _ member)]
      rfl

theorem eq_of_splitFirst {c : Char} {cs rest : List Char} (split : splitFirst c cs = some (field, rest)) :
    cs = field ++ c :: rest ∧ c ∉ field := by
  induction cs generalizing field with
  | nil => cases split
  | cons d cs ih =>
      rw [splitFirst] at split
      by_cases here : d = c
      · rw [if_pos here] at split
        cases split
        exact ⟨here ▸ rfl, List.not_mem_nil⟩
      · rw [if_neg here, Option.map_eq_some_iff] at split
        obtain ⟨⟨front, back⟩, split, same⟩ := split
        cases same
        obtain ⟨rfl, absent⟩ := ih split
        refine ⟨rfl, ?_⟩
        intro member
        rcases List.mem_cons.1 member with same | member
        · exact here same.symm
        · exact absent member

theorem not_mem_of_splitFirst {c : Char} {cs : List Char} (none : splitFirst c cs = none) : c ∉ cs := by
  intro member
  obtain ⟨front, rest, rfl, absent⟩ := List.eq_append_cons_of_mem member
  rw [splitFirst_append absent] at none
  cases none

theorem pieces_append_pieces {mark : Char} (marks : sep mark = true) (front rest : List Char) :
    pieces sep (front ++ mark :: rest) = pieces sep front ++ pieces sep rest := by
  induction front with
  | nil =>
      have none : ∀ c ∈ ([] : List Char), sep c = false := List.forall_mem_nil _
      exact pieces_append none marks rest
  | cons c front ih =>
      rw [List.cons_append, pieces, ih, pieces]
      split
      · rfl
      · obtain ⟨piece, more, split⟩ := List.exists_cons_of_ne_nil (pieces_ne_nil sep front)
        rw [split]
        rfl

end Fields

theorem mem_of_mem_pieces {sep : Char → Bool} {text piece : List Char} (among : piece ∈ pieces sep text)
    {c : Char} (member : c ∈ piece) : c ∈ text := by
  induction text generalizing piece with
  | nil =>
      rw [pieces, List.mem_singleton] at among
      exact among ▸ member
  | cons d text ih =>
      obtain ⟨first, others, split⟩ := List.exists_cons_of_ne_nil (pieces_ne_nil sep text)
      rw [pieces, split] at among
      rw [split] at ih
      split at among
      · rcases List.mem_cons.1 among with rfl | among
        · cases member
        · exact List.mem_cons_of_mem _ (ih among member)
      · rcases List.mem_cons.1 among with rfl | among
        · rcases List.mem_cons.1 member with rfl | member
          · exact List.mem_cons_self
          · exact List.mem_cons_of_mem _ (ih List.mem_cons_self member)
        · exact List.mem_cons_of_mem _ (ih (List.mem_cons_of_mem _ among) member)

theorem dropTrailing_of_none {p : Char → Bool} {cs last : List Char} (some : last ≠ [])
    (none : ∀ c ∈ last, p c = false) : dropTrailing p (cs ++ last) = cs ++ last := by
  obtain ⟨c, rest, shape⟩ := List.exists_cons_of_ne_nil (mt List.reverse_eq_nil_iff.1 some)
  have kept : p c = false := none c (List.mem_reverse.1 (shape ▸ List.mem_cons_self))
  have whole : (cs ++ last).reverse = c :: (rest ++ cs.reverse) := by
    rw [List.reverse_append, shape, List.cons_append]
  rw [dropTrailing, whole, List.dropWhile_cons_of_neg (by simp [kept]), ← whole, List.reverse_reverse]

theorem dropTrailing_snoc {p : Char → Bool} {cs : List Char} {c : Char} (dropped : p c = true) :
    dropTrailing p (cs ++ [c]) = dropTrailing p cs := by
  simp only [dropTrailing, List.reverse_append, List.reverse_singleton, List.singleton_append,
    List.dropWhile_cons, dropped, if_true]

theorem takeWhile_append_cons {p : Char → Bool} {mark : Char} (stops : p mark = false) (front rest : List Char) :
    (front ++ mark :: rest).takeWhile p = front.takeWhile p := by
  induction front with
  | nil => rw [List.nil_append, List.takeWhile_cons_of_neg (by simp [stops]), List.takeWhile_nil]
  | cons c front ih =>
      rw [List.cons_append, List.takeWhile_cons, List.takeWhile_cons, ih]

theorem dropWhile_append_cons {p : Char → Bool} {mark : Char} (stops : p mark = false) (front rest : List Char) :
    (front ++ mark :: rest).dropWhile p = front.dropWhile p ++ mark :: rest := by
  induction front with
  | nil => rw [List.nil_append, List.dropWhile_cons_of_neg (by simp [stops]), List.dropWhile_nil, List.nil_append]
  | cons c front ih =>
      rw [List.cons_append, List.dropWhile_cons, List.dropWhile_cons, ih]
      split <;> rfl

theorem takeTrailing_of_all {p : Char → Bool} {cs last : List Char} (all : ∀ c ∈ last, p c = true)
    (ends : ∀ c, cs.getLast? = some c → p c = false) : takeTrailing p (cs ++ last) = last := by
  have taken : cs.reverse.takeWhile p = [] := by
    cases reversed : cs.reverse with
    | nil => rfl
    | cons c rest =>
        refine List.takeWhile_cons_of_neg (Bool.eq_false_iff.1 (ends c ?_))
        rw [← List.head?_reverse, reversed]
        rfl
  have kept : ∀ c ∈ last.reverse, p c = true := fun c member => all c (List.mem_reverse.1 member)
  rw [takeTrailing, List.reverse_append, List.takeWhile_append_of_pos kept, taken, List.append_nil,
    List.reverse_reverse]

theorem occursIn_iff {needle text : List Char} : occursIn needle text = true ↔ needle <:+: text := by
  induction text with
  | nil => rw [occursIn, List.isEmpty_iff, List.infix_nil]
  | cons c text ih => rw [occursIn, Bool.or_eq_true, ih, List.isPrefixOf_iff_prefix, List.infix_cons_iff]

/-- A word occurs only after what lacks its first character. -/
theorem occursIn_append {c : Char} {needle front : List Char} (absent : c ∉ front) (text : List Char) :
    occursIn (c :: needle) (front ++ text) = occursIn (c :: needle) text := by
  induction front with
  | nil => rfl
  | cons d front ih =>
      obtain ⟨other, absent⟩ := not_or.1 (fun member => absent (List.mem_cons.2 member))
      rw [List.cons_append, occursIn, List.isPrefixOf, beq_false_of_ne other, Bool.false_and, Bool.false_or,
        ih absent]

theorem takeTrailing_all {p : Char → Bool} {cs : List Char} : ∀ c ∈ takeTrailing p cs, p c = true :=
  fun c member => List.all_eq_true.1 List.all_takeWhile c (List.mem_reverse.1 member)

theorem not_of_dropTrailing {p : Char → Bool} {cs : List Char} {c : Char}
    (last : (dropTrailing p cs).getLast? = some c) : p c = false := by
  rw [dropTrailing, List.getLast?_reverse] at last
  have stops := List.head?_dropWhile_not p cs.reverse
  rw [last] at stops
  exact stops

end ArtifactGate.Text
