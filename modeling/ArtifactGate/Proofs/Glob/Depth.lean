import ArtifactGate.Glob.Scan
import ArtifactGate.Proofs.Forest

/-!
How deep a pattern matches. A run of a text is a stretch between slashes that is not empty. Without `**`, no token
of a pattern stands for a slash but the slash itself, so what a pattern matches has no more runs than its text.
-/
namespace ArtifactGate

namespace Text

/-- How many runs begin in a text, inside or outside a run. -/
def runs : Bool → List Char → Nat
  | _, [] => 0
  | inside, c :: cs =>
    if Location.isSlash c then runs false cs else (if inside then 0 else 1) + runs true cs

variable {c : Char} {cs : List Char}

theorem runs_slash (inside : Bool) (cs : List Char) : runs inside ('/' :: cs) = runs false cs := rfl

theorem runs_cons (other : c ≠ '/') (inside : Bool) (cs : List Char) :
    runs inside (c :: cs) = (if inside then 0 else 1) + runs true cs := by
  have noSlash : Location.isSlash c = false := beq_false_of_ne other
  rw [runs, noSlash]
  rfl

theorem runs_inside_le (inside : Bool) (cs : List Char) : runs true cs ≤ runs inside cs := by
  cases cs with
  | nil => exact Nat.le_refl 0
  | cons c cs => cases inside <;> simp only [runs] <;> split <;> simp

theorem runs_append_slashless {front : List Char} (slashless : '/' ∉ front) (some : front ≠ []) (inside : Bool)
    (cs : List Char) : runs inside (front ++ cs) = (if inside then 0 else 1) + runs true cs := by
  induction front generalizing inside with
  | nil => exact absurd rfl some
  | cons c front ih =>
      rw [List.mem_cons, not_or] at slashless
      rw [List.cons_append, runs_cons (Ne.symm slashless.1)]
      cases front with
      | nil => rfl
      | cons d front =>
          have further := ih slashless.2 (List.cons_ne_nil _ _) true
          rw [further]
          exact congrArg _ (Nat.zero_add _)

theorem runs_le_append (inside : Bool) (front cs : List Char) : runs true cs ≤ runs inside (front ++ cs) := by
  induction front generalizing inside with
  | nil => exact runs_inside_le inside cs
  | cons c front ih =>
      rw [List.cons_append, runs]
      split
      · exact ih false
      · exact Nat.le_add_left_of_le (ih true)

/-- A character and what stands for it begin as many runs, and what follows them decides. Where the second text is
inside a run and the first is not, the first may have one more. -/
theorem runs_cons_le {first : Char} {middle spelling : List Char} (other : c ≠ '/') (noSlash : first ≠ '/')
    (further : runs true cs ≤ runs true spelling) (outer inner : Bool) :
    runs inner (c :: cs) ≤ runs outer (first :: (middle ++ spelling)) + if outer && !inner then 1 else 0 := by
  have within := runs_le_append true middle spelling
  rw [runs_cons other, runs_cons noSlash]
  cases outer <;> cases inner <;> grind

/-- The runs of a text are its pieces that are not empty; inside a run the first piece has begun before. -/
theorem runs_eq_pieces (cs : List Char) :
    runs false cs = ((pieces Location.isSlash cs).filter fun piece => !piece.isEmpty).length ∧
      runs true cs = ((pieces Location.isSlash cs).tail.filter fun piece => !piece.isEmpty).length := by
  induction cs with
  | nil => exact ⟨rfl, rfl⟩
  | cons c cs ih =>
      obtain ⟨outside, inside⟩ := ih
      obtain ⟨first, more, split⟩ := List.exists_cons_of_ne_nil (pieces_ne_nil Location.isSlash cs)
      rw [split] at outside inside
      cases slash : Location.isSlash c with
      | true =>
          simp only [runs, pieces, slash, if_true, split]
          exact ⟨outside, outside⟩
      | false =>
          simp only [runs, pieces, slash, Bool.false_eq_true, if_false, if_true, split, inside]
          exact ⟨Nat.add_comm _ _, Nat.zero_add _⟩

theorem runs_intercalate {names : List String} (segments : ∀ name ∈ names, IsSegment name) :
    runs false ("/".intercalate names).toList = names.length := by
  by_cases some : names = []
  · subst some
    rfl
  · rw [(runs_eq_pieces _).1, Location.pieces_intercalate some segments, List.filter_eq_self.2, List.length_map]
    intro piece member
    obtain ⟨name, among, rfl⟩ := List.mem_map.1 member
    simpa using (segments name among).1

theorem occursIn_of_append {needle front : List Char} (absent : occursIn needle (front ++ cs) = false) :
    occursIn needle cs = false := by
  induction front with
  | nil => exact absent
  | cons c front ih =>
      rw [List.cons_append, occursIn, Bool.or_eq_false_iff] at absent
      exact ih absent.2

end Text

namespace Glob

/-- The tokens that a text without `**` is read as. -/
inductive Spells : Pattern → List Char → Prop
  | nil : Spells [] []
  | literal (c : Char) {rest : Pattern} {text : List Char} (spells : Spells rest text) :
    Spells (.literal c :: rest) (c :: text)
  | anyChar {rest : Pattern} {text : List Char} (spells : Spells rest text) :
    Spells (.anyChar :: rest) ('?' :: text)
  | anyRun {rest : Pattern} {text : List Char} (spells : Spells rest text) :
    Spells (.anyRun :: rest) ('*' :: text)
  | oneOf (ranges : List Range) (listed : List Char) {rest : Pattern} {text : List Char}
    (spells : Spells rest text) : Spells (.oneOf ranges :: rest) ('[' :: (listed ++ ']' :: text))
  | noneOf (ranges : List Range) (listed : List Char) {rest : Pattern} {text : List Char}
    (spells : Spells rest text) : Spells (.noneOf ranges :: rest) ('[' :: (listed ++ ']' :: text))

section Reading

variable {text after listed : List Char} {token : Token}

theorem splitBracket_eq_some (split : splitBracket text = some (listed, after)) : text = listed ++ ']' :: after := by
  cases text with
  | nil => cases split
  | cons first rest =>
      simp only [splitBracket] at split
      have whole := @List.takeWhile_append_dropWhile _ (fun c => c != ']') rest
      have dropped : rest.drop (rest.takeWhile fun c => c != ']').length = rest.dropWhile fun c => c != ']' := by
        conv => lhs; arg 2; rw [← whole]
        exact List.drop_left
      rw [dropped] at split
      cases closes : rest.dropWhile fun c => c != ']' with
      | nil =>
          rw [closes] at split
          cases split
      | cons c more =>
          rw [closes] at split whole
          cases split
          have stops := List.head?_dropWhile_not (fun c => c != ']') rest
          rw [closes] at stops
          obtain rfl : c = ']' := by simpa using stops
          rw [List.cons_append, whole]

/-- What a bracket is read as stands for what it says, whatever follows it. -/
theorem spells_of_readBracket (read : readBracket text = some (token, after)) :
    (∀ rest, Spells rest after → Spells (token :: rest) ('[' :: text)) ∧
      ∃ listed, text = listed ++ ']' :: after := by
  rw [readBracket.eq_def] at read
  split at read
  · rename_i text
    obtain ⟨⟨listed, _⟩, split, same⟩ := Option.map_eq_some_iff.1 read
    cases same
    rw [splitBracket_eq_some split, ← List.cons_append]
    exact ⟨fun rest spells => .noneOf _ _ spells, _, rfl⟩
  · obtain ⟨⟨listed, _⟩, split, same⟩ := Option.map_eq_some_iff.1 read
    cases same
    rw [splitBracket_eq_some split]
    exact ⟨fun rest spells => .oneOf _ _ spells, _, rfl⟩

theorem takeWhile_star_of_absent (absent : Text.occursIn "**".toList ('*' :: text) = false) :
    text.takeWhile (fun c => c == '*') = [] := by
  rw [Text.occursIn, Bool.or_eq_false_iff] at absent
  cases text with
  | nil => rfl
  | cons c text =>
      apply List.takeWhile_cons_of_neg
      intro star
      obtain rfl : c = '*' := eq_of_beq star
      cases absent.1

/-- One token is read, and the rest is read after it. -/
theorem spells_cons {before tokens : List Token} (spells : ∀ rest, Spells rest after → Spells (token :: rest) text)
    (others : ∃ more, tokens = (token :: before).reverse ++ more ∧ Spells more after) :
    ∃ more, tokens = before.reverse ++ more ∧ Spells more text := by
  obtain ⟨more, rfl, spelled⟩ := others
  exact ⟨token :: more, by rw [List.reverse_cons, List.append_assoc, List.singleton_append], spells more spelled⟩

theorem spells_of_readTokens {fuel position : Nat} {last : Option Char} {before tokens : List Token}
    (enough : text.length ≤ fuel) (absent : Text.occursIn "**".toList text = false)
    (read : readTokens fuel position last before text = .ok tokens) :
    ∃ more, tokens = before.reverse ++ more ∧ Spells more text := by
  have tail {c : Char} {rest : List Char} (absent : Text.occursIn "**".toList (c :: rest) = false) :
      Text.occursIn "**".toList rest = false := @Text.occursIn_of_append rest _ [c] absent
  induction fuel generalizing position last before text with
  | zero =>
      obtain rfl := List.eq_nil_of_length_eq_zero (Nat.le_zero.1 enough)
      cases read
      exact ⟨[], (List.append_nil _).symm, .nil⟩
  | succ fuel ih =>
      cases text with
      | nil =>
          cases read
          exact ⟨[], (List.append_nil _).symm, .nil⟩
      | cons c rest =>
          have shorter : rest.length ≤ fuel := Nat.le_of_succ_le_succ enough
          rw [readTokens] at read
          split at read
          · rename_i question
            exact spells_cons (fun _ spells => question ▸ .anyChar spells) (ih shorter (tail absent) read)
          split at read
          · rename_i star
            subst star
            simp only [takeWhile_star_of_absent absent, List.length_nil, List.drop_zero] at read
            exact spells_cons (fun _ spells => .anyRun spells) (ih shorter (tail absent) read)
          split at read
          · rename_i opens
            subst opens
            split at read
            · rename_i token after bracket
              obtain ⟨spells, listed, rfl⟩ := spells_of_readBracket bracket
              rw [List.length_append, List.length_cons] at shorter
              have gone : Text.occursIn "**".toList after = false :=
                @Text.occursIn_of_append after _ (listed ++ [']']) (by
                  rw [List.append_assoc, List.singleton_append]
                  exact tail absent)
              exact spells_cons spells (ih (by omega) gone read)
            · cases read
          · exact spells_cons (fun _ spells => .literal c spells) (ih shorter (tail absent) read)

end Reading

namespace Pattern

variable {tokens : Pattern} {text spelling : List Char}

theorem exists_of_sweep {next : List Char → Verdict} (swept : sweep false next text = .matched) :
    ∃ taken rest, text = taken ++ rest ∧ '/' ∉ taken ∧ next rest = .matched := by
  induction text with
  | nil => exact ⟨[], [], rfl, List.not_mem_nil, swept⟩
  | cons c text ih =>
      simp only [sweep, Bool.false_and, Bool.false_eq_true, if_false, Bool.not_false, Bool.true_and, beq_iff_eq]
        at swept
      split at swept
      · cases swept
      · rename_i other
        have extend {taken : List Char} (slashless : '/' ∉ taken) : '/' ∉ c :: taken := by
          rw [List.mem_cons, not_or]
          exact ⟨Ne.symm other, slashless⟩
        split at swept
        · obtain ⟨taken, rest, rfl, slashless, matched⟩ := ih swept
          exact ⟨c :: taken, rest, rfl, extend slashless, matched⟩
        · exact ⟨[c], text, rfl, extend List.not_mem_nil, swept⟩

theorem exists_of_anyRun (matched : matchFrom (.anyRun :: tokens) text = .matched) :
    ∃ taken rest, text = taken ++ rest ∧ '/' ∉ taken ∧ matchFrom tokens rest = .matched := by
  rw [matchFrom] at matched
  split at matched
  · exact exists_of_sweep matched
  · exact ⟨[], text, rfl, List.not_mem_nil, matched⟩

theorem exists_of_token {token : Token} (single : token ≠ .anyRun ∧ token ≠ .anySegments)
    (matched : matchFrom (token :: tokens) text = .matched) :
    ∃ c rest, text = c :: rest ∧ tokenHolds c token = true ∧ matchFrom tokens rest = .matched := by
  cases text with
  | nil => cases token <;> simp_all [matchFrom]
  | cons c rest =>
      have stepped : (if tokenHolds c token then matchFrom tokens rest else .mismatch) = .matched := by
        cases token <;> simp_all [matchFrom]
      split at stepped
      · exact ⟨c, rest, rfl, ‹_›, stepped⟩
      · cases stepped

/-- What is matched has no more runs than the text of the pattern. Where the pattern is inside a run and the text is
not, a star may stand for the beginning of a run. -/
theorem runs_le_of_matched (spells : Spells tokens spelling) (matched : matchFrom tokens text = .matched)
    (outer inner : Bool) :
    Text.runs inner text ≤ Text.runs outer spelling + if outer && !inner then 1 else 0 := by
  induction spells generalizing text outer inner with
  | nil =>
      cases text with
      | nil => exact Nat.zero_le _
      | cons c text => cases matched
  | literal d spells ih =>
      obtain ⟨c, rest, rfl, same, further⟩ := exists_of_token (by simp) matched
      obtain rfl : c = d := eq_of_beq same
      by_cases slash : c = '/'
      · subst slash
        rw [Text.runs_slash, Text.runs_slash]
        exact Nat.le_add_right_of_le (ih further false false)
      · exact @Text.runs_cons_le c rest c [] _ slash slash (ih further true true) outer inner
  | anyChar spells ih =>
      obtain ⟨c, rest, rfl, holds, further⟩ := exists_of_token (by simp) matched
      have other : c ≠ '/' := by simpa [tokenHolds] using holds
      exact @Text.runs_cons_le c rest '?' [] _ other (by decide) (ih further true true) outer inner
  | oneOf ranges listed spells ih =>
      obtain ⟨c, rest, rfl, holds, further⟩ := exists_of_token (by simp) matched
      rw [tokenHolds, Bool.and_eq_true, bne_iff_ne] at holds
      have closed := Nat.le_trans (ih further true true) (Text.runs_le_append true [']'] _)
      exact @Text.runs_cons_le c rest '[' listed _ holds.1 (by decide) closed outer inner
  | noneOf ranges listed spells ih =>
      obtain ⟨c, rest, rfl, holds, further⟩ := exists_of_token (by simp) matched
      rw [tokenHolds, Bool.and_eq_true, bne_iff_ne] at holds
      have closed := Nat.le_trans (ih further true true) (Text.runs_le_append true [']'] _)
      exact @Text.runs_cons_le c rest '[' listed _ holds.1 (by decide) closed outer inner
  | anyRun spells ih =>
      obtain ⟨taken, rest, rfl, slashless, further⟩ := exists_of_anyRun matched
      rw [Text.runs_cons (by decide)]
      by_cases none : taken = []
      · subst none
        have bounded := ih further true inner
        rw [List.nil_append]
        cases outer <;> cases inner <;> grind
      · have bounded := ih further true true
        rw [Text.runs_append_slashless slashless none]
        cases outer <;> cases inner <;> grind

end Pattern

/-- The limit taken from the text of a pattern is not below the depth of any path that it matches. -/
theorem length_le_levelLimit {text : String} {limit : Nat} {pattern : Pattern} {names : List String}
    (limited : levelLimit? text = some limit) (parsed : Pattern.parse text = .ok pattern)
    (segments : ∀ name ∈ names, IsSegment name) (matched : pattern.isMatch ("/".intercalate names) = true) :
    names.length ≤ limit := by
  rw [levelLimit?] at limited
  split at limited
  · cases limited
  · rename_i absent
    cases limited
    have fuel : text.toList.length ≤ text.length := Nat.le_of_eq String.length_toList
    obtain ⟨tokens, rfl, spells⟩ := spells_of_readTokens fuel (Bool.eq_false_iff.2 absent) parsed
    have bounded := Pattern.runs_le_of_matched spells (eq_of_beq matched) false false
    rw [Text.runs_intercalate segments, (Text.runs_eq_pieces _).1] at bounded
    exact bounded

end Glob

end ArtifactGate
