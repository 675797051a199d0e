import ArtifactGate.Http.Target
import ArtifactGate.Proofs.Text.Split
import ArtifactGate.Proofs.Wire.Lines
import Mathlib.Data.List.Basic

/-!
Paths in urls. What is escaped shows no separator and no dot segment that the text did not have, so the
segments of a url's path are the segments of the text, and dot segments are resolved among them.
-/
namespace ArtifactGate

namespace Text

theorem utf8EncodeChar_of_ascii {c : Char} (ascii : c.toNat < 128) :
    String.utf8EncodeChar c = [UInt8.ofNat c.toNat] := by
  have value : c.val.toNat ≤ 127 := Nat.le_of_lt_succ ascii
  simp only [String.utf8EncodeChar, value, if_true]
  rfl

theorem le_of_mem_utf8EncodeChar {c : Char} (other : 128 ≤ c.toNat) {byte : UInt8}
    (member : byte ∈ String.utf8EncodeChar c) : 128 ≤ byte.toNat := by
  have value : ¬c.val.toNat ≤ 127 := Nat.not_le.2 other
  have high {number : Nat} (large : 128 ≤ number) (small : number < 256)
      (same : byte = UInt8.ofNat number) : 128 ≤ byte.toNat := by
    rw [same, UInt8.toNat_ofNat', Nat.mod_eq_of_lt small]
    exact large
  simp only [String.utf8EncodeChar, value, if_false] at member
  split at member
  · simp only [List.mem_cons, List.not_mem_nil, or_false] at member
    rcases member with same | same <;> exact high (by omega) (by omega) same
  · split at member <;> simp only [List.mem_cons, List.not_mem_nil, or_false] at member
    · rcases member with same | same | same <;> exact high (by omega) (by omega) same
    · rcases member with same | same | same | same <;> exact high (by omega) (by omega) same

end Text

namespace Http

/-- How one character is written in a url. -/
def escape (plain : Char → Bool) (c : Char) : List Char :=
  (String.utf8EncodeChar c).flatMap (encodeByte plain)

theorem encodeText_eq (plain : Char → Bool) (text : String) :
    encodeText plain text = text.toList.flatMap (escape plain) := by
  rw [encodeText, Text.encode_eq_flatMap, List.flatMap_assoc]
  rfl

section Escaping

variable {plain : Char → Bool} {c : Char}

theorem escape_of_plain (ascii : c.toNat < 128) (shown : plain c = true) : escape plain c = [c] := by
  have small : UInt8.ofNat c.toNat < 0x80 := by
    rw [UInt8.lt_iff_toNat_lt, UInt8.toNat_ofNat', Nat.mod_eq_of_lt (by omega)]
    exact ascii
  have same : Char.ofNat (UInt8.ofNat c.toNat).toNat = c := by
    rw [UInt8.toNat_ofNat', Nat.mod_eq_of_lt (by omega), Char.ofNat_toNat]
  rw [escape, Text.utf8EncodeChar_of_ascii ascii, List.flatMap_singleton, encodeByte, same, shown]
  simp only [small, decide_true, Bool.and_self, if_true]

/-- A character is written as it is, or all of it is escaped. -/
theorem escape_cases (plain : Char → Bool) (c : Char) :
    (c.toNat < 128 ∧ plain c = true ∧ escape plain c = [c]) ∨
      ∃ (byte : UInt8) (rest : List UInt8), escape plain c = percent byte ++ rest.flatMap percent ∧
        (plain c = false ∧ byte.toNat = c.toNat ∨ 128 ≤ byte.toNat) := by
  by_cases ascii : c.toNat < 128
  · cases shown : plain c with
    | true => exact .inl ⟨ascii, rfl, escape_of_plain ascii shown⟩
    | false =>
        have code : (UInt8.ofNat c.toNat).toNat = c.toNat := by
          rw [UInt8.toNat_ofNat', Nat.mod_eq_of_lt (by omega)]
        refine .inr ⟨UInt8.ofNat c.toNat, [], ?_, .inl ⟨rfl, code⟩⟩
        rw [escape, Text.utf8EncodeChar_of_ascii ascii, List.flatMap_singleton, encodeByte, code,
          Char.ofNat_toNat, shown]
        simp
  · have escaped (byte : UInt8) (member : byte ∈ String.utf8EncodeChar c) :
        128 ≤ byte.toNat ∧ encodeByte plain byte = percent byte := by
      have large := Text.le_of_mem_utf8EncodeChar (Nat.not_lt.1 ascii) member
      refine ⟨large, ?_⟩
      have high : ¬byte < 0x80 := by
        rw [UInt8.lt_iff_toNat_lt]
        exact Nat.not_lt.2 large
      simp only [encodeByte, high, decide_false, Bool.false_and, Bool.false_eq_true, if_false]
    obtain ⟨byte, rest, bytes⟩ :=
      List.exists_cons_of_ne_nil (List.ne_nil_of_length_pos (String.length_utf8EncodeChar c ▸ c.utf8Size_pos))
    rw [bytes] at escaped
    obtain ⟨⟨large, first⟩, others⟩ := List.forall_mem_cons.1 escaped
    refine .inr ⟨byte, rest, ?_, .inr large⟩
    rw [escape, bytes, List.flatMap_cons, first,
      List.flatMap_congr fun byte member => (others byte member).2]

end Escaping

/-- The characters that a url's path shows as they are, without those that separate segments. -/
def isInSegment (c : Char) : Bool :=
  isShown hiddenInPath c && !isSeparator c

theorem isInSegment_of_mem_percent {byte : UInt8} : ∀ c ∈ percent byte, isInSegment c = true := by
  have all : ∀ number < 256, (percent (UInt8.ofNat number)).all isInSegment = true := by
    decide +kernel
  have known := all byte.toNat byte.toNat_lt
  rw [UInt8.ofNat_toNat] at known
  exact List.all_eq_true.1 known

theorem isInSegment_of_mem_escaped {bytes : List UInt8} :
    ∀ c ∈ bytes.flatMap percent, isInSegment c = true := by
  intro c member
  obtain ⟨byte, _, member⟩ := List.mem_flatMap.1 member
  exact isInSegment_of_mem_percent c member

theorem isInSegment_of_plainInPath {c : Char} (inner : c ≠ '/') (ascii : c.toNat < 128)
    (shown : plainInPath c = true) : isInSegment c = true := by
  have all : ∀ number < 128, plainInPath (Char.ofNat number) = true → Char.ofNat number ≠ '/' →
      isInSegment (Char.ofNat number) = true := by
    decide +kernel
  have known := all c.toNat ascii
  rw [Char.ofNat_toNat] at known
  exact known shown inner

theorem isSeparator_of_isInSegment {c : Char} (inner : isInSegment c = true) : isSeparator c = false := by
  rw [isInSegment, Bool.and_eq_true, Bool.not_eq_true'] at inner
  exact inner.2

/-- What is escaped is written without separators. -/
theorem isInSegment_of_mem_escape {plain : Char → Bool} {c : Char}
    (inner : c.toNat < 128 → plain c = true → isInSegment c = true) :
    ∀ d ∈ escape plain c, isInSegment d = true := by
  intro d member
  rcases escape_cases plain c with ⟨ascii, shown, same⟩ | ⟨byte, rest, escaped, _⟩
  · rw [same, List.mem_singleton] at member
    exact member ▸ inner ascii shown
  · rw [escaped, List.mem_append] at member
    rcases member with member | member
    · exact isInSegment_of_mem_percent d member
    · exact isInSegment_of_mem_escaped d member

theorem escape_slash : escape plainInPath '/' = ['/'] :=
  escape_of_plain (by decide) (by decide)

theorem escape_dot : escape plainInPath '.' = ['.'] :=
  escape_of_plain (by decide) (by decide)

/-- The segments of a path as a url writes them; what follows the path stands after the last. -/
def written (tail : List Char) : List (List Char) → List (List Char)
  | [] => []
  | [last] => [last.flatMap (escape plainInPath) ++ tail]
  | segment :: rest => segment.flatMap (escape plainInPath) :: written tail rest

theorem written_cons (tail segment : List Char) {rest : List (List Char)} (more : rest ≠ []) :
    written tail (segment :: rest) = segment.flatMap (escape plainInPath) :: written tail rest := by
  cases rest with
  | nil => exact absurd rfl more
  | cons next rest => rfl

theorem written_prepend (tail : List Char) (c : Char) (segment : List Char) (rest : List (List Char)) :
    ∃ first others, written tail (segment :: rest) = first :: others ∧
      written tail ((c :: segment) :: rest) = (escape plainInPath c ++ first) :: others := by
  cases rest with
  | nil =>
      refine ⟨_, _, rfl, ?_⟩
      simp only [written, List.flatMap_cons, List.append_assoc]
  | cons next rest =>
      refine ⟨_, _, rfl, ?_⟩
      simp only [written, List.flatMap_cons]

theorem pieces_prepend {field : List Char} (inner : ∀ c ∈ field, isSeparator c = false) {text first : List Char}
    {others : List (List Char)} (split : Text.pieces isSeparator text = first :: others) :
    Text.pieces isSeparator (field ++ text) = (field ++ first) :: others := by
  induction field with
  | nil => exact split
  | cons c field ih =>
      have other := inner c List.mem_cons_self
      rw [List.cons_append, Text.pieces, ih fun d member => inner d (List.mem_cons_of_mem _ member), other]
      rfl

/-- The segments of an escaped path are the escaped segments of the path. -/
theorem pieces_escaped {tail : List Char} (inner : ∀ c ∈ tail, isSeparator c = false) (path : List Char) :
    Text.pieces isSeparator (path.flatMap (escape plainInPath) ++ tail) =
      written tail (Text.pieces Location.isSlash path) := by
  induction path with
  | nil => exact Text.pieces_of_none inner
  | cons c path ih =>
      obtain ⟨segment, rest, split⟩ :=
        List.exists_cons_of_ne_nil (Text.pieces_ne_nil Location.isSlash path)
      rw [List.flatMap_cons, List.append_assoc, Text.pieces]
      by_cases slash : c = '/'
      · rw [slash, escape_slash, List.singleton_append, Text.pieces, ih, split]
        rfl
      · obtain ⟨first, others, before, after⟩ := written_prepend tail c segment rest
        have other : Location.isSlash c = false := beq_false_of_ne slash
        have inner (d : Char) (member : d ∈ escape plainInPath c) : isSeparator d = false :=
          isSeparator_of_isInSegment (isInSegment_of_mem_escape (isInSegment_of_plainInPath slash) d member)
        rw [pieces_prepend inner (ih.trans (split ▸ before)), other, split]
        exact after.symm

/-! Dot segments. -/

theorem byte_of_hidden_dot {byte : UInt8} (hidden : hexDigit (byte.toNat / 16) = '2' ∧
    (hexDigit (byte.toNat % 16) = 'e' ∨ hexDigit (byte.toNat % 16) = 'E')) : byte.toNat = 46 := by
  have all : ∀ number < 256, hexDigit (number / 16) = '2' ∧
      (hexDigit (number % 16) = 'e' ∨ hexDigit (number % 16) = 'E') → number = 46 := by
    decide +kernel
  exact all byte.toNat byte.toNat_lt hidden

theorem dots_of_bare {segment : List Char} (shown : ∀ rest, segment ≠ '.' :: rest)
    (hidden : ∀ e rest, segment = '%' :: '2' :: e :: rest → ¬(e = 'e' ∨ e = 'E')) :
    dots segment = segment := by
  unfold dots
  split
  · rename_i e rest
    rw [if_neg]
    rw [Bool.or_eq_true, decide_eq_true_eq, decide_eq_true_eq]
    exact hidden e rest rfl
  · exact absurd rfl (shown _)
  · rfl

theorem dots_escape {c : Char} (other : c ≠ '.') (rest : List Char) :
    dots (escape plainInPath c ++ rest) = escape plainInPath c ++ rest := by
  rcases escape_cases plainInPath c with ⟨_, shown, plain⟩ | ⟨byte, more, escaped, code⟩
  · rw [plain, List.singleton_append]
    apply dots_of_bare
    · intro rest same
      exact other (List.cons.inj same).1
    · intro e rest same
      rw [(List.cons.inj same).1] at shown
      exact absurd shown (by decide)
  · rw [escaped, percent]
    apply dots_of_bare
    · intro rest same
      exact absurd (List.cons.inj same).1 (by decide)
    · intro e rest same hidden
      simp only [List.cons_append, List.cons.injEq] at same
      obtain ⟨_, first, second, _⟩ := same
      have dot := byte_of_hidden_dot ⟨first, second ▸ hidden⟩
      rcases code with ⟨_, same⟩ | large
      · exact other (Char.toNat_inj.1 (same.symm.trans dot))
      · omega

/-- Escaping leaves no hidden dots. -/
theorem dots_escaped {tail : List Char} (bare : dots tail = tail) (segment : List Char) :
    dots (segment.flatMap (escape plainInPath) ++ tail) = segment.flatMap (escape plainInPath) ++ tail := by
  induction segment with
  | nil => exact bare
  | cons c segment ih =>
      rw [List.flatMap_cons, List.append_assoc]
      by_cases dot : c = '.'
      · rw [dot, escape_dot, List.singleton_append, dots, ih]
      · exact dots_escape dot _

/-- No text is escaped into dots but dots. -/
theorem eq_of_escaped {segment text : List Char} (dotted : ∀ c ∈ text, c = '.')
    (same : segment.flatMap (escape plainInPath) = text) : segment = text := by
  induction segment generalizing text with
  | nil => exact same
  | cons c segment ih =>
      subst same
      rw [List.flatMap_cons] at dotted ⊢
      obtain rfl : c = '.' := by
        rcases escape_cases plainInPath c with ⟨_, _, plain⟩ | ⟨byte, more, escaped, _⟩
        · exact dotted c (List.mem_append_left _ (plain ▸ List.mem_singleton_self c))
        · have percent : '%' = '.' := dotted '%' (List.mem_append_left _ (escaped ▸ List.mem_cons_self))
          exact absurd percent (by decide)
      rw [escape_dot, List.singleton_append,
        ← ih (fun d member => dotted d (List.mem_append_right _ member)) rfl]

/-- What may stand after a path in a url. -/
def Follows (tail : List Char) : Prop :=
  (∀ c ∈ tail, isInSegment c = true) ∧ ∀ c, tail.head? = some c → c = ';'

theorem follows_nil : Follows [] :=
  ⟨List.forall_mem_nil _, fun _ none => nomatch none⟩

theorem eq_of_dots_escaped {tail segment text : List Char} (follows : Follows tail)
    (dotted : ∀ c ∈ text, c = '.') (same : dots (segment.flatMap (escape plainInPath) ++ tail) = text) :
    segment = text := by
  have bare : dots tail = tail := by
    apply dots_of_bare
    · intro rest shape
      have first := follows.2 _ (congrArg List.head? shape)
      exact absurd first (by decide)
    · intro e rest shape
      have first := follows.2 _ (congrArg List.head? shape)
      exact absurd first (by decide)
  rw [dots_escaped bare] at same
  cases tail with
  | nil =>
      rw [List.append_nil] at same
      exact eq_of_escaped dotted same
  | cons c tail =>
      have semicolon := follows.2 c rfl
      have dot := dotted c (same ▸ List.mem_append_right _ List.mem_cons_self)
      rw [semicolon] at dot
      exact absurd dot (by decide)

theorem isAbove_escaped {tail segment : List Char} (follows : Follows tail)
    (above : isAbove (segment.flatMap (escape plainInPath) ++ tail) = true) : segment = ['.', '.'] :=
  eq_of_dots_escaped follows (by simp) (eq_of_beq above)

theorem isHere_escaped {tail segment : List Char} (follows : Follows tail)
    (here : isHere (segment.flatMap (escape plainInPath) ++ tail) = true) : segment = ['.'] :=
  eq_of_dots_escaped follows (by simp) (eq_of_beq here)

/-- Going along the segments, from `depth` levels below a directory, leads above it. -/
def climbs (depth : Nat) : List (List Char) → Bool
  | [] => false
  | segment :: rest =>
    if segment = ['.', '.'] then depth == 0 || climbs (depth - 1) rest
    else if segment = ['.'] then climbs depth rest
    else climbs (depth + 1) rest

theorem written_ne_nil (tail : List Char) {segments : List (List Char)} (some : segments ≠ []) :
    written tail segments ≠ [] := by
  cases segments with
  | nil => exact absurd rfl some
  | cons segment rest =>
      obtain ⟨first, others, shape, _⟩ := written_prepend tail '.' segment rest
      rw [shape]
      exact List.cons_ne_nil first others

/-- A path that does not lead above a directory is resolved to one below it. -/
theorem resolveAfter_below {tail : List Char} (follows : Follows tail) (kept : List (List Char))
    {segments : List (List Char)} (some : segments ≠ []) (below : List (List Char))
    (stays : climbs below.length segments = false) :
    ∃ first rest, resolveAfter (below ++ kept) (written tail segments) = kept.reverse ++ first :: rest := by
  have whole (first : List Char) (below : List (List Char)) :
      ∃ start rest, (first :: (below ++ kept)).reverse = kept.reverse ++ start :: rest := by
    obtain ⟨start, rest, shape⟩ := List.exists_cons_of_ne_nil (List.reverse_ne_nil_iff.2 (List.cons_ne_nil first below))
    refine ⟨start, rest, ?_⟩
    rw [← List.cons_append, List.reverse_append, shape]
  induction segments generalizing below with
  | nil => exact absurd rfl some
  | cons segment rest ih =>
      cases rest with
      | nil =>
          simp only [written, resolveAfter, List.isEmpty_nil, if_true]
          split
          · rename_i above
            rw [isAbove_escaped follows above, climbs, if_pos rfl] at stays
            cases below with
            | nil => cases stays
            | cons segment below => exact whole [] below
          · split
            · exact whole [] below
            · exact whole _ below
      | cons next rest =>
          have more : (written tail (next :: rest)).isEmpty = false :=
            List.isEmpty_eq_false_iff.2 (written_ne_nil tail (List.cons_ne_nil next rest))
          have plain := List.append_nil (segment.flatMap (escape plainInPath))
          rw [written_cons tail segment (List.cons_ne_nil next rest), resolveAfter, more]
          simp only [Bool.false_eq_true, if_false]
          rw [climbs] at stays
          by_cases above : segment = ['.', '.']
          · rw [if_pos above] at stays
            cases below with
            | nil => cases stays
            | cons last below =>
                have shown : isAbove (segment.flatMap (escape plainInPath)) = true := above ▸ by decide +kernel
                rw [if_pos shown]
                exact ih (List.cons_ne_nil next rest) _ stays
          · have hidden : ¬isAbove (segment.flatMap (escape plainInPath)) = true := fun shown =>
              above (isAbove_escaped follows_nil (plain.symm ▸ shown))
            rw [if_neg above] at stays
            rw [if_neg hidden]
            by_cases here : segment = ['.']
            · have shown : isHere (segment.flatMap (escape plainInPath)) = true := here ▸ by decide +kernel
              rw [if_pos here] at stays
              rw [if_pos shown]
              exact ih (List.cons_ne_nil next rest) _ stays
            · have hidden : ¬isHere (segment.flatMap (escape plainInPath)) = true := fun shown =>
                here (isHere_escaped follows_nil (plain.symm ▸ shown))
              rw [if_neg here] at stays
              rw [if_neg hidden]
              exact ih (List.cons_ne_nil next rest) (segment.flatMap (escape plainInPath) :: below) stays

/-- The segments that are left, the last of them first, once these were gone along and others follow. -/
def keptAfter (kept : List (List Char)) : List (List Char) → List (List Char)
  | [] => kept
  | segment :: rest =>
    keptAfter (if isAbove segment then kept.tail else if isHere segment then kept else segment :: kept) rest

theorem resolveAfter_append (kept front : List (List Char)) {rest : List (List Char)} (more : rest ≠ []) :
    resolveAfter kept (front ++ rest) = resolveAfter (keptAfter kept front) rest := by
  induction front generalizing kept with
  | nil => rfl
  | cons segment front ih =>
      have follows : (front ++ rest).isEmpty = false :=
        List.isEmpty_eq_false_iff.2 (List.append_ne_nil_of_right_ne_nil front more)
      rw [List.cons_append, resolveAfter, follows, keptAfter, ← ih]
      simp only [Bool.false_eq_true, if_false]
      split
      · rfl
      · split <;> rfl

end Http

end ArtifactGate
