import Mathlib.Data.List.Infix
import StatusRegistry.Store.Like

/-!
# What patterns mean

A pattern is read into pieces, and its pieces say which texts it matches under a folding of letter
case. The matcher, which tries every end of the text at a percent sign, decides just that. The
pieces of an escaped text are its own characters, so between two percent signs it matches the texts
that contain it, whatever the folding.
-/

namespace StatusRegistry.Like

/-- What stands at one place of a pattern. -/
inductive Piece where
  /-- Any sequence of characters. -/
  | many
  /-- Any character. -/
  | one
  /-- One character, whatever it means in a pattern. -/
  | exactly (c : Char)
  deriving DecidableEq

/-- The pieces of a pattern. A backslash belongs to the character behind it; one at the end stands
for itself. -/
def pieces : List Char → List Piece
  | [] => []
  | '%' :: pattern => .many :: pieces pattern
  | '_' :: pattern => .one :: pieces pattern
  | '\\' :: c :: pattern => .exactly c :: pieces pattern
  | c :: pattern => .exactly c :: pieces pattern

/-- The texts that pieces match, where characters are compared after a folding of their case. -/
inductive Matches (fold : Char → Char) : List Piece → List Char → Prop
  | done : Matches fold [] []
  | many {ps back} (front : List Char) (rest : Matches fold ps back) :
    Matches fold (.many :: ps) (front ++ back)
  | one {ps text} (c : Char) (rest : Matches fold ps text) : Matches fold (.one :: ps) (c :: text)
  | exactly {ps text} {c d : Char} (same : fold c = fold d) (rest : Matches fold ps text) :
    Matches fold (.exactly c :: ps) (d :: text)

section

variable {fold : Char → Char} {ps : List Piece} {text : List Char}

/-- Nothing matches the empty text alone. -/
theorem matches_nil_iff : Matches fold [] text ↔ text = [] := by
  constructor
  · rintro ⟨⟩
    rfl
  · rintro rfl
    exact .done

/-- Any sequence is a front of the text. -/
theorem matches_many_iff : Matches fold (.many :: ps) text ↔
    ∃ front back, text = front ++ back ∧ Matches fold ps back := by
  constructor
  · intro matched
    cases matched with
    | many front rest => exact ⟨front, _, rfl, rest⟩
  · rintro ⟨front, back, rfl, rest⟩
    exact .many front rest

/-- Any character is one of the text. -/
theorem not_matches_one_nil : ¬Matches fold (.one :: ps) [] := nofun

/-- Any character is the first of the text. -/
theorem matches_one_cons {d : Char} : Matches fold (.one :: ps) (d :: text) ↔
    Matches fold ps text := by
  constructor
  · intro matched
    cases matched with
    | one _ rest => exact rest
  · exact .one d

/-- A character is one of the text. -/
theorem not_matches_exactly_nil {c : Char} : ¬Matches fold (.exactly c :: ps) [] := nofun

/-- A character is the first of the text, up to case. -/
theorem matches_exactly_cons {c d : Char} : Matches fold (.exactly c :: ps) (d :: text) ↔
    fold c = fold d ∧ Matches fold ps text := by
  constructor
  · intro matched
    cases matched with
    | exactly same rest => exact ⟨same, rest⟩
  · exact fun ⟨same, rest⟩ => .exactly same rest

/-- Characters are a front of the text, up to case. -/
theorem matches_literal_iff {literal : List Char} :
    Matches fold (literal.map .exactly ++ ps) text ↔
      ∃ front back, text = front ++ back ∧ literal.map fold = front.map fold ∧
        Matches fold ps back := by
  induction literal generalizing text with
  | nil =>
    constructor
    · exact fun matched => ⟨[], text, rfl, rfl, matched⟩
    · rintro ⟨front, back, rfl, empty, matched⟩
      obtain rfl := List.map_eq_nil_iff.mp empty.symm
      exact matched
  | cons c literal ih =>
    rw [List.map_cons, List.cons_append]
    constructor
    · intro matched
      cases text with
      | nil => exact absurd matched not_matches_exactly_nil
      | cons d text =>
        obtain ⟨same, matched⟩ := matches_exactly_cons.mp matched
        obtain ⟨front, back, rfl, equal, matched⟩ := ih.mp matched
        refine ⟨d :: front, back, rfl, ?_, matched⟩
        rw [List.map_cons, List.map_cons, same, equal]
    · rintro ⟨front, back, rfl, equal, matched⟩
      cases front with
      | nil => cases equal
      | cons d front =>
        rw [List.map_cons, List.map_cons] at equal
        obtain ⟨same, equal⟩ := List.cons.inj equal
        exact matches_exactly_cons.mpr ⟨same, ih.mpr ⟨front, back, rfl, equal, matched⟩⟩

/-- Characters between any two sequences occur in the text, up to case. -/
theorem matches_between_iff {literal : List Char} :
    Matches fold (.many :: (literal.map .exactly ++ [.many])) text ↔
      literal.map fold <:+: text.map fold := by
  rw [matches_many_iff]
  constructor
  · rintro ⟨before, rest, rfl, matched⟩
    obtain ⟨front, back, rfl, equal, -⟩ := matches_literal_iff.mp matched
    rw [List.map_append, List.map_append, equal]
    exact ⟨before.map fold, back.map fold, List.append_assoc _ _ _⟩
  · rintro ⟨before, after, whole⟩
    obtain ⟨left, back, rfl, leftEqual, -⟩ := List.map_eq_append_iff.mp whole.symm
    obtain ⟨first, front, rfl, -, frontEqual⟩ := List.map_eq_append_iff.mp leftEqual
    refine ⟨first, front ++ back, List.append_assoc _ _ _, ?_⟩
    refine matches_literal_iff.mpr ⟨front, back, rfl, frontEqual.symm, ?_⟩
    exact matches_many_iff.mpr ⟨back, [], (List.append_nil back).symm, .done⟩

end

/-- A character without a meaning of its own stands for itself. -/
theorem pieces_cons {c : Char} {pattern : List Char} (notPercent : c ≠ '%')
    (notUnderscore : c ≠ '_') (notEscape : ∀ d rest, c = '\\' → pattern ≠ d :: rest) :
    pieces (c :: pattern) = .exactly c :: pieces pattern := by
  rw [pieces]
  exacts [notPercent, notUnderscore, notEscape]

/-- An escaped text reads as its own characters, whatever follows it. -/
theorem pieces_escape (text pattern : List Char) :
    pieces (escape text ++ pattern) = text.map .exactly ++ pieces pattern := by
  induction text with
  | nil => rfl
  | cons c text ih =>
    rw [escape, List.flatMap_cons, ← escape, List.append_assoc, List.map_cons, List.cons_append,
      ← ih]
    split
    · rfl
    · next plain =>
      have backslash : c ≠ '\\' := by rintro rfl; exact plain rfl
      have percent : c ≠ '%' := by rintro rfl; exact plain rfl
      have underscore : c ≠ '_' := by rintro rfl; exact plain rfl
      exact pieces_cons percent underscore fun _ _ same _ => backslash same

/-- No escape reaches the percent signs around an escaped text. -/
theorem pieces_search (text : List Char) :
    pieces ('%' :: escape text ++ ['%']) = .many :: (text.map .exactly ++ [.many]) := by
  rw [List.cons_append, pieces, pieces_escape]
  rfl

/-- The ends of a text are its suffixes. -/
theorem mem_suffixes {back text : List Char} : back ∈ suffixes text ↔ back <:+ text := by
  induction text with
  | nil => rw [suffixes, List.mem_singleton, List.suffix_nil]
  | cons c text ih => rw [suffixes, List.mem_cons, ih, List.suffix_cons_iff]

/-- The matcher decides what the pieces of a pattern match, under every folding. -/
theorem isMatch_iff {fold : Char → Char} {pattern text : List Char} :
    isMatch fold pattern text = true ↔ Matches fold (pieces pattern) text := by
  induction pattern using pieces.induct generalizing text with
  | case1 => rw [isMatch, pieces, matches_nil_iff, List.isEmpty_iff]
  | case2 pattern ih =>
    rw [isMatch, pieces, matches_many_iff, List.any_eq_true]
    constructor
    · rintro ⟨back, member, matched⟩
      obtain ⟨front, rfl⟩ := mem_suffixes.mp member
      exact ⟨front, back, rfl, ih.mp matched⟩
    · rintro ⟨front, back, rfl, matched⟩
      exact ⟨back, mem_suffixes.mpr ⟨front, rfl⟩, ih.mpr matched⟩
  | case3 pattern ih =>
    rw [pieces]
    cases text with
    | nil => exact iff_of_false nofun not_matches_one_nil
    | cons d text => rw [matches_one_cons, ← ih, isMatch]
  | case4 c pattern ih =>
    rw [pieces]
    cases text with
    | nil => exact iff_of_false nofun not_matches_exactly_nil
    | cons d text =>
      rw [matches_exactly_cons, ← ih, isMatch, Bool.and_eq_true, decide_eq_true_eq]
      exact and_congr_left' eq_comm
  | case5 c pattern notPercent notUnderscore notEscape ih =>
    rw [pieces_cons notPercent notUnderscore notEscape]
    cases text with
    | nil =>
      refine iff_of_false ?_ not_matches_exactly_nil
      rw [isMatch]
      exacts [nofun, notPercent, notUnderscore, notEscape]
    | cons d text =>
      rw [matches_exactly_cons, ← ih, isMatch, Bool.and_eq_true, decide_eq_true_eq]
      exacts [and_congr_left' eq_comm, notPercent, notUnderscore, notEscape]

/-- The pattern of a text occurs where the text does, up to case. -/
theorem contains_escape_iff {fold : Char → Char} {text whole : String} :
    contains fold (String.ofList (escape text.toList)) whole = true ↔
      text.toList.map fold <:+: whole.toList.map fold := by
  rw [contains, isMatch_iff, String.toList_ofList, pieces_search, matches_between_iff]

end StatusRegistry.Like
