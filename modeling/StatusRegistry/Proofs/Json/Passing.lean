import Mathlib.Data.List.TakeWhile
import StatusRegistry.Proofs.Json.Grammar
import StatusRegistry.Proofs.Json.Scalars

/-!
# Scalars passed over

Passing over a scalar is deciding the grammar: what is passed is a scalar, and every scalar is
passed up to the octet behind it. A number needs something after it that does not continue it, which
every value inside a bracket has.
-/

namespace StatusRegistry.Json

open Percent (hexValue?_eq_some_iff)

variable {b c : UInt8} {input octets rest written : List UInt8}

/-- The octets that may stand between tokens. -/
theorem isBlankOctet_iff :
    isBlankOctet b = true ↔ b = 0x20 ∨ b = 0x0A ∨ b = 0x09 ∨ b = 0x0D := by
  simp only [isBlankOctet, Bool.or_eq_true, decide_eq_true_eq, or_assoc]

/-- Nothing is blank. -/
theorem isBlank_nil : IsBlank [] := List.forall_mem_nil _

/-- Blanks after blanks are blank. -/
theorem IsBlank.append (blank : IsBlank octets) (more : IsBlank rest) : IsBlank (octets ++ rest) :=
  List.forall_mem_append.mpr ⟨blank, more⟩

/-- Blanks are skipped. -/
theorem IsBlank.skipBlank_append (blank : IsBlank octets) (rest : List UInt8) :
    skipBlank (octets ++ rest) = skipBlank rest :=
  List.dropWhile_append_of_pos fun b member => isBlankOctet_iff.mpr (blank b member)

/-- What is skipped is blank. -/
theorem exists_blank (input : List UInt8) :
    ∃ blank, IsBlank blank ∧ input = blank ++ skipBlank input :=
  ⟨input.takeWhile isBlankOctet,
    fun _ member => isBlankOctet_iff.mp (List.mem_takeWhile_imp member),
    (List.takeWhile_append_dropWhile).symm⟩

/-- Blanks stand before the first octet that is left. -/
theorem exists_blank_of_skipBlank (skipped : skipBlank input = b :: rest) :
    ∃ blank, IsBlank blank ∧ input = blank ++ b :: rest := by
  obtain ⟨blank, isBlank, whole⟩ := exists_blank input
  exact ⟨blank, isBlank, by rw [← skipped]; exact whole⟩

/-- What stands after a given start. -/
theorem after?_eq_some_iff {start : List UInt8} :
    after? start input = some rest ↔ input = start ++ rest := by
  rw [after?]
  constructor
  · intro found
    split at found
    case isTrue starts =>
      obtain ⟨later, rfl⟩ := List.isPrefixOf_iff_prefix.mp starts
      rw [List.drop_left] at found
      rw [Option.some.inj found]
    case isFalse => cases found
  · rintro rfl
    rw [if_pos (List.isPrefixOf_iff_prefix.mpr (List.prefix_append start rest)), List.drop_left]

/-- The letters of escapes. -/
theorem shortEscape?_eq_some_iff {ch : Char} :
    shortEscape? b = some ch ↔ (b, ch) ∈ shortEscapes := by
  constructor
  · intro found
    rw [shortEscape?] at found
    split at found
    case h_9 => cases found
    all_goals
      rename_i same
      rw [← Utf8.toUInt8_eq same.symm, ← Option.some.inj found]
      decide
  · have all : ∀ pair ∈ shortEscapes, shortEscape? pair.1 = some pair.2 := by decide
    exact all (b, ch)

/-- The letter of a code is not that of another escape. -/
theorem ne_code_of_short {ch : Char} (short : (b, ch) ∈ shortEscapes) : b ≠ 0x75 := by
  have all : ∀ pair ∈ shortEscapes, pair.1 ≠ 0x75 := by decide
  exact all (b, ch) short

/-- Digits of a code are passed while others are left. -/
theorem HexNumeral.passString_append {n left : Nat} {digits : List UInt8}
    (numeral : HexNumeral n digits) (short : digits.length < left) (rest : List UInt8) :
    passString (.code left) (digits ++ rest) = passString (.code (left - digits.length)) rest := by
  induction numeral generalizing rest with
  | nil => rfl
  | @snoc n d digits digit numeral small isDigit ih =>
    rw [List.length_append, List.length_singleton] at short
    have value : Percent.hexValue? digit = some d := hexValue?_eq_some_iff.mpr ⟨small, isDigit⟩
    rw [List.append_assoc, ih (by omega), List.singleton_append, passString]
    simp only [value, Option.isNone_some, Bool.false_eq_true, if_false]
    rw [if_neg (by omega), List.length_append, List.length_singleton, Nat.sub_sub]

/-- The last of some digits. -/
theorem IsCode.exists_last {n : Nat} {digits : List UInt8} (code : IsCode n digits) :
    ∃ m d front digit,
      HexNumeral m front ∧ front.length = 3 ∧ d < 16 ∧ digit ∈ Percent.hexDigits d ∧
      n = m * 16 + d ∧ digits = front ++ [digit] := by
  obtain ⟨numeral, four⟩ := code
  cases numeral with
  | nil => cases four
  | @snoc m d front digit numeral small isDigit =>
    rw [List.length_append, List.length_singleton] at four
    exact ⟨m, d, front, digit, numeral, by omega, small, isDigit, rfl, rfl⟩

/-- A code is passed. -/
theorem IsCode.passString_append {n : Nat} {digits : List UInt8} (code : IsCode n digits)
    (rest : List UInt8) : passString (.code 4) (digits ++ rest) = passString .plain rest := by
  obtain ⟨m, d, front, digit, numeral, three, small, isDigit, -, rfl⟩ := code.exists_last
  have value : Percent.hexValue? digit = some d := hexValue?_eq_some_iff.mpr ⟨small, isDigit⟩
  rw [List.append_assoc, numeral.passString_append (by omega), three, List.singleton_append,
    passString]
  simp only [value, Option.isNone_some, Bool.false_eq_true, if_false]
  rw [if_pos (by decide)]

/-- A string that nobody reads is passed up to its closing quote. -/
theorem Unread.passString_append (unread : Unread written) (rest : List UInt8) :
    passString .plain (written ++ 0x22 :: rest) = some rest := by
  have escape (later : List UInt8) :
      passString .plain (0x5C :: later) = passString .escape later := rfl
  induction unread with
  | nil => rfl
  | plain plain _ ih =>
    obtain ⟨quote, backslash, control⟩ := plain
    rw [List.cons_append, passString]
    simp only [if_neg quote, if_neg backslash, if_neg control]
    exact ih
  | short short _ ih =>
    rw [List.cons_append, List.cons_append, escape, passString]
    simp only [if_neg (ne_code_of_short short), shortEscape?_eq_some_iff.mpr short,
      Option.isSome_some, if_true]
    exact ih
  | @code n digits written code _ ih =>
    have opened (later : List UInt8) :
        passString .escape (0x75 :: later) = passString (.code 4) later := rfl
    rw [List.cons_append, List.cons_append, escape, opened, List.append_assoc,
      code.passString_append]
    exact ih

/-- The octets of an escape that has been begun, by where its reader stands. -/
inductive EscapeBegun : UnreadState → List UInt8 → Prop
  | plain : EscapeBegun .plain []
  | escape : EscapeBegun .escape [0x5C]
  | code {n digits left} (numeral : HexNumeral n digits) (four : digits.length + left = 4)
    (more : 0 < left) : EscapeBegun (.code left) (0x5C :: 0x75 :: digits)

/-- What is passed of a string could be left unread. The induction goes over the octets, so what has
been passed of an escape is carried along. -/
theorem unread_of_passString {state : UnreadState} {before : List UInt8}
    (begun : EscapeBegun state before) (passed : passString state input = some rest) :
    ∃ written, Unread written ∧ before ++ input = written ++ 0x22 :: rest := by
  induction input generalizing state before with
  | nil => cases passed
  | cons b later ih =>
    cases begun with
    | plain =>
      rw [passString] at passed
      split at passed
      case isTrue quote =>
        obtain rfl := Option.some.inj passed
        exact ⟨[], .nil, by rw [quote]⟩
      split at passed
      case isTrue backslash => rw [backslash]; exact ih .escape passed
      split at passed
      case isTrue => cases passed
      case isFalse quote backslash control =>
        obtain ⟨written, unread, whole⟩ := ih .plain passed
        exact ⟨b :: written, .plain ⟨quote, backslash, control⟩ unread, congrArg (b :: ·) whole⟩
    | escape =>
      rw [passString] at passed
      split at passed
      case isTrue letter => rw [letter]; exact ih (.code .nil rfl (by decide)) passed
      split at passed
      case isFalse => cases passed
      case isTrue short =>
        obtain ⟨ch, short⟩ := Option.isSome_iff_exists.mp short
        obtain ⟨written, unread, whole⟩ := ih .plain passed
        exact ⟨0x5C :: b :: written, .short (shortEscape?_eq_some_iff.mp short) unread,
          congrArg (fun tail => 0x5C :: b :: tail) whole⟩
    | @code n digits left numeral four more =>
      rw [passString] at passed
      cases value : Percent.hexValue? b with
      | none => rw [value] at passed; cases passed
      | some d =>
        rw [value] at passed
        obtain ⟨small, isDigit⟩ := hexValue?_eq_some_iff.mp value
        have longer := numeral.snoc small isDigit
        have length : (digits ++ [b]).length = digits.length + 1 := List.length_append
        simp only [Option.isNone_some, Bool.false_eq_true, if_false] at passed
        split at passed
        case isTrue last =>
          obtain ⟨written, unread, whole⟩ := ih .plain passed
          refine ⟨_, .code ⟨longer, by omega⟩ unread, ?_⟩
          rw [List.nil_append] at whole
          simp [whole]
        case isFalse =>
          obtain ⟨written, unread, whole⟩ := ih (.code longer (by omega) (by omega)) passed
          exact ⟨written, unread, by simpa using whole⟩

/-- Digits have values. -/
theorem isSome_digit? (b : UInt8) : (digit? b).isSome = isDigit b := by
  rw [digit?, isDigit]
  split
  case isTrue bounds => simp [bounds]
  case isFalse outside => simpa using outside

/-- What ends a number. -/
theorem endsNumber_iff :
    endsNumber b = true ↔ isDigit b = false ∧ b ≠ 0x2E ∧ b ≠ 0x65 ∧ b ≠ 0x45 := by
  simp [endsNumber, and_assoc]

/-- Digits are passed up to an octet that is none. -/
theorem IsDigits.passDigits_append {digits : List UInt8} (isDigits : IsDigits digits)
    (ends : isDigit b = false) (rest : List UInt8) :
    passDigits (digits ++ b :: rest) = some (b :: rest) := by
  obtain ⟨nonempty, all⟩ := isDigits
  have begins : ((digits ++ b :: rest).head?.bind digit?).isSome = true := by
    obtain ⟨first, later, rfl⟩ := List.exists_cons_of_ne_nil nonempty
    exact (isSome_digit? first).trans (all first List.mem_cons_self)
  rw [passDigits, if_pos begins, List.dropWhile_append_of_pos all,
    List.dropWhile_cons_of_neg (by simp [ends])]

/-- What is passed as digits are digits. -/
theorem isDigits_of_passDigits (passed : passDigits input = some rest) :
    ∃ digits, IsDigits digits ∧ input = digits ++ rest := by
  rw [passDigits] at passed
  split at passed
  case isFalse => cases passed
  case isTrue begins =>
    obtain rfl := Option.some.inj passed
    refine ⟨input.takeWhile isDigit, ⟨?_, fun b member => List.mem_takeWhile_imp member⟩,
      List.takeWhile_append_dropWhile.symm⟩
    cases input with
    | nil => cases begins
    | cons first later =>
      have digit : isDigit first = true := (isSome_digit? first).symm.trans begins
      rw [List.takeWhile_cons_of_pos digit]
      exact List.cons_ne_nil _ _

/-- A sign is no digit. -/
theorem ne_sign_of_isDigit (digit : isDigit b = true) : ¬(b = 0x2B ∨ b = 0x2D) := by
  rintro (rfl | rfl) <;> cases digit

/-- An exponent is passed. -/
theorem IsExponent.passExponent_append (exponent : IsExponent octets) (ends : endsNumber b = true)
    (rest : List UInt8) : passExponent (octets ++ b :: rest) = some (b :: rest) := by
  obtain ⟨noDigit, -, notLower, notUpper⟩ := endsNumber_iff.mp ends
  cases exponent with
  | absent =>
    unfold passExponent
    exact if_neg (not_or.mpr ⟨notLower, notUpper⟩)
  | @present letter sign digits isLetter isSign isDigits =>
    have passed := isDigits.passDigits_append noDigit rest
    obtain ⟨first, later, rfl⟩ := List.exists_cons_of_ne_nil isDigits.1
    unfold passExponent
    simp only [List.cons_append, if_pos isLetter]
    rcases isSign with rfl | rfl | rfl
    · have noSign := ne_sign_of_isDigit (isDigits.2 first List.mem_cons_self)
      simp only [List.nil_append, List.cons_append, if_neg noSign]
      exact passed
    · exact passed
    · exact passed

/-- What is passed as an exponent is one. -/
theorem isExponent_of_passExponent (passed : passExponent input = some rest) :
    ∃ octets, IsExponent octets ∧ input = octets ++ rest := by
  unfold passExponent at passed
  split at passed
  case h_1 =>
    obtain rfl := Option.some.inj passed
    exact ⟨[], .absent, rfl⟩
  case h_2 letter later =>
    split at passed
    case isFalse =>
      obtain rfl := Option.some.inj passed
      exact ⟨[], .absent, rfl⟩
    case isTrue isLetter =>
      split at passed
      case h_1 => cases passed
      case h_2 c digits =>
        obtain ⟨digits, isDigits, whole⟩ := isDigits_of_passDigits passed
        split at whole
        case isTrue sign =>
          have isSign : [c] = [] ∨ [c] = [0x2B] ∨ [c] = [0x2D] := by
            rcases sign with rfl | rfl
            · exact .inr (.inl rfl)
            · exact .inr (.inr rfl)
          exact ⟨_, .present isLetter isSign isDigits, by rw [whole]; rfl⟩
        case isFalse =>
          exact ⟨_, .present isLetter (.inl rfl) isDigits, by rw [whole]; rfl⟩

/-- What follows the digits before it begins with no digit. -/
theorem IsExponent.exists_cons (exponent : IsExponent octets) (ends : endsNumber b = true)
    (rest : List UInt8) :
    ∃ first later, octets ++ b :: rest = first :: later ∧ isDigit first = false ∧ first ≠ 0x2E := by
  cases exponent with
  | absent =>
    obtain ⟨noDigit, noPoint, -⟩ := endsNumber_iff.mp ends
    exact ⟨b, rest, rfl, noDigit, noPoint⟩
  | @present letter sign digits isLetter isSign isDigits =>
    refine ⟨letter, _, rfl, ?_⟩
    rcases isLetter with rfl | rfl <;> decide

/-- The whole part of a number does not start with a zero before another digit. -/
theorem IsWhole.no_leading_zero (isWhole : IsWhole octets) (ends : isDigit b = false)
    (rest : List UInt8) :
    ¬((octets ++ b :: rest).head? = some 0x30 ∧
      (((octets ++ b :: rest).drop 1).head?.bind digit?).isSome = true) := by
  obtain ⟨⟨nonempty, -⟩, alone⟩ := isWhole
  rintro ⟨zero, more⟩
  obtain ⟨first, later, rfl⟩ := List.exists_cons_of_ne_nil nonempty
  have single := alone zero
  obtain rfl : later = [] := (List.cons.inj single).2
  have digit : isDigit b = true := (isSome_digit? b).symm.trans more
  rw [ends] at digit
  cases digit

/-- A number without its sign is passed. -/
theorem IsUnsigned.passUnsigned_append (unsigned : IsUnsigned octets) (ends : endsNumber b = true)
    (rest : List UInt8) : passUnsigned (octets ++ b :: rest) = some (b :: rest) := by
  obtain ⟨whole, fraction, exponent, isWhole, isFraction, isExponent, rfl⟩ := unsigned
  obtain ⟨first, later, tail, noDigit, noPoint⟩ := isExponent.exists_cons ends rest
  have passed := isExponent.passExponent_append ends rest
  rw [tail] at passed
  rw [List.append_assoc, List.append_assoc, tail]
  cases isFraction with
  | absent =>
    rw [List.nil_append, passUnsigned, isWhole.1.passDigits_append noDigit later]
    simp only [Option.bind_eq_bind, Option.bind_some,
      if_neg (isWhole.no_leading_zero noDigit later),
      if_neg noPoint]
    exact passed
  | @present digits isDigits =>
    rw [List.cons_append, passUnsigned, isWhole.1.passDigits_append (by decide)]
    simp only [Option.bind_eq_bind, Option.bind_some,
      if_neg (isWhole.no_leading_zero (b := 0x2E) (by decide) _), if_true]
    rw [isDigits.passDigits_append noDigit later]
    exact passed

/-- What is passed as a number without its sign is one. -/
theorem isUnsigned_of_passUnsigned (passed : passUnsigned input = some rest) :
    ∃ octets, IsUnsigned octets ∧ input = octets ++ rest := by
  rw [passUnsigned] at passed
  obtain ⟨middle, digitsPassed, passed⟩ := Option.bind_eq_some_iff.mp passed
  obtain ⟨whole, isDigits, rfl⟩ := isDigits_of_passDigits digitsPassed
  dsimp only at passed
  by_cases zero : (whole ++ middle).head? = some 0x30 ∧
      (((whole ++ middle).drop 1).head?.bind digit?).isSome = true
  · rw [if_pos zero] at passed
    cases passed
  rw [if_neg zero] at passed
  have isWhole : IsWhole whole := by
    refine ⟨isDigits, fun begins => ?_⟩
    obtain ⟨first, later, rfl⟩ := List.exists_cons_of_ne_nil isDigits.1
    cases later with
    | nil => exact congrArg (· :: []) (Option.some.inj begins)
    | cons second others =>
      have digit := isDigits.2 second (List.mem_cons_of_mem _ List.mem_cons_self)
      exact absurd ⟨begins, (isSome_digit? second).trans digit⟩ zero
  split at passed
  case h_1 =>
    obtain rfl := Option.some.inj passed
    exact ⟨whole, ⟨whole, [], [], isWhole, .absent, .absent, by simp⟩, rfl⟩
  case h_2 b later =>
    split at passed
    case isTrue point =>
      obtain ⟨behind, fractionPassed, exponentPassed⟩ := Option.bind_eq_some_iff.mp passed
      obtain ⟨digits, isFraction, rfl⟩ := isDigits_of_passDigits fractionPassed
      obtain ⟨exponent, isExponent, rfl⟩ := isExponent_of_passExponent exponentPassed
      refine ⟨_, ⟨whole, 0x2E :: digits, exponent, isWhole, .present isFraction, isExponent, rfl⟩,
        ?_⟩
      simp [point]
    case isFalse =>
      obtain ⟨exponent, isExponent, tail⟩ := isExponent_of_passExponent passed
      refine ⟨_, ⟨whole, [], exponent, isWhole, .absent, isExponent, rfl⟩, ?_⟩
      rw [tail, List.nil_append, List.append_assoc]

/-- A digit is the start of a number. -/
theorem passScalar_of_isDigit (digit : isDigit b = true) (rest : List UInt8) :
    passScalar (b :: rest) = passUnsigned (b :: rest) := by
  have bounds : 0x30 ≤ b.toNat ∧ b.toNat ≤ 0x39 := by
    simp only [isDigit, Bool.and_eq_true, decide_eq_true_eq, UInt8.le_iff_toNat_le] at digit
    exact digit
  simp only [passScalar]
  split <;> first | rfl | omega

/-- A number without its sign starts with a digit. -/
theorem IsUnsigned.exists_cons (unsigned : IsUnsigned octets) :
    ∃ first later, octets = first :: later ∧ isDigit first = true := by
  obtain ⟨whole, fraction, exponent, ⟨⟨nonempty, all⟩, -⟩, -, -, rfl⟩ := unsigned
  obtain ⟨first, later, rfl⟩ := List.exists_cons_of_ne_nil nonempty
  exact ⟨first, _, rfl, all first List.mem_cons_self⟩

/-- A scalar is passed. -/
theorem IsScalar.passScalar_append (isScalar : IsScalar octets) (ends : endsNumber b = true)
    (rest : List UInt8) : passScalar (octets ++ b :: rest) = some (b :: rest) := by
  cases isScalar with
  | word isWord =>
    simp only [List.map_cons, List.map_nil, List.mem_cons, List.not_mem_nil, or_false] at isWord
    rcases isWord with rfl | rfl | rfl <;> exact after?_eq_some_iff.mpr rfl
  | @string written unread =>
    have opened (later : List UInt8) :
        passScalar (0x22 :: later) = passString .plain later := rfl
    rw [List.cons_append, opened, List.append_assoc]
    exact unread.passString_append _
  | number number =>
    cases number with
    | plain unsigned =>
      have passed := unsigned.passUnsigned_append ends rest
      obtain ⟨first, later, rfl, digit⟩ := unsigned.exists_cons
      exact (passScalar_of_isDigit digit _).trans passed
    | minus unsigned => exact unsigned.passUnsigned_append ends rest

/-- What is passed as a scalar is one. -/
theorem isScalar_of_passScalar (passed : passScalar input = some rest) :
    ∃ octets, IsScalar octets ∧ input = octets ++ rest := by
  unfold passScalar at passed
  split at passed
  case h_1 => cases passed
  case h_2 b later =>
    split at passed
    case h_1 quote =>
      obtain ⟨written, unread, whole⟩ := unread_of_passString .plain passed
      rw [List.nil_append] at whole
      exact ⟨_, .string unread, by rw [← Utf8.toUInt8_eq quote.symm, whole]; simp⟩
    case h_2 letter =>
      exact ⟨Utf8.octets "null", .word (by decide),
        by rw [← Utf8.toUInt8_eq letter.symm, after?_eq_some_iff.mp passed]; rfl⟩
    case h_3 letter =>
      exact ⟨Utf8.octets "true", .word (by decide),
        by rw [← Utf8.toUInt8_eq letter.symm, after?_eq_some_iff.mp passed]; rfl⟩
    case h_4 letter =>
      exact ⟨Utf8.octets "false", .word (by decide),
        by rw [← Utf8.toUInt8_eq letter.symm, after?_eq_some_iff.mp passed]; rfl⟩
    case h_5 minus =>
      obtain ⟨octets, unsigned, whole⟩ := isUnsigned_of_passUnsigned passed
      exact ⟨_, .number (.minus unsigned), by rw [← Utf8.toUInt8_eq minus.symm, whole]; rfl⟩
    case h_6 =>
      obtain ⟨octets, unsigned, whole⟩ := isUnsigned_of_passUnsigned passed
      exact ⟨_, .number (.plain unsigned), whole⟩

end StatusRegistry.Json
