import StatusRegistry.Proofs.Json.Nesting
import StatusRegistry.Proofs.Json.Record

/-!
# Strings, booleans and integers

The text of a string, a boolean or an integer is read as what it stands for, and nothing else is
read as one. A string goes through two readers, one for its escapes and one for the characters that
come out. An integer has one text, so what was read can be told from its digits.
-/

namespace StatusRegistry.Json

open Percent (hexValue?_eq_some_iff)
open Utf8 (encode encodeChar)

variable {α : Type} {b c : UInt8} {input octets rest written : List UInt8}

/-- Digits of a code are added while others are left. -/
theorem HexNumeral.stringOctets_append {n left : Nat} {digits : List UInt8}
    (numeral : HexNumeral n digits) (short : digits.length < left) (high : Option Nat)
    (found rest : List UInt8) :
    stringOctets (.code left 0 high) found (digits ++ rest) =
      stringOctets (.code (left - digits.length) n high) found rest := by
  induction numeral generalizing rest with
  | nil => rfl
  | @snoc n d digits digit numeral small isDigit ih =>
    rw [List.length_append, List.length_singleton] at short
    have value : Percent.hexValue? digit = some d := hexValue?_eq_some_iff.mpr ⟨small, isDigit⟩
    rw [List.append_assoc, ih (by omega), List.singleton_append, stringOctets]
    simp only [StringState.isPlain, Bool.false_and, Bool.false_eq_true, if_false,
      StringState.next, value]
    rw [if_neg (by omega), List.length_append, List.length_singleton, Nat.sub_sub]
    rfl

/-- A code is finished with its last digit. -/
theorem IsCode.stringOctets_append {n : Nat} {digits added : List UInt8} {high : Option Nat}
    {after : StringState} (code : IsCode n digits)
    (finished : finishCode n high = some (added, after)) (found rest : List UInt8) :
    stringOctets (.code 4 0 high) found (digits ++ rest) =
      stringOctets after (added.reverse ++ found) rest := by
  obtain ⟨m, d, front, digit, numeral, three, small, isDigit, rfl, rfl⟩ := code.exists_last
  have value : Percent.hexValue? digit = some d := hexValue?_eq_some_iff.mpr ⟨small, isDigit⟩
  have next : StringState.next (.code 1 m high) digit = some (added, after) := by
    simp only [StringState.next, value, Nat.le_refl, if_true, finished]
  rw [List.append_assoc, numeral.stringOctets_append (by omega), three, List.singleton_append,
    stringOctets]
  simp only [StringState.isPlain, Bool.false_and, Bool.false_eq_true, if_false, next]

/-- What is written between quotes is read as the octets that it stands for. -/
theorem Literal.stringOctets_append (literal : Literal octets written)
    (found rest : List UInt8) :
    stringOctets .plain found (written ++ 0x22 :: rest) = some (found.reverse ++ octets, rest) := by
  have escape (found later : List UInt8) :
      stringOctets .plain found (0x5C :: later) = stringOctets .escape found later := rfl
  have opened (found later : List UInt8) :
      stringOctets .escape found (0x75 :: later) = stringOctets (.code 4 0 none) found later := rfl
  induction literal generalizing found with
  | nil => simp [stringOctets, StringState.isPlain]
  | @plain b octets written plain _ ih =>
    rw [List.cons_append, ← List.singleton_append,
      stringOctets_plain [b] _ _ (List.forall_mem_singleton.mpr plain),
      ih]
    simp
  | @short letter c octets written short _ ih =>
    rw [List.cons_append, List.cons_append, escape, stringOctets]
    simp only [StringState.isPlain, Bool.false_and, Bool.false_eq_true, if_false, StringState.next,
      if_neg (ne_code_of_short short), shortEscape?_eq_some_iff.mpr short, Option.map_some]
    rw [ih]
    simp
  | @code n digits octets written code single _ ih =>
    have finished : finishCode n none = some (encodeChar (Char.ofNat n), .plain) := by
      rw [finishCode, if_neg (by omega), if_neg (by omega)]
    rw [List.cons_append, List.cons_append, escape, opened, List.append_assoc,
      code.stringOctets_append finished, ih]
    simp
  | @pair high low first second octets written highCode isHigh lowCode isLow _ ih =>
    have waits : finishCode high none = some ([], .pairBackslash high) := by
      rw [finishCode, if_pos isHigh]
    have finished : finishCode low (some high) =
        some (encodeChar (pairedChar high low), .plain) := by
      rw [finishCode, if_pos isLow, pairedChar]
    have second (found later : List UInt8) :
        stringOctets (.pairBackslash high) found (0x5C :: 0x75 :: later) =
          stringOctets (.code 4 0 (some high)) found later := rfl
    rw [List.cons_append, List.cons_append, escape, opened, List.append_assoc,
      highCode.stringOctets_append waits, List.cons_append, List.cons_append, second,
      List.append_assoc, lowCode.stringOctets_append finished, ih]
    simp

/-- The octets of an escape that has been begun, by where the reader of its string stands. -/
inductive LiteralBegun : StringState → List UInt8 → Prop
  | plain : LiteralBegun .plain []
  | escape : LiteralBegun .escape [0x5C]
  | code {n digits left} (numeral : HexNumeral n digits) (four : digits.length + left = 4)
    (more : 0 < left) : LiteralBegun (.code left n none) (0x5C :: 0x75 :: digits)
  | backslash {high first} (highCode : IsCode high first) (isHigh : 0xD800 ≤ high ∧ high ≤ 0xDBFF) :
    LiteralBegun (.pairBackslash high) (0x5C :: 0x75 :: first)
  | letter {high first} (highCode : IsCode high first) (isHigh : 0xD800 ≤ high ∧ high ≤ 0xDBFF) :
    LiteralBegun (.pairLetter high) (0x5C :: 0x75 :: (first ++ [0x5C]))
  | low {high first n digits left} (highCode : IsCode high first)
    (isHigh : 0xD800 ≤ high ∧ high ≤ 0xDBFF) (numeral : HexNumeral n digits)
    (four : digits.length + left = 4) (more : 0 < left) :
    LiteralBegun (.code left n (some high))
      (0x5C :: 0x75 :: (first ++ 0x5C :: 0x75 :: digits))

/-- An octet that does not close the string begins an escape, goes on with it, or ends it and adds
what it stands for. -/
theorem LiteralBegun.next {state after : StringState} {before added : List UInt8}
    (begun : LiteralBegun state before) (inside : ¬(state.isPlain && b = 0x22) = true)
    (next : state.next b = some (added, after)) :
    (added = [] ∧ LiteralBegun after (before ++ [b])) ∨
      (after = .plain ∧ ∀ octets written, Literal octets written →
        Literal (added ++ octets) (before ++ b :: written)) := by
  cases begun with
  | plain =>
    have noQuote : b ≠ 0x22 := by simpa [StringState.isPlain] using inside
    rw [StringState.next] at next
    split at next
    case isTrue backslash =>
      cases next
      exact .inl ⟨rfl, backslash ▸ .escape⟩
    split at next
    case isTrue => cases next
    case isFalse noBackslash noControl =>
      cases next
      exact .inr ⟨rfl, fun _ _ => .plain ⟨noQuote, noBackslash, noControl⟩⟩
  | escape =>
    rw [StringState.next] at next
    split at next
    case isTrue letter =>
      cases next
      exact .inl ⟨rfl, letter ▸ .code .nil rfl (by decide)⟩
    case isFalse =>
      obtain ⟨ch, short, same⟩ := Option.map_eq_some_iff.mp next
      cases same
      exact .inr ⟨rfl, fun _ _ => .short (shortEscape?_eq_some_iff.mp short)⟩
  | @code n digits left numeral four more =>
    rw [StringState.next] at next
    cases value : Percent.hexValue? b with
    | none => rw [value] at next; cases next
    | some d =>
      obtain ⟨small, isDigit⟩ := hexValue?_eq_some_iff.mp value
      have longer := numeral.snoc small isDigit
      have length : (digits ++ [b]).length = digits.length + 1 := List.length_append
      simp only [value] at next
      split at next
      case isTrue last =>
        have code : IsCode (n * 16 + d) (digits ++ [b]) := ⟨longer, by omega⟩
        rw [finishCode] at next
        split at next
        case isTrue isHigh =>
          cases next
          exact .inl ⟨rfl, .backslash code isHigh⟩
        split at next
        case isTrue => cases next
        case isFalse notHigh notLow =>
          cases next
          refine .inr ⟨rfl, fun octets written literal => ?_⟩
          simpa using literal.code code (by omega)
      case isFalse =>
        cases next
        have begun : LiteralBegun (.code (left - 1) (n * 16 + d) none)
            (0x5C :: 0x75 :: (digits ++ [b])) := .code longer (by omega) (by omega)
        exact .inl ⟨rfl, begun⟩
  | backslash highCode isHigh =>
    rw [StringState.next] at next
    split at next
    case isTrue backslash =>
      cases next
      exact .inl ⟨rfl, backslash ▸ .letter highCode isHigh⟩
    case isFalse => cases next
  | @letter high first highCode isHigh =>
    rw [StringState.next] at next
    split at next
    case isTrue letter =>
      cases next
      have begun : LiteralBegun (.code 4 0 (some high)) _ :=
        .low highCode isHigh .nil rfl (by decide)
      exact .inl ⟨rfl, by simpa [letter] using begun⟩
    case isFalse => cases next
  | @low high first n digits left highCode isHigh numeral four more =>
    rw [StringState.next] at next
    cases value : Percent.hexValue? b with
    | none => rw [value] at next; cases next
    | some d =>
      obtain ⟨small, isDigit⟩ := hexValue?_eq_some_iff.mp value
      have longer := numeral.snoc small isDigit
      have length : (digits ++ [b]).length = digits.length + 1 := List.length_append
      simp only [value] at next
      split at next
      case isTrue last =>
        have code : IsCode (n * 16 + d) (digits ++ [b]) := ⟨longer, by omega⟩
        rw [finishCode] at next
        split at next
        case isTrue isLow =>
          obtain ⟨adds, ends⟩ := Prod.mk.inj (Option.some.inj next)
          refine .inr ⟨ends.symm, fun octets written literal => ?_⟩
          rw [← adds]
          simpa [pairedChar] using literal.pair highCode isHigh code isLow
        case isFalse => cases next
      case isFalse =>
        cases next
        have begun : LiteralBegun (.code (left - 1) (n * 16 + d) (some high)) _ :=
          .low highCode isHigh longer (by omega) (by omega)
        exact .inl ⟨rfl, by simpa using begun⟩

/-- What is read of a string is what its octets stand for. The induction goes over the octets, so
what has been read of an escape is carried along. -/
theorem literal_of_stringOctets {state : StringState} {before found : List UInt8}
    (begun : LiteralBegun state before)
    (read : stringOctets state found input = some (octets, rest)) :
    ∃ more written, Literal more written ∧ octets = found.reverse ++ more ∧
      before ++ input = written ++ 0x22 :: rest := by
  induction input generalizing state before found with
  | nil => cases read
  | cons b later ih =>
    rw [stringOctets] at read
    split at read
    case isTrue closes =>
      obtain ⟨plain, quote⟩ := Bool.and_eq_true_iff.mp closes
      obtain rfl := of_decide_eq_true quote
      cases begun <;> cases plain
      cases read
      exact ⟨[], [], .nil, by simp, rfl⟩
    case isFalse inside =>
      split at read
      case h_1 => cases read
      case h_2 added after next =>
        rcases begun.next inside next with ⟨rfl, begun⟩ | ⟨rfl, adds⟩
        · obtain ⟨more, written, literal, same, whole⟩ := ih begun read
          exact ⟨more, written, literal, by simpa using same, by simpa using whole⟩
        · obtain ⟨more, written, literal, same, whole⟩ := ih .plain read
          refine ⟨added ++ more, _, adds _ _ literal, by simpa using same, ?_⟩
          rw [List.nil_append] at whole
          simp [whole]

/-- What is read as a string is written after its quote. -/
theorem string?_eq_some_iff {s : String} : string? input = some (s, rest) ↔
    ∃ written, Literal (Utf8.octets s) written ∧ input = written ++ 0x22 :: rest := by
  constructor
  · intro read
    rw [string?] at read
    split at read
    case h_1 => cases read
    case h_2 octets behind found =>
      obtain ⟨text, decoded, same⟩ := Option.map_eq_some_iff.mp read
      cases same
      obtain ⟨more, written, literal, rfl, whole⟩ := literal_of_stringOctets .plain found
      obtain rfl := Utf8.string?_eq_some_iff.mp decoded
      exact ⟨written, literal, whole⟩
  · rintro ⟨written, literal, rfl⟩
    rw [string?, literal.stringOctets_append]
    simp [Utf8.string?_octets]

/-- The octet of a digit prints its value. -/
theorem encodeChar_of_digit? {d : Nat} (digit : digit? b = some d) :
    d < 10 ∧ encodeChar d.digitChar = [b] := by
  rw [digit?] at digit
  split at digit
  case isFalse => cases digit
  case isTrue bounds =>
    simp only [UInt8.le_iff_toNat_le] at bounds
    have small : d < 10 := by
      rw [← Option.some.inj digit]
      have : b.toNat ≤ 0x39 := bounds.2
      omega
    have octet : b = (0x30 + d).toUInt8 := by
      have low : 0x30 ≤ b.toNat := bounds.1
      rw [← Option.some.inj digit, Nat.add_sub_cancel' low, Nat.toUInt8_eq, UInt8.ofNat_toNat]
    have all : ∀ d < 10, encodeChar d.digitChar = [(0x30 + d).toUInt8] := by decide
    exact ⟨small, octet ▸ all d small⟩

/-- Digits that are added to a number are printed after it. -/
theorem digits_of_addDigits {value count total counted : Nat} (positive : 0 < value)
    (read : addDigits value count input = (total, counted, true, rest)) :
    encode (Nat.toDigits 10 value) ++ input = encode (Nat.toDigits 10 total) ++ rest := by
  induction input generalizing value count with
  | nil =>
    cases read
    rfl
  | cons b later ih =>
    rw [addDigits] at read
    split at read
    case h_1 =>
      cases read
      rfl
    case h_2 d digit =>
      obtain ⟨small, octet⟩ := encodeChar_of_digit? digit
      split at read
      case isFalse => cases read
      case isTrue =>
        -- Behind a zero this would fail: a positive number keeps all the digits before.
        have printed :
            Nat.toDigits 10 (value * 10 + d) = Nat.toDigits 10 value ++ [d.digitChar] := by
          rw [Nat.toDigits_of_base_le (by decide) (by omega)]
          congr <;> omega
        rw [← ih (by omega) read, printed]
        simp [octet]

/-- The digits of a number that fits are added to its first one. -/
theorem digits_of_addDigits_first {d total counted : Nat} (digit : digit? b = some d)
    (noZero : ¬(d = 0 ∧ (input.head?.bind digit?).isSome = true))
    (read : addDigits d 1 input = (total, counted, true, rest)) :
    b :: input = encode (Nat.toDigits 10 total) ++ rest := by
  obtain ⟨small, octet⟩ := encodeChar_of_digit? digit
  have printed : encode (Nat.toDigits 10 d) = [b] := by
    rw [Nat.toDigits_of_lt_base small, Utf8.encode_cons, octet, Utf8.encode_nil, List.append_nil]
  rcases Nat.eq_zero_or_pos d with rfl | positive
  · -- Nothing is added to a zero, since no digit follows it.
    have single : addDigits 0 1 input = (0, 1, true, input) := by
      cases input with
      | nil => rfl
      | cons c later =>
        cases next : digit? c with
        | none => rw [addDigits, next]
        | some e => exact absurd ⟨rfl, by simp [next]⟩ noZero
    rw [single] at read
    cases read
    rw [printed, List.singleton_append]
  · rw [← digits_of_addDigits positive read, printed, List.singleton_append]

/-- An integer is read from its digits, and every other number as a magnitude. -/
theorem unsigned?_cases {negative : Bool} {token : Token}
    (read : unsigned? negative input = some (token, rest)) :
    (∃ magnitude, token = .float negative magnitude) ∨
      ∃ n : Nat, token = .integer (if negative then -n else n) ∧ (negative = true → n ≠ 0) ∧
        input = encode (Nat.toDigits 10 n) ++ rest := by
  have float {found : Option (Binary64 × List UInt8)}
      (read : found.map (fun found => (Token.float negative found.1, found.2)) =
        some (token, rest)) : ∃ magnitude, token = .float negative magnitude := by
    obtain ⟨⟨magnitude, behind⟩, -, same⟩ := Option.map_eq_some_iff.mp read
    cases same
    exact ⟨magnitude, rfl⟩
  rw [unsigned?.eq_def] at read
  split at read
  case h_1 => cases read
  case h_2 b later =>
    split at read
    case h_1 => cases read
    case h_2 d digit =>
      dsimp only at read
      split at read
      case isTrue => cases read
      case isFalse noZero =>
        obtain ⟨⟨total, counted, fits, behind⟩, added⟩ : ∃ all, addDigits d 1 later = all :=
          ⟨_, rfl⟩
        rw [added] at read
        dsimp only at read
        split at read
        case isTrue => exact .inl (float read)
        case isFalse fit =>
          obtain rfl : fits = true := by simpa using fit
          have digits := digits_of_addDigits_first digit noZero added
          have whole (read : (if (!negative) = true then some (.integer total, behind)
              else if total = 0 ∨ total > 0x8000000000000000 then
                (Binary64.ofNat? total).map fun x => (.float true x, behind)
              else some (.integer (-(total : Int)), behind)) = some (token, rest)) :
              (∃ magnitude, token = .float negative magnitude) ∨
                ∃ n : Nat, token = .integer (if negative then -n else n) ∧
                  (negative = true → n ≠ 0) ∧ b :: later = encode (Nat.toDigits 10 n) ++ rest := by
            cases negative with
            | false =>
              cases read
              exact .inr ⟨total, rfl, Bool.noConfusion, digits⟩
            | true =>
              simp only [Bool.not_true, Bool.false_eq_true, if_false] at read
              split at read
              case isTrue =>
                obtain ⟨magnitude, -, same⟩ := Option.map_eq_some_iff.mp read
                cases same
                exact .inl ⟨magnitude, rfl⟩
              case isFalse fitsBoth =>
                cases read
                exact .inr ⟨total, rfl, fun _ => by omega, digits⟩
          split at read
          case h_1 => exact whole read
          case h_2 =>
            split at read
            case isTrue => exact .inl (float read)
            split at read
            case isTrue => exact .inl (float read)
            case isFalse => exact whole read

/-- The text of a token that is no fraction; of a magnitude it says nothing. -/
inductive TokenText : Token → List UInt8 → Prop
  | null : TokenText .null (Utf8.octets "null")
  | bool (value : Bool) : TokenText (.bool value) (Utf8.octets (toString value))
  | integer (n : Int) : TokenText (.integer n) (Utf8.octets (toString n))
  | str {s written} (literal : Literal (Utf8.octets s) written) :
    TokenText (.str s) (0x22 :: (written ++ [0x22]))
  | openArray : TokenText .openArray [0x5B]
  | openObject : TokenText .openObject [0x7B]

/-- An integer is printed in its digits, after its sign. -/
theorem octets_toString (n : Int) : Utf8.octets (toString n) = encode (integerChars n) := by
  have text : (toString n).toList = integerChars n := by
    cases n with
    | ofNat m => simp [toString, Int.repr, Nat.repr, integerChars]
    | negSucc m => simp [toString, Int.repr, Nat.repr, integerChars]
  rw [Utf8.octets, text]

/-- A token that is no fraction is read from its text, perhaps after blanks. -/
theorem tokenText_of_token? {token : Token} (read : token? input = some (token, rest))
    (noFloat : ∀ negative magnitude, token ≠ .float negative magnitude) :
    ∃ text item, TokenText token text ∧ ItemText text item ∧ input = item ++ rest := by
  rw [token?] at read
  split at read
  case h_1 => cases read
  case h_2 b later skipped =>
    obtain ⟨blank, isBlank, rfl⟩ := exists_blank_of_skipBlank skipped
    suffices found : ∃ text, TokenText token text ∧ b :: later = text ++ rest by
      obtain ⟨text, isText, whole⟩ := found
      exact ⟨text, blank ++ text, isText, ⟨blank, isBlank, rfl⟩, by rw [whole, List.append_assoc]⟩
    split at read
    case h_1 quote =>
      obtain ⟨⟨s, behind⟩, found, same⟩ := Option.map_eq_some_iff.mp read
      cases same
      obtain ⟨written, literal, rfl⟩ := string?_eq_some_iff.mp found
      exact ⟨_, .str literal, by rw [← Utf8.toUInt8_eq quote.symm]; simp⟩
    case h_2 bracket =>
      cases read
      exact ⟨_, .openArray, by rw [← Utf8.toUInt8_eq bracket.symm]; rfl⟩
    case h_3 bracket =>
      cases read
      exact ⟨_, .openObject, by rw [← Utf8.toUInt8_eq bracket.symm]; rfl⟩
    case h_4 letter =>
      obtain ⟨behind, found, same⟩ := Option.map_eq_some_iff.mp read
      cases same
      exact ⟨_, .null, by rw [← Utf8.toUInt8_eq letter.symm, after?_eq_some_iff.mp found]; rfl⟩
    case h_5 letter =>
      obtain ⟨behind, found, same⟩ := Option.map_eq_some_iff.mp read
      cases same
      exact ⟨_, .bool true, by rw [← Utf8.toUInt8_eq letter.symm, after?_eq_some_iff.mp found]; rfl⟩
    case h_6 letter =>
      obtain ⟨behind, found, same⟩ := Option.map_eq_some_iff.mp read
      cases same
      exact ⟨_, .bool false, by
        rw [← Utf8.toUInt8_eq letter.symm, after?_eq_some_iff.mp found]; rfl⟩
    case h_7 minus =>
      rcases unsigned?_cases read with ⟨magnitude, float⟩ | ⟨n, rfl, nonzero, rfl⟩
      · exact absurd float (noFloat _ _)
      · have positive := nonzero rfl
        refine ⟨_, .integer _, ?_⟩
        rw [octets_toString, if_pos rfl, integerChars, if_pos (by omega), Int.natAbs_neg,
          Int.natAbs_natCast, ← Utf8.toUInt8_eq minus.symm]
        rfl
    case h_8 =>
      rcases unsigned?_cases read with ⟨magnitude, float⟩ | ⟨n, rfl, -, whole⟩
      · exact absurd float (noFloat _ _)
      · refine ⟨_, .integer _, ?_⟩
        rw [octets_toString, if_neg (by decide), integerChars, if_neg (by omega),
          Int.natAbs_natCast]
        exact whole

/-- Blanks before a token make no difference. -/
theorem token?_append {blank : List UInt8} (isBlank : IsBlank blank) (input : List UInt8) :
    token? (blank ++ input) = token? input := by
  rw [token?, token?, isBlank.skipBlank_append]

/-- A reader finds what values of one form say and nothing else. -/
structure Reader.Exact (reader : Reader α) (Text : List UInt8 → α → Prop) : Prop where
  isValue {value : List UInt8} {a : α} (text : Text value a) : IsValue value
  sound {input rest : List UInt8} {a : α} (read : reader input = .ok (a, rest)) :
    ∃ value item, Text value a ∧ ItemText value item ∧ input = item ++ rest
  complete {value item : List UInt8} {a : α} (text : Text value a) (isItem : ItemText value item)
    {b : UInt8} (ends : endsNumber b = true) (rest : List UInt8) :
    reader (item ++ b :: rest) = .ok (a, b :: rest)

/-- What a test makes of a token that was read. -/
theorem token_of_read {expected : String} {test : Token → Option (Except Problem α)} {a : α}
    (read : Reader.ofToken expected test input = .ok (a, rest)) :
    ∃ token, token? input = some (token, rest) ∧ test token = some (.ok a) := by
  rw [Reader.ofToken] at read
  split at read
  case h_1 => cases read
  case h_2 token behind found =>
    split at read
    case h_1 b tested =>
      cases read
      exact ⟨token, found, tested⟩
    case h_2 => cases read
    case h_3 => cases read

/-- Blanks before a value make no difference. -/
theorem ofToken_append {expected : String} {test : Token → Option (Except Problem α)}
    {blank : List UInt8} (isBlank : IsBlank blank) (input : List UInt8) :
    Reader.ofToken expected test (blank ++ input) = Reader.ofToken expected test input := by
  rw [Reader.ofToken, Reader.ofToken, token?_append isBlank]

/-- Strings are read exactly. -/
theorem exact_string : string.Exact StringText where
  isValue := by
    rintro _ s ⟨written, literal, rfl⟩
    exact .scalar (.string literal.unread)
  sound := by
    intro input rest s read
    obtain ⟨token, found, tested⟩ := token_of_read read
    cases token with
    | str text =>
      cases tested
      obtain ⟨value, item, text, isItem, whole⟩ :=
        tokenText_of_token? found fun _ _ => Token.noConfusion
      cases text with
      | @str _ written literal => exact ⟨_, item, ⟨written, literal, rfl⟩, isItem, whole⟩
    | _ => cases tested
  complete := by
    rintro _ _ s ⟨written, literal, rfl⟩ ⟨blank, isBlank, rfl⟩ b - rest
    have start (later : List UInt8) : token? (0x22 :: later) =
        (string? later).map fun found => (Token.str found.1, found.2) := rfl
    have read : string? (written ++ 0x22 :: b :: rest) = some (s, b :: rest) :=
      string?_eq_some_iff.mpr ⟨written, literal, rfl⟩
    rw [string, List.append_assoc, ofToken_append isBlank, Reader.ofToken, List.cons_append,
      List.append_assoc, start, List.singleton_append, read]
    rfl

/-- Booleans are read exactly. -/
theorem exact_boolean : boolean.Exact BooleanText where
  isValue := by
    rintro _ value rfl
    exact .scalar (.word (by cases value <;> decide))
  sound := by
    intro input rest value read
    obtain ⟨token, found, tested⟩ := token_of_read read
    cases token with
    | bool value =>
      cases tested
      obtain ⟨value, item, text, isItem, whole⟩ :=
        tokenText_of_token? found fun _ _ => Token.noConfusion
      cases text
      exact ⟨_, item, rfl, isItem, whole⟩
    | _ => cases tested
  complete := by
    rintro _ _ value rfl ⟨blank, isBlank, rfl⟩ b ends rest
    rw [boolean, List.append_assoc, ofToken_append isBlank]
    cases value <;> rfl

/-- The digits that print a number are the whole part of one. -/
theorem isWhole_toDigits (n : Nat) : IsWhole (encode (Nat.toDigits 10 n)) := by
  obtain ⟨first, later, digits, alone⟩ := toDigits_first n
  have all : ∀ b ∈ encode (Nat.toDigits 10 n), isDigit b = true := by
    intro b member
    obtain ⟨c, digit, inside⟩ := List.mem_flatMap.mp member
    obtain ⟨octet, single, value, -⟩ := digit?_encodeChar (isDigit_of_mem_digits digit)
    rw [single, List.mem_singleton] at inside
    rw [inside, ← isSome_digit?, value]
    rfl
  refine ⟨⟨?_, all⟩, fun zero => ?_⟩
  · obtain ⟨octet, single, -⟩ := digit?_encodeChar (c := first)
      (isDigit_of_mem_digits (n := n) (by simp [digits]))
    rw [digits, Utf8.encode_cons, single]
    exact List.cons_ne_nil _ _
  · obtain ⟨octet, single, -, number⟩ := digit?_encodeChar (c := first)
      (isDigit_of_mem_digits (n := n) (by simp [digits]))
    rw [digits, Utf8.encode_cons, single] at zero ⊢
    obtain rfl : octet = 0x30 := Option.some.inj zero
    rw [alone (Char.toNat_inj.mp number.symm)]
    rfl

/-- A printed integer is a number. -/
theorem isNumber_integer (n : Int) : IsNumber (Utf8.octets (toString n)) := by
  have unsigned (k : Nat) : IsUnsigned (encode (Nat.toDigits 10 k)) :=
    ⟨_, [], [], isWhole_toDigits k, .absent, .absent, by simp⟩
  rw [octets_toString, integerChars]
  split
  case isTrue => exact .minus (unsigned _)
  case isFalse => exact .plain (unsigned _)

/-- 32-bit integers are read exactly. -/
theorem exact_int32 : int32.Exact Int32Text where
  isValue := by
    rintro _ n rfl
    exact .scalar (.number (isNumber_integer _))
  sound := by
    intro input rest n read
    obtain ⟨token, found, tested⟩ := token_of_read read
    cases token with
    | integer value =>
      obtain ⟨text, item, isText, isItem, whole⟩ :=
        tokenText_of_token? found fun _ _ => Token.noConfusion
      cases isText
      dsimp only at tested
      split at tested
      case isTrue bounds =>
        cases tested
        have same : value.toInt32.toInt = value := Int32.toInt_ofInt_of_le (by omega) (by omega)
        exact ⟨_, item, by rw [Int32Text, same], isItem, whole⟩
      case isFalse => cases tested
    | _ => cases tested
  complete := by
    rintro _ _ n rfl ⟨blank, isBlank, rfl⟩ b ends rest
    have read := reads_int32 n b rest ends
    rw [octets_toString, List.append_assoc, int32, integer, ofToken_append isBlank]
    exact read

end StatusRegistry.Json
