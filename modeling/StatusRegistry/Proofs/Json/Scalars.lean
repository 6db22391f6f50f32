import Mathlib.Tactic.IntervalCases
import StatusRegistry.Json.Reader
import StatusRegistry.Json.Value
import StatusRegistry.Proofs.Text.Digits
import StatusRegistry.Proofs.Text.Utf8

/-!
# Reading back printed scalars

A printed string, integer, boolean or null is read as one token, and the reader stands behind its
last octet. What follows is arbitrary, except that an integer needs something after it that does
not continue a number.
-/

namespace StatusRegistry.Json

open Utf8 (encode encodeChar)

/-- Nothing is passed over before an octet that is not blank. -/
theorem skipBlank_cons {b : UInt8} (rest : List UInt8) (visible : isBlankOctet b = false) :
    skipBlank (b :: rest) = b :: rest := by
  simp [skipBlank, visible]

/-- Octets without a meaning of their own are taken as they are. -/
theorem stringOctets_plain (octets found rest : List UInt8)
    (plain : ∀ b ∈ octets, b ≠ 0x22 ∧ b ≠ 0x5C ∧ ¬b < 0x20) :
    stringOctets .plain found (octets ++ rest) =
      stringOctets .plain (octets.reverse ++ found) rest := by
  induction octets generalizing found with
  | nil => rfl
  | cons b later ih =>
    obtain ⟨quote, backslash, control⟩ := plain b (by simp)
    have tail : ∀ c ∈ later, c ≠ 0x22 ∧ c ≠ 0x5C ∧ ¬c < 0x20 :=
      fun c member => plain c (List.mem_cons_of_mem b member)
    simp only [List.cons_append, stringOctets, StringState.isPlain, StringState.next, quote,
      backslash, control, decide_false, Bool.and_false, Bool.false_eq_true, if_false]
    rw [ih _ tail]
    simp

/-- The escape of a control character stands for that character. -/
theorem stringOctets_control (n : Nat) (control : n < 0x20) (found rest : List UInt8) :
    stringOctets .plain found (encode (escapeChar (Char.ofNat n)) ++ rest) =
      stringOctets .plain ((encodeChar (Char.ofNat n)).reverse ++ found) rest := by
  interval_cases n <;> rfl

/-- The form of a character inside a string stands for that character. -/
theorem stringOctets_escapeChar (c : Char) (found rest : List UInt8) :
    stringOctets .plain found (encode (escapeChar c) ++ rest) =
      stringOctets .plain ((encodeChar c).reverse ++ found) rest := by
  by_cases quote : c = '"'
  · subst quote
    rfl
  by_cases backslash : c = '\\'
  · subst backslash
    rfl
  by_cases printable : 0x20 ≤ c.toNat
  · have itself : escapeChar c = [c] := by
      rw [escapeChar, if_neg quote, if_neg backslash, if_pos printable]
    rw [itself, Utf8.encode_cons, Utf8.encode_nil, List.append_nil]
    apply stringOctets_plain
    intro b member
    rcases Utf8.encodeChar_octets c with ⟨ascii, single⟩ | ⟨_, high⟩
    · rw [single, List.mem_singleton] at member
      have number : b.toNat = c.toNat := by
        rw [member, Utf8.toNat_octet (by omega)]
      have distinct : ∀ d : Char, d.toNat = c.toNat → c = d :=
        fun d same => Char.toNat_inj.mp same.symm
      refine ⟨fun same => ?_, fun same => ?_, fun small => ?_⟩
      · exact quote (distinct '"' (by rw [← number, same]; rfl))
      · exact backslash (distinct '\\' (by rw [← number, same]; rfl))
      · have := UInt8.lt_iff_toNat_lt.mp small
        simp at this
        omega
    · have := high b member
      refine ⟨fun same => ?_, fun same => ?_, fun small => ?_⟩
      · rw [same] at this
        simp at this
      · rw [same] at this
        simp at this
      · have := UInt8.lt_iff_toNat_lt.mp small
        simp at this
        omega
  · have escaped := stringOctets_control c.toNat (by omega) found rest
    rwa [Char.ofNat_toNat] at escaped

/-- A printed text is read up to its closing quote. -/
theorem stringOctets_escaped (cs : List Char) (found rest : List UInt8) :
    stringOctets .plain found (encode (cs.flatMap escapeChar) ++ 0x22 :: rest) =
      some (found.reverse ++ encode cs, rest) := by
  induction cs generalizing found with
  | nil => simp [stringOctets, StringState.isPlain]
  | cons c later ih =>
    rw [List.flatMap_cons, Utf8.encode_append, List.append_assoc, stringOctets_escapeChar, ih]
    simp

/-- A printed string is read back after its opening quote. -/
theorem string?_escaped (s : String) (rest : List UInt8) :
    string? (encode (s.toList.flatMap escapeChar) ++ 0x22 :: rest) = some (s, rest) := by
  have text : Utf8.string? (encode s.toList) = some s := Utf8.string?_octets s
  rw [string?, stringOctets_escaped]
  simp [text]

/-- The octets of a printed string. -/
theorem encode_quote (s : String) (rest : List UInt8) :
    encode (quote s) ++ rest = 0x22 :: (encode (s.toList.flatMap escapeChar) ++ 0x22 :: rest) := by
  have mark : encodeChar '"' = [0x22] := rfl
  simp [quote, mark]

/-- A printed string is one token. -/
theorem token?_quote (s : String) (rest : List UInt8) :
    token? (encode (quote s) ++ rest) = some (.str s, rest) := by
  have start : ∀ later, token? (0x22 :: later) =
      (string? later).map fun found => (Token.str found.1, found.2) := fun _ => rfl
  rw [encode_quote, start, string?_escaped]
  rfl

/-- Whether an octet neither continues an integer nor makes it a fraction. -/
def endsNumber (b : UInt8) : Bool := !isDigit b && b ≠ 0x2E && b ≠ 0x65 && b ≠ 0x45

/-- The octet of a decimal digit has its value. -/
theorem digit?_encodeChar {c : Char} (digit : c.isDigit = true) :
    ∃ b, encodeChar c = [b] ∧ digit? b = some (c.toNat - 0x30) ∧
      b.toNat = c.toNat := by
  rw [isDigit_iff] at digit
  have number : c.toNat.toUInt8.toNat = c.toNat := Utf8.toNat_octet (by omega)
  refine ⟨c.toNat.toUInt8, ?_, ?_, number⟩
  · rw [encodeChar, if_pos (by omega)]
  · rw [digit?, if_pos, number]
    simp only [UInt8.le_iff_toNat_le, number]
    exact digit

/-- An octet that ends a number is no digit. -/
theorem digit?_of_endsNumber {b : UInt8} (ends : endsNumber b = true) : digit? b = none := by
  have other : isDigit b = false := by
    simp only [endsNumber, Bool.and_eq_true, Bool.not_eq_true'] at ends
    exact ends.1.1.1
  rw [digit?, if_neg]
  rintro ⟨low, high⟩
  simp [isDigit, low, high] at other

/-- Digits whose value fits are all added. -/
theorem addDigits_append (digits : List Char) (value count : Nat) (b : UInt8) (rest : List UInt8)
    (all : ∀ c ∈ digits, c.isDigit = true) (ends : endsNumber b = true)
    (fits : Nat.ofDigitChars 10 digits value ≤ greatestSignificand) :
    addDigits value count (encode digits ++ b :: rest) =
      (Nat.ofDigitChars 10 digits value, count + digits.length, true, b :: rest) := by
  induction digits generalizing value count with
  | nil => simp [addDigits, digit?_of_endsNumber ends]
  | cons c later ih =>
    obtain ⟨octet, single, digit, _⟩ := digit?_encodeChar (all c (by simp))
    rw [Nat.ofDigitChars_cons] at fits
    have step : value * 10 + (c.toNat - 0x30) = 10 * value + (c.toNat - '0'.toNat) := by
      rw [Nat.mul_comm]
      rfl
    have room : value * 10 + (c.toNat - 0x30) ≤ greatestSignificand := by
      rw [step]
      exact Nat.le_trans (le_ofDigitChars later _) fits
    have tail : ∀ d ∈ later, d.isDigit = true := fun d member =>
      all d (List.mem_cons_of_mem c member)
    rw [Utf8.encode_cons, single, List.append_assoc, List.singleton_append]
    simp only [addDigits, digit, if_pos room]
    rw [step, ih _ _ tail fits, Nat.ofDigitChars_cons, List.length_cons, Nat.add_assoc,
      Nat.add_comm 1]

/-- The digits of a number that fits are one token: the number, or its negative if that fits. -/
theorem unsigned?_digits (negative : Bool) (n : Nat) (b : UInt8) (rest : List UInt8)
    (fits : n ≤ greatestSignificand) (ends : endsNumber b = true)
    (negates : negative = true → n ≠ 0 ∧ n ≤ 0x8000000000000000) :
    unsigned? negative (encode (Nat.toDigits 10 n) ++ b :: rest) =
      some (.integer (if negative then -(n : Int) else n), b :: rest) := by
  obtain ⟨first, later, digits, alone⟩ := toDigits_first n
  have all : ∀ c ∈ first :: later, c.isDigit = true := by
    rw [← digits]
    exact fun c => isDigit_of_mem_digits
  have value : Nat.ofDigitChars 10 later (first.toNat - 0x30) = n := by
    have whole := Nat.ofDigitChars_ten_toDigits (n := n)
    rw [digits, Nat.ofDigitChars_cons, Nat.mul_zero, Nat.zero_add] at whole
    exact whole
  obtain ⟨octet, single, digit, _⟩ := digit?_encodeChar (all first (by simp))
  have added := addDigits_append later (first.toNat - 0x30) 1 b rest
    (fun c member => all c (List.mem_cons_of_mem first member)) ends (by rw [value]; exact fits)
  rw [value] at added
  have noLeadingZero : ¬(first.toNat - 0x30 = 0 ∧
      ((encode later ++ b :: rest).head?.bind digit?).isSome = true) := by
    rintro ⟨zero, more⟩
    have bounds := (isDigit_iff first).mp (all first (by simp))
    have nothing : later = [] := alone (Char.toNat_inj.mp (by
      show first.toNat = 0x30
      omega))
    simp [nothing, digit?_of_endsNumber ends] at more
  simp only [endsNumber, Bool.and_eq_true, decide_eq_true_eq, ne_eq] at ends
  rw [digits, Utf8.encode_cons, single, List.append_assoc, List.singleton_append]
  simp only [unsigned?, digit, if_neg noLeadingZero, added, Bool.not_true, Bool.false_eq_true,
    if_false, if_neg ends.1.1.2, ends.1.2, ends.2, or_self]
  cases negative with
  | false => simp
  | true =>
    obtain ⟨nonzero, small⟩ := negates rfl
    have exact : ¬(n = 0 ∨ n > 0x8000000000000000) := by omega
    simp [exact]

/-- A printed integer of 64 bits is one token. -/
theorem token?_integerChars (n : Int) (b : UInt8) (rest : List UInt8)
    (low : -0x8000000000000000 ≤ n) (high : n ≤ 0xFFFFFFFFFFFFFFFF) (ends : endsNumber b = true) :
    token? (encode (integerChars n) ++ b :: rest) = some (.integer n, b :: rest) := by
  by_cases negative : n < 0
  · have minus : ∀ later, token? (0x2D :: later) = unsigned? true later := fun _ => rfl
    have mark : encodeChar '-' = [0x2D] := rfl
    rw [integerChars, if_pos negative, Utf8.encode_cons, mark, List.append_assoc,
      List.singleton_append, minus,
      unsigned?_digits true n.natAbs b rest (by simp only [greatestSignificand]; omega) ends
        (fun _ => by omega)]
    have back : -(n.natAbs : Int) = n := by omega
    rw [if_pos rfl, back]
  · have read := unsigned?_digits false n.natAbs b rest
      (by simp only [greatestSignificand]; omega) ends (by simp)
    obtain ⟨first, later, digits, _⟩ := toDigits_first n.natAbs
    have digit := isDigit_of_mem_digits (n := n.natAbs) (c := first) (by simp [digits])
    obtain ⟨octet, single, _, number⟩ := digit?_encodeChar digit
    have plain : ∀ k, 0x30 ≤ k → k ≤ 0x39 → ∀ later, token? (k.toUInt8 :: later) =
        unsigned? false (k.toUInt8 :: later) := by
      intro k least most later
      interval_cases k <;> rfl
    have bounds := (isDigit_iff first).mp digit
    have same : first.toNat.toUInt8 = octet := by
      rw [← number]
      simp
    have start := plain first.toNat bounds.1 bounds.2
    rw [same] at start
    rw [integerChars, if_neg negative]
    rw [digits, Utf8.encode_cons, single, List.append_assoc, List.singleton_append] at read ⊢
    rw [start, read]
    have back : (n.natAbs : Int) = n := by omega
    rw [if_neg (by decide), back]

end StatusRegistry.Json
