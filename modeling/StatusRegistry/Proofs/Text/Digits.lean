import StatusRegistry.Instant
import StatusRegistry.Text.Percent

/-!
# Digits

The decimal digits that print a natural number spell it, whatever reads them, and start with a zero
only where the number is zero. `Nat.ofDigitChars` is the value that every reader of decimal digits
is compared with. A hexadecimal digit has one value, and a value one digit in each case.
-/

namespace StatusRegistry

/-- A decimal digit by its bounds. -/
theorem isDigit_iff (c : Char) : c.isDigit = true ↔ 0x30 ≤ c.toNat ∧ c.toNat ≤ 0x39 := by
  simp only [Char.isDigit, Bool.and_eq_true, decide_eq_true_eq, ge_iff_le, UInt32.le_iff_toNat_le]
  rfl

/-- The digits of a printed number are decimal digits. -/
theorem isDigit_of_mem_digits {n : Nat} {c : Char} (member : c ∈ Nat.toDigits 10 n) :
    c.isDigit = true :=
  Nat.isDigit_of_mem_toDigits (by decide) (by decide) member

/-- The first digit of a printed number is zero only if no other follows. -/
theorem toDigits_first (n : Nat) :
    ∃ first later, Nat.toDigits 10 n = first :: later ∧ (first = '0' → later = []) := by
  induction n using Nat.strongRecOn with
  | ind n ih =>
    by_cases small : n < 10
    · exact ⟨n.digitChar, [], Nat.toDigits_of_lt_base small, fun _ => rfl⟩
    · have split := Nat.toDigits_of_base_le (b := 10) (n := n) (by decide) (by omega)
      by_cases short : n / 10 < 10
      · refine ⟨(n / 10).digitChar, [(n % 10).digitChar], ?_, fun zero => ?_⟩
        · rw [split, Nat.toDigits_of_lt_base short]
          rfl
        · have nonzero : ∀ d < 10, Nat.digitChar d = '0' → d = 0 := by decide
          have := nonzero _ short zero
          omega
      · obtain ⟨first, later, digits, alone⟩ := ih (n / 10) (by omega)
        refine ⟨first, later ++ [(n % 10).digitChar], by rw [split, digits]; rfl, fun zero => ?_⟩
        have length : (Nat.toDigits 10 (n / 10)).length ≤ 1 := by simp [digits, alone zero]
        have bound := (Nat.length_toDigits_le_iff (n := n / 10) (b := 10) (k := 1)
          (by decide) (by decide)).mp length
        omega

/-- Digits only make a value greater. -/
theorem le_ofDigitChars (digits : List Char) (value : Nat) :
    value ≤ Nat.ofDigitChars 10 digits value := by
  induction digits generalizing value with
  | nil => simp
  | cons c later ih =>
    rw [Nat.ofDigitChars_cons]
    have := ih (10 * value + (c.toNat - '0'.toNat))
    omega

namespace Instant

/-- A digit to the reader of instants is a decimal digit. -/
theorem isDigit_eq (c : Char) : isDigit c = c.isDigit := by
  have bounds : (isDigit c = true) ↔ 0x30 ≤ c.toNat ∧ c.toNat ≤ 0x39 := by
    simp only [isDigit, Bool.and_eq_true, decide_eq_true_eq, Char.le_def, UInt32.le_iff_toNat_le]
    rfl
  rw [Bool.eq_iff_iff, bounds, isDigit_iff]

/-- The number that digits spell is the value of those digits. -/
theorem numberOf_eq (digits : List Char) : numberOf digits = Nat.ofDigitChars 10 digits 0 := by
  simp only [numberOf, Scan.natOfDigits, List.foldl_map, Nat.ofDigitChars, Nat.mul_comm]

/-- A padded number is spelled by decimal digits. -/
theorem isDigit_of_mem_padded {width n : Nat} {c : Char} (member : c ∈ padded width n) :
    isDigit c = true := by
  rw [isDigit_eq]
  rcases List.mem_append.mp member with zero | digit
  · rw [List.eq_of_mem_replicate zero]
    decide
  · exact isDigit_of_mem_digits digit

/-- A padded number spells the number. -/
theorem numberOf_padded (width n : Nat) : numberOf (padded width n) = n := by
  simp [numberOf_eq, padded, Nat.ofDigitChars_append]

/-- A number with no more digits than the width has exactly the width. -/
theorem length_padded {width n : Nat} (positive : 0 < width) (fits : n < Nat.pow 10 width) :
    (padded width n).length = width := by
  have := (Nat.length_toDigits_le_iff (n := n) (b := 10) (by decide) positive).mpr fits
  simp only [padded, List.length_append, List.length_replicate]
  omega

/-- A padded number has at least one digit. -/
theorem padded_ne_nil (width n : Nat) : padded width n ≠ [] := by
  simp [padded, Nat.toDigits_ne_nil]

end Instant

namespace Percent

/-- The hexadecimal digits with a value, in either case. -/
def hexDigits (n : Nat) : List UInt8 :=
  if n < 10 then [(0x30 + n).toUInt8] else [(0x37 + n).toUInt8, (0x57 + n).toUInt8]

/-- A hexadecimal digit has its value, and no other octet has one. -/
theorem hexValue?_eq_some_iff {b : UInt8} {n : Nat} :
    hexValue? b = some n ↔ n < 16 ∧ b ∈ hexDigits n := by
  have octet {m : Nat} (same : m = b.toNat) : b = m.toUInt8 := by
    rw [same, Nat.toUInt8_eq, UInt8.ofNat_toNat]
  constructor
  · intro value
    simp only [hexValue?] at value
    split at value
    · obtain rfl := Option.some.inj value
      refine ⟨by omega, ?_⟩
      rw [hexDigits, if_pos (by omega)]
      exact List.mem_singleton.mpr (octet (by omega))
    split at value
    · obtain rfl := Option.some.inj value
      refine ⟨by omega, ?_⟩
      rw [hexDigits, if_neg (by omega)]
      exact List.mem_cons.mpr (.inl (octet (by omega)))
    split at value
    · obtain rfl := Option.some.inj value
      refine ⟨by omega, ?_⟩
      rw [hexDigits, if_neg (by omega)]
      exact List.mem_cons_of_mem _ (List.mem_singleton.mpr (octet (by omega)))
    · cases value
  · rintro ⟨small, member⟩
    have all : ∀ n < 16, ((hexDigits n).all fun digit => hexValue? digit = some n) = true := by
      decide
    exact of_decide_eq_true (List.all_eq_true.mp (all n small) b member)

end Percent

end StatusRegistry
