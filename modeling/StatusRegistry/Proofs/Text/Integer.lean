import StatusRegistry.Proofs.Text.Digits
import StatusRegistry.Text.Integer

/-!
# Reading back integers in text

Decimal digits, with zeros before them or not, spell a number. A text of digits, perhaps behind a
sign, is read as the number that it spells wherever that number is in the range asked for.
-/

namespace StatusRegistry

/-- Decimal digits that spell a number. -/
structure IsNumeral (digits : List Char) (n : Nat) : Prop where
  nonempty : digits ≠ []
  decimal : ∀ c ∈ digits, c.isDigit = true
  value : Nat.ofDigitChars 10 digits 0 = n

/-- The texts that spell a natural number: digits, perhaps behind a plus sign. -/
inductive SpellsNat : List Char → Nat → Prop
  | plain {digits n} (numeral : IsNumeral digits n) : SpellsNat digits n
  | plus {digits n} (numeral : IsNumeral digits n) : SpellsNat ('+' :: digits) n

/-- The texts that spell an integer: those of natural numbers, and digits behind a minus sign. -/
inductive SpellsInt : List Char → Int → Prop
  | natural {text n} (spells : SpellsNat text n) : SpellsInt text n
  | minus {digits n} (numeral : IsNumeral digits n) : SpellsInt ('-' :: digits) (-n)

/-- The value of a decimal digit. -/
theorem digitValue?_of_isDigit {c : Char} (digit : c.isDigit = true) :
    digitValue? c = some (c.toNat - '0'.toNat) := by
  have bounds := (isDigit_iff c).mp digit
  exact if_pos ⟨Char.le_def.mpr (UInt32.le_iff_toNat_le.mpr bounds.1),
    Char.le_def.mpr (UInt32.le_iff_toNat_le.mpr bounds.2)⟩

/-- Digits within the limit are read to their end. -/
theorem readDigits_of_le {digits : List Char} {limit value : Nat} (overflow : IntegerProblem)
    (all : ∀ c ∈ digits, c.isDigit = true) (fits : Nat.ofDigitChars 10 digits value ≤ limit) :
    readDigits limit overflow value digits = .ok (Nat.ofDigitChars 10 digits value) := by
  induction digits generalizing value with
  | nil => rfl
  | cons c later ih =>
    rw [Nat.ofDigitChars_cons, Nat.mul_comm] at fits ⊢
    have room := Nat.le_trans (le_ofDigitChars later _) fits
    rw [readDigits, digitValue?_of_isDigit (all c (by simp))]
    dsimp only
    rw [if_pos room, ih (fun d member => all d (List.mem_cons_of_mem c member)) fits]

variable {digits text : List Char} {limit n : Nat}

/-- A numeral within the limit is read as its number. -/
theorem IsNumeral.readDigits_eq (numeral : IsNumeral digits n) (overflow : IntegerProblem)
    (fits : n ≤ limit) : readDigits limit overflow 0 digits = .ok n := by
  obtain ⟨-, all, rfl⟩ := numeral
  exact readDigits_of_le overflow all fits

/-- The first character of a numeral is no sign. -/
theorem IsNumeral.unsigned (numeral : IsNumeral digits n) :
    ∃ first later, digits = first :: later ∧ first ≠ '+' ∧ first ≠ '-' := by
  obtain ⟨nonempty, all, -⟩ := numeral
  obtain ⟨first, later, rfl⟩ := List.exists_cons_of_ne_nil nonempty
  have digit := all first (by simp)
  refine ⟨first, later, rfl, ?_, ?_⟩ <;> rintro rfl <;> revert digit <;> decide

/-- A text that spells a natural number within the limit is read as that number. -/
theorem SpellsNat.readNat_eq (spells : SpellsNat text n) (fits : n ≤ limit) :
    readNat limit text = .ok n := by
  cases spells with
  | plain numeral =>
    obtain ⟨first, later, rfl, noPlus, -⟩ := numeral.unsigned
    rw [readNat, numeral.readDigits_eq _ fits]
    · exact nofun
    · exact fun same => absurd (List.cons.inj same).1 noPlus
    · exact fun _ same => absurd (List.cons.inj same).1 noPlus
  | plus numeral =>
    obtain ⟨first, later, rfl, -, -⟩ := numeral.unsigned
    rw [readNat, numeral.readDigits_eq _ fits]
    exact nofun

/-- A text that spells an unsigned word is read as that word. -/
theorem SpellsNat.readUInt32_eq {s : String} {word : UInt32}
    (spells : SpellsNat s.toList word.toNat) : readUInt32 s = .ok word := by
  have bound := word.toNat_lt
  rw [readUInt32, spells.readNat_eq (by omega)]
  show Except.ok word.toNat.toUInt32 = .ok word
  rw [Nat.toUInt32_eq, UInt32.ofNat_toNat]

/-- A text that spells an integer within the limits is read as that integer. -/
theorem SpellsInt.readInt_eq {least : Nat} {value : Int} (spells : SpellsInt text value)
    (low : -(least : Int) ≤ value) (high : value ≤ limit) :
    readInt least limit text = .ok value := by
  cases spells with
  | natural spells =>
    have unsigned : ∀ later, text ≠ '-' :: later := by
      rintro later rfl
      cases spells with
      | plain numeral =>
        obtain ⟨_, _, same, -, noMinus⟩ := numeral.unsigned
        exact noMinus (List.cons.inj same).1.symm
    rw [readInt, spells.readNat_eq (Int.ofNat_le.mp high)]
    · rfl
    · exact unsigned _
    · exact fun _ => unsigned _
  | minus numeral =>
    obtain ⟨first, later, rfl, -, -⟩ := numeral.unsigned
    rw [readInt, numeral.readDigits_eq _ (by omega)]
    · rfl
    · exact nofun

/-- A text that spells a signed word is read as that word. -/
theorem SpellsInt.readInt32_eq {s : String} {word : Int32}
    (spells : SpellsInt s.toList word.toInt) : readInt32 s = .ok word := by
  have low := word.le_toInt
  have high := word.toInt_lt
  rw [readInt32, spells.readInt_eq (by omega) (by omega)]
  show Except.ok word.toInt.toInt32 = .ok word
  rw [Int.toInt32, Int32.ofInt_toInt]

end StatusRegistry
