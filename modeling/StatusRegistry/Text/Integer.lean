/-!
# Integers in text

A decimal integer may carry one plus sign, or a minus sign where negative values exist. Reading
goes from left to right and stops at the first problem: a character that is no digit, or the digit
that takes the value out of its range.
-/

namespace StatusRegistry

/-- Why a text is not an integer of the asked range. -/
inductive IntegerProblem where
  | empty
  | invalidDigit
  | tooLarge
  | tooSmall
  deriving DecidableEq, Repr

/-- The wording of a problem with an integer. -/
def IntegerProblem.message : IntegerProblem → String
  | .empty => "cannot parse integer from empty string"
  | .invalidDigit => "invalid digit found in string"
  | .tooLarge => "number too large to fit in target type"
  | .tooSmall => "number too small to fit in target type"

/-- The value of a decimal digit. -/
def digitValue? (c : Char) : Option Nat :=
  if '0' ≤ c ∧ c ≤ '9' then some (c.toNat - '0'.toNat) else none

/-- Appends digits to a natural number that may not exceed `limit`. -/
def readDigits (limit : Nat) (overflow : IntegerProblem) (value : Nat) :
    List Char → Except IntegerProblem Nat
  | [] => .ok value
  | c :: rest =>
    match digitValue? c with
    | none => .error .invalidDigit
    | some d =>
      if value * 10 + d ≤ limit then readDigits limit overflow (value * 10 + d) rest
      else .error overflow

/-- A natural number of at most `limit`. -/
def readNat (limit : Nat) (cs : List Char) : Except IntegerProblem Nat :=
  match cs with
  | [] => .error .empty
  | ['+'] => .error .invalidDigit
  | '+' :: digits => readDigits limit .tooLarge 0 digits
  | digits => readDigits limit .tooLarge 0 digits

/-- A two's complement integer of the given bounds: at least `-low` and at most `high`. -/
def readInt (low high : Nat) (cs : List Char) : Except IntegerProblem Int :=
  match cs with
  | ['-'] => .error .invalidDigit
  | '-' :: digits => (readDigits low .tooSmall 0 digits).map fun n => -(n : Int)
  | _ => (readNat high cs).map fun n => (n : Int)

/-- A 32-bit unsigned integer. -/
def readUInt32 (s : String) : Except IntegerProblem UInt32 :=
  (readNat 0xFFFFFFFF s.toList).map (·.toUInt32)

/-- A 32-bit signed integer. -/
def readInt32 (s : String) : Except IntegerProblem Int32 :=
  (readInt 0x80000000 0x7FFFFFFF s.toList).map (·.toInt32)

/-- A 64-bit signed integer. -/
def readInt64 (s : String) : Except IntegerProblem Int64 :=
  (readInt 0x8000000000000000 0x7FFFFFFFFFFFFFFF s.toList).map (·.toInt64)

/-- A 64-bit unsigned integer, as a natural number. -/
def readNat64 (s : String) : Except IntegerProblem Nat :=
  readNat 0xFFFFFFFFFFFFFFFF s.toList

end StatusRegistry
