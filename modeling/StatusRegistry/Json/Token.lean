import StatusRegistry.Decimal.Shortest
import StatusRegistry.Text.Percent
import StatusRegistry.Text.Utf8

/-!
# JSON tokens

The first token of a value, read from octets: a whole scalar or an opening bracket. Reading a token
settles everything that can be wrong inside it, so a value of an unexpected type is reported only
after its scalar was well formed.

Strings must be well-formed UTF-8 without raw control characters, and surrogates must come in
pairs. Integers are exact within 64 bits; every other number is a binary magnitude, found by one
multiplication or division with a power of ten, and must be finite.
-/

namespace StatusRegistry.Json

/-- The first token of a value. -/
inductive Token where
  | null
  | bool (value : Bool)
  | integer (value : Int)
  | float (negative : Bool) (magnitude : Binary64)
  | str (value : String)
  | openArray
  | openObject

/-- Whether an octet may stand between tokens. -/
def isBlankOctet (b : UInt8) : Bool :=
  b = 0x20 || b = 0x0A || b = 0x09 || b = 0x0D

/-- The octets after those that may stand between tokens. -/
def skipBlank (input : List UInt8) : List UInt8 :=
  input.dropWhile isBlankOctet

/-- The value of a decimal digit. -/
def digit? (b : UInt8) : Option Nat :=
  if 0x30 ≤ b ∧ b ≤ 0x39 then some (b.toNat - 0x30) else none

/-- Whether an octet is a decimal digit. -/
def isDigit (b : UInt8) : Bool := 0x30 ≤ b && b ≤ 0x39

/-- Where a string reader stands: between characters, after a backslash, inside a code of four
hexadecimal digits, or between the halves of a surrogate pair. -/
inductive StringState where
  | plain
  | escape
  | code (left : Nat) (value : Nat) (high : Option Nat)
  | pairBackslash (high : Nat)
  | pairLetter (high : Nat)

/-- The character of a one-letter escape. -/
def shortEscape? (b : UInt8) : Option Char :=
  match b.toNat with
  | 0x22 => some '"'
  | 0x5C => some '\\'
  | 0x2F => some '/'
  | 0x62 => some '\x08'
  | 0x66 => some '\x0c'
  | 0x6E => some '\n'
  | 0x72 => some '\r'
  | 0x74 => some '\t'
  | _ => none

/-- What a finished code does, possibly after a high surrogate: it gives a character, waits for the
low half, or is alone in a pair. -/
def finishCode (value : Nat) (high : Option Nat) : Option (List UInt8 × StringState) :=
  match high with
  | some h =>
    if 0xDC00 ≤ value ∧ value ≤ 0xDFFF then
      let code := 0x10000 + (h - 0xD800) * 0x400 + (value - 0xDC00)
      some (Utf8.encodeChar (Char.ofNat code), .plain)
    else none
  | none =>
    if 0xD800 ≤ value ∧ value ≤ 0xDBFF then some ([], .pairBackslash value)
    else if 0xDC00 ≤ value ∧ value ≤ 0xDFFF then none
    else some (Utf8.encodeChar (Char.ofNat value), .plain)

/-- The octets that one octet adds to a string, and where the reader stands after it. A closing
quote is not passed here. -/
def StringState.next (state : StringState) (b : UInt8) : Option (List UInt8 × StringState) :=
  match state with
  | .plain => if b = 0x5C then some ([], .escape) else if b < 0x20 then none else some ([b], .plain)
  | .escape =>
    if b = 0x75 then some ([], .code 4 0 none)
    else (shortEscape? b).map fun c => (Utf8.encodeChar c, .plain)
  | .code left value high =>
    match Percent.hexValue? b with
    | none => none
    | some d =>
      if left ≤ 1 then finishCode (value * 16 + d) high
      else some ([], .code (left - 1) (value * 16 + d) high)
  | .pairBackslash high => if b = 0x5C then some ([], .pairLetter high) else none
  | .pairLetter high => if b = 0x75 then some ([], .code 4 0 (some high)) else none

/-- Whether the reader stands between characters, where a quote closes the string. -/
def StringState.isPlain : StringState → Bool
  | .plain => true
  | _ => false

/-- The octets of a string up to its closing quote, and what follows it. -/
def stringOctets (state : StringState) (found : List UInt8) :
    List UInt8 → Option (List UInt8 × List UInt8)
  | [] => none
  | b :: rest =>
    if state.isPlain && b = 0x22 then some (found.reverse, rest)
    else
      match state.next b with
      | none => none
      | some (added, after) => stringOctets after (added.reverse ++ found) rest

/-- A string after its opening quote. -/
def string? (input : List UInt8) : Option (String × List UInt8) :=
  match stringOctets .plain [] input with
  | none => none
  | some (octets, rest) => (Utf8.string? octets).map fun s => (s, rest)

/-- The number that continues a magnitude: exact digits that fit in 64 bits, and how far the point
lies from their end. -/
structure Significand where
  value : Nat
  exponent : Int

/-- The greatest significand. -/
def greatestSignificand : Nat := 0xFFFFFFFFFFFFFFFF

/-- The greatest written exponent that is read exactly. -/
def greatestExponent : Nat := 0x7FFFFFFF

/-- The powers of ten that scale a significand in one step reach this exponent. -/
def greatestPower : Nat := 308

/-- A power of ten as a magnitude. -/
def powerOfTen (n : Nat) : Binary64 :=
  (Binary64.ofNat? (Nat.pow 10 n)).getD Binary64.zero

/-- Divides a magnitude by ten to a power, in steps of the greatest power. The magnitude is zero
after few steps, so the bound on their number is never met. -/
def scaleDown : Nat → Binary64 → Nat → Option Binary64
  | 0, x, _ => some x
  | steps + 1, x, n =>
    if n ≤ greatestPower then x.div? (powerOfTen n)
    else if x.isZero then some x
    else
      match x.div? (powerOfTen greatestPower) with
      | none => none
      | some y => scaleDown steps y (n - greatestPower)

/-- The magnitude of a significand, if it is finite. -/
def Significand.magnitude? (s : Significand) : Option Binary64 :=
  match Binary64.ofNat? s.value with
  | none => none
  | some x =>
    if s.exponent < 0 then scaleDown 8 x s.exponent.natAbs
    else if s.exponent.natAbs ≤ greatestPower then x.mul? (powerOfTen s.exponent.natAbs)
    else if x.isZero then some x
    else none

/-- Adds digits while they fit; the flag says whether all did. -/
def addDigits (value count : Nat) : List UInt8 → Nat × Nat × Bool × List UInt8
  | [] => (value, count, true, [])
  | b :: rest =>
    match digit? b with
    | none => (value, count, true, b :: rest)
    | some d =>
      if value * 10 + d ≤ greatestSignificand then addDigits (value * 10 + d) (count + 1) rest
      else (value, count, false, b :: rest)

/-- The digits of an exponent while they fit; the flag says whether all did. -/
def exponentDigits (value : Nat) : List UInt8 → Nat × Bool × List UInt8
  | [] => (value, true, [])
  | b :: rest =>
    match digit? b with
    | none => (value, true, b :: rest)
    | some d =>
      if value * 10 + d ≤ greatestExponent then exponentDigits (value * 10 + d) rest
      else (value, false, rest.dropWhile isDigit)

/-- An exponent after its letter, applied to a significand. One that does not fit gives zero, or a
number that is not finite. -/
def withExponent? (s : Significand) (input : List UInt8) : Option (Binary64 × List UInt8) :=
  let (positive, digits) :=
    match input with
    | [] => (true, [])
    | b :: rest =>
      if b = 0x2B then (true, rest) else if b = 0x2D then (false, rest) else (true, input)
  match digits with
  | [] => none
  | b :: rest =>
    match digit? b with
    | none => none
    | some d =>
      let (value, fits, rest) := exponentDigits d rest
      if fits then
        let exponent : Int := if positive then s.exponent + value else s.exponent - value
        (Significand.magnitude? ⟨s.value, exponent⟩).map fun x => (x, rest)
      else if s.value ≠ 0 ∧ positive then none
      else some (Binary64.zero, rest)

/-- A number that is no integer, from the end of its digits on. -/
def finishFloat? (s : Significand) (input : List UInt8) : Option (Binary64 × List UInt8) :=
  match input with
  | [] => s.magnitude?.map fun x => (x, [])
  | b :: rest =>
    if b = 0x65 ∨ b = 0x45 then withExponent? s rest
    else s.magnitude?.map fun x => (x, input)

/-- The digits after a point, of which there is at least one, and what follows them. -/
def fraction? (s : Significand) (input : List UInt8) : Option (Binary64 × List UInt8) :=
  if (input.head?.bind digit?).isNone then none
  else
    let (value, count, _, rest) := addDigits s.value 0 input
    finishFloat? ⟨value, s.exponent - count⟩ (rest.dropWhile isDigit)

/-- A number whose whole part does not fit in 64 bits; the digits that do not fit only scale it. -/
def longWhole? (value : Nat) (input : List UInt8) : Option (Binary64 × List UInt8) :=
  let more := input.takeWhile isDigit
  let s : Significand := ⟨value, more.length⟩
  match input.drop more.length with
  | [] => finishFloat? s []
  | b :: rest => if b = 0x2E then fraction? s rest else finishFloat? s (b :: rest)

/-- A number after its sign: an integer if it has neither point nor exponent and fits. -/
def unsigned? (negative : Bool) (input : List UInt8) : Option (Token × List UInt8) :=
  match input with
  | [] => none
  | b :: rest =>
    match digit? b with
    | none => none
    | some first =>
      let asFloat := Option.map fun (found : Binary64 × List UInt8) =>
        (Token.float negative found.1, found.2)
      if first = 0 ∧ (rest.head?.bind digit?).isSome then none
      else
        let (value, _, fits, rest) := addDigits first 1 rest
        if !fits then asFloat (longWhole? value rest)
        else
          let integer : Option (Token × List UInt8) :=
            if !negative then some (.integer value, rest)
            else if value = 0 ∨ value > 0x8000000000000000 then
              (Binary64.ofNat? value).map fun x => (.float true x, rest)
            else some (.integer (-(value : Int)), rest)
          match rest with
          | [] => integer
          | c :: later =>
            if c = 0x2E then asFloat (fraction? ⟨value, 0⟩ later)
            else if c = 0x65 ∨ c = 0x45 then asFloat (withExponent? ⟨value, 0⟩ later)
            else integer

/-- The octets after a given start. -/
def after? (start input : List UInt8) : Option (List UInt8) :=
  if start.isPrefixOf input then some (input.drop start.length) else none

/-- The first token of a value. -/
def token? (input : List UInt8) : Option (Token × List UInt8) :=
  match skipBlank input with
  | [] => none
  | b :: rest =>
    match b.toNat with
    | 0x22 => (string? rest).map fun found => (.str found.1, found.2)
    | 0x5B => some (.openArray, rest)
    | 0x7B => some (.openObject, rest)
    | 0x6E => (after? [0x75, 0x6C, 0x6C] rest).map fun rest => (.null, rest)
    | 0x74 => (after? [0x72, 0x75, 0x65] rest).map fun rest => (.bool true, rest)
    | 0x66 => (after? [0x61, 0x6C, 0x73, 0x65] rest).map fun rest => (.bool false, rest)
    | 0x2D => unsigned? true rest
    | _ => unsigned? false (b :: rest)

end StatusRegistry.Json
