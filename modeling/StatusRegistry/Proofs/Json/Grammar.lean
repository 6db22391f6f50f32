import StatusRegistry.Json.Skip
import StatusRegistry.Proofs.Text.Digits

/-!
# The grammar of JSON

Which octets are a JSON value, said apart from any reader. A string has two forms: one that stands
for the octets of a text, and one of which only the form matters, because nobody reads it. The
latter may hold any octets but raw control characters, and escapes that stand for no character.

Objects and arrays are entries between brackets, divided by commas. What an entry is differs: a
value, perhaps with blanks before it, or a key with its colon and a value.
-/

namespace StatusRegistry.Json

open Percent (hexDigits)
open Utf8 (encodeChar)

/-- Octets that may stand between tokens: spaces, line feeds, tabs and carriage returns. -/
def IsBlank (octets : List UInt8) : Prop :=
  ∀ b ∈ octets, b = 0x20 ∨ b = 0x0A ∨ b = 0x09 ∨ b = 0x0D

/-- An octet of a string that stands for itself: no quote, no backslash, no control character. -/
def IsPlain (b : UInt8) : Prop := b ≠ 0x22 ∧ b ≠ 0x5C ∧ ¬b < 0x20

/-- The letters of escapes with the characters that they stand for. -/
def shortEscapes : List (UInt8 × Char) := [(0x22, '"'), (0x5C, '\\'), (0x2F, '/'), (0x62, '\x08'),
  (0x66, '\x0c'), (0x6E, '\n'), (0x72, '\r'), (0x74, '\t')]

/-- A number in hexadecimal digits of either case. -/
inductive HexNumeral : Nat → List UInt8 → Prop
  | nil : HexNumeral 0 []
  | snoc {n d digits digit} (numeral : HexNumeral n digits) (small : d < 16)
    (isDigit : digit ∈ hexDigits d) : HexNumeral (n * 16 + d) (digits ++ [digit])

/-- A number in the four hexadecimal digits of an escape. -/
def IsCode (n : Nat) (digits : List UInt8) : Prop := HexNumeral n digits ∧ digits.length = 4

/-- The character of the two halves of a surrogate pair. -/
def pairedChar (high low : Nat) : Char :=
  Char.ofNat (0x10000 + (high - 0xD800) * 0x400 + (low - 0xDC00))

/-- The ways to write octets between quotes. A code that is a surrogate stands for a character
together with the other half of its pair. -/
inductive Literal : List UInt8 → List UInt8 → Prop
  | nil : Literal [] []
  | plain {b octets written} (plain : IsPlain b) (rest : Literal octets written) :
    Literal (b :: octets) (b :: written)
  | short {letter c octets written} (short : (letter, c) ∈ shortEscapes)
    (rest : Literal octets written) :
    Literal (encodeChar c ++ octets) (0x5C :: letter :: written)
  | code {n digits octets written} (code : IsCode n digits) (single : n < 0xD800 ∨ 0xDFFF < n)
    (rest : Literal octets written) :
    Literal (encodeChar (Char.ofNat n) ++ octets) (0x5C :: 0x75 :: (digits ++ written))
  | pair {high low first second octets written} (highCode : IsCode high first)
    (isHigh : 0xD800 ≤ high ∧ high ≤ 0xDBFF) (lowCode : IsCode low second)
    (isLow : 0xDC00 ≤ low ∧ low ≤ 0xDFFF) (rest : Literal octets written) :
    Literal (encodeChar (pairedChar high low) ++ octets)
      (0x5C :: 0x75 :: (first ++ 0x5C :: 0x75 :: (second ++ written)))

/-- What may stand between the quotes of a string that nobody reads. -/
inductive Unread : List UInt8 → Prop
  | nil : Unread []
  | plain {b written} (plain : IsPlain b) (rest : Unread written) : Unread (b :: written)
  | short {letter c written} (short : (letter, c) ∈ shortEscapes) (rest : Unread written) :
    Unread (0x5C :: letter :: written)
  | code {n digits written} (code : IsCode n digits) (rest : Unread written) :
    Unread (0x5C :: 0x75 :: (digits ++ written))

/-- A string that can be read can be left unread. -/
theorem Literal.unread {octets written : List UInt8} (literal : Literal octets written) :
    Unread written := by
  induction literal with
  | nil => exact .nil
  | plain plain _ ih => exact .plain plain ih
  | short short _ ih => exact .short short ih
  | code code _ _ ih => exact .code code ih
  | pair highCode _ lowCode _ _ ih => exact .code highCode (.code lowCode ih)

/-- A run of at least one digit. -/
def IsDigits (digits : List UInt8) : Prop := digits ≠ [] ∧ ∀ b ∈ digits, isDigit b = true

/-- The whole part of a number: digits that start with a zero only where nothing follows it. -/
def IsWhole (digits : List UInt8) : Prop :=
  IsDigits digits ∧ (digits.head? = some 0x30 → digits = [0x30])

/-- The fraction of a number, if it has one. -/
inductive IsFraction : List UInt8 → Prop
  | absent : IsFraction []
  | present {digits} (isDigits : IsDigits digits) : IsFraction (0x2E :: digits)

/-- The exponent of a number, if it has one. -/
inductive IsExponent : List UInt8 → Prop
  | absent : IsExponent []
  | present {letter sign digits} (isLetter : letter = 0x65 ∨ letter = 0x45)
    (isSign : sign = [] ∨ sign = [0x2B] ∨ sign = [0x2D]) (isDigits : IsDigits digits) :
    IsExponent (letter :: (sign ++ digits))

/-- A number without its sign. -/
def IsUnsigned (octets : List UInt8) : Prop :=
  ∃ whole fraction exponent, IsWhole whole ∧ IsFraction fraction ∧ IsExponent exponent ∧
    octets = whole ++ (fraction ++ exponent)

/-- A number. -/
inductive IsNumber : List UInt8 → Prop
  | plain {octets} (unsigned : IsUnsigned octets) : IsNumber octets
  | minus {octets} (unsigned : IsUnsigned octets) : IsNumber (0x2D :: octets)

/-- A value that is neither an array nor an object. -/
inductive IsScalar : List UInt8 → Prop
  | word {octets} (isWord : octets ∈ ["null", "true", "false"].map Utf8.octets) : IsScalar octets
  | string {written} (unread : Unread written) : IsScalar (0x22 :: (written ++ [0x22]))
  | number {octets} (number : IsNumber octets) : IsScalar octets

/-- The octet that opens a bracket. -/
def Bracket.opening : Bracket → UInt8
  | .array => 0x5B
  | .object => 0x7B

/-- The octet that closes a bracket. -/
def Bracket.closing : Bracket → UInt8
  | .array => 0x5D
  | .object => 0x7D

/-- An item of an array: a value, perhaps after blanks. -/
def ItemText (value octets : List UInt8) : Prop :=
  ∃ blank, IsBlank blank ∧ octets = blank ++ value

/-- A key in quotes with its colon, and the blanks around the quotes. -/
def KeyText (IsKey : List UInt8 → Prop) (octets : List UInt8) : Prop :=
  ∃ before key between, IsBlank before ∧ IsKey key ∧ IsBlank between ∧
    octets = before ++ 0x22 :: (key ++ 0x22 :: (between ++ [0x3A]))

/-- A member of an object: a key, written in one way or another, and a value. -/
def MemberText (IsKey : List UInt8 → Prop) (value octets : List UInt8) : Prop :=
  ∃ key item, KeyText IsKey key ∧ ItemText value item ∧ octets = key ++ item

/-- An entry of a bracket that nobody reads. -/
def Bracket.EntryText : Bracket → List UInt8 → List UInt8 → Prop
  | .array => ItemText
  | .object => MemberText Unread

/-- Entries of a bracket with what closes it: all of them where it has just been opened, and those
that are left where one has ended. -/
inductive Entries {ε : Type} (Text : ε → List UInt8 → Prop) (closing : UInt8) :
    Place → List ε → List UInt8 → Prop
  | empty {blank} (isBlank : IsBlank blank) : Entries Text closing .opened [] (blank ++ [closing])
  | first {entry entries octets later} (text : Text entry octets)
    (rest : Entries Text closing .ended entries later) :
    Entries Text closing .opened (entry :: entries) (octets ++ later)
  | last {blank} (isBlank : IsBlank blank) : Entries Text closing .ended [] (blank ++ [closing])
  | next {blank entry entries octets later} (isBlank : IsBlank blank) (text : Text entry octets)
    (rest : Entries Text closing .ended entries later) :
    Entries Text closing .ended (entry :: entries) (blank ++ 0x2C :: (octets ++ later))

/-- A value of any depth. -/
inductive IsValue : List UInt8 → Prop
  | scalar {octets} (isScalar : IsScalar octets) : IsValue octets
  | bracket {b : Bracket} {values inside}
    (entries : Entries b.EntryText b.closing .opened values inside)
    (areValues : ∀ value ∈ values, IsValue value) : IsValue (b.opening :: inside)

/-- A string in quotes. -/
def StringText (octets : List UInt8) (s : String) : Prop :=
  ∃ written, Literal (Utf8.octets s) written ∧ octets = 0x22 :: (written ++ [0x22])

/-- A boolean as it is spelled. -/
def BooleanText (octets : List UInt8) (b : Bool) : Prop := octets = Utf8.octets (toString b)

/-- A 32-bit integer in decimal digits, the only way to write it without a fraction or an
exponent. -/
def Int32Text (octets : List UInt8) (n : Int32) : Prop := octets = Utf8.octets (toString n.toInt)

/-- A member whose key stands for a text. -/
def ReadMember (member : String × List UInt8) : List UInt8 → Prop :=
  MemberText (Literal (Utf8.octets member.1)) member.2

/-- An object with some members, each a key and the octets of its value. -/
def IsObject (members : List (String × List UInt8)) (octets : List UInt8) : Prop :=
  ∃ inside, octets = 0x7B :: inside ∧ Entries ReadMember 0x7D .opened members inside ∧
    ∀ member ∈ members, IsValue member.2

/-- An array with some items, each the octets of a value. -/
def IsArray (items : List (List UInt8)) (octets : List UInt8) : Prop :=
  ∃ inside, octets = 0x5B :: inside ∧ Entries ItemText 0x5D .opened items inside ∧
    ∀ item ∈ items, IsValue item

/-- A body with one document and nothing but blanks around it. -/
def Holds (IsDocument : List UInt8 → Prop) (body : List UInt8) : Prop :=
  ∃ before document after, IsBlank before ∧ IsDocument document ∧ IsBlank after ∧
    body = before ++ (document ++ after)

end StatusRegistry.Json
