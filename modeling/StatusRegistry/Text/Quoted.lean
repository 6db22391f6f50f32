import StatusRegistry.Text.Printable
import StatusRegistry.Text.Utf8

/-!
# Quoted text

A text shown inside a message stands between double quotes. Quotes and backslashes are escaped,
common controls have short escapes, and every other character that does not stand alone is written
as its code point in braces, so the message stays on one line and shows what it holds.
-/

namespace StatusRegistry.Quoted

/-- A number in lower-case hexadecimal without leading zeros. -/
def hexDigits (n : Nat) : List Char :=
  Nat.toDigits 16 n

/-- The form of one character between the quotes. -/
def encodeChar (c : Char) : List Char :=
  if c = '"' then ['\\', '"']
  else if c = '\\' then ['\\', '\\']
  else if c = '\n' then ['\\', 'n']
  else if c = '\r' then ['\\', 'r']
  else if c = '\t' then ['\\', 't']
  else if c = '\x00' then ['\\', '0']
  else if Printable.standsAlone c then [c]
  else ['\\', 'u', '\x7b'] ++ hexDigits c.toNat ++ ['\x7d']

/-- A text between double quotes. -/
def quoted (s : String) : String :=
  String.ofList ('"' :: s.toList.flatMap encodeChar ++ ['"'])

/-- The form of an octet that belongs to no character. -/
def encodeOctet (b : UInt8) : List Char :=
  let digit (n : Nat) := Char.ofNat (if n < 10 then 0x30 + n else 0x37 + n)
  ['\\', 'x', digit (b.toNat / 16), digit (b.toNat % 16)]

/-- The character at the front of an octet sequence, with the number of its octets. -/
def firstChar? (octets : List UInt8) : Option (Char × Nat) :=
  [1, 2, 3, 4].findSome? fun n =>
    match Utf8.decode? (octets.take n) with
    | some [c] => some (c, n)
    | _ => none

/-- The forms of the characters of an octet sequence and of the octets between them. The number of
octets bounds the number of steps. -/
def encodeOctets : Nat → List UInt8 → List Char
  | 0, _ => []
  | _ + 1, [] => []
  | steps + 1, b :: rest =>
    match firstChar? (b :: rest) with
    | some (c, n) => encodeChar c ++ encodeOctets steps ((b :: rest).drop n)
    | none => encodeOctet b ++ encodeOctets steps rest

/-- An octet sequence between double quotes. -/
def quotedOctets (octets : List UInt8) : String :=
  String.ofList ('"' :: encodeOctets octets.length octets ++ ['"'])

example : encodeChar 'a' = ['a'] ∧ encodeChar '"' = ['\\', '"'] := by decide

end StatusRegistry.Quoted
