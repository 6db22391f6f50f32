/-!
# UTF-8

`scan` is authoritative: it reads an octet sequence once and yields its characters in order, with
`none` for every maximal ill-formed part. Strict decoding accepts a sequence without such parts;
lossy decoding puts the replacement character in their place. Both therefore agree wherever strict
decoding succeeds.
-/

namespace StatusRegistry.Utf8

/-- The shortest octet sequence of a character. -/
def encodeChar (c : Char) : List UInt8 :=
  let v := c.toNat
  if v < 0x80 then [v.toUInt8]
  else if v < 0x800 then [(0xC0 + v / 0x40).toUInt8, (0x80 + v % 0x40).toUInt8]
  else if v < 0x10000 then
    [(0xE0 + v / 0x1000).toUInt8, (0x80 + v / 0x40 % 0x40).toUInt8, (0x80 + v % 0x40).toUInt8]
  else
    [(0xF0 + v / 0x40000).toUInt8, (0x80 + v / 0x1000 % 0x40).toUInt8,
      (0x80 + v / 0x40 % 0x40).toUInt8, (0x80 + v % 0x40).toUInt8]

/-- The octets of a text. -/
def encode (cs : List Char) : List UInt8 :=
  cs.flatMap encodeChar

/-- A character whose first octets have been read: `owed` continuation octets are missing, the
next of them lies in `low..high`, and `value` is what the octets read so far contribute. -/
structure Pending where
  owed : Nat
  low : UInt8
  high : UInt8
  value : Nat

/-- What one octet does to a character: it completes it, extends it, or cannot belong to it. -/
inductive Outcome where
  | complete (c : Char)
  | more (pending : Pending)
  | illFormed

/-- An octet read between characters. The bounds on the second octet exclude overlong forms,
surrogates and values above the last code point. -/
def first (b : UInt8) : Outcome :=
  let v := b.toNat
  if v < 0x80 then .complete (Char.ofNat v)
  else if v < 0xC2 then .illFormed
  else if v < 0xE0 then .more ⟨1, 0x80, 0xBF, v - 0xC0⟩
  else if v = 0xE0 then .more ⟨2, 0xA0, 0xBF, 0⟩
  else if v = 0xED then .more ⟨2, 0x80, 0x9F, 0xD⟩
  else if v < 0xF0 then .more ⟨2, 0x80, 0xBF, v - 0xE0⟩
  else if v = 0xF0 then .more ⟨3, 0x90, 0xBF, 0⟩
  else if v < 0xF4 then .more ⟨3, 0x80, 0xBF, v - 0xF0⟩
  else if v = 0xF4 then .more ⟨3, 0x80, 0x8F, 4⟩
  else .illFormed

/-- An octet read inside a character. -/
def Pending.next (p : Pending) (b : UInt8) : Outcome :=
  if p.low ≤ b ∧ b ≤ p.high then
    let value := p.value * 0x40 + (b.toNat - 0x80)
    if p.owed ≤ 1 then .complete (Char.ofNat value)
    else .more ⟨p.owed - 1, 0x80, 0xBF, value⟩
  else .illFormed

/-- Reads octets in a state, collecting characters and ill-formed parts in reverse. An octet that
cannot continue a character ends the ill-formed part before it and is read anew. -/
def scanFrom : Option Pending → List UInt8 → List (Option Char) → List (Option Char)
  | none, [], found => found.reverse
  | some _, [], found => (none :: found).reverse
  | none, b :: rest, found =>
    match first b with
    | .complete c => scanFrom none rest (some c :: found)
    | .more p => scanFrom (some p) rest found
    | .illFormed => scanFrom none rest (none :: found)
  | some p, b :: rest, found =>
    match p.next b with
    | .complete c => scanFrom none rest (some c :: found)
    | .more q => scanFrom (some q) rest found
    | .illFormed =>
      match first b with
      | .complete c => scanFrom none rest (some c :: none :: found)
      | .more q => scanFrom (some q) rest (none :: found)
      | .illFormed => scanFrom none rest (none :: none :: found)

/-- The characters and ill-formed parts of an octet sequence, in order. -/
def scan (octets : List UInt8) : List (Option Char) :=
  scanFrom none octets []

/-- The first ill-formed part of an octet sequence: where it starts and how long it is. It has no
length if the sequence ends inside a character. -/
structure Fault where
  index : Nat
  length : Option Nat
  deriving DecidableEq, Repr

/-- The wording of a fault. -/
def Fault.message (fault : Fault) : String :=
  match fault.length with
  | some length =>
    "invalid utf-8 sequence of " ++ toString length ++ " bytes from index " ++ toString fault.index
  | none => "incomplete utf-8 byte sequence from index " ++ toString fault.index

/-- The first fault of octets read in a state, which holds the character begun before them with the
number of its octets; the index is that of the character. -/
def faultFrom : Option (Pending × Nat) → Nat → List UInt8 → Option Fault
  | none, _, [] => none
  | some _, index, [] => some ⟨index, none⟩
  | none, index, b :: rest =>
    match first b with
    | .complete _ => faultFrom none (index + 1) rest
    | .more p => faultFrom (some (p, 1)) index rest
    | .illFormed => some ⟨index, some 1⟩
  | some (p, read), index, b :: rest =>
    match p.next b with
    | .complete _ => faultFrom none (index + read + 1) rest
    | .more q => faultFrom (some (q, read + 1)) index rest
    | .illFormed => some ⟨index, some read⟩

/-- The first fault of an octet sequence, if it is not well formed. -/
def fault? (octets : List UInt8) : Option Fault :=
  faultFrom none 0 octets

/-- The text of a well-formed octet sequence. -/
def decode? (octets : List UInt8) : Option (List Char) :=
  (scan octets).mapM id

/-- The text of any octet sequence, each ill-formed part read as U+FFFD. -/
def decodeLossy (octets : List UInt8) : List Char :=
  (scan octets).map (·.getD '\uFFFD')

/-- The octets of a string. -/
def octets (s : String) : List UInt8 :=
  encode s.toList

/-- The string of a well-formed octet sequence. -/
def string? (octets : List UInt8) : Option String :=
  (decode? octets).map String.ofList

/-- The string of any octet sequence, each ill-formed part read as U+FFFD. -/
def stringLossy (octets : List UInt8) : String :=
  String.ofList (decodeLossy octets)

end StatusRegistry.Utf8
