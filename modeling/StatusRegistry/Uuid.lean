/-!
# Identifiers

An identifier is 128 bits, held as its thirty-two hexadecimal digits. Reading accepts the digits
alone, in hyphenated groups, in braces and as a `urn:uuid:` name, in either letter case; printing
always gives lower-case hyphenated groups.
-/

namespace StatusRegistry

/-- A 128-bit identifier as its hexadecimal digits, most significant first. -/
structure Uuid where
  digits : List (Fin 16)
  length_digits : digits.length = 32
  deriving DecidableEq

namespace Uuid

/-- The identifier with no bit set, which names nobody. -/
def nil : Uuid := ⟨List.replicate 32 0, by simp⟩

/-- Whether an identifier is the nil one. -/
def isNil (u : Uuid) : Bool := u = nil

/-- The value of a hexadecimal digit, in either case. -/
def digit? (c : Char) : Option (Fin 16) :=
  if h : 0x30 ≤ c.toNat ∧ c.toNat ≤ 0x39 then some ⟨c.toNat - 0x30, by omega⟩
  else if h : 0x41 ≤ c.toNat ∧ c.toNat ≤ 0x46 then some ⟨c.toNat - 0x37, by omega⟩
  else if h : 0x61 ≤ c.toNat ∧ c.toNat ≤ 0x66 then some ⟨c.toNat - 0x57, by omega⟩
  else none

/-- The lower-case form of a digit. -/
def digitChar (d : Fin 16) : Char :=
  Char.ofNat (if d.val < 10 then 0x30 + d.val else 0x57 + d.val)

/-- The identifier with the given digits, if there are thirty-two. -/
def ofDigits? (digits : List (Fin 16)) : Option Uuid :=
  if h : digits.length = 32 then some ⟨digits, h⟩ else none

/-- The digits of a text that holds nothing else. -/
def ofSimple? (cs : List Char) : Option Uuid :=
  cs.mapM digit? >>= ofDigits?

/-- The positions of the four hyphens in the grouped form. -/
def hyphenPositions : List Nat := [8, 13, 18, 23]

/-- A text of thirty-six characters with hyphens exactly between the groups of digits. -/
def ofHyphenated? (cs : List Char) : Option Uuid :=
  if cs.length = 36 ∧ hyphenPositions.all (fun i => cs[i]? = some '-') then
    ofSimple? (cs.take 8 ++ (cs.drop 9).take 4 ++ (cs.drop 14).take 4 ++ (cs.drop 19).take 4 ++
      cs.drop 24)
  else none

/-- What stands before the grouped form of an identifier used as a name, in either letter case. -/
def urnStart : List Char := "urn:uuid:".toList

/-- An identifier in any of its four forms, told apart by length. -/
def parse? (cs : List Char) : Option Uuid :=
  match cs.length with
  | 32 => ofSimple? cs
  | 36 => ofHyphenated? cs
  | 38 =>
    if cs.head? = some '\x7b' ∧ cs.getLast? = some '\x7d' then ofHyphenated? ((cs.drop 1).take 36)
    else none
  | 45 =>
    if (cs.take 9).map Char.toLower = urnStart then ofHyphenated? (cs.drop 9) else none
  | _ => none

/-- The grouped lower-case form. -/
def toChars (u : Uuid) : List Char :=
  let cs := u.digits.map digitChar
  cs.take 8 ++ '-' :: (cs.drop 8).take 4 ++ '-' :: (cs.drop 12).take 4 ++
    '-' :: (cs.drop 16).take 4 ++ '-' :: cs.drop 20

/-- The text of an identifier. -/
def text (u : Uuid) : String := String.ofList u.toChars

/-- Identifiers are ordered digit by digit. -/
def before (u v : Uuid) : Bool := decide (u.digits < v.digits)

/-- The identifier of the `n`-th row of a table: a fixed start and `n` in the last twelve digits. -/
def ofOrdinal (n : Nat) : Uuid :=
  ⟨[0, 0, 0, 0, 0, 0, 0, 0, 0, 0, 0, 0, 4, 0, 0, 0, 8, 0, 0, 0] ++
    (List.range 12).map (fun i => Fin.ofNat 16 (n / Nat.pow 16 (11 - i))), by simp⟩

end Uuid

end StatusRegistry
