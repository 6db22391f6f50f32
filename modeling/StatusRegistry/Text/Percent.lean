/-!
# Percent-encoding

A percent sign and two hexadecimal digits stand for one octet. A percent sign without them stands
for itself, so decoding accepts every octet sequence.
-/

namespace StatusRegistry.Percent

/-- The value of a hexadecimal digit, in either case. -/
def hexValue? (b : UInt8) : Option Nat :=
  let v := b.toNat
  if 0x30 ≤ v ∧ v ≤ 0x39 then some (v - 0x30)
  else if 0x41 ≤ v ∧ v ≤ 0x46 then some (v - 0x41 + 10)
  else if 0x61 ≤ v ∧ v ≤ 0x66 then some (v - 0x61 + 10)
  else none

/-- The octet that two hexadecimal digits stand for. -/
def octet? (high low : UInt8) : Option UInt8 := do
  let h ← hexValue? high
  let l ← hexValue? low
  pure (h * 16 + l).toUInt8

/-- Replaces every escape, collecting the octets in reverse. -/
def decodeOnto (decoded : List UInt8) : List UInt8 → List UInt8
  | [] => decoded.reverse
  | [a] => (a :: decoded).reverse
  | [a, b] => (b :: a :: decoded).reverse
  | a :: b :: c :: rest =>
    if a = 0x25 then
      match octet? b c with
      | some octet => decodeOnto (octet :: decoded) rest
      | none => decodeOnto (a :: decoded) (b :: c :: rest)
    else decodeOnto (a :: decoded) (b :: c :: rest)

/-- The octets that a percent-encoded sequence stands for. -/
def decode (octets : List UInt8) : List UInt8 :=
  decodeOnto [] octets

end StatusRegistry.Percent
