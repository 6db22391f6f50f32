import StatusRegistry.Text.Percent
import StatusRegistry.Text.Split
import StatusRegistry.Text.Utf8

/-!
# Form-encoded pairs

A query string is a sequence of `key=value` pairs joined by ampersands. Empty pairs are skipped, a
pair without an equals sign has an empty value, and a plus sign stands for a space. Every octet
sequence is a query string: what is not valid stays as it is.
-/

namespace StatusRegistry.Form

/-- The text of an encoded key or value. -/
def decodeText (octets : List UInt8) : String :=
  Utf8.stringLossy (Percent.decode (octets.map fun b => if b = 0x2B then 0x20 else b))

/-- A pair divided at its first equals sign. -/
def decodePair (octets : List UInt8) : String × String :=
  let key := octets.takeWhile (· ≠ 0x3D)
  (decodeText key, decodeText (octets.drop (key.length + 1)))

/-- The pairs of a query string, in order. -/
def pairs (query : List UInt8) : List (String × String) :=
  ((splitAt 0x26 query).filter (· ≠ [])).map decodePair

end StatusRegistry.Form
