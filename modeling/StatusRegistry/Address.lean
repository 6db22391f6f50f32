import StatusRegistry.Text.Scan

/-!
# Network addresses

Addresses of both internet families and addresses with ports. Reading follows the textual form
strictly: no leading zeros in a dotted address, at most one gap in a colon-separated one. Printing
is canonical, so the text of an address can serve as its identity.
-/

namespace StatusRegistry

/-- An internet address: four octets, or eight groups of sixteen bits. -/
inductive Ip where
  | v4 (a b c d : UInt8)
  | v6 (groups : List UInt16)
  deriving DecidableEq, Repr, Inhabited

/-- An address with a port; addresses of groups may name a scope. -/
structure Endpoint where
  ip : Ip
  scope : Nat
  port : UInt16
  deriving DecidableEq, Repr

namespace Ip

/-- The value of a digit below `base`. -/
def digit? (base : Nat) (c : Char) : Option Nat :=
  let v := c.toNat
  let value :=
    if 0x30 ≤ v ∧ v ≤ 0x39 then some (v - 0x30)
    else if 0x41 ≤ v ∧ v ≤ 0x46 then some (v - 0x37)
    else if 0x61 ≤ v ∧ v ≤ 0x66 then some (v - 0x57)
    else none
  value.filter (· < base)

/-- The digits of a base at the front of a text. -/
def scanDigits (base : Nat) : Scan (List Nat) := do
  let digits ← Scan.run fun c => (digit? base c).isSome
  pure (digits.filterMap (digit? base))

/-- An octet in decimal: one to three digits, no leading zero, at most 255. -/
def scanOctet : Scan UInt8 := do
  let digits ← scanDigits 10
  let value := Scan.natOfDigits 10 digits
  let hasLeadingZero : Bool := digits.head? = some 0 ∧ digits.length > 1
  if digits = [] ∨ digits.length > 3 ∨ hasLeadingZero ∨ value > 255 then failure
  pure value.toUInt8

/-- A dotted address. -/
def scanV4 : Scan Ip := do
  let a ← scanOctet
  Scan.expect '.'
  let b ← scanOctet
  Scan.expect '.'
  let c ← scanOctet
  Scan.expect '.'
  let d ← scanOctet
  pure (.v4 a b c d)

/-- A group of one to four hexadecimal digits. -/
def scanGroup : Scan UInt16 := do
  let digits ← scanDigits 16
  if digits = [] ∨ digits.length > 4 then failure
  pure (Scan.natOfDigits 16 digits).toUInt16

/-- A value after a colon, the first value of a list without one. -/
def scanItem {α : Type} (isFirst : Bool) (item : Scan α) : Scan α := do
  if !isFirst then Scan.expect ':'
  item

/-- The two groups of a dotted address. -/
def groupsOfV4 : Ip → List UInt16
  | .v4 a b c d => [a.toUInt16 <<< 8 ||| b.toUInt16, c.toUInt16 <<< 8 ||| d.toUInt16]
  | .v6 _ => []

/-- At most `room` groups; where two still fit, a dotted address may end the list. The flag says
whether one did. -/
def scanGroups (isFirst : Bool) : Nat → Scan (List UInt16 × Bool)
  | 0 => pure ([], false)
  | room + 1 => do
    let dotted ← if 0 < room then Scan.optional (scanItem isFirst scanV4) else pure none
    match dotted with
    | some ip => pure (groupsOfV4 ip, true)
    | none =>
      match ← Scan.optional (scanItem isFirst scanGroup) with
      | none => pure ([], false)
      | some group =>
        let (later, ended) ← scanGroups false room
        pure (group :: later, ended)

/-- A colon-separated address, in which one gap may stand for groups of zero. -/
def scanV6 : Scan Ip := do
  let (head, ended) ← scanGroups true 8
  if head.length = 8 then return .v6 head
  if ended then failure
  Scan.expect ':'
  Scan.expect ':'
  let (tail, _) ← scanGroups true (7 - head.length)
  pure (.v6 (head ++ List.replicate (8 - head.length - tail.length) 0 ++ tail))

/-- The address that a text names. -/
def parse? (s : String) : Option Ip :=
  ((scanV4 <|> scanV6 : Scan Ip)).whole? s.toList

/-- The start and length of the first longest run of zeros, at least two long. -/
def longestGap (groups : List UInt16) : Option (Nat × Nat) :=
  let runAt (i : Nat) := ((groups.drop i).takeWhile (· = 0)).length
  (List.range groups.length).foldl
    (fun best i =>
      let length := runAt i
      match best with
      | some (_, longest) => if length > longest then some (i, length) else best
      | none => if length > 1 then some (i, length) else none)
    none

/-- Groups in hexadecimal, joined by colons. -/
def groupsText (groups : List UInt16) : String :=
  ":".intercalate (groups.map fun g => String.ofList (Nat.toDigits 16 g.toNat))

/-- Four octets in decimal, joined by dots. -/
def dottedText (a b c d : UInt8) : String :=
  ".".intercalate ([a, b, c, d].map fun octet => toString octet.toNat)

/-- The canonical text: the first longest run of zero groups is a gap, and an address that stands
for a dotted one shows it. -/
def text : Ip → String
  | .v4 a b c d => dottedText a b c d
  | .v6 groups =>
    match groups with
    | [0, 0, 0, 0, 0, 0xFFFF, g, h] =>
      "::ffff:" ++ dottedText (g >>> 8).toUInt8 g.toUInt8 (h >>> 8).toUInt8 h.toUInt8
    | _ =>
      match longestGap groups with
      | some (start, length) =>
        groupsText (groups.take start) ++ "::" ++ groupsText (groups.drop (start + length))
      | none => groupsText groups

end Ip

namespace Endpoint

/-- A decimal number of at most `limit`, with any number of leading zeros. -/
def scanDecimal (limit : Nat) : Scan Nat := do
  let digits ← Ip.scanDigits 10
  let value := Scan.natOfDigits 10 digits
  if digits = [] ∨ value > limit then failure
  pure value

/-- A colon and a port. -/
def scanPort : Scan UInt16 := do
  Scan.expect ':'
  let port ← scanDecimal 65535
  pure port.toUInt16

/-- A percent sign and the number of a scope. -/
def scanScope : Scan Nat := do
  Scan.expect '%'
  scanDecimal 0xFFFFFFFF

/-- A dotted address and a port. -/
def scanV4 : Scan Endpoint := do
  let ip ← Ip.scanV4
  let port ← scanPort
  pure ⟨ip, 0, port⟩

/-- A colon-separated address in brackets, with or without a scope, and a port. -/
def scanV6 : Scan Endpoint := do
  Scan.expect '['
  let ip ← Ip.scanV6
  let scope ← Scan.optional scanScope
  Scan.expect ']'
  let port ← scanPort
  pure ⟨ip, scope.getD 0, port⟩

/-- The address and port that a text names. -/
def parse? (s : String) : Option Endpoint :=
  ((scanV4 <|> scanV6 : Scan Endpoint)).whole? s.toList

/-- Whether the address is one of groups. -/
def isV6 (e : Endpoint) : Bool :=
  match e.ip with
  | .v4 .. => false
  | .v6 _ => true

/-- The canonical text. -/
def text (e : Endpoint) : String :=
  let port := toString e.port.toNat
  match e.ip with
  | .v4 .. => e.ip.text ++ ":" ++ port
  | .v6 _ =>
    let scope := if e.scope = 0 then "" else "%" ++ toString e.scope
    "[" ++ e.ip.text ++ scope ++ "]:" ++ port

end Endpoint

end StatusRegistry
