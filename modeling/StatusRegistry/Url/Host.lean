import StatusRegistry.Address
import StatusRegistry.Text.Percent
import StatusRegistry.Text.Split
import StatusRegistry.Text.Utf8
import StatusRegistry.Url.Problem

/-!
# Hosts of URLs

A host in brackets is a colon-separated address. Any other host of an ordinary URL is opaque: it
stays as it is written. The web's own schemes know more: their hosts are percent-decoded names in
lower case, and a name that ends in a number is a dotted address, whose parts may be decimal, octal
or hexadecimal and of which the last fills what the others leave. Names outside ASCII are taken as
they are.
-/

namespace StatusRegistry

/-- A host: a name that is not empty, or an address. -/
inductive Host where
  | name (text : String)
  | address (ip : Ip)
  deriving DecidableEq, Repr

namespace Host

/-- The text of a host, addresses without brackets. -/
def text : Host → String
  | .name text => text
  | .address ip => ip.text

/-- The characters that no opaque host may hold. -/
def isForbidden (c : Char) : Bool :=
  "\x00\t\n\r #/:<>?@[\\]^|".toList.contains c

/-- The characters that no name may hold. -/
def isForbiddenInName (c : Char) : Bool :=
  isForbidden c || c.toNat < 0x20 || c = '%' || c.toNat = 0x7F

/-- An address in brackets, of which the first has been read. -/
def readBracketed (cs : List Char) : Except UrlProblem Host :=
  let address :=
    if cs.getLast? = some ']' then (Ip.scanV6.whole? cs.dropLast).map .address else none
  match address with
  | some host => .ok host
  | none => .error .invalidV6

/-- A host that stays as it is written; an empty one is no host. -/
def readOpaque (cs : List Char) : Except UrlProblem (Option Host) :=
  match cs with
  | [] => .ok none
  | '[' :: rest => (readBracketed rest).map some
  | _ =>
    if cs.any isForbidden then .error .invalidCharacter else .ok (some (.name (String.ofList cs)))

/-- A number of a dotted address. A zero in front means octal, and `0x` hexadecimal, of which no
digits are zero. -/
def partNumber? (cs : List Char) : Option Nat :=
  let (base, digits) := match cs with
    | '0' :: 'x' :: digits => (16, digits)
    | '0' :: 'X' :: digits => (16, digits)
    | '0' :: c :: digits => (8, c :: digits)
    | digits => (10, digits)
  if cs.isEmpty then none
  else (digits.mapM (Ip.digit? base)).map (Scan.natOfDigits base)

/-- The parts of a name, without an empty one at the end. -/
def nameParts (cs : List Char) : List (List Char) :=
  let parts := splitAt '.' cs
  if parts.getLast? = some [] then parts.dropLast else parts

/-- Whether the last part of a name is a number, if only of digits that are too great for its
base. -/
def endsInNumber (cs : List Char) : Bool :=
  match (nameParts cs).getLast? with
  | none => false
  | some part => (!part.isEmpty && part.all Char.isDigit) || (partNumber? part).isSome

/-- The address whose leading octets and remaining value are given. -/
def addressOf? (octets : List Nat) (remaining : Nat) : Option Ip :=
  if octets.length > 3 || octets.any (· > 0xFF) ||
      remaining ≥ Nat.pow 0x100 (4 - octets.length) then none
  else
    let value := octets.foldr (fun octet n => octet * 0x1000000 + n / 0x100) 0 + remaining
    some (.v4 (value / 0x1000000).toUInt8 (value / 0x10000).toUInt8 (value / 0x100).toUInt8
      value.toUInt8)

/-- The dotted address that a name spells. -/
def dottedAddress? (cs : List Char) : Option Ip := do
  let numbers ← (nameParts cs).mapM partNumber?
  addressOf? numbers.dropLast (← numbers.getLast?)

/-- A host of one of the web's schemes. -/
def readName (cs : List Char) : Except UrlProblem Host :=
  match cs with
  | '[' :: rest => readBracketed rest
  | _ =>
    match Utf8.decode? (Percent.decode (Utf8.encode cs)) with
    | none => .error .invalidName
    | some decoded =>
      let name := decoded.map Char.toLower
      if name.any isForbiddenInName then .error .invalidName
      else if name.isEmpty then .error .emptyHost
      else if endsInNumber name then
        match dottedAddress? name with
        | some ip => .ok (.address ip)
        | none => .error .invalidV4
      else .ok (.name (String.ofList name))

end Host

end StatusRegistry
