import StatusRegistry.Text.Form

/-!
# Request targets

A target is a path with a query, an absolute address that contains them, an authority alone, or a
star. Only some octets may stand in each part; octets beyond ASCII must be valid UTF-8. What
follows a number sign is dropped.
-/

namespace StatusRegistry.Http

/-- The part of a target that selects a resource, and the query after it. -/
structure Target where
  path : List UInt8
  query : List UInt8
  deriving DecidableEq, Repr

namespace Target

/-- The greatest number of octets of a target. -/
def maxLength : Nat := 65534

/-- The slash. -/
def slash : UInt8 := 0x2F

/-- Whether an octet may stand in a path. -/
def isPathOctet (b : UInt8) : Bool :=
  let v := b.toNat
  v == 0x21 || v == 0x22 || (0x24 ≤ v && v ≤ 0x3B) || v == 0x3D || (0x40 ≤ v && v ≤ 0x5F) ||
    (0x61 ≤ v && v ≤ 0x7E) || 0x80 ≤ v

/-- Whether an octet may stand in a query. -/
def isQueryOctet (b : UInt8) : Bool :=
  let v := b.toNat
  v == 0x21 || (0x24 ≤ v && v ≤ 0x3B) || v == 0x3D || (0x3F ≤ v && v ≠ 0x7F)

/-- Whether octets are valid UTF-8. -/
def isText (octets : List UInt8) : Bool :=
  octets.all (· < 0x80) || (Utf8.decode? octets).isSome

/-- A path with an optional query. -/
def pathAndQuery? (octets : List UInt8) : Option Target :=
  let path := octets.takeWhile fun b => b ≠ 0x3F && b ≠ 0x23
  let rest := octets.drop path.length
  let query := match rest with
    | 0x3F :: after => after.takeWhile (· ≠ 0x23)
    | _ => []
  if path.all isPathOctet && query.all isQueryOctet && isText path && isText query then
    some ⟨path, query⟩
  else none

/-- Whether an octet is an ASCII letter or digit. -/
def isAlphanumeric (b : UInt8) : Bool :=
  (0x30 ≤ b && b ≤ 0x39) || (0x41 ≤ b && b ≤ 0x5A) || (0x61 ≤ b && b ≤ 0x7A)

/-- Whether an octet may stand in the name of a scheme. -/
def isSchemeOctet (b : UInt8) : Bool :=
  isAlphanumeric b || b = 0x2B || b = 0x2D || b = 0x2E || b = 0x7E

/-- The longest name of a scheme. -/
def maxSchemeLength : Nat := 64

/-- What follows the scheme of an absolute address: `none` if the target has no scheme, and a
refusal if its name is too long. -/
def afterScheme? (octets : List UInt8) : Option (Option (List UInt8)) :=
  let name := octets.takeWhile isSchemeOctet
  match octets.drop name.length with
  | 0x3A :: 0x2F :: 0x2F :: rest =>
    if name.length > maxSchemeLength then none else some (some rest)
  | _ => some none

/-- Whether an octet may stand in an authority besides percent signs. -/
def isAuthorityOctet (b : UInt8) : Bool :=
  let v := b.toNat
  isAlphanumeric b || v == 0x21 || v == 0x24 || (0x26 ≤ v && v ≤ 0x2E) || v == 0x3A || v == 0x3B ||
    v == 0x3D || v == 0x40 || v == 0x5B || v == 0x5D || v == 0x5F || v == 0x7E

/-- What has been seen of an authority: colons since the last at sign or bracket, brackets, a
percent sign outside user information, and whether the last octet was an at sign. -/
structure AuthorityState where
  colons : Nat
  isOpened : Bool
  isClosed : Bool
  hasPercent : Bool
  endsInAt : Bool

/-- One octet of an authority. -/
def AuthorityState.next? (s : AuthorityState) (b : UInt8) : Option AuthorityState :=
  let s' := { s with endsInAt := false }
  if b = 0x25 then some { s' with hasPercent := true }
  else if !isAuthorityOctet b then none
  else if b = 0x3A then if s.colons ≥ 8 then none else some { s' with colons := s.colons + 1 }
  else if b = 0x5B then
    if s.hasPercent || s.isOpened then none else some { s' with isOpened := true }
  else if b = 0x5D then
    if !s.isOpened || s.isClosed then none
    else some { s' with isClosed := true, colons := 0, hasPercent := false }
  else if b = 0x40 then some { s' with colons := 0, hasPercent := false, endsInAt := true }
  else some s'

/-- Whether the octets form an authority. -/
def isAuthority (octets : List UInt8) : Bool :=
  let start : AuthorityState := ⟨0, false, false, false, false⟩
  match octets.foldlM AuthorityState.next? start with
  | none => false
  | some s => s.isOpened == s.isClosed && s.colons ≤ 1 && !s.endsInAt && !s.hasPercent

/-- An absolute address after its scheme: an authority, then a path, where no path means the
root. -/
def absolute? (octets : List UInt8) : Option Target :=
  let authority := octets.takeWhile fun b => b ≠ slash && b ≠ 0x3F && b ≠ 0x23
  if authority.isEmpty || !isAuthority authority then none
  else
    (pathAndQuery? (octets.drop authority.length)).map fun t =>
      if t.path.isEmpty then { t with path := [slash] } else t

/-- The target that octets spell. -/
def parse? (octets : List UInt8) : Option Target :=
  if octets.length > maxLength then none
  else
    match octets with
    | [] => none
    | [0x2A] => some ⟨[0x2A], []⟩
    | b :: _ =>
      if b = slash then pathAndQuery? octets
      else
        match afterScheme? octets with
        | none => none
        | some (some rest) => absolute? rest
        | some none => if isAuthority octets then some ⟨[], []⟩ else none

/-- A path without the slashes at both ends. -/
def trimSlashes (path : List UInt8) : List UInt8 :=
  ((path.dropWhile (· = slash)).reverse.dropWhile (· = slash)).reverse

/-- A target whose path has one slash in front and none at the end, if there were others. -/
def normalized (t : Target) : Target :=
  if t.path.getLast? = some slash || t.path.take 2 = [slash, slash] then
    { t with path := slash :: trimSlashes t.path }
  else t

/-- The parts of a path that starts with a slash. -/
def segments? (t : Target) : Option (List (List UInt8)) :=
  match t.path with
  | [] => none
  | b :: rest => if b = slash then some (splitAt slash rest) else none

end Target

end StatusRegistry.Http
