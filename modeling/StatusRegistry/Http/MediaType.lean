/-!
# Media types

A content type is a type and a subtype with parameters. Documents are accepted whose type is
`application` and whose subtype is `json` or ends in a plus sign and `json`. A content type that is
not well formed, in its parameters too, is none.
-/

namespace StatusRegistry.Http.MediaType

/-- Whether a character may stand in a name. -/
def isToken (c : Char) : Bool :=
  ('0' ≤ c && c ≤ '9') || ('A' ≤ c && c ≤ 'Z') || ('a' ≤ c && c ≤ 'z') ||
    "!#$%&'*+-.^_`|~".toList.contains c

/-- Whether a character may stand between quotes. -/
def isQuotable (c : Char) : Bool := 31 < c.toNat && c.toNat ≠ 127

/-- Where a reader of parameters stands. -/
inductive State where
  | name (isFirst : Bool)
  | value (isFirst : Bool)
  | quoted (isFirst : Bool)
  | afterQuote

/-- The state after one character of the parameters. -/
def State.next? : State → Char → Option State
  | .name isFirst, c =>
    if isFirst && c = ' ' then some (.name true)
    else if isToken c then some (.name false)
    else if c = '=' && !isFirst then some (.value true)
    else none
  | .value isFirst, c =>
    if isFirst && c = '"' then some (.quoted true)
    else if isToken c then some (.value false)
    else if c = ';' && !isFirst then some (.name true)
    else none
  | .quoted isFirst, c =>
    if c = '"' && !isFirst then some .afterQuote
    else if isQuotable c then some (.quoted false)
    else none
  | .afterQuote, c =>
    if c = ';' then some (.name true) else if c = ' ' then some .afterQuote else none

/-- Whether parameters may end in a state. -/
def State.isFinal : State → Bool
  | .name isFirst => isFirst
  | .value _ => true
  | .quoted _ => false
  | .afterQuote => true

/-- Whether the characters after a semicolon are parameters. -/
def areParameters (cs : List Char) : Bool :=
  match cs.foldlM State.next? (.name true) with
  | some s => s.isFinal
  | none => false

/-- The part of a name before its last plus sign and the part after it; a plus sign in front does
not divide. -/
def divide (subtype : List Char) : List Char × Option (List Char) :=
  let suffix := (subtype.reverse.takeWhile (· ≠ '+')).reverse
  let before := subtype.take (subtype.length - suffix.length - 1)
  if suffix.length = subtype.length || before.isEmpty then (subtype, none)
  else (before, some suffix)

/-- Whether a content type announces a JSON document. -/
def isJson (contentType : String) : Bool :=
  let cs := contentType.toList.map Char.toLower
  let type := cs.takeWhile isToken
  match cs.drop type.length with
  | '/' :: rest =>
    let subtype := rest.takeWhile isToken
    let parameters := rest.drop subtype.length
    let isWellFormed := match parameters with
      | [] => true
      | c :: after => c = ';' && !subtype.isEmpty && areParameters after
    let (base, suffix) := divide subtype
    isWellFormed && type = "application".toList &&
      (base = "json".toList || suffix = some "json".toList)
  | _ => false

end StatusRegistry.Http.MediaType
