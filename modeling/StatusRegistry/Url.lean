import StatusRegistry.Text.Blank
import StatusRegistry.Text.Integer
import StatusRegistry.Url.Host

/-!
# URLs

An absolute URL begins with a scheme. Two slashes announce an authority: credentials up to the last
at sign, a host, and a port after a colon. What remains is a path, a query after a question mark,
and a fragment, which is dropped. Blanks and controls around a URL and line breaks and tabs inside
it do not count.

The web's own schemes always have a host, count a backslash as a slash and have usual ports, which
are not told. A URL of files has a host at most.
-/

namespace StatusRegistry

/-- A URL that stands by itself. Credentials, path and query are still percent-encoded; an empty
password and an empty host are none. -/
structure Url where
  scheme : String
  user : List Char
  password : Option (List Char)
  host : Option Host
  port : Option Nat
  path : List Char
  query : List Char

namespace Url

/-- How the rest of a URL is read after its scheme. -/
inductive Kind where
  | ordinary
  | web (usualPort : Nat)
  | files
  deriving DecidableEq, Repr

/-- The kind of a scheme. -/
def Kind.ofScheme (scheme : String) : Kind :=
  match scheme with
  | "http" => .web 80
  | "ws" => .web 80
  | "https" => .web 443
  | "wss" => .web 443
  | "ftp" => .web 21
  | "file" => .files
  | _ => .ordinary

/-- Whether a character counts as a slash. -/
def Kind.isSlash (kind : Kind) (c : Char) : Bool :=
  c = '/' || (kind ≠ .ordinary && c = '\\')

/-- Whether a character ends an authority. -/
def Kind.endsAuthority (kind : Kind) (c : Char) : Bool :=
  kind.isSlash c || c = '?' || c = '#'

/-- Whether a character ends a path. -/
def endsPath (c : Char) : Bool := c = '?' || c = '#'

/-- The characters of a text that count. -/
def significant (cs : List Char) : List Char :=
  (trimBoth (·.toNat ≤ 0x20) cs).filter fun c => c ≠ '\t' && c ≠ '\n' && c ≠ '\r'

/-- Whether a character may stand in a scheme. -/
def isSchemeChar (c : Char) : Bool :=
  c.isAlphanum || c = '+' || c = '-' || c = '.'

/-- The scheme of a URL in lower case, and what follows its colon. -/
def readScheme (cs : List Char) : Except UrlProblem (String × List Char) :=
  let name := cs.takeWhile isSchemeChar
  match cs.drop name.length with
  | ':' :: rest =>
    if (name.head?.map Char.isAlpha).getD false then
      .ok (String.ofList (name.map Char.toLower), rest)
    else .error .relative
  | _ => .error .relative

/-- A user and a password. -/
structure Credentials where
  user : List Char
  password : Option (List Char)

namespace Credentials

/-- No credentials. -/
def none : Credentials := ⟨[], .none⟩

/-- Whether neither part is told. -/
def areAbsent (c : Credentials) : Bool := c.user.isEmpty && c.password.isNone

/-- Credentials divided at their first colon. -/
def ofText (cs : List Char) : Credentials :=
  let user := cs.takeWhile (· ≠ ':')
  let password := cs.drop (user.length + 1)
  ⟨user, if password.isEmpty then .none else some password⟩

end Credentials

/-- The credentials at the front of an authority, and what follows them. After a lone at sign the
authority may not end. -/
def readCredentials (kind : Kind) (cs : List Char) :
    Except UrlProblem (Credentials × List Char) :=
  let authority := cs.takeWhile fun c => !kind.endsAuthority c
  match authority.reverse.dropWhile (· ≠ '@') with
  | [] => .ok (.none, cs)
  | _ :: before =>
    let rest := cs.drop (before.length + 1)
    if before.isEmpty && (rest.head?.map kind.endsAuthority).getD false then .error .emptyHost
    else .ok (.ofText before.reverse, rest)

/-- The host at the front of a text, collected in reverse. A colon ends it outside brackets. -/
def takeHostOnto (kind : Kind) (taken : List Char) (isBracketed : Bool) : List Char → List Char
  | [] => taken.reverse
  | c :: rest =>
    if kind.endsAuthority c || (c = ':' && !isBracketed) then taken.reverse
    else takeHostOnto kind (c :: taken) (c = '[' || (isBracketed && c ≠ ']')) rest

/-- The host at the front of a text. -/
def takeHost (kind : Kind) (cs : List Char) : List Char := takeHostOnto kind [] false cs

/-- The host at the front of a text, and what follows it. -/
def readHost (kind : Kind) (cs : List Char) : Except UrlProblem (Option Host × List Char) := do
  let text := takeHost kind cs
  let rest := cs.drop text.length
  match kind with
  | .ordinary =>
    let host ← Host.readOpaque text
    if host.isNone && rest.head? = some ':' then .error .emptyHost else .ok (host, rest)
  | _ => if text.isEmpty then .error .emptyHost else .ok (some (← Host.readName text), rest)

/-- The greatest port. -/
def maxPort : Nat := 65535

/-- The port after a host, unless it is the usual one, and what follows it. -/
def readPort (kind : Kind) (cs : List Char) : Except UrlProblem (Option Nat × List Char) :=
  match cs with
  | ':' :: rest =>
    let digits := rest.takeWhile Char.isDigit
    let after := rest.drop digits.length
    let isEnded := (after.head?.map fun c => endsPath c || c = '/' || c = '\\').getD true
    match readDigits maxPort .tooLarge 0 digits with
    | .error _ => .error .invalidPort
    | .ok port =>
      if !isEnded then .error .invalidPort
      else .ok (if digits.isEmpty || kind = .web port then none else some port, after)
  | _ => .ok (none, cs)

/-- Whether a part of a path names the level itself. -/
def isSameLevel (part : List Char) : Bool :=
  [".", "%2e"].contains (String.ofList (part.map Char.toLower))

/-- Whether a part of a path names the level above. -/
def isLevelAbove (part : List Char) : Bool :=
  ["..", ".%2e", "%2e.", "%2e%2e"].contains (String.ofList (part.map Char.toLower))

/-- A path of levels, without the parts that name a level relatively. -/
def resolvedPath (kind : Kind) (cs : List Char) : List Char :=
  let parts := splitAt '/' (cs.map fun c => if kind.isSlash c then '/' else c)
  let innermostFirst := parts.foldl
    (fun above part =>
      if isLevelAbove part then above.drop 1
      else if isSameLevel part then above
      else part :: above)
    []
  ['/'].intercalate innermostFirst.reverse

/-- The query at the front of what follows a path. -/
def queryOf (cs : List Char) : List Char :=
  match cs with
  | '?' :: rest => rest.takeWhile (· ≠ '#')
  | _ => []

/-- A URL whose authority has been read. -/
def withPath (kind : Kind) (scheme : String) (credentials : Credentials) (host : Option Host)
    (port : Option Nat) (cs : List Char) : Url :=
  let path := cs.takeWhile fun c => !endsPath c
  { scheme, user := credentials.user, password := credentials.password, host, port
    path := resolvedPath kind path
    query := queryOf (cs.drop path.length) }

/-- A URL after the slashes that announce its authority. Credentials need a host. -/
def readAuthority (kind : Kind) (scheme : String) (cs : List Char) : Except UrlProblem Url := do
  let (credentials, rest) ← readCredentials kind cs
  let (host, rest) ← readHost kind rest
  let (port, rest) ← readPort kind rest
  if host.isNone && !credentials.areAbsent then .error .emptyHost
  else .ok (withPath kind scheme credentials host port rest)

/-- Whether a text is a letter and a colon or bar, which name a drive and no host. -/
def isDrive (cs : List Char) : Bool :=
  match cs with
  | [letter, mark] => letter.isAlpha && (mark = ':' || mark = '|')
  | _ => false

/-- A URL of files after its scheme. The local host is none. -/
def readFiles (scheme : String) (cs : List Char) : Except UrlProblem Url := do
  let slashes := (cs.take 2).takeWhile Kind.files.isSlash
  let rest := cs.drop 2
  let text := rest.takeWhile fun c => !Kind.files.endsAuthority c
  if slashes.length < 2 then .ok (withPath .files scheme .none none none cs)
  else if text.isEmpty || isDrive text then .ok (withPath .files scheme .none none none rest)
  else
    let host ← Host.readName text
    let host := if host = .name "localhost" then none else some host
    .ok (withPath .files scheme .none host none (rest.drop text.length))

/-- Reads a URL that stands by itself. -/
def read (text : String) : Except UrlProblem Url := do
  let (scheme, rest) ← readScheme (significant text.toList)
  let kind := Kind.ofScheme scheme
  match kind with
  | .files => readFiles scheme rest
  | .web _ => readAuthority kind scheme (rest.dropWhile kind.isSlash)
  | .ordinary =>
    match rest with
    | '/' :: '/' :: authority => readAuthority kind scheme authority
    | '/' :: _ => .ok (withPath kind scheme .none none none rest)
    | _ =>
      let path := rest.takeWhile fun c => !endsPath c
      .ok { withPath kind scheme .none none none rest with path }

/-- The user, percent-decoded. -/
def userOctets (u : Url) : List UInt8 := Percent.decode (Utf8.encode u.user)

/-- The password, percent-decoded; an absent one is empty. -/
def passwordOctets (u : Url) : List UInt8 := Percent.decode (Utf8.encode (u.password.getD []))

/-- The path without the slashes in front, percent-decoded. -/
def pathOctets (u : Url) : List UInt8 :=
  Percent.decode (Utf8.encode (u.path.dropWhile (· = '/')))

end Url

end StatusRegistry
