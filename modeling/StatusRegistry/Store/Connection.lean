import StatusRegistry.Settings.Environment
import StatusRegistry.Text.Form
import StatusRegistry.Url

/-!
# Connections to the store

A connection string is a URL: its authority tells where the store listens, and parameters of its
query add to that. A later parameter counts more than an earlier one and than the authority, and
variables of the environment stand in for what is not told. A directory wins over a host: in it the
store has a local socket, named after the port.

The store listens at a local socket alone and does not encrypt.
-/

namespace StatusRegistry

/-- How far a connection must be protected. -/
inductive Protection where
  | disable
  | allow
  | prefer
  | require
  | verifyAuthority
  | verifyFull
  deriving DecidableEq, Repr

namespace Protection

/-- The protection that a text names, in any letter case. -/
def parse? (text : String) : Option Protection :=
  match String.ofList (text.toList.map Char.toLower) with
  | "disable" => some .disable
  | "allow" => some .allow
  | "prefer" => some .prefer
  | "require" => some .require
  | "verify-ca" => some .verifyAuthority
  | "verify-full" => some .verifyFull
  | _ => none

/-- Whether a connection may not go without encryption. -/
def isRequired : Protection → Bool
  | .disable | .allow | .prefer => false
  | .require | .verifyAuthority | .verifyFull => true

end Protection

/-- Why there is no connection to the store. -/
inductive ConnectionProblem where
  | url (problem : UrlProblem)
  | undecodable (fault : Utf8.Fault)
  | number (problem : IntegerProblem)
  | notAnAddress
  | unknownProtection (text : String)
  | noSocket
  | unknownHost
  | notEncrypting
  | tookTooLong
  deriving DecidableEq, Repr

namespace ConnectionProblem

/-- A message and the same message after what it is about. -/
def about (subject cause : String) : List String := [subject ++ ": " ++ cause, cause]

/-- The messages of a connection problem, outermost first. -/
def chain : ConnectionProblem → List String
  | .url problem => about "error with configuration" problem.message
  | .undecodable fault => about "error with configuration" fault.message
  | .number problem => about "error with configuration" problem.message
  | .notAnAddress => about "error with configuration" "invalid IP address syntax"
  | .unknownProtection text =>
    let cause := "unknown value " ++ Quoted.quoted text ++ " for `ssl_mode`"
    about "error with configuration" ("error with configuration: " ++ cause) ++ [cause]
  | .noSocket => about "error communicating with database" "No such file or directory (os error 2)"
  | .unknownHost =>
    about "error communicating with database"
      "failed to lookup address information: Temporary failure in name resolution"
  | .notEncrypting =>
    about "error occurred while attempting to establish a TLS connection"
      "server does not support TLS"
  | .tookTooLong => ["pool timed out while waiting for an open connection"]

end ConnectionProblem

/-- Where a connection goes and how it is protected. -/
structure ConnectionOptions where
  directory : Option String
  host : String
  port : Nat
  protection : Protection
  deriving DecidableEq, Repr

namespace ConnectionOptions

/-- The port at which a store usually listens. -/
def usualPort : Nat := 5432

/-- The directories in which a local socket is looked for, in order. -/
def usualDirectories : List String := ["/var/run/postgresql", "/private/tmp", "/tmp"]

/-- A port in a text. -/
def readPort (text : String) : Except IntegerProblem Nat := readNat 65535 text.toList

/-- The options of a connection string that tells nothing, where a store listens in a directory. -/
def ofEnvironment (env : Environment) (listening : String) : ConnectionOptions :=
  let port := env.number "PGPORT" 65535 usualPort
  let usualHost :=
    if port = usualPort && usualDirectories.contains listening then listening else "localhost"
  { directory := none
    host := ((env.get? "PGHOSTADDR").or (env.get? "PGHOST")).getD usualHost
    port
    protection := ((env.get? "PGSSLMODE").bind Protection.parse?).getD .prefer }

/-- The text of octets. -/
def decoded (octets : List UInt8) : Except ConnectionProblem String :=
  match Utf8.fault? octets with
  | some fault => .error (.undecodable fault)
  | none => .ok (Utf8.stringLossy octets)

/-- The options with a host told by an authority; one that begins with a slash is a directory. -/
def withHost (o : ConnectionOptions) (host : Host) : Except ConnectionProblem ConnectionOptions := do
  let octets := Percent.decode (Utf8.octets host.text)
  if octets.head? = some 0x2F then return { o with directory := some (← decoded octets) }
  else return { o with host := host.text }

/-- The options after a parameter. Other parameters say nothing about where the store listens. -/
def withParameter (o : ConnectionOptions) (parameter : String × String) :
    Except ConnectionProblem ConnectionOptions :=
  let (key, value) := parameter
  match key with
  | "sslmode" | "ssl-mode" =>
    match Protection.parse? value with
    | some protection => .ok { o with protection }
    | none => .error (.unknownProtection value)
  | "statement-cache-capacity" => ((readNat64 value).mapError .number).map fun _ => o
  | "host" =>
    if value.toList.head? = some '/' then .ok { o with directory := some value }
    else .ok { o with host := value }
  | "hostaddr" =>
    if (Ip.parse? value).isSome then .ok { o with host := value } else .error .notAnAddress
  | "port" => ((readPort value).mapError .number).map fun port => { o with port }
  | _ => .ok o

/-- Reads a connection string. -/
def read (env : Environment) (listening text : String) :
    Except ConnectionProblem ConnectionOptions := do
  let url ← (Url.read text).mapError .url
  let o := ofEnvironment env listening
  let o ← match url.host with
    | some host => o.withHost host
    | none => pure o
  let o := { o with port := url.port.getD o.port }
  let _ ← decoded url.userOctets
  let _ ← decoded url.passwordOctets
  let _ ← decoded url.pathOctets
  (Form.pairs (Utf8.encode url.query)).foldlM withParameter o

/-- The directory in which a local socket is asked for. -/
def socketDirectory? (o : ConnectionOptions) : Option String :=
  o.directory.or (if o.host.toList.head? = some '/' then some o.host else none)

/-- A path without slashes at its end. -/
def withoutTrailingSlashes (path : String) : List Char :=
  (path.toList.reverse.dropWhile (· = '/')).reverse

/-- Whether a host is an address, or this machine by name. An address does not answer in time, and
no other name is known. -/
def isAddress (host : String) : Bool :=
  let bare := trimBoth (fun c => c = '[' || c = ']') host.toList
  bare = "localhost".toList || (Ip.parse? (String.ofList bare)).isSome

/-- Why a store that listens in a directory is not reached, if it is not. -/
def problem? (o : ConnectionOptions) (listening : String) : Option ConnectionProblem :=
  match o.socketDirectory? with
  | some directory =>
    if withoutTrailingSlashes directory = withoutTrailingSlashes listening && o.port = usualPort
    then if o.protection.isRequired then some .notEncrypting else none
    else some .noSocket
  | none => if isAddress o.host then some .tookTooLong else some .unknownHost

end ConnectionOptions

end StatusRegistry
