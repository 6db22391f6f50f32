import StatusRegistry.Address
import StatusRegistry.Settings.Environment
import StatusRegistry.Settings.Mask
import StatusRegistry.Text.Blank

/-!
# Settings

Settings are grouped by what they are for. Each group is loaded from the environment, where a
number that cannot be read falls back to its default, and is checked afterwards. What passes the
check can be used without further questions.
-/

namespace StatusRegistry

/-- What keeps copies of statuses. -/
inductive CacheBackend where
  | redis
  | memory
  | none
  deriving DecidableEq, Repr

/-- The name of a backend. -/
def CacheBackend.name : CacheBackend → String
  | .redis => "redis"
  | .memory => "memory"
  | .none => "none"

/-- How log lines are written. -/
inductive LogFormat where
  | text
  | json
  deriving DecidableEq, Repr

/-- Why the environment gives no usable settings. -/
inductive SettingsProblem where
  | required (names : String) (absence : Absence)
  | storeScheme (url : String)
  | noConnections
  | noConnectTime
  | unknownBackend (text : String)
  | remoteCacheWithoutUrl
  | cacheScheme (url : String)
  | lifetimeOutOfBounds (seconds : Nat)
  | noEntries
  | badListenAddress (text : String)
  | deadlineOutOfBounds (seconds : Nat)
  | blankSecret
  | unknownLogFormat (text : String)
  | inStoreSettings (problem : SettingsProblem)
  deriving DecidableEq

/-- The longest lifetime of a cached status: thirty days. -/
def maxCacheLifetime : Nat := 30 * 24 * 60 * 60

/-- The messages of a problem, outermost first. Connection strings are masked. -/
def SettingsProblem.chain : SettingsProblem → List String
  | .required names absence => [names ++ " must be set", absence.message]
  | .storeScheme url =>
    ["DATABASE_URL must use the postgres:// or postgresql:// scheme, got '" ++ masked url ++ "'"]
  | .noConnections => ["DB_MAX_CONNECTIONS must be at least 1"]
  | .noConnectTime => ["DB_CONNECT_TIMEOUT must be greater than 0"]
  | .unknownBackend text =>
    ["CACHE_BACKEND must be 'redis', 'memory' or 'none', got '" ++ text ++ "'"]
  | .remoteCacheWithoutUrl => ["CACHE_BACKEND=redis requires REDIS_URL or REDIS_HOST"]
  | .cacheScheme url =>
    ["REDIS_URL must use the redis:// or rediss:// scheme, got '" ++ masked url ++ "'"]
  | .lifetimeOutOfBounds seconds =>
    ["CACHE_TTL_SECONDS must be between 1 and " ++ toString maxCacheLifetime ++ ", got " ++
      toString seconds]
  | .noEntries => ["CACHE_MAX_ENTRIES must be greater than 0"]
  | .badListenAddress text =>
    ["LISTEN must be 'host:port', got '" ++ text ++ "'", "invalid socket address syntax"]
  | .deadlineOutOfBounds seconds =>
    ["REQUEST_TIMEOUT_SECONDS must be between 1 and 300, got " ++ toString seconds]
  | .blankSecret => ["TOKEN_SIGNING_SECRET must not be empty"]
  | .unknownLogFormat text => ["LOG_FORMAT must be 'text' or 'json', got '" ++ text ++ "'"]
  | .inStoreSettings problem => "Failed to load database configuration" :: problem.chain

/-- A text with ASCII letters in lower case. -/
def lowerCase (s : String) : String := String.ofList (s.toList.map Char.toLower)

/-- The backend that a text names, in any letter case. -/
def CacheBackend.parse (text : String) : Except SettingsProblem CacheBackend :=
  match lowerCase text with
  | "redis" => .ok .redis
  | "memory" => .ok .memory
  | "none" => .ok .none
  | "off" => .ok .none
  | "disabled" => .ok .none
  | other => .error (.unknownBackend other)

/-- The format that a text names, in any letter case. -/
def LogFormat.parse (text : String) : Except SettingsProblem LogFormat :=
  match lowerCase text with
  | "text" => .ok .text
  | "json" => .ok .json
  | other => .error (.unknownLogFormat other)

/-- The greatest 32-bit unsigned number. -/
def maxUInt32 : Nat := 0xFFFFFFFF

/-- The greatest 64-bit unsigned number. -/
def maxUInt64 : Nat := 0xFFFFFFFFFFFFFFFF

/-- The text of a variable without which there are no settings. -/
def Environment.require (env : Environment) (name names : String) :
    Except SettingsProblem String :=
  match env.read name with
  | .ok text => .ok text
  | .error absence => .error (.required names absence)

/-- Whether a text starts with another. -/
def startsWith (start s : String) : Bool := start.toList.isPrefixOf s.toList

/-- How the store is reached. Times are in seconds. -/
structure StoreSettings where
  url : String
  maxConnections : Nat
  connectTimeout : Nat
  idleTimeout : Nat
  maxLifetime : Nat

namespace StoreSettings

/-- The connection string, given whole or in parts. -/
def loadUrl (env : Environment) : Except SettingsProblem String :=
  match env.get? "DATABASE_URL" with
  | some url => .ok url
  | none => do
    let host := env.getD "DB_HOST" "localhost"
    let port := env.getD "DB_PORT" "5432"
    let user ← env.require "DB_USER" "DATABASE_URL or DB_USER"
    let password ← env.require "DB_PASSWORD" "DATABASE_URL or DB_PASSWORD"
    let name ← env.require "DB_NAME" "DATABASE_URL or DB_NAME"
    pure ("postgres://" ++ user ++ ":" ++ password ++ "@" ++ host ++ ":" ++ port ++ "/" ++ name)

/-- Reads the settings of the store. -/
def load (env : Environment) : Except SettingsProblem StoreSettings := do
  let url ← loadUrl env
  pure {
    url := url
    maxConnections := env.number "DB_MAX_CONNECTIONS" maxUInt32 10
    connectTimeout := env.number "DB_CONNECT_TIMEOUT" maxUInt64 30
    idleTimeout := env.number "DB_IDLE_TIMEOUT" maxUInt64 600
    maxLifetime := env.number "DB_MAX_LIFETIME" maxUInt64 1800 }

/-- Checks the settings of the store. -/
def validate (s : StoreSettings) : Except SettingsProblem Unit :=
  if !(startsWith "postgres://" s.url || startsWith "postgresql://" s.url) then
    .error (.storeScheme s.url)
  else if s.maxConnections = 0 then .error .noConnections
  else if s.connectTimeout = 0 then .error .noConnectTime
  else .ok ()

end StoreSettings

/-- Which cache is used, where it is, and how much it keeps for how long. -/
structure CacheSettings where
  backend : CacheBackend
  redisUrl : Option String
  lifetime : Nat
  maxEntries : Nat

namespace CacheSettings

/-- The lifetime of a cached status, in seconds, unless another is set. -/
def defaultLifetime : Nat := 3600

/-- The number of statuses kept in memory, unless another is set. -/
def defaultEntries : Nat := 10000

/-- The connection string of the remote cache, given whole or in parts. -/
def loadUrl (env : Environment) : Option String :=
  match env.get? "REDIS_URL" with
  | some url => some url
  | none => do
    let host ← env.get? "REDIS_HOST"
    let port := env.getD "REDIS_PORT" "6379"
    let database := env.getD "REDIS_DB" "0"
    let credentials := match env.getD "REDIS_PASSWORD" "" with
      | "" => ""
      | password => ":" ++ password ++ "@"
    pure ("redis://" ++ credentials ++ host ++ ":" ++ port ++ "/" ++ database)

/-- The backend: the one that is named, otherwise the remote one if it has a connection string. -/
def loadBackend (env : Environment) (url : Option String) : Except SettingsProblem CacheBackend :=
  match env.get? "CACHE_BACKEND" with
  | some text => CacheBackend.parse text
  | none => .ok (if url.isSome then .redis else .none)

/-- Reads the settings of the cache. -/
def load (env : Environment) : Except SettingsProblem CacheSettings := do
  let url := loadUrl env
  let backend ← loadBackend env url
  pure {
    backend := backend
    redisUrl := url
    lifetime := env.number "CACHE_TTL_SECONDS" maxUInt64 defaultLifetime
    maxEntries := env.number "CACHE_MAX_ENTRIES" maxUInt64 defaultEntries }

/-- Whether a connection string has a scheme of the remote cache. -/
def isRedisUrl (url : String) : Bool := startsWith "redis://" url || startsWith "rediss://" url

/-- Checks the settings of the cache. -/
def validate (s : CacheSettings) : Except SettingsProblem Unit :=
  let checkLimits : Except SettingsProblem Unit :=
    if !(1 ≤ s.lifetime && s.lifetime ≤ maxCacheLifetime) then
      .error (.lifetimeOutOfBounds s.lifetime)
    else if s.maxEntries = 0 then .error .noEntries
    else .ok ()
  match s.redisUrl with
  | none => if s.backend = .redis then .error .remoteCacheWithoutUrl else checkLimits
  | some url => if isRedisUrl url then checkLimits else .error (.cacheScheme url)

end CacheSettings

/-- Where requests arrive and how long one may take. -/
structure ServerSettings where
  listen : String
  behindProxy : Bool
  deadline : Nat

namespace ServerSettings

/-- Reads the settings of the server. -/
def load (env : Environment) : ServerSettings where
  listen := env.getD "LISTEN" "0.0.0.0:3000"
  behindProxy := env.flag "BEHIND_PROXY"
  deadline := env.number "REQUEST_TIMEOUT_SECONDS" maxUInt64 30

/-- The address to listen on. -/
def endpoint (s : ServerSettings) : Except SettingsProblem Endpoint :=
  match Endpoint.parse? s.listen with
  | some e => .ok e
  | none => .error (.badListenAddress s.listen)

/-- Checks the settings of the server. -/
def validate (s : ServerSettings) : Except SettingsProblem Unit := do
  let _ ← s.endpoint
  if 1 ≤ s.deadline ∧ s.deadline ≤ 300 then pure () else throw (.deadlineOutOfBounds s.deadline)

end ServerSettings

/-- The key of token digests, and whether only creators may change a status. -/
structure AuthSettings where
  secret : String
  enforceOwnership : Bool

namespace AuthSettings

/-- Reads the settings of authorization. -/
def load (env : Environment) : Except SettingsProblem AuthSettings := do
  let secret ← env.require "TOKEN_SIGNING_SECRET" "TOKEN_SIGNING_SECRET"
  pure { secret := secret, enforceOwnership := env.flag "ENFORCE_OWNERSHIP" }

/-- Checks the settings of authorization. -/
def validate (s : AuthSettings) : Except SettingsProblem Unit :=
  if isBlankText s.secret then .error .blankSecret else .ok ()

/-- A description for diagnostics, without the secret. -/
def description (s : AuthSettings) : String :=
  "AuthConfig \x7b token_signing_secret: \"***\", enforce_ownership: " ++
    toString s.enforceOwnership ++ " \x7d"

end AuthSettings

/-- Which log lines are written, and how. -/
structure LogSettings where
  level : String
  format : LogFormat

/-- Reads the settings of logging. -/
def LogSettings.load (env : Environment) : Except SettingsProblem LogSettings := do
  let format ← match env.get? "LOG_FORMAT" with
    | some text => LogFormat.parse text
    | none => pure .text
  pure { level := env.getD "RUST_LOG" "info", format := format }

/-- The settings of the registry. -/
structure Settings where
  store : StoreSettings
  cache : CacheSettings
  server : ServerSettings
  auth : AuthSettings
  log : LogSettings

namespace Settings

/-- Reads every group without checking it. -/
def read (env : Environment) : Except SettingsProblem Settings := do
  let store ← match StoreSettings.load env with
    | .ok s => pure s
    | .error problem => throw (.inStoreSettings problem)
  let cache ← CacheSettings.load env
  let auth ← AuthSettings.load env
  let log ← LogSettings.load env
  pure { store, cache, server := ServerSettings.load env, auth, log }

/-- Checks every group. -/
def validate (s : Settings) : Except SettingsProblem Unit := do
  s.store.validate
  s.cache.validate
  s.server.validate
  s.auth.validate

/-- Reads and checks every group. -/
def load (env : Environment) : Except SettingsProblem Settings := do
  let s ← read env
  s.validate
  pure s

end Settings

/-- A line of the log with its fields. -/
structure LogEvent where
  level : String
  message : String
  fields : List (String × String)
  deriving DecidableEq

/-- The log lines that show the settings in use, without passwords and secrets. -/
def Settings.summary (s : Settings) : List LogEvent :=
  let info (message : String) (fields : List (String × String)) : LogEvent :=
    ⟨"INFO", message, fields⟩
  [ info "HTTP configured" [
      ("listen", s.server.listen),
      ("behind_proxy", toString s.server.behindProxy),
      ("request_timeout_secs", toString s.server.deadline)],
    info "Database configured" [
      ("database", masked s.store.url),
      ("max_connections", toString s.store.maxConnections)],
    info "Cache configured" [
      ("backend", s.cache.backend.name),
      ("redis", (s.cache.redisUrl.map masked).getD ""),
      ("ttl_secs", toString s.cache.lifetime),
      ("max_entries", toString s.cache.maxEntries)],
    info "Authorization configured" [
      ("enforce_ownership", toString s.auth.enforceOwnership)]]

end StatusRegistry
