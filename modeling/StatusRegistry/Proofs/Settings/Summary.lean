import StatusRegistry.Proofs.Settings.Checks
import StatusRegistry.Proofs.Settings.Mask

/-!
# What the log tells about secrets

The log shows the settings in use, among them two connection strings with their passwords masked.
The signing secret is in nothing that is shown. Of a password as much is shown as the mask leaves,
so two environments that differ in their secrets look alike in the log if and only if the mask
leaves the same of their passwords.
-/

namespace StatusRegistry

/-- Two environments agree on all variables but some. -/
def Environment.AgreeExcept (names : List String) (env env' : Environment) : Prop :=
  ∀ name, name ∉ names → env.read name = env'.read name

namespace Environment.AgreeExcept

variable {names : List String} {env env' : Environment}

/-- Environments that agree on a variable agree on its text. -/
theorem get? (agree : AgreeExcept names env env') (name : String) (other : name ∉ names) :
    env.get? name = env'.get? name := congrArg Except.toOption (agree name other)

/-- They agree on its text with a default. -/
theorem getD (agree : AgreeExcept names env env') (name : String) (other : name ∉ names)
    (default : String) : env.getD name default = env'.getD name default := by
  rw [Environment.getD, Environment.getD, agree.get? name other]

/-- They agree on the number it holds. -/
theorem number (agree : AgreeExcept names env env') (name : String) (other : name ∉ names)
    (limit default : Nat) : env.number name limit default = env'.number name limit default := by
  simp only [Environment.number, agree.get? name other]

/-- They agree on whether it holds a yes. -/
theorem flag (agree : AgreeExcept names env env') (name : String) (other : name ∉ names) :
    env.flag name = env'.flag name := by
  simp only [Environment.flag, agree.get? name other]

end Environment.AgreeExcept

variable {env env' : Environment} {s s' : Settings}

/-- A required variable has a text. -/
theorem Environment.of_require {name names text : String}
    (required : env.require name names = .ok text) : env.getD name "" = text := by
  rw [getD, get?, require_eq_ok_iff.mp required]
  rfl

/-- What follows the password in the connection string of the store. -/
def storeTail (env : Environment) : List Char :=
  (env.getD "DB_HOST" "localhost" ++ ":" ++ env.getD "DB_PORT" "5432" ++ "/" ++
    env.getD "DB_NAME" "").toList

/-- The connection string of the store is put together from its parts. -/
theorem StoreSettings.of_load {store : StoreSettings} (loaded : load env = .ok store)
    (parts : env.get? "DATABASE_URL" = none) :
    store.maxConnections = env.number "DB_MAX_CONNECTIONS" maxUInt32 10 ∧
      store.url = credentialed "postgres://".toList (env.getD "DB_USER" "").toList
        (env.getD "DB_PASSWORD" "").toList (storeTail env) := by
  unfold load at loaded
  obtain ⟨url, given, rest⟩ := bind_eq_ok_iff.mp loaded
  cases rest
  unfold loadUrl at given
  rw [parts] at given
  obtain ⟨user, read, given⟩ := bind_eq_ok_iff.mp given
  obtain ⟨password, read', given⟩ := bind_eq_ok_iff.mp given
  obtain ⟨name, read'', given⟩ := bind_eq_ok_iff.mp given
  cases given
  refine ⟨rfl, String.toList_injective ?_⟩
  rw [Environment.of_require read, Environment.of_require read', storeTail,
    Environment.of_require read'']
  simp [credentialed]

/-- What follows the password in the connection string of the cache. -/
def cacheTail (env : Environment) (host : String) : List Char :=
  (host ++ ":" ++ env.getD "REDIS_PORT" "6379" ++ "/" ++ env.getD "REDIS_DB" "0").toList

/-- The connection string of the cache is put together from its parts. A password in it has no
user. -/
theorem CacheSettings.loadUrl_of_parts (parts : env.get? "REDIS_URL" = none) :
    loadUrl env = (env.get? "REDIS_HOST").map fun host =>
      if env.getD "REDIS_PASSWORD" "" = "" then
        "redis://" ++ host ++ ":" ++ env.getD "REDIS_PORT" "6379" ++ "/" ++ env.getD "REDIS_DB" "0"
      else credentialed "redis://".toList [] (env.getD "REDIS_PASSWORD" "").toList
        (cacheTail env host) := by
  unfold loadUrl
  rw [parts]
  cases env.get? "REDIS_HOST" with
  | none => rfl
  | some host =>
    refine congrArg some ?_
    generalize env.getD "REDIS_PASSWORD" "" = password
    split
    · exact (if_pos rfl).symm
    · rename_i given
      refine Eq.trans (String.toList_injective ?_) (if_neg given).symm
      simp [credentialed, cacheTail]

/-- The settings of the cache. -/
theorem CacheSettings.of_load {cache : CacheSettings} (loaded : load env = .ok cache) :
    loadBackend env (loadUrl env) = .ok cache.backend ∧ cache.redisUrl = loadUrl env ∧
      cache.lifetime = env.number "CACHE_TTL_SECONDS" maxUInt64 defaultLifetime ∧
      cache.maxEntries = env.number "CACHE_MAX_ENTRIES" maxUInt64 defaultEntries := by
  unfold load at loaded
  obtain ⟨backend, named, rest⟩ := bind_eq_ok_iff.mp loaded
  cases rest
  exact ⟨named, rfl, rfl, rfl⟩

/-- The variables that hold secrets. -/
def secrets : List String := ["DB_PASSWORD", "REDIS_PASSWORD", "TOKEN_SIGNING_SECRET"]

/-- Settings that differ in their connection strings only are summarized alike if and only if these
are masked alike. -/
theorem Settings.summary_eq_iff (server : s.server = s'.server)
    (connections : s.store.maxConnections = s'.store.maxConnections)
    (backend : s.cache.backend = s'.cache.backend) (lifetime : s.cache.lifetime = s'.cache.lifetime)
    (entries : s.cache.maxEntries = s'.cache.maxEntries)
    (ownership : s.auth.enforceOwnership = s'.auth.enforceOwnership) :
    s.summary = s'.summary ↔ masked s.store.url = masked s'.store.url ∧
      (s.cache.redisUrl.map masked).getD "" = (s'.cache.redisUrl.map masked).getD "" := by
  simp [summary, server, connections, backend, lifetime, entries, ownership]

/-- The scheme of the store is one. -/
theorem isScheme_postgres : IsScheme "postgres://".toList := fun _ => rfl

/-- The scheme of the remote cache is one. -/
theorem isScheme_redis : IsScheme "redis://".toList := fun _ => rfl

/-- Two environments agree on everything but secrets, and hold connection strings in parts. -/
structure Environment.DifferInSecrets (env env' : Environment) : Prop where
  agree : AgreeExcept secrets env env'
  storeParts : env.get? "DATABASE_URL" = none
  cacheParts : env.get? "REDIS_URL" = none
  guarded : env.getD "REDIS_PASSWORD" "" = "" ↔ env'.getD "REDIS_PASSWORD" "" = ""

/-- What is exposed of the password of the store. -/
def exposedOfStore (env : Environment) : Option (List Char) × List Char :=
  exposed (env.getD "DB_USER" "").toList (env.getD "DB_PASSWORD" "").toList

/-- What is exposed of the password of the cache, which has no user. -/
def exposedOfCache (env : Environment) : Option (List Char) × List Char :=
  exposed [] (env.getD "REDIS_PASSWORD" "").toList

/-- Nothing is exposed of passwords without colons and at signs if the user has no at sign. -/
structure Environment.IsPlain (env : Environment) : Prop where
  user : '@' ∉ (env.getD "DB_USER" "").toList
  store : '@' ∉ (env.getD "DB_PASSWORD" "").toList ∧ ':' ∉ (env.getD "DB_PASSWORD" "").toList
  cache : '@' ∉ (env.getD "REDIS_PASSWORD" "").toList ∧ ':' ∉ (env.getD "REDIS_PASSWORD" "").toList

namespace Environment.DifferInSecrets

/-- Connection strings of the store are masked alike if the same is exposed of the passwords. -/
theorem store_masked_iff (differ : DifferInSecrets env env')
    (loaded : StoreSettings.load env = .ok s.store)
    (loaded' : StoreSettings.load env' = .ok s'.store) :
    masked s.store.url = masked s'.store.url ↔ exposedOfStore env = exposedOfStore env' := by
  have agree := differ.agree
  have parts' : env'.get? "DATABASE_URL" = none :=
    (agree.get? _ (by decide)).symm.trans differ.storeParts
  have sameUser := agree.getD "DB_USER" (by decide) ""
  have sameTail : storeTail env = storeTail env' := by
    simp only [storeTail, agree.getD "DB_HOST" (by decide), agree.getD "DB_PORT" (by decide),
      agree.getD "DB_NAME" (by decide)]
  rw [(StoreSettings.of_load loaded differ.storeParts).2, (StoreSettings.of_load loaded' parts').2,
    exposedOfStore, exposedOfStore, ← sameUser, ← sameTail]
  exact masked_eq_iff isScheme_postgres

/-- The connection string of the cache in the other environment. -/
theorem cacheUrl_eq (differ : DifferInSecrets env env') :
    CacheSettings.loadUrl env' = (env.get? "REDIS_HOST").map fun host =>
      if env.getD "REDIS_PASSWORD" "" = "" then
        "redis://" ++ host ++ ":" ++ env.getD "REDIS_PORT" "6379" ++ "/" ++ env.getD "REDIS_DB" "0"
      else credentialed "redis://".toList [] (env'.getD "REDIS_PASSWORD" "").toList
        (cacheTail env host) := by
  have agree := differ.agree
  have parts' : env'.get? "REDIS_URL" = none :=
    (agree.get? _ (by decide)).symm.trans differ.cacheParts
  simp only [CacheSettings.loadUrl_of_parts parts', cacheTail, ← differ.guarded,
    ← agree.get? "REDIS_HOST" (by decide), ← agree.getD "REDIS_PORT" (by decide),
    ← agree.getD "REDIS_DB" (by decide)]

/-- Connection strings of the cache are masked alike if there are none or if the same is exposed of
the passwords. -/
theorem cache_masked_iff (differ : DifferInSecrets env env') :
    ((CacheSettings.loadUrl env).map masked).getD "" =
        ((CacheSettings.loadUrl env').map masked).getD "" ↔
      env.get? "REDIS_HOST" = none ∨ exposedOfCache env = exposedOfCache env' := by
  rw [differ.cacheUrl_eq, CacheSettings.loadUrl_of_parts differ.cacheParts]
  cases env.get? "REDIS_HOST" with
  | none => exact ⟨fun _ => .inl rfl, fun _ => rfl⟩
  | some host =>
    by_cases empty : env.getD "REDIS_PASSWORD" "" = ""
    · have empty' := differ.guarded.mp empty
      simp [exposedOfCache, empty, empty']
    · simp only [Option.map_some, Option.getD_some, if_neg empty, reduceCtorEq, false_or]
      exact masked_eq_iff isScheme_redis

/-- Whatever else is set for the cache is set alike. -/
theorem cache_alike (differ : DifferInSecrets env env') {cache cache' : CacheSettings}
    (loaded : CacheSettings.load env = .ok cache) (loaded' : CacheSettings.load env' = .ok cache') :
    cache.backend = cache'.backend ∧ cache.lifetime = cache'.lifetime ∧
      cache.maxEntries = cache'.maxEntries := by
  have agree := differ.agree
  obtain ⟨backend, -, lifetime, entries⟩ := CacheSettings.of_load loaded
  obtain ⟨backend', -, lifetime', entries'⟩ := CacheSettings.of_load loaded'
  have given : (CacheSettings.loadUrl env).isSome = (CacheSettings.loadUrl env').isSome := by
    rw [differ.cacheUrl_eq, CacheSettings.loadUrl_of_parts differ.cacheParts, Option.isSome_map,
      Option.isSome_map]
  rw [CacheSettings.loadBackend, agree.get? "CACHE_BACKEND" (by decide), given] at backend
  refine ⟨Except.ok.inj (backend.symm.trans backend'), ?_, ?_⟩
  · rw [lifetime, lifetime', agree.number _ (by decide)]
  · rw [entries, entries', agree.number _ (by decide)]

/-- The log shows the same of two accepted environments that differ in secrets if and only if the
same is exposed of the passwords. -/
theorem summary_eq_iff (differ : DifferInSecrets env env') (loaded : Settings.load env = .ok s)
    (loaded' : Settings.load env' = .ok s') :
    s.auth.enforceOwnership = s'.auth.enforceOwnership ∧
      (s.summary = s'.summary ↔ exposedOfStore env = exposedOfStore env' ∧
        (env.get? "REDIS_HOST" = none ∨ exposedOfCache env = exposedOfCache env')) := by
  have agree := differ.agree
  obtain ⟨store, cache, server, auth⟩ := Settings.parts_of_load loaded
  obtain ⟨store', cache', server', auth'⟩ := Settings.parts_of_load loaded'
  have sameServer : s.server = s'.server := by
    rw [server, server', ServerSettings.load, ServerSettings.load, agree.getD "LISTEN" (by decide),
      agree.flag "BEHIND_PROXY" (by decide), agree.number "REQUEST_TIMEOUT_SECONDS" (by decide)]
  have parts' : env'.get? "DATABASE_URL" = none :=
    (agree.get? _ (by decide)).symm.trans differ.storeParts
  have connections : s.store.maxConnections = s'.store.maxConnections := by
    rw [(StoreSettings.of_load store differ.storeParts).1,
      (StoreSettings.of_load store' parts').1, agree.number _ (by decide)]
  have ownership : s.auth.enforceOwnership = s'.auth.enforceOwnership := by
    rw [(AuthSettings.load_eq_ok_iff.mp auth).2, (AuthSettings.load_eq_ok_iff.mp auth').2,
      agree.flag _ (by decide)]
  obtain ⟨backend, lifetime, entries⟩ := differ.cache_alike cache cache'
  refine ⟨ownership, ?_⟩
  rw [Settings.summary_eq_iff sameServer connections backend lifetime entries ownership,
    differ.store_masked_iff store store', (CacheSettings.of_load cache).2.1,
    (CacheSettings.of_load cache').2.1, differ.cache_masked_iff]

end Environment.DifferInSecrets

/-- Of two accepted environments that differ in secrets, the settings of authorization are described
alike. The log shows the same if and only if the same is exposed of the passwords, as it is of
passwords without colons and at signs for users without at signs. -/
theorem summary_shows_exposed (loaded : Settings.load env = .ok s)
    (loaded' : Settings.load env' = .ok s') (differ : env.DifferInSecrets env') :
    s.auth.description = s'.auth.description ∧
    (s.summary = s'.summary ↔ exposedOfStore env = exposedOfStore env' ∧
      (env.get? "REDIS_HOST" = none ∨ exposedOfCache env = exposedOfCache env')) ∧
    (env.IsPlain → env'.IsPlain → s.summary = s'.summary) := by
  obtain ⟨ownership, summary⟩ := differ.summary_eq_iff loaded loaded'
  have described : s.auth.description = s'.auth.description := by
    unfold AuthSettings.description
    rw [ownership]
  refine ⟨described, summary, ?_⟩
  intro plain plain'
  have store : exposedOfStore env = exposedOfStore env' := by
    rw [exposedOfStore, exposedOfStore, exposed_eq_nothing_iff.mpr ⟨plain.user, plain.store⟩,
      exposed_eq_nothing_iff.mpr ⟨plain'.user, plain'.store⟩]
  have cache : exposedOfCache env = exposedOfCache env' := by
    rw [exposedOfCache, exposedOfCache, exposed_eq_nothing_iff.mpr ⟨List.not_mem_nil, plain.cache⟩,
      exposed_eq_nothing_iff.mpr ⟨List.not_mem_nil, plain'.cache⟩]
  exact summary.mpr ⟨store, .inr cache⟩

namespace Sample

/-- An environment whose store is told in parts. -/
def environment (password : String) : Environment where
  entries := [("DB_USER", Utf8.octets "registry"), ("DB_PASSWORD", Utf8.octets password),
    ("DB_NAME", Utf8.octets "statuses"), ("TOKEN_SIGNING_SECRET", Utf8.octets "key")]

/-- Such environments differ in their secrets. -/
theorem environments_differ (password password' : String) :
    (environment password).DifferInSecrets (environment password') where
  agree := by
    intro name other
    have another : (name == "DB_PASSWORD") = false := by
      refine beq_false_of_ne fun same => other ?_
      rw [same]
      decide
    simp only [Environment.read, environment, List.lookup_cons, another]
  storeParts := rfl
  cacheParts := rfl
  guarded := .rfl

end Sample

open Sample in
/-- What stands from the first at sign of a password on is shown, so two passwords that differ there
are told apart. -/
theorem password_is_revealed : ∃ s s', Settings.load (environment "open") = .ok s ∧
    Settings.load (environment "open@sesame") = .ok s' ∧
    (environment "open").DifferInSecrets (environment "open@sesame") ∧
    s.summary ≠ s'.summary :=
  ⟨_, _, rfl, rfl, environments_differ _ _, by decide +kernel⟩

open Sample in
/-- What stands before it is not shown. -/
theorem front_is_hidden : ∃ s s', Settings.load (environment "open@sesame") = .ok s ∧
    Settings.load (environment "shut@sesame") = .ok s' ∧
    (environment "open@sesame").DifferInSecrets (environment "shut@sesame") ∧
    s.auth.description = s'.auth.description ∧ s.summary = s'.summary := by
  obtain ⟨s, loaded⟩ : ∃ s, Settings.load (environment "open@sesame") = .ok s := ⟨_, rfl⟩
  obtain ⟨s', loaded'⟩ : ∃ s, Settings.load (environment "shut@sesame") = .ok s := ⟨_, rfl⟩
  have differ := environments_differ "open@sesame" "shut@sesame"
  have exposed : exposedOfStore (environment "open@sesame") =
      exposedOfStore (environment "shut@sesame") := by decide +kernel
  obtain ⟨described, summarized, -⟩ := summary_shows_exposed loaded loaded' differ
  exact ⟨s, s', loaded, loaded', differ, described, summarized.mpr ⟨exposed, .inl rfl⟩⟩

end StatusRegistry
