import StatusRegistry.Proofs.Cache.Upkeep
import StatusRegistry.Proofs.Settings.Checks
import StatusRegistry.Proofs.Tokens.Issuing

/-!
# What accepted settings promise

Whoever uses settings looks at their values again: the service reads its address, a cache is chosen,
room for nothing is raised to room for one entry, a lifetime is added to the time of the clock, and
the console asks for a secret. Of these, one thing only can go wrong with accepted settings. The
number of entries of the cache in memory has no upper bound as its lifetime has, and the table for
them is reserved when the cache is made. Where there is no room for it, the registry does not start,
and for the largest numbers there is room nowhere.

Whether a server answers is not up to settings. What is promised of the remote cache is that it is
asked for exactly where settings name it, and that there is a connection string to ask with.
-/

namespace StatusRegistry

/-- What settings of the cache come to: a server to ask for, room in memory, or nothing. -/
inductive CacheChoice where
  | remote (url : String)
  | memory (entries : Nat)
  | absent
  deriving DecidableEq

/-- The choice that settings make. Without a connection string there is no server to ask for. -/
def CacheSettings.choice (s : CacheSettings) : CacheChoice :=
  match s.backend, s.redisUrl with
  | .redis, some url => .remote url
  | .memory, _ => .memory s.maxEntries
  | _, _ => .absent

/-- The cache of a choice, and the commands sent for it. In place of a server that is not there or
does not answer there is no cache; without room for the cache in memory there is nothing at all. -/
def CacheChoice.cache? (reach : String → Option Redis) (room : MemoryCache.Room) :
    CacheChoice → Option (Cache × List Redis.Command)
  | .remote url =>
    match reach url with
    | some server => some (if server.isReachable then .redis server else .none, [.ping])
    | none => some (.none, [])
  | .memory entries => (MemoryCache.make? room entries).map fun made => (.memory made, [])
  | .absent => some (.none, [])

/-- The cache that settings ask for is that of their choice, wherever connection strings lead and
whatever room there is. -/
theorem Cache.ofSettings_eq (s : CacheSettings) (reach : String → Option Redis)
    (room : MemoryCache.Room) : Cache.ofSettings s reach room = s.choice.cache? reach room := by
  obtain ⟨backend, given, lifetime, entries⟩ := s
  cases backend with
  | none => rfl
  | memory => rfl
  | redis =>
    cases given with
    | none => rfl
    | some url =>
      unfold Cache.ofSettings CacheSettings.choice CacheChoice.cache?
      dsimp only [Option.bind_some]
      cases reach url <;> rfl

namespace CacheSettings

variable {s : CacheSettings} {url : String}

theorem choice_eq_remote_iff :
    s.choice = .remote url ↔ s.backend = .redis ∧ s.redisUrl = some url := by
  obtain ⟨backend, given, lifetime, entries⟩ := s
  cases backend <;> cases given <;> simp [choice]

theorem choice_eq_memory_iff {entries : Nat} :
    s.choice = .memory entries ↔ s.backend = .memory ∧ s.maxEntries = entries := by
  obtain ⟨backend, given, lifetime, room⟩ := s
  cases backend <;> cases given <;> simp [choice]

theorem choice_eq_absent_iff :
    s.choice = .absent ↔ s.backend = .none ∨ s.backend = .redis ∧ s.redisUrl = none := by
  obtain ⟨backend, given, lifetime, entries⟩ := s
  cases backend <;> cases given <;> simp [choice]

/-- Settings that are not sound may do without a cache for want of a connection string. -/
example : (CacheSettings.mk .redis none 3600 10000).choice = .absent := rfl

namespace IsSound

/-- Sound settings ask for a server exactly if they name the remote backend. -/
theorem exists_choice_eq_remote_iff (sound : s.IsSound) :
    (∃ url, s.choice = .remote url) ↔ s.backend = .redis := by
  simp only [choice_eq_remote_iff, exists_and_left]
  exact and_iff_left_of_imp sound.located

/-- They ask for it at a connection string of its kind. -/
theorem scheme_of_choice (sound : s.IsSound) (chosen : s.choice = .remote url) :
    s.redisUrl = some url ∧ HasCacheScheme url := by
  have given := (choice_eq_remote_iff.mp chosen).2
  exact ⟨given, sound.scheme url given⟩

/-- They do without a cache exactly if they name none. -/
theorem choice_eq_absent_iff (sound : s.IsSound) : s.choice = .absent ↔ s.backend = .none := by
  rw [CacheSettings.choice_eq_absent_iff]
  refine or_iff_left ?_
  rintro ⟨backend, missing⟩
  obtain ⟨url, given⟩ := sound.located backend
  cases missing.symm.trans given

end IsSound

end CacheSettings

namespace MemoryCache

variable {now lifetime : Nat}

/-- The last time that the clock can tell. -/
def lastTime : Nat := (lastSecond + 1) * second - 1

/-- A lifetime within the bounds does not overrun the clock as long as thirty days are left. -/
theorem not_overruns (early : now + second * maxCacheLifetime ≤ lastTime)
    (short : lifetime ≤ maxCacheLifetime) : ¬Overruns now lifetime := by
  have grows : second * lifetime ≤ second * maxCacheLifetime := Nat.mul_le_mul_left second short
  have positive : 0 < (lastSecond + 1) * second := by decide
  unfold Overruns
  unfold lastTime at early
  omega

/-- A write with such a lifetime succeeds then. -/
theorem set_of_early (m : MemoryCache) (early : now + second * maxCacheLifetime ≤ lastTime)
    (short : lifetime ≤ maxCacheLifetime) (key value : String) :
    m.set now key value lifetime = (.ok (), m.put now ⟨key, value, now + second * lifetime⟩) :=
  set_of_not_overruns (not_overruns early short) m key value

/-- A write with a lifetime leaves its entry, and every entry that it leaves is live. -/
theorem live_of_set {m after : MemoryCache} {key value : String} (lasts : 0 < lifetime)
    (written : m.set now key value lifetime = (.ok (), after)) :
    ⟨key, value, now + second * lifetime⟩ ∈ after.entries ∧
      ∀ e ∈ after.entries, now < e.expiresAt := by
  by_cases overruns : Overruns now lifetime
  · rw [set_of_overruns overruns] at written
    cases written
  · rw [set_of_not_overruns overruns] at written
    cases written
    refine ⟨List.mem_cons_self, fun e member => ?_⟩
    by_cases own : e = ⟨key, value, now + second * lifetime⟩
    · rw [own]
      exact Nat.lt_add_of_pos_right (Nat.mul_pos (by decide) lasts)
    · exact live_of_mem_put member own

/-- A cache with room for an entry is made as it was asked for, if its table can be reserved. -/
theorem make?_of_pos {capacity : Nat} (positive : 0 < capacity) (room : Room) :
    make? room capacity = if room.fits capacity then some ⟨capacity, []⟩ else none := by
  rw [make?, withCapacity, Nat.max_eq_left positive]

/-- A cache keeps the capacity it was made with in every course of calls, and never exceeds it. -/
theorem Lives.room_of_pos {capacity : Nat} {past : List Moment} {m : MemoryCache}
    (lives : Lives capacity past m) (positive : 0 < capacity) :
    m.capacity = capacity ∧ m.size ≤ capacity := by
  have bounded := lives.isCurrent.bounded
  rw [Nat.max_eq_left positive] at bounded
  exact ⟨bounded, bounded ▸ lives.isCurrent.room⟩

end MemoryCache

namespace Admin

variable {console : Environment} {t : Terminal} {auth : AuthSettings} {fresh name : String}
  {creation : Creation} {user : Uuid}

/-- A session that has what it needs asks the store once and then tells the answer. -/
theorem Creation.IsReady.asks (ready : creation.IsReady console t auth name user)
    (fresh : String) :
    ∃ next, (createToken console t fresh creation).written = .call (.query (.createToken name
        (Token.digestOf auth.secret (creation.raw.getD fresh)) user)) next ∧
      ∀ answer, ∃ outcome,
        next answer = .done (toldCreation name user (creation.raw.getD fresh) outcome) :=
  ⟨_, written_createToken ready, fun _ => ⟨_, rfl⟩⟩

/-- A session that has had an answer of the store is not given up for settings. -/
theorem toldCreation_ne_settings (raw : String) (outcome : Except Failure Token)
    (problem : SettingsProblem) :
    (toldCreation name user raw outcome).1 ≠ .error (.settings problem) := by
  cases outcome <;> nofun

/-- Neither is one that gives up before that, though it has a secret. -/
theorem Creation.GivesUp.ne_settings {outcome : Except Problem Unit × String}
    (gives : creation.GivesUp t outcome) (problem : SettingsProblem) :
    outcome.1 ≠ .error (.settings problem) := by
  rcases gives with ⟨other, failed, unrelated⟩ | ⟨succeeded, -⟩
  · rw [failed]
    rintro ⟨⟩
    exact unrelated problem rfl
  · rw [succeeded]
    nofun

/-- A session that reads a sound secret is not given up for settings, whatever else it lacks and
however the terminal and the store answer. -/
theorem not_settings_of_secret (sound : auth.IsSound)
    (held : console.read "TOKEN_SIGNING_SECRET" = .ok auth.secret) (past : List Exchange)
    (problem : SettingsProblem) (text : String) :
    ¬(createToken console t fresh creation).written.Leads past
      (.done (.error (.settings problem), text)) := by
  obtain ⟨ownership, loads, valid⟩ := sound.reload held
  intro leads
  rcases createToken_cases_of_secret loads valid t fresh creation with
    ⟨outcome, ends, gives⟩ | ⟨name, user, ready⟩
  · rw [ends] at leads
    obtain ⟨-, same⟩ := leads.of_done
    exact gives.ne_settings problem (congrArg Prod.fst (Program.done.inj same).symm)
  · obtain ⟨next, asks, tells⟩ := ready.asks fresh
    rw [asks] at leads
    cases leads with
    | @ask _ _ answer _ _ onward =>
      obtain ⟨outcome, told⟩ := tells answer
      rw [told] at onward
      obtain ⟨-, same⟩ := onward.of_done
      exact toldCreation_ne_settings _ _ problem (congrArg Prod.fst (Program.done.inj same).symm)

/-- A session that reads a sound secret and is told everything else, beforehand or at the terminal,
asks the store to keep the token under its digest. -/
theorem asks_of_secret (sound : auth.IsSound)
    (held : console.read "TOKEN_SIGNING_SECRET" = .ok auth.secret) (fresh : String)
    (named : creation.nameAt t = .ok name) (used : creation.userAt t = .ok user)
    (somebody : user.isNil = false) (confirmed : creation.consentAt t = .ok true) :
    ∃ next, (createToken console t fresh creation).written = .call (.query
      (.createToken name (Token.digestOf auth.secret (creation.raw.getD fresh)) user)) next := by
  obtain ⟨ownership, loads, valid⟩ := sound.reload held
  have ready : creation.IsReady console t ⟨auth.secret, ownership⟩ name user :=
    ⟨loads, valid, named, used, somebody, confirmed⟩
  obtain ⟨next, asks, -⟩ := ready.asks fresh
  exact ⟨next, asks⟩

end Admin

/-- What settings promise to their later users. -/
structure Settings.IsUsable (s : Settings) : Prop where
  /-- The address to listen on can be read. -/
  address : ∃ e, s.server.endpoint = .ok e
  /-- A request has between one second and five minutes. -/
  deadline : 1 ≤ s.server.deadline ∧ s.server.deadline ≤ 300
  /-- There may be a connection to the store, and there is time to make it. -/
  connections : 0 < s.store.maxConnections ∧ 0 < s.store.connectTimeout
  /-- The cache is the one of the choice, wherever connection strings lead. -/
  chosen : ∀ reach room, Cache.ofSettings s.cache reach room = s.cache.choice.cache? reach room
  /-- A server is asked for exactly if the backend is the remote one. -/
  remote : (∃ url, s.cache.choice = .remote url) ↔ s.cache.backend = .redis
  /-- It is asked for at a connection string of its kind. -/
  scheme : ∀ url, s.cache.choice = .remote url → s.cache.redisUrl = some url ∧ HasCacheScheme url
  /-- There is to be no cache only if none is wanted, not for want of a connection string. -/
  absent : s.cache.choice = .absent ↔ s.cache.backend = .none
  /-- The cache in memory is asked for exactly if the backend is that one, with its room. -/
  memory : s.cache.choice = .memory s.cache.maxEntries ↔ s.cache.backend = .memory
  /-- Where there is room for the cache in memory, it is made exactly as it is set. -/
  made : ∀ room : MemoryCache.Room, room.fits s.cache.maxEntries = true →
    MemoryCache.make? room s.cache.maxEntries = some ⟨s.cache.maxEntries, []⟩
  /-- A cache cannot be had only for want of room in memory. -/
  unmade : ∀ reach (room : MemoryCache.Room), Cache.ofSettings s.cache reach room = none ↔
    s.cache.backend = .memory ∧ room.fits s.cache.maxEntries = false
  /-- It stays so in every course of calls, and is never exceeded. -/
  room : ∀ past m, MemoryCache.Lives s.cache.maxEntries past m →
    m.capacity = s.cache.maxEntries ∧ m.size ≤ s.cache.maxEntries
  /-- As long as the clock has thirty days left, a write to the cache in memory succeeds. -/
  writes : ∀ (m : MemoryCache) (now : Nat) (key value : String),
    now + MemoryCache.second * maxCacheLifetime ≤ MemoryCache.lastTime →
    ∃ after, m.set now key value s.cache.lifetime = (.ok (), after)
  /-- At any time, a write that succeeds leaves its entry in a cache of live entries only. -/
  lasting : ∀ (m after : MemoryCache) (now : Nat) (key value : String),
    m.set now key value s.cache.lifetime = (.ok (), after) →
    ⟨key, value, now + MemoryCache.second * s.cache.lifetime⟩ ∈ after.entries ∧
      ∀ e ∈ after.entries, now < e.expiresAt
  /-- A console that has the secret too does not give up for settings when a token is issued. -/
  secret : ∀ (console : Environment) (t : Admin.Terminal) (fresh : String)
    (creation : Admin.Creation), console.read "TOKEN_SIGNING_SECRET" = .ok s.auth.secret →
    ∀ past problem text, ¬(Admin.createToken console t fresh creation).written.Leads past
      (.done (.error (.settings problem), text))
  /-- If it is told a name, a user who is somebody, and consent, beforehand or at the terminal, it
  asks the store to keep the token under the digest that the service looks for. -/
  issues : ∀ (console : Environment) (t : Admin.Terminal) (fresh name : String)
    (creation : Admin.Creation) (user : Uuid),
    console.read "TOKEN_SIGNING_SECRET" = .ok s.auth.secret →
    creation.nameAt t = .ok name → creation.userAt t = .ok user → user.isNil = false →
    creation.consentAt t = .ok true →
    ∃ next, (Admin.createToken console t fresh creation).written = .call (.query
      (.createToken name (Token.digestOf s.auth.secret (creation.raw.getD fresh)) user)) next

namespace CacheSettings.IsSound

variable {s : CacheSettings}

/-- Sound settings come without a cache they ask for only where there is no room for it. -/
theorem ofSettings_eq_none_iff (sound : s.IsSound) (reach : String → Option Redis)
    (room : MemoryCache.Room) : Cache.ofSettings s reach room = none ↔
      s.backend = .memory ∧ room.fits s.maxEntries = false := by
  rw [Cache.ofSettings_eq, ← choice_eq_memory_iff.trans (and_iff_left rfl)]
  cases chosen : s.choice with
  | absent => exact iff_of_false nofun nofun
  | remote url =>
    refine iff_of_false ?_ nofun
    rw [CacheChoice.cache?]
    split <;> nofun
  | memory entries =>
    obtain ⟨-, rfl⟩ := choice_eq_memory_iff.mp chosen
    rw [CacheChoice.cache?, MemoryCache.make?_of_pos sound.entries]
    cases room.fits s.maxEntries with
    | true => exact iff_of_false nofun nofun
    | false => exact iff_of_true rfl ⟨rfl, rfl⟩

end CacheSettings.IsSound

/-- Accepted settings keep what they promise, and the environment that they come from has their
secret. -/
theorem accepted_settings_are_usable {env : Environment} {s : Settings}
    (loaded : Settings.load env = .ok s) :
    s.IsUsable ∧ env.read "TOKEN_SIGNING_SECRET" = .ok s.auth.secret := by
  obtain ⟨-, store, cache, server, auth⟩ := Settings.load_eq_ok_iff.mp loaded
  obtain ⟨-, -, -, read⟩ := Settings.parts_of_load loaded
  have usable : s.IsUsable :=
    { address := server.address
      deadline := server.deadline
      connections := ⟨store.connections, store.connectTime⟩
      chosen := Cache.ofSettings_eq s.cache
      remote := cache.exists_choice_eq_remote_iff
      scheme := fun _ => cache.scheme_of_choice
      absent := cache.choice_eq_absent_iff
      memory := CacheSettings.choice_eq_memory_iff.trans (and_iff_left rfl)
      made := fun room fits => (MemoryCache.make?_of_pos cache.entries room).trans (if_pos fits)
      unmade := cache.ofSettings_eq_none_iff
      room := fun _ _ lives => lives.room_of_pos cache.entries
      writes := fun m _ key value early =>
        ⟨_, m.set_of_early early cache.lifetime.2 key value⟩
      lasting := fun _ _ _ _ _ => MemoryCache.live_of_set cache.lifetime.1
      secret := fun _ _ _ _ held => Admin.not_settings_of_secret auth held
      issues := fun _ _ fresh _ _ _ held => Admin.asks_of_secret auth held fresh }
  exact ⟨usable, (AuthSettings.load_eq_ok_iff.mp read).1⟩

/-- An environment is accepted with the settings of the cache that evaluation shows. -/
theorem Settings.load_eq_ok_of_shown (env : Environment) (cache : CacheSettings)
    (shown : ((load env).toOption.map fun s =>
      (s.cache.backend, s.cache.redisUrl, s.cache.lifetime, s.cache.maxEntries)) =
        some (cache.backend, cache.redisUrl, cache.lifetime, cache.maxEntries)) :
    ∃ s, load env = .ok s ∧ s.cache = cache := by
  cases loaded : load env with
  | error problem =>
    rw [loaded] at shown
    cases shown
  | ok s =>
    rw [loaded] at shown
    obtain ⟨_, ⟨backend, url, lifetime, entries⟩, _, _, _⟩ := s
    obtain ⟨_, _, _, _⟩ := cache
    cases shown
    exact ⟨_, rfl, rfl⟩

namespace Sample

/-- An environment with octets that are no text, texts that are no numbers, and numbers at their
bounds. -/
def troubledEnvironment : Environment where
  entries := [("DATABASE_URL", [0xFF]), ("DB_USER", Utf8.octets "registry"),
    ("DB_PASSWORD", Utf8.octets "open"), ("DB_NAME", Utf8.octets "statuses"),
    ("DB_MAX_CONNECTIONS", Utf8.octets "many"), ("REDIS_URL", [0xFF]),
    ("REDIS_HOST", Utf8.octets "cache"), ("REDIS_PASSWORD", Utf8.octets "pw"),
    ("REDIS_DB", Utf8.octets "2"), ("CACHE_TTL_SECONDS", Utf8.octets "2592000"),
    ("CACHE_MAX_ENTRIES", Utf8.octets "-1"), ("REQUEST_TIMEOUT_SECONDS", Utf8.octets "300"),
    ("LISTEN", Utf8.octets "[::1]:3000"), ("TOKEN_SIGNING_SECRET", Utf8.octets " key")]

/-- An environment that asks for a cache in memory of as many entries as can be asked for. -/
def greedyEnvironment : Environment where
  entries := [("DATABASE_URL", Utf8.octets "postgres://localhost/statuses"),
    ("CACHE_BACKEND", Utf8.octets "memory"),
    ("CACHE_MAX_ENTRIES", Utf8.octets "18446744073709551615"),
    ("TOKEN_SIGNING_SECRET", Utf8.octets "key")]

end Sample

open Sample MemoryCache in
/-- An environment with unreadable variables is accepted. A server is asked for by its host, number
and password, and is used if it answers; thirty days before the end of the clock a copy can still be
kept that long. -/
theorem troubled_environment_is_usable : ∃ s, Settings.load troubledEnvironment = .ok s ∧
    s.cache = ⟨.redis, some "redis://:pw@cache:6379/2", 2592000, 10000⟩ ∧ s.IsUsable ∧
    troubledEnvironment.read "TOKEN_SIGNING_SECRET" = .ok s.auth.secret ∧
    HasCacheScheme "redis://:pw@cache:6379/2" ∧
    (∀ room, Cache.ofSettings s.cache (fun _ => some Redis.empty) room =
      some (.redis .empty, [.ping])) ∧
    (∀ room, Cache.ofSettings s.cache (fun _ => none) room = some (.none, [])) ∧
    ∃ now after, now + second * maxCacheLifetime = lastTime ∧
      (withCapacity 10000).set now "a" "1" 2592000 = (.ok (), after) ∧
      ∀ e ∈ after.entries, now < e.expiresAt := by
  obtain ⟨s, loaded, cached⟩ := Settings.load_eq_ok_of_shown troubledEnvironment
    ⟨.redis, some "redis://:pw@cache:6379/2", 2592000, 10000⟩ (by decide +kernel)
  obtain ⟨usable, held⟩ := accepted_settings_are_usable loaded
  have chosen : s.cache.choice = .remote "redis://:pw@cache:6379/2" := by
    rw [cached, CacheSettings.choice]
  obtain ⟨now, left⟩ : ∃ now, now + second * maxCacheLifetime = lastTime := by
    refine ⟨lastTime - second * maxCacheLifetime, Nat.sub_add_cancel ?_⟩
    unfold maxCacheLifetime lastTime lastSecond second
    omega
  obtain ⟨after, written⟩ := usable.writes (withCapacity 10000) now "a" "1" left.le
  obtain ⟨-, live⟩ := usable.lasting _ _ _ _ _ written
  rw [cached] at written
  refine ⟨s, loaded, cached, usable, held, (usable.scheme _ chosen).2, fun room => ?reached,
    fun room => ?unreached, now, after, left, written, live⟩
  case reached =>
    rw [usable.chosen, chosen]
    rfl
  case unreached => rw [usable.chosen, chosen, CacheChoice.cache?]

open Sample in
/-- Settings are accepted although their cache cannot be made, wherever the registry runs: no table
has as many entries as they ask for. -/
theorem largest_cache_cannot_be_made : ∃ s, Settings.load greedyEnvironment = .ok s ∧
    s.cache = ⟨.memory, none, 3600, 18446744073709551615⟩ ∧
    ∀ reach room, Cache.ofSettings s.cache reach room = none := by
  obtain ⟨s, loaded, cached⟩ := Settings.load_eq_ok_of_shown greedyEnvironment
    ⟨.memory, none, 3600, 18446744073709551615⟩ (by decide +kernel)
  refine ⟨s, loaded, cached, fun reach room => ?_⟩
  have full : room.fits 18446744073709551615 = false := by
    refine Bool.eq_false_iff.mpr fun fits => ?_
    have bounded := room.bounded _ fits
    unfold MemoryCache.longestAllocation at bounded
    omega
  have positive : 0 < 18446744073709551615 := by omega
  rw [cached, Cache.ofSettings, MemoryCache.make?_of_pos positive, full]
  rfl

end StatusRegistry
