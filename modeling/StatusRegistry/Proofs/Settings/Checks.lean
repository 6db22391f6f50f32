import StatusRegistry.Settings

/-!
# What the checks of settings accept

Settings are accepted if and only if each group of them passes its checks, whichever numbers were
read and whichever fell back to their defaults. What a group has to fulfil is told here as a
structure, and its checks pass exactly if it holds.
-/

namespace StatusRegistry

section Checks

variable {ε α β : Type}

/-- Computations in a row succeed exactly if each of them does. -/
theorem bind_eq_ok_iff {first : Except ε α} {next : α → Except ε β} {b : β} :
    (first >>= next) = .ok b ↔ ∃ a, first = .ok a ∧ next a = .ok b := by
  constructor
  · intro done
    cases first with
    | error e => cases done
    | ok a => exact ⟨a, rfl, done⟩
  · rintro ⟨a, rfl, rest⟩
    exact rest

/-- Checks in a row pass exactly if each of them does. -/
theorem check_eq_ok_iff {first : Except ε Unit} {next : Unit → Except ε β} {b : β} :
    (first >>= next) = .ok b ↔ first = .ok () ∧ next () = .ok b := by
  rw [bind_eq_ok_iff]
  exact ⟨fun ⟨_, passed, rest⟩ => ⟨passed, rest⟩, fun ⟨passed, rest⟩ => ⟨(), passed, rest⟩⟩

/-- A check before others passes exactly if it has nothing to refuse and the others pass. -/
theorem refusal_eq_ok_iff {refused : Prop} [Decidable refused] {problem : ε}
    {others : Except ε Unit} :
    (if refused then .error problem else others) = .ok () ↔ ¬refused ∧ others = .ok () := by
  split
  case isTrue bad => exact ⟨nofun, fun passed => absurd bad passed.1⟩
  case isFalse good => exact ⟨fun passed => ⟨good, passed⟩, And.right⟩

end Checks

/-- A text starts with its fronts. -/
theorem startsWith_iff {start text : String} :
    startsWith start text = true ↔ start.toList <+: text.toList := List.isPrefixOf_iff_prefix

/-- A connection string has a scheme of the store. -/
def HasStoreScheme (url : String) : Prop :=
  "postgres://".toList <+: url.toList ∨ "postgresql://".toList <+: url.toList

/-- A connection string has a scheme of the remote cache, with encryption or without. -/
def HasCacheScheme (url : String) : Prop :=
  "redis://".toList <+: url.toList ∨ "rediss://".toList <+: url.toList

/-- Settings of the store that pass their checks. -/
structure StoreSettings.IsSound (s : StoreSettings) : Prop where
  scheme : HasStoreScheme s.url
  connections : 0 < s.maxConnections
  connectTime : 0 < s.connectTimeout

/-- Settings of the cache that pass their checks. A connection string is checked even if it is not
going to be used. -/
structure CacheSettings.IsSound (s : CacheSettings) : Prop where
  scheme : ∀ url, s.redisUrl = some url → HasCacheScheme url
  located : s.backend = .redis → ∃ url, s.redisUrl = some url
  lifetime : 1 ≤ s.lifetime ∧ s.lifetime ≤ maxCacheLifetime
  entries : 0 < s.maxEntries

/-- Settings of the server that pass their checks. -/
structure ServerSettings.IsSound (s : ServerSettings) : Prop where
  address : ∃ e, s.endpoint = .ok e
  deadline : 1 ≤ s.deadline ∧ s.deadline ≤ 300

/-- Settings of authorization that pass their checks. -/
structure AuthSettings.IsSound (s : AuthSettings) : Prop where
  secret : ∃ c ∈ s.secret.toList, isBlank c = false

theorem StoreSettings.validate_eq_ok_iff {s : StoreSettings} : s.validate = .ok () ↔ s.IsSound := by
  have scheme : ¬(!(startsWith "postgres://" s.url || startsWith "postgresql://" s.url)) = true ↔
      HasStoreScheme s.url := by
    rw [Bool.not_eq_true', Bool.not_eq_false, Bool.or_eq_true, startsWith_iff, startsWith_iff,
      HasStoreScheme]
  rw [validate, refusal_eq_ok_iff, refusal_eq_ok_iff, refusal_eq_ok_iff, scheme]
  constructor
  · rintro ⟨known, some, waits, -⟩
    exact ⟨known, Nat.pos_of_ne_zero some, Nat.pos_of_ne_zero waits⟩
  · rintro ⟨known, some, waits⟩
    exact ⟨known, Nat.ne_of_gt some, Nat.ne_of_gt waits, rfl⟩

namespace CacheSettings

variable {s : CacheSettings} {url : String}

theorem isRedisUrl_iff : isRedisUrl url = true ↔ HasCacheScheme url := by
  rw [isRedisUrl, Bool.or_eq_true, startsWith_iff, startsWith_iff, HasCacheScheme]

theorem validate_eq_ok_iff : s.validate = .ok () ↔ s.IsSound := by
  have limits : (if !(decide (1 ≤ s.lifetime) && decide (s.lifetime ≤ maxCacheLifetime)) then
        .error (.lifetimeOutOfBounds s.lifetime)
      else if s.maxEntries = 0 then .error .noEntries else .ok () : Except SettingsProblem Unit) =
        .ok () ↔ (1 ≤ s.lifetime ∧ s.lifetime ≤ maxCacheLifetime) ∧ 0 < s.maxEntries := by
    rw [refusal_eq_ok_iff, refusal_eq_ok_iff, Bool.not_eq_true', Bool.not_eq_false,
      Bool.and_eq_true, decide_eq_true_iff, decide_eq_true_iff, Nat.pos_iff_ne_zero]
    exact and_congr_right fun _ => and_iff_left rfl
  unfold validate
  cases given : s.redisUrl with
  | none =>
    dsimp only
    rw [refusal_eq_ok_iff, limits]
    constructor
    · rintro ⟨elsewhere, lifetime, entries⟩
      exact ⟨by rw [given]; nofun, fun backend => absurd backend elsewhere, lifetime, entries⟩
    · rintro ⟨-, located, lifetime, entries⟩
      refine ⟨fun backend => ?_, lifetime, entries⟩
      obtain ⟨url, there⟩ := located backend
      cases given.symm.trans there
  | some url =>
    dsimp only
    split
    case isTrue known =>
      rw [limits]
      constructor
      · rintro ⟨lifetime, entries⟩
        refine ⟨fun other same => ?_, fun _ => ⟨url, given⟩, lifetime, entries⟩
        cases given.symm.trans same
        exact isRedisUrl_iff.mp known
      · exact fun sound => ⟨sound.lifetime, sound.entries⟩
    case isFalse unknown =>
      exact ⟨nofun, fun sound => absurd (isRedisUrl_iff.mpr (sound.scheme url given)) unknown⟩

end CacheSettings

theorem ServerSettings.validate_eq_ok_iff {s : ServerSettings} :
    s.validate = .ok () ↔ s.IsSound := by
  rw [validate, bind_eq_ok_iff]
  constructor
  · rintro ⟨e, address, rest⟩
    split at rest
    case isTrue within => exact ⟨⟨e, address⟩, within⟩
    case isFalse => cases rest
  · rintro ⟨⟨e, address⟩, within⟩
    exact ⟨e, address, if_pos within⟩

theorem AuthSettings.validate_eq_ok_iff {s : AuthSettings} : s.validate = .ok () ↔ s.IsSound := by
  rw [validate, refusal_eq_ok_iff, isBlankText, Bool.not_eq_true, List.all_eq_false]
  constructor
  · rintro ⟨⟨c, member, visible⟩, -⟩
    exact ⟨c, member, Bool.eq_false_iff.mpr visible⟩
  · rintro ⟨c, member, visible⟩
    exact ⟨⟨c, member, Bool.not_eq_true _ ▸ visible⟩, rfl⟩

theorem Settings.validate_eq_ok_iff {s : Settings} : s.validate = .ok () ↔
    s.store.IsSound ∧ s.cache.IsSound ∧ s.server.IsSound ∧ s.auth.IsSound := by
  rw [validate, check_eq_ok_iff, check_eq_ok_iff, check_eq_ok_iff,
    StoreSettings.validate_eq_ok_iff, CacheSettings.validate_eq_ok_iff,
    ServerSettings.validate_eq_ok_iff, AuthSettings.validate_eq_ok_iff]

/-- Settings are accepted exactly if every group of what was read passes its checks. -/
theorem Settings.load_eq_ok_iff {env : Environment} {s : Settings} : load env = .ok s ↔
    read env = .ok s ∧ s.store.IsSound ∧ s.cache.IsSound ∧ s.server.IsSound ∧ s.auth.IsSound := by
  rw [load, bind_eq_ok_iff, ← validate_eq_ok_iff]
  constructor
  · rintro ⟨given, reads, rest⟩
    obtain ⟨passed, ⟨⟩⟩ := check_eq_ok_iff.mp rest
    exact ⟨reads, passed⟩
  · rintro ⟨reads, passed⟩
    exact ⟨s, reads, check_eq_ok_iff.mpr ⟨passed, rfl⟩⟩

/-- Every group of accepted settings is read by itself. -/
theorem Settings.parts_of_load {env : Environment} {s : Settings} (loaded : load env = .ok s) :
    StoreSettings.load env = .ok s.store ∧ CacheSettings.load env = .ok s.cache ∧
      s.server = ServerSettings.load env ∧ AuthSettings.load env = .ok s.auth := by
  have reads := (load_eq_ok_iff.mp loaded).1
  unfold read at reads
  split at reads
  · rename_i store stored
    obtain ⟨_, ⟨⟩, rest⟩ := bind_eq_ok_iff.mp reads
    obtain ⟨cache, cached, rest⟩ := bind_eq_ok_iff.mp rest
    obtain ⟨auth, authorized, rest⟩ := bind_eq_ok_iff.mp rest
    obtain ⟨log, _, rest⟩ := bind_eq_ok_iff.mp rest
    cases rest
    exact ⟨stored, cached, rfl, authorized⟩
  · cases reads

/-- A variable that is required is given with its text exactly if it has one. -/
theorem Environment.require_eq_ok_iff {env : Environment} {name names text : String} :
    env.require name names = .ok text ↔ env.read name = .ok text := by
  unfold require
  cases env.read name with
  | error absence => exact ⟨nofun, nofun⟩
  | ok given => exact ⟨fun same => congrArg _ (Except.ok.inj same),
      fun same => congrArg _ (Except.ok.inj same)⟩

/-- Settings of authorization are read from two variables, one of which is required. -/
theorem AuthSettings.load_eq_ok_iff {env : Environment} {auth : AuthSettings} :
    load env = .ok auth ↔ env.read "TOKEN_SIGNING_SECRET" = .ok auth.secret ∧
      auth.enforceOwnership = env.flag "ENFORCE_OWNERSHIP" := by
  rw [load, bind_eq_ok_iff]
  constructor
  · rintro ⟨secret, given, ⟨⟩⟩
    exact ⟨Environment.require_eq_ok_iff.mp given, rfl⟩
  · rintro ⟨given, ownership⟩
    refine ⟨auth.secret, Environment.require_eq_ok_iff.mpr given, ?_⟩
    rw [← ownership]
    rfl

/-- A sound secret is accepted wherever it is read. -/
theorem AuthSettings.IsSound.reload {auth : AuthSettings} (sound : auth.IsSound)
    {console : Environment} (held : console.read "TOKEN_SIGNING_SECRET" = .ok auth.secret) :
    ∃ ownership, load console = .ok ⟨auth.secret, ownership⟩ ∧
      (AuthSettings.mk auth.secret ownership).validate = .ok () :=
  ⟨console.flag "ENFORCE_OWNERSHIP", load_eq_ok_iff.mpr ⟨held, rfl⟩,
    validate_eq_ok_iff.mpr ⟨sound.secret⟩⟩

end StatusRegistry
