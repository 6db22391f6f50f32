import StatusRegistry.Cache.Memory
import StatusRegistry.Cache.Redis
import StatusRegistry.Settings

/-!
# Caches

A cache keeps texts under keys for a time and may forget them at any moment. There are three: the
one in memory, the remote one, and one that keeps nothing. Whatever a cache does, it is never the
source of truth.
-/

namespace StatusRegistry

/-- A cache of one of the three kinds. -/
inductive Cache where
  | none
  | memory (cache : MemoryCache)
  | redis (server : Redis)

namespace Cache

/-- The kind of a cache. -/
def backend : Cache → CacheBackend
  | .none => .none
  | .memory _ => .memory
  | .redis _ => .redis

/-- The value under a key, the commands sent for it, and the cache after it. -/
def get (c : Cache) (now : Nat) (key : String) :
    Except CacheError String × List Redis.Command × Cache :=
  match c with
  | .none => (.error (.miss key), [], .none)
  | .memory m =>
    match m.get now key with
    | (some value, after) => (.ok value, [], .memory after)
    | (Option.none, after) => (.error (.miss key), [], .memory after)
  | .redis r =>
    let (result, after) := r.get key
    (result, [.get key], .redis after)

/-- Writes a value for a number of seconds. -/
def set (c : Cache) (now : Nat) (key value : String) (lifetime : Nat) :
    Except CacheError Unit × List Redis.Command × Cache :=
  match c with
  | .none => (.ok (), [], .none)
  | .memory m =>
    let (result, after) := m.set now key value lifetime
    (result, [], .memory after)
  | .redis r =>
    let (result, after) := r.set key value lifetime
    (result, [.setex key lifetime value], .redis after)

/-- Removes the value under a key. -/
def delete (c : Cache) (key : String) : Except CacheError Unit × List Redis.Command × Cache :=
  match c with
  | .none => (.ok (), [], .none)
  | .memory m => (.ok (), [], .memory (m.delete key))
  | .redis r =>
    let (result, after) := r.delete key
    (result, [.del key], .redis after)

/-- Whether the cache answers, and the commands sent to find out. -/
def health (c : Cache) : Bool × List Redis.Command :=
  match c with
  | .none => (true, [])
  | .memory _ => (true, [])
  | .redis r => (r.isReachable, [.ping])

/-- The cache that settings ask for, and the commands sent to find out whether it answers. `reach`
gives the server that a connection string leads to, if there is one and it lets the registry in. The
registry works without a cache rather than not at all, so a server that does not answer is not used.
A cache in memory for which there is no room is not replaced, and the registry does not start. -/
def ofSettings (s : CacheSettings) (reach : String → Option Redis) (room : MemoryCache.Room) :
    Option (Cache × List Redis.Command) :=
  match s.backend with
  | .none => some (.none, [])
  | .memory => (MemoryCache.make? room s.maxEntries).map fun made => (.memory made, [])
  | .redis =>
    match s.redisUrl.bind reach with
    | Option.none => some (.none, [])
    | some server => some (if server.isReachable then .redis server else .none, [.ping])

end Cache

end StatusRegistry
