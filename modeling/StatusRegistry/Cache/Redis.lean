import StatusRegistry.Cache.Error

/-!
# The remote cache

A server that keeps texts under keys and takes commands of words. Values written here do not
expire. A command may be set to fail with a line of the server, which changes nothing.
-/

namespace StatusRegistry

/-- What the server holds and which commands fail. -/
structure Redis where
  values : List (String × String)
  faults : List (String × String)
  deriving DecidableEq, Repr

/-- An answer of the server. -/
inductive RedisReply where
  | bulk (value : Option String)
  | done (count : Nat)
  | error (line : String)
  deriving DecidableEq, Repr

namespace Redis

/-- A server without values. -/
def empty : Redis := ⟨[], []⟩

/-- A command. -/
inductive Command where
  | get (key : String)
  | setex (key : String) (lifetime : Nat) (value : String)
  | del (key : String)
  | ping
  deriving DecidableEq, Repr

/-- The words of a command. -/
def Command.words : Command → List String
  | .get key => ["GET", key]
  | .setex key lifetime value => ["SETEX", key, toString lifetime, value]
  | .del key => ["DEL", key]
  | .ping => ["PING"]

/-- The longest lifetime that the server reads as a number. -/
def maxLifetime : Nat := 0x7FFFFFFFFFFFFFFF

/-- What a command does when it is not set to fail. A lifetime must be positive and fit. -/
def perform (r : Redis) : Command → RedisReply × Redis
  | .get key => (.bulk (r.values.lookup key), r)
  | .setex key lifetime value =>
    if lifetime > maxLifetime then (.error "ERR value is not an integer or out of range", r)
    else if lifetime = 0 then (.error "ERR invalid expire time in 'setex' command", r)
    else (.done 1, { r with values := (key, value) :: r.values.filter (·.1 ≠ key) })
  | .del key =>
    (.done (r.values.countP (·.1 = key)), { r with values := r.values.filter (·.1 ≠ key) })
  | .ping => (.done 1, r)

/-- The answer to a command, and the server after it. -/
def execute (r : Redis) (c : Command) : RedisReply × Redis :=
  match c.words.head?.bind fun name => r.faults.lookup name with
  | some line => (.error line, r)
  | none => r.perform c

/-- The value under a key. -/
def get (r : Redis) (key : String) : Except CacheError String × Redis :=
  match r.execute (.get key) with
  | (.bulk (some value), after) => (.ok value, after)
  | (.error line, after) => (.error (.backend "redis.get" line), after)
  | (_, after) => (.error (.miss key), after)

/-- Writes a value for a number of seconds. -/
def set (r : Redis) (key value : String) (lifetime : Nat) : Except CacheError Unit × Redis :=
  match r.execute (.setex key lifetime value) with
  | (.error line, after) => (.error (.backend "redis.set_ex" line), after)
  | (_, after) => (.ok (), after)

/-- Removes the value under a key, if there is one. -/
def delete (r : Redis) (key : String) : Except CacheError Unit × Redis :=
  match r.execute (.del key) with
  | (.error line, after) => (.error (.backend "redis.del" line), after)
  | (_, after) => (.ok (), after)

/-- Whether the server answers. -/
def isReachable (r : Redis) : Bool :=
  match r.execute .ping with
  | (.error _, _) => false
  | _ => true

end Redis

end StatusRegistry
