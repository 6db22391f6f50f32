import StatusRegistry.Cache
import StatusRegistry.Program
import StatusRegistry.Store

/-!
# Running programs

A world answers the calls of programs: it has a store, a cache and a clock, and it may be set to
fail. Running a program yields its value, the world after it and what happened in order. A
statement that is set never to be answered leaves the program without a value; whatever it did
before stays done. The store has a single connection, so no later statement is answered either.

Two programs that run side by side take turns at the statements of the store, which executes one at
a time. Between two statements of its own a program is not interrupted.
-/

namespace StatusRegistry

/-- How a statement is set to fail. -/
inductive StoreFault where
  | error (e : StoreError)
  | hang

/-- The calls of a cache that can be set to fail. -/
inductive CacheOperation where
  | get
  | set
  | delete
  | health
  deriving DecidableEq, Repr

/-- How a call of a cache is set to fail. -/
inductive CacheFault where
  | miss
  | connection
  | backend
  deriving DecidableEq, Repr

/-- How a call of the cache ended. -/
inductive CacheOutcome where
  | ok
  | miss
  | error
  deriving DecidableEq, Repr

/-- Something that happened while a program ran. -/
inductive Event where
  | executed (q : Statement)
  | cacheGet (key : String) (outcome : CacheOutcome)
  | cacheSet (key value : String) (lifetime : Nat) (outcome : CacheOutcome)
  | cacheDelete (key : String) (outcome : CacheOutcome)
  | commanded (c : Redis.Command)
  | counted (m : Metric)

/-- The connection to the store. One that is occupied waits for an answer that never comes. -/
inductive Connection where
  | free
  | occupied
  | closed
  deriving DecidableEq, Repr

/-- What surrounds programs. The clock counts nanoseconds. -/
structure World where
  store : Store
  storeFaults : List (String × StoreFault)
  connection : Connection
  cache : Cache
  cacheFaults : List (CacheOperation × CacheFault)
  now : Nat

/-- How the outcome of a cache call is told. -/
def CacheOutcome.ofExcept {α : Type} : Except CacheError α → CacheOutcome
  | .ok _ => .ok
  | .error e => if e.isMiss then .miss else .error

/-- The error of a call that is set to fail. -/
def CacheFault.error (fault : CacheFault) (operation key : String) : CacheError :=
  match fault with
  | .miss => .miss key
  | .connection => .connection "unreachable"
  | .backend => .backend operation "failed"

/-- What came of a program or of one of its calls: the value, if it ended, the world after it, and
the events in order. -/
structure Outcome (α : Type) where
  value : Option α
  world : World
  events : List Event

namespace World

/-- A world without faults. -/
def make (store : Store) (cache : Cache) : World :=
  ⟨store, [], .free, cache, [], MemoryCache.second⟩

/-- The world some nanoseconds later. -/
def advance (w : World) (time : Nat) : World := { w with now := w.now + time }

/-- The answer to a statement, if it is ever answered. A closed connection is refused, an occupied
one is waited for in vain, and a statement that is set to fail reaches the store without effect. -/
def answerQuery (w : World) (q : Statement) : Outcome (Except StoreError q.Result) :=
  match w.connection with
  | .closed => ⟨some (.error .closed), w, []⟩
  | .occupied => ⟨none, w, []⟩
  | .free =>
    match w.storeFaults.lookup q.name with
    | some .hang => ⟨none, { w with connection := .occupied }, [.executed q]⟩
    | some (.error e) => ⟨some (.error e), w, [.executed q]⟩
    | none =>
      let (result, store) := w.store.execute q
      ⟨some result, { w with store := store }, [.executed q]⟩

/-- The answer to a read of the cache. -/
def answerGet (w : World) (key : String) : List Event × Except CacheError String × World :=
  match w.cacheFaults.lookup .get with
  | some fault =>
    let e := fault.error "cache.get" key
    ([.cacheGet key (.ofExcept (.error e : Except CacheError String))], .error e, w)
  | none =>
    let (result, commands, cache) := w.cache.get w.now key
    (commands.map .commanded ++ [.cacheGet key (.ofExcept result)], result,
      { w with cache := cache })

/-- The answer to a write to the cache. -/
def answerSet (w : World) (key value : String) (lifetime : Nat) :
    List Event × Except CacheError Unit × World :=
  match w.cacheFaults.lookup .set with
  | some fault =>
    let e := fault.error "cache.set" key
    ([.cacheSet key value lifetime (.ofExcept (.error e : Except CacheError Unit))], .error e, w)
  | none =>
    let (result, commands, cache) := w.cache.set w.now key value lifetime
    (commands.map .commanded ++ [.cacheSet key value lifetime (.ofExcept result)], result,
      { w with cache := cache })

/-- The answer to a removal from the cache. -/
def answerDelete (w : World) (key : String) : List Event × Except CacheError Unit × World :=
  match w.cacheFaults.lookup .delete with
  | some fault =>
    let e := fault.error "cache.delete" key
    ([.cacheDelete key (.ofExcept (.error e : Except CacheError Unit))], .error e, w)
  | none =>
    let (result, commands, cache) := w.cache.delete key
    (commands.map .commanded ++ [.cacheDelete key (.ofExcept result)], result,
      { w with cache := cache })

/-- The answer to the question whether the cache answers. -/
def answerHealth (w : World) : List Event × Bool :=
  match w.cacheFaults.lookup .health with
  | some _ => ([], false)
  | none =>
    let (healthy, commands) := w.cache.health
    (commands.map .commanded, healthy)

/-- The answer to a call, if it is ever answered. -/
def answer (w : World) : (c : Call) → Outcome c.Answer
  | .query q => w.answerQuery q
  | .cacheGet key =>
    let (events, result, after) := w.answerGet key
    ⟨some result, after, events⟩
  | .cacheSet key value lifetime =>
    let (events, result, after) := w.answerSet key value lifetime
    ⟨some result, after, events⟩
  | .cacheDelete key =>
    let (events, result, after) := w.answerDelete key
    ⟨some result, after, events⟩
  | .cacheHealth =>
    let (events, healthy) := w.answerHealth
    ⟨some (healthy, w.cache.backend.name), w, events⟩
  | .count m => ⟨some (), w, [.counted m]⟩

/-- Runs a program to its end. -/
def run {α : Type} (w : World) : Program α → Outcome α
  | .done a => ⟨some a, w, []⟩
  | .call c next =>
    match w.answer c with
    | ⟨none, after, events⟩ => ⟨none, after, events⟩
    | ⟨some answer, after, events⟩ =>
      let rest := after.run (next answer)
      { rest with events := events ++ rest.events }

/-- Runs a program up to its next statement. -/
def settle {α : Type} (w : World) : Program α → Outcome (Program α)
  | .done a => ⟨some (.done a), w, []⟩
  | .call (.query q) next => ⟨some (.call (.query q) next), w, []⟩
  | .call c next =>
    match w.answer c with
    | ⟨none, after, events⟩ => ⟨none, after, events⟩
    | ⟨some answer, after, events⟩ =>
      let rest := after.settle (next answer)
      { rest with events := events ++ rest.events }

/-- Gives a program one turn: a statement, and all that comes before the one after it. -/
def turn {α : Type} (w : World) (p : Program α) : Outcome (Program α) :=
  let ready := w.settle p
  match ready.value with
  | some (.call c next) =>
    match ready.world.answer c with
    | ⟨none, after, events⟩ => ⟨none, after, ready.events ++ events⟩
    | ⟨some answer, after, events⟩ =>
      let rest := after.settle (next answer)
      { rest with events := ready.events ++ events ++ rest.events }
  | _ => ready

/-- Which of two programs has a turn. -/
inductive Side where
  | left
  | right

/-- Runs two programs, giving them turns in the given order and then letting each run to its
end. -/
def runBoth {α : Type} (w : World) (p q : Program α) : List Side → Outcome (Option α × Option α)
  | [] =>
    let first := w.run p
    let second := first.world.run q
    ⟨some (first.value, second.value), second.world, first.events ++ second.events⟩
  | side :: later =>
    match side with
    | .left =>
      let moved := w.turn p
      match moved.value with
      | none => ⟨none, moved.world, moved.events⟩
      | some p =>
        let rest := moved.world.runBoth p q later
        { rest with events := moved.events ++ rest.events }
    | .right =>
      let moved := w.turn q
      match moved.value with
      | none => ⟨none, moved.world, moved.events⟩
      | some q =>
        let rest := moved.world.runBoth p q later
        { rest with events := moved.events ++ rest.events }

end World

end StatusRegistry
