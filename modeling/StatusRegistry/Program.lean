import StatusRegistry.Cache.Error
import StatusRegistry.Store.Error
import StatusRegistry.Store.Statement

/-!
# Programs

What the registry does to answer one request, as a tree of calls on its surroundings: statements of
the store, calls of the cache, counters. A program says nothing about how calls are answered, when
other programs run between two of them, or whether it is dropped before it ends. Those are
decisions of whoever runs it.
-/

namespace StatusRegistry

/-- What the counters count: the outcomes of reading and writing through the cache. -/
inductive Metric where
  | hits
  | misses
  | errors
  deriving DecidableEq, Repr

/-- The name of a counter. -/
def Metric.name : Metric → String
  | .hits => "status_cache_hits_total"
  | .misses => "status_cache_misses_total"
  | .errors => "status_cache_errors_total"

/-- One call. Lifetimes are in seconds. -/
inductive Call where
  | query (statement : Statement)
  | cacheGet (key : String)
  | cacheSet (key value : String) (lifetime : Nat)
  | cacheDelete (key : String)
  | cacheHealth
  | count (metric : Metric)

/-- The type of the answer to a call. The health of a cache comes with the name of its kind. -/
def Call.Answer : Call → Type
  | .query q => Except StoreError q.Result
  | .cacheGet _ => Except CacheError String
  | .cacheSet .. => Except CacheError Unit
  | .cacheDelete _ => Except CacheError Unit
  | .cacheHealth => Bool × String
  | .count _ => Unit

/-- A program: a value, or a call and what follows each answer. -/
inductive Program (α : Type) : Type where
  | done (value : α)
  | call (c : Call) (next : c.Answer → Program α)

namespace Program

/-- Runs one program and then the one that its value chooses. -/
def bind {α β : Type} : Program α → (α → Program β) → Program β
  | .done a, f => f a
  | .call c next, f => .call c fun answer => (next answer).bind f

instance : Monad Program where
  pure := .done
  bind := bind

/-- The program of a single call. -/
def ofCall (c : Call) : Program c.Answer := .call c .done

theorem bind_done {α : Type} (p : Program α) : p.bind .done = p := by
  induction p with
  | done a => rfl
  | call c next ih => simp only [bind, ih]

theorem bind_bind {α β γ : Type} (p : Program α) (f : α → Program β) (g : β → Program γ) :
    (p.bind f).bind g = p.bind fun a => (f a).bind g := by
  induction p with
  | done a => rfl
  | call c next ih => simp only [bind, ih]

instance : LawfulMonad Program :=
  LawfulMonad.mk' Program bind_done (fun _ _ => rfl) bind_bind

/-- Adds one to a counter. -/
def count (m : Metric) : Program Unit := ofCall (.count m)

end Program

/-- A program that may end in a failure. -/
abbrev Action (α : Type) : Type := ExceptT Failure Program α

namespace Action

/-- An action that makes no call. -/
def ofExcept {α : Type} (result : Except Failure α) : Action α := ExceptT.mk (.done result)

/-- The outcome of an action as a value, so that its failure ends nothing else. -/
def attempt {α : Type} (a : Action α) : Action (Except Failure α) :=
  ExceptT.mk (a.run.bind fun outcome => .done (.ok outcome))

/-- The result of a statement. An error of the store becomes a failure that names the statement. -/
def query (q : Statement) : Action q.Result :=
  ExceptT.mk (.call (.query q) fun answer => .done (match answer with
    | .ok result => .ok result
    | .error e => .error (e.toFailure.withOperation q.name)))

end Action

end StatusRegistry
