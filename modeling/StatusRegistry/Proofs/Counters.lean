import Mathlib.Algebra.BigOperators.Group.Finset.Piecewise
import StatusRegistry.Proofs.Session.Hits

/-!
# The counters add up

Three counters tell what became of the calls of the cache: hits and misses of reads, and errors of
any call. A read of a status counts its own outcome once, whatever it is, and once more if the copy
that it goes on to write cannot be kept. A change counts nothing unless the cached copy cannot be
removed. So at rest the three counters together have risen by one for every read and by one for
every write and removal that failed.

How calls are answered is left open altogether.
-/

namespace StatusRegistry

open Program (Leads)
open Registry (counting filling finding retiring guarded)

/-- The counter that the outcome of a read of the cache belongs to. A text that is no status counts
as an error. -/
def Metric.ofRead : Except CacheError String → Metric
  | .ok text =>
    match Status.decode (Utf8.octets text) with
    | .ok _ => .hits
    | .error _ => .errors
  | .error e => if e.isMiss then .misses else .errors

/-- A hit is a text that is a status. -/
theorem Metric.ofRead_eq_hits {read : Except CacheError String} :
    Metric.ofRead read = .hits ↔
      ∃ text s, read = .ok text ∧ Status.decode (Utf8.octets text) = .ok s := by
  unfold Metric.ofRead
  rcases read with e | text
  · dsimp only
    split <;> simp
  · cases decoded : Status.decode (Utf8.octets text) with
    | error problem => simp [decoded]
    | ok s => simp [decoded]

namespace Exchange

/-- Whether a call adds one to a counter. -/
def counts (m : Metric) : Exchange → Bool
  | ⟨.count n, _⟩ => n = m
  | _ => false

/-- Whether a copy could not be kept. -/
def failsToKeep : Exchange → Bool
  | ⟨.cacheSet .., .error _⟩ => true
  | _ => false

/-- Whether a copy was to be removed. -/
def isRemoval : Exchange → Bool
  | ⟨.cacheDelete _, _⟩ => true
  | _ => false

/-- Whether a copy could not be removed. -/
def failsToRemove : Exchange → Bool
  | ⟨.cacheDelete _, .error _⟩ => true
  | _ => false

end Exchange

section

variable (log : List Exchange)

/-- By how much some calls have raised a counter. -/
def raised (m : Metric) : Nat := log.countP (Exchange.counts m)

/-- How many copies could not be kept. -/
def failedWrites : Nat := log.countP Exchange.failsToKeep

/-- How many copies could not be removed. -/
def failedRemovals : Nat := log.countP Exchange.failsToRemove

variable (later : List Exchange)

@[simp]
theorem raised_append (m : Metric) : raised (log ++ later) m = raised log m + raised later m :=
  List.countP_append

@[simp]
theorem failedWrites_append : failedWrites (log ++ later) = failedWrites log + failedWrites later :=
  List.countP_append

@[simp]
theorem failedRemovals_append :
    failedRemovals (log ++ later) = failedRemovals log + failedRemovals later :=
  List.countP_append

end

/-- What the counters say of a read that has ended: the outcome of its read of the cache is counted
once, and a failure to keep a copy once more among the errors. -/
structure ReadTallied (read : Except CacheError String) (log : List Exchange)
    (result : Except Failure Status) : Prop where
  raises : ∀ m, raised log m =
    (if m = .ofRead read then 1 else 0) + if m = .errors then failedWrites log else 0
  writes : failedWrites log ≤ 1
  removes : failedRemovals log = 0
  hits : Metric.ofRead read = .hits → ∃ text s, read = .ok text ∧
    Status.decode (Utf8.octets text) = .ok s ∧ result = .ok s

/-- What the counters say of a change that has ended: failed removals are counted among the errors
and nothing else is. There is one removal if a row was changed, and none otherwise. -/
structure ChangeTallied (id : Uuid) (log : List Exchange) : Prop where
  raises : ∀ m, raised log m = if m = .errors then failedRemovals log else 0
  changed : (∃ e ∈ log, e.changes id) →
    ∃ answer, log.filter Exchange.isRemoval = [⟨.cacheDelete (cacheKey id), answer⟩]
  unchanged : (∀ e ∈ log, ¬e.changes id) → log.filter Exchange.isRemoval = []
  writes : failedWrites log = 0

/-- What the counters say of a request that has ended, by what it was for. -/
def Operation.Tallied : (operation : Operation) → List Exchange →
    Except Failure operation.Result → Prop
  | .get id, log, result => ∃ read later, log = ⟨.cacheGet (cacheKey id), read⟩ :: later ∧
      (∀ e ∈ later, ∀ key, e.call ≠ .cacheGet key) ∧ ReadTallied read log result
  | .update _ id _, log, _ => ChangeTallied id log
  | .delete _ id, log, _ => ChangeTallied id log
  | _, log, _ => (∀ m, raised log m = 0) ∧ failedWrites log = 0 ∧ failedRemovals log = 0

/-- Whether an operation is a read of one status. -/
def Operation.isRead : Operation → Bool
  | .get _ => true
  | _ => false

/-- The count that follows a write to the cache or a removal from it. -/
def toll : Except CacheError Unit → List Exchange
  | .ok () => []
  | .error _ => [⟨.count .errors, ()⟩]

/-- The calls of a read that the cache gave nothing to be used, up to the answer of the store. -/
def lookup (id : Uuid) (read : Except CacheError String)
    (answer : Except StoreError (Option Status)) : List Exchange :=
  [⟨.cacheGet (cacheKey id), read⟩, ⟨.count (.ofRead read), ()⟩, ⟨.query (.findStatus id), answer⟩]

/-- The calls of a request that has ended. -/
inductive Ledger : (operation : Operation) → List Exchange → Except Failure operation.Result → Prop
  /-- A request other than a read made nothing but statements, and none of them changed a row. -/
  | plain {operation : Operation} {log : List Exchange} {result : Except Failure operation.Result}
      (other : operation.isRead = false) (asks : ∀ e ∈ log, World.isStatement e.call = true)
      (nothing : ∀ id, operation.target? = some id → ∀ e ∈ log, ¬e.changes id) :
      Ledger operation log result
  /-- A statement changed the row, and its copy was to be removed. -/
  | change {operation : Operation} {id : Uuid} {asked : List Exchange}
      {answer : Except CacheError Unit} {result : Except Failure operation.Result}
      (target : operation.target? = some id) (asks : ∀ e ∈ asked, World.isStatement e.call = true)
      (changes : ∃ e ∈ asked, e.changes id) :
      Ledger operation (asked ++ ⟨.cacheDelete (cacheKey id), answer⟩ :: toll answer) result
  /-- The cache gave a copy that could be read. -/
  | hit {id : Uuid} {text : String} {s : Status}
      (decodes : Status.decode (Utf8.octets text) = .ok s) :
      Ledger (.get id) [⟨.cacheGet (cacheKey id), .ok text⟩, ⟨.count .hits, ()⟩] (.ok s)
  /-- The cache gave nothing that could be used, and the store no row. -/
  | vain {id : Uuid} {read : Except CacheError String}
      {answer : Except StoreError (Option Status)} {failure : Failure}
      (useless : Metric.ofRead read ≠ .hits) :
      Ledger (.get id) (lookup id read answer) (.error failure)
  /-- The cache gave nothing that could be used, and a copy of the row was to be kept. -/
  | filled {id : Uuid} {read : Except CacheError String} {s : Status} {text : String}
      {lifetime : Nat} {answer : Except CacheError Unit} (useless : Metric.ofRead read ≠ .hits) :
      Ledger (.get id) (lookup id read (.ok (some s)) ++
        ⟨.cacheSet (cacheKey id) text lifetime, answer⟩ :: toll answer) (.ok s)

namespace Registry

variable {r : Registry} {α : Type} {id user : Uuid} {log : List Exchange}

/-- Once a removal has ended, it has been counted if it failed. -/
theorem ended_retiring {a : α} {result : Except Failure α}
    (here : Leads (retiring id a) log (.done result)) :
    ∃ answer, log = ⟨.cacheDelete (cacheKey id), answer⟩ :: toll answer := by
  unfold retiring at here
  cases here with
  | @ask _ _ answer _ _ onward =>
    refine ⟨answer, ?_⟩
    rcases answer with e | ⟨⟩
    · obtain ⟨-, ⟨⟩⟩ | ⟨later, rfl, ended⟩ := leads_counting onward
      obtain ⟨rfl, -⟩ := ended.of_done
      rfl
    · obtain ⟨rfl, -⟩ := Leads.of_done onward
      rfl

/-- Once a copy has been written, that has been counted if it failed. -/
theorem ended_filling {s : Status} {result : Except Failure Status}
    (here : Leads (r.filling id s) log (.done result)) :
    ∃ answer, log = ⟨.cacheSet (cacheKey id) s.toJson.text r.lifetime, answer⟩ :: toll answer ∧
      result = .ok s := by
  unfold filling at here
  cases here with
  | @ask _ _ answer _ _ onward =>
    refine ⟨answer, ?_⟩
    rcases answer with e | ⟨⟩
    · obtain ⟨-, ⟨⟩⟩ | ⟨later, rfl, ended⟩ := leads_counting onward
      obtain ⟨rfl, same⟩ := ended.of_done
      cases same
      exact ⟨rfl, rfl⟩
    · obtain ⟨rfl, same⟩ := Leads.of_done onward
      cases same
      exact ⟨rfl, rfl⟩

/-- The calls of a read that the cache gave nothing to be used. -/
theorem ledger_of_useless {read : Except CacheError String} {result : Except Failure Status}
    (useless : Metric.ofRead read ≠ .hits)
    (here : Leads (counting (.ofRead read) (finding id (r.filling id))) log (.done result)) :
    Ledger (.get id) (⟨.cacheGet (cacheKey id), read⟩ :: log) result := by
  obtain ⟨-, ⟨⟩⟩ | ⟨later, rfl, looks⟩ := leads_counting here
  obtain ⟨-, ⟨⟩⟩ | ⟨s, rest, rfl, fills⟩ | ⟨answer, failure, rfl, -, same⟩ := leads_finding looks
  · obtain ⟨answer, rfl, rfl⟩ := ended_filling fills
    exact .filled useless
  · cases same
    exact .vain useless

/-- The calls of a read that has ended. -/
theorem ledger_get {result : Except Failure Status}
    (here : Leads (r.serve (.get id)) log (.done result)) : Ledger (.get id) log result := by
  rw [serve_get] at here
  cases here with
  | @ask _ _ read _ _ onward =>
    rcases read with e | text
    · exact ledger_of_useless (by simp [Metric.ofRead_eq_hits]) onward
    · dsimp only at onward
      cases decoded : Status.decode (Utf8.octets text) with
      | error problem =>
        rw [decoded] at onward
        have outcome : Metric.ofRead (.ok text) = .errors := by
          simp only [Metric.ofRead, decoded]
        exact ledger_of_useless (outcome ▸ nofun) (outcome ▸ onward)
      | ok s =>
        rw [decoded] at onward
        obtain ⟨-, ⟨⟩⟩ | ⟨_, rfl, ended⟩ := leads_counting onward
        obtain ⟨rfl, same⟩ := ended.of_done
        cases same
        exact .hit decoded

variable {operation : Operation} {caller : Caller}

/-- The calls of a change by an identified caller that has ended. -/
theorem ledger_change {result : Except Failure operation.Result}
    (change : operation.IsChange caller id) (identity : caller.identified = .ok user)
    (here : Leads (r.serve operation) log (.done result)) : Ledger operation log result := by
  have other : operation.isRead = false := by cases change <;> rfl
  have looked : ∀ {answer}, ∀ e ∈ [(⟨.query (.findStatus id), answer⟩ : Exchange)],
      World.isStatement e.call = true := List.forall_mem_singleton.mpr rfl
  have found : ∀ {answer} id', operation.target? = some id' →
      ∀ e ∈ [(⟨.query (.findStatus id), answer⟩ : Exchange)], ¬e.changes id' :=
    fun _ _ => List.forall_mem_singleton.mpr fun changed => changed
  obtain ⟨core, isCore, same⟩ := r.serve_change change identity
  rw [same] at here
  obtain ⟨-, ⟨⟩⟩ | ⟨s, later, rfl, onward⟩ | ⟨answer, failure, rfl, -, -⟩ := leads_finding here
  · obtain ⟨-, inside⟩ | ⟨failure, -, rfl, -⟩ := leads_guarded onward
    · obtain ⟨-, asks⟩ | ⟨e, back, a, rfl, changed, retires⟩ |
        ⟨q, answer, failure, rfl, unchanged, -⟩ := isCore.leads inside
      · exact absurd rfl (asks result)
      · obtain ⟨answer, rfl⟩ := ended_retiring retires
        show Ledger operation ([_, e] ++ _) result
        refine .change change.target ?_ ⟨e, by simp, changed⟩
        refine List.forall_mem_cons.mpr ⟨rfl, List.forall_mem_singleton.mpr ?_⟩
        obtain ⟨_, _, _, rfl⟩ | ⟨_, _, rfl⟩ := Exchange.changes_cases changed <;> rfl
      · refine .plain other ?_ fun target same => ?_
        · exact List.forall_mem_cons.mpr ⟨rfl, List.forall_mem_singleton.mpr rfl⟩
        · refine List.forall_mem_cons.mpr ⟨fun changed => changed, ?_⟩
          exact List.forall_mem_singleton.mpr fun changed => unchanged (.inr ⟨target, changed⟩)
    · exact .plain other looked found
  · exact .plain other looked found

/-- A request that has ended without a call. -/
theorem ledger_of_done {result reached : Except Failure operation.Result}
    (other : operation.isRead = false) (here : Leads (.done reached) log (.done result)) :
    Ledger operation log result := by
  obtain ⟨rfl, -⟩ := here.of_done
  exact .plain other (fun _ member => absurd member List.not_mem_nil)
    fun _ _ _ member => absurd member List.not_mem_nil

/-- A request that is about no status with a copy in the cache makes nothing but statements. -/
theorem ledger_of_copyless {result : Except Failure operation.Result}
    (copyless : operation.copy? = none)
    (here : Leads (r.serve operation) log (.done result)) : Ledger operation log result := by
  refine .plain ?_ (fun e member => (r.makesOnly_serve copyless).of_mem here member) ?_
  · cases operation <;> first | rfl | cases copyless
  · intro id target
    cases operation <;> cases copyless <;> cases target

/-- The calls of a request that has ended are on the ledger. -/
theorem ledger {result : Except Failure operation.Result}
    (here : Leads (r.serve operation) log (.done result)) : Ledger operation log result := by
  cases operation with
  | get id => exact ledger_get here
  | update caller id revision =>
    cases identity : caller.identified with
    | error failure =>
      rw [serve_update, identity] at here
      exact ledger_of_done rfl here
    | ok user =>
      cases valid : revision.validate with
      | error failure =>
        rw [serve_update, identity] at here
        simp only [valid] at here
        exact ledger_of_done rfl here
      | ok _ => exact ledger_change (.update valid) identity here
  | delete caller id =>
    cases identity : caller.identified with
    | error failure =>
      rw [serve_delete, identity] at here
      exact ledger_of_done rfl here
    | ok user => exact ledger_change .delete identity here
  | _ => exact ledger_of_copyless rfl here

end Registry

/-- Statements raise no counter and ask nothing of the cache. -/
theorem silent_of_statements {log : List Exchange}
    (asks : ∀ e ∈ log, World.isStatement e.call = true) :
    (∀ m, raised log m = 0) ∧ failedWrites log = 0 ∧ failedRemovals log = 0 ∧
      log.filter Exchange.isRemoval = [] := by
  have quiet : ∀ e ∈ log, (∀ m, ¬e.counts m) ∧ ¬e.failsToKeep ∧ ¬e.failsToRemove ∧
      ¬e.isRemoval := by
    rintro ⟨c, answer⟩ member
    have statement := asks _ member
    cases c with
    | query q => exact ⟨nofun, nofun, nofun, nofun⟩
    | _ => cases statement
  refine ⟨fun m => ?_, ?_, ?_, ?_⟩
  · exact List.countP_eq_zero.mpr fun e member => (quiet e member).1 m
  · exact List.countP_eq_zero.mpr fun e member => (quiet e member).2.1
  · exact List.countP_eq_zero.mpr fun e member => (quiet e member).2.2.1
  · exact List.filter_eq_nil_iff.mpr fun e member => (quiet e member).2.2.2

/-- A removal from the cache and the count after it. -/
theorem tallies_removal (key : String) (answer : Except CacheError Unit) :
    let calls : List Exchange := ⟨.cacheDelete key, answer⟩ :: toll answer
    (∀ m, raised calls m = if m = .errors then failedRemovals calls else 0) ∧
      failedWrites calls = 0 ∧ calls.filter Exchange.isRemoval = [⟨.cacheDelete key, answer⟩] := by
  rcases answer with e | ⟨⟩
  · exact ⟨fun m => by cases m <;> rfl, rfl, rfl⟩
  · exact ⟨fun m => by cases m <;> rfl, rfl, rfl⟩

/-- A write to the cache and the count after it. -/
theorem tallies_write (key text : String) (lifetime : Nat) (answer : Except CacheError Unit) :
    let calls : List Exchange := ⟨.cacheSet key text lifetime, answer⟩ :: toll answer
    (∀ m, raised calls m = if m = .errors then failedWrites calls else 0) ∧
      failedWrites calls ≤ 1 ∧ failedRemovals calls = 0 ∧
      ∀ e ∈ calls, ∀ key, e.call ≠ .cacheGet key := by
  rcases answer with e | ⟨⟩
  · exact ⟨fun m => by cases m <;> rfl, Nat.le_refl 1, rfl, by simp [toll]⟩
  · exact ⟨fun m => by cases m <;> rfl, Nat.zero_le 1, rfl, by simp [toll]⟩

/-- A lookup counts the outcome of its read of the cache. -/
theorem raised_lookup (id : Uuid) (read : Except CacheError String)
    (answer : Except StoreError (Option Status)) (m : Metric) :
    raised (lookup id read answer) m = if m = .ofRead read then 1 else 0 := by
  unfold lookup
  cases m <;> cases Metric.ofRead read <;> rfl

variable {operation : Operation} {log : List Exchange} {result : Except Failure operation.Result}

/-- The calls on the ledger are tallied as their request is to be. -/
theorem Ledger.tallied (ledger : Ledger operation log result) : operation.Tallied log result := by
  cases ledger with
  | plain other asks nothing =>
    obtain ⟨silent, unwritten, unfailed, unremoved⟩ := silent_of_statements asks
    have change : ∀ {id}, operation.target? = some id → ChangeTallied id log := fun target =>
      ⟨fun m => by simp [silent, unfailed],
        fun ⟨e, member, changes⟩ => absurd changes (nothing _ target e member),
        fun _ => unremoved, unwritten⟩
    cases operation with
    | get id => cases other
    | update caller id revision => exact change rfl
    | delete caller id => exact change rfl
    | _ => exact ⟨silent, unwritten, unfailed⟩
  | @change _ id asked answer _ target asks changes =>
    obtain ⟨silent, unwritten, unfailed, unremoved⟩ := silent_of_statements asks
    obtain ⟨raises, spared, removes⟩ := tallies_removal (cacheKey id) answer
    obtain ⟨e, member, changed⟩ := changes
    have tallied :
        ChangeTallied id (asked ++ ⟨.cacheDelete (cacheKey id), answer⟩ :: toll answer) := by
      constructor
      case raises =>
        intro m
        rw [raised_append, failedRemovals_append, silent, unfailed, raises, Nat.zero_add,
          Nat.zero_add]
      case changed =>
        rw [List.filter_append, unremoved, removes]
        exact fun _ => ⟨answer, rfl⟩
      case unchanged =>
        exact fun nothing => absurd changed (nothing e (List.mem_append_left _ member))
      case writes => rw [failedWrites_append, unwritten, spared]
    cases operation with
    | update _ _ _ =>
      cases target
      exact tallied
    | delete _ _ =>
      cases target
      exact tallied
    | _ => cases target
  | hit decodes =>
    have outcome := Metric.ofRead_eq_hits.mpr ⟨_, _, rfl, decodes⟩
    refine ⟨_, _, rfl, List.forall_mem_singleton.mpr nofun, ?_, Nat.zero_le 1, rfl, ?_⟩
    · intro m
      rw [outcome]
      cases m <;> rfl
    · exact fun _ => ⟨_, _, rfl, decodes, rfl⟩
  | @vain id read answer failure useless =>
    refine ⟨_, _, rfl, by simp, fun m => ?_, Nat.zero_le 1, rfl,
      fun outcome => absurd outcome useless⟩
    have kept : failedWrites (lookup id read answer) = 0 := rfl
    rw [raised_lookup, kept, ite_self, Nat.add_zero]
  | @filled id read s text lifetime answer useless =>
    obtain ⟨raises, single, unremoved, unread⟩ := tallies_write (cacheKey id) text lifetime answer
    refine ⟨_, _, rfl, ?_, fun m => ?_, ?_, ?_, fun outcome => absurd outcome useless⟩
    · exact List.forall_mem_cons.mpr ⟨nofun, List.forall_mem_cons.mpr ⟨nofun, unread⟩⟩
    · rw [raised_append, raised_lookup, raises]
      rfl
    · exact single
    · exact unremoved

/-- The three counters together have risen by one for a read and by one for each write and removal
that failed. -/
theorem Operation.Tallied.total (tallied : operation.Tallied log result) :
    raised log .hits + raised log .misses + raised log .errors =
      (if operation.isRead then 1 else 0) + failedWrites log + failedRemovals log := by
  have change : ∀ {id}, ChangeTallied id log → raised log .hits + raised log .misses +
      raised log .errors = 0 + failedWrites log + failedRemovals log := by
    intro id tallied
    simp [tallied.raises, tallied.writes]
  cases operation with
  | get id =>
    obtain ⟨read, _, -, -, tallied⟩ := tallied
    rw [tallied.removes]
    simp only [tallied.raises]
    cases Metric.ofRead read <;> simp [Operation.isRead]
  | update caller id revision => exact change tallied
  | delete caller id => exact change tallied
  | _ =>
    obtain ⟨silent, unwritten, unfailed⟩ := tallied
    rw [silent, silent, silent, unwritten, unfailed]
    rfl

/-- The calls of all requests, with their answers, in order. -/
def journal (acts : List Act) : List Exchange :=
  acts.filterMap fun
    | .exchange _ e => some e
    | _ => none

/-- The requests that arrived, with their tickets, in order. -/
def arrivals (acts : List Act) : List (Nat × Operation) :=
  acts.filterMap fun
    | .arrive k operation => some (k, operation)
    | _ => none

/-- A number for one of some tickets. -/
theorem sum_at {tickets : List Nat} {j : Nat} (distinct : tickets.Nodup) (member : j ∈ tickets)
    (n : Nat) : (tickets.map fun k => if j = k then n else 0).sum = n := by
  rw [← List.sum_toFinset _ distinct, Finset.sum_ite_eq, if_pos (List.mem_toFinset.mpr member)]

/-- The elements with a property are counted one by one. -/
theorem countP_eq_sum {α : Type} (p : α → Bool) (l : List α) :
    l.countP p = (l.map fun a => if p a then 1 else 0).sum := by
  induction l with
  | nil => rfl
  | cons a l inductionHypothesis =>
    rw [List.countP_cons, List.map_cons, List.sum_cons, inductionHypothesis, Nat.add_comm]

/-- What is counted over the calls of all requests is counted request by request. -/
theorem countP_journal (p : Exchange → Bool) {acts : List Act} {tickets : List Nat}
    (distinct : tickets.Nodup) (given : ∀ k e, .exchange k e ∈ acts → k ∈ tickets) :
    (journal acts).countP p = (tickets.map fun k => (transcript k acts).countP p).sum := by
  induction acts with
  | nil => simp [journal, transcript]
  | cons act acts inductionHypothesis =>
    have rest := inductionHypothesis fun k e member => given k e (List.mem_cons_of_mem _ member)
    cases act with
    | exchange j e =>
      have known := given j e List.mem_cons_self
      have later : ∀ k, (transcript k (.exchange j e :: acts)).countP p =
          (if j = k then if p e then 1 else 0 else 0) + (transcript k acts).countP p := by
        intro k
        by_cases same : j = k <;> simp [transcript, same, List.countP_cons, Nat.add_comm]
      simp only [later, List.sum_map_add, sum_at distinct known, ← rest]
      simp [journal, List.countP_cons, Nat.add_comm]
    | _ => exact rest

namespace Traffic

variable {r : Registry} {around : Surroundings} {w : World} {acts : List Act} {t : Traffic}

/-- Tickets are given out one after the other. -/
theorem Runs.arrivals_eq (run : Runs r around (idle w) acts t) :
    (arrivals acts).map Prod.fst = List.range t.arrived := by
  induction run with
  | refl => rfl
  | step _ next inductionHypothesis =>
    unfold arrivals at inductionHypothesis ⊢
    rw [List.filterMap_append, List.map_append, inductionHypothesis]
    cases next with
    | arrive => exact List.range_succ.symm
    | _ => exact List.append_nil _

/-- Every request that arrived has a ticket and an operation of its own. -/
theorem mem_arrivals {k : Nat} {operation : Operation} :
    (k, operation) ∈ arrivals acts ↔ .arrive k operation ∈ acts := by
  simp only [arrivals, List.mem_filterMap]
  constructor
  · rintro ⟨act, member, found⟩
    cases act with
    | arrive j other =>
      cases found
      exact member
    | _ => cases found
  · exact fun member => ⟨_, member, rfl⟩

/-- A request that has ended was led to its end by all of its answers. -/
theorem Runs.finish_leads_transcript {k : Nat} {operation : Operation}
    {result : Except Failure operation.Result} (run : Runs r around (idle w) acts t)
    (finished : .finish k operation result ∈ acts) :
    Leads (r.serve operation) (transcript k acts) (.done result) := by
  obtain ⟨past, future, rfl⟩ := List.append_of_mem finished
  have silent : transcript k (.finish k operation result :: future) = [] := by
    refine List.eq_nil_iff_forall_not_mem.mpr fun e member => ?_
    obtain ⟨⟨⟩⟩ | later := List.mem_cons.mp (mem_transcript.mp member)
    rw [← List.singleton_append, ← List.append_assoc] at run
    exact run.silent_after_finish (List.mem_append_right past (List.mem_singleton.mpr rfl)) _ later
      rfl
  rw [transcript_append, silent, List.append_nil]
  exact run.finish_leads.2

/-- The counters add up. In any run in which no request is dropped, whatever the store and the cache
answer, the calls of each request are tallied once it has ended, and once all have, the three counters
together have risen by one for each read of a status and each write to the cache and removal from it
that failed. -/
theorem cache_counters_add_up (run : Runs r around (idle w) acts t) (undropped : ∀ k, .drop k ∉ acts)
    (quiet : t.IsIdle) :
    (∀ k operation, .arrive k operation ∈ acts → ∃ result, .finish k operation result ∈ acts ∧
      operation.Tallied (transcript k acts) result) ∧
    raised (journal acts) .hits + raised (journal acts) .misses + raised (journal acts) .errors =
      (arrivals acts).countP (·.2.isRead) + failedWrites (journal acts) +
        failedRemovals (journal acts) := by
  have tallied : ∀ k operation, .arrive k operation ∈ acts → ∃ result,
      .finish k operation result ∈ acts ∧ operation.Tallied (transcript k acts) result := by
    intro k operation arrives
    obtain ⟨result, finished⟩ := run.finishes_of_undropped quiet (undropped k) arrives
    exact ⟨result, finished,
      (Registry.ledger (run.finish_leads_transcript finished)).tallied⟩
  refine ⟨tallied, ?_⟩
  have distinct : ((arrivals acts).map Prod.fst).Nodup := run.arrivals_eq ▸ List.nodup_range
  have given : ∀ k e, .exchange k e ∈ acts → k ∈ (arrivals acts).map Prod.fst := by
    intro k e member
    obtain ⟨past, future, rfl⟩ := List.append_of_mem member
    obtain ⟨operation, _, arrives, -⟩ := run.exchange_leads
    exact List.mem_map_of_mem (mem_arrivals.mpr (List.mem_append_left _ arrives))
  have shared : ∀ p, (journal acts).countP p =
      ((arrivals acts).map fun a => (transcript a.1 acts).countP p).sum := by
    intro p
    rw [countP_journal p distinct given, List.map_map]
    rfl
  unfold raised failedWrites failedRemovals
  rw [shared, shared, shared, shared, shared, countP_eq_sum, ← List.sum_map_add, ← List.sum_map_add,
    ← List.sum_map_add, ← List.sum_map_add]
  refine congrArg List.sum (List.map_congr_left fun a member => ?_)
  obtain ⟨result, -, tallies⟩ := tallied a.1 a.2 (mem_arrivals.mp member)
  exact tallies.total

end Traffic

namespace Sample

/-- A read beside a cache that fails. The copy can neither be read nor be kept. -/
def troubledRead : List Act := [
  .arrive 0 (.get row.id),
  .exchange 0 ⟨.cacheGet (cacheKey row.id), .error (.connection "unreachable")⟩,
  .exchange 0 ⟨.count .errors, ()⟩,
  .exchange 0 ⟨.query (.findStatus row.id), .ok (some row)⟩,
  .exchange 0 ⟨.cacheSet (cacheKey row.id) row.toJson.text 300, .error (.connection "unreachable")⟩,
  .exchange 0 ⟨.count .errors, ()⟩,
  .finish 0 (.get row.id) (.ok row)]

open Traffic in
/-- The read is a run, and it is the only request of it. -/
theorem runs_troubledRead : ∃ t, Runs registry .unreliable (idle world) troubledRead t ∧
    t.IsIdle := by
  refine ⟨?traffic, ?run, ?quiet⟩
  case run =>
    refine .cons .arrive ?_
    refine .cons (.exchange rfl (.inr rfl)) ?_
    refine .cons (.exchange rfl (.inl ⟨isSound, _, rfl⟩)) ?_
    refine .cons (.exchange rfl (.inl ⟨isSound, _, rfl⟩)) ?_
    refine .cons (.exchange rfl (.inr (.inl rfl))) ?_
    refine .cons (.exchange rfl (.inl ⟨isSound, _, rfl⟩)) ?_
    refine .cons (.finish rfl) ?_
    exact .refl
  case quiet => rintro (_ | k) <;> rfl

end Sample

open Sample Traffic in
/-- The read is counted twice among the errors: once for its read of the cache and once for the copy
that could not be kept. -/
theorem troubled_read_counts_twice : ∃ t, Runs registry .unreliable (idle world) troubledRead t ∧
    (∀ k, .drop k ∉ troubledRead) ∧ t.IsIdle ∧
    (∃ result, .finish 0 (.get row.id) result ∈ troubledRead ∧
      (Operation.get row.id).Tallied (transcript 0 troubledRead) result) ∧
    raised (journal troubledRead) .hits + raised (journal troubledRead) .misses +
      raised (journal troubledRead) .errors = 1 + 1 + 0 ∧
    raised (journal troubledRead) .errors = 2 := by
  obtain ⟨t, run, quiet⟩ := runs_troubledRead
  have undropped : ∀ k, .drop k ∉ troubledRead := by simp [troubledRead]
  obtain ⟨tallied, total⟩ := cache_counters_add_up run undropped quiet
  exact ⟨t, run, undropped, quiet, tallied 0 _ List.mem_cons_self, total, rfl⟩

end StatusRegistry
