import StatusRegistry.Proofs.Operation
import StatusRegistry.Proofs.Surroundings

/-!
# What a cache has influence on

Here the cache is of any make: it answers every call as it likes. A program is blind if whatever its
other calls are answered, it goes on with the same statements to the same end. Every operation but a
read is blind, and a read is blind once the cache has given it nothing that can be used.
-/

namespace StatusRegistry

open Registry (Service counting finding filling guarded lookedUp refused removing retiring revising
  IsUseless)

/-- A cache of any make. What it answers is up to it, and may depend on all that it was asked
before. -/
structure AnyCache where
  State : Type
  get : State → String → Except CacheError String × State
  set : State → String → String → Nat → Except CacheError Unit × State
  delete : State → String → Except CacheError Unit × State
  health : State → Bool × String

/-- A call that a program made, with the answer if there ever was one. -/
structure Asked where
  call : Call
  answer : Option call.Answer

/-- What came of a program that ran beside some cache: its value, if it ended, the world after it, and
its calls in order. -/
structure Account (α : Type) where
  value : Option α
  world : World
  calls : List Asked

/-- The statement that a call makes. -/
def Call.statement? : Call → Option Statement
  | .query q => some q
  | _ => none

/-- Whether a call is made to a cache. -/
def Call.isToCache : Call → Bool
  | .query _ => false
  | .count _ => false
  | _ => true

/-- The statements that a program made, with their parameters. -/
def Account.statements {α : Type} (account : Account α) : List Statement :=
  account.calls.filterMap (·.call.statement?)

namespace AnyCache

/-- The answer to a call beside some cache. Only statements reach the world. -/
def answer (k : AnyCache) (state : k.State) (w : World) :
    (c : Call) → Option c.Answer × World × k.State
  | .query q => ((w.answerQuery q).value, (w.answerQuery q).world, state)
  | .cacheGet key => (some (k.get state key).1, w, (k.get state key).2)
  | .cacheSet key text lifetime =>
    (some (k.set state key text lifetime).1, w, (k.set state key text lifetime).2)
  | .cacheDelete key => (some (k.delete state key).1, w, (k.delete state key).2)
  | .cacheHealth => (some (k.health state), w, state)
  | .count _ => (some (), w, state)

/-- Runs a program in a world to its end, beside some cache. -/
def run {α : Type} (k : AnyCache) (state : k.State) (w : World) : Program α → Account α
  | .done a => ⟨some a, w, []⟩
  | .call c next =>
    match k.answer state w c with
    | (none, after, _) => ⟨none, after, [⟨c, none⟩]⟩
    | (some answer, after, later) =>
      let rest := k.run later after (next answer)
      { rest with calls := ⟨c, some answer⟩ :: rest.calls }

end AnyCache

namespace Program

variable {α : Type}

/-- A program without its calls but for the statements, as if the cache never had anything and never
failed. -/
def withoutCache : Program α → Program α
  | .done a => .done a
  | .call (.query q) next => .call (.query q) fun answer => (next answer).withoutCache
  | .call (.cacheGet key) next => (next (.error (.miss key))).withoutCache
  | .call (.cacheSet ..) next => (next (.ok ())).withoutCache
  | .call (.cacheDelete _) next => (next (.ok ())).withoutCache
  | .call .cacheHealth next => (next (false, "")).withoutCache
  | .call (.count _) next => (next ()).withoutCache

/-- Whatever its calls but for the statements are answered, a program goes on in the same way. -/
def IsBlind : Program α → Prop
  | .done _ => True
  | .call c next => (World.isStatement c = false →
      ∀ answer, (next answer).withoutCache = (call c next).withoutCache) ∧
    ∀ answer, (next answer).IsBlind

/-- A program makes no calls but those that are allowed. -/
def MakesOnly (allowed : Call → Bool) : Program α → Prop
  | .done _ => True
  | .call c next => allowed c = true ∧ ∀ answer, (next answer).MakesOnly allowed

/-- A program that makes only allowed calls is about to make one wherever its answers lead. -/
theorem MakesOnly.leads {allowed : Call → Bool} {p : Program α} {past : List Exchange} {c : Call}
    {next : c.Answer → Program α} (makes : p.MakesOnly allowed) (here : Leads p past (.call c next)) :
    allowed c = true := by
  generalize same : call c next = rest at here
  induction here with
  | here =>
    subst same
    exact makes.1
  | ask _ inductionHypothesis => exact inductionHypothesis (makes.2 _) same

/-- A program that makes no calls but statements is blind. -/
theorem MakesOnly.isBlind {p : Program α} (makes : p.MakesOnly World.isStatement) : p.IsBlind := by
  induction p with
  | done a => trivial
  | call c next inductionHypothesis =>
    refine ⟨fun other => ?_, fun answer => inductionHypothesis answer (makes.2 answer)⟩
    rw [makes.1] at other
    cases other

end Program

/-- Two accounts differ at most in the calls that are no statements. -/
structure Account.Agrees {α : Type} (first second : Account α) : Prop where
  value : first.value = second.value
  world : first.world = second.world
  statements : first.statements = second.statements

namespace AnyCache

variable {α : Type} {p : Program α} {w : World}

/-- A call that is answered is made, and the program goes on with the answer. -/
theorem run_ask {k : AnyCache} {state later : k.State} {after : World} {c : Call} {answer : c.Answer}
    (given : k.answer state w c = (some answer, after, later)) (next : c.Answer → Program α) :
    k.run state w (.call c next) =
      ⟨(k.run later after (next answer)).value, (k.run later after (next answer)).world,
        ⟨c, some answer⟩ :: (k.run later after (next answer)).calls⟩ := by
  simp only [run, given]

/-- A call that is never answered is the last one. -/
theorem run_wait {k : AnyCache} {state later : k.State} {after : World} {c : Call}
    (given : k.answer state w c = (none, after, later)) (next : c.Answer → Program α) :
    k.run state w (.call c next) = ⟨none, after, [⟨c, none⟩]⟩ := by
  simp only [run, given]

/-- A statement is answered by the world. -/
theorem answer_query {k : AnyCache} {state : k.State} {q : Statement}
    {value : Option (Except StoreError q.Result)} (answered : (w.answerQuery q).value = value) :
    k.answer state w (.query q) = (value, (w.answerQuery q).world, state) := by
  rw [← answered]
  rfl

/-- A call that is no statement is answered and does not reach the world. -/
theorem answer_other (k : AnyCache) (state : k.State) (w : World) {c : Call}
    (other : World.isStatement c = false) :
    ∃ answer later, k.answer state w c = (some answer, w, later) := by
  cases c with
  | query q => cases other
  | _ => exact ⟨_, _, rfl⟩

/-- A program that makes no calls but statements calls no cache. -/
theorem calls_of_makesOnly (k : AnyCache) (state : k.State) (w : World)
    (makes : p.MakesOnly World.isStatement) :
    ∀ asked ∈ (k.run state w p).calls, asked.call.isToCache = false := by
  induction p generalizing state w with
  | done a => exact fun _ member => absurd member List.not_mem_nil
  | call c next inductionHypothesis =>
    obtain ⟨statement, onward⟩ := makes
    have quiet : c.isToCache = false := by
      cases c <;> first | rfl | cases statement
    unfold run
    split
    · exact List.forall_mem_singleton.mpr quiet
    · exact List.forall_mem_cons.mpr ⟨quiet, inductionHypothesis _ _ _ (onward _)⟩

/-- A blind program runs beside any cache as it does without one. -/
theorem agrees_withoutCache (k k' : AnyCache) (state : k.State) (state' : k'.State) (w : World)
    (blind : p.IsBlind) : (k.run state w p).Agrees (k'.run state' w p.withoutCache) := by
  induction p generalizing state w with
  | done a => exact ⟨rfl, rfl, rfl⟩
  | call c next inductionHypothesis =>
    obtain ⟨same, onward⟩ := blind
    cases other : World.isStatement c with
    | false =>
      obtain ⟨answer, later, given⟩ := k.answer_other state w other
      rw [run_ask given, ← same other answer]
      have rest := inductionHypothesis answer later w (onward answer)
      cases c with
      | query q => cases other
      | _ => exact ⟨rest.value, rest.world, rest.statements⟩
    | true =>
      cases c with
      | query q =>
        unfold Program.withoutCache
        cases answered : (w.answerQuery q).value with
        | none =>
          rw [run_wait (answer_query answered), run_wait (answer_query answered)]
          exact ⟨rfl, rfl, rfl⟩
        | some answer =>
          rw [run_ask (answer_query answered), run_ask (answer_query answered)]
          have rest := inductionHypothesis answer state (w.answerQuery q).world (onward answer)
          exact ⟨rest.value, rest.world, congrArg (q :: ·) rest.statements⟩
      | _ => cases other

end AnyCache

namespace Registry

open Program (IsBlind MakesOnly Leads)

variable {α : Type} {r : Registry} {id user : Uuid} {s : Status} {caller : Caller}

/-- A count does not make a program see. -/
theorem isBlind_counting {m : Metric} {rest : Program α} (blind : rest.IsBlind) :
    (counting m rest).IsBlind :=
  ⟨fun _ _ => rfl, fun _ => blind⟩

/-- The removal of a cached copy is blind. -/
theorem isBlind_retiring (id : Uuid) (a : α) : (retiring id a).IsBlind := by
  refine ⟨fun _ answer => ?_, fun answer => ?_⟩
  · rcases answer with e | ⟨⟩ <;> rfl
  · rcases answer with e | ⟨⟩
    · exact isBlind_counting trivial
    · trivial

/-- The filling of the cache is blind. -/
theorem isBlind_filling (r : Registry) (id : Uuid) (s : Status) : (r.filling id s).IsBlind := by
  refine ⟨fun _ answer => ?_, fun answer => ?_⟩
  · rcases answer with e | ⟨⟩ <;> rfl
  · rcases answer with e | ⟨⟩
    · exact isBlind_counting trivial
    · trivial

/-- A lookup is as blind as what follows it. -/
theorem isBlind_finding {next : Status → Service α} (blind : ∀ s, (next s).IsBlind) :
    (finding id next).IsBlind := by
  refine ⟨nofun, ?_⟩
  rintro (e | (_ | s))
  · trivial
  · trivial
  · exact blind s

/-- A guarded program is as blind as the program. -/
theorem isBlind_guarded {rest : Service α} (blind : rest.IsBlind) :
    (r.guarded user s rest).IsBlind := by
  unfold guarded
  cases r.checkOwner s user with
  | ok _ => exact blind
  | error failure => trivial

/-- Replacing the content of a row is blind. -/
theorem isBlind_revising (id user : Uuid) (revision : Revision) :
    (revising id user revision).IsBlind := by
  refine ⟨nofun, ?_⟩
  rintro (e | (_ | s))
  · trivial
  · trivial
  · exact isBlind_retiring id s

/-- Marking a row as deleted is blind. -/
theorem isBlind_removing (id : Uuid) : (removing id).IsBlind := by
  refine ⟨nofun, ?_⟩
  rintro (e | (n : Nat))
  · trivial
  · by_cases zero : n = 0
    · simp only [if_pos zero]
      trivial
    · simp only [if_neg zero]
      exact isBlind_retiring id ()

end Registry

/-- The status that may have a copy in the cache and that an operation is about. -/
def Operation.copy? : Operation → Option Uuid
  | .update _ id _ => some id
  | .get id => some id
  | .delete _ id => some id
  | _ => none

namespace Registry

open Program (IsBlind MakesOnly Leads)

variable {α : Type} {allowed : Call → Bool} {user id : Uuid}

/-- The removal of a cached copy is one call of the cache, and perhaps a count. -/
theorem makesOnly_retiring (removes : allowed (.cacheDelete (cacheKey id)) = true)
    (counts : ∀ m, allowed (.count m) = true) (a : α) : (retiring id a).MakesOnly allowed := by
  refine ⟨removes, ?_⟩
  rintro (e | ⟨⟩)
  · exact ⟨counts _, fun _ => trivial⟩
  · trivial

/-- A lookup asks the store, and then makes the calls of what follows it. -/
theorem makesOnly_finding {next : Status → Service α} (asks : ∀ q, allowed (.query q) = true)
    (makes : ∀ s, (next s).MakesOnly allowed) : (finding id next).MakesOnly allowed := by
  refine ⟨asks _, ?_⟩
  rintro (e | (_ | s))
  · trivial
  · trivial
  · exact makes s

/-- A guarded program makes the calls of the program. -/
theorem makesOnly_guarded (r : Registry) (s : Status) {rest : Service α}
    (makes : rest.MakesOnly allowed) : (r.guarded user s rest).MakesOnly allowed := by
  unfold guarded
  cases r.checkOwner s user with
  | ok _ => exact makes
  | error failure => trivial

end Registry

/-- The calls that an operation may make. Only a read reads or fills the cache, only a change removes
from it, and both keep to the copy of their own status. -/
def Operation.mayCall : Operation → Call → Bool
  | _, .query _ => true
  | .get id, .cacheGet key => key == cacheKey id
  | .get id, .cacheSet key _ _ => key == cacheKey id
  | .update _ id _, .cacheDelete key => key == cacheKey id
  | .delete _ id, .cacheDelete key => key == cacheKey id
  | operation, .count _ => operation.copy?.isSome
  | _, _ => false

namespace Registry

/-- An operation makes no calls but those that it may make. -/
theorem makesOnly_mayCall (r : Registry) (operation : Operation) :
    (r.serve operation).MakesOnly operation.mayCall := by
  cases operation with
  | create caller draft =>
    rw [serve_create]
    cases caller.identified with
    | error failure => trivial
    | ok user =>
      cases draft.validate with
      | error failure => trivial
      | ok _ =>
        refine ⟨rfl, ?_⟩
        rintro (e | row) <;> trivial
  | update caller id revision =>
    rw [serve_update]
    cases caller.identified with
    | error failure => trivial
    | ok user =>
      cases revision.validate with
      | error failure => trivial
      | ok _ =>
        refine makesOnly_finding (fun _ => rfl) fun s => makesOnly_guarded r s ⟨rfl, ?_⟩
        rintro (e | (_ | s))
        · trivial
        · trivial
        · have retires : (retiring id s).MakesOnly (Operation.update caller id revision).mayCall :=
            makesOnly_retiring (beq_self_eq_true (cacheKey id)) (fun _ => rfl) s
          exact retires
  | get id =>
    have found : (finding id (r.filling id)).MakesOnly (Operation.get id).mayCall := by
      refine makesOnly_finding (fun _ => rfl) fun s => ⟨beq_self_eq_true _, ?_⟩
      rintro (e | ⟨⟩)
      · exact ⟨rfl, fun _ => trivial⟩
      · trivial
    rw [serve_get]
    refine ⟨beq_self_eq_true _, ?_⟩
    rintro (e | text)
    · exact ⟨rfl, fun _ => found⟩
    · dsimp only
      cases Status.decode (Utf8.octets text) with
      | ok s => exact ⟨rfl, fun _ => trivial⟩
      | error problem => exact ⟨rfl, fun _ => found⟩
  | delete caller id =>
    rw [serve_delete]
    cases caller.identified with
    | error failure => trivial
    | ok user =>
      refine makesOnly_finding (fun _ => rfl) fun s => makesOnly_guarded r s ⟨rfl, ?_⟩
      rintro (e | (n : Nat))
      · trivial
      · by_cases zero : n = 0
        · simp only [if_pos zero]
          trivial
        · simp only [if_neg zero]
          exact makesOnly_retiring (beq_self_eq_true (cacheKey id)) (fun _ => rfl) ()
  | list request filter =>
    rw [serve_list]
    refine ⟨rfl, ?_⟩
    rintro (e | (total : Int64))
    · trivial
    · by_cases nothing : total = 0
      · simp only [if_pos nothing]
        trivial
      · simp only [if_neg nothing]
        refine ⟨rfl, ?_⟩
        rintro (e | rows) <;> trivial
  | search text request =>
    rw [serve_search]
    refine ⟨rfl, ?_⟩
    rintro (e | (total : Int64))
    · trivial
    · by_cases nothing : total = 0
      · simp only [if_pos nothing]
        trivial
      · simp only [if_neg nothing]
        refine ⟨rfl, ?_⟩
        rintro (e | rows) <;> trivial

/-- An operation that is about no status with a copy in the cache only asks the store. -/
theorem makesOnly_serve (r : Registry) {operation : Operation} (none : operation.copy? = none) :
    (r.serve operation).MakesOnly World.isStatement := by
  have only : operation.mayCall = World.isStatement := by
    funext c
    cases operation <;> cases none <;> cases c <;> rfl
  exact only ▸ r.makesOnly_mayCall operation

/-- Every operation but a read is blind. -/
theorem isBlind_serve (r : Registry) {operation : Operation} (changes : ∀ id, operation ≠ .get id) :
    (r.serve operation).IsBlind := by
  cases operation with
  | get id => exact absurd rfl (changes id)
  | update caller id revision =>
    rw [serve_update]
    cases caller.identified with
    | error failure => trivial
    | ok user =>
      cases revision.validate with
      | error failure => trivial
      | ok _ => exact isBlind_finding fun _ => isBlind_guarded (isBlind_revising id user revision)
  | delete caller id =>
    rw [serve_delete]
    cases caller.identified with
    | error failure => trivial
    | ok user => exact isBlind_finding fun _ => isBlind_guarded (isBlind_removing id)
  | _ => exact (r.makesOnly_serve rfl).isBlind

end Registry

/-- A failure that follows from the caller, the input, the rows or an error of the store. -/
inductive Failure.IsFounded (past : List Exchange) : Failure → Prop
  | caller : IsFounded past (Failure.unauthorized "No caller identity")
  | input {fields : List (String × String)} : IsFounded past (Failure.invalidFields fields)
  | missing {id : Uuid} : IsFounded past (Failure.statusNotFound id)
  | gone {id : Uuid} : IsFounded past (Failure.statusGone id)
  | owner {id : Uuid} : IsFounded past (Failure.notOwner id)
  | store {q : Statement} {e : StoreError} (failed : ⟨.query q, .error e⟩ ∈ past) :
      IsFounded past (e.toFailure.withOperation q.name)

/-- Where a program has failed, the failure is founded. -/
def FailsFounded {α : Type} (past : List Exchange) (rest : Service α) : Prop :=
  ∀ failure, rest = .done (.error failure) → failure.IsFounded past

namespace FailsFounded

open Program (Along)

variable {α : Type} {r : Registry} {past : List Exchange} {id user : Uuid} {s : Status}

/-- A program that ends in a founded failure. -/
theorem of_failure {failure : Failure} (founded : failure.IsFounded past) :
    Along FailsFounded past (.done (.error failure) : Service α) := by
  rintro _ ⟨⟩
  exact founded

/-- A program that ends in success does not fail. -/
theorem of_success (past : List Exchange) (a : α) :
    Along FailsFounded past (.done (.ok a) : Service α) := nofun

/-- A refusal by the store is founded on its error. -/
theorem of_refused (q : Statement) (e : StoreError) :
    Along FailsFounded (past ++ [⟨.query q, .error e⟩]) (refused q e : Service α) :=
  of_failure (.store (by simp))

/-- The removal of a cached copy does not fail. -/
theorem along_retiring (id : Uuid) (a : α) : Along FailsFounded past (retiring id a) := by
  refine ⟨nofun, ?_⟩
  rintro (e | ⟨⟩)
  · exact ⟨nofun, fun _ => of_success _ a⟩
  · exact of_success _ a

/-- The filling of the cache does not fail. -/
theorem along_filling (r : Registry) (id : Uuid) (s : Status) :
    Along FailsFounded past (r.filling id s) := by
  refine ⟨nofun, ?_⟩
  rintro (e | ⟨⟩)
  · exact ⟨nofun, fun _ => of_success _ s⟩
  · exact of_success _ s

/-- A lookup fails for want of the row, by an error of the store, or as what follows it. -/
theorem along_finding {next : Status → Service α}
    (onward : ∀ s past, Along FailsFounded past (next s)) :
    Along FailsFounded past (finding id next) := by
  refine ⟨nofun, ?_⟩
  rintro (e | (_ | s))
  · exact of_refused _ e
  · exact of_failure .missing
  · exact onward s _

/-- A guarded program fails by its guard or as the program does. -/
theorem along_guarded {rest : Service α} (onward : Along FailsFounded past rest) :
    Along FailsFounded past (r.guarded user s rest) := by
  unfold guarded
  cases check : r.checkOwner s user with
  | ok _ => exact onward
  | error failure =>
    simp only [Registry.checkOwner] at check
    split at check
    · cases check
      exact of_failure .owner
    · cases check

/-- A caller without an identity is refused for it. -/
theorem of_unidentified {caller : Caller} {failure : Failure}
    (unidentified : caller.identified = .error failure) :
    Along FailsFounded past (.done (.error failure) : Service α) := by
  unfold Caller.identified at unidentified
  split at unidentified
  · cases unidentified
    exact of_failure .caller
  · cases unidentified

/-- Input out of bounds is refused for it. -/
theorem of_invalid {problems : List (String × String)} {failure : Failure}
    (invalid : checkFields problems = .error failure) :
    Along FailsFounded past (.done (.error failure) : Service α) := by
  unfold checkFields at invalid
  split at invalid
  · cases invalid
  · cases invalid
    exact of_failure .input

/-- Every operation fails only by a founded failure. -/
theorem along_serve (r : Registry) (operation : Operation) :
    Along FailsFounded [] (r.serve operation) := by
  cases operation with
  | create caller draft =>
    rw [Registry.serve_create]
    cases identity : caller.identified with
    | error failure => exact of_unidentified identity
    | ok user =>
      cases valid : draft.validate with
      | error failure => exact of_invalid valid
      | ok _ =>
        refine ⟨nofun, ?_⟩
        rintro (e | row)
        · exact of_refused _ e
        · exact of_success _ _
  | update caller id revision =>
    rw [Registry.serve_update]
    cases identity : caller.identified with
    | error failure => exact of_unidentified identity
    | ok user =>
      cases valid : revision.validate with
      | error failure => exact of_invalid valid
      | ok _ =>
        refine along_finding fun existing past => along_guarded ⟨nofun, ?_⟩
        rintro (e | (_ | s))
        · exact of_refused _ e
        · exact of_failure .missing
        · exact along_retiring id s
  | get id =>
    rw [Registry.serve_get]
    have looks : ∀ past, Along FailsFounded past (finding id (r.filling id)) :=
      fun past => along_finding fun s past => along_filling r id s
    refine ⟨nofun, ?_⟩
    rintro (e | text)
    · exact ⟨nofun, fun _ => looks _⟩
    · dsimp only
      cases Status.decode (Utf8.octets text) with
      | ok s => exact ⟨nofun, fun _ => of_success _ s⟩
      | error problem => exact ⟨nofun, fun _ => looks _⟩
  | delete caller id =>
    rw [Registry.serve_delete]
    cases identity : caller.identified with
    | error failure => exact of_unidentified identity
    | ok user =>
      refine along_finding fun existing past => along_guarded ⟨nofun, ?_⟩
      rintro (e | (n : Nat))
      · exact of_refused _ e
      · by_cases zero : n = 0
        · simp only [if_pos zero]
          exact of_failure .gone
        · simp only [if_neg zero]
          exact along_retiring id ()
  | list request filter =>
    rw [Registry.serve_list]
    refine ⟨nofun, ?_⟩
    rintro (e | (total : Int64))
    · exact of_refused _ e
    · by_cases nothing : total = 0
      · simp only [if_pos nothing]
        exact of_success _ _
      · simp only [if_neg nothing]
        refine ⟨nofun, ?_⟩
        rintro (e | rows)
        · exact of_refused _ e
        · exact of_success _ _
  | search text request =>
    rw [Registry.serve_search]
    refine ⟨nofun, ?_⟩
    rintro (e | (total : Int64))
    · exact of_refused _ e
    · by_cases nothing : total = 0
      · simp only [if_pos nothing]
        exact of_success _ _
      · simp only [if_neg nothing]
        refine ⟨nofun, ?_⟩
        rintro (e | rows)
        · exact of_refused _ e
        · exact of_success _ _

end FailsFounded

/-- A read without a usable copy is one lookup: it ends as the lookup ends, and it writes to the cache
only if the lookup found a row. -/
structure IsLookedUp (w : World) (id : Uuid) (account : Account (Except Failure Status)) : Prop where
  value : account.value = (w.answerQuery (.findStatus id)).value.map (lookedUp id)
  world : account.world = (w.answerQuery (.findStatus id)).world
  statements : account.statements = [.findStatus id]
  sets : ∀ asked ∈ account.calls, ∀ key text lifetime, asked.call = .cacheSet key text lifetime →
    ∃ s, (w.answerQuery (.findStatus id)).value = some (.ok (some s))

/-- A call that has been answered, among the calls that a program made. -/
def Exchange.asked (e : Exchange) : Asked := ⟨e.call, some e.answer⟩

namespace AnyCache

open Program (Leads)

variable {α : Type} {k : AnyCache} {state : k.State} {w : World} {r : Registry} {id : Uuid}

/-- A program that has ended has had its calls answered. -/
theorem leads_of_ended {p : Program α} {a : α} (ended : (k.run state w p).value = some a) :
    ∃ past : List Exchange, (k.run state w p).calls = past.map Exchange.asked ∧
      Leads p past (.done a) := by
  induction p generalizing state w with
  | done b =>
    cases ended
    exact ⟨[], rfl, .here⟩
  | call c next inductionHypothesis =>
    match given : k.answer state w c with
    | (none, after, later) =>
      rw [run_wait given] at ended
      cases ended
    | (some answer, after, later) =>
      rw [run_ask given] at ended ⊢
      obtain ⟨past, calls, leads⟩ := inductionHypothesis answer ended
      exact ⟨⟨c, answer⟩ :: past, congrArg (⟨c, some answer⟩ :: ·) calls, .ask leads⟩

/-- A lookup that keeps a copy of what it finds is a lookup. -/
theorem isLookedUp_finding (k : AnyCache) (state : k.State) (w : World) (r : Registry) (id : Uuid) :
    IsLookedUp w id (k.run state w (finding id (r.filling id))) := by
  unfold finding
  cases found : (w.answerQuery (.findStatus id)).value with
  | none =>
    rw [run_wait (answer_query found)]
    refine ⟨by rw [found]; rfl, rfl, rfl, ?_⟩
    rintro _ (_ | ⟨_, ⟨⟩⟩) _ _ _ ⟨⟩
  | some answer =>
    rw [run_ask (answer_query found)]
    rcases answer with e | (_ | s)
    · refine ⟨by rw [found]; rfl, rfl, rfl, ?_⟩
      rintro _ (_ | ⟨_, ⟨⟩⟩) _ _ _ ⟨⟩
    · refine ⟨by rw [found]; rfl, rfl, rfl, ?_⟩
      rintro _ (_ | ⟨_, ⟨⟩⟩) _ _ _ ⟨⟩
    · have rest := agrees_withoutCache k k state state (w.answerQuery (.findStatus id)).world
        (Registry.isBlind_filling r id s)
      refine ⟨?_, rest.world, congrArg (Statement.findStatus id :: ·) rest.statements, ?_⟩
      · rw [found]
        exact rest.value
      · exact fun _ _ _ _ _ _ => ⟨s, found⟩

/-- A read of the cache is answered by the cache. -/
theorem answer_cacheGet {key : String} {read : Except CacheError String}
    (given : (k.get state key).1 = read) :
    k.answer state w (.cacheGet key) = (some read, w, (k.get state key).2) := by
  rw [← given]
  rfl

/-- A read that counts and goes on with the store is a lookup. -/
theorem isLookedUp_counting {read : Except CacheError String} {m : Metric}
    {next : (Call.cacheGet (cacheKey id)).Answer → Service Status}
    (given : (k.get state (cacheKey id)).1 = read)
    (same : next read = counting m (finding id (r.filling id))) :
    IsLookedUp w id (k.run state w (.call (.cacheGet (cacheKey id)) next)) := by
  have looks := k.isLookedUp_finding (k.get state (cacheKey id)).2 w r id
  rw [run_ask (answer_cacheGet given), same, counting, run_ask rfl]
  refine ⟨looks.value, looks.world, looks.statements, ?_⟩
  rintro asked member key text lifetime sets
  rcases List.mem_cons.mp member with rfl | member
  · cases sets
  rcases List.mem_cons.mp member with rfl | member
  · cases sets
  exact looks.sets asked member key text lifetime sets

/-- A read goes on with the store when the cache gives it nothing that can be used. -/
theorem isLookedUp_get (useless : IsUseless (k.get state (cacheKey id)).1) :
    IsLookedUp w id (k.run state w (r.serve (.get id))) := by
  rw [Registry.serve_get]
  cases read : (k.get state (cacheKey id)).1 with
  | error e => exact isLookedUp_counting read rfl
  | ok text =>
    obtain ⟨problem, undecoded⟩ := useless text read
    refine isLookedUp_counting (r := r) (m := .errors) read ?_
    simp only [undecoded]
    rfl

/-- A read gives a copy that can be read, and asks the store nothing. -/
theorem run_hit {text : String} {s : Status} (read : (k.get state (cacheKey id)).1 = .ok text)
    (decoded : Status.decode (Utf8.octets text) = .ok s) :
    (k.run state w (r.serve (.get id))).value = some (.ok s) ∧
      (k.run state w (r.serve (.get id))).world = w ∧
      (k.run state w (r.serve (.get id))).statements = [] := by
  rw [Registry.serve_get, run_ask (answer_cacheGet read)]
  simp only [decoded]
  exact ⟨rfl, rfl, rfl⟩

end AnyCache

namespace World

/-- A world with the cache of another. -/
def withCacheOf (u v : World) : World :=
  { u with cache := v.cache, cacheFaults := v.cacheFaults, now := v.now }

end World

namespace AnyCache

/-- The cache of a world, with whatever is set to fail there. -/
def own : AnyCache where
  State := World
  get v key := ((v.answerGet key).2.1, (v.answerGet key).2.2)
  set v key text lifetime :=
    ((v.answerSet key text lifetime).2.1, (v.answerSet key text lifetime).2.2)
  delete v key := ((v.answerDelete key).2.1, (v.answerDelete key).2.2)
  health v := (v.answerHealth.2, v.cache.backend.name)

/-- A world answers a call as it does beside its own cache. -/
theorem answer_own (u v : World) (c : Call) : ∃ events, (u.withCacheOf v).answer c =
    ⟨(own.answer v u c).1, (own.answer v u c).2.1.withCacheOf (own.answer v u c).2.2, events⟩ := by
  cases c with
  | query q =>
    refine ⟨(u.answerQuery q).events, ?_⟩
    obtain ⟨store, faults, connection, cache, cacheFaults, now⟩ := u
    cases connection with
    | closed => rfl
    | occupied => rfl
    | free =>
      simp only [World.answer, answer, World.answerQuery, World.withCacheOf]
      rcases faults.lookup q.name with _ | (e | _) <;> rfl
  | cacheGet key =>
    refine ⟨(v.answerGet key).1, ?_⟩
    simp only [World.answer, answer, own, World.answerGet, World.withCacheOf]
    cases v.cacheFaults.lookup .get <;> rfl
  | cacheSet key text lifetime =>
    refine ⟨(v.answerSet key text lifetime).1, ?_⟩
    simp only [World.answer, answer, own, World.answerSet, World.withCacheOf]
    cases v.cacheFaults.lookup .set <;> rfl
  | cacheDelete key =>
    refine ⟨(v.answerDelete key).1, ?_⟩
    simp only [World.answer, answer, own, World.answerDelete, World.withCacheOf]
    cases v.cacheFaults.lookup .delete <;> rfl
  | cacheHealth => exact ⟨v.answerHealth.1, rfl⟩
  | count m => exact ⟨[.counted m], rfl⟩

/-- A program that runs in a world runs beside the cache of that world. -/
theorem run_own {α : Type} (u v : World) (p : Program α) :
    ((u.withCacheOf v).run p).value = (own.run v u p).value ∧
      ((u.withCacheOf v).run p).world.store = (own.run v u p).world.store := by
  induction p generalizing u v with
  | done a => exact ⟨rfl, rfl⟩
  | call c next inductionHypothesis =>
    obtain ⟨events, answered⟩ := answer_own u v c
    match given : own.answer v u c with
    | (none, after, later) =>
      rw [given] at answered
      rw [run_wait given]
      simp only [World.run, answered]
      exact ⟨trivial, rfl⟩
    | (some answer, after, later) =>
      rw [given] at answered
      rw [run_ask given]
      simp only [World.run, answered]
      exact inductionHypothesis answer after later

end AnyCache

/-- What an operation other than a read gives in a world and leaves in its store does not depend on
the cache of the world. -/
theorem Registry.run_eq_of_caches (r : Registry) {operation : Operation}
    (changes : ∀ id, operation ≠ .get id) (w v : World) :
    ((w.withCacheOf v).run (r.serve operation)).value = (w.run (r.serve operation)).value ∧
      ((w.withCacheOf v).run (r.serve operation)).world.store =
        (w.run (r.serve operation)).world.store := by
  have blind := r.isBlind_serve changes
  have first := AnyCache.own.agrees_withoutCache .own v w w blind
  have second := AnyCache.own.agrees_withoutCache .own w w w blind
  obtain ⟨value, store⟩ := AnyCache.run_own w v (r.serve operation)
  obtain ⟨ownValue, ownStore⟩ := AnyCache.run_own w w (r.serve operation)
  exact ⟨value.trans ((first.value.trans second.value.symm).trans ownValue.symm),
    store.trans ((congrArg World.store (first.world.trans second.world.symm)).trans ownStore.symm)⟩

/-- Beside any two caches, every operation but a read makes the same statements, gives the same and
leaves the same world, and creations, listings and searches call no cache. A read to which the cache
gives nothing that can be used is one lookup, and one to which it gives a readable copy asks the store
nothing. No failure is an error of the cache. -/
theorem cache_influences_only_hits (r : Registry) (w : World) :
    (∀ (operation : Operation) (k k' : AnyCache) (state : k.State) (state' : k'.State),
      (∀ id, operation ≠ .get id) →
      (k.run state w (r.serve operation)).Agrees (k'.run state' w (r.serve operation))) ∧
    (∀ (operation : Operation) (k : AnyCache) (state : k.State), operation.copy? = none →
      ∀ asked ∈ (k.run state w (r.serve operation)).calls, asked.call.isToCache = false) ∧
    (∀ (id : Uuid) (k : AnyCache) (state : k.State), IsUseless (k.get state (cacheKey id)).1 →
      IsLookedUp w id (k.run state w (r.serve (.get id)))) ∧
    (∀ (id : Uuid) (k : AnyCache) (state : k.State) (text : String) (s : Status),
      (k.get state (cacheKey id)).1 = .ok text → Status.decode (Utf8.octets text) = .ok s →
      (k.run state w (r.serve (.get id))).value = some (.ok s) ∧
        (k.run state w (r.serve (.get id))).world = w ∧
        (k.run state w (r.serve (.get id))).statements = []) ∧
    ∀ (operation : Operation) (k : AnyCache) (state : k.State) (failure : Failure),
      (k.run state w (r.serve operation)).value = some (.error failure) →
      ∃ past : List Exchange, (k.run state w (r.serve operation)).calls = past.map Exchange.asked ∧
        failure.IsFounded past := by
  refine ⟨?_, ?_, ?_, ?_, ?_⟩
  · intro operation k k' state state' changes
    have blind := r.isBlind_serve changes
    have first := k.agrees_withoutCache k state state w blind
    have second := k'.agrees_withoutCache k state' state w blind
    exact ⟨first.value.trans second.value.symm, first.world.trans second.world.symm,
      first.statements.trans second.statements.symm⟩
  · exact fun operation k state none => k.calls_of_makesOnly state w (r.makesOnly_serve none)
  · exact fun id k state useless => AnyCache.isLookedUp_get useless
  · exact fun id k state text s read decoded => AnyCache.run_hit read decoded
  · intro operation k state failure failed
    obtain ⟨past, calls, leads⟩ := AnyCache.leads_of_ended failed
    exact ⟨past, calls, (FailsFounded.along_serve r operation).leads leads failure rfl⟩

/-- A cache that fails in every call. -/
def Sample.brokenCache : AnyCache where
  State := Unit
  get _ _ := (.error (.connection "unreachable"), ())
  set _ _ _ _ := (.error (.connection "unreachable"), ())
  delete _ _ := (.error (.connection "unreachable"), ())
  health _ := (false, "broken")

open Sample in
/-- Beside a cache that fails in every call a status is read from the store, and it is deleted as it is
beside the cache of the world. -/
theorem broken_cache_goes_unnoticed :
    (brokenCache.run () world (registry.serve (.get row.id))).value = some (.ok row) ∧
      (brokenCache.run () world (registry.serve (.get row.id))).statements = [.findStatus row.id] ∧
      (brokenCache.run () world (registry.serve (.delete ⟨owner⟩ row.id))).Agrees
        (AnyCache.own.run world world (registry.serve (.delete ⟨owner⟩ row.id))) := by
  obtain ⟨blind, -, looks, -, -⟩ := cache_influences_only_hits registry world
  have looked := looks row.id brokenCache () nofun
  exact ⟨looked.value, looked.statements, blind _ brokenCache .own () world nofun⟩

end StatusRegistry
