import StatusRegistry.Proofs.Operation

/-!
# The course of a request

A read does nothing that could be noticed until it fills the cache. An update and a deletion run the
same way: the row is looked up, its creator is compared with the caller where ownership is enforced,
and only then does a statement change the row. Each part is inverted here once, and the course of a
request sums the parts up: what the request has done at any of its points is read off without
opening its program again.
-/

namespace StatusRegistry

open Program (Leads)
open Conduct (isIdle)

/-- The status whose row a statement is to change. -/
def Statement.target? : Statement → Option Uuid
  | .updateStatus id .. => some id
  | .deleteStatus id => some id
  | _ => none

/-- A deletion of a status, or an update of it with content that may be stored, asked for by a
caller. -/
inductive Operation.IsChange (caller : Caller) (id : Uuid) : Operation → Prop where
  | update {revision : Revision} (valid : revision.validate = .ok ()) :
      IsChange caller id (.update caller id revision)
  | delete : IsChange caller id (.delete caller id)

/-- The statement by which an operation is to write to the table of statuses, in the name of its
caller. -/
inductive Operation.Asks (caller : Caller) : Operation → Statement → Prop where
  | create {draft : Draft} :
      Asks caller (.create caller draft) (.createStatus draft caller.user)
  | update {id : Uuid} {revision : Revision} :
      Asks caller (.update caller id revision) (.updateStatus id caller.user revision)
  | delete {id : Uuid} : Asks caller (.delete caller id) (.deleteStatus id)

/-- Whether an operation is to write to the table of statuses. -/
def Operation.writes : Operation → Bool
  | .create .. => true
  | .update .. => true
  | .delete .. => true
  | _ => false

/-- A statement wrote to the table of statuses: it inserted a row or changed one. -/
def Exchange.Wrote (e : Exchange) : Prop :=
  (∃ draft owner row, e = ⟨.query (.createStatus draft owner), .ok row⟩) ∨ ∃ id, e.changes id

/-- Whether a statement may write to the table of statuses. -/
def Statement.writes : Statement → Bool
  | .createStatus .. => true
  | .updateStatus .. => true
  | .deleteStatus _ => true
  | _ => false

/-- Whether a call may write to the cache. -/
def Call.writesCache : Call → Bool
  | .cacheSet .. => true
  | .cacheDelete _ => true
  | _ => false

/-- A statement is idle unless it may write. -/
theorem Conduct.isIdle_query (q : Statement) : isIdle (.query q) = !q.writes := by
  cases q <;> rfl

/-- Only a statement that may write writes, and only if it succeeds. -/
theorem Exchange.Wrote.query {e : Exchange} (wrote : e.Wrote) :
    ∃ q result, e = ⟨.query q, .ok result⟩ ∧ q.writes = true := by
  rcases wrote with ⟨_, _, _, rfl⟩ | ⟨_, changed⟩
  · exact ⟨_, _, rfl, rfl⟩
  · obtain ⟨_, _, _, rfl⟩ | ⟨_, _, rfl⟩ := changes_cases changed <;> exact ⟨_, _, rfl, rfl⟩

/-- An idle call writes nothing. -/
theorem Exchange.not_wrote_of_idle {e : Exchange} (idle : isIdle e.call = true) : ¬e.Wrote := by
  intro wrote
  obtain ⟨q, _, rfl, writes⟩ := wrote.query
  rw [Conduct.isIdle_query, writes] at idle
  cases idle

/-- An idle call asks nothing of the cache but to be read. -/
theorem Call.writesCache_of_idle {c : Call} (idle : isIdle c = true) : c.writesCache = false := by
  cases c <;> first | rfl | cases idle

/-- An idle call neither writes a status nor asks the cache to change. -/
theorem Exchange.quiet_of_idle {e : Exchange} (idle : isIdle e.call = true) :
    ¬e.Wrote ∧ e.call.writesCache = false :=
  ⟨not_wrote_of_idle idle, Call.writesCache_of_idle idle⟩

/-- A statement that failed wrote nothing. -/
theorem Exchange.not_wrote_of_error {q : Statement} {e : StoreError} :
    ¬Exchange.Wrote ⟨.query q, .error e⟩ := by
  rintro (⟨_, _, _, ⟨⟩⟩ | ⟨_, changed⟩)
  obtain ⟨_, _, _, ⟨⟩⟩ | ⟨_, _, ⟨⟩⟩ := changes_cases changed

/-- A change is aimed at its status. -/
theorem Operation.IsChange.target {caller : Caller} {id : Uuid} {operation : Operation}
    (change : operation.IsChange caller id) : operation.target? = some id := by
  cases change <;> rfl

namespace Registry

variable {r : Registry} {α : Type} {user id : Uuid} {s : Status} {past : List Exchange}
  {rest point : Service α}

/-- What has become of a lookup: it has not been answered, it found a row and the program went on
with it, or it found none and the program ended. -/
theorem leads_finding {next : Status → Service α} (here : Leads (finding id next) past point) :
    (past = [] ∧ point = finding id next) ∨
    (∃ s later, past = ⟨.query (.findStatus id), .ok (some s)⟩ :: later ∧
      Leads (next s) later point) ∨
    ∃ answer failure, past = [⟨.query (.findStatus id), answer⟩] ∧
      (∀ s, answer ≠ .ok (some s)) ∧ point = .done (.error failure) := by
  unfold finding at here
  cases here with
  | here => exact .inl ⟨rfl, rfl⟩
  | @ask _ _ answer later _ onward =>
    refine .inr ?_
    rcases answer with e | (_ | s)
    · obtain ⟨rfl, rfl⟩ := onward.of_done
      exact .inr ⟨.error e, _, rfl, nofun, rfl⟩
    · obtain ⟨rfl, rfl⟩ := Leads.of_done onward
      exact .inr ⟨.ok none, _, rfl, nofun, rfl⟩
    · exact .inl ⟨s, later, rfl, onward⟩

/-- A guarded program runs if its guard lets the user pass, and has failed otherwise. -/
theorem leads_guarded (here : Leads (r.guarded user s rest) past point) :
    (r.checkOwner s user = .ok () ∧ Leads rest past point) ∨
    ∃ failure, r.checkOwner s user = .error failure ∧ past = [] ∧
      point = .done (.error failure) := by
  unfold guarded at here
  cases check : r.checkOwner s user with
  | ok _ =>
    rw [check] at here
    exact .inl ⟨rfl, here⟩
  | error failure =>
    rw [check] at here
    obtain ⟨rfl, rfl⟩ := here.of_done
    exact .inr ⟨failure, rfl, rfl, rfl⟩

/-- A count is made before the program goes on. -/
theorem leads_counting {m : Metric} (here : Leads (counting m rest) past point) :
    (past = [] ∧ point = counting m rest) ∨
    ∃ later, past = ⟨.count m, ()⟩ :: later ∧ Leads rest later point := by
  unfold counting at here
  cases here with
  | here => exact .inl ⟨rfl, rfl⟩
  | ask onward => exact .inr ⟨_, rfl, onward⟩

/-- What has become of the filling of the cache: it has not been answered, or it has and nothing but
a count is left before the program ends in success. -/
theorem leads_filling {point : Service Status} (here : Leads (r.filling id s) past point) :
    (past = [] ∧ point = r.filling id s) ∨
    ∃ answer counts, past = ⟨.cacheSet (cacheKey id) s.toJson.text r.lifetime, answer⟩ :: counts ∧
      (∀ e ∈ counts, e = ⟨.count .errors, ()⟩) ∧
      (∀ c next, point = .call c next → c = .count .errors) ∧
      ∀ result, point = .done result → result = .ok s := by
  unfold filling at here
  cases here with
  | here => exact .inl ⟨rfl, rfl⟩
  | @ask _ _ answer counts _ onward =>
    refine .inr ⟨answer, counts, rfl, ?_⟩
    have uncounted : ∀ e ∈ ([] : List Exchange), e = ⟨.count .errors, ()⟩ :=
      fun _ member => absurd member List.not_mem_nil
    rcases answer with failure | ⟨⟩
    · obtain ⟨rfl, rfl⟩ | ⟨later, rfl, ended⟩ := leads_counting onward
      · exact ⟨uncounted, by rintro _ _ ⟨⟩; rfl, nofun⟩
      · obtain ⟨rfl, rfl⟩ := ended.of_done
        exact ⟨List.forall_mem_singleton.mpr rfl, nofun, by rintro _ ⟨⟩; rfl⟩
    · obtain ⟨rfl, rfl⟩ := Leads.of_done onward
      exact ⟨uncounted, nofun, by rintro _ ⟨⟩; rfl⟩

/-- Where ownership is enforced, the guard lets nobody but the creator pass. -/
theorem checkOwner_ok (enforced : r.enforceOwnership = true)
    (passes : r.checkOwner s user = .ok ()) : s.createdBy = user := by
  simp only [checkOwner, enforced, Bool.true_and] at passes
  split at passes
  · cases passes
  · rename_i owned
    simpa [Status.isOwnedBy] using owned

/-- Where ownership is enforced, the guard refuses everybody but the creator. -/
theorem checkOwner_error (enforced : r.enforceOwnership = true) (other : s.createdBy ≠ user) :
    r.checkOwner s user = .error (Failure.notOwner s.id) := by
  simp [checkOwner, enforced, Status.isOwnedBy, other]

/-- A program that looks a status up and keeps a copy of it makes no other call that could be
noticed. -/
theorem leads_finding_filling {point : Service Status}
    (here : Leads (finding id (r.filling id)) past point) :
    (∀ e ∈ past, isIdle e.call = true) ∧ (∀ c next, point = .call c next → isIdle c = true) ∨
    ∃ front s later, past = front ++ later ∧ (∀ e ∈ front, isIdle e.call = true) ∧
      Leads (r.filling id s) later point := by
  obtain ⟨rfl, rfl⟩ | ⟨s, later, rfl, onward⟩ | ⟨answer, _, rfl, -, rfl⟩ := leads_finding here
  · refine .inl ⟨fun _ member => absurd member List.not_mem_nil, ?_⟩
    rintro _ _ ⟨⟩
    rfl
  · exact .inr ⟨[_], s, later, rfl, List.forall_mem_singleton.mpr rfl, onward⟩
  · exact .inl ⟨List.forall_mem_singleton.mpr rfl, nofun⟩

/-- A read makes idle calls until it fills the cache with a row. -/
theorem leads_get {point : Service Status} (here : Leads (r.serve (.get id)) past point) :
    (∀ e ∈ past, isIdle e.call = true) ∧ (∀ c next, point = .call c next → isIdle c = true) ∨
    ∃ front s later, past = front ++ later ∧ (∀ e ∈ front, isIdle e.call = true) ∧
      Leads (r.filling id s) later point := by
  have missed : ∀ {read : Except CacheError String} {m : Metric} {calls : List Exchange},
      Leads (counting m (finding id (r.filling id))) calls point →
      past = ⟨.cacheGet (cacheKey id), read⟩ :: calls →
      (∀ e ∈ past, isIdle e.call = true) ∧ (∀ c next, point = .call c next → isIdle c = true) ∨
      ∃ front s later, past = front ++ later ∧ (∀ e ∈ front, isIdle e.call = true) ∧
        Leads (r.filling id s) later point := by
    rintro read m calls onward rfl
    obtain ⟨rfl, rfl⟩ | ⟨later, rfl, looks⟩ := leads_counting onward
    · refine .inl ⟨List.forall_mem_singleton.mpr rfl, ?_⟩
      rintro _ _ ⟨⟩
      rfl
    · rcases leads_finding_filling looks with ⟨idle, asks⟩ | ⟨front, s, rest, rfl, idle, filled⟩
      · refine .inl ⟨?_, asks⟩
        exact List.forall_mem_cons.mpr ⟨rfl, List.forall_mem_cons.mpr ⟨rfl, idle⟩⟩
      · refine .inr ⟨_ :: _ :: front, s, rest, rfl, ?_, filled⟩
        exact List.forall_mem_cons.mpr ⟨rfl, List.forall_mem_cons.mpr ⟨rfl, idle⟩⟩
  rw [serve_get] at here
  cases here with
  | here =>
    refine .inl ⟨fun _ member => absurd member List.not_mem_nil, ?_⟩
    rintro _ _ ⟨⟩
    rfl
  | @ask _ _ answer calls _ onward =>
    rcases answer with e | text
    · exact missed onward rfl
    · dsimp only at onward
      cases decoded : Status.decode (Utf8.octets text) with
      | error problem =>
        rw [decoded] at onward
        exact missed onward rfl
      | ok s =>
        rw [decoded] at onward
        obtain ⟨rfl, rfl⟩ | ⟨later, rfl, ended⟩ := leads_counting onward
        · refine .inl ⟨List.forall_mem_singleton.mpr rfl, ?_⟩
          rintro _ _ ⟨⟩
          rfl
        · obtain ⟨rfl, rfl⟩ := ended.of_done
          refine .inl ⟨?_, nofun⟩
          exact List.forall_mem_cons.mpr ⟨rfl, List.forall_mem_singleton.mpr rfl⟩

/-- Copies are kept for the lifetime of the registry. -/
theorem lifetime_of_fills {operation : Operation} {key text : String} {lifetime : Nat}
    {next : Except CacheError Unit → Service operation.Result}
    (here : Leads (r.serve operation) past (.call (.cacheSet key text lifetime) next)) :
    lifetime = r.lifetime := by
  obtain ⟨id, _, rfl, -⟩ := (r.conduct here).fills _ _ _ _ rfl
  rcases leads_get here with ⟨-, asks⟩ | ⟨_, s, later, -, -, filled⟩
  · cases asks _ _ rfl
  · obtain ⟨-, same⟩ | ⟨_, _, -, -, asks, -⟩ := leads_filling filled
    · cases same
      rfl
    · cases asks _ _ rfl

variable {operation : Operation} {caller : Caller}

/-- A program makes one statement aimed at a row. If that changed the row, the program removes the
cached copy and succeeds, and otherwise it fails. -/
def IsCore (id : Uuid) (core : Service α) : Prop :=
  ∃ q next, core = .call (.query q) next ∧ q.target? = some id ∧ ∀ answer,
    (Exchange.changes id ⟨.query q, answer⟩ ∧ ∃ a, next answer = retiring id a) ∨
    (¬Exchange.Wrote ⟨.query q, answer⟩ ∧ ∃ failure, next answer = .done (.error failure))

/-- A statement aimed at a row that did not change it wrote nothing. -/
theorem not_wrote_of_target {q : Statement} {answer : Except StoreError q.Result}
    (target : q.target? = some id) (unchanged : ¬Exchange.changes id ⟨.query q, answer⟩) :
    ¬Exchange.Wrote ⟨.query q, answer⟩ := by
  rintro (⟨_, _, _, same⟩ | ⟨other, changed⟩)
  · cases same
    cases target
  · obtain ⟨_, _, _, same⟩ | ⟨_, _, same⟩ := Exchange.changes_cases changed
    all_goals
      cases same
      cases target
      exact unchanged changed

/-- Replacing the content of a row is a core. -/
theorem isCore_revising (id user : Uuid) (revision : Revision) :
    IsCore id (revising id user revision) := by
  refine ⟨_, _, rfl, rfl, ?_⟩
  rintro (e | (_ | s))
  · exact .inr ⟨not_wrote_of_target rfl fun changed => False.elim changed, _, rfl⟩
  · exact .inr ⟨not_wrote_of_target rfl fun changed => False.elim changed, _, rfl⟩
  · exact .inl ⟨rfl, s, rfl⟩

/-- Marking a row as deleted is a core. -/
theorem isCore_removing (id : Uuid) : IsCore id (removing id) := by
  refine ⟨_, _, rfl, rfl, ?_⟩
  rintro (e | (n : Nat))
  · exact .inr ⟨not_wrote_of_target rfl fun changed => False.elim changed, _, rfl⟩
  · by_cases zero : n = 0
    · exact .inr ⟨not_wrote_of_target rfl fun changed => changed.2 zero, _, if_pos zero⟩
    · exact .inl ⟨⟨rfl, zero⟩, (), if_neg zero⟩

/-- A change by an identified caller is a lookup, a guard and a core. -/
theorem serve_change (r : Registry) (change : operation.IsChange caller id)
    (identity : caller.identified = .ok user) :
    ∃ core, IsCore id core ∧
      r.serve operation = finding id fun existing => r.guarded user existing core := by
  cases change with
  | update valid =>
    rw [serve_update, identity]
    simp only [valid]
    exact ⟨_, isCore_revising _ _ _, rfl⟩
  | delete =>
    rw [serve_delete, identity]
    exact ⟨_, isCore_removing _, rfl⟩

/-- A request that is about to change a row is a change by an identified caller. -/
theorem isChange_of_target {q : Statement}
    {next : Call.Answer (.query q) → Service operation.Result}
    (target : q.target? = some id) (here : Leads (r.serve operation) past (.call (.query q) next)) :
    ∃ caller, operation.IsChange caller id ∧ caller.identified = .ok caller.user := by
  have conduct := r.conduct here
  cases q with
  | updateStatus _ _ revision =>
    cases target
    obtain ⟨caller, rfl, -⟩ := conduct.revises _ _ _ _ rfl
    rw [serve_update] at here
    cases identity : caller.identified with
    | error failure =>
      rw [identity] at here
      cases here
    | ok user =>
      obtain rfl := identified_eq identity
      rw [identity] at here
      cases valid : revision.validate with
      | error failure =>
        simp only [valid] at here
        cases here
      | ok _ => exact ⟨caller, .update valid, identity⟩
  | deleteStatus _ =>
    cases target
    obtain ⟨caller, rfl⟩ := conduct.removes _ _ rfl
    rw [serve_delete] at here
    cases identity : caller.identified with
    | error failure =>
      rw [identity] at here
      cases here
    | ok user =>
      obtain rfl := identified_eq identity
      exact ⟨caller, .delete, identity⟩
  | _ => cases target

/-- A creation that is about to make a statement is one by an identified caller. -/
theorem identified_of_creation {draft : Draft} {q : Statement}
    {next : Call.Answer (.query q) → Service Status}
    (here : Leads (r.serve (.create caller draft)) past (.call (.query q) next)) :
    caller.identified = .ok caller.user := by
  rw [serve_create] at here
  cases identity : caller.identified with
  | error failure =>
    rw [identity] at here
    cases here
  | ok user => rw [identified_eq identity]

/-- A request that is about to write is for an operation that asks for it, by an identified
caller. -/
theorem asks_of_writes {q : Statement} {next : Call.Answer (.query q) → Service operation.Result}
    (writes : q.writes = true) (here : Leads (r.serve operation) past (.call (.query q) next)) :
    ∃ caller, caller.identified = .ok caller.user ∧ operation.Asks caller q := by
  have conduct := r.conduct here
  cases q with
  | createStatus draft owner =>
    obtain ⟨caller, rfl, rfl⟩ := conduct.inserts _ _ _ rfl
    exact ⟨caller, identified_of_creation here, .create⟩
  | updateStatus id user revision =>
    obtain ⟨caller, change, identity⟩ := isChange_of_target rfl here
    obtain ⟨_, rfl, rfl⟩ := conduct.revises _ _ _ _ rfl
    cases change
    exact ⟨caller, identity, .update⟩
  | deleteStatus id =>
    obtain ⟨caller, change, identity⟩ := isChange_of_target rfl here
    obtain ⟨_, rfl⟩ := conduct.removes _ _ rfl
    cases change
    exact ⟨caller, identity, .delete⟩
  | _ => cases writes

/-- A request that is about to change a row has looked the row up, and its caller has passed the
guard with what it found. -/
theorem guarded_of_target {q : Statement} {next : Call.Answer (.query q) → Service operation.Result}
    (target : q.target? = some id) (here : Leads (r.serve operation) past (.call (.query q) next)) :
    ∃ caller s, operation.IsChange caller id ∧
      ⟨.query (.findStatus id), .ok (some s)⟩ ∈ past ∧ r.checkOwner s caller.user = .ok () := by
  obtain ⟨caller, change, identity⟩ := isChange_of_target target here
  obtain ⟨core, -, same⟩ := r.serve_change change identity
  rw [same] at here
  obtain ⟨-, asks⟩ | ⟨s, later, rfl, onward⟩ | ⟨_, _, -, -, ended⟩ := leads_finding here
  · cases asks
    cases target
  · obtain ⟨passes, -⟩ | ⟨_, -, -, ended⟩ := leads_guarded onward
    · exact ⟨caller, s, change, List.mem_cons_self, passes⟩
    · cases ended
  · cases ended

/-- Where ownership is enforced, a change by anybody but the creator of the row that its lookup
finds is that lookup and a refusal. -/
theorem refuses_others {rest : Service operation.Result} (enforced : r.enforceOwnership = true)
    (change : operation.IsChange caller id) (identity : caller.identified = .ok user)
    (here : Leads (r.serve operation) past rest)
    (finds : ∀ answer, ⟨.query (.findStatus id), answer⟩ ∈ past →
      ∃ s, answer = .ok (some s) ∧ s.id = id ∧ s.createdBy ≠ user) :
    (past = [] ∧ ∃ next, rest = .call (.query (.findStatus id)) next) ∨
    ∃ s, past = [⟨.query (.findStatus id), .ok (some s)⟩] ∧
      rest = .done (.error (Failure.notOwner id)) := by
  obtain ⟨core, -, same⟩ := r.serve_change change identity
  rw [same] at here
  obtain ⟨rfl, rfl⟩ | ⟨s, later, rfl, onward⟩ | ⟨answer, _, rfl, unfound, -⟩ := leads_finding here
  · exact .inl ⟨rfl, _, rfl⟩
  · obtain ⟨_, ⟨⟩, sameId, other⟩ := finds _ List.mem_cons_self
    have refused := checkOwner_error enforced other
    obtain ⟨passes, -⟩ | ⟨failure, check, rfl, rfl⟩ := leads_guarded onward
    · rw [refused] at passes
      cases passes
    · rw [refused] at check
      cases check
      exact .inr ⟨s, rfl, by rw [sameId]⟩
  · obtain ⟨s, found, -⟩ := finds answer List.mem_cons_self
    exact absurd found (unfound s)

/-- What has become of a core: its statement has not been answered, it has changed the row, or it
has not and the program has failed. -/
theorem IsCore.leads {core point : Service α} (isCore : IsCore id core)
    (here : Leads core past point) :
    (past = [] ∧ ∀ result, point ≠ .done result) ∨
    (∃ e later a, past = e :: later ∧ e.changes id ∧ Leads (retiring id a) later point) ∨
    ∃ q answer failure, past = [⟨.query q, answer⟩] ∧ ¬Exchange.Wrote ⟨.query q, answer⟩ ∧
      point = .done (.error failure) := by
  obtain ⟨q, next, rfl, target, goes⟩ := isCore
  cases here with
  | here => exact .inl ⟨rfl, nofun⟩
  | @ask _ _ answer later _ onward =>
    rcases goes answer with ⟨changed, a, retires⟩ | ⟨unchanged, failure, fails⟩
    · rw [retires] at onward
      exact .inr (.inl ⟨_, later, a, rfl, changed, onward⟩)
    · rw [fails] at onward
      obtain ⟨rfl, rfl⟩ := onward.of_done
      exact .inr (.inr ⟨q, answer, failure, rfl, unchanged, rfl⟩)

end Registry

open Registry

/-- What a request has come to. Up to the one statement that may write, or the filling of the cache,
it makes idle calls only. -/
inductive Course (operation : Operation) (past : List Exchange)
    (point : Service operation.Result) : Prop where
  /-- Nothing could have been noticed so far. -/
  | idle (calls : ∀ e ∈ past, isIdle e.call = true)
      (ends : ∀ a, point = .done (.ok a) → operation.writes = false)
  /-- The statement wrote nothing, and the request has failed. -/
  | vain {front : List Exchange} {q : Statement} {answer : Except StoreError q.Result}
      (split : past = front ++ [⟨.query q, answer⟩])
      (calls : ∀ e ∈ front, isIdle e.call = true) (nothing : ¬Exchange.Wrote ⟨.query q, answer⟩)
      (fails : ∃ failure, point = .done (.error failure))
  /-- The statement inserted a row. -/
  | creation {caller : Caller} {draft : Draft} {owner : Uuid} {row : Status}
      (creates : operation = .create caller draft)
      (single : past = [⟨.query (.createStatus draft owner), .ok row⟩])
      (ends : ∀ result, point = .done result → ∃ a, result = .ok a)
  /-- The statement changed a row. -/
  | change {id : Uuid} {front later : List Exchange} {e : Exchange} {a : operation.Result}
      (target : operation.target? = some id) (split : past = front ++ e :: later)
      (calls : ∀ e ∈ front, isIdle e.call = true) (changed : e.changes id)
      (onward : Leads (retiring id a) later point)
  /-- A read has filled the cache. -/
  | filling {id : Uuid} {front counts : List Exchange} {text : String} {lifetime : Nat}
      {answer : Except CacheError Unit} (reads : operation = .get id)
      (split : past = front ++ ⟨.cacheSet (cacheKey id) text lifetime, answer⟩ :: counts)
      (calls : ∀ e ∈ front, isIdle e.call = true)
      (counted : ∀ e ∈ counts, e = ⟨.count .errors, ()⟩)
      (ends : ∀ result, point = .done result → ∃ a, result = .ok a)

variable {r : Registry} {operation : Operation} {caller : Caller} {user id : Uuid}
  {past : List Exchange}

/-- A request that has failed without a call. -/
theorem Course.of_failure {point : Service operation.Result} {failure : Failure}
    (here : Leads (.done (.error failure)) past point) : Course operation past point := by
  obtain ⟨rfl, rfl⟩ := here.of_done
  exact .idle (fun _ member => absurd member List.not_mem_nil) nofun

/-- The course of a creation. -/
theorem course_create {draft : Draft} {point : Service Status}
    (here : Leads (r.serve (.create caller draft)) past point) :
    Course (.create caller draft) past point := by
  rw [serve_create] at here
  cases identity : caller.identified with
  | error failure =>
    rw [identity] at here
    exact .of_failure here
  | ok user =>
    rw [identity] at here
    cases valid : draft.validate with
    | error failure =>
      simp only [valid] at here
      exact .of_failure here
    | ok _ =>
      simp only [valid] at here
      cases here with
      | here => exact .idle (fun _ member => absurd member List.not_mem_nil) nofun
      | @ask _ _ answer _ _ onward =>
        rcases answer with e | row
        · obtain ⟨rfl, rfl⟩ := Leads.of_done onward
          have unheard : ∀ e ∈ ([] : List Exchange), isIdle e.call = true :=
            fun _ member => absurd member List.not_mem_nil
          exact .vain (List.nil_append _).symm unheard Exchange.not_wrote_of_error ⟨_, rfl⟩
        · obtain ⟨rfl, rfl⟩ := Leads.of_done onward
          refine .creation rfl rfl ?_
          rintro _ ⟨⟩
          exact ⟨row, rfl⟩

/-- The course of a change by an identified caller. -/
theorem course_change {point : Service operation.Result} (change : operation.IsChange caller id)
    (identity : caller.identified = .ok user) (here : Leads (r.serve operation) past point) :
    Course operation past point := by
  obtain ⟨core, isCore, same⟩ := r.serve_change change identity
  rw [same] at here
  obtain ⟨rfl, rfl⟩ | ⟨s, later, rfl, onward⟩ | ⟨answer, failure, rfl, -, rfl⟩ := leads_finding here
  · exact .idle (fun _ member => absurd member List.not_mem_nil) nofun
  · have looked : ∀ e ∈ [(⟨.query (.findStatus id), .ok (some s)⟩ : Exchange)],
        isIdle e.call = true := List.forall_mem_singleton.mpr rfl
    obtain ⟨-, inside⟩ | ⟨failure, -, rfl, rfl⟩ := leads_guarded onward
    · obtain ⟨rfl, asks⟩ | ⟨e, back, a, rfl, changed, retires⟩ |
        ⟨q, answer, failure, rfl, unchanged, rfl⟩ := isCore.leads inside
      · exact .idle looked fun a ends => absurd ends (asks _)
      · exact .change change.target rfl looked changed retires
      · exact .vain rfl looked unchanged ⟨failure, rfl⟩
    · exact .idle looked nofun
  · exact .idle (List.forall_mem_singleton.mpr rfl) nofun

/-- The course of a read by identifier. -/
theorem course_get {point : Service Status} (here : Leads (r.serve (.get id)) past point) :
    Course (.get id) past point := by
  rcases leads_get here with ⟨calls, -⟩ | ⟨front, s, later, rfl, calls, filled⟩
  · exact .idle calls fun _ _ => rfl
  · obtain ⟨rfl, rfl⟩ | ⟨answer, counts, rfl, counted, -, ends⟩ := leads_filling filled
    · rw [List.append_nil]
      exact .idle calls nofun
    · exact .filling rfl rfl calls counted fun result ended => ⟨s, ends result ended⟩

/-- A program that counts and then reads a page makes idle calls only. -/
theorem idle_of_paging {α : Type} {first : Statement}
    {next : Except StoreError first.Result → Service α} {point : Service α}
    (counts : isIdle (.query first) = true)
    (pages : ∀ answer, (∃ result, next answer = .done result) ∨
      ∃ second after, next answer = .call (.query second) after ∧
        isIdle (.query second) = true ∧ ∀ answer, ∃ result, after answer = .done result)
    (here : Leads (.call (.query first) next) past point) : ∀ e ∈ past, isIdle e.call = true := by
  cases here with
  | here => exact fun _ member => absurd member List.not_mem_nil
  | @ask _ _ answer _ _ onward =>
    rcases pages answer with ⟨result, ended⟩ | ⟨second, after, reads, idle, ends⟩
    · rw [ended] at onward
      obtain ⟨rfl, -⟩ := onward.of_done
      exact List.forall_mem_singleton.mpr counts
    · rw [reads] at onward
      cases onward with
      | here => exact List.forall_mem_singleton.mpr counts
      | @ask _ _ answer _ _ onward =>
        obtain ⟨result, ended⟩ := ends answer
        rw [ended] at onward
        obtain ⟨rfl, -⟩ := onward.of_done
        exact List.forall_mem_cons.mpr ⟨counts, List.forall_mem_singleton.mpr idle⟩

/-- The course of a listing. -/
theorem course_list {request : PageRequest} {filter : Filter} {point : Service Listing}
    (here : Leads (r.serve (.list request filter)) past point) :
    Course (.list request filter) past point := by
  rw [serve_list] at here
  refine .idle (idle_of_paging rfl ?_ here) fun _ _ => rfl
  rintro (e | (total : Int64))
  · exact .inl ⟨_, rfl⟩
  · by_cases nothing : total = 0
    · exact .inl ⟨_, if_pos nothing⟩
    · refine .inr ⟨_, _, if_neg nothing, rfl, ?_⟩
      rintro (e | rows) <;> exact ⟨_, rfl⟩

/-- The course of a search. -/
theorem course_search {text : String} {request : PageRequest} {point : Service Listing}
    (here : Leads (r.serve (.search text request)) past point) :
    Course (.search text request) past point := by
  rw [serve_search] at here
  refine .idle (idle_of_paging rfl ?_ here) fun _ _ => rfl
  rintro (e | (total : Int64))
  · exact .inl ⟨_, rfl⟩
  · by_cases nothing : total = 0
    · exact .inl ⟨_, if_pos nothing⟩
    · refine .inr ⟨_, _, if_neg nothing, rfl, ?_⟩
      rintro (e | rows) <;> exact ⟨_, rfl⟩

/-- Every request keeps to a course. -/
theorem Registry.course {point : Service operation.Result}
    (here : Leads (r.serve operation) past point) : Course operation past point := by
  cases operation with
  | create caller draft => exact course_create here
  | get id => exact course_get here
  | list request filter => exact course_list here
  | search text request => exact course_search here
  | update caller id revision =>
    cases identity : caller.identified with
    | error failure =>
      rw [serve_update, identity] at here
      exact .of_failure here
    | ok user =>
      cases valid : revision.validate with
      | error failure =>
        rw [serve_update, identity] at here
        simp only [valid] at here
        exact .of_failure here
      | ok _ => exact course_change (.update valid) identity here
  | delete caller id =>
    cases identity : caller.identified with
    | error failure =>
      rw [serve_delete, identity] at here
      exact .of_failure here
    | ok user => exact course_change .delete identity here

/-- A write is the only one of its request. Only idle calls come before it, and no statement comes
after it. -/
theorem Course.split_of_wrote {point : Service operation.Result} {e : Exchange}
    (course : Course operation past point) (member : e ∈ past) (wrote : e.Wrote) :
    ∃ front later, past = front ++ e :: later ∧ (∀ e ∈ front, isIdle e.call = true) ∧
      ∀ e ∈ later, ∀ q, e.call ≠ .query q := by
  have busy : ∀ {calls : List Exchange}, (∀ e ∈ calls, isIdle e.call = true) → e ∉ calls :=
    fun idle among => Exchange.not_wrote_of_idle (idle e among) wrote
  cases course with
  | idle calls _ => exact absurd member (busy calls)
  | vain split calls nothing _ =>
    subst split
    rcases List.mem_append.mp member with before | last
    · exact absurd before (busy calls)
    · exact absurd (List.mem_singleton.mp last ▸ wrote) nothing
  | creation _ single _ =>
    subst single
    obtain rfl := List.mem_singleton.mp member
    exact ⟨[], [], rfl, fun _ member => absurd member List.not_mem_nil,
      fun _ member => absurd member List.not_mem_nil⟩
  | @change id front later _ a target split calls changed onward =>
    subst split
    have quiet : ∀ e ∈ later, ∀ q, e.call ≠ .query q := by
      obtain rfl | ⟨answer, counts, rfl, counted, -⟩ := leads_retiring onward
      · exact fun _ member => absurd member List.not_mem_nil
      · refine List.forall_mem_cons.mpr ⟨nofun, fun e among => ?_⟩
        rw [counted e among]
        exact nofun
    rcases List.mem_append.mp member with before | last
    · exact absurd before (busy calls)
    · rcases List.mem_cons.mp last with rfl | after
      · exact ⟨front, later, rfl, calls, quiet⟩
      · obtain ⟨q, _, rfl, -⟩ := wrote.query
        exact absurd rfl (quiet _ after q)
  | filling reads split calls counted ends =>
    subst split
    obtain ⟨q, _, rfl, -⟩ := wrote.query
    rcases List.mem_append.mp member with before | last
    · exact absurd before (busy calls)
    · rcases List.mem_cons.mp last with filled | after
      · cases filled
      · cases counted _ after

/-- A request that failed has written nothing, and has made no call that may write to the cache. -/
theorem Course.traceless {failure : Failure}
    (course : Course operation past (.done (.error failure))) :
    ∀ e ∈ past, ¬e.Wrote ∧ e.call.writesCache = false := by
  cases course with
  | idle calls _ => exact fun e member => Exchange.quiet_of_idle (calls e member)
  | vain split calls nothing _ =>
    subst split
    intro e member
    rcases List.mem_append.mp member with before | last
    · exact Exchange.quiet_of_idle (calls e before)
    · rw [List.mem_singleton.mp last]
      exact ⟨nothing, rfl⟩
  | creation _ _ ends =>
    obtain ⟨_, ⟨⟩⟩ := ends _ rfl
  | change _ _ _ _ onward =>
    obtain rfl | ⟨_, _, rfl, -, ends⟩ := leads_retiring onward
    · cases onward
    · cases ends _ rfl
  | filling _ _ _ _ ends =>
    obtain ⟨_, ⟨⟩⟩ := ends _ rfl

/-- An operation that was to write and succeeded has made one statement that wrote, and was idle
before it. A creation makes no further call, and after a change come the removal of the cached copy
and nothing but counts. -/
theorem Course.of_success {a : operation.Result} (course : Course operation past (.done (.ok a)))
    (writing : operation.writes = true) :
    ∃ (front later : List Exchange) (q : Statement) (result : q.Result),
      past = front ++ ⟨.query q, .ok result⟩ :: later ∧ (∀ e ∈ front, isIdle e.call = true) ∧
      q.writes = true ∧
      ((operation.target? = none ∧ later = []) ∨
        ∃ id answer counts, operation.target? = some id ∧
          Exchange.changes id ⟨.query q, .ok result⟩ ∧
          later = ⟨.cacheDelete (cacheKey id), answer⟩ :: counts ∧
          ∀ e ∈ counts, e = ⟨.count .errors, ()⟩) := by
  cases course with
  | idle _ ends =>
    rw [ends a rfl] at writing
    cases writing
  | vain _ _ _ fails => obtain ⟨_, ⟨⟩⟩ := fails
  | creation creates single _ =>
    subst creates
    exact ⟨[], [], _, _, single, fun _ member => absurd member List.not_mem_nil, rfl,
      .inl ⟨rfl, rfl⟩⟩
  | @change id front later e _ target split calls changed onward =>
    obtain ⟨q, result, rfl, writes⟩ := Exchange.Wrote.query (.inr ⟨id, changed⟩)
    obtain rfl | ⟨answer, counts, rfl, counted, -⟩ := leads_retiring onward
    · cases onward
    · exact ⟨front, _, q, result, split, calls, writes,
        .inr ⟨id, answer, counts, target, changed, rfl, counted⟩⟩
  | filling reads _ _ _ _ =>
    subst reads
    cases writing

end StatusRegistry
