import StatusRegistry.Proofs.Program
import StatusRegistry.Registry

/-!
# The points of the operations

An operation is one thing a caller may ask of the registry. Every operation is written here as the
tree of its calls, and the trees are equal to the operations. What a request may still do at any of
its points, and what it must have done to get there, is read off the trees once.
-/

namespace StatusRegistry

open Program (Leads Along)

/-- A caller acts as the user that it names. -/
theorem identified_eq {caller : Caller} {user : Uuid} (identity : caller.identified = .ok user) :
    caller.user = user := by
  unfold Caller.identified at identity
  split at identity
  · cases identity
  · exact Except.ok.inj identity

/-- A caller that acts as a user is not the one that names nobody. -/
theorem identified_ne {caller : Caller} {user : Uuid} (identity : caller.identified = .ok user) :
    user ≠ Uuid.nil := by
  unfold Caller.identified at identity
  split at identity
  · cases identity
  · rename_i named
    cases identity
    simpa [Uuid.isNil] using named

/-- What a caller may ask of the registry. -/
inductive Operation where
  | create (caller : Caller) (draft : Draft)
  | update (caller : Caller) (id : Uuid) (revision : Revision)
  | get (id : Uuid)
  | delete (caller : Caller) (id : Uuid)
  | list (request : PageRequest) (filter : Filter)
  | search (text : String) (request : PageRequest)

/-- What a caller gets if nothing fails. -/
def Operation.Result : Operation → Type
  | .create .. => Status
  | .update .. => Status
  | .get _ => Status
  | .delete .. => Unit
  | .list .. => Listing
  | .search .. => Listing

namespace Registry

/-- A program that serves a request. -/
abbrev Service (α : Type) : Type := Program (Except Failure α)

/-- The program that serves an operation. -/
def serve (r : Registry) : (operation : Operation) → Service operation.Result
  | .create caller draft => (create caller draft).run
  | .update caller id revision => (r.update caller id revision).run
  | .get id => (r.get id).run
  | .delete caller id => (r.delete caller id).run
  | .list request filter => (list request filter).run
  | .search text request => (search text request).run

variable {α : Type}

/-- A request that the store refused. -/
def refused (q : Statement) (e : StoreError) : Service α :=
  .done (.error (e.toFailure.withOperation q.name))

/-- Counts and goes on. -/
def counting (m : Metric) (rest : Program α) : Program α := .call (.count m) fun _ => rest

/-- Removes the cached copy of a status that has changed, and ends. -/
def retiring (id : Uuid) (a : α) : Service α :=
  .call (.cacheDelete (cacheKey id)) fun
    | .ok () => .done (.ok a)
    | .error _ => counting .errors (.done (.ok a))

/-- Keeps a copy of a status that was found, and ends. -/
def filling (r : Registry) (id : Uuid) (s : Status) : Service Status :=
  .call (.cacheSet (cacheKey id) s.toJson.text r.lifetime) fun
    | .ok () => .done (.ok s)
    | .error _ => counting .errors (.done (.ok s))

/-- Looks a status up and goes on with it. -/
def finding (id : Uuid) (next : Status → Service α) : Service α :=
  .call (.query (.findStatus id)) fun
    | .ok (some s) => next s
    | .ok none => .done (.error (Failure.statusNotFound id))
    | .error e => refused (.findStatus id) e

/-- Replaces the content of a row. -/
def revising (id user : Uuid) (revision : Revision) : Service Status :=
  .call (.query (.updateStatus id user revision)) fun
    | .ok (some s) => retiring id s
    | .ok none => .done (.error (Failure.statusNotFound id))
    | .error e => refused (.updateStatus id user revision) e

/-- Marks a row as deleted. -/
def removing (id : Uuid) : Service Unit :=
  .call (.query (.deleteStatus id)) fun
    | .ok (n : Nat) => if n = 0 then .done (.error (Failure.statusGone id)) else retiring id ()
    | .error e => refused (.deleteStatus id) e

/-- Goes on only with the owner of a status, where ownership is enforced. -/
def guarded (r : Registry) (user : Uuid) (s : Status) (rest : Service α) : Service α :=
  match r.checkOwner s user with
  | .ok () => rest
  | .error failure => .done (.error failure)

/-- A creation is one insertion. -/
theorem serve_create (r : Registry) (caller : Caller) (draft : Draft) :
    r.serve (.create caller draft) =
      match caller.identified with
      | .error failure => .done (.error failure)
      | .ok user =>
        match draft.validate with
        | .error failure => .done (.error failure)
        | .ok () => .call (.query (.createStatus draft user)) fun
          | .ok row => .done (.ok row)
          | .error e => refused (.createStatus draft user) e := by
  simp only [serve, create]
  cases caller.identified with
  | error failure => rfl
  | ok user =>
    cases draft.validate with
    | error failure => rfl
    | ok _ =>
      apply congrArg (Program.call _)
      funext answer
      cases answer <;> rfl

/-- A lookup goes on with the row that it finds. -/
theorem find_bind (id : Uuid) (next : Status → Action α) :
    (StatusRows.find id >>= next).run = finding id fun s => (next s).run := by
  apply congrArg (Program.call _)
  funext answer
  rcases answer with e | (_ | s) <;> rfl

/-- An update looks its row up before it replaces the content. -/
theorem serve_update (r : Registry) (caller : Caller) (id : Uuid) (revision : Revision) :
    r.serve (.update caller id revision) =
      match caller.identified with
      | .error failure => .done (.error failure)
      | .ok user =>
        match revision.validate with
        | .error failure => .done (.error failure)
        | .ok () =>
          finding id fun existing => r.guarded user existing (revising id user revision) := by
  simp only [serve, update]
  cases caller.identified with
  | error failure => rfl
  | ok user =>
    cases revision.validate with
    | error failure => rfl
    | ok _ =>
      refine (find_bind id _).trans (congrArg (finding id) ?_)
      funext existing
      simp only [guarded]
      cases r.checkOwner existing user with
      | error failure => rfl
      | ok _ =>
        apply congrArg (Program.call _)
        funext answer
        rcases answer with e | (_ | s)
        · rfl
        · rfl
        · apply congrArg (Program.call _)
          funext answer
          cases answer <;> rfl

/-- A read asks the cache before the store. -/
theorem serve_get (r : Registry) (id : Uuid) :
    r.serve (.get id) = .call (.cacheGet (cacheKey id)) fun
      | .ok text =>
        match Status.decode (Utf8.octets text) with
        | .ok s => counting .hits (.done (.ok s))
        | .error _ => counting .errors (finding id (r.filling id))
      | .error e =>
        counting (if e.isMiss then .misses else .errors) (finding id (r.filling id)) := by
  have store : ∀ s, (do
      r.writeCached id s
      return s : Action Status).run = r.filling id s := by
    intro s
    apply congrArg (Program.call _)
    funext answer
    cases answer <;> rfl
  apply congrArg (Program.call _)
  funext answer
  rcases answer with e | text
  · apply congrArg (Program.call _)
    funext _
    refine (find_bind id _).trans (congrArg (finding id) ?_)
    funext s
    exact store s
  · dsimp only
    cases Status.decode (Utf8.octets text) with
    | ok s => rfl
    | error problem =>
      apply congrArg (Program.call _)
      funext _
      refine (find_bind id _).trans (congrArg (finding id) ?_)
      funext s
      exact store s

/-- A deletion looks its row up before it marks it. -/
theorem serve_delete (r : Registry) (caller : Caller) (id : Uuid) :
    r.serve (.delete caller id) =
      match caller.identified with
      | .error failure => .done (.error failure)
      | .ok user => finding id fun existing => r.guarded user existing (removing id) := by
  simp only [serve, delete]
  cases caller.identified with
  | error failure => rfl
  | ok user =>
    refine (find_bind id _).trans (congrArg (finding id) ?_)
    funext existing
    simp only [guarded]
    cases r.checkOwner existing user with
    | error failure => rfl
    | ok _ =>
      apply congrArg (Program.call _)
      funext answer
      rcases answer with e | (changed : Nat)
      · rfl
      · cases changed with
        | zero => rfl
        | succ more =>
          apply congrArg (Program.call _)
          funext answer
          cases answer <;> rfl

/-- A listing counts before it reads a page. -/
theorem serve_list (r : Registry) (request : PageRequest) (filter : Filter) :
    r.serve (.list request filter) = .call (.query (.countFiltered filter)) fun
      | .ok (total : Int64) =>
        if total = 0 then .done (.ok (Listing.empty request))
        else .call (.query (.pageFiltered filter request.order request.offset request.limit)) fun
          | .ok rows => .done (.ok (Listing.make rows total request))
          | .error e => refused (.pageFiltered filter request.order request.offset request.limit) e
      | .error e => refused (.countFiltered filter) e := by
  apply congrArg (Program.call _)
  funext answer
  rcases answer with e | (total : Int64)
  · rfl
  · by_cases nothing : total = 0
    · subst nothing
      rfl
    · refine (if_neg nothing).trans (Eq.trans ?_ (if_neg nothing).symm)
      apply congrArg (Program.call _)
      funext answer
      cases answer <;> rfl

/-- A search counts before it reads a page. -/
theorem serve_search (r : Registry) (text : String) (request : PageRequest) :
    r.serve (.search text request) =
      let pattern := String.ofList (Like.escape text.toList)
      .call (.query (.countMatching pattern)) fun
      | .ok (total : Int64) =>
        if total = 0 then .done (.ok (Listing.empty request))
        else .call (.query (.pageMatching pattern request.order request.offset request.limit)) fun
          | .ok rows => .done (.ok (Listing.make rows total request))
          | .error e => refused (.pageMatching pattern request.order request.offset request.limit) e
      | .error e => refused (.countMatching pattern) e := by
  apply congrArg (Program.call _)
  funext answer
  rcases answer with e | (total : Int64)
  · rfl
  · by_cases nothing : total = 0
    · subst nothing
      rfl
    · refine (if_neg nothing).trans (Eq.trans ?_ (if_neg nothing).symm)
      apply congrArg (Program.call _)
      funext answer
      cases answer <;> rfl

end Registry

namespace Exchange

/-- Whether a statement changed a row that has an identifier. -/
def changes (id : Uuid) : Exchange → Prop
  | ⟨.query (.updateStatus target _ _), .ok (some _)⟩ => target = id
  | ⟨.query (.deleteStatus target), .ok (n : Nat)⟩ => target = id ∧ n ≠ 0
  | _ => False

/-- A changed row has been given new content or has been marked as deleted. -/
theorem changes_cases {id : Uuid} {e : Exchange} (changed : e.changes id) :
    (∃ user revision s, e = ⟨.query (.updateStatus id user revision), .ok (some s)⟩) ∨
      ∃ n : Nat, n ≠ 0 ∧ e = ⟨.query (.deleteStatus id), .ok n⟩ := by
  unfold changes at changed
  split at changed
  · subst changed
    exact .inl ⟨_, _, _, rfl⟩
  · obtain ⟨rfl, nonzero⟩ := changed
    exact .inr ⟨_, nonzero, rfl⟩
  · exact changed.elim

/-- The rows that a statement read for a page. -/
def pageRows : Exchange → List Status
  | ⟨.query (.pageFiltered ..), .ok rows⟩ => rows
  | ⟨.query (.pageMatching ..), .ok rows⟩ => rows
  | _ => []

end Exchange

namespace Operation

/-- The status that an operation is to change. -/
def target? : Operation → Option Uuid
  | .update _ id _ => some id
  | .delete _ id => some id
  | _ => none

/-- The statuses that an operation listed. -/
def listed : (operation : Operation) → operation.Result → List Status
  | .list .., listing => listing.items
  | .search .., listing => listing.items
  | _, _ => []

end Operation

open Registry

/-- What a request is about to do at a point, and what it must have done to get there. -/
structure Conduct (operation : Operation) (past : List Exchange)
    (rest : Service operation.Result) : Prop where
  /-- Only a creation inserts, in its caller's name. -/
  inserts : ∀ draft owner next, rest = .call (.query (.createStatus draft owner)) next →
    ∃ caller, operation = .create caller draft ∧ caller.user = owner
  /-- Only an update replaces content, with its own values and in its caller's name. -/
  revises : ∀ id user revision next, rest = .call (.query (.updateStatus id user revision)) next →
    ∃ caller, operation = .update caller id revision ∧ caller.user = user
  /-- Only a deletion marks a row. -/
  removes : ∀ id next, rest = .call (.query (.deleteStatus id)) next →
    ∃ caller, operation = .delete caller id
  /-- After a change only the cached copy is left to remove. -/
  retires : ∀ id c next answer, rest = .call c next → Exchange.changes id ⟨c, answer⟩ →
    ∃ a, next answer = retiring id a
  /-- A cached copy is removed only after its row has changed. -/
  evicts : ∀ key next, rest = .call (.cacheDelete key) next →
    ∃ id, key = cacheKey id ∧ ∃ e ∈ past, e.changes id
  /-- Only a read fills the cache, with the row that it found. -/
  fills : ∀ key text lifetime next, rest = .call (.cacheSet key text lifetime) next →
    ∃ id s, operation = .get id ∧ key = cacheKey id ∧ text = s.toJson.text ∧
      ⟨.query (.findStatus id), .ok (some s)⟩ ∈ past
  /-- A change has succeeded only if a statement changed the row. -/
  succeeds : ∀ id a, operation.target? = some id → rest = .done (.ok a) →
    ∃ e ∈ past, e.changes id
  /-- What is listed was read for a page. -/
  lists : ∀ a, rest = .done (.ok a) → ∀ s ∈ operation.listed a, ∃ e ∈ past, s ∈ e.pageRows

namespace Conduct

variable {operation : Operation} {past : List Exchange}

/-- Whether a call changes no row and writes nothing to the cache. -/
def isIdle : Call → Bool
  | .query (.createStatus ..) => false
  | .query (.updateStatus ..) => false
  | .query (.deleteStatus _) => false
  | .cacheSet .. => false
  | .cacheDelete _ => false
  | _ => true

/-- Nothing is asked of a request that is about to make an idle call. -/
theorem of_idle {c : Call} (next : c.Answer → Service operation.Result) (idle : isIdle c = true) :
    Conduct operation past (.call c next) where
  inserts := by
    rintro draft owner _ ⟨⟩
    cases idle
  revises := by
    rintro id user revision _ ⟨⟩
    cases idle
  removes := by
    rintro id _ ⟨⟩
    cases idle
  retires := by
    rintro id _ _ answer ⟨⟩ changed
    obtain ⟨_, _, _, ⟨⟩⟩ | ⟨_, _, ⟨⟩⟩ := Exchange.changes_cases changed <;> cases idle
  evicts := by
    rintro key _ ⟨⟩
    cases idle
  fills := by
    rintro key text lifetime _ ⟨⟩
    cases idle
  succeeds := nofun
  lists := nofun

/-- Nothing is asked of a request that has failed. -/
theorem of_failure (failure : Failure) : Conduct operation past (.done (.error failure)) where
  inserts := nofun
  revises := nofun
  removes := nofun
  retires := by rintro _ _ _ _ ⟨⟩
  evicts := nofun
  fills := nofun
  succeeds := nofun
  lists := nofun

/-- A request that has succeeded must have changed its target and read what it lists. -/
theorem of_success {a : operation.Result}
    (succeeds : ∀ id, operation.target? = some id → ∃ e ∈ past, e.changes id)
    (lists : ∀ s ∈ operation.listed a, ∃ e ∈ past, s ∈ e.pageRows) :
    Conduct operation past (.done (.ok a)) where
  inserts := nofun
  revises := nofun
  removes := nofun
  retires := by rintro _ _ _ _ ⟨⟩
  evicts := nofun
  fills := nofun
  succeeds := by
    rintro id _ target ⟨⟩
    exact succeeds id target
  lists := by
    rintro _ ⟨⟩
    exact lists

/-- Counting is idle. -/
theorem along_counting {m : Metric} {rest : Service operation.Result}
    (onward : Along (Conduct operation) (past ++ [⟨.count m, ()⟩]) rest) :
    Along (Conduct operation) past (counting m rest) :=
  ⟨of_idle _ rfl, fun _ => onward⟩

/-- A lookup is idle, and without a row the request fails. -/
theorem along_finding {id : Uuid} {next : Status → Service operation.Result}
    (onward : ∀ s, Along (Conduct operation)
      (past ++ [⟨.query (.findStatus id), .ok (some s)⟩]) (next s)) :
    Along (Conduct operation) past (finding id next) := by
  refine ⟨of_idle _ rfl, ?_⟩
  rintro (e | (_ | s))
  · exact of_failure _
  · exact of_failure _
  · exact onward s

/-- A changed row's cached copy is removed, and the request succeeds whatever comes of that. -/
theorem along_retiring {id : Uuid} {a : operation.Result} {e : Exchange} (changed : e.changes id)
    (success : ∀ later, Conduct operation (past ++ e :: later) (.done (.ok a))) :
    Along (Conduct operation) (past ++ [e]) (retiring id a) := by
  refine ⟨?_, ?_⟩
  · constructor
    case evicts =>
      rintro _ _ ⟨⟩
      exact ⟨id, rfl, e, by simp, changed⟩
    case retires =>
      rintro target _ _ answer ⟨⟩ again
      obtain ⟨_, _, _, ⟨⟩⟩ | ⟨_, _, ⟨⟩⟩ := Exchange.changes_cases again
    all_goals nofun
  · rintro (failure | ⟨⟩)
    · apply along_counting
      rw [List.append_assoc, List.append_assoc]
      exact success _
    · rw [List.append_assoc]
      exact success _

/-- Only the owner of a status goes on. -/
theorem along_guarded {r : Registry} {user : Uuid} {s : Status}
    {rest : Service operation.Result} (onward : Along (Conduct operation) past rest) :
    Along (Conduct operation) past (r.guarded user s rest) := by
  unfold guarded
  cases r.checkOwner s user with
  | ok _ => exact onward
  | error failure => exact of_failure failure

end Conduct

/-- A creation keeps to its conduct. -/
theorem along_create (r : Registry) (caller : Caller) (draft : Draft) :
    Along (Conduct (.create caller draft)) [] (r.serve (.create caller draft)) := by
  rw [serve_create]
  cases identity : caller.identified with
  | error failure => exact .of_failure failure
  | ok user =>
    cases draft.validate with
    | error failure => exact .of_failure failure
    | ok _ =>
      refine ⟨?_, ?_⟩
      · constructor
        case inserts =>
          rintro _ _ _ ⟨⟩
          exact ⟨caller, rfl, identified_eq identity⟩
        case retires =>
          rintro id _ _ answer ⟨⟩ changed
          obtain ⟨_, _, _, ⟨⟩⟩ | ⟨_, _, ⟨⟩⟩ := Exchange.changes_cases changed
        all_goals nofun
      · rintro (e | row)
        · exact .of_failure _
        · exact .of_success nofun nofun

/-- An update keeps to its conduct. -/
theorem along_update (r : Registry) (caller : Caller) (id : Uuid) (revision : Revision) :
    Along (Conduct (.update caller id revision)) [] (r.serve (.update caller id revision)) := by
  rw [serve_update]
  cases identity : caller.identified with
  | error failure => exact .of_failure failure
  | ok user =>
    cases revision.validate with
    | error failure => exact .of_failure failure
    | ok _ =>
      refine Conduct.along_finding fun existing => Conduct.along_guarded ⟨?_, ?_⟩
      · constructor
        case revises =>
          rintro _ _ _ _ ⟨⟩
          exact ⟨caller, rfl, identified_eq identity⟩
        case retires =>
          rintro target _ _ answer ⟨⟩ changed
          obtain ⟨_, _, s, ⟨⟩⟩ | ⟨_, _, ⟨⟩⟩ := Exchange.changes_cases changed
          exact ⟨s, rfl⟩
        all_goals nofun
      · rintro (e | (_ | s))
        · exact .of_failure _
        · exact .of_failure _
        · refine Conduct.along_retiring rfl fun later => .of_success ?_ nofun
          rintro target ⟨⟩
          exact ⟨⟨.query (.updateStatus id user revision), .ok (some s)⟩, by simp, rfl⟩

/-- A read keeps to its conduct. -/
theorem along_get (r : Registry) (id : Uuid) :
    Along (Conduct (.get id)) [] (r.serve (.get id)) := by
  have found : ∀ past, Along (Conduct (.get id)) past (finding id (r.filling id)) := by
    intro past
    refine Conduct.along_finding fun s => ⟨?_, ?_⟩
    · constructor
      case fills =>
        rintro _ _ _ _ ⟨⟩
        exact ⟨id, s, rfl, rfl, rfl, by simp⟩
      case retires =>
        rintro target _ _ answer ⟨⟩ changed
        obtain ⟨_, _, _, ⟨⟩⟩ | ⟨_, _, ⟨⟩⟩ := Exchange.changes_cases changed
      all_goals nofun
    · rintro (e | ⟨⟩)
      · exact Conduct.along_counting (.of_success nofun nofun)
      · exact .of_success nofun nofun
  rw [serve_get]
  refine ⟨.of_idle _ rfl, ?_⟩
  rintro (e | text)
  · exact Conduct.along_counting (found _)
  · dsimp only
    cases Status.decode (Utf8.octets text) with
    | ok s => exact Conduct.along_counting (.of_success nofun nofun)
    | error problem => exact Conduct.along_counting (found _)

/-- A deletion keeps to its conduct. -/
theorem along_delete (r : Registry) (caller : Caller) (id : Uuid) :
    Along (Conduct (.delete caller id)) [] (r.serve (.delete caller id)) := by
  rw [serve_delete]
  cases caller.identified with
  | error failure => exact .of_failure failure
  | ok user =>
    refine Conduct.along_finding fun existing => Conduct.along_guarded ⟨?_, ?_⟩
    · constructor
      case removes =>
        rintro _ _ ⟨⟩
        exact ⟨caller, rfl⟩
      case retires =>
        rintro target _ _ answer ⟨⟩ changed
        obtain ⟨_, _, _, ⟨⟩⟩ | ⟨n, nonzero, ⟨⟩⟩ := Exchange.changes_cases changed
        exact ⟨(), if_neg nonzero⟩
      all_goals nofun
    · rintro (e | (n : Nat))
      · exact .of_failure _
      · by_cases zero : n = 0
        · subst zero
          exact .of_failure _
        · simp only [if_neg zero]
          refine Conduct.along_retiring ⟨rfl, zero⟩ fun later => .of_success ?_ nofun
          rintro target ⟨⟩
          exact ⟨⟨.query (.deleteStatus id), .ok n⟩, by simp, rfl, zero⟩

/-- A listing keeps to its conduct. -/
theorem along_list (r : Registry) (request : PageRequest) (filter : Filter) :
    Along (Conduct (.list request filter)) [] (r.serve (.list request filter)) := by
  rw [serve_list]
  refine ⟨.of_idle _ rfl, ?_⟩
  rintro (e | (total : Int64))
  · exact .of_failure _
  · by_cases nothing : total = 0
    · simp only [if_pos nothing]
      exact .of_success nofun nofun
    · simp only [if_neg nothing]
      refine ⟨.of_idle _ rfl, ?_⟩
      rintro (e | rows)
      · exact .of_failure _
      · refine .of_success nofun fun s member => ?_
        exact ⟨⟨.query (.pageFiltered filter request.order request.offset request.limit),
          .ok rows⟩, by simp, member⟩

/-- A search keeps to its conduct. -/
theorem along_search (r : Registry) (text : String) (request : PageRequest) :
    Along (Conduct (.search text request)) [] (r.serve (.search text request)) := by
  rw [serve_search]
  refine ⟨.of_idle _ rfl, ?_⟩
  rintro (e | (total : Int64))
  · exact .of_failure _
  · by_cases nothing : total = 0
    · simp only [if_pos nothing]
      exact .of_success nofun nofun
    · simp only [if_neg nothing]
      refine ⟨.of_idle _ rfl, ?_⟩
      rintro (e | rows)
      · exact .of_failure _
      · refine .of_success nofun fun s member => ?_
        exact ⟨⟨.query (.pageMatching (String.ofList (Like.escape text.toList)) request.order
          request.offset request.limit), .ok rows⟩, by simp, member⟩

/-- Every operation keeps to its conduct at every point. -/
theorem Registry.conduct (r : Registry) {operation : Operation} {past : List Exchange}
    {rest : Service operation.Result} (here : Leads (r.serve operation) past rest) :
    Conduct operation past rest := by
  have along : Along (Conduct operation) [] (r.serve operation) := by
    cases operation with
    | create caller draft => exact along_create r caller draft
    | update caller id revision => exact along_update r caller id revision
    | get id => exact along_get r id
    | delete caller id => exact along_delete r caller id
    | list request filter => exact along_list r request filter
    | search text request => exact along_search r text request
  exact along.leads here

/-- What is left after a change: the removal of the cached copy and nothing but counts. -/
theorem leads_retiring {α : Type} {id : Uuid} {a : α} {later : List Exchange} {rest : Service α}
    (here : Leads (retiring id a) later rest) :
    later = [] ∨ ∃ answer counts, later = ⟨.cacheDelete (cacheKey id), answer⟩ :: counts ∧
      (∀ e ∈ counts, e = ⟨.count .errors, ()⟩) ∧
      ∀ result, rest = .done result → result = .ok a := by
  unfold retiring at here
  cases here with
  | here => exact .inl rfl
  | @ask _ _ answer counts _ onward =>
    refine .inr ⟨answer, counts, rfl, ?_⟩
    rcases answer with failure | ⟨⟩
    · cases onward with
      | here => exact ⟨fun _ member => absurd member List.not_mem_nil, nofun⟩
      | ask onward =>
        obtain ⟨rfl, rfl⟩ := onward.of_done
        refine ⟨fun e member => List.mem_singleton.mp member, ?_⟩
        rintro _ ⟨⟩
        rfl
    · obtain ⟨rfl, rfl⟩ := Leads.of_done onward
      refine ⟨fun _ member => absurd member List.not_mem_nil, ?_⟩
      rintro _ ⟨⟩
      rfl

namespace Registry

variable (r : Registry) {operation : Operation} {id : Uuid} {e : Exchange}
  {past later : List Exchange} {rest : Service operation.Result}

/-- A request changes no row but its target. -/
theorem target_of_changes {next : e.call.Answer → Service operation.Result}
    (changed : e.changes id) (here : Leads (r.serve operation) past (.call e.call next)) :
    operation.target? = some id := by
  obtain ⟨_, _, _, rfl⟩ | ⟨_, _, rfl⟩ := Exchange.changes_cases changed
  · obtain ⟨_, rfl, -⟩ := (r.conduct here).revises _ _ _ _ rfl
    rfl
  · obtain ⟨_, rfl⟩ := (r.conduct here).removes _ _ rfl
    rfl

/-- What has become of a request since its statement changed a row. -/
theorem leads_of_changes (changed : e.changes id)
    (here : Leads (r.serve operation) (past ++ e :: later) rest) :
    ∃ a, Leads (retiring id a) later rest := by
  obtain ⟨point, first, second⟩ := here.split past
  obtain ⟨next, rfl, onward⟩ := second.head
  obtain ⟨a, retires⟩ := (r.conduct first).retires id e.call next e.answer rfl changed
  rw [retires] at onward
  exact ⟨a, onward⟩

/-- A request whose statement changed a row ends only in success, and only once it has removed the
cached copy. -/
theorem finish_of_changes {result : Except Failure operation.Result} (changed : e.changes id)
    (whole : Leads (r.serve operation) (past ++ e :: later) (.done result)) :
    (∃ a, result = .ok a) ∧ ∃ answer, ⟨.cacheDelete (cacheKey id), answer⟩ ∈ later := by
  obtain ⟨a, onward⟩ := r.leads_of_changes changed whole
  obtain rfl | ⟨answer, counts, rfl, -, ends⟩ := leads_retiring onward
  · cases onward
  · exact ⟨⟨a, ends _ rfl⟩, answer, List.mem_cons_self⟩

/-- A request that has changed a row was to change it. -/
theorem target_of_changed (changed : e.changes id) (here : Leads (r.serve operation) past rest)
    (member : e ∈ past) : operation.target? = some id := by
  obtain ⟨_, _, _, -, first⟩ := here.at_mem member
  exact r.target_of_changes changed first

/-- A request that has changed a row and has ended has succeeded and has removed the cached copy. -/
theorem finish_of_changed {result : Except Failure operation.Result} (changed : e.changes id)
    (whole : Leads (r.serve operation) past (.done result)) (member : e ∈ past) :
    (∃ a, result = .ok a) ∧ ∃ answer, ⟨.cacheDelete (cacheKey id), answer⟩ ∈ past := by
  obtain ⟨front, back, rfl⟩ := List.append_of_mem member
  obtain ⟨succeeded, answer, removes⟩ := r.finish_of_changes changed whole
  exact ⟨succeeded, answer, List.mem_append_right _ (List.mem_cons_of_mem _ removes)⟩

/-- A creation that inserted a row ends only with that row. -/
theorem finish_of_inserts {caller : Caller} {draft inserted : Draft} {owner : Uuid} {row : Status}
    {result : Except Failure Status}
    (whole : Leads (r.serve (.create caller draft)) past (.done result))
    (member : ⟨.query (.createStatus inserted owner), .ok row⟩ ∈ past) : result = .ok row := by
  have ended : ∀ failure, Leads (.done (.error failure) : Service Status) past (.done result) →
      result = .ok row := by
    intro failure whole
    rw [whole.of_done.1] at member
    cases member
  rw [serve_create] at whole
  cases identity : caller.identified with
  | error failure =>
    rw [identity] at whole
    exact ended failure whole
  | ok user =>
    rw [identity] at whole
    cases valid : draft.validate with
    | error failure =>
      simp only [valid] at whole
      exact ended failure whole
    | ok _ =>
      simp only [valid] at whole
      cases whole with
      | @ask _ _ answer _ _ onward =>
        rcases answer with e | found
        · obtain ⟨rfl, -⟩ := Leads.of_done onward
          cases List.mem_singleton.mp member
        · obtain ⟨rfl, same⟩ := Leads.of_done onward
          cases List.mem_singleton.mp member
          cases same
          rfl

/-- A request changes rows at most once. -/
theorem not_changes_again {again : Exchange} {other : Uuid} (changed : e.changes id)
    (here : Leads (r.serve operation) (past ++ e :: later) rest) (member : again ∈ later) :
    ¬again.changes other := by
  intro twice
  obtain ⟨a, onward⟩ := r.leads_of_changes changed here
  have unchanged : ∀ c answer, again = ⟨c, answer⟩ → (∀ q, c ≠ .query q) → False := by
    rintro c answer rfl noStatement
    obtain ⟨_, _, _, ⟨⟩⟩ | ⟨_, _, ⟨⟩⟩ := Exchange.changes_cases twice <;> exact noStatement _ rfl
  obtain rfl | ⟨answer, counts, rfl, counted, -⟩ := leads_retiring onward
  · cases member
  · rcases List.mem_cons.mp member with first | second
    · exact unchanged _ _ first nofun
    · exact unchanged _ _ (counted again second) nofun

/-- A request that changes a row has not yet removed any cached copy. -/
theorem not_evicts_before {key : String} {answer : Except CacheError Unit} (changed : e.changes id)
    (here : Leads (r.serve operation) (past ++ e :: later) rest) :
    ⟨.cacheDelete key, answer⟩ ∉ past := by
  intro member
  obtain ⟨earlier, between, rfl⟩ := List.append_of_mem member
  have whole := here
  rw [List.append_assoc] at whole
  obtain ⟨point, first, second⟩ := whole.split earlier
  obtain ⟨next, rfl, _⟩ := second.head
  obtain ⟨other, -, change, before, alters⟩ := (r.conduct first).evicts key next rfl
  obtain ⟨front, back, rfl⟩ := List.append_of_mem before
  rw [List.append_assoc, List.append_assoc] at here
  exact r.not_changes_again alters here (by simp) changed

/-- What a lookup means for a read. -/
def lookedUp (id : Uuid) : Except StoreError (Option Status) → Except Failure Status
  | .ok (some s) => .ok s
  | .ok none => .error (Failure.statusNotFound id)
  | .error e => .error (e.toFailure.withOperation (Statement.findStatus id).name)

/-- A cached copy cannot be used. -/
def IsUseless (read : Except CacheError String) : Prop :=
  ∀ text, read = .ok text → ∃ problem, Status.decode (Utf8.octets text) = .error problem

/-- How a read ends: with a cached copy, or with what a lookup found after the cache gave nothing
that could be used. -/
inductive ReadEnds (id : Uuid) (past : List Exchange) (result : Except Failure Status) : Prop where
  | hit {text : String} {s : Status} (read : ⟨.cacheGet (cacheKey id), .ok text⟩ ∈ past)
      (decoded : Status.decode (Utf8.octets text) = .ok s) (same : result = .ok s)
  | lookup {read : Except CacheError String} {answer : Except StoreError (Option Status)}
      (tried : ⟨.cacheGet (cacheKey id), read⟩ ∈ past) (useless : IsUseless read)
      (asked : ⟨.query (.findStatus id), answer⟩ ∈ past) (same : result = lookedUp id answer)

/-- Every read that ends, ends so. -/
theorem readEnds {id : Uuid} {past : List Exchange} {result : Except Failure Status}
    (whole : Leads (r.serve (.get id)) past (.done result)) : ReadEnds id past result := by
  let P : List Exchange → Service Status → Prop :=
    fun past rest => ∀ result, rest = .done result → ReadEnds id past result
  have found : ∀ past read, ⟨.cacheGet (cacheKey id), read⟩ ∈ past → IsUseless read →
      Along P past (finding id (r.filling id)) := by
    intro past read tried useless
    refine ⟨nofun, ?_⟩
    intro answer
    have looked : ∀ later result, result = lookedUp id answer →
        ReadEnds id (past ++ ⟨.query (.findStatus id), answer⟩ :: later) result :=
      fun later result same =>
        .lookup (List.mem_append_left _ tried) useless (List.mem_append_right _ List.mem_cons_self)
          same
    rcases answer with e | (_ | s)
    · rintro _ ⟨⟩
      exact looked [] _ rfl
    · rintro _ ⟨⟩
      exact looked [] _ rfl
    · refine ⟨nofun, ?_⟩
      rintro (e | ⟨⟩)
      · refine ⟨nofun, fun _ => ?_⟩
        rintro _ ⟨⟩
        rw [List.append_assoc, List.append_assoc]
        exact looked _ _ rfl
      · rintro _ ⟨⟩
        rw [List.append_assoc]
        exact looked _ _ rfl
  have along : Along P [] (r.serve (.get id)) := by
    rw [serve_get]
    refine ⟨nofun, ?_⟩
    rintro (e | text)
    · refine ⟨nofun, fun _ => found _ (.error e) (by simp) nofun⟩
    · dsimp only
      cases decoded : Status.decode (Utf8.octets text) with
      | ok s =>
        refine ⟨nofun, fun _ => ?_⟩
        rintro _ ⟨⟩
        exact .hit (by simp) decoded rfl
      | error problem =>
        refine ⟨nofun, fun _ => found _ (.ok text) (by simp) ?_⟩
        rintro _ ⟨⟩
        exact ⟨problem, decoded⟩
  exact along.leads whole result rfl

end Registry

end StatusRegistry
