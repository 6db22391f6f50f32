import StatusRegistry.Proofs.Authentication
import StatusRegistry.Proofs.Http.Standing

/-!
# What requests leave behind

A request that fails leaves nothing behind: the statuses are as they were, and the cache has not
been asked to change. A change that succeeds leaves exactly its own effect behind, on one row, and
the removal of that row's cached copy comes after it.
-/

namespace StatusRegistry

open Program (Leads)
open Conduct (isIdle)
open Store (isTarget)

/-- What an operation makes of the statuses, and all that others could have noticed of it. -/
inductive Effect (before : List Status) : Operation → List Status → List Event → Prop where
  | creation {caller : Caller} {draft : Draft} (id : Uuid) (now : Instant) :
      Effect before (.create caller draft)
        (before ++ [{
          id := id
          createdBy := caller.user
          updatedBy := caller.user
          createdAt := now
          updatedAt := now
          deletedAt := none
          name := draft.name
          description := draft.description
          active := draft.active
          orderNumber := draft.orderNumber }])
        [.executed (.createStatus draft caller.user)]
  | revision {caller : Caller} {id : Uuid} {revision : Revision} {i : Nat} {row : Status}
      (now : Instant) (outcome : CacheOutcome) (present : before[i]? = some row)
      (target : isTarget id row = true) :
      Effect before (.update caller id revision)
        (before.set i { row with
          description := revision.description
          active := revision.active
          orderNumber := revision.orderNumber
          updatedBy := caller.user
          updatedAt := now })
        [.executed (.updateStatus id caller.user revision), .cacheDelete (cacheKey id) outcome]
  | removal {caller : Caller} {id : Uuid} {i : Nat} {row : Status} (now : Instant)
      (outcome : CacheOutcome) (present : before[i]? = some row) (target : isTarget id row = true) :
      Effect before (.delete caller id)
        (before.set i { row with deletedAt := some now, updatedAt := now })
        [.executed (.deleteStatus id), .cacheDelete (cacheKey id) outcome]

/-- Where identifiers are distinct, a statement that changed a row changed one row. -/
theorem Store.set_of_changes {store : Store} {q : Statement} {id : Uuid}
    {change : Status → Status} (distinct : (store.statuses.map Status.id).Nodup)
    (changed : Exchange.changes id ⟨.query q, (store.execute q).1⟩)
    (rewrites : (store.execute q).2.statuses = Store.rewritten id change store.statuses) :
    ∃ i row, store.statuses[i]? = some row ∧ isTarget id row = true ∧
      (store.execute q).2.statuses = store.statuses.set i (change row) := by
  obtain ⟨row, found⟩ := Store.live_of_changes changed
  have target : isTarget id row = true := List.find?_some found
  obtain ⟨i, present⟩ := List.mem_iff_getElem?.mp (List.mem_of_find?_eq_some found)
  exact ⟨i, row, present, target, rewrites.trans (rewritten_eq_set distinct present target)⟩

/-- An operation that was to write and has succeeded has had its effect and no other. -/
theorem Converses.effect {r : Registry} {w after : World} {front later : List Exchange}
    {events : List Event} {operation : Operation} {a : operation.Result}
    (distinct : (w.store.statuses.map Status.id).Nodup)
    (converses : Converses w (front ++ later) after events)
    (calls : ∀ e ∈ front, isIdle e.call = true)
    (leads : Leads (r.serve operation) later (.done (.ok a))) (writing : operation.writes = true) :
    Effect w.store.statuses operation after.store.statuses (events.filter Event.isTrace) := by
  obtain ⟨idle, rest, q, result, rfl, unheard, writes, tail⟩ :=
    (r.course leads).of_success writing
  obtain ⟨_, first, second⟩ := leads.split idle
  obtain ⟨_, rfl, -⟩ := second.head
  obtain ⟨caller, -, asks⟩ := Registry.asks_of_writes writes first
  have quiet : ∀ e ∈ rest, ∀ q, e.call ≠ .query q := by
    obtain ⟨-, rfl⟩ | ⟨_, _, _, -, -, rfl, counted⟩ := tail
    · exact fun _ member => absurd member List.not_mem_nil
    · refine List.forall_mem_cons.mpr ⟨nofun, fun e member => ?_⟩
      rw [counted e member]
      exact nofun
  -- The conversation is cut at the one statement that writes: what comes before it is idle, and
  -- what comes after it tells whether a cached copy was removed.
  rw [← List.append_assoc] at converses
  obtain ⟨store, middle, last, start, performed, ends, onward, traced⟩ :=
    converses.executes (List.forall_mem_append.mpr ⟨calls, unheard⟩) quiet writes
  have succeeds := Store.statuses_of_ok performed
  rw [ends, traced, ← start]
  rw [← start] at distinct
  cases asks with
  | create =>
    obtain ⟨-, rfl⟩ | ⟨_, _, _, ⟨⟩, -⟩ := tail
    cases onward
    rw [succeeds]
    exact .creation _ _
  | update =>
    obtain ⟨⟨⟩, -⟩ | ⟨id, _, _, ⟨⟩, changed, rfl, counted⟩ := tail
    obtain ⟨outcome, removed⟩ := onward.traces_retired counted
    obtain ⟨i, row, present, target, same⟩ :=
      Store.set_of_changes distinct (performed ▸ changed) succeeds
    rw [same, removed]
    exact .revision _ outcome present target
  | delete =>
    obtain ⟨⟨⟩, -⟩ | ⟨id, _, _, ⟨⟩, changed, rfl, counted⟩ := tail
    obtain ⟨outcome, removed⟩ := onward.traces_retired counted
    obtain ⟨i, row, present, target, same⟩ :=
      Store.set_of_changes distinct (performed ▸ changed) succeeds
    rw [same, removed]
    exact .removal _ outcome present target

namespace Http

/-- What a request for a change has brought about, told by the status of its response. -/
inductive Accomplished (r : Request) (before after : List Status) (traces : List Event) :
    Nat → Prop where
  | created {caller : Caller} {draft : Draft} (method : r.method = .post)
      (path : r.path? = some (statusPath []))
      (effect : Effect before (.create caller draft) after traces) :
      Accomplished r before after traces 201
  | updated {caller : Caller} {id : Uuid} {revision : Revision} (method : r.method = .put)
      (names : r.Names id) (effect : Effect before (.update caller id revision) after traces) :
      Accomplished r before after traces 200
  | deleted {caller : Caller} {id : Uuid} (method : r.method = .delete) (names : r.Names id)
      (effect : Effect before (.delete caller id) after traces) :
      Accomplished r before after traces 204

variable {service : Service} {s : ServerState} {r : Request} {served : Served}

/-- The method of a request does not change the status of its response. -/
theorem forMethod_status (response : Response) (method : Method) :
    (response.forMethod method).status = response.status := by
  unfold Response.forMethod
  split <;> rfl

/-- What an operation is performed for tells whether it is to write. -/
theorem Performs.writes {caller : Option Caller} {operation : Operation}
    {inner : StatusRegistry.Operation} {status : Nat}
    (performs : Performs caller operation inner status) : inner.writes = operation.isChange := by
  cases performs <;> rfl

/-- An operation that has succeeded is told as a success. -/
theorem Performs.succeeds {caller : Option Caller} {operation : Operation}
    {inner : StatusRegistry.Operation} {status : Nat} {response : Response}
    (performs : Performs caller operation inner status) (told : response.status = status) :
    response.Succeeds := by
  cases performs <;> simp [Response.Succeeds, told]

/-- A change whose operation has had its effect is accomplished. -/
theorem Performs.accomplished {caller : Option Caller} {operation : Operation}
    {inner : StatusRegistry.Operation} {status : Nat} {before after : List Status}
    {traces : List Event} (performs : Performs caller operation inner status)
    (wants : r.Wants operation) (change : operation.isChange = true)
    (effect : Effect before inner after traces) : Accomplished r before after traces status := by
  cases wants.change change with
  | create method path =>
    cases performs with
    | create => exact .created method path effect
  | update method path =>
    cases performs with
    | update _ named => exact .updated method ⟨_, path, named⟩ effect
  | delete method path =>
    cases performs with
    | delete _ named => exact .deleted method ⟨_, path, named⟩ effect

variable {w after : World} {past : List Exchange} {events : List Event} {response : Response}

/-- A request that has ended in failure has left no trace. -/
theorem Standing.traceless (standing : Standing service r past (.done response))
    (converses : Converses w past after events) (fails : ¬response.Succeeds) :
    after.store.statuses = w.store.statuses ∧ ∀ ev ∈ events, ev.writesCache = false := by
  suffices quiet : ∀ e ∈ past, ¬e.Wrote ∧ e.call.writesCache = false from
    ⟨converses.statuses_eq fun e member => (quiet e member).1,
      converses.leaves_cache fun e member => (quiet e member).2⟩
  cases standing with
  | quiet calls _ _ => exact fun e member => Exchange.quiet_of_idle (calls e member)
  | serving split calls _ _ performs inner tells stands =>
    subst split
    obtain ⟨outcome, rfl, told⟩ := Program.done_of_told stands.symm
    cases outcome with
    | error failure =>
      have before : ∀ e ∈ _, _ := fun e member => Exchange.quiet_of_idle (calls e member)
      exact List.forall_mem_append.mpr ⟨before, (Registry.course inner).traceless⟩
    | ok a =>
      rw [← told] at fails
      exact absurd (performs.succeeds (tells a)) fails

/-- A request for a change that has ended in success has accomplished it. -/
theorem Standing.accomplished (standing : Standing service r past (.done response))
    (converses : Converses w past after events)
    (distinct : (w.store.statuses.map Status.id).Nodup) (succeeds : response.Succeeds)
    (change : r.method.isChange = true) :
    Accomplished r w.store.statuses after.store.statuses (events.filter Event.isTrace)
      response.status := by
  cases standing with
  | quiet _ _ fails => exact absurd succeeds (fails change response rfl)
  | serving split calls wants _ performs inner tells stands =>
    subst split
    obtain ⟨outcome, rfl, told⟩ := Program.done_of_told stands.symm
    cases outcome with
    | error failure =>
      rw [← told] at succeeds
      exact absurd succeeds (ofFailure_fails failure)
    | ok a =>
      rw [← wants.isChange] at change
      have effect := converses.effect distinct calls inner (performs.writes.trans change)
      rw [← told, show (Response.ofExcept _ (.ok a)).status = _ from tells a]
      exact performs.accomplished wants change effect

namespace Sample

open StatusRegistry.Sample

/-- An active token of the owner of the status. -/
def token : Token where
  id := 1
  name := "pipeline"
  digest := Token.digestOf "secret" "sesame"
  user := owner
  createdAt := ⟨1704067200, 0⟩
  lastUsedAt := none
  revokedAt := none

/-- A service around the registry. -/
def deployment : Service := ⟨registry, "secret", false⟩

/-- The service at its start, in a world with the status and the token. -/
def opening : ServerState := .make { world with store := { store with tokens := [token] } }

/-- The deletion of the status by the holder of the token. -/
def removal : Request where
  method := .delete
  target := segment ("/api/v1/status/" ++ row.id.text)
  headers := [("authorization", segment "Bearer sesame")]
  body := []
  peer := some ⟨.v4 127 0 0 1, 0, 4000⟩

/-- The service once its limiter has admitted the deletion. -/
def admitted : ServerState := { opening with changes := ⟨[(.v4 127 0 0 1, 2000000000)]⟩ }

/-- The deletion is performed for the holder of the token. -/
theorem serve_removal : opening.serve deployment removal =
    some (admitted.runProgram
      (authorized registry "secret" removal [] (.delete (segment row.id.text)))) := by
  rfl

/-- The store finds the owner under the digest of the token. -/
theorem finds_owner : admitted.world.Answers
    (.query (.findTokenUser (Token.digestOf "secret" "sesame"))) (.ok (some owner))
    admitted.world := by
  have active : Store.isActiveDigest (Token.digestOf "secret" "sesame") token = true :=
    Store.isActiveDigest_iff.mpr ⟨rfl, rfl⟩
  have found : admitted.world.store.tokens.find?
      (Store.isActiveDigest (Token.digestOf "secret" "sesame")) = some token :=
    List.find?_cons_of_pos active
  have looked := admitted.world.answer_lookup rfl rfl "secret" "sesame"
  rw [found] at looked
  exact ⟨_, looked⟩

/-- The deletion succeeds. -/
theorem removal_succeeds : ∃ served, opening.serve deployment removal = some served ∧
    served.response = .bare 204 := by
  refine ⟨_, serve_removal, ?_⟩
  show (admitted.world.run _).value.getD timedOut = _
  rw [authorized_eq, show bearer? removal = some "sesame" by decide +kernel]
  dsimp only
  rw [World.value_ask finds_owner]
  dsimp only
  rw [World.value_ask (World.answer_query rfl rfl _)]
  -- Whether the use of the token can be recorded does not matter, so the digest is not computed.
  obtain ⟨e, refused⟩ | performed := admitted.world.store.execute_cases
    (.touchToken (Token.digestOf "secret" "sesame"))
  · rw [refused]
    rfl
  · rw [performed]
    rfl

end Sample

/-- A request that is answered in time fails without a trace, or succeeds with exactly the effect
that it asks for. -/
theorem requests_are_all_or_nothing (serves : s.serve service r = some served)
    (distinct : (s.world.store.statuses.map Status.id).Nodup)
    (timely : served.response.status ≠ timedOut.status) :
    (¬served.response.Succeeds →
      served.state.world.store.statuses = s.world.store.statuses ∧
      ∀ ev ∈ served.events, ev.writesCache = false) ∧
    (served.response.Succeeds → r.method.isChange = true →
      Accomplished r s.world.store.statuses served.state.world.store.statuses
        (served.events.filter Event.isTrace) served.response.status) := by
  obtain ⟨p, plan, responds, happens, leaves⟩ := serve_plans serves
  obtain ⟨past, point, world, happened, converses, leads, ends⟩ := s.world.run_converses p
  have status := forMethod_status ((s.world.run p).value.getD timedOut) r.method
  rw [← responds] at status
  obtain ⟨response, rfl, ran⟩ | ⟨_, _, _, _, -, ran, -⟩ := ends
  · have standing := plan.standing leads
    rw [ran] at status happens leaves
    rw [happens, leaves, Response.Succeeds, status]
    exact ⟨standing.traceless converses, standing.accomplished converses distinct⟩
  · rw [ran] at status
    exact absurd status timely

open Http.Sample in
/-- The deletion of the status is accomplished. -/
theorem removal_is_accomplished : ∃ served, opening.serve deployment removal = some served ∧
    (opening.world.store.statuses.map Status.id).Nodup ∧
    served.response.status ≠ timedOut.status ∧ served.response.Succeeds ∧
    Accomplished removal opening.world.store.statuses served.state.world.store.statuses
      (served.events.filter Event.isTrace) 204 := by
  obtain ⟨served, serves, told⟩ := removal_succeeds
  have distinct : (opening.world.store.statuses.map Status.id).Nodup := by decide
  have timely : served.response.status ≠ timedOut.status := by
    rw [told]
    decide
  have succeeds : served.response.Succeeds := by
    rw [told]
    exact ⟨by decide, by decide⟩
  have accomplished := (requests_are_all_or_nothing serves distinct timely).2 succeeds rfl
  rw [told] at accomplished
  exact ⟨served, serves, distinct, timely, succeeds, accomplished⟩

end Http

end StatusRegistry
