import StatusRegistry.Proofs.Http.Limits

/-!
# Limits are isolated

Whether a request is refused is told by the times of the earlier requests of its client in its group,
whatever others do and whatever the request carries. A refused request does nothing at all, so nobody
can try out tokens faster than the limit allows.
-/

namespace StatusRegistry.Http

variable {service : Service} {s finish : ServerState} {visits front back : List Visit} {world : World}

/-- Whether a visit was not refused by a limiter. -/
def Visit.isAdmitted (v : Visit) : Bool := v.served.response.status ≠ 429

/-- The admitted visits under a key are those that the key is granted. -/
theorem Life.admitted_eq (life : Life service (.make world) visits s) (key : Ip × Group) :
    ((visitsOf service key visits).filter Visit.isAdmitted).map Visit.time =
      key.2.quota.granted none (timesOf service key visits) := by
  induction life with
  | refl => rfl
  | lapse _ _ inductionHypothesis => exact inductionHypothesis
  | @serve visits s r served earlier serves inductionHypothesis =>
    rw [timesOf_snoc, visitsOf, List.filter_append, List.filter_append, List.map_append,
      ← visitsOf, inductionHypothesis]
    by_cases keyed : r.key? service = some key
    · have admitted : Visit.isAdmitted ⟨s, r, served⟩ = true ↔
          key.2.quota.Grants (timesOf service key visits) s.world.now := by
        simp only [Visit.isAdmitted, ne_eq, Http.refused_iff serves, keyed, Option.some.injEq,
          exists_eq_left', earlier.due_eq, Decidable.not_not]
        exact decide_eq_true_iff
      rw [if_pos keyed, Quota.granted_none_snoc, List.append_cancel_left_eq]
      by_cases granted : key.2.quota.Grants (timesOf service key visits) s.world.now
      · simp [keyed, admitted.mpr granted, granted, Visit.time]
      · simp [keyed, mt admitted.mp granted, granted, Visit.time]
    · simp [keyed]

/-- The number of admitted visits under a key in a window. -/
def admittedIn (service : Service) (key : Ip × Group) (visits : List Visit)
    (begins length : Nat) : Nat :=
  ((visitsOf service key visits).filter Visit.isAdmitted).countP fun v =>
    Quota.inWindow begins length v.time

/-- In a window no more visits under a key are admitted than its quota allows. -/
theorem Life.admittedIn_le (life : Life service (.make world) visits s) (key : Ip × Group)
    (begins length : Nat) :
    admittedIn service key visits begins length * key.2.quota.period ≤
      key.2.quota.burst * key.2.quota.period + length := by
  have counted : admittedIn service key visits begins length =
      (key.2.quota.granted none (timesOf service key visits)).countP
        (Quota.inWindow begins length) := by
    rw [← life.admitted_eq, List.countP_map]
    rfl
  rw [counted]
  refine Quota.countP_granted_le ?_ none _ begins length
  cases key.2 <;> decide

/-- A limiter knows a request by whom it comes from and by what it wants. -/
theorem Request.Wants.key?_eq_some_iff {r : Request} {operation : Operation}
    (wants : r.Wants operation) (limited : operation ≠ .health) (service : Service) (client : Ip)
    (group : Group) : r.key? service = some (client, group) ↔
      r.ComesFrom service.behindProxy client ∧ group = Group.of operation.isChange := by
  rw [wants.key?_eq limited service, Option.map_eq_some_iff, ← Request.client?_eq_some_iff]
  constructor
  · rintro ⟨_, known, ⟨⟩⟩
    exact ⟨known, rfl⟩
  · rintro ⟨known, rfl⟩
    exact ⟨client, known, rfl⟩

/-- Limits are isolated and without effect. A request is known by the client that a proxy or its
connection tells and by the group of what it wants. Whether a visit is refused is told by the times
of the earlier visits of its client to its group, so two visits in two lives of two services are both
refused or neither if these times agree. A refused visit comes to no call and leaves the service as
it was. In any window no more visits of a client to a group are admitted than the burst of the group
and its number of requests for every second. -/
theorem limits_are_isolated (life : Life service (.make world) visits finish) :
    (∀ (r : Request) (operation : Operation), r.Wants operation → operation ≠ .health →
      r.key? service = (r.client? service.behindProxy).map (fun client =>
        (client, Group.of operation.isChange)) ∧
      ∀ client group, r.key? service = some (client, group) ↔
        r.ComesFrom service.behindProxy client ∧ group = Group.of operation.isChange) ∧
    (∀ front v back, visits = front ++ v :: back →
      (v.served.response.status = 429 ↔ ∃ key, v.request.key? service = some key ∧
        ¬key.2.quota.Grants (timesOf service key front) v.time)) ∧
    (∀ (service' : Service) (world' : World) (finish' : ServerState)
      (front back front' back' : List Visit) (v v' : Visit) (client client' : Ip) (group : Group),
      visits = front ++ v :: back →
      Life service' (.make world') (front' ++ v' :: back') finish' →
      v.request.key? service = some (client, group) →
      v'.request.key? service' = some (client', group) →
      timesOf service (client, group) front = timesOf service' (client', group) front' →
      v.time = v'.time →
      (v.served.response.status = 429 ↔ v'.served.response.status = 429)) ∧
    (∀ v ∈ visits, v.served.response.status = 429 →
      (∃ response, v.before.enter? service v.request = some (v.before, .done response)) ∧
        v.served.events = [] ∧ v.served.state = v.before) ∧
    ∀ key begins length,
      admittedIn service key visits begins length * Quota.second ≤
        key.2.quota.burst * Quota.second + key.2.quota.perSecond * length := by
  refine ⟨fun r operation wants limited => ⟨wants.key?_eq limited service,
    wants.key?_eq_some_iff limited service⟩, ?_, ?_, ?_, ?_⟩
  · rintro front v back rfl
    exact life.refused_iff
  · rintro service' world' finish' front back front' back' v v' client client' group rfl life' keyed
      keyed' times time
    simp only [life.refused_iff, life'.refused_iff, keyed, keyed', Option.some.injEq, exists_eq_left',
      times, time]
  · intro v member refused
    obtain ⟨front, back, rfl⟩ := List.append_of_mem member
    exact effectless_of_refused life.cut.2 refused
  · intro key begins length
    refine Quota.mul_second_le ?_ (life.admittedIn_le key begins length)
    cases key.2 <;> decide

open Http.Sample in
/-- Of eleven deletions at one time the last is refused, comes to no call and changes nothing. -/
theorem eleventh_deletion_is_refused : ∃ front v finish,
    Life deployment opening (front ++ [v]) finish ∧ v.request = removal ∧
    timesOf deployment (client, .changes) front = Quota.steady 0 0 10 ∧ v.time = 0 ∧
    v.served.response.status = 429 ∧ v.served.events = [] ∧ v.served.state = v.before ∧
    admittedIn deployment (client, .changes) (front ++ [v]) 0 0 * Quota.second ≤
      10 * Quota.second + 1 * 0 := by
  obtain ⟨front, v, finish, life, times, time, request⟩ := steady_life .changes 0 0 10
  obtain ⟨-, refused, -, effectless, bound⟩ := limits_are_isolated life
  have exhausted : ¬Quota.changes.Grants (Quota.steady 0 0 10) 0 := by decide
  have told : v.served.response.status = 429 := by
    refine (refused front v [] rfl).mpr ⟨_, request ▸ requestIn_key .changes, ?_⟩
    rw [times, time]
    exact exhausted
  have member : v ∈ front ++ [v] := List.mem_append_right front (List.mem_singleton.mpr rfl)
  obtain ⟨-, silent, still⟩ := effectless v member told
  exact ⟨front, v, finish, life, request, times, time, told, silent, still,
    bound (client, .changes) 0 0⟩

end StatusRegistry.Http
