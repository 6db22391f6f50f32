import StatusRegistry.Proofs.Cache.Influence
import StatusRegistry.Proofs.Cache.Residence
import StatusRegistry.Proofs.Course
import StatusRegistry.Proofs.Session

/-!
# Repeated reads are served from memory

A read that gives a status leaves its copy as the one that the cache in memory used last. The copy
then stays while its status is not changed and fewer other statuses are read than there is room for,
and it is given out until its time comes. A read that fails at the store leaves no copy, so what
counts is the last read that gave the status.
-/

namespace StatusRegistry

open MemoryCache (Moment Lives Stands second expiry?)
open Program (Leads MakesOnly)
open Registry (finding filling counting leads_counting leads_finding leads_filling)

variable {r : Registry} {operation : Operation} {past : List Exchange} {id : Uuid} {s : Status}
  {key text : String} {lifetime capacity : Nat} {c : Call} {v : Visit}

/-- What a call asks of the cache in memory. -/
def Call.request? : Call → Option MemoryCache.Request
  | .cacheGet key => some (.get key)
  | .cacheSet key text lifetime => some (.set key text lifetime)
  | .cacheDelete key => some (.delete key)
  | _ => none

/-- The call that asks something of the cache in memory. -/
def MemoryCache.Request.call : MemoryCache.Request → Call
  | .get key => .cacheGet key
  | .set key text lifetime => .cacheSet key text lifetime
  | .delete key => .cacheDelete key

/-- A call that asks something of the cache in memory is the one that asks it. -/
theorem Call.eq_of_request {request : MemoryCache.Request} (asked : c.request? = some request) :
    c = request.call := by
  cases c <;> cases asked <;> rfl

/-- A program that makes only allowed calls has made no others. -/
theorem Program.MakesOnly.of_mem {α : Type} {allowed : Call → Bool} {p rest : Program α}
    {e : Exchange} (makes : p.MakesOnly allowed) (here : Leads p past rest) (member : e ∈ past) :
    allowed e.call = true := by
  obtain ⟨_, _, _, -, first⟩ := here.at_mem member
  exact makes.leads first

/-- Only a read of a status reads its copy or writes it. -/
theorem Operation.eq_get_of_mayCall (may : operation.mayCall c = true)
    (asks : c = .cacheGet key ∨ ∃ text lifetime, c = .cacheSet key text lifetime) :
    ∃ id, operation = .get id ∧ key = cacheKey id := by
  cases operation with
  | get id =>
    refine ⟨id, rfl, ?_⟩
    rcases asks with rfl | ⟨_, _, rfl⟩
    · exact eq_of_beq may
    · exact eq_of_beq may
  | _ => rcases asks with rfl | ⟨_, _, rfl⟩ <;> cases may

namespace Registry

/-- A read that has written a copy gives the status. -/
theorem gives_of_written {result : Except Failure Status} {answer : Except CacheError Unit}
    (whole : Leads (r.serve (.get id)) past (.done result))
    (member : ⟨.cacheSet key text lifetime, answer⟩ ∈ past) : ∃ s, result = .ok s := by
  rcases leads_get whole with ⟨idle, -⟩ | ⟨front, s, later, -, -, filled⟩
  · cases idle _ member
  · obtain ⟨-, same⟩ | ⟨_, _, -, -, -, ends⟩ := leads_filling filled
    · cases same
    · exact ⟨s, ends _ rfl⟩

/-- A read that gives a status asks the cache for nothing more once it has been given the copy or has
written one. -/
theorem touches_of_gives (whole : Leads (r.serve (.get id)) past (.done (.ok s))) :
    ∃ front e counts, past = front ++ e :: counts ∧ (∀ e ∈ counts, e.call.request? = none) ∧
      ((∃ text, e = ⟨.cacheGet (cacheKey id), .ok text⟩) ∨
        ∃ text answer, e = ⟨.cacheSet (cacheKey id) text r.lifetime, answer⟩) := by
  have filled : ∀ {m : Metric} {first : Exchange} {calls : List Exchange},
      Leads (counting m (finding id (r.filling id))) calls (.done (.ok s)) →
      ∃ front text answer counts, first :: calls =
        front ++ ⟨.cacheSet (cacheKey id) text r.lifetime, answer⟩ :: counts ∧
          ∀ e ∈ counts, e.call.request? = none := by
    intro m first calls onward
    obtain ⟨-, same⟩ | ⟨later, rfl, looks⟩ := leads_counting onward
    · cases same
    obtain ⟨-, same⟩ | ⟨row, rest, rfl, fills⟩ | ⟨_, _, -, -, same⟩ := leads_finding looks
    · cases same
    · obtain ⟨-, same⟩ | ⟨answer, counts, rfl, counted, -⟩ := leads_filling fills
      · cases same
      · refine ⟨[_, _, _], _, answer, counts, rfl, fun e member => ?_⟩
        rw [counted e member]
        rfl
    · cases same
  rw [serve_get] at whole
  cases whole with
  | @ask _ _ answer calls _ onward =>
    rcases answer with e | text
    · obtain ⟨front, text, answer, counts, split, counted⟩ := filled onward
      exact ⟨front, _, counts, split, counted, .inr ⟨text, answer, rfl⟩⟩
    · dsimp only at onward
      cases decoded : Status.decode (Utf8.octets text) with
      | error problem =>
        rw [decoded] at onward
        obtain ⟨front, text, answer, counts, split, counted⟩ := filled onward
        exact ⟨front, _, counts, split, counted, .inr ⟨text, answer, rfl⟩⟩
      | ok row =>
        rw [decoded] at onward
        obtain ⟨-, same⟩ | ⟨later, rfl, ended⟩ := leads_counting onward
        · cases same
        · obtain ⟨rfl, -⟩ := ended.of_done
          exact ⟨[], _, _, rfl, List.forall_mem_singleton.mpr rfl, .inl ⟨text, rfl⟩⟩

end Registry

namespace Visit

/-- A visit was led to its end by the answers that it was given. -/
def IsLed (r : Registry) (v : Visit) : Prop :=
  Leads (r.serve v.operation) (v.log.map Prod.snd) (.done v.result)

variable {e : Exchange}

/-- Only visits that read a status use the key of its copy. -/
theorem IsLed.reads (led : v.IsLed r) (member : e ∈ v.log.map Prod.snd)
    (asks : e.call = .cacheGet key ∨ ∃ text lifetime, e.call = .cacheSet key text lifetime) :
    ∃ id, v.operation = .get id ∧ key = cacheKey id :=
  Operation.eq_get_of_mayCall ((r.makesOnly_mayCall v.operation).of_mem led member) asks

/-- Copies are written for the lifetime of the registry. -/
theorem IsLed.lifetime_eq (led : v.IsLed r) (member : e ∈ v.log.map Prod.snd)
    (writes : e.call = .cacheSet key text lifetime) : lifetime = r.lifetime := by
  obtain ⟨c, answer⟩ := e
  cases writes
  obtain ⟨_, _, _, -, first⟩ := Leads.at_mem led member
  exact Registry.lifetime_of_fills first

/-- The visits that settle what is under the key of a status are reads that give the status, and
changes of it that succeed. -/
theorem IsLed.settles (led : v.IsLed r) (member : e ∈ v.log.map Prod.snd)
    (asks : (∃ text lifetime, e.call = .cacheSet (cacheKey id) text lifetime) ∨
      e.call = .cacheDelete (cacheKey id)) :
    (∃ s, v.Gives id s) ∨ v.Changes id := by
  obtain ⟨operation, log, result⟩ := v
  obtain ⟨c, answer⟩ := e
  rcases asks with ⟨text, lifetime, writes⟩ | removes
  · obtain ⟨other, reads, sameKey⟩ := led.reads member (.inr ⟨text, lifetime, writes⟩)
    obtain rfl := cacheKey_injective sameKey
    cases reads
    cases writes
    obtain ⟨s, rfl⟩ := Registry.gives_of_written led member
    exact .inl ⟨s, log, rfl⟩
  · cases removes
    obtain ⟨_, _, _, split, first⟩ := Leads.at_mem led member
    obtain ⟨other, sameKey, change, before, changed⟩ := (r.conduct first).evicts _ _ rfl
    obtain rfl := cacheKey_injective sameKey
    have among : change ∈ log.map Prod.snd := split ▸ List.mem_append_left _ before
    exact .inr ⟨r.target_of_changed changed led among, (r.finish_of_changed changed led among).1⟩

end Visit

/-- How the cache in memory meets a call. -/
def moment? (step : World × Exchange) : Option Moment :=
  match step.1.cache, step.2.call.request? with
  | .memory m, some request => some ⟨step.1.now, request, m⟩
  | _, _ => none

/-- How the cache in memory meets the calls of a log, the latest first. -/
def moments (log : List (World × Exchange)) : List Moment := (log.filterMap moment?).reverse

variable {log front back : List (World × Exchange)} {w u t after : World} {m : Moment}
  {memory : MemoryCache}

/-- The calls of two logs. -/
theorem moments_append (front back : List (World × Exchange)) :
    moments (front ++ back) = moments back ++ moments front := by
  simp only [moments, List.filterMap_append, List.reverse_append]

/-- The calls around a call. -/
theorem moments_at {step : World × Exchange} (met : moment? step = some m) :
    moments (front ++ step :: back) = moments back ++ m :: moments front := by
  have here : moments [step] = [m] := by
    rw [moments, List.filterMap_cons_some met]
    rfl
  rw [List.append_cons, moments_append, moments_append, here, List.singleton_append]

/-- The cache in memory meets nothing but what it is asked. -/
theorem moment?_of_memory {e : Exchange} (inMemory : u.cache = .memory memory) :
    moment? (u, e) = e.call.request?.map fun request => ⟨u.now, request, memory⟩ := by
  simp only [moment?, inMemory]
  cases e.call.request? <;> rfl

/-- Calls that ask nothing of the cache are no calls of it. -/
theorem moments_of_silent (silent : ∀ step ∈ log, step.2.call.request? = none) :
    moments log = [] := by
  refine List.reverse_eq_nil_iff.mpr (List.filterMap_eq_nil_iff.mpr fun step member => ?_)
  simp only [moment?, silent step member]
  cases step.1.cache <;> rfl

/-- Every call that the cache meets is in the log. -/
theorem mem_moments (member : m ∈ moments log) :
    ∃ u e, (u, e) ∈ log ∧ u.now = m.time ∧ e.call = m.request.call := by
  obtain ⟨⟨u, e⟩, among, met⟩ := List.mem_filterMap.mp (List.mem_reverse.mp member)
  cases inMemory : u.cache with
  | memory memory =>
    rw [moment?_of_memory inMemory] at met
    obtain ⟨request, asked, rfl⟩ := Option.map_eq_some_iff.mp met
    exact ⟨u, e, among, rfl, Call.eq_of_request asked⟩
  | _ =>
    simp only [moment?, inMemory] at met
    cases met

/-- The cache of a world is the one in memory, and the calls of a log have made it what it is. -/
structure World.IsRecorded (capacity : Nat) (log : List (World × Exchange)) (w : World) : Prop where
  cacheWorks : w.cacheFaults = []
  lives : ∃ memory, w.cache = .memory memory ∧ Lives capacity (moments log) memory
  onward : ∀ m ∈ (moments log).head?, m.time ≤ w.now
  answered : ∀ u e, (u, e) ∈ log →
    (∃ memory, u.cache = .memory memory) ∧ ∃ after, u.Answers e.call e.answer after

namespace World

/-- A call of a world whose cache is the one in memory asks it what it asks, and nothing else. -/
theorem Answers.inMemory {answer : c.Answer} (cacheWorks : u.cacheFaults = [])
    (inMemory : u.cache = .memory memory) (given : u.Answers c answer after) :
    after.cacheFaults = [] ∧ after.now = u.now ∧
      after.cache = .memory (c.request?.elim memory (memory.after u.now)) := by
  cases c with
  | query q =>
    rcases given.of_query with ⟨-, rfl⟩ | ⟨-, rfl⟩
    · exact ⟨cacheWorks, rfl, inMemory⟩
    · exact ⟨cacheWorks, rfl, inMemory⟩
  | cacheGet key =>
    rw [given.of_faultless cacheWorks rfl]
    refine ⟨cacheWorks, rfl, ?_⟩
    rw [cacheAfter, inMemory, MemoryCache.left_get]
    rfl
  | _ =>
    rw [given.of_faultless cacheWorks rfl]
    refine ⟨cacheWorks, rfl, ?_⟩
    simp only [cacheAfter, inMemory]
    rfl

/-- Nothing is recorded at first. -/
theorem IsRecorded.start (cacheWorks : w.cacheFaults = [])
    (empty : w.cache = .memory (.withCapacity capacity)) : w.IsRecorded capacity [] where
  cacheWorks := cacheWorks
  lives := ⟨_, empty, .start⟩
  onward := fun _ member => nomatch member
  answered := fun _ _ member => absurd member List.not_mem_nil

/-- The record survives the passing of time. -/
theorem IsRecorded.rests (recorded : w.IsRecorded capacity log) (rests : w.Rests after) :
    after.IsRecorded capacity log where
  cacheWorks := rests.cacheFaults.trans recorded.cacheWorks
  lives := rests.cache ▸ recorded.lives
  onward := fun m first => Nat.le_trans (recorded.onward m first) rests.onward
  answered := recorded.answered

/-- The record goes on with every call. -/
theorem IsRecorded.answers {answer : c.Answer} (recorded : u.IsRecorded capacity log)
    (given : u.Answers c answer after) :
    after.IsRecorded capacity (log ++ [(u, ⟨c, answer⟩)]) := by
  obtain ⟨memory, inMemory, lives⟩ := recorded.lives
  obtain ⟨cacheWorks, sameTime, left⟩ := given.inMemory recorded.cacheWorks inMemory
  have met : moments [(u, ⟨c, answer⟩)] =
      (c.request?.map fun request => (⟨u.now, request, memory⟩ : Moment)).toList := by
    rw [moments, List.filterMap_cons, moment?_of_memory inMemory]
    cases c.request? <;> rfl
  refine ⟨cacheWorks, ⟨_, left, ?lives⟩, ?onward, ?answered⟩
  case lives =>
    rw [moments_append, met]
    cases c.request? with
    | none => exact lives
    | some request => exact .next lives u.now request recorded.onward
  case onward =>
    rw [moments_append, met, sameTime]
    cases c.request? with
    | none => exact recorded.onward
    | some request =>
      rintro _ ⟨⟩
      exact Nat.le_refl _
  case answered =>
    intro other e member
    rcases List.mem_append.mp member with before | now
    · exact recorded.answered other e before
    · cases List.mem_singleton.mp now
      exact ⟨⟨memory, inMemory⟩, after, given⟩

end World

namespace Session

variable {visits : List Visit}

/-- A session is recorded. -/
theorem isRecorded (cacheWorks : w.cacheFaults = [])
    (empty : w.cache = .memory (.withCapacity capacity)) (session : Session r w visits t) :
    t.IsRecorded capacity (visits.flatMap Visit.log) := by
  induction session with
  | opens => exact .start cacheWorks empty
  | waits _ rests inductionHypothesis => exact inductionHypothesis.rests rests
  | @serves visits _ _ operation log result _ performs inductionHypothesis =>
    rw [List.flatMap_append, List.flatMap_singleton]
    have kept := performs.preserves
      (P := fun past u => u.IsRecorded capacity (visits.flatMap Visit.log ++ past))
      ((List.append_nil _).symm ▸ inductionHypothesis) World.IsRecorded.rests
      fun _ recorded given => by
        rw [← List.append_assoc]
        exact recorded.answers given
    exact kept.2

/-- The visits of a session were led to their ends. -/
theorem isLed (session : Session r w visits t) : ∀ v ∈ visits, v.IsLed r := by
  induction session with
  | opens => exact fun _ member => absurd member List.not_mem_nil
  | waits _ _ inductionHypothesis => exact inductionHypothesis
  | serves _ performs inductionHypothesis =>
    refine List.forall_mem_append.mpr ⟨inductionHypothesis, List.forall_mem_singleton.mpr ?_⟩
    exact (performs.preserves (P := fun _ _ => True) trivial (fun _ _ => trivial)
      fun _ _ _ => trivial).1

end Session

/-- A time that the clock reaches later, it reaches from an earlier time as well. -/
theorem MemoryCache.expiry?_of_le {now later : Nat} (onward : now ≤ later)
    (inRange : (expiry? later lifetime).isSome) :
    expiry? now lifetime = some (now + second * lifetime) := by
  simp only [expiry?] at inRange ⊢
  split at inRange
  · rename_i reached
    refine if_pos (Nat.le_trans (Nat.div_le_div_right ?_) reached)
    exact Nat.add_le_add_right onward _
  · cases inRange

namespace World

variable {answer : Except CacheError Unit}

/-- Recorded calls are no later than now. -/
theorem IsRecorded.time_le (recorded : t.IsRecorded capacity log) (member : m ∈ moments log) :
    m.time ≤ t.now := by
  obtain ⟨_, -, lives⟩ := recorded.lives
  exact lives.time_le recorded.onward m member

/-- Whatever a recorded call asks of the cache in memory is met by it. -/
theorem IsRecorded.met {e : Exchange} (recorded : t.IsRecorded capacity log)
    (member : (u, e) ∈ log) {request : MemoryCache.Request}
    (asked : e.call.request? = some request) :
    ∃ memory, u.cache = .memory memory ∧ moment? (u, e) = some ⟨u.now, request, memory⟩ ∧
      ⟨u.now, request, memory⟩ ∈ moments log := by
  obtain ⟨⟨memory, inMemory⟩, -⟩ := recorded.answered u e member
  have met : moment? (u, e) = some ⟨u.now, request, memory⟩ := by
    rw [moment?_of_memory inMemory, asked]
    rfl
  exact ⟨memory, inMemory, met, List.mem_reverse.mpr (List.mem_filterMap.mpr ⟨_, member, met⟩)⟩

/-- While the clock reaches the ends of lifetimes, copies are written until then. -/
theorem IsRecorded.writes (recorded : t.IsRecorded capacity log)
    (inRange : (expiry? t.now lifetime).isSome)
    (member : (u, ⟨.cacheSet key text lifetime, answer⟩) ∈ log) :
    ∃ m ∈ moments log, moment? (u, ⟨.cacheSet key text lifetime, answer⟩) = some m ∧
      m.time = u.now ∧ m.Writes key text (u.now + second * lifetime) := by
  obtain ⟨memory, -, met, among⟩ := recorded.met member rfl
  refine ⟨_, among, met, rfl, lifetime, rfl, ?_, rfl⟩
  exact Moment.set_ok_iff.mpr (MemoryCache.expiry?_of_le (recorded.time_le among) inRange)

/-- A call that is given a copy or writes one uses its key. -/
theorem IsRecorded.uses {e : Exchange} (recorded : t.IsRecorded capacity log)
    (inRange : (expiry? t.now lifetime).isSome) (member : (u, e) ∈ log)
    (touches : (∃ text, e = ⟨.cacheGet key, .ok text⟩) ∨
      ∃ text answer, e = ⟨.cacheSet key text lifetime, answer⟩) :
    ∃ m, moment? (u, e) = some m ∧ m.Uses key := by
  rcases touches with ⟨text, rfl⟩ | ⟨text, answer, rfl⟩
  · obtain ⟨memory, inMemory, met, -⟩ := recorded.met member rfl
    obtain ⟨-, _, given⟩ := recorded.answered u _ member
    have read := given.of_get
    rw [inMemory, MemoryCache.told_get] at read
    refine ⟨_, met, .inr ⟨rfl, text, ?_⟩⟩
    split at read
    · cases read
      assumption
    · cases read
  · obtain ⟨m, -, met, -, writes⟩ := recorded.writes inRange member
    exact ⟨m, met, .inl ⟨_, _, writes⟩⟩

/-- The copy that a call used stands while its key is not settled and fewer others are used than
there is room for. -/
theorem IsRecorded.stands {e : Exchange} {others : List String}
    (recorded : t.IsRecorded capacity (front ++ (u, e) :: back))
    (inRange : (expiry? t.now lifetime).isSome)
    (touches : (∃ text, e = ⟨.cacheGet key, .ok text⟩) ∨
      ∃ text answer, e = ⟨.cacheSet key text lifetime, answer⟩)
    (unsettled : ∀ l ∈ moments back, ¬l.Settles key)
    (only : ∀ l ∈ moments back, ∀ other, l.Uses other → other = key ∨ other ∈ others)
    (few : others.length < max capacity 1) :
    ∃ value limit, Stands (moments (front ++ (u, e) :: back)) key value limit := by
  have member : (u, e) ∈ front ++ (u, e) :: back := List.mem_append_right _ List.mem_cons_self
  obtain ⟨m, met, uses⟩ := recorded.uses inRange member touches
  obtain ⟨_, -, lives⟩ := recorded.lives
  rw [moments_at met] at lives ⊢
  obtain ⟨first, onward⟩ := lives.before
  obtain ⟨value, limit, stands⟩ := first.isCurrent.stands_of_uses onward uses
  exact ⟨value, limit, stands.of_few lives uses unsettled only few⟩

end World

namespace Session

variable {visits early recent : List Visit} {others : List Uuid}

/-- What is asked of the cache in some visits is asked in one of them. -/
theorem visit_of_moment (led : ∀ v ∈ visits, v.IsLed r)
    (member : m ∈ moments (visits.flatMap Visit.log)) :
    ∃ v ∈ visits, v.IsLed r ∧ ∃ e ∈ v.log.map Prod.snd, e.call = m.request.call := by
  obtain ⟨u, e, among, -, asked⟩ := mem_moments member
  obtain ⟨v, visited, logged⟩ := List.mem_flatMap.mp among
  exact ⟨v, visited, led v visited, e, List.mem_map_of_mem logged, asked⟩

/-- Visits that neither give a status nor change it do not settle the key of its copy. -/
theorem not_settles (led : ∀ v ∈ visits, v.IsLed r) (ungiven : ∀ v ∈ visits, ∀ s, ¬v.Gives id s)
    (unchanged : ∀ v ∈ visits, ¬v.Changes id) (member : m ∈ moments (visits.flatMap Visit.log)) :
    ¬m.Settles (cacheKey id) := by
  intro settles
  obtain ⟨v, visited, ledTo, e, logged, asked⟩ := visit_of_moment led member
  have either : (∃ s, v.Gives id s) ∨ v.Changes id := by
    rcases settles with ⟨_, _, _, writes, -⟩ | removes
    · rw [writes] at asked
      exact ledTo.settles logged (.inl ⟨_, _, asked⟩)
    · rw [removes] at asked
      exact ledTo.settles logged (.inr asked)
  rcases either with ⟨s, given⟩ | changed
  · exact ungiven v visited s given
  · exact unchanged v visited changed

/-- Visits use the keys of the statuses that they read. -/
theorem reads_of_uses (led : ∀ v ∈ visits, v.IsLed r)
    (member : m ∈ moments (visits.flatMap Visit.log)) (uses : m.Uses key) :
    ∃ v ∈ visits, ∃ id, v.operation = .get id ∧ key = cacheKey id := by
  obtain ⟨v, visited, ledTo, e, logged, asked⟩ := visit_of_moment led member
  refine ⟨v, visited, ?_⟩
  rcases uses with ⟨_, _, _, writes, -⟩ | ⟨asks, -⟩
  · rw [writes] at asked
    exact ledTo.reads logged (.inr ⟨_, _, asked⟩)
  · rw [asks] at asked
    exact ledTo.reads logged (.inl asked)

/-- After a read that gives a status, and until another read gives it, its copy stands while the
status is not changed and fewer others are read than there is room for. -/
theorem stands {last : Visit} (led : ∀ v ∈ early ++ last :: recent, v.IsLed r)
    (recorded : t.IsRecorded capacity ((early ++ last :: recent).flatMap Visit.log))
    (inRange : (expiry? t.now r.lifetime).isSome) (gives : last.Gives id s)
    (latest : ∀ v ∈ recent, ∀ s, ¬v.Gives id s) (unchanged : ∀ v ∈ recent, ¬v.Changes id)
    (only : ∀ v ∈ recent, ∀ other, v.operation = .get other → other = id ∨ other ∈ others)
    (few : others.length < max capacity 1) :
    ∃ value limit, Stands (moments ((early ++ last :: recent).flatMap Visit.log)) (cacheKey id)
      value limit := by
  obtain ⟨log, rfl⟩ := gives
  have reads : Visit.IsLed r ⟨.get id, log, .ok s⟩ :=
    led _ (List.mem_append_right _ List.mem_cons_self)
  have after : ∀ v ∈ recent, v.IsLed r :=
    fun v member => led v (List.mem_append_right _ (List.mem_cons_of_mem _ member))
  obtain ⟨_, _, _, split, silent, touches⟩ := Registry.touches_of_gives reads
  obtain ⟨calls, rest, rfl, -, restEq⟩ := List.map_eq_append_iff.mp split
  obtain ⟨⟨u, e⟩, counts, rfl, rfl, rfl⟩ := List.map_eq_cons_iff.mp restEq
  have whole : (early ++ ⟨.get id, calls ++ (u, e) :: counts, .ok s⟩ :: recent).flatMap Visit.log =
      (early.flatMap Visit.log ++ calls) ++ (u, e) :: (counts ++ recent.flatMap Visit.log) := by
    simp
  have quiet : moments (counts ++ recent.flatMap Visit.log) =
      moments (recent.flatMap Visit.log) := by
    rw [moments_append, moments_of_silent fun step member =>
      silent step.2 (List.mem_map_of_mem member), List.append_nil]
  have room : (others.map cacheKey).length < max capacity 1 := by
    rw [List.length_map]
    exact few
  rw [whole] at recorded ⊢
  refine recorded.stands inRange touches ?_ ?_ room
  · rw [quiet]
    exact fun l member => not_settles after latest unchanged member
  · rw [quiet]
    intro l member key uses
    obtain ⟨v, visited, other, same, rfl⟩ := reads_of_uses after member uses
    rcases only v visited other same with rfl | among
    · exact .inl rfl
    · exact .inr (List.mem_map_of_mem among)

/-- What stands under the key of a status was written for the lifetime of the registry, and no earlier
than any other copy of the status. -/
theorem limit_of_stands {writing : World} {filled : Except CacheError Unit} {value : String}
    {limit : Nat} (led : ∀ v ∈ visits, v.IsLed r)
    (recorded : t.IsRecorded capacity (visits.flatMap Visit.log))
    (inRange : (expiry? t.now r.lifetime).isSome) (visited : v ∈ visits)
    (member : (writing, ⟨.cacheSet key text lifetime, filled⟩) ∈ v.log)
    (stands : Stands (moments (visits.flatMap Visit.log)) key value limit) :
    writing.now + second * r.lifetime ≤ limit := by
  obtain rfl := (led v visited).lifetime_eq (List.mem_map_of_mem member) rfl
  obtain ⟨m, among, -, time, writes⟩ :=
    recorded.writes inRange (List.mem_flatMap.mpr ⟨v, visited, member⟩)
  obtain ⟨_, -, lives⟩ := recorded.lives
  obtain ⟨m', among', ⟨lifetime', writes', -, rfl⟩, order⟩ := stands.written lives among writes
  obtain ⟨v', -, ledTo, e, logged, asked⟩ := visit_of_moment led among'
  rw [writes'] at asked
  obtain rfl := ledTo.lifetime_eq logged asked
  rw [time] at order
  exact Nat.add_le_add_right order _

end Session

/-- A cache in memory that is empty holds only copies of live rows. -/
theorem World.isCoherent_of_empty (cacheWorks : w.cacheFaults = [])
    (empty : w.cache = .memory (.withCapacity capacity)) : w.IsCoherent where
  cacheWorks := cacheWorks
  serverWorks := by
    rw [empty]
    trivial
  copies := by
    rw [empty]
    rintro _ _ ⟨_, member, -⟩
    cases member

/-- A read that is given a copy by the cache in memory asks nothing of the store and counts a hit. -/
theorem World.run_hit (r : Registry) (cacheWorks : w.cacheFaults = [])
    (inMemory : w.cache = .memory memory)
    (given : (memory.get w.now (cacheKey id)).1 = some text)
    (decoded : Status.decode (Utf8.octets text) = .ok s) :
    w.run (r.serve (.get id)) =
      ⟨some (.ok s), { w with cache := .memory (memory.get w.now (cacheKey id)).2 },
        [.cacheGet (cacheKey id) .ok, .counted .hits]⟩ := by
  have read : w.cache.get w.now (cacheKey id) =
      (.ok text, [], .memory (memory.get w.now (cacheKey id)).2) := by
    rw [inMemory]
    refine Prod.ext ?_ (MemoryCache.left_get _ _ _)
    rw [MemoryCache.told_get, given]
  rw [Registry.serve_get]
  simp only [World.run, World.answer, World.answerGet, World.noFault cacheWorks, read, decoded,
    counting, List.map_nil, List.nil_append, List.cons_append]
  rfl

/-- Repeated reads are served from memory. Take operations that are served one after another with an
empty cache in memory, and a read that gave a status which nothing has changed since. Until the
lifetime of a copy is over that was written for it, the next read gives the same status, asks nothing
of the store and counts as a hit, if fewer other statuses than the cache has room for have been read
since the last read that gave the status. The clock must reach the end of a lifetime that starts now,
and the rows have dates that can be written down. -/
theorem repeated_read_is_hit (r : Registry) {capacity : Nat} {w t : World} {visits : List Visit}
    (cacheWorks : w.cacheFaults = []) (empty : w.cache = .memory (.withCapacity capacity))
    (session : Session r w visits t) (dated : ∀ s ∈ t.store.statuses, s.IsDated)
    (inRange : (expiry? t.now r.lifetime).isSome) {id : Uuid} {s : Status} {before later : List Visit}
    {first : Visit} (read : visits = before ++ first :: later) (gave : first.Gives id s)
    (unchanged : ∀ v ∈ later, ¬v.Changes id) {front recent : List Visit} {last : Visit} {row : Status}
    (reread : visits = front ++ last :: recent) (gives : last.Gives id row)
    (latest : ∀ v ∈ recent, ∀ s, ¬v.Gives id s) {others : List Uuid}
    (only : ∀ v ∈ recent, ∀ other, v.operation = .get other → other = id ∨ other ∈ others)
    (few : others.length < max capacity 1) {filling : Visit} (visited : filling ∈ visits)
    {writing : World} {text : String} {lifetime : Nat} {filled : Except CacheError Unit}
    (written : (writing, ⟨.cacheSet (cacheKey id) text lifetime, filled⟩) ∈ filling.log)
    (inTime : t.now < writing.now + second * r.lifetime) :
    (t.run (r.serve (.get id))).value = some (.ok s) ∧
      (t.run (r.serve (.get id))).events = [.cacheGet (cacheKey id) .ok, .counted .hits] := by
  have coherent := World.isCoherent_of_empty cacheWorks empty
  have recorded := session.isRecorded cacheWorks empty
  have led := session.isLed
  obtain ⟨memory, inMemory, lives⟩ := recorded.lives
  -- No visit after the last read that gave the status comes before the first one.
  have within : ∀ v ∈ recent, v ∈ later := by
    rcases Traffic.before_or_behind (read.symm.trans reread) with behind | there
    · exact behind
    · exact absurd gave (latest first there s)
  obtain ⟨value, limit, stands⟩ : ∃ value limit,
      Stands (moments (visits.flatMap Visit.log)) (cacheKey id) value limit := by
    subst reread
    exact Session.stands led recorded inRange gives latest
      (fun v member => unchanged v (within v member)) only few
  have live : t.now < limit := Nat.lt_of_lt_of_le inTime
    (Session.limit_of_stands led recorded inRange visited written stands)
  have given : (memory.get t.now (cacheKey id)).1 = some value :=
    (lives.isCurrent.get_eq_some_iff recorded.onward).mpr ⟨limit, stands, live⟩
  have told : (t.cache.get t.now (cacheKey id)).1 = .ok value := by
    rw [inMemory, MemoryCache.told_get, given]
  obtain ⟨copied, rfl, current⟩ := (session.isCoherent coherent).copies id value (Cache.holds_of_get told)
  obtain ⟨found, still, same⟩ := Session.live_of_gives coherent (read ▸ session) gave unchanged
  obtain rfl := Option.some.inj (current.symm.trans still)
  have dates := dated _ (List.mem_of_find?_eq_some current)
  rw [World.run_hit r recorded.cacheWorks inMemory given (Status.decode_text dates), same dates]
  exact ⟨rfl, rfl⟩

namespace Sample

/-- Another status. -/
def otherRow : Status := { row with id := Uuid.ofOrdinal 2 }

/-- A store that holds both statuses. -/
def bothRows : Store := { Store.empty with statuses := [row, otherRow] }

/-- A world around the store whose cache has room for one copy. -/
def holding (copy : Option Status) (faults : List (String × StoreFault)) : World :=
  ⟨bothRows, faults, .free,
    .memory ⟨1, copy.toList.map fun s => ⟨cacheKey s.id, s.toJson.text, 301000000000⟩⟩, [],
    1000000000⟩

/-- The cache has no copy of another status than the one it holds. -/
theorem get_holding {copy : Option Status} {faults : List (String × StoreFault)} {id : Uuid}
    (absent : ∀ o ∈ copy, o.id ≠ id) :
    (holding copy faults).Answers (.cacheGet (cacheKey id)) (.error (.miss (cacheKey id)))
      (holding copy faults) := by
  have missed : (holding copy faults).cache.get (holding copy faults).now (cacheKey id) =
      (.error (.miss (cacheKey id)), [], (holding copy faults).cache) := by
    cases copy with
    | none => rfl
    | some o =>
      have ne : cacheKey o.id ≠ cacheKey id := fun same => absent o rfl (cacheKey_injective same)
      simp [holding, Cache.get, MemoryCache.get, MemoryCache.find?, ne]
  have answered := World.answer_get (w := holding copy faults) rfl (cacheKey id)
  rw [missed] at answered
  exact answered

/-- The cache makes room for a copy. -/
theorem set_holding (copy : Option Status) (s : Status) :
    (holding copy []).Answers (.cacheSet (cacheKey s.id) s.toJson.text 300) (.ok ())
      (holding (some s) []) := by
  have kept : (holding copy []).cache.set (holding copy []).now (cacheKey s.id) s.toJson.text 300 =
      (.ok (), [], (holding (some s) []).cache) := by
    have ends : expiry? 1000000000 300 = some 301000000000 := rfl
    simp only [holding, Cache.set, MemoryCache.set, ends, MemoryCache.put, Nat.sub_self,
      List.take_zero]
    rfl
  have answered := World.answer_set (w := holding copy []) rfl (cacheKey s.id) s.toJson.text 300
  rw [kept] at answered
  exact answered

/-- The calls of a read that is not given a copy and writes one. -/
def fillLog (copy : Option Status) (s : Status) : List (World × Exchange) := [
  (holding copy [], ⟨.cacheGet (cacheKey s.id), .error (.miss (cacheKey s.id))⟩),
  (holding copy [], ⟨.count .misses, ()⟩),
  (holding copy [], ⟨.query (.findStatus s.id), .ok (some s)⟩),
  (holding copy [], ⟨.cacheSet (cacheKey s.id) s.toJson.text 300, .ok ()⟩)]

/-- A read that is not given a copy writes one. -/
theorem performs_fill {copy : Option Status} {s : Status} (absent : ∀ o ∈ copy, o.id ≠ s.id)
    (found : bothRows.live s.id = some s) :
    (holding copy []).Performs (registry.serve (.get s.id)) (fillLog copy s) (holding (some s) [])
      (.ok s) := by
  rw [Registry.serve_get]
  refine .call (.refl _) (get_holding absent) ?_
  refine .call (.refl _) ⟨_, rfl⟩ ?_
  have looked : (holding copy []).Answers (.query (.findStatus s.id)) (.ok (some s))
      (holding copy []) := by
    rw [← found]
    exact ⟨_, rfl⟩
  refine .call (.refl _) looked ?_
  refine .call (.refl _) (set_holding copy s) ?_
  exact .done

/-- The store is set to fail at lookups. -/
def lookupsFail : List (String × StoreFault) :=
  [((Statement.findStatus row.id).name, .error .disconnected)]

/-- The calls of a read that is not given a copy and fails at the store. -/
def failLog : List (World × Exchange) := [
  (holding (some otherRow) [], ⟨.cacheGet (cacheKey row.id), .error (.miss (cacheKey row.id))⟩),
  (holding (some otherRow) [], ⟨.count .misses, ()⟩),
  (holding (some otherRow) lookupsFail, ⟨.query (.findStatus row.id), .error .disconnected⟩)]

/-- The store may begin to fail or to work again while time passes. -/
theorem rests_holding (copy : Option Status) (faults faults' : List (String × StoreFault)) :
    (holding copy faults).Rests (holding copy faults') := ⟨rfl, rfl, rfl, Nat.le_refl _⟩

/-- The cache holds a copy of the other status only. -/
theorem other_absent : ∀ o ∈ some otherRow, o.id ≠ row.id := by
  rintro _ ⟨⟩
  decide

/-- A read that is not given a copy fails at the store, and leaves no copy. -/
theorem performs_fail : (holding (some otherRow) []).Performs (registry.serve (.get row.id)) failLog
    (holding (some otherRow) lookupsFail)
    (.error (StoreError.disconnected.toFailure.withOperation (Statement.findStatus row.id).name)) := by
  rw [Registry.serve_get]
  refine .call (.refl _) (get_holding other_absent) ?_
  refine .call (.refl _) ⟨_, rfl⟩ ?_
  refine .call (rests_holding _ _ _) ⟨_, rfl⟩ ?_
  exact .done

/-- A status is read. -/
def reading : Visit := ⟨.get row.id, fillLog none row, .ok row⟩

/-- Another status is read, and its copy takes the place of the first. -/
def replacing : Visit := ⟨.get otherRow.id, fillLog (some row) otherRow, .ok otherRow⟩

/-- The first status is read again, and the store fails. -/
def failing : Visit := ⟨.get row.id, failLog,
  .error (StoreError.disconnected.toFailure.withOperation (Statement.findStatus row.id).name)⟩

/-- The cache is empty at first. -/
theorem holding_none : (holding none []).cache = .memory (.withCapacity 1) := rfl

/-- The first read puts a copy into the cache. -/
theorem session_reading : Session registry (holding none []) [reading] (holding (some row) []) :=
  .serves .opens (performs_fill nofun rfl)

/-- The store works again after the three reads. -/
theorem session_failing : Session registry (holding none []) [reading, replacing, failing]
    (holding (some otherRow) []) := by
  have absent : ∀ o ∈ some row, o.id ≠ otherRow.id := by
    rintro _ ⟨⟩
    decide
  have replaced : Session registry (holding none []) [reading, replacing]
      (holding (some otherRow) []) := session_reading.serves (performs_fill absent rfl)
  exact (replaced.serves performs_fail).waits (rests_holding _ _ _)

/-- A copy of the first status is written by the first read. -/
theorem mem_reading : (holding none [],
    ⟨.cacheSet (cacheKey row.id) row.toJson.text 300, .ok ()⟩) ∈ reading.log :=
  List.mem_cons_of_mem _ (List.mem_cons_of_mem _ (List.mem_cons_of_mem _ List.mem_cons_self))

/-- A read that is not given a copy asks the store. -/
theorem executed_of_absent {copy : Option Status} {id : Uuid} (absent : ∀ o ∈ copy, o.id ≠ id) :
    .executed (.findStatus id) ∈ ((holding copy []).run (registry.serve (.get id))).events := by
  have answered : (holding copy []).Answers (.cacheGet (cacheKey id))
      (.error (.miss (cacheKey id))) (holding copy []) := get_holding absent
  obtain ⟨events, missed⟩ := answered
  have looked : .executed (.findStatus id) ∈
      ((holding copy []).run (finding id (registry.filling id))).events :=
    List.mem_append_left _ List.mem_cons_self
  rw [Registry.serve_get]
  simp only [World.run, missed]
  exact List.mem_append_right events (List.mem_append_right [_] looked)

end Sample

open Sample

/-- A status that has been read is read again from memory just before the lifetime of its copy is
over. -/
theorem second_read_is_hit : ∃ t, Session registry (holding none []) [reading] t ∧
    t.now = 300 * second ∧ (t.run (registry.serve (.get row.id))).value = some (.ok row) ∧
    (t.run (registry.serve (.get row.id))).events =
      [.cacheGet (cacheKey row.id) .ok, .counted .hits] := by
  have session : Session registry (holding none []) [reading]
      { holding (some row) [] with now := 300 * second } :=
    session_reading.waits ⟨rfl, rfl, rfl, by decide⟩
  have dated : ∀ s ∈ bothRows.statuses, s.IsDated := by
    intro s member
    rcases List.mem_pair.mp member with rfl | rfl
    · exact row_isDated
    · exact ⟨row_isDated.1, row_isDated.2, row_isDated.3⟩
  have inRange : (expiry? (300 * second) registry.lifetime).isSome := by decide
  have split : [reading] = [] ++ reading :: [] := rfl
  have gives : reading.Gives row.id row := ⟨_, rfl⟩
  have few : ([] : List Uuid).length < max 1 1 := by decide
  refine ⟨_, session, rfl, ?_⟩
  exact repeated_read_is_hit registry rfl holding_none session dated inRange split gives
    (fun _ member => absurd member List.not_mem_nil) split gives
    (fun _ member => absurd member List.not_mem_nil)
    (fun _ member => absurd member List.not_mem_nil) few List.mem_cons_self mem_reading (by decide)

/-- It is the last read that gave the status that counts. Here a status is read, and then another,
which takes its place in a cache with room for one copy. The next read of the first status fails at
the store. No other status is read after that, and yet one more read of the first status asks the
store, though nothing has changed the status and the lifetime of its copy is not over. -/
theorem failed_read_is_no_use : ∃ (t : World) (first other failed : Visit),
    (holding none []).cache = .memory (.withCapacity 1) ∧
    Session registry (holding none []) [first, other, failed] t ∧
    first.Gives row.id row ∧ (∀ v ∈ [other, failed], ¬v.Changes row.id) ∧
    failed.operation = .get row.id ∧
    (∃ writing filled,
      (writing, ⟨.cacheSet (cacheKey row.id) row.toJson.text 300, filled⟩) ∈ first.log ∧
        t.now < writing.now + second * registry.lifetime) ∧
    (expiry? t.now registry.lifetime).isSome ∧
    .executed (.findStatus row.id) ∈ (t.run (registry.serve (.get row.id))).events := by
  refine ⟨_, reading, replacing, failing, holding_none, session_failing, ⟨_, rfl⟩, ?unchanged, rfl,
    ⟨_, _, mem_reading, by decide⟩, rfl, executed_of_absent other_absent⟩
  intro v member
  rcases List.mem_pair.mp member with rfl | rfl
  · exact fun ⟨target, _⟩ => nomatch target
  · exact fun ⟨target, _⟩ => nomatch target

end StatusRegistry
