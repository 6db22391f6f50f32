import StatusRegistry.Proofs.Cache
import StatusRegistry.Proofs.Status
import StatusRegistry.Proofs.Store
import StatusRegistry.Proofs.Traffic

/-!
# What surrounds the requests

Two assumptions carry the theorems about runs: that rows change only through statements, and that a
cache gives out only what was written to it and not removed since. Both are met by a world in which
nothing is set to fail, and still met where statements fail without effect and where reads and
writes of the cache fail at will. A cache may forget at any time.
-/

namespace StatusRegistry

namespace World

/-- Nothing is set to fail. -/
structure IsSound (w : World) : Prop where
  storeWorks : w.storeFaults = []
  connected : w.connection = .free
  cacheWorks : w.cacheFaults = []
  serverWorks : w.cache.IsFaultless

/-- A world gives an answer to a call. -/
def Answers (w : World) (c : Call) (answer : c.Answer) (after : World) : Prop :=
  ∃ events, w.answer c = ⟨some answer, after, events⟩

/-- Whether a call is a statement of the store. -/
def isStatement : Call → Bool
  | .query _ => true
  | _ => false

/-- The cache after a call that works. -/
def cacheAfter (w : World) : Call → Cache
  | .cacheGet key => (w.cache.get w.now key).2.2
  | .cacheSet key text lifetime => (w.cache.set w.now key text lifetime).2.2
  | .cacheDelete key => (w.cache.delete key).2.2
  | _ => w.cache

/-- A call fails. A statement that fails has no effect; a write to the cache may have had its
effect all the same. -/
def Fails (w : World) : (c : Call) → c.Answer → World → Prop
  | .query _, .error _, after => after = w
  | .cacheGet _, .error _, after => after = w
  | .cacheSet key text lifetime, .error _, after =>
    after = w ∨ after = { w with cache := (w.cache.set w.now key text lifetime).2.2 }
  | _, _, _ => False

/-- Time passes: clocks move, the cache may forget, and the statuses stay. -/
structure Waits (w after : World) : Prop where
  statuses : after.store.statuses = w.store.statuses
  forgets : ∀ key text, after.cache.Holds key text → w.cache.Holds key text
  sound : after.IsSound

variable {w after : World} {c : Call} {answer : c.Answer}

/-- A program whose first call is answered goes on with the answer. -/
theorem value_ask {α : Type} (given : w.Answers c answer after) (next : c.Answer → Program α) :
    (w.run (.call c next)).value = (after.run (next answer)).value := by
  obtain ⟨_, answered⟩ := given
  simp only [run, answered]

/-- A statement fails without effect, is never answered and has no effect, or does what the store
does. Nothing happens but that it is asked. -/
theorem answerQuery_cases (w : World) (q : Statement) :
    (∃ e events, w.answerQuery q = ⟨some (.error e), w, events⟩ ∧ ∀ ev ∈ events, ev = .executed q) ∨
    (∃ after events, w.answerQuery q = ⟨none, after, events⟩ ∧ after.store = w.store ∧
      ∀ ev ∈ events, ev = .executed q) ∨
    w.answerQuery q =
      ⟨some (w.store.execute q).1, { w with store := (w.store.execute q).2 }, [.executed q]⟩ := by
  have silent : ∀ ev ∈ ([] : List Event), ev = .executed q :=
    fun _ member => absurd member List.not_mem_nil
  have asked : ∀ ev ∈ [Event.executed q], ev = .executed q := fun _ => List.mem_singleton.mp
  unfold answerQuery
  split
  · exact .inl ⟨_, _, rfl, silent⟩
  · exact .inr (.inl ⟨_, _, rfl, rfl, silent⟩)
  · split
    · exact .inr (.inl ⟨_, _, rfl, rfl, asked⟩)
    · exact .inl ⟨_, _, rfl, asked⟩
    · exact .inr (.inr rfl)

/-- A statement that is answered fails without effect, or does what the store does. -/
theorem Answers.of_query {q : Statement} {answer : Except StoreError q.Result}
    (given : w.Answers (.query q) answer after) :
    (∃ e, answer = .error e) ∧ after = w ∨
      answer = (w.store.execute q).1 ∧ after = { w with store := (w.store.execute q).2 } := by
  obtain ⟨events, given⟩ := given
  have given : w.answerQuery q = ⟨some answer, after, events⟩ := given
  rcases w.answerQuery_cases q with ⟨e, _, fails, -⟩ | ⟨_, _, waits, -⟩ | works
  · cases given.symm.trans fails
    exact .inl ⟨⟨e, rfl⟩, rfl⟩
  · cases given.symm.trans waits
  · cases given.symm.trans works
    exact .inr ⟨rfl, rfl⟩

/-- A call that is no statement touches at most the cache. -/
theorem Answers.of_other (given : w.Answers c answer after) (other : isStatement c = false) :
    after = w ∨ after = { w with cache := w.cacheAfter c } := by
  obtain ⟨events, given⟩ := given
  cases c with
  | query q => cases other
  | cacheGet key =>
    simp only [World.answer, answerGet] at given
    cases fault : w.cacheFaults.lookup .get <;> (rw [fault] at given; cases given)
    · exact .inr rfl
    · exact .inl rfl
  | cacheSet key text lifetime =>
    simp only [World.answer, answerSet] at given
    cases fault : w.cacheFaults.lookup .set <;> (rw [fault] at given; cases given)
    · exact .inr rfl
    · exact .inl rfl
  | cacheDelete key =>
    simp only [World.answer, answerDelete] at given
    cases fault : w.cacheFaults.lookup .delete <;> (rw [fault] at given; cases given)
    · exact .inr rfl
    · exact .inl rfl
  | cacheHealth =>
    cases given
    exact .inl rfl
  | count m =>
    cases given
    exact .inl rfl

/-- What a read of the cache gives out, the cache gave. -/
theorem Answers.of_get {key text : String} (given : w.Answers (.cacheGet key) (.ok text) after) :
    (w.cache.get w.now key).1 = .ok text := by
  obtain ⟨events, given⟩ := given
  simp only [World.answer, answerGet] at given
  cases fault : w.cacheFaults.lookup .get with
  | some fault =>
    rw [fault] at given
    have answered := congrArg Outcome.value given
    cases Option.some.inj answered
  | none =>
    rw [fault] at given
    have answered := congrArg Outcome.value given
    exact Option.some.inj answered

/-- A world whose store works executes a statement. -/
theorem answer_query (works : w.storeFaults = []) (connected : w.connection = .free)
    (q : Statement) :
    w.Answers (.query q) (w.store.execute q).1 { w with store := (w.store.execute q).2 } := by
  refine ⟨[.executed q], ?_⟩
  obtain ⟨store, faults, connection, cache, cacheFaults, now⟩ := w
  subst works connected
  rfl

/-- A world without faults executes a statement. -/
theorem IsSound.answer_query (sound : w.IsSound) (q : Statement) :
    w.Answers (.query q) (w.store.execute q).1 { w with store := (w.store.execute q).2 } :=
  World.answer_query sound.storeWorks sound.connected q

/-- The answer of a world without faults to a statement. -/
theorem IsSound.answers_query (sound : w.IsSound) {q : Statement}
    {answer : Except StoreError q.Result} (given : w.Answers (.query q) answer after) :
    answer = (w.store.execute q).1 ∧ after = { w with store := (w.store.execute q).2 } := by
  obtain ⟨events, given⟩ := given
  obtain ⟨_, own⟩ := sound.answer_query q
  cases given.symm.trans own
  exact ⟨rfl, rfl⟩

/-- No call of the cache is set to fail where none is. -/
theorem noFault (works : w.cacheFaults = []) (operation : CacheOperation) :
    w.cacheFaults.lookup operation = none := by
  rw [works]
  rfl

/-- A call that is no statement touches nothing but the cache, where no call of the cache is set to
fail. -/
theorem Answers.of_faultless (works : w.cacheFaults = []) (given : w.Answers c answer after)
    (other : isStatement c = false) : after = { w with cache := w.cacheAfter c } := by
  obtain ⟨events, given⟩ := given
  cases c with
  | query q => cases other
  | cacheGet key =>
    simp only [World.answer, answerGet, noFault works] at given
    cases given
    rfl
  | cacheSet key text lifetime =>
    simp only [World.answer, answerSet, noFault works] at given
    cases given
    rfl
  | cacheDelete key =>
    simp only [World.answer, answerDelete, noFault works] at given
    cases given
    rfl
  | cacheHealth =>
    cases given
    rfl
  | count m =>
    cases given
    rfl

/-- In a world without faults, a call that is no statement touches nothing but the cache. -/
theorem IsSound.answers_other (sound : w.IsSound) (given : w.Answers c answer after)
    (other : isStatement c = false) : after = { w with cache := w.cacheAfter c } :=
  given.of_faultless sound.cacheWorks other

/-- A read of a cache that is not set to fail gives what the cache gives. -/
theorem answer_get (works : w.cacheFaults = []) (key : String) :
    w.Answers (.cacheGet key) (w.cache.get w.now key).1
      { w with cache := (w.cache.get w.now key).2.2 } := by
  refine ⟨(w.answerGet key).1, ?_⟩
  simp only [World.answer, answerGet, noFault works]

/-- A write to a cache that is not set to fail ends as the cache tells. -/
theorem answer_set (works : w.cacheFaults = []) (key text : String) (lifetime : Nat) :
    w.Answers (.cacheSet key text lifetime) (w.cache.set w.now key text lifetime).1
      { w with cache := (w.cache.set w.now key text lifetime).2.2 } := by
  refine ⟨(w.answerSet key text lifetime).1, ?_⟩
  simp only [World.answer, answerSet, noFault works]

/-- A world without faults reads what the cache gives. -/
theorem IsSound.answer_get (sound : w.IsSound) (key : String) :
    w.Answers (.cacheGet key) (w.cache.get w.now key).1
      { w with cache := (w.cache.get w.now key).2.2 } :=
  World.answer_get sound.cacheWorks key

/-- The answer of a world without faults to a read of the cache. -/
theorem IsSound.answers_get (sound : w.IsSound) {key : String} {answer : Except CacheError String}
    (given : w.Answers (.cacheGet key) answer after) :
    answer = (w.cache.get w.now key).1 := by
  obtain ⟨events, given⟩ := given
  obtain ⟨_, own⟩ := sound.answer_get key
  cases given.symm.trans own
  rfl

/-- A call of a cache that works leaves it working. -/
theorem Answers.isFaultless (cacheWorks : w.cacheFaults = []) (serverWorks : w.cache.IsFaultless)
    (given : w.Answers c answer after) : after.cacheFaults = [] ∧ after.cache.IsFaultless := by
  cases c with
  | query q =>
    rcases given.of_query with ⟨-, rfl⟩ | ⟨-, rfl⟩
    · exact ⟨cacheWorks, serverWorks⟩
    · exact ⟨cacheWorks, serverWorks⟩
  | cacheGet key =>
    rw [given.of_faultless cacheWorks rfl]
    exact ⟨cacheWorks, Cache.isFaultless_get serverWorks⟩
  | cacheSet key text lifetime =>
    rw [given.of_faultless cacheWorks rfl]
    exact ⟨cacheWorks, Cache.isFaultless_set serverWorks⟩
  | cacheDelete key =>
    rw [given.of_faultless cacheWorks rfl]
    exact ⟨cacheWorks, Cache.isFaultless_delete serverWorks⟩
  | cacheHealth =>
    rw [given.of_faultless cacheWorks rfl]
    exact ⟨cacheWorks, serverWorks⟩
  | count m =>
    rw [given.of_faultless cacheWorks rfl]
    exact ⟨cacheWorks, serverWorks⟩

/-- What a cache that works holds after a call it held before, and the call did not remove it, or
the call has written it. -/
theorem Answers.holds (cacheWorks : w.cacheFaults = []) (serverWorks : w.cache.IsFaultless)
    (given : w.Answers c answer after) {key text : String} (held : after.cache.Holds key text) :
    w.cache.Holds key text ∧ c ≠ .cacheDelete key ∨ ∃ lifetime, c = .cacheSet key text lifetime := by
  cases c with
  | query q =>
    rcases given.of_query with ⟨-, rfl⟩ | ⟨-, rfl⟩
    · exact .inl ⟨held, nofun⟩
    · exact .inl ⟨held, nofun⟩
  | cacheGet other =>
    rw [given.of_faultless cacheWorks rfl] at held
    exact .inl ⟨Cache.holds_of_holds_get held, nofun⟩
  | cacheSet other value lifetime =>
    rw [given.of_faultless cacheWorks rfl] at held
    rcases Cache.holds_of_holds_set held with before | ⟨rfl, rfl⟩
    · exact .inl ⟨before, nofun⟩
    · exact .inr ⟨lifetime, rfl⟩
  | cacheDelete other =>
    rw [given.of_faultless cacheWorks rfl] at held
    obtain ⟨ne, before⟩ := Cache.holds_of_holds_delete (Cache.delete_ok serverWorks) held
    refine .inl ⟨before, ?_⟩
    rintro ⟨⟩
    exact ne rfl
  | cacheHealth =>
    rw [given.of_faultless cacheWorks rfl] at held
    exact .inl ⟨held, nofun⟩
  | count m =>
    rw [given.of_faultless cacheWorks rfl] at held
    exact .inl ⟨held, nofun⟩

/-- A world without faults stays without faults. -/
theorem IsSound.answers_sound (sound : w.IsSound) (given : w.Answers c answer after) :
    after.IsSound := by
  obtain ⟨cacheWorks, serverWorks⟩ := given.isFaultless sound.cacheWorks sound.serverWorks
  cases c with
  | query q =>
    obtain ⟨-, rfl⟩ := sound.answers_query given
    exact ⟨sound.storeWorks, sound.connected, cacheWorks, serverWorks⟩
  | _ =>
    obtain rfl := sound.answers_other given rfl
    exact ⟨sound.storeWorks, sound.connected, cacheWorks, serverWorks⟩

end World

/-- Calls are answered by a world in which nothing fails. -/
def Surroundings.reliable : Surroundings where
  answers w c answer after := w.IsSound ∧ w.Answers c answer after
  drifts := World.Waits

/-- Statements and reads and writes of the cache may fail; removals from the cache do not. -/
def Surroundings.unreliable : Surroundings where
  answers w c answer after := w.IsSound ∧ w.Answers c answer after ∨ w.Fails c answer after
  drifts := World.Waits

/-- Rows change only through statements. -/
structure Surroundings.KeepsRows (around : Surroundings) : Prop where
  /-- A statement fails without effect on the rows, or does what the store does. -/
  statements : ∀ {w q answer after}, around.answers w (.query q) answer after →
    (∃ e, answer = .error e) ∧ after.store.statuses = w.store.statuses ∨
      answer = (w.store.execute q).1 ∧
        after.store.statuses = (w.store.execute q).2.statuses
  /-- Other calls do not touch the rows. -/
  others : ∀ {w c answer after}, around.answers w c answer after → World.isStatement c = false →
    after.store.statuses = w.store.statuses
  /-- Time does not touch the rows. -/
  drifts : ∀ {w after}, around.drifts w after → after.store.statuses = w.store.statuses

/-- A cache gives out only what was written to it and not removed since. -/
structure Surroundings.KeepsCopies (around : Surroundings) : Prop where
  /-- What is read is held. -/
  reads : ∀ {w key text after}, around.answers w (.cacheGet key) (.ok text) after →
    w.cache.Holds key text
  /-- What is held was held before or has been written. -/
  writes : ∀ {w c answer after key text}, around.answers w c answer after →
    after.cache.Holds key text →
    w.cache.Holds key text ∨ ∃ lifetime, c = .cacheSet key text lifetime
  /-- What is removed is no longer held. -/
  removes : ∀ {w key answer after}, around.answers w (.cacheDelete key) answer after →
    ∀ text, ¬after.cache.Holds key text
  /-- Time adds nothing. -/
  forgets : ∀ {w after key text}, around.drifts w after → after.cache.Holds key text →
    w.cache.Holds key text

namespace Surroundings

open World

/-- Failing calls leave the rows alone. -/
theorem unreliable_keepsRows : unreliable.KeepsRows where
  statements := by
    rintro w q answer after (⟨sound, given⟩ | fails)
    · obtain ⟨rfl, rfl⟩ := sound.answers_query given
      exact .inr ⟨rfl, rfl⟩
    · cases answer with
      | ok result => exact fails.elim
      | error e =>
        have same : after = w := fails
        exact .inl ⟨⟨e, rfl⟩, by rw [same]⟩
  others := by
    rintro w c answer after (⟨sound, given⟩ | fails) other
    · rw [sound.answers_other given other]
    · unfold Fails at fails
      split at fails
      · cases other
      · rw [fails]
      · rcases fails with same | written
        · rw [same]
        · rw [written]
      · exact fails.elim
  drifts := Waits.statuses

/-- Failing reads and writes add nothing to the cache but what was to be written. -/
theorem unreliable_keepsCopies : unreliable.KeepsCopies where
  reads := by
    rintro w key text after (⟨sound, given⟩ | fails)
    · exact Cache.holds_of_get (sound.answers_get given).symm
    · exact fails.elim
  writes := by
    rintro w c answer after key text (⟨sound, given⟩ | fails) held
    · exact (given.holds sound.cacheWorks sound.serverWorks held).imp_left And.left
    · unfold Fails at fails
      split at fails
      · exact .inl (fails ▸ held)
      · exact .inl (fails ▸ held)
      · rcases fails with same | written
        · exact .inl (same ▸ held)
        · rw [written] at held
          rcases Cache.holds_of_holds_set held with before | ⟨rfl, rfl⟩
          · exact .inl before
          · exact .inr ⟨_, rfl⟩
      · exact fails.elim
  removes := by
    rintro w key answer after (⟨sound, given⟩ | fails) text held
    · rcases given.holds sound.cacheWorks sound.serverWorks held with ⟨-, other⟩ | ⟨_, ⟨⟩⟩
      exact other rfl
    · cases answer <;> exact fails.elim
  forgets := fun waits => waits.forgets _ _

/-- A reliable answer is one that unreliable surroundings may give. -/
theorem reliable_answers {w after : World} {c : Call} {answer : c.Answer}
    (answered : reliable.answers w c answer after) : unreliable.answers w c answer after :=
  .inl answered

/-- Rows change only through statements where nothing fails. -/
theorem reliable_keepsRows : reliable.KeepsRows where
  statements answered := unreliable_keepsRows.statements (reliable_answers answered)
  others answered := unreliable_keepsRows.others (reliable_answers answered)
  drifts := Waits.statuses

/-- A cache gives out only what was written to it where nothing fails. -/
theorem reliable_keepsCopies : reliable.KeepsCopies where
  reads answered := unreliable_keepsCopies.reads (reliable_answers answered)
  writes answered := unreliable_keepsCopies.writes (reliable_answers answered)
  removes answered := unreliable_keepsCopies.removes (reliable_answers answered)
  forgets waits := waits.forgets _ _

end Surroundings

/-- What happens where nothing fails may happen where calls may fail. -/
theorem Traffic.Runs.unreliable {r : Registry} {start t : Traffic} {acts : List Act}
    (run : Runs r .reliable start acts t) : Runs r .unreliable start acts t := by
  induction run with
  | refl => exact .refl
  | step _ next inductionHypothesis =>
    refine .step inductionHypothesis ?_
    cases next with
    | arrive => exact .arrive
    | exchange waiting answered => exact .exchange waiting (.inl answered)
    | finish ended => exact .finish ended
    | drop served => exact .drop served
    | drift drifted => exact .drift drifted

namespace Traffic

/-- Where nothing fails, a request that has the world to itself gets the answers that running its
program would give it, and leaves the same world. -/
theorem runs_of_run {r : Registry} {k : Nat} {operation : Operation}
    {rest : Registry.Service operation.Result} {result : Except Failure operation.Result}
    {t : Traffic} (sound : t.world.IsSound) (served : t.requests k = some ⟨operation, rest⟩)
    (value : (t.world.run rest).value = some result) :
    ∃ acts after, Runs r .reliable t acts after ∧
      after.requests k = some ⟨operation, .done result⟩ ∧
      (∀ j, j ≠ k → after.requests j = t.requests j) ∧
      after.world = (t.world.run rest).world := by
  induction rest generalizing t with
  | done a =>
    cases value
    exact ⟨[], t, .refl, served, fun _ _ => rfl, rfl⟩
  | call c next ih =>
    simp only [World.run] at value ⊢
    cases answered : t.world.answer c with
    | mk answer world events =>
      rw [answered] at value
      cases answer with
      | none => cases value
      | some answer =>
        have given : t.world.Answers c answer world := ⟨events, answered⟩
        have first : Step r .reliable t (.exchange k ⟨c, answer⟩)
            { t.enter k (some ⟨operation, next answer⟩) with world := world } :=
          .exchange served ⟨sound, given⟩
        obtain ⟨acts, after, onward, ended, others, final⟩ := ih answer
          (t := { t.enter k (some ⟨operation, next answer⟩) with world := world })
          (sound.answers_sound given) (enter_requests_self t k _) value
        refine ⟨_, after, .cons first onward, ended, fun j ne => ?_, final⟩
        exact (others j ne).trans (enter_requests_of_ne t _ ne)

/-- Where nothing fails, what an operation gives by itself is what a request for it ends with. -/
theorem runs_alone {r : Registry} {w : World} (sound : w.IsSound) {operation : Operation}
    {result : Except Failure operation.Result}
    (value : (w.run (r.serve operation)).value = some result) :
    ∃ acts t, Runs r .reliable (idle w)
      (.arrive 0 operation :: acts ++ [.finish 0 operation result]) t ∧ t.IsIdle ∧
      t.world = (w.run (r.serve operation)).world := by
  have arrives : Step r .reliable (idle w) (.arrive 0 operation) _ := .arrive
  obtain ⟨acts, after, onward, ended, others, final⟩ :=
    runs_of_run (k := 0)
      (t := { (idle w).enter 0 (some ⟨operation, r.serve operation⟩) with arrived := 1 })
      sound (enter_requests_self (idle w) 0 _) value
  have finishes : Step r .reliable after (.finish 0 operation result) (after.enter 0 none) :=
    .finish ended
  refine ⟨acts, after.enter 0 none, .step (.cons arrives onward) finishes, fun k => ?_, final⟩
  by_cases same : k = 0
  · rw [same]
    exact enter_requests_self after 0 none
  · rw [enter_requests_of_ne after none same, others k same]
    exact enter_requests_of_ne (idle w) _ same

end Traffic

namespace Sample

/-- A registry that keeps copies for five minutes. -/
def registry : Registry := ⟨300, false⟩

/-- A user. -/
def owner : Uuid := Uuid.ofOrdinal 7

/-- A status. -/
def row : Status where
  id := Uuid.ofOrdinal 1
  createdBy := owner
  updatedBy := owner
  createdAt := ⟨1704067200, 0⟩
  updatedAt := ⟨1704067200, 0⟩
  deletedAt := none
  name := "Open"
  description := "Accepts work"
  active := true
  orderNumber := 0

/-- The status has dates that can be written down. -/
theorem row_isDated : row.IsDated := ⟨⟨by decide, by decide⟩, ⟨by decide, by decide⟩, nofun⟩

/-- A store that holds nothing else. -/
def store : Store := { Store.empty with statuses := [row] }

/-- New content for the status. -/
def revision : Revision := ⟨"Takes no work", false, 0⟩

/-- The status with its new content. -/
def revised : Status := Store.revised store.now owner revision row

/-- The changed status has dates that can be written down. -/
theorem revised_isDated : revised.IsDated :=
  ⟨⟨by decide, by decide⟩, ⟨by decide, by decide⟩, nofun⟩

/-- A world around the store with room for one copy. -/
def world : World := World.make store (.memory (.withCapacity 1))

/-- The cache of the world after it has taken a copy of the status. -/
def filledCache : Cache :=
  .memory ⟨1, [⟨cacheKey row.id, row.toJson.text, 301000000000⟩]⟩

/-- The world has nothing set to fail, whatever its cache holds. -/
theorem isSound {s : Store} {m : MemoryCache} {now : Nat} :
    World.IsSound ⟨s, [], .free, .memory m, [], now⟩ :=
  ⟨rfl, rfl, rfl, trivial⟩

/-- The cache of the world holds nothing. -/
theorem holds_nothing (key text : String) : ¬world.cache.Holds key text := by
  rintro ⟨_, ⟨⟩, _⟩

/-- The store accepts the new content. -/
theorem execute_revision : store.execute (.updateStatus row.id owner revision) =
    (.ok (some revised), { store with statuses := [revised] }.tick) := by
  have accepted : Store.valueProblem (.updateStatus row.id owner revision) = none := by
    have short : ¬revision.description.length > maxDescriptionLength := by decide
    have plain : ((Store.texts (Statement.updateStatus row.id owner revision).arguments).any
        (·.contains '\x00')) = false := by
      simp [Store.texts, Statement.arguments, revision]
    simp only [Store.valueProblem, plain, Store.lengthProblem, if_neg short, Bool.false_eq_true,
      if_false]
  rw [Store.execute, accepted]
  rfl

/-- The world accepts the new content, whatever its cache holds. -/
theorem answers_revision {m : MemoryCache} {now : Nat} :
    Surroundings.reliable.answers ⟨store, [], .free, .memory m, [], now⟩
      (.query (.updateStatus row.id owner revision)) (.ok (some revised))
      ⟨{ store with statuses := [revised] }.tick, [], .free, .memory m, [], now⟩ := by
  have sound : World.IsSound ⟨store, [], .free, .memory m, [], now⟩ := isSound
  have given := sound.answer_query (.updateStatus row.id owner revision)
  rw [execute_revision] at given
  exact ⟨sound, given⟩

/-- The world tells of an empty cache that it misses every key. -/
theorem answers_miss {s : Store} {key : String} :
    Surroundings.reliable.answers ⟨s, [], .free, .memory ⟨1, []⟩, [], 1000000000⟩
      (.cacheGet key) (.error (.miss key)) ⟨s, [], .free, .memory ⟨1, []⟩, [], 1000000000⟩ :=
  ⟨isSound, _, rfl⟩

/-- The world puts a copy into an empty cache. -/
theorem answers_fill {s : Store} {key text : String} :
    Surroundings.reliable.answers ⟨s, [], .free, .memory ⟨1, []⟩, [], 1000000000⟩
      (.cacheSet key text 300) (.ok ())
      ⟨s, [], .free, .memory ⟨1, [⟨key, text, 301000000000⟩]⟩, [], 1000000000⟩ := by
  have sound : World.IsSound ⟨s, [], .free, .memory ⟨1, []⟩, [], 1000000000⟩ := isSound
  have taken : (MemoryCache.mk 1 []).set 1000000000 key text 300 =
      (.ok (), ⟨1, [⟨key, text, 301000000000⟩]⟩) := by
    rw [MemoryCache.set, show MemoryCache.expiry? 1000000000 300 = some 301000000000 from rfl]
    rfl
  have given := World.answer_set sound.cacheWorks key text 300
  simp only [Cache.set, taken] at given
  exact ⟨sound, given⟩

/-- The calls of a read that fills the cache. -/
def firstRead : List Act := [
  .arrive 0 (.get row.id),
  .exchange 0 ⟨.cacheGet (cacheKey row.id), .error (.miss (cacheKey row.id))⟩,
  .exchange 0 ⟨.count .misses, ()⟩,
  .exchange 0 ⟨.query (.findStatus row.id), .ok (some row)⟩,
  .exchange 0 ⟨.cacheSet (cacheKey row.id) row.toJson.text 300, .ok ()⟩]

/-- An update from its start to its end. -/
def plainUpdate : List Act := [
  .arrive 0 (.update ⟨owner⟩ row.id revision),
  .exchange 0 ⟨.query (.findStatus row.id), .ok (some row)⟩,
  .exchange 0 ⟨.query (.updateStatus row.id owner revision), .ok (some revised)⟩,
  .exchange 0 ⟨.cacheDelete (cacheKey row.id), .ok ()⟩,
  .finish 0 (.update ⟨owner⟩ row.id revision) (.ok revised)]

open Traffic in
/-- The update is a run, and it leaves the status with its new content. -/
theorem runs_plainUpdate : ∃ t, Runs registry .reliable (idle world) plainUpdate t ∧ t.IsIdle ∧
    t.world.store = { store with statuses := [revised] }.tick := by
  refine ⟨?traffic, ?run, ?quiet, ?final⟩
  case run =>
    refine .cons .arrive ?_
    refine .cons (.exchange rfl ⟨isSound, _, rfl⟩) ?_
    refine .cons (.exchange rfl answers_revision) ?_
    refine .cons (.exchange rfl ⟨isSound, _, rfl⟩) ?_
    refine .cons (.finish rfl) ?_
    exact .refl
  case quiet => rintro (_ | k) <;> rfl
  case final => rfl

end Sample

end StatusRegistry
