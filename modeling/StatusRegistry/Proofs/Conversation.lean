import StatusRegistry.Proofs.Course
import StatusRegistry.Proofs.Faults
import StatusRegistry.Proofs.History

/-!
# Programs that run alone

Running a program in a world is a conversation: the calls of the program and the answers of the
world, one after the other. It ends with the program, or at a statement that is never answered. What
happened is read off the calls, and what became of the rows off the statements that wrote.
-/

namespace StatusRegistry

open Program (Leads)
open Conduct (isIdle)

/-- Calls that are answered one after the other, from one world to another, with what happens. -/
inductive Converses : World → List Exchange → World → List Event → Prop where
  | refl {w : World} : Converses w [] w []
  | ask {w middle after : World} {c : Call} {answer : c.Answer} {first rest : List Event}
      {later : List Exchange} (answered : w.answer c = ⟨some answer, middle, first⟩)
      (onward : Converses middle later after rest) :
      Converses w (⟨c, answer⟩ :: later) after (first ++ rest)

/-- Whether an event is one that others could notice: a statement that may write reached the store,
or the cache was asked to change. -/
def Event.isTrace : Event → Bool
  | .executed q => q.writes
  | .cacheSet .. => true
  | .cacheDelete .. => true
  | _ => false

/-- Whether an event asks the cache to change. -/
def Event.writesCache : Event → Bool
  | .cacheSet .. => true
  | .cacheDelete .. => true
  | _ => false

/-- What asks the cache to change leaves a trace. -/
theorem Event.isTrace_of_writesCache {ev : Event} (writes : ev.writesCache = true) :
    ev.isTrace = true := by
  cases ev <;> first | rfl | cases writes

/-- An act writes nothing unless its statement wrote. -/
theorem Writes.eq_or_wrote {rows rows' : List Status} {k : Nat} {e : Exchange}
    (writes : Writes rows (.exchange k e) rows') : rows' = rows ∨ e.Wrote := by
  generalize same : Act.exchange k e = act at writes
  cases writes with
  | nothing => exact .inl rfl
  | insertion =>
    cases same
    exact .inr (.inl ⟨_, _, _, rfl⟩)
  | @revision _ id =>
    cases same
    exact .inr (.inr ⟨id, rfl⟩)
  | @deletion _ id _ _ some =>
    cases same
    exact .inr (.inr ⟨id, rfl, some⟩)

namespace World

variable {α : Type} {w after : World} {c : Call} {answer : c.Answer} {events : List Event}

/-- Running a program is a conversation that ends with the program or at a statement that is never
answered. -/
theorem run_converses (w : World) (p : Program α) :
    ∃ past point world happened, Converses w past world happened ∧ Leads p past point ∧
      ((∃ a, point = .done a ∧ w.run p = ⟨some a, world, happened⟩) ∨
        ∃ q next after last, point = .call (.query q) next ∧
          w.run p = ⟨none, after, happened ++ last⟩ ∧ after.store = world.store ∧
          ∀ e ∈ last, e = .executed q) := by
  induction p generalizing w with
  | done a => exact ⟨[], _, w, [], .refl, .here, .inl ⟨a, rfl, rfl⟩⟩
  | call c next inductionHypothesis =>
    cases answered : w.answer c with
    | mk value middle first =>
      cases value with
      | some answer =>
        obtain ⟨past, point, world, happened, converses, leads, ends⟩ :=
          inductionHypothesis answer middle
        refine ⟨_, point, world, first ++ happened, .ask answered converses, .ask leads, ?_⟩
        rcases ends with ⟨a, done, ran⟩ | ⟨q, next, after, last, asks, ran, same, asked⟩
        · refine .inl ⟨a, done, ?_⟩
          simp only [run, answered, ran]
        · refine .inr ⟨q, next, after, last, asks, ?_, same, asked⟩
          simp only [run, answered, ran, List.append_assoc]
      | none =>
        refine ⟨[], _, w, [], .refl, .here, .inr ?_⟩
        cases c with
        | query q =>
          have given : w.answerQuery q = ⟨none, middle, first⟩ := answered
          rcases w.answerQuery_cases q with ⟨_, _, fails, -⟩ | ⟨_, _, waits, same, asked⟩ | works
          · cases given.symm.trans fails
          · cases given.symm.trans waits
            refine ⟨q, next, middle, first, rfl, ?_, same, asked⟩
            simp only [run, answered, List.nil_append]
          · cases given.symm.trans works
        | _ => cases congrArg Outcome.value answered

/-- What happens for a statement is at most that it is asked. -/
theorem events_query {q : Statement} {value : Option (Except StoreError q.Result)}
    (answered : w.answer (.query q) = ⟨value, after, events⟩) :
    ∀ ev ∈ events, ev = .executed q := by
  have given : w.answerQuery q = ⟨value, after, events⟩ := answered
  rcases w.answerQuery_cases q with ⟨_, _, same, asked⟩ | ⟨_, _, same, -, asked⟩ | same
  · cases given.symm.trans same
    exact asked
  · cases given.symm.trans same
    exact asked
  · cases given.symm.trans same
    exact fun _ => List.mem_singleton.mp

/-- A statement that succeeds has been asked. -/
theorem events_ok {q : Statement} {result : q.Result}
    (answered : w.answer (.query q) = ⟨some (.ok result), after, events⟩) :
    events = [.executed q] := by
  have given : w.answerQuery q = ⟨some (.ok result), after, events⟩ := answered
  rcases w.answerQuery_cases q with ⟨_, _, same, -⟩ | ⟨_, _, same, -⟩ | same
  · cases given.symm.trans same
  · cases given.symm.trans same
  · exact congrArg Outcome.events (given.symm.trans same)

/-- A statement is asked only by itself. -/
theorem query_of_executed {q : Statement} {value : Option c.Answer}
    (answered : w.answer c = ⟨value, after, events⟩) (member : .executed q ∈ events) :
    c = .query q := by
  cases c with
  | query other =>
    cases events_query answered _ member
    rfl
  | cacheGet key =>
    simp only [answer, answerGet] at answered
    cases fault : w.cacheFaults.lookup .get <;> (rw [fault] at answered; cases answered) <;>
      simp at member
  | cacheSet key text lifetime =>
    simp only [answer, answerSet] at answered
    cases fault : w.cacheFaults.lookup .set <;> (rw [fault] at answered; cases answered) <;>
      simp at member
  | cacheDelete key =>
    simp only [answer, answerDelete] at answered
    cases fault : w.cacheFaults.lookup .delete <;> (rw [fault] at answered; cases answered) <;>
      simp at member
  | cacheHealth =>
    simp only [answer, answerHealth] at answered
    cases fault : w.cacheFaults.lookup .health <;> (rw [fault] at answered; cases answered) <;>
      simp at member
  | count m =>
    cases answered
    simp at member

/-- The commands sent to a server leave no trace of their own. -/
theorem traces_commanded (commands : List Redis.Command) :
    (commands.map Event.commanded).filter Event.isTrace = [] := by
  rw [List.filter_eq_nil_iff]
  intro ev member
  obtain ⟨_, -, rfl⟩ := List.mem_map.mp member
  exact Bool.false_ne_true

/-- An idle call leaves no trace. -/
theorem traces_idle {value : Option c.Answer} (idle : isIdle c = true)
    (answered : w.answer c = ⟨value, after, events⟩) : events.filter Event.isTrace = [] := by
  cases c with
  | query q =>
    rw [Conduct.isIdle_query, Bool.not_eq_true'] at idle
    rw [List.filter_eq_nil_iff]
    intro ev member
    rw [events_query answered ev member, Event.isTrace, idle]
    exact Bool.false_ne_true
  | cacheGet key =>
    simp only [answer, answerGet] at answered
    cases fault : w.cacheFaults.lookup .get <;> (rw [fault] at answered; cases answered)
    · rw [List.filter_append, traces_commanded]
      rfl
    · rfl
  | cacheHealth =>
    simp only [answer, answerHealth] at answered
    cases fault : w.cacheFaults.lookup .health <;> (rw [fault] at answered; cases answered)
    · exact traces_commanded _
    · rfl
  | count m =>
    cases answered
    rfl
  | cacheSet key text lifetime => cases idle
  | cacheDelete key => cases idle

/-- A removal from the cache is its own only trace. -/
theorem traces_delete {key : String} {value : Option (Except CacheError Unit)}
    (answered : w.answer (.cacheDelete key) = ⟨value, after, events⟩) :
    ∃ outcome, events.filter Event.isTrace = [.cacheDelete key outcome] := by
  simp only [answer, answerDelete] at answered
  cases fault : w.cacheFaults.lookup .delete <;> (rw [fault] at answered; cases answered)
  · refine ⟨.ofExcept (w.cache.delete key).1, ?_⟩
    rw [List.filter_append, traces_commanded]
    rfl
  · exact ⟨_, rfl⟩

/-- A call that is none to write to the cache does not ask the cache to change. -/
theorem leaves_cache {value : Option c.Answer} (quiet : c.writesCache = false)
    (answered : w.answer c = ⟨value, after, events⟩) : ∀ ev ∈ events, ev.writesCache = false := by
  have untraced : isIdle c = true → ∀ ev ∈ events, ev.writesCache = false := by
    intro idle ev member
    have traceless := List.filter_eq_nil_iff.mp (traces_idle idle answered) ev member
    exact Bool.eq_false_iff.mpr fun writes => traceless (Event.isTrace_of_writesCache writes)
  cases c with
  | query q =>
    intro ev member
    rw [events_query answered ev member]
    rfl
  | cacheSet key text lifetime => cases quiet
  | cacheDelete key => cases quiet
  | _ => exact untraced rfl

/-- A call that wrote no status leaves the statuses alone. -/
theorem Answers.statuses_eq (given : w.Answers c answer after)
    (nothing : ¬Exchange.Wrote ⟨c, answer⟩) : after.store.statuses = w.store.statuses := by
  cases c with
  | query q =>
    rcases given.of_query with ⟨-, rfl⟩ | ⟨rfl, rfl⟩
    · rfl
    · rcases (writes_execute w.store q 0).eq_or_wrote with same | wrote
      · exact same
      · exact absurd wrote nothing
  | _ => rcases given.of_other rfl with rfl | rfl <;> rfl

end World

namespace Converses

variable {w after : World} {past front back : List Exchange} {e : Exchange} {events : List Event}

/-- A conversation may be cut anywhere. -/
theorem split (whole : Converses w (front ++ back) after events) :
    ∃ middle first second, events = first ++ second ∧ Converses w front middle first ∧
      Converses middle back after second := by
  induction front generalizing w events with
  | nil => exact ⟨w, [], events, rfl, .refl, whole⟩
  | cons e front inductionHypothesis =>
    cases whole with
    | @ask _ _ _ _ _ now rest _ answered onward =>
      obtain ⟨middle, first, second, rfl, before, behind⟩ := inductionHypothesis onward
      exact ⟨middle, now ++ first, second, (List.append_assoc ..).symm, .ask answered before,
        behind⟩

/-- A conversation without a write leaves the statuses alone. -/
theorem statuses_eq (converses : Converses w past after events)
    (nothing : ∀ e ∈ past, ¬e.Wrote) : after.store.statuses = w.store.statuses := by
  induction converses with
  | refl => rfl
  | ask answered _ inductionHypothesis =>
    obtain ⟨now, rest⟩ := List.forall_mem_cons.mp nothing
    exact (inductionHypothesis rest).trans (World.Answers.statuses_eq ⟨_, answered⟩ now)

/-- A conversation of idle calls leaves no trace. -/
theorem traces_idle (converses : Converses w past after events)
    (idle : ∀ e ∈ past, isIdle e.call = true) : events.filter Event.isTrace = [] := by
  induction converses with
  | refl => rfl
  | ask answered _ inductionHypothesis =>
    obtain ⟨now, rest⟩ := List.forall_mem_cons.mp idle
    rw [List.filter_append, World.traces_idle now answered, inductionHypothesis rest]
    rfl

/-- The only statement of a conversation that writes does to the rows that the conversation found
what the store does, and is the first trace that the conversation leaves. -/
theorem executes {q : Statement} {result : q.Result}
    (converses : Converses w (front ++ ⟨.query q, .ok result⟩ :: back) after events)
    (before : ∀ e ∈ front, isIdle e.call = true) (behind : ∀ e ∈ back, ∀ q, e.call ≠ .query q)
    (writes : q.writes = true) :
    ∃ (store : Store) (middle : World) (second : List Event),
      store.statuses = w.store.statuses ∧ (store.execute q).1 = .ok result ∧
      after.store.statuses = (store.execute q).2.statuses ∧ Converses middle back after second ∧
      events.filter Event.isTrace = .executed q :: second.filter Event.isTrace := by
  obtain ⟨middle, first, _, rfl, idle, asked⟩ := converses.split
  cases asked with
  | @ask _ next _ _ _ now second _ answered onward =>
    have start := idle.statuses_eq fun e member => Exchange.not_wrote_of_idle (before e member)
    have rest := onward.statuses_eq fun e member wrote => by
      obtain ⟨q, _, rfl, -⟩ := wrote.query
      exact behind _ member q rfl
    obtain ⟨⟨_, ⟨⟩⟩, -⟩ | ⟨performed, rfl⟩ := World.Answers.of_query ⟨_, answered⟩
    refine ⟨middle.store, _, second, start, performed.symm, rest, onward, ?_⟩
    obtain rfl := World.events_ok answered
    have traced : Event.isTrace (.executed q) = true := writes
    rw [List.filter_append, idle.traces_idle before, List.nil_append, List.singleton_append,
      List.filter_cons_of_pos traced]

/-- A removal from the cache and the counts after it leave one trace. -/
theorem traces_retired {key : String} {answer : Except CacheError Unit} {counts : List Exchange}
    (converses : Converses w (⟨.cacheDelete key, answer⟩ :: counts) after events)
    (counted : ∀ e ∈ counts, e = ⟨.count .errors, ()⟩) :
    ∃ outcome, events.filter Event.isTrace = [.cacheDelete key outcome] := by
  cases converses with
  | ask answered onward =>
    obtain ⟨outcome, traced⟩ := World.traces_delete answered
    refine ⟨outcome, ?_⟩
    have idle : ∀ e ∈ counts, isIdle e.call = true := by
      intro e member
      rw [counted e member]
      rfl
    rw [List.filter_append, traced, onward.traces_idle idle, List.append_nil]

/-- A conversation that makes no call to write to the cache does not ask the cache to change. -/
theorem leaves_cache (converses : Converses w past after events)
    (quiet : ∀ e ∈ past, e.call.writesCache = false) : ∀ ev ∈ events, ev.writesCache = false := by
  induction converses with
  | refl => exact fun _ member => absurd member List.not_mem_nil
  | ask answered _ inductionHypothesis =>
    obtain ⟨now, rest⟩ := List.forall_mem_cons.mp quiet
    exact List.forall_mem_append.mpr ⟨World.leaves_cache now answered, inductionHypothesis rest⟩

/-- A statement that has been asked is among the calls, where the world after the calls before it
answered it. -/
theorem executed {q : Statement} (converses : Converses w past after events)
    (member : .executed q ∈ events) :
    ∃ front answer back middle happened, past = front ++ ⟨.query q, answer⟩ :: back ∧
      Converses w front middle happened := by
  induction converses with
  | refl => exact absurd member List.not_mem_nil
  | @ask w _ _ c answer first rest later answered onward inductionHypothesis =>
    rcases List.mem_append.mp member with now | behind
    · obtain rfl := World.query_of_executed answered now
      exact ⟨[], answer, later, w, [], rfl, .refl⟩
    · obtain ⟨front, answer', back, middle, happened, rfl, before⟩ := inductionHypothesis behind
      exact ⟨_ :: front, answer', back, middle, first ++ happened, rfl, .ask answered before⟩

end Converses

namespace World

variable {α : Type} {w : World} {p : Program α}

/-- A program that has asked a statement was about to ask it. -/
theorem run_executed {q : Statement} (member : .executed q ∈ (w.run p).events) :
    ∃ past next world happened, Converses w past world happened ∧
      Leads p past (.call (.query q) next) := by
  obtain ⟨past, point, world, happened, converses, leads, ends⟩ := w.run_converses p
  have asked : .executed q ∈ happened → ∃ past next world happened,
      Converses w past world happened ∧ Leads p past (.call (.query q) next) := by
    intro among
    obtain ⟨front, _, back, middle, first, rfl, before⟩ := converses.executed among
    obtain ⟨_, asks, second⟩ := leads.split front
    obtain ⟨next, rfl, -⟩ := second.head
    exact ⟨front, next, middle, first, before, asks⟩
  rcases ends with ⟨a, -, ran⟩ | ⟨waited, next, _, last, rfl, ran, -, only⟩
  · rw [ran] at member
    exact asked member
  · rw [ran] at member
    rcases List.mem_append.mp member with among | behind
    · exact asked among
    · cases only _ behind
      exact ⟨past, next, world, happened, converses, leads⟩

end World

end StatusRegistry
