import StatusRegistry.Proofs.Operation
import StatusRegistry.World

/-!
# Requests side by side

Any number of requests are served at a time, each by its own program. A step gives one request the
answer to its next call, lets a request arrive or end, drops one at the call where it stands, or
lets the surroundings move by themselves. No step involves more than one call, so a run is an
interleaving of the calls of its requests and nothing else.

How calls are answered is a relation, which a reader of a theorem finds in its surroundings.
-/

namespace StatusRegistry

open Program (Leads)
open Registry (Service)

/-- How a world may answer a call, with the world after the answer, and how it may change by
itself. -/
structure Surroundings where
  answers : World → (c : Call) → c.Answer → World → Prop
  drifts : World → World → Prop

/-- A request and what is left of its program. -/
structure Request where
  operation : Operation
  rest : Service operation.Result

/-- A world and the requests being served in it, under tickets that are given out in order. -/
structure Traffic where
  world : World
  requests : Nat → Option Request
  arrived : Nat

/-- One thing that happens. -/
inductive Act where
  | arrive (ticket : Nat) (operation : Operation)
  | exchange (ticket : Nat) (e : Exchange)
  | finish (ticket : Nat) (operation : Operation) (result : Except Failure operation.Result)
  | drop (ticket : Nat)
  | drift

/-- An act by which a request moves on or ends. -/
def Act.IsOf (k : Nat) : Act → Prop
  | .exchange j _ => j = k
  | .finish j _ _ => j = k
  | .drop j => j = k
  | _ => False

/-- The calls of one request, with their answers, in order. -/
def transcript (k : Nat) (acts : List Act) : List Exchange :=
  acts.filterMap fun
    | .exchange j e => if j = k then some e else none
    | _ => none

namespace Traffic

/-- A world in which no request is served. -/
def idle (w : World) : Traffic := ⟨w, fun _ => none, 0⟩

/-- No request is being served. -/
def IsIdle (t : Traffic) : Prop := ∀ k, t.requests k = none

/-- The traffic with another entry under a ticket. -/
def enter (t : Traffic) (k : Nat) (request : Option Request) : Traffic :=
  { t with requests := fun j => if j = k then request else t.requests j }

/-- What an act does to the traffic. -/
inductive Step (r : Registry) (around : Surroundings) : Traffic → Act → Traffic → Prop where
  | arrive {t : Traffic} {operation : Operation} :
      Step r around t (.arrive t.arrived operation)
        { t.enter t.arrived (some ⟨operation, r.serve operation⟩) with arrived := t.arrived + 1 }
  | exchange {t : Traffic} {k : Nat} {operation : Operation} {c : Call}
      {next : c.Answer → Service operation.Result} {answer : c.Answer} {after : World}
      (waiting : t.requests k = some ⟨operation, .call c next⟩)
      (answered : around.answers t.world c answer after) :
      Step r around t (.exchange k ⟨c, answer⟩)
        { t.enter k (some ⟨operation, next answer⟩) with world := after }
  | finish {t : Traffic} {k : Nat} {operation : Operation}
      {result : Except Failure operation.Result}
      (ended : t.requests k = some ⟨operation, .done result⟩) :
      Step r around t (.finish k operation result) (t.enter k none)
  | drop {t : Traffic} {k : Nat} {request : Request} (served : t.requests k = some request) :
      Step r around t (.drop k) (t.enter k none)
  | drift {t : Traffic} {after : World} (drifted : around.drifts t.world after) :
      Step r around t .drift { t with world := after }

/-- A run from one state of the traffic to another. -/
inductive Runs (r : Registry) (around : Surroundings) (start : Traffic) :
    List Act → Traffic → Prop where
  | refl : Runs r around start [] start
  | step {acts : List Act} {t after : Traffic} {act : Act} (prior : Runs r around start acts t)
      (next : Step r around t act after) : Runs r around start (acts ++ [act]) after

variable {r : Registry} {around : Surroundings} {start t after : Traffic}
  {acts past future : List Act}

/-- Runs that meet make one run. -/
theorem Runs.trans (first : Runs r around start past t) (second : Runs r around t future after) :
    Runs r around start (past ++ future) after := by
  induction second with
  | refl => simpa using first
  | step _ next inductionHypothesis =>
    rw [← List.append_assoc]
    exact .step inductionHypothesis next

/-- A run may begin with a step. -/
theorem Runs.cons {act : Act} (first : Step r around start act t)
    (rest : Runs r around t acts after) : Runs r around start (act :: acts) after := by
  have single : Runs r around start [act] t := .step .refl first
  exact single.trans rest

/-- A run may be cut anywhere. -/
theorem Runs.split (whole : Runs r around start (past ++ future) after) :
    ∃ t, Runs r around start past t ∧ Runs r around t future after := by
  generalize same : past ++ future = acts at whole
  induction whole generalizing future with
  | refl =>
    obtain ⟨rfl, rfl⟩ := List.append_eq_nil_iff.mp same
    exact ⟨start, .refl, .refl⟩
  | @step acts t after act prior next inductionHypothesis =>
    cases List.eq_nil_or_concat future with
    | inl empty =>
      subst empty
      rw [List.append_nil] at same
      subst same
      exact ⟨_, .step prior next, .refl⟩
    | inr snoc =>
      obtain ⟨future, last, rfl⟩ := snoc
      rw [List.concat_eq_append, ← List.append_assoc] at same
      obtain ⟨front, lastEq⟩ := List.append_inj' same rfl
      cases lastEq
      obtain ⟨middle, first, second⟩ := inductionHypothesis front
      rw [List.concat_eq_append]
      exact ⟨middle, first, .step second next⟩

/-- A run of no act goes nowhere. -/
theorem Runs.of_nil (whole : Runs r around start [] after) : after = start := by
  generalize same : [] = acts at whole
  cases whole with
  | refl => rfl
  | step _ _ => exact absurd same.symm (List.append_ne_nil_of_right_ne_nil _ (List.cons_ne_nil _ _))

/-- A run takes a step at each of its acts. -/
theorem Runs.cut {act : Act} (whole : Runs r around start (past ++ act :: future) after) :
    ∃ t middle, Runs r around start past t ∧ Step r around t act middle ∧
      Runs r around middle future after := by
  rw [← List.singleton_append, ← List.append_assoc] at whole
  obtain ⟨middle, first, second⟩ := whole.split
  generalize same : past ++ [act] = acts at first
  cases first with
  | refl => exact absurd same (List.append_ne_nil_of_right_ne_nil _ (List.cons_ne_nil _ _))
  | step prior next =>
    obtain ⟨rfl, lastEq⟩ := List.append_inj' same rfl
    cases lastEq
    exact ⟨_, _, prior, next, second⟩

/-- A run begins with a step at its first act. -/
theorem Runs.uncons {act : Act} (whole : Runs r around t (act :: future) after) :
    ∃ middle, Step r around t act middle ∧ Runs r around middle future after := by
  have cut : Runs r around t ([] ++ act :: future) after := whole
  obtain ⟨_, middle, nowhere, first, rest⟩ := cut.cut
  obtain rfl := nowhere.of_nil
  exact ⟨middle, first, rest⟩

/-- Of two places in a list, whatever is behind one is behind the other, or the other itself is. -/
theorem before_or_behind {α : Type} {past future front back : List α} {a b : α}
    (split : past ++ a :: future = front ++ b :: back) : (∀ c ∈ back, c ∈ future) ∨ a ∈ back := by
  rcases List.append_eq_append_iff.mp split with ⟨gap, rfl, rest⟩ | ⟨gap, rfl, rest⟩
  · cases gap with
    | nil =>
      obtain ⟨-, rfl⟩ := List.cons.inj rest
      exact .inl fun _ member => member
    | cons _ gap =>
      obtain ⟨-, rfl⟩ := List.cons.inj rest
      exact .inl fun c member => List.mem_append_right gap (List.mem_cons_of_mem b member)
  · cases gap with
    | nil =>
      obtain ⟨-, rfl⟩ := List.cons.inj rest
      exact .inl fun _ member => member
    | cons _ gap =>
      obtain ⟨-, rfl⟩ := List.cons.inj rest
      exact .inr (List.mem_append_right gap List.mem_cons_self)

/-- A run with the states that it comes through: every act stands with the state that it meets. -/
inductive Trail (r : Registry) (around : Surroundings) (start : Traffic) :
    List (Traffic × Act) → Traffic → Prop where
  | refl : Trail r around start [] start
  | step {steps : List (Traffic × Act)} {t after : Traffic} {act : Act}
      (prior : Trail r around start steps t) (next : Step r around t act after) :
      Trail r around start (steps ++ [(t, act)]) after

variable {steps front back : List (Traffic × Act)} {before : Traffic} {act : Act}

/-- A trail is a run of its acts. -/
theorem Trail.runs (trail : Trail r around start steps t) :
    Runs r around start (steps.map Prod.snd) t := by
  induction trail with
  | refl => exact .refl
  | step _ next inductionHypothesis =>
    rw [List.map_append]
    exact .step inductionHypothesis next

/-- A run has a trail. -/
theorem Runs.trail (run : Runs r around start acts t) :
    ∃ steps, steps.map Prod.snd = acts ∧ Trail r around start steps t := by
  induction run with
  | refl => exact ⟨[], rfl, .refl⟩
  | @step acts t _ act _ next inductionHypothesis =>
    obtain ⟨steps, rfl, trail⟩ := inductionHypothesis
    exact ⟨steps ++ [(t, act)], List.map_append, .step trail next⟩

/-- A trail may be cut at any of its acts. -/
theorem Trail.cut (whole : Trail r around start (front ++ (before, act) :: back) t) :
    Trail r around start front before ∧ ∃ middle, Step r around before act middle := by
  generalize same : front ++ (before, act) :: back = steps at whole
  induction whole generalizing back with
  | refl => exact absurd same (List.append_ne_nil_of_right_ne_nil _ (List.cons_ne_nil _ _))
  | step prior next inductionHypothesis =>
    cases List.eq_nil_or_concat back with
    | inl empty =>
      subst empty
      obtain ⟨rfl, lastEq⟩ := List.append_inj' same rfl
      cases lastEq
      exact ⟨prior, _, next⟩
    | inr snoc =>
      obtain ⟨between, last, rfl⟩ := snoc
      rw [List.concat_eq_append, ← List.cons_append, ← List.append_assoc] at same
      exact inductionHypothesis (List.append_inj' same rfl).1

/-- An act of a trail is a step from the state that it meets. -/
theorem Trail.step_of_mem (trail : Trail r around start steps t) (member : (before, act) ∈ steps) :
    ∃ middle, Step r around before act middle := by
  obtain ⟨front, back, rfl⟩ := List.append_of_mem member
  exact trail.cut.2

/-- What holds at the end of a trail and not at its start was brought about by one of its acts and
has held ever since. -/
theorem Trail.brought_about {P : Traffic → Prop} (trail : Trail r around start steps t)
    (first : ¬P start) (last : P t) :
    ∃ front before act middle back, steps = front ++ (before, act) :: back ∧
      Step r around before act middle ∧ ¬P before ∧ P middle ∧ ∀ step ∈ back, P step.1 := by
  induction trail with
  | refl => exact absurd last first
  | @step steps t after act prior next inductionHypothesis =>
    by_cases already : P t
    · obtain ⟨front, before, cause, middle, back, rfl, brings, new, held, since⟩ :=
        inductionHypothesis already
      refine ⟨front, before, cause, middle, back ++ [(t, act)], by simp, brings, new, held, ?_⟩
      intro step member
      rcases List.mem_append.mp member with earlier | now
      · exact since step earlier
      · rw [List.mem_singleton.mp now]
        exact already
    · exact ⟨steps, t, act, after, [], rfl, next, already, last,
        fun _ member => absurd member List.not_mem_nil⟩

/-- An exchange is in the transcript of the request whose ticket it bears. -/
theorem mem_transcript {k : Nat} {e : Exchange} :
    e ∈ transcript k acts ↔ .exchange k e ∈ acts := by
  simp only [transcript, List.mem_filterMap]
  constructor
  · rintro ⟨act, member, found⟩
    cases act with
    | exchange j e' =>
      dsimp only at found
      split at found
      · rename_i same
        cases found
        exact same ▸ member
      · cases found
    | _ => cases found
  · intro member
    exact ⟨_, member, if_pos rfl⟩

/-- The transcript of a run in two parts. -/
theorem transcript_append (k : Nat) :
    transcript k (past ++ future) = transcript k past ++ transcript k future :=
  List.filterMap_append

/-- The transcript from an exchange on. -/
theorem transcript_exchange (k : Nat) (e : Exchange) :
    transcript k (.exchange k e :: acts) = e :: transcript k acts := by
  simp [transcript]

/-- What a run from an idle world has come to: every request stands where its own answers have led
it, and a ticket is given out once. -/
structure Orderly (r : Registry) (acts : List Act) (t : Traffic) : Prop where
  /-- Nothing is known of a ticket that has not been given out. -/
  unused : ∀ k, t.arrived ≤ k → t.requests k = none ∧ transcript k acts = [] ∧
    ∀ operation, .arrive k operation ∉ acts
  /-- A ticket stands for one operation. -/
  unique : ∀ k operation other, .arrive k operation ∈ acts → .arrive k other ∈ acts →
    operation = other
  /-- A request stands where its answers have led it. -/
  served : ∀ k request, t.requests k = some request → .arrive k request.operation ∈ acts ∧
    Leads (r.serve request.operation) (transcript k acts) request.rest

/-- An entry under one ticket is what was entered there. -/
@[simp]
theorem enter_requests_self (t : Traffic) (k : Nat) (request : Option Request) :
    (t.enter k request).requests k = request := if_pos rfl

/-- An entry under one ticket says nothing of another. -/
theorem enter_requests_of_ne (t : Traffic) {j k : Nat} (request : Option Request) (ne : j ≠ k) :
    (t.enter k request).requests j = t.requests j := if_neg ne

/-- A request that is served has a ticket that has been given out. -/
theorem Orderly.lt_arrived (orderly : Orderly r acts t) {k : Nat} {request : Request}
    (served : t.requests k = some request) : k < t.arrived := by
  refine Nat.lt_of_not_le fun beyond => ?_
  rw [(orderly.unused k beyond).1] at served
  cases served

/-- An act that is no arrival adds none. -/
theorem mem_arrive_snoc {act : Act} {k : Nat} {operation : Operation}
    (known : ∀ j other, act ≠ .arrive j other) :
    .arrive k operation ∈ acts ++ [act] ↔ .arrive k operation ∈ acts := by
  rw [List.mem_append, List.mem_singleton]
  constructor
  · rintro (before | now)
    · exact before
    · exact absurd now.symm (known k operation)
  · exact .inl

/-- Order survives an act of a request that is served, if the request then stands where its answers
have led it. -/
theorem Orderly.advance (orderly : Orderly r acts t) {k : Nat} {request : Request} {act : Act}
    {entry : Option Request} {world : World} (served : t.requests k = some request)
    (known : ∀ j other, act ≠ .arrive j other) (silent : ∀ j, j ≠ k → transcript j [act] = [])
    (onward : ∀ request, entry = some request → .arrive k request.operation ∈ acts ∧
      Leads (r.serve request.operation) (transcript k (acts ++ [act])) request.rest) :
    Orderly r (acts ++ [act]) { t.enter k entry with world := world } := by
  have quiet : ∀ j, j ≠ k → transcript j (acts ++ [act]) = transcript j acts := by
    intro j ne
    rw [transcript_append, silent j ne, List.append_nil]
  constructor
  case unused =>
    intro j beyond
    have ne : j ≠ k := Nat.ne_of_gt (Nat.lt_of_lt_of_le (orderly.lt_arrived served) beyond)
    obtain ⟨vacant, empty, unheard⟩ := orderly.unused j beyond
    refine ⟨(enter_requests_of_ne t entry ne).trans vacant, (quiet j ne).trans empty, ?_⟩
    intro operation
    rw [mem_arrive_snoc known]
    exact unheard operation
  case unique =>
    intro j operation other first second
    rw [mem_arrive_snoc known] at first second
    exact orderly.unique j operation other first second
  case served =>
    intro j found present
    rw [mem_arrive_snoc known]
    by_cases same : j = k
    · subst same
      exact onward found ((enter_requests_self t j entry).symm.trans present)
    · rw [quiet j same]
      exact orderly.served j found ((enter_requests_of_ne t entry same).symm.trans present)

/-- Order survives the arrival of a request. -/
theorem Orderly.arrive (orderly : Orderly r acts t) (operation : Operation) :
    Orderly r (acts ++ [.arrive t.arrived operation])
      { t.enter t.arrived (some ⟨operation, r.serve operation⟩) with arrived := t.arrived + 1 } := by
  have quiet : ∀ k, transcript k (acts ++ [.arrive t.arrived operation]) = transcript k acts :=
    fun k => (transcript_append k).trans (List.append_nil _)
  have newcomer := (orderly.unused t.arrived (Nat.le_refl _)).2.2
  constructor
  case unused =>
    intro k beyond
    have beyond : t.arrived < k := beyond
    obtain ⟨vacant, empty, unheard⟩ := orderly.unused k (Nat.le_of_lt beyond)
    refine ⟨(enter_requests_of_ne t _ (Nat.ne_of_gt beyond)).trans vacant,
      (quiet k).trans empty, ?_⟩
    intro other member
    rcases List.mem_append.mp member with before | now
    · exact unheard other before
    · cases List.mem_singleton.mp now
      exact Nat.lt_irrefl _ beyond
  case unique =>
    intro k first second firstArrives secondArrives
    rw [List.mem_append, List.mem_singleton] at firstArrives secondArrives
    rcases firstArrives with old | ⟨⟨⟩⟩ <;> rcases secondArrives with old' | ⟨⟨⟩⟩
    · exact orderly.unique k first second old old'
    · exact absurd old (newcomer first)
    · exact absurd old' (newcomer second)
    · rfl
  case served =>
    intro k request present
    rw [quiet]
    by_cases same : k = t.arrived
    · subst same
      cases (enter_requests_self t t.arrived _).symm.trans present
      refine ⟨List.mem_append_right _ List.mem_cons_self, ?_⟩
      rw [(orderly.unused _ (Nat.le_refl _)).2.1]
      exact .here
    · obtain ⟨arrived, leads⟩ := orderly.served k request
        ((enter_requests_of_ne t _ same).symm.trans present)
      exact ⟨List.mem_append_left _ arrived, leads⟩

/-- Order survives what the surroundings do by themselves. -/
theorem Orderly.drift (orderly : Orderly r acts t) (world : World) :
    Orderly r (acts ++ [.drift]) { t with world := world } := by
  have quiet : ∀ k, transcript k (acts ++ [.drift]) = transcript k acts := fun k =>
    (transcript_append k).trans (List.append_nil _)
  have known : ∀ j other, Act.drift ≠ .arrive j other := by
    rintro _ _ ⟨⟩
  constructor
  case unused =>
    intro k beyond
    rw [quiet]
    simp only [mem_arrive_snoc known]
    exact orderly.unused k beyond
  case unique =>
    intro k first second firstArrives secondArrives
    rw [mem_arrive_snoc known] at firstArrives secondArrives
    exact orderly.unique k first second firstArrives secondArrives
  case served =>
    intro k request present
    rw [quiet, mem_arrive_snoc known]
    exact orderly.served k request present

/-- Every step keeps the order. -/
theorem Orderly.step {act : Act} (orderly : Orderly r acts t) (next : Step r around t act after) :
    Orderly r (acts ++ [act]) after := by
  cases next with
  | arrive => exact orderly.arrive _
  | @exchange k operation c nextCall answer world waiting answered =>
    refine orderly.advance waiting nofun (fun j ne => ?_) ?_
    · simp [transcript, Ne.symm ne]
    · rintro _ ⟨⟩
      obtain ⟨arrived, leads⟩ := orderly.served k _ waiting
      refine ⟨arrived, ?_⟩
      rw [transcript_append, transcript_exchange]
      exact leads.snoc answer
  | finish ended => exact orderly.advance ended nofun (fun _ _ => rfl) nofun
  | drop served => exact orderly.advance served nofun (fun _ _ => rfl) nofun
  | drift drifted => exact orderly.drift _

/-- Every run from an idle world is orderly. -/
theorem Runs.orderly {w : World} (run : Runs r around (idle w) acts t) : Orderly r acts t := by
  induction run with
  | refl =>
    constructor
    case unused => exact fun _ _ => ⟨rfl, rfl, fun _ => List.not_mem_nil⟩
    case unique => exact fun _ _ _ first => absurd first List.not_mem_nil
    case served => rintro _ _ ⟨⟩
  | step _ next inductionHypothesis => exact inductionHypothesis.step next

variable {w : World} {k : Nat}

/-- A request that gets an answer was waiting for it. -/
theorem Runs.at_exchange {e : Exchange}
    (run : Runs r around start (past ++ .exchange k e :: future) after) :
    ∃ before middle operation next, Runs r around start past before ∧
      before.requests k = some ⟨operation, .call e.call next⟩ ∧
      around.answers before.world e.call e.answer middle.world ∧
      middle = { before.enter k (some ⟨operation, next e.answer⟩) with world := middle.world } ∧
      Runs r around middle future after := by
  obtain ⟨before, middle, first, step, second⟩ := run.cut
  cases step with
  | exchange waiting answered => exact ⟨_, _, _, _, first, waiting, answered, rfl, second⟩

/-- A run that begins with an answer gets it from the world where it begins. -/
theorem Runs.answered {e : Exchange} (run : Runs r around t (.exchange k e :: future) after) :
    ∃ world, around.answers t.world e.call e.answer world := by
  obtain ⟨_, first, -⟩ := run.uncons
  cases first with
  | exchange _ answered => exact ⟨_, answered⟩

/-- A request that gets an answer has been led to its call by the answers before. -/
theorem Runs.exchange_leads {e : Exchange}
    (run : Runs r around (idle w) (past ++ .exchange k e :: future) after) :
    ∃ operation next, .arrive k operation ∈ past ∧
      Leads (r.serve operation) (transcript k past) (.call e.call next) := by
  obtain ⟨before, _, operation, next, first, waiting, -⟩ := run.at_exchange
  obtain ⟨arrived, leads⟩ := first.orderly.served k _ waiting
  exact ⟨operation, next, arrived, leads⟩

/-- A request that ends has been led to its end. -/
theorem Runs.finish_leads {operation : Operation} {result : Except Failure operation.Result}
    (run : Runs r around (idle w) (past ++ .finish k operation result :: future) after) :
    .arrive k operation ∈ past ∧
      Leads (r.serve operation) (transcript k past) (.done result) := by
  obtain ⟨before, _, first, step, -⟩ := run.cut
  cases step with
  | finish ended => exact first.orderly.served k _ ended

/-- A ticket that has been given out stays given out. -/
theorem Runs.arrived_le (run : Runs r around t acts after) : t.arrived ≤ after.arrived := by
  induction run with
  | refl => exact Nat.le_refl _
  | step _ next inductionHypothesis =>
    cases next with
    | arrive => exact Nat.le_succ_of_le inductionHypothesis
    | _ => exact inductionHypothesis

/-- A request that has ended does nothing more. -/
theorem Runs.silent (run : Runs r around t acts after) (given : k < t.arrived)
    (ended : t.requests k = none) :
    after.requests k = none ∧ ∀ act ∈ acts, ¬Act.IsOf k act := by
  induction run with
  | refl => exact ⟨ended, fun _ member => absurd member List.not_mem_nil⟩
  | @step acts t' _ act prior next inductionHypothesis =>
    obtain ⟨gone, quiet⟩ := inductionHypothesis
    have given : k < t'.arrived := Nat.lt_of_lt_of_le given prior.arrived_le
    have other : ∀ {j request}, t'.requests j = some request → j ≠ k := by
      rintro j request present rfl
      rw [gone] at present
      cases present
    have still : ¬Act.IsOf k act → ∀ act' ∈ acts ++ [act], ¬Act.IsOf k act' := by
      intro elsewhere act' member
      rcases List.mem_append.mp member with before | now
      · exact quiet act' before
      · rw [List.mem_singleton.mp now]
        exact elsewhere
    have vacant : ∀ {j request} entry, t'.requests j = some request →
        (t'.enter j entry).requests k = none := by
      intro j request entry present
      exact (enter_requests_of_ne t' entry (other present).symm).trans gone
    cases next with
    | arrive =>
      exact ⟨(enter_requests_of_ne t' _ (Nat.ne_of_lt given)).trans gone, still id⟩
    | exchange waiting _ => exact ⟨vacant _ waiting, still (other waiting)⟩
    | finish ended => exact ⟨vacant _ ended, still (other ended)⟩
    | drop served => exact ⟨vacant _ served, still (other served)⟩
    | drift _ => exact ⟨gone, still id⟩

/-- Nothing more is heard of a request that has ended. -/
theorem Runs.silent_after_finish {operation : Operation}
    {result : Except Failure operation.Result}
    (run : Runs r around (idle w) (past ++ future) t)
    (finished : .finish k operation result ∈ past) : ∀ act ∈ future, ¬Act.IsOf k act := by
  obtain ⟨middle, first, second⟩ := run.split
  obtain ⟨front, back, rfl⟩ := List.append_of_mem finished
  obtain ⟨before, ended, start, step, onward⟩ := first.cut
  cases step with
  | finish waiting =>
    have given := start.orderly.lt_arrived waiting
    have silent := (onward.trans second).silent given (enter_requests_self before k none)
    exact fun act member => silent.2 act (List.mem_append_right _ member)

/-- An exchange of a request comes before its end. -/
theorem Runs.exchange_before_finish {k : Nat} {e : Exchange} {operation : Operation}
    {result : Except Failure operation.Result}
    (run : Runs r around (idle w) (past ++ .finish k operation result :: future) t)
    (member : .exchange k e ∈ past ++ .finish k operation result :: future) :
    .exchange k e ∈ past := by
  rcases List.mem_append.mp member with earlier | later
  · exact earlier
  · rcases List.mem_cons.mp later with now | later
    · cases now
    · rw [← List.singleton_append, ← List.append_assoc] at run
      exact absurd rfl (run.silent_after_finish
        (List.mem_append_right past (List.mem_singleton.mpr rfl)) _ later)

/-- A request that is no longer served has ended or been dropped. -/
theorem Runs.ends (run : Runs r around t acts after) {request : Request} (given : k < t.arrived)
    (served : t.requests k = some request) (gone : after.requests k = none) :
    (∃ result, .finish k request.operation result ∈ acts) ∨ .drop k ∈ acts := by
  have either : (∃ rest, after.requests k = some ⟨request.operation, rest⟩) ∨
      (∃ result, .finish k request.operation result ∈ acts) ∨ .drop k ∈ acts := by
    clear gone
    induction run with
    | refl => exact .inl ⟨_, served⟩
    | @step acts t' _ act prior next inductionHypothesis =>
      have given : k < t'.arrived := Nat.lt_of_lt_of_le given prior.arrived_le
      rcases inductionHypothesis with ⟨rest, present⟩ | ⟨result, finished⟩ | dropped
      · cases next with
        | arrive =>
          exact .inl ⟨rest, (enter_requests_of_ne t' _ (Nat.ne_of_lt given)).trans present⟩
        | @exchange j _ _ _ _ _ waiting _ =>
          by_cases same : k = j
          · subst same
            cases waiting.symm.trans present
            exact .inl ⟨_, enter_requests_self t' k _⟩
          · exact .inl ⟨rest, (enter_requests_of_ne t' _ same).trans present⟩
        | @finish j _ result ended =>
          by_cases same : k = j
          · subst same
            cases ended.symm.trans present
            exact .inr (.inl ⟨result, by simp⟩)
          · exact .inl ⟨rest, (enter_requests_of_ne t' _ same).trans present⟩
        | @drop j _ _ =>
          by_cases same : k = j
          · subst same
            exact .inr (.inr (by simp))
          · exact .inl ⟨rest, (enter_requests_of_ne t' _ same).trans present⟩
        | drift _ => exact .inl ⟨rest, present⟩
      · exact .inr (.inl ⟨result, List.mem_append_left _ finished⟩)
      · exact .inr (.inr (List.mem_append_left _ dropped))
  rcases either with ⟨rest, present⟩ | done
  · rw [gone] at present
    cases present
  · exact done

/-- Once no request is being served, one that was not dropped has ended. -/
theorem Runs.finishes_of_undropped {k : Nat} {operation : Operation}
    (run : Runs r around (idle w) acts t) (quiet : t.IsIdle) (undropped : .drop k ∉ acts)
    (arrives : .arrive k operation ∈ acts) : ∃ result, .finish k operation result ∈ acts := by
  obtain ⟨past, future, rfl⟩ := List.append_of_mem arrives
  obtain ⟨before, middle, -, first, onward⟩ := run.cut
  cases first with
  | arrive =>
    have served := enter_requests_self before before.arrived
      (some ⟨operation, r.serve operation⟩)
    rcases onward.ends (Nat.lt_succ_self _) served (quiet _) with ⟨result, finished⟩ | dropped
    · exact ⟨result, List.mem_append_right _ (List.mem_cons_of_mem _ finished)⟩
    · exact absurd (List.mem_append_right _ (List.mem_cons_of_mem _ dropped)) undropped

end Traffic

end StatusRegistry
