import Mathlib.Data.List.Chain
import StatusRegistry.Http.Limit

/-!
# The pace of a quota

What a limiter knows of a client is one number, the time at which the client's next request would be
due, and each request changes it by itself. So of a client that comes at some times, the times alone
tell which of its requests are admitted. In no window are more admitted than can be made at once and
one more for every period, and a pace is kept up for ever exactly if it leaves a period between two
requests.
-/

namespace StatusRegistry.Http

namespace Quota

variable (q : Quota)

/-- The nanoseconds of a second. -/
def second : Nat := 1000000000

/-- The number with which a quota is written: the seconds of its period. -/
def perSecond : Nat := q.period / second

/-- A request is admitted now. A client without a due time is due now. -/
def Admits (due : Option Nat) (now : Nat) : Prop := due.getD now ≤ now + q.allowance

instance (due : Option Nat) (now : Nat) : Decidable (q.Admits due now) :=
  inferInstanceAs (Decidable (_ ≤ _))

/-- The due time of a client after a request. -/
def next (due : Option Nat) (now : Nat) : Option Nat :=
  if q.Admits due now then some (max (due.getD now) now + q.period) else due

/-- The due time of a client that has made requests at some times. -/
def dueAfter (times : List Nat) : Option Nat := times.foldl q.next none

/-- A request is admitted now from a client that has made requests at some times. -/
def Grants (times : List Nat) (now : Nat) : Prop := q.Admits (q.dueAfter times) now

/-- The times at which the requests of a client are admitted. -/
def granted (q : Quota) : Option Nat → List Nat → List Nat
  | _, [] => []
  | due, now :: later => (if q.Admits due now then [now] else []) ++ q.granted (q.next due now) later

instance (times : List Nat) (now : Nat) : Decidable (q.Grants times now) :=
  inferInstanceAs (Decidable (q.Admits _ _))

variable {q} {due : Option Nat} {now : Nat} {times : List Nat}

/-- An admitted request is the last that is due. -/
theorem next_of_admits (admits : q.Admits due now) :
    q.next due now = some (max (due.getD now) now + q.period) := if_pos admits

/-- A request that is not admitted does not count. -/
theorem next_of_not_admits (refuses : ¬q.Admits due now) : q.next due now = due := if_neg refuses

/-- A further request is made after all others. -/
theorem dueAfter_snoc (times : List Nat) (now : Nat) :
    q.dueAfter (times ++ [now]) = q.next (q.dueAfter times) now := by
  rw [dueAfter, List.foldl_append]
  rfl

/-- A further request is admitted or not, and the others are as before. -/
theorem granted_snoc (due : Option Nat) (times : List Nat) (now : Nat) :
    q.granted due (times ++ [now]) =
      q.granted due times ++ if q.Admits (times.foldl q.next due) now then [now] else [] := by
  induction times generalizing due with
  | nil =>
    rw [List.nil_append, granted, granted, granted, List.append_nil]
    rfl
  | cons first times inductionHypothesis =>
    rw [List.cons_append, granted, inductionHypothesis, granted, List.append_assoc]
    rfl

/-- A further request of a client is admitted if it is granted. -/
theorem granted_none_snoc (times : List Nat) (now : Nat) :
    q.granted none (times ++ [now]) =
      q.granted none times ++ if q.Grants times now then [now] else [] :=
  granted_snoc none times now

/-- Whether a time is in a window. -/
def inWindow (start length now : Nat) : Bool := start ≤ now && now ≤ start + length

/-- The times of admitted requests, once the first has been made. -/
theorem granted_of_admits (admits : q.Admits due now) (later : List Nat) :
    q.granted due (now :: later) =
      now :: q.granted (some (max (due.getD now) now + q.period)) later := by
  rw [granted, if_pos admits, next_of_admits admits, List.singleton_append]

/-- The times of admitted requests, once one has been refused. -/
theorem granted_of_not_admits (refuses : ¬q.Admits due now) (later : List Nat) :
    q.granted due (now :: later) = q.granted due later := by
  rw [granted, if_neg refuses, next_of_not_admits refuses, List.nil_append]

/-- A time is in a window between its ends. -/
theorem inWindow_iff {start length now : Nat} :
    inWindow start length now = true ↔ start ≤ now ∧ now ≤ start + length := by
  simp [inWindow]

/-- Every request that is admitted in a window moves the due time on by a period, and the last of
them comes no earlier than allowed. -/
theorem due_add_le {due start length : Nat} (times : List Nat)
    (busy : 0 < (q.granted (some due) times).countP (inWindow start length)) :
    due + (q.granted (some due) times).countP (inWindow start length) * q.period ≤
      start + length + q.allowance + q.period := by
  induction times generalizing due with
  | nil => exact absurd busy (Nat.lt_irrefl 0)
  | cons now times inductionHypothesis =>
    by_cases admits : q.Admits (some due) now
    · rw [granted_of_admits admits, Option.getD_some, List.countP_cons] at busy ⊢
      have early : due ≤ now + q.allowance := admits
      obtain none | more := Nat.eq_zero_or_pos
        ((q.granted (some (max due now + q.period)) times).countP (inWindow start length))
      · have inside : inWindow start length now = true := by
          cases outside : inWindow start length now with
          | true => rfl
          | false =>
            rw [none, outside] at busy
            exact absurd busy (Nat.lt_irrefl 0)
        have timely := (inWindow_iff.mp inside).2
        rw [none, if_pos inside, Nat.zero_add, Nat.one_mul]
        omega
      · have later := inductionHypothesis more
        split
        · rw [Nat.add_mul, Nat.one_mul]
          omega
        · rw [Nat.add_zero]
          omega
    · rw [granted_of_not_admits admits] at busy ⊢
      exact inductionHypothesis busy

/-- In a window no more requests are admitted than can be made at once and one more for every
period. -/
theorem countP_granted_le (burst : 0 < q.burst) (due : Option Nat) (times : List Nat)
    (start length : Nat) :
    (q.granted due times).countP (inWindow start length) * q.period ≤
      q.burst * q.period + length := by
  induction times generalizing due with
  | nil => exact Nat.le_trans (Nat.le_of_eq (Nat.zero_mul _)) (Nat.zero_le _)
  | cons now times inductionHypothesis =>
    by_cases admits : q.Admits due now
    · rw [granted_of_admits admits, List.countP_cons]
      split
      · rename_i inside
        have begun := (inWindow_iff.mp inside).1
        have whole : q.allowance + q.period = q.burst * q.period := by
          rw [allowance, ← Nat.succ_mul, Nat.succ_eq_add_one, Nat.sub_add_cancel burst]
        rw [Nat.add_mul, Nat.one_mul]
        obtain none | more := Nat.eq_zero_or_pos
          ((q.granted (some (max (due.getD now) now + q.period)) times).countP
            (inWindow start length))
        · rw [none]
          omega
        · have bound := due_add_le times more
          omega
      · exact inductionHypothesis _
    · rw [granted_of_not_admits admits]
      exact inductionHypothesis due

/-- Where a period is no less than a second, the number with which the quota is written is more than
enough for a second. -/
theorem mul_second_le {n length : Nat} (long : second ≤ q.period)
    (bound : n * q.period ≤ q.burst * q.period + length) :
    n * second ≤ q.burst * second + q.perSecond * length := by
  obtain few | many := Nat.le_total n q.burst
  · exact Nat.le_trans (Nat.mul_le_mul_right _ few) (Nat.le_add_right _ _)
  · obtain ⟨more, rfl⟩ := Nat.exists_eq_add_of_le many
    rw [Nat.add_mul] at bound ⊢
    have positive : 0 < q.perSecond := Nat.div_pos long (by decide)
    refine Nat.add_le_add_left ?_ _
    calc
      more * second ≤ more * q.period := Nat.mul_le_mul_left _ long
      _ ≤ length := Nat.le_of_add_le_add_left bound
      _ ≤ q.perSecond * length := Nat.le_mul_of_pos_left _ positive

/-- Requests that leave a period between two are always admitted, if the first is no earlier than
due. -/
theorem admits_of_spaced (timely : ∀ first ∈ (times ++ [now]).head?, due.getD first ≤ first)
    (spaced : (times ++ [now]).IsChain fun a b => a + q.period ≤ b) :
    q.Admits (times.foldl q.next due) now := by
  induction times generalizing due with
  | nil => exact Nat.le_trans (timely now rfl) (Nat.le_add_right _ _)
  | cons first times inductionHypothesis =>
    have early : due.getD first ≤ first := timely first rfl
    have admits : q.Admits due first := Nat.le_trans early (Nat.le_add_right _ _)
    rw [List.cons_append, List.isChain_cons] at spaced
    rw [List.foldl_cons, next_of_admits admits, Nat.max_eq_right early]
    exact inductionHypothesis spaced.1 spaced.2

/-- The times of some requests, the first at a start and each a gap after the one before. -/
def steady (start gap n : Nat) : List Nat := (List.range n).map fun i => start + i * gap

/-- One more steady request. -/
theorem steady_succ (start gap n : Nat) :
    steady start gap (n + 1) = steady start gap n ++ [start + n * gap] := by
  rw [steady, List.range_succ, List.map_append]
  rfl

/-- Steady requests leave their gap between two. -/
theorem isChain_steady (start gap n : Nat) :
    (steady start gap n).IsChain fun a b => a + gap ≤ b := by
  induction n with
  | zero => exact .nil
  | succ n inductionHypothesis =>
    cases n with
    | zero => exact .singleton _
    | succ n =>
      rw [steady_succ, steady_succ, List.append_assoc, List.singleton_append,
        List.isChain_append_cons_cons, ← steady_succ]
      refine ⟨inductionHypothesis, ?_, .singleton _⟩
      rw [Nat.succ_mul, Nat.add_assoc]

/-- Steady requests with less than a period between two move the due time on by a period each, as
long as they are admitted. -/
theorem dueAfter_steady {start gap : Nat} (hurried : gap ≤ q.period) (n : Nat)
    (grants : ∀ i ≤ n, q.Grants (steady start gap i) (start + i * gap)) :
    q.dueAfter (steady start gap (n + 1)) = some (start + (n + 1) * q.period) := by
  induction n with
  | zero =>
    have first : (q.dueAfter (steady start gap 0)).getD (start + 0 * gap) = start + 0 * gap := rfl
    rw [steady_succ, dueAfter_snoc, next_of_admits (grants 0 (Nat.le_refl 0)), first, Nat.max_self,
      Nat.zero_mul, Nat.zero_add, Nat.one_mul]
    rfl
  | succ n inductionHypothesis =>
    have earlier := inductionHypothesis fun i within => grants i (Nat.le_succ_of_le within)
    have behind : (n + 1) * gap ≤ (n + 1) * q.period := Nat.mul_le_mul_left _ hurried
    rw [steady_succ, dueAfter_snoc, next_of_admits (grants (n + 1) (Nat.le_refl _)), earlier,
      Option.getD_some, Nat.max_eq_left (by omega), Nat.succ_mul (n + 1), Nat.add_assoc]

/-- A client that leaves less than a period between two requests is refused in the end. -/
theorem exists_not_grants (start : Nat) {gap : Nat} (hurried : gap < q.period) :
    ∃ n, ¬q.Grants (steady start gap n) (start + n * gap) := by
  refine Classical.byContradiction fun always => ?_
  have grants : ∀ i, q.Grants (steady start gap i) (start + i * gap) := fun i =>
    Classical.byContradiction fun refuses => always ⟨i, refuses⟩
  have due := dueAfter_steady (Nat.le_of_lt hurried) q.allowance fun i _ => grants i
  have admits : (q.dueAfter (steady start gap (q.allowance + 1))).getD _ ≤
      start + (q.allowance + 1) * gap + q.allowance := grants (q.allowance + 1)
  rw [due, Option.getD_some] at admits
  have lag : (q.allowance + 1) * (gap + 1) ≤ (q.allowance + 1) * q.period :=
    Nat.mul_le_mul_left _ hurried
  rw [Nat.mul_add, Nat.mul_one] at lag
  omega

end Quota

end StatusRegistry.Http
