import Mathlib.Data.List.Perm.Subperm
import StatusRegistry.Proofs.Cache.Recency

/-!
# What stays in the cache in memory

A value is evicted only after as many other keys have been used as there is room for. So a value
whose key was used stands for as long as its key is not settled and fewer other keys are used.
-/

namespace StatusRegistry.MemoryCache

variable {capacity : Nat} {past recent earlier since : List Moment} {m u : Moment} {c : MemoryCache}
  {key value : String} {limit : Nat}

/-- Time does not run back in a course of calls. -/
theorem Lives.time_le {now : Nat} (lives : Lives capacity past c)
    (onward : ∀ m ∈ past.head?, m.time ≤ now) : ∀ m ∈ past, m.time ≤ now := by
  induction lives generalizing now with
  | start => exact fun _ member => absurd member List.not_mem_nil
  | next _ time request before inductionHypothesis =>
    have last : time ≤ now := onward _ rfl
    refine List.forall_mem_cons.mpr ⟨last, inductionHypothesis fun m first => ?_⟩
    exact Nat.le_trans (before m first) last

/-- The calls since a key was last used come after every call that uses it. -/
theorem SinceUse.isPrefix (last : SinceUse (recent ++ u :: earlier) key since) (uses : u.Uses key) :
    since <+: recent := by
  obtain ⟨m, before, same, -, unused⟩ := last
  rcases List.append_eq_append_iff.mp same with ⟨gap, rfl, rest⟩ | ⟨gap, rfl, -⟩
  · cases gap with
    | nil => exact (List.append_nil recent).symm ▸ List.prefix_refl _
    | cons first gap =>
      obtain rfl := (List.cons.inj rest).1
      exact absurd uses (unused u (List.mem_append_right _ List.mem_cons_self))
  · exact List.prefix_append _ _

/-- A value whose key has just been used still stands after calls that do not settle the key and use
fewer other keys than there is room for. -/
theorem Stands.of_few {others : List String} (lives : Lives capacity (recent ++ m :: past) c)
    (stands : Stands (m :: past) key value limit) (uses : m.Uses key)
    (unsettled : ∀ l ∈ recent, ¬l.Settles key)
    (only : ∀ l ∈ recent, ∀ other, l.Uses other → other = key ∨ other ∈ others)
    (few : others.length < max capacity 1) : Stands (recent ++ m :: past) key value limit := by
  induction recent generalizing c with
  | nil => exact stands
  | cons l recent inductionHypothesis =>
    obtain ⟨quiet, unsettled⟩ := List.forall_mem_cons.mp unsettled
    have lately := (List.forall_mem_cons.mp only).2
    obtain ⟨earlier, -⟩ : Lives capacity (recent ++ m :: past) l.cache ∧ _ :=
      Lives.before (show Lives capacity ([] ++ l :: (recent ++ m :: past)) c from lives)
    refine (inductionHypothesis earlier unsettled lately).cons quiet fun evicts => ?_
    obtain ⟨since, last, used, distinct, absent, size, uses'⟩ :=
      earlier.isCurrent.used_of_evicts evicts
    have among : used ⊆ others := by
      intro other member
      obtain ⟨v, there, usesOther⟩ := uses' other member
      have recently : v ∈ l :: recent := by
        rcases List.mem_cons.mp there with rfl | behind
        · exact List.mem_cons_self
        · exact List.mem_cons_of_mem _ ((last.isPrefix uses).subset behind)
      rcases only v recently other usesOther with rfl | found
      · exact absurd member absent
      · exact found
    have bound := (List.subperm_of_subset distinct among).length_le
    omega

/-- A value that stands was written no earlier than any other value under its key. -/
theorem Stands.written (lives : Lives capacity past c) (stands : Stands past key value limit)
    {other : String} {limit' : Nat} (member : u ∈ past) (writes : u.Writes key other limit') :
    ∃ m ∈ past, m.Writes key value limit ∧ u.time ≤ m.time := by
  obtain ⟨later, m, earlier, rfl, written, quiet⟩ := stands
  refine ⟨m, List.mem_append_right _ List.mem_cons_self, written, ?_⟩
  rcases List.mem_append.mp member with behind | before
  · exact absurd (.inl ⟨other, limit', writes⟩) (quiet u behind).1
  · rcases List.mem_cons.mp before with rfl | before
    · exact Nat.le_refl _
    · obtain ⟨first, onward⟩ := lives.before
      exact first.time_le onward u before

/-- A value that a call gives out or writes stands after the call. -/
theorem IsCurrent.stands_of_uses (current : IsCurrent capacity past m.cache)
    (onward : ∀ l ∈ past.head?, l.time ≤ m.time) (uses : m.Uses key) :
    ∃ value limit, Stands (m :: past) key value limit := by
  obtain ⟨value, limit, writes⟩ | ⟨asked, value, given⟩ := uses
  · exact ⟨value, limit, [], m, past, rfl, writes, fun _ none => absurd none List.not_mem_nil⟩
  · obtain ⟨limit, stands, -⟩ := (current.get_eq_some_iff onward).mp given
    have unwritten : ∀ key value limit, ¬m.Writes key value limit := by
      rintro _ _ _ ⟨_, asked', -⟩
      cases asked.symm.trans asked'
    refine ⟨value, limit, stands.cons ?_ ?_⟩
    · rintro (⟨_, _, writes⟩ | asked')
      · exact unwritten _ _ _ writes
      · cases asked.symm.trans asked'
    · intro evicts
      obtain ⟨_, _, _, writes, -⟩ := (Moment.evicts_iff current.distinct).mp evicts
      exact unwritten _ _ _ writes

end StatusRegistry.MemoryCache
