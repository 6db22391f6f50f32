import StatusRegistry.Proofs.Http.Limits

/-!
# The pace that is kept up

A client is never refused, however long it goes on, exactly if it leaves a period between two of its
requests. A quota is written as a number per second but is read as the seconds of its period. For one
a second this is the same. For two a second it is not: a client that makes two requests a second is
refused once it has used up its burst.
-/

namespace StatusRegistry.Http

/-- A pace is kept up in a group: a client that leaves a gap between two of its requests to the group
is never refused, however many it makes. -/
def Group.Sustains (group : Group) (gap : Nat) : Prop :=
  ∀ (service : Service) (world : World) (visits : List Visit) (finish : ServerState) (client : Ip),
    Life service (.make world) visits finish →
    (timesOf service (client, group) visits).IsChain (fun a b => a + gap ≤ b) →
    ∀ v ∈ visits, v.request.key? service = some (client, group) →
      v.served.response.status ≠ 429

/-- A part of the times under a key that comes before a visit. -/
theorem isPrefix_timesOf {service : Service} {key : Ip × Group} {v : Visit}
    (keyed : v.request.key? service = some key) (front back : List Visit) :
    timesOf service key front ++ [v.time] <+: timesOf service key (front ++ v :: back) := by
  refine ⟨timesOf service key back, ?_⟩
  simp [timesOf, visitsOf, keyed]

/-- A pace with a period between two requests is kept up. -/
theorem Group.sustains_of_period_le {group : Group} {gap : Nat} (slow : group.quota.period ≤ gap) :
    group.Sustains gap := by
  intro service world visits finish client life spaced v member keyed refused
  obtain ⟨front, back, rfl⟩ := List.append_of_mem member
  obtain ⟨_, same, refuses⟩ := life.refused_iff.mp refused
  cases keyed.symm.trans same
  refine refuses (Quota.admits_of_spaced (fun _ _ => Nat.le_refl _) ?_)
  have part := spaced.prefix (isPrefix_timesOf keyed front back)
  exact part.imp fun a b apart => Nat.le_trans (Nat.add_le_add_left slow a) apart

open Http.Sample

/-- A steady client whose last request is not granted has that request refused, though it has left
its gap between any two. -/
theorem refused_of_steady {group : Group} {start gap n : Nat}
    (refuses : ¬group.quota.Grants (Quota.steady start gap n) (start + n * gap)) :
    ∃ front v finish, Life deployment opening (front ++ [v]) finish ∧
      timesOf deployment (client, group) (front ++ [v]) = Quota.steady start gap (n + 1) ∧
      v.request.key? deployment = some (client, group) ∧ v.served.response.status = 429 := by
  obtain ⟨front, v, finish, life, times, time, request⟩ := steady_life group start gap n
  have keyed : v.request.key? deployment = some (client, group) := request ▸ requestIn_key group
  refine ⟨front, v, finish, life, ?_, keyed, ?_⟩
  · rw [timesOf_snoc, if_pos keyed, times, time, Quota.steady_succ]
  · refine life.refused_iff.mpr ⟨_, keyed, ?_⟩
    rw [times, time]
    exact refuses

/-- A pace that a steady client cannot keep up is not kept up. -/
theorem Group.not_sustains {group : Group} {start gap n : Nat}
    (refuses : ¬group.quota.Grants (Quota.steady start gap n) (start + n * gap)) :
    ¬group.Sustains gap := by
  intro sustains
  obtain ⟨front, v, finish, life, times, keyed, refused⟩ := refused_of_steady refuses
  have spaced := Quota.isChain_steady start gap (n + 1)
  rw [← times] at spaced
  have member : v ∈ front ++ [v] := List.mem_append_right _ (List.mem_singleton.mpr rfl)
  exact sustains _ _ _ _ _ life spaced v member keyed refused

/-- A pace is kept up exactly if it leaves a period between two requests. -/
theorem pace_is_sustained_iff (group : Group) (gap : Nat) :
    group.Sustains gap ↔ group.quota.period ≤ gap := by
  refine ⟨fun sustains => Nat.le_of_not_lt fun hurried => ?_, Group.sustains_of_period_le⟩
  obtain ⟨n, refuses⟩ := Quota.exists_not_grants 0 hurried
  exact Group.not_sustains refuses sustains

/-- The pace with which the quota of reads is written, half a second between two requests, is not
kept up: of a client that makes its requests at this pace the hundred and thirty-fourth is refused.
The pace with which the quota of changes is written is kept up. -/
theorem two_reads_a_second_are_refused :
    (∃ front v finish, Life deployment opening (front ++ [v]) finish ∧
      timesOf deployment (client, .reads) (front ++ [v]) =
        Quota.steady 0 (Quota.second / Quota.reads.perSecond) 134 ∧
      v.request.key? deployment = some (client, .reads) ∧ v.served.response.status = 429) ∧
    ¬Group.reads.Sustains (Quota.second / Quota.reads.perSecond) ∧
    Group.changes.Sustains (Quota.second / Quota.changes.perSecond) := by
  have refuses : ¬Group.reads.quota.Grants
      (Quota.steady 0 (Quota.second / Quota.reads.perSecond) 133)
      (0 + 133 * (Quota.second / Quota.reads.perSecond)) := by
    decide +kernel
  exact ⟨refused_of_steady refuses, Group.not_sustains refuses,
    Group.sustains_of_period_le (by decide)⟩

end StatusRegistry.Http
