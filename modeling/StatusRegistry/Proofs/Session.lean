import StatusRegistry.Proofs.Coherence
import StatusRegistry.Proofs.Faults

/-!
# Operations one after another

A session serves operations one at a time, each from its first call to its end. Time passes between
any two calls: the clock moves, and statements begin to fail or to work again. Nobody else touches
the rows or the cache, so an operation finds what the operations before it have left.

Where the cache works, every copy that an operation finds is the live row of its key. Within an
operation this may fail for a moment, between the change of a row and the removal of its copy.
-/

namespace StatusRegistry

open Program (Leads)
open Registry (ReadEnds lookedUp)

variable {α : Type} {r : Registry} {operation : Operation} {w u v t after : World} {id : Uuid}
  {s : Status}

namespace World

/-- Time passes, and nobody touches the rows or the cache. -/
structure Rests (w after : World) : Prop where
  statuses : after.store.statuses = w.store.statuses
  cache : after.cache = w.cache
  cacheFaults : after.cacheFaults = w.cacheFaults
  onward : w.now ≤ after.now

/-- A program is performed from its first call to its end, and time passes before its calls. Every
exchange is logged with the world that gave the answer. -/
inductive Performs : World → Program α → List (World × Exchange) → World → α → Prop where
  | done {w : World} {a : α} : Performs w (.done a) [] w a
  | call {w before middle after : World} {c : Call} {next : c.Answer → Program α}
      {answer : c.Answer} {log : List (World × Exchange)} {a : α} (rests : w.Rests before)
      (given : before.Answers c answer middle) (rest : Performs middle (next answer) log after a) :
      Performs w (.call c next) ((before, ⟨c, answer⟩) :: log) after a

/-- Every copy is the live row of its key, in a world whose cache works. -/
structure IsCoherent (w : World) : Prop where
  cacheWorks : w.cacheFaults = []
  serverWorks : w.cache.IsFaultless
  copies : ∀ id text, w.cache.Holds (cacheKey id) text →
    ∃ s, text = s.toJson.text ∧ w.store.live id = some s

/-- How a world in the middle of an operation has come from the one where the operation began. -/
structure Becomes (w : World) (past : List Exchange) (u : World) : Prop where
  cacheWorks : u.cacheFaults = []
  serverWorks : u.cache.IsFaultless
  /-- A row that was live or has been found is live, unless it has been changed. -/
  rows : ∀ id s,
    w.store.live id = some s ∨ ⟨.query (.findStatus id), .ok (some s)⟩ ∈ past →
      u.store.live id = some s ∨ ∃ e ∈ past, e.changes id
  /-- A copy that has been read is of the live row, unless that has been changed. -/
  reads : ∀ id text, ⟨.cacheGet (cacheKey id), .ok text⟩ ∈ past →
    (∃ s, text = s.toJson.text ∧ u.store.live id = some s) ∨ ∃ e ∈ past, e.changes id
  /-- A copy is of the live row, unless that has been changed and the copy is yet to be removed. -/
  copies : ∀ id text, u.cache.Holds (cacheKey id) text →
    (∃ s, text = s.toJson.text ∧ u.store.live id = some s) ∨
      (∃ e ∈ past, e.changes id) ∧ ∀ answer, ⟨.cacheDelete (cacheKey id), answer⟩ ∉ past

variable {c : Call} {answer : c.Answer} {past : List Exchange}

/-- No time may pass. -/
theorem Rests.refl (w : World) : w.Rests w := ⟨rfl, rfl, rfl, Nat.le_refl _⟩

/-- A live row stays live while time passes. -/
theorem Rests.live (rests : u.Rests v) (found : u.store.live id = some s) :
    v.store.live id = some s := by
  unfold Store.live at found ⊢
  rw [rests.statuses]
  exact found

/-- A live row stays live in a call that does not change it. -/
theorem Answers.live_or_changes (given : u.Answers c answer v) (found : u.store.live id = some s) :
    v.store.live id = some s ∨ Exchange.changes id ⟨c, answer⟩ := by
  cases c with
  | query q =>
    rcases given.of_query with ⟨-, rfl⟩ | ⟨rfl, rfl⟩
    · exact .inl found
    · exact Store.live_execute found q
  | _ =>
    left
    rcases given.of_other rfl with rfl | rfl
    · exact found
    · exact found

/-- A lookup finds the live row. -/
theorem Answers.found (given : u.Answers (.query (.findStatus id)) (.ok (some s)) v) :
    u.store.live id = some s := by
  rcases given.of_query with ⟨⟨_, failed⟩, -⟩ | ⟨found, -⟩
  · cases failed
  · exact (Except.ok.inj found).symm

/-- An operation starts with what it finds. -/
theorem IsCoherent.becomes (coherent : w.IsCoherent) : w.Becomes [] w where
  cacheWorks := coherent.cacheWorks
  serverWorks := coherent.serverWorks
  rows := fun _ _ known => .inl (known.resolve_right List.not_mem_nil)
  reads := fun _ _ member => absurd member List.not_mem_nil
  copies := fun id text held => .inl (coherent.copies id text held)

/-- This survives the passing of time. -/
theorem Becomes.rests (becomes : w.Becomes past u) (rests : u.Rests v) :
    w.Becomes past v where
  cacheWorks := rests.cacheFaults.trans becomes.cacheWorks
  serverWorks := rests.cache ▸ becomes.serverWorks
  rows := fun id s known => (becomes.rows id s known).imp_left rests.live
  reads := fun id text member =>
    (becomes.reads id text member).imp_left fun ⟨s, same, live⟩ => ⟨s, same, rests.live live⟩
  copies := fun id text held =>
    (becomes.copies id text (rests.cache ▸ held)).imp_left
      fun ⟨s, same, live⟩ => ⟨s, same, rests.live live⟩

/-- Time does not make a copy differ from the live row. -/
theorem IsCoherent.rests (coherent : w.IsCoherent) (rests : w.Rests after) :
    after.IsCoherent where
  cacheWorks := rests.cacheFaults.trans coherent.cacheWorks
  serverWorks := rests.cache ▸ coherent.serverWorks
  copies := fun id text held =>
    (coherent.copies id text (rests.cache ▸ held)).imp
      fun _ ⟨same, live⟩ => ⟨same, rests.live live⟩

/-- A row that has been changed stays one that has been changed. -/
theorem changed_append {later : List Exchange} (changed : ∃ e ∈ past, e.changes id) :
    ∃ e ∈ past ++ later, e.changes id := by
  obtain ⟨e, member, changes⟩ := changed
  exact ⟨e, List.mem_append_left _ member, changes⟩

/-- A live row stays live in a call, unless the row has then been changed. -/
theorem Answers.live_or_changed (past : List Exchange) (given : u.Answers c answer v)
    (live : u.store.live id = some s) :
    v.store.live id = some s ∨ ∃ e ∈ past ++ [⟨c, answer⟩], e.changes id := by
  refine (given.live_or_changes live).imp_right fun changes => ?_
  exact ⟨_, List.mem_append_right _ (List.mem_singleton.mpr rfl), changes⟩

/-- What a call finds is live, and what has been found stays live. -/
theorem Becomes.rows_answers (becomes : w.Becomes past u) (given : u.Answers c answer v)
    (known : w.store.live id = some s ∨
      ⟨.query (.findStatus id), .ok (some s)⟩ ∈ past ++ [⟨c, answer⟩]) :
    v.store.live id = some s ∨ ∃ e ∈ past ++ [⟨c, answer⟩], e.changes id := by
  have current : u.store.live id = some s ∨ ∃ e ∈ past, e.changes id := by
    rcases known with start | found
    · exact becomes.rows id s (.inl start)
    · rcases List.mem_append.mp found with before | now
      · exact becomes.rows id s (.inr before)
      · cases List.mem_singleton.mp now
        exact .inl given.found
  rcases current with live | changed
  · exact given.live_or_changed past live
  · exact .inr (changed_append changed)

/-- A call is given only copies of live rows, and their rows stay live. -/
theorem Becomes.reads_answers (becomes : w.Becomes past u) (given : u.Answers c answer v)
    {text : String} (member : ⟨.cacheGet (cacheKey id), .ok text⟩ ∈ past ++ [⟨c, answer⟩]) :
    (∃ s, text = s.toJson.text ∧ v.store.live id = some s) ∨
      ∃ e ∈ past ++ [⟨c, answer⟩], e.changes id := by
  have current : (∃ s, text = s.toJson.text ∧ u.store.live id = some s) ∨
      ∃ e ∈ past, e.changes id := by
    rcases List.mem_append.mp member with before | now
    · exact becomes.reads id text before
    · cases List.mem_singleton.mp now
      exact (becomes.copies id text (Cache.holds_of_get given.of_get)).imp_right And.left
  rcases current with ⟨s, same, live⟩ | changed
  · exact (given.live_or_changed past live).imp_left fun still => ⟨s, same, still⟩
  · exact .inr (changed_append changed)

/-- A copy that a call leaves in the cache stays that of the live row, unless the row has been changed
and the copy is yet to be removed. -/
theorem Becomes.copies_left {next : c.Answer → Registry.Service operation.Result} {text : String}
    (becomes : w.Becomes past u) (here : Leads (r.serve operation) past (.call c next))
    (given : u.Answers c answer v) (held : u.cache.Holds (cacheKey id) text)
    (kept : c ≠ .cacheDelete (cacheKey id)) :
    (∃ s, text = s.toJson.text ∧ v.store.live id = some s) ∨
      (∃ e ∈ past ++ [⟨c, answer⟩], e.changes id) ∧
        ∀ removed, ⟨.cacheDelete (cacheKey id), removed⟩ ∉ past ++ [⟨c, answer⟩] := by
  have unremoved : (∀ removed, ⟨.cacheDelete (cacheKey id), removed⟩ ∉ past) →
      ∀ removed, ⟨.cacheDelete (cacheKey id), removed⟩ ∉ past ++ [⟨c, answer⟩] := by
    intro sooner removed member
    rcases List.mem_append.mp member with before | now
    · exact sooner removed before
    · cases List.mem_singleton.mp now
      exact kept rfl
  rcases becomes.copies id text held with ⟨s, same, live⟩ | ⟨changed, sooner⟩
  · rcases given.live_or_changes live with still | changes
    · exact .inl ⟨s, same, still⟩
    · have sooner (removed : Except CacheError Unit) :
          ⟨.cacheDelete (cacheKey id), removed⟩ ∉ past :=
        r.not_evicts_before (e := ⟨c, answer⟩) changes (here.snoc answer)
      exact .inr ⟨⟨_, List.mem_append_right _ (List.mem_singleton.mpr rfl), changes⟩,
        unremoved sooner⟩
  · exact .inr ⟨changed_append changed, unremoved sooner⟩

/-- A copy that a call writes is that of the live row: the call is made by a read, which has found the
row and changes none. -/
theorem Becomes.copies_written {text : String} {lifetime : Nat} {answer : Except CacheError Unit}
    {next : Except CacheError Unit → Registry.Service operation.Result} (becomes : w.Becomes past u)
    (here : Leads (r.serve operation) past (.call (.cacheSet (cacheKey id) text lifetime) next))
    (given : u.Answers (.cacheSet (cacheKey id) text lifetime) answer v) :
    ∃ s, text = s.toJson.text ∧ v.store.live id = some s := by
  obtain ⟨_, s, rfl, sameKey, rfl, found⟩ := (r.conduct here).fills _ _ _ _ rfl
  obtain rfl := cacheKey_injective sameKey
  rcases becomes.rows_answers given (.inr (List.mem_append_left _ found)) with
    live | ⟨e, member, changes⟩
  · exact ⟨s, rfl, live⟩
  · exact absurd (r.target_of_changed changes (here.snoc answer) member) nofun

/-- This survives every call of an operation. -/
theorem Becomes.answers {next : c.Answer → Registry.Service operation.Result}
    (becomes : w.Becomes past u) (here : Leads (r.serve operation) past (.call c next))
    (given : u.Answers c answer v) : w.Becomes (past ++ [⟨c, answer⟩]) v := by
  obtain ⟨cacheWorks, serverWorks⟩ := given.isFaultless becomes.cacheWorks becomes.serverWorks
  refine ⟨cacheWorks, serverWorks, fun _ _ => becomes.rows_answers given,
    fun _ _ => becomes.reads_answers given, fun id text held => ?_⟩
  rcases given.holds becomes.cacheWorks becomes.serverWorks held with ⟨before, kept⟩ | ⟨_, rfl⟩
  · exact becomes.copies_left here given before kept
  · exact .inl (becomes.copies_written here given)

/-- What survives the passing of time and every call of a program holds when the program has been
performed. -/
theorem Performs.preserves {P : List (World × Exchange) → World → Prop} {p : Program α}
    {log : List (World × Exchange)} {a : α} (performs : u.Performs p log v a) (first : P [] u)
    (rests : ∀ {past u v}, P past u → u.Rests v → P past v)
    (answers : ∀ {past u v} {c : Call} {next : c.Answer → Program α} {answer : c.Answer},
      Leads p (past.map Prod.snd) (.call c next) → P past u → u.Answers c answer v →
        P (past ++ [(u, ⟨c, answer⟩)]) v) :
    Leads p (log.map Prod.snd) (.done a) ∧ P log v := by
  suffices onward : ∀ past rest, Leads p (past.map Prod.snd) rest → P past u →
      u.Performs rest log v a → Leads p ((past ++ log).map Prod.snd) (.done a) ∧ P (past ++ log) v
    from onward [] p .here first performs
  clear first performs
  intro past rest leads holds performs
  induction performs generalizing past with
  | done =>
    rw [List.append_nil]
    exact ⟨leads, holds⟩
  | @call _ before _ _ c _ answer log _ waits given _ inductionHypothesis =>
    have logged : past.map Prod.snd ++ [⟨c, answer⟩] =
        (past ++ [(before, Exchange.mk c answer)]).map Prod.snd := by
      rw [List.map_append]
      rfl
    have further := leads.snoc answer
    rw [logged] at further
    rw [List.append_cons]
    exact inductionHypothesis _ further (answers leads (rests holds waits) given)

variable {log : List (World × Exchange)} {result : Except Failure operation.Result}

/-- An operation that is performed is led to its end by the answers that it is given, and leaves the
world as they have made it. -/
theorem Performs.becomes (coherent : w.IsCoherent)
    (performs : w.Performs (r.serve operation) log after result) :
    Leads (r.serve operation) (log.map Prod.snd) (.done result) ∧
      w.Becomes (log.map Prod.snd) after := by
  refine performs.preserves (P := fun past u => w.Becomes (past.map Prod.snd) u) coherent.becomes
    Becomes.rests fun here becomes given => ?_
  rw [List.map_append]
  exact becomes.answers here given

/-- After an operation every copy is the live row of its key again. -/
theorem Performs.isCoherent (coherent : w.IsCoherent)
    (performs : w.Performs (r.serve operation) log after result) : after.IsCoherent := by
  obtain ⟨leads, becomes⟩ := performs.becomes coherent
  refine ⟨becomes.cacheWorks, becomes.serverWorks, fun id text held => ?_⟩
  rcases becomes.copies id text held with current | ⟨⟨e, member, changed⟩, unremoved⟩
  · exact current
  · obtain ⟨-, removed, removes⟩ := r.finish_of_changed changed leads member
    exact absurd removes (unremoved removed)

/-- A live row stays live in an operation that does not change it. -/
theorem Performs.live (coherent : w.IsCoherent)
    (performs : w.Performs (r.serve operation) log after result)
    (unchanged : operation.target? = some id → ∀ a, result ≠ .ok a)
    (found : w.store.live id = some s) : after.store.live id = some s := by
  obtain ⟨leads, becomes⟩ := performs.becomes coherent
  rcases becomes.rows id s (.inl found) with still | ⟨e, member, changed⟩
  · exact still
  · obtain ⟨⟨a, succeeded⟩, -⟩ := r.finish_of_changed changed leads member
    exact absurd succeeded (unchanged (r.target_of_changed changed leads member) a)

/-- A read that succeeds gives the live row. -/
theorem Performs.live_of_read (coherent : w.IsCoherent)
    (performs : w.Performs (r.serve (.get id)) log after (.ok s)) :
    ∃ row, after.store.live id = some row ∧ (row.IsDated → s = row) := by
  obtain ⟨leads, becomes⟩ := performs.becomes coherent
  have unchanged : ¬∃ e ∈ log.map Prod.snd, e.changes id := by
    rintro ⟨e, member, changed⟩
    exact absurd (r.target_of_changed changed leads member) nofun
  cases r.readEnds leads with
  | @hit text _ read decoded same =>
    cases same
    obtain ⟨row, rfl, live⟩ := (becomes.reads id text read).resolve_right unchanged
    refine ⟨row, live, fun dated => ?_⟩
    rw [Status.decode_text dated] at decoded
    exact (Except.ok.inj decoded).symm
  | @lookup _ answer _ _ asked same =>
    rcases answer with e | (_ | row)
    · cases same
    · cases same
    · cases same
      exact ⟨s, (becomes.rows id s (.inr asked)).resolve_right unchanged, fun _ => rfl⟩

end World

/-- An operation that has been performed, with the log of its exchanges. -/
structure Visit where
  operation : Operation
  log : List (World × Exchange)
  result : Except Failure operation.Result

/-- A visit was a read that gave a status. -/
def Visit.Gives (v : Visit) (id : Uuid) (s : Status) : Prop := ∃ log, v = ⟨.get id, log, .ok s⟩

/-- A visit was an update or a deletion of a status that succeeded. -/
def Visit.Changes (v : Visit) (id : Uuid) : Prop :=
  v.operation.target? = some id ∧ ∃ a, v.result = .ok a

/-- Operations performed one after another, with time passing between them. -/
inductive Session (r : Registry) (start : World) : List Visit → World → Prop where
  | opens : Session r start [] start
  | waits {visits : List Visit} {t after : World} (earlier : Session r start visits t)
      (rests : t.Rests after) : Session r start visits after
  | serves {visits : List Visit} {t after : World} {operation : Operation}
      {log : List (World × Exchange)} {result : Except Failure operation.Result}
      (earlier : Session r start visits t)
      (performs : t.Performs (r.serve operation) log after result) :
      Session r start (visits ++ [⟨operation, log, result⟩]) after

namespace Session

variable {visits early later : List Visit} {v : Visit}

/-- A session may be cut at any of its visits. -/
theorem cut (session : Session r w (early ++ v :: later) t) :
    ∃ before after, Session r w early before ∧
      before.Performs (r.serve v.operation) v.log after v.result ∧ Session r after later t := by
  generalize same : early ++ v :: later = visits at session
  induction session generalizing later with
  | opens => exact absurd same (List.append_ne_nil_of_right_ne_nil _ (List.cons_ne_nil _ _))
  | waits _ rests inductionHypothesis =>
    obtain ⟨before, after, first, performs, second⟩ := inductionHypothesis same
    exact ⟨before, after, first, performs, .waits second rests⟩
  | serves earlier performs inductionHypothesis =>
    rcases List.eq_nil_or_concat later with rfl | ⟨between, last, rfl⟩
    · obtain ⟨rfl, lastEq⟩ := List.append_inj' same rfl
      cases lastEq
      exact ⟨_, _, earlier, performs, .opens⟩
    · rw [List.concat_eq_append, ← List.cons_append, ← List.append_assoc] at same
      obtain ⟨front, lastEq⟩ := List.append_inj' same rfl
      cases lastEq
      obtain ⟨before, after, first, performed, second⟩ := inductionHypothesis front
      rw [List.concat_eq_append]
      exact ⟨before, after, first, performed, .serves second performs⟩

/-- Between operations every copy is the live row of its key. -/
theorem isCoherent (coherent : w.IsCoherent) (session : Session r w visits t) : t.IsCoherent := by
  induction session with
  | opens => exact coherent
  | waits _ rests inductionHypothesis => exact inductionHypothesis.rests rests
  | serves _ performs inductionHypothesis => exact performs.isCoherent inductionHypothesis

/-- A live row stays live while no operation changes it. -/
theorem live (coherent : w.IsCoherent) (session : Session r w visits t)
    (unchanged : ∀ v ∈ visits, ¬v.Changes id) (found : w.store.live id = some s) :
    t.store.live id = some s := by
  induction session with
  | opens => exact found
  | waits _ rests inductionHypothesis => exact rests.live (inductionHypothesis unchanged)
  | serves earlier performs inductionHypothesis =>
    obtain ⟨before, last⟩ := List.forall_mem_append.mp unchanged
    have failed := List.forall_mem_singleton.mp last
    exact performs.live (earlier.isCoherent coherent) (fun target a same => failed ⟨target, a, same⟩)
      (inductionHypothesis before)

/-- What a read has given is the live row while no operation changes it. -/
theorem live_of_gives (coherent : w.IsCoherent) (session : Session r w (early ++ v :: later) t)
    (gives : v.Gives id s) (unchanged : ∀ v ∈ later, ¬v.Changes id) :
    ∃ row, t.store.live id = some row ∧ (row.IsDated → s = row) := by
  obtain ⟨log, rfl⟩ := gives
  obtain ⟨before, after, first, performs, second⟩ := session.cut
  have ready := first.isCoherent coherent
  obtain ⟨row, live, same⟩ := performs.live_of_read ready
  exact ⟨row, second.live (performs.isCoherent ready) unchanged live, same⟩

end Session

end StatusRegistry
