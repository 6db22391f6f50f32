import StatusRegistry.Proofs.Conversation
import StatusRegistry.Proofs.Tokens.Issuing

/-!
# The life of a token

A token is issued once, lets its holder act until it is revoked, and then never again. It keeps its
place in the table, so it can be followed through all that happens. The raw token cannot be issued
a second time, because its digest stays in the table when it is revoked; this needs that it is
issued and looked up under one signing secret.
-/

namespace StatusRegistry

namespace World

/-- A program whose outcome is only told does what the program itself does. -/
theorem run_told {α β : Type} (f : α → β) (p : Program α) (w : World) :
    w.run (p.bind fun a => .done (f a)) =
      ⟨(w.run p).value.map f, (w.run p).world, (w.run p).events⟩ := by
  induction p generalizing w with
  | done a => rfl
  | call c next inductionHypothesis =>
    simp only [Program.bind, run]
    obtain ⟨_ | answer, after, events⟩ := w.answer c
    · rfl
    · simp only [inductionHypothesis]

/-- A single call whose answer is only told runs as it is answered. -/
theorem run_single {β : Type} {w : World} {c : Call} {outcome : Outcome c.Answer}
    (answered : w.answer c = outcome) (f : c.Answer → β) :
    w.run (.call c fun answer => .done (f answer)) =
      ⟨outcome.value.map f, outcome.world, outcome.events⟩ := by
  simp only [run, answered]
  obtain ⟨_ | answer, after, events⟩ := outcome
  · rfl
  · simp only [List.append_nil, Option.map_some]

/-- A program that ends after a call got an answer to it. -/
theorem answered_of_value {α : Type} {w : World} {c : Call} {next : c.Answer → Program α} {a : α}
    (ends : (w.run (.call c next)).value = some a) :
    ∃ answer after, w.Answers c answer after ∧ (after.run (next answer)).value = some a := by
  cases answered : w.answer c with
  | mk value after events =>
    cases value with
    | none =>
      simp only [run, answered] at ends
      cases ends
    | some answer =>
      have given : w.Answers c answer after := ⟨events, answered⟩
      exact ⟨answer, after, given, (value_ask given next).symm.trans ends⟩

/-- A statement that reaches a store which is not set to fail is executed. -/
theorem answerQuery_executed {w : World} {q : Statement} (free : w.connection = .free)
    (works : w.storeFaults.lookup q.name = none) :
    w.answerQuery q =
      ⟨some (w.store.execute q).1, { w with store := (w.store.execute q).2 }, [.executed q]⟩ := by
  simp only [answerQuery, free, works]

/-- A call writes to the tokens what a statement writes. -/
theorem tokenWrites_answer (w : World) (c : Call) :
    TokenWrites w.store.tokens (w.answer c).world.store.tokens := by
  cases c with
  | query q =>
    show TokenWrites w.store.tokens (w.answerQuery q).world.store.tokens
    rcases w.answerQuery_cases q with ⟨_, _, fails, -⟩ | ⟨_, _, waits, same, -⟩ | works
    · rw [fails]
      exact .nothing
    · rw [waits, same]
      exact .nothing
    · rw [works]
      exact w.store.tokenWrites_execute q
  | cacheGet key =>
    simp only [answer, answerGet]
    split <;> exact .nothing
  | cacheSet key value lifetime =>
    simp only [answer, answerSet]
    split <;> exact .nothing
  | cacheDelete key =>
    simp only [answer, answerDelete]
    split <;> exact .nothing
  | cacheHealth => exact .nothing
  | count m => exact .nothing

/-- Time passes: calls are answered, whoever makes them and in whatever order, and between them
everything but the tokens may change. -/
inductive Elapses (start : World) : World → Prop where
  | refl : Elapses start start
  | call {w : World} (earlier : Elapses start w) (c : Call) : Elapses start (w.answer c).world
  | lapse {w after : World} (earlier : Elapses start w)
      (same : after.store.tokens = w.store.tokens) : Elapses start after

namespace Elapses

variable {start w after : World}

/-- Time goes on. -/
theorem trans (first : start.Elapses w) (second : w.Elapses after) : start.Elapses after := by
  induction second with
  | refl => exact first
  | call _ c inductionHypothesis => exact .call inductionHypothesis c
  | lapse _ same inductionHypothesis => exact .lapse inductionHypothesis same

/-- Time passes while a program runs. -/
theorem run {α : Type} (earlier : start.Elapses w) (p : Program α) :
    start.Elapses (w.run p).world := by
  induction p generalizing w with
  | done a => exact earlier
  | call c next inductionHypothesis =>
    have called : start.Elapses (w.answer c).world := .call earlier c
    simp only [World.run]
    generalize w.answer c = outcome at called
    obtain ⟨_ | answer, after, events⟩ := outcome
    · exact called
    · exact inductionHypothesis answer called

/-- Names and digests stay distinct. -/
theorem distinct (elapsed : start.Elapses w) (before : Token.AreDistinct start.store.tokens) :
    Token.AreDistinct w.store.tokens := by
  induction elapsed with
  | refl => exact before
  | call _ c inductionHypothesis => exact (tokenWrites_answer _ c).distinct inductionHypothesis
  | lapse _ same inductionHypothesis => exact same ▸ inductionHypothesis

/-- Every token keeps its place and ages. -/
theorem ages (elapsed : start.Elapses w) {i : Nat} {t : Token}
    (present : start.store.tokens[i]? = some t) :
    ∃ t', w.store.tokens[i]? = some t' ∧ t.Ages t' := by
  induction elapsed with
  | refl => exact ⟨t, present, .refl t⟩
  | call _ c inductionHypothesis =>
    obtain ⟨middle, there, aged⟩ := inductionHypothesis
    obtain ⟨t', here, further⟩ := (tokenWrites_answer _ c).ages there
    exact ⟨t', here, aged.trans further⟩
  | lapse _ same inductionHypothesis => exact same ▸ inductionHypothesis

end Elapses

/-- A world looks tokens up, and answers when their use is recorded, be it with an error. -/
structure LooksUp (w : World) : Prop where
  free : w.connection = .free
  finds : w.storeFaults.lookup "token.find_user" = none
  records : w.storeFaults.lookup "token.update_last_used" ≠ some .hang

/-- What somebody who shows a raw token is told. -/
def told (w : World) (secret raw : String) : Option (Except Failure Caller) :=
  (w.run (ExceptT.run (authenticate secret raw))).value

/-- A world lets in exactly those whose token is active. -/
structure LetsIn (w : World) (secret raw : String) : Prop where
  accepted : ∀ user, w.told secret raw = some (.ok ⟨user⟩) ↔
    w.store.Recognizes (Token.digestOf secret raw) user
  refused : (∀ user, ¬w.store.Recognizes (Token.digestOf secret raw) user) →
    w.told secret raw = some (.error (Failure.unauthorized "Invalid or revoked token"))

/-- What somebody is told for whose raw token a user was found or not. -/
def verdict : Option Uuid → Except Failure Caller
  | some user => .ok ⟨user⟩
  | none => .error (Failure.unauthorized "Invalid or revoked token")

/-- What follows the lookup of a digest: the use of an active token is recorded if possible. -/
def afterLookup (digest : String) :
    Except StoreError (Option Uuid) → Program (Except Failure Caller)
  | .error e => .done (.error (e.toFailure.withOperation "token.find_user"))
  | .ok none => .done (verdict none)
  | .ok (some user) => .call (.query (.touchToken digest)) fun _ => .done (verdict (some user))

/-- A caller is identified by one lookup and what follows it. -/
theorem authenticate_eq (secret raw : String) :
    ExceptT.run (authenticate secret raw) =
      .call (.query (.findTokenUser (Token.digestOf secret raw)))
        (afterLookup (Token.digestOf secret raw)) := by
  refine congrArg (Program.call _) (funext fun found => ?_)
  obtain e | _ | user := found
  · rfl
  · rfl
  · refine congrArg (Program.call _) (funext fun marked => ?_)
    cases marked <;> rfl

variable {w : World} {secret raw : String}

/-- The use of a token is recorded or not, but there is an answer. -/
theorem LooksUp.answers_touch (looks : w.LooksUp) (digest : String) :
    ∃ answer after, w.Answers (.query (.touchToken digest)) answer after := by
  simp only [Answers, answer, answerQuery, looks.free, Statement.name]
  have records := looks.records
  generalize w.storeFaults.lookup "token.update_last_used" = fault at records
  obtain _ | ⟨e⟩ | _ := fault
  · exact ⟨_, _, _, rfl⟩
  · exact ⟨_, _, _, rfl⟩
  · exact absurd rfl records

/-- What follows the lookup of a digest ends with the verdict on what was found. -/
theorem LooksUp.run_afterLookup (looks : w.LooksUp) (digest : String) (found : Option Uuid) :
    (w.run (afterLookup digest (.ok found))).value = some (verdict found) := by
  cases found with
  | none => rfl
  | some user =>
    obtain ⟨answer, after, marked⟩ := looks.answers_touch digest
    exact value_ask marked _

/-- Somebody is told what the lookup of the token's digest gives. -/
theorem LooksUp.told_eq (looks : w.LooksUp) (secret raw : String) :
    w.told secret raw = some (verdict ((w.store.tokens.find?
      (Store.isActiveDigest (Token.digestOf secret raw))).map Token.user)) := by
  have found := answer_lookup w looks.free looks.finds secret raw
  rw [told, authenticate_eq]
  exact (value_ask ⟨_, found⟩ _).trans (looks.run_afterLookup _ _)

/-- Whoever is let in has an active token, whatever fails meanwhile. -/
theorem recognizes_of_told {user : Uuid} (told : w.told secret raw = some (.ok ⟨user⟩)) :
    w.store.Recognizes (Token.digestOf secret raw) user := by
  rw [World.told, authenticate_eq] at told
  obtain ⟨answer, after, looked, ends⟩ := answered_of_value told
  obtain e | _ | found := answer
  · cases ends
  · cases ends
  · have noted : (after.run (afterLookup (Token.digestOf secret raw) (.ok (some found)))).value =
        (after.answer (.query (.touchToken (Token.digestOf secret raw)))).value.map
          fun _ => verdict (some found) := congrArg Outcome.value (run_single rfl _)
    obtain ⟨_, -, same⟩ := Option.map_eq_some_iff.mp (noted.symm.trans ends)
    cases same
    exact looked.recognizes

/-- Where digests are distinct, exactly those whose token is active are let in. -/
theorem LooksUp.letsIn (looks : w.LooksUp) (distinct : Token.AreDistinct w.store.tokens)
    (secret raw : String) : w.LetsIn secret raw where
  accepted := by
    intro user
    rw [looks.told_eq, Store.recognizes_iff distinct]
    cases (w.store.tokens.find? (Store.isActiveDigest (Token.digestOf secret raw))).map Token.user
    · exact ⟨nofun, nofun⟩
    · simp only [verdict, Option.some.injEq, Except.ok.injEq, Caller.mk.injEq]
  refused := by
    intro unknown
    rw [looks.told_eq, Store.find?_of_unrecognized unknown]
    rfl

/-- What comes of storing a raw token under a secret. -/
def creation (w : World) (secret raw name : String) (user : Uuid) :
    Outcome (Except Failure Token) :=
  w.run (ExceptT.run (TokenRows.create name (Token.digestOf secret raw) user))

/-- What comes of a session that issues a token. -/
def session (w : World) (env : Environment) (t : Admin.Terminal) (fresh : String)
    (creation : Admin.Creation) : Outcome (Except Admin.Problem Unit × String) :=
  w.run (Admin.createToken env t fresh creation).written

/-- A raw token has been issued to a user under a secret: directly, or in a session at the console
that signs with the secret and was not cancelled, whether the session was told everything
beforehand or asked for it. Whoever issues it is told so. -/
inductive Issued (secret raw : String) (user : Uuid) (w : World) : World → Prop where
  | directly {name : String} {token : Token}
      (told : (w.creation secret raw name user).value = some (.ok token)) :
      Issued secret raw user w (w.creation secret raw name user).world
  | atConsole {env : Environment} {t : Admin.Terminal} {fresh text : String}
      {creation : Admin.Creation} {auth : AuthSettings}
      (settings : AuthSettings.load env = .ok auth) (key : auth.secret = secret)
      (given : creation.raw.getD fresh = raw) (holder : creation.userAt t = .ok user)
      (wanted : creation.consentAt t ≠ .ok false)
      (told : (w.session env t fresh creation).value = some (.ok (), text)) :
      Issued secret raw user w (w.session env t fresh creation).world

/-- A world stores new tokens under a name, unless it has others like them. -/
structure Stores (w : World) (name : String) : Prop where
  free : w.connection = .free
  works : w.storeFaults.lookup "token.create" = none
  plain : '\x00' ∉ name.toList

/-- A raw token is not issued: whoever tries to leaves the tokens as they are, and where the new
token could be stored its digest is the conflict. -/
structure Withholds (w : World) (secret raw : String) : Prop where
  directly : ∀ name user, (w.creation secret raw name user).world.store.tokens = w.store.tokens ∧
    (w.Stores name → ∃ failure, (w.creation secret raw name user).value = some (.error failure) ∧
      failure.kind = .conflict)
  atConsole : ∀ env t fresh creation auth, AuthSettings.load env = .ok auth →
    auth.secret = secret → creation.raw.getD fresh = raw →
    (w.session env t fresh creation).world.store.tokens = w.store.tokens ∧
      ∀ name user, creation.IsReady env t auth name user → w.Stores name → ∃ failure text,
        (w.session env t fresh creation).value =
          some (.error (.failed "create token" failure), text) ∧ failure.kind = .conflict

/-- How the answer to the creation of a token is told. -/
def creationOutcome : Except StoreError Token → Except Failure Token
  | .ok token => .ok token
  | .error e => .error (e.toFailure.withOperation "token.create")

/-- Naming its operation leaves a failure what it is. -/
theorem kind_withOperation (failure : Failure) (operation : String) :
    (failure.withOperation operation).kind = failure.kind := by
  unfold Failure.withOperation
  split <;> rfl

variable {name : String} {user : Uuid}

/-- A token is stored by one statement. -/
theorem creation_program (secret raw name : String) (user : Uuid) :
    ExceptT.run (TokenRows.create name (Token.digestOf secret raw) user) =
      .call (.query (.createToken name (Token.digestOf secret raw) user)) fun answer =>
        .done (creationOutcome answer) := by
  refine congrArg (Program.call _) (funext fun answer => ?_)
  cases answer <;> rfl

/-- What comes of storing a token is how the answer to the statement is told. -/
theorem creation_of_answer {outcome : Outcome (Except StoreError Token)}
    (answered : w.answerQuery (.createToken name (Token.digestOf secret raw) user) = outcome) :
    w.creation secret raw name user =
      ⟨outcome.value.map creationOutcome, outcome.world, outcome.events⟩ := by
  have answered : w.answer (.query (.createToken name (Token.digestOf secret raw) user)) =
    outcome := answered
  rw [creation, creation_program]
  exact run_single answered creationOutcome

/-- What comes of storing a token if the store decides about it. -/
def decision (w : World) (secret raw name : String) (user : Uuid) :
    Outcome (Except Failure Token) :=
  let executed := w.store.execute (.createToken name (Token.digestOf secret raw) user)
  ⟨some (creationOutcome executed.1), { w with store := executed.2 },
    [.executed (.createToken name (Token.digestOf secret raw) user)]⟩

/-- Where a new token could be stored, the store decides about it. -/
theorem Stores.creation_eq (stores : w.Stores name) (secret raw : String) (user : Uuid) :
    w.creation secret raw name user = w.decision secret raw name user :=
  creation_of_answer (answerQuery_executed stores.free stores.works)

/-- A new token fails to be stored without effect, or the store decides about it. -/
theorem creation_cases (w : World) (secret raw name : String) (user : Uuid) :
    ((∀ token, (w.creation secret raw name user).value ≠ some (.ok token)) ∧
      (w.creation secret raw name user).world.store = w.store) ∨
    w.creation secret raw name user = w.decision secret raw name user := by
  rcases w.answerQuery_cases (.createToken name (Token.digestOf secret raw) user) with
    ⟨_, _, fails, -⟩ | ⟨_, _, waits, same, -⟩ | works
  · rw [creation_of_answer fails]
    exact .inl ⟨nofun, rfl⟩
  · rw [creation_of_answer waits]
    exact .inl ⟨nofun, same⟩
  · exact .inr (creation_of_answer works)

/-- A session that has what it needs does what storing the token does. -/
theorem session_eq {env : Environment} {t : Admin.Terminal} {fresh : String}
    {creation : Admin.Creation} {auth : AuthSettings}
    (ready : creation.IsReady env t auth name user) (w : World) :
    w.session env t fresh creation =
      ⟨(w.creation auth.secret (creation.raw.getD fresh) name user).value.map
          (Admin.toldCreation name user (creation.raw.getD fresh)),
        (w.creation auth.secret (creation.raw.getD fresh) name user).world,
        (w.creation auth.secret (creation.raw.getD fresh) name user).events⟩ := by
  rw [session, Admin.written_createToken ready, run_told]
  rfl

/-- A token that is said to be stored stands at the end of the table, active and as it was asked
for. -/
theorem tokens_of_creation {token : Token}
    (told : (w.creation secret raw name user).value = some (.ok token)) :
    (w.creation secret raw name user).world.store.tokens = w.store.tokens ++ [token] ∧
      token = w.store.newToken name (Token.digestOf secret raw) user := by
  rcases w.creation_cases secret raw name user with ⟨fails, -⟩ | decided
  · exact absurd told (fails token)
  · rw [decided, decision] at told ⊢
    refine Store.tokens_of_issued ?_
    generalize (w.store.execute (.createToken name (Token.digestOf secret raw) user)).1 = answer
      at told
    cases answer <;> cases told
    rfl

/-- Issuing takes its time. -/
theorem Issued.elapses {after : World} (issued : Issued secret raw user w after) :
    w.Elapses after := by
  cases issued with
  | directly => exact Elapses.refl.run _
  | atConsole => exact Elapses.refl.run _

/-- A raw token that was issued has a new row at the end of the table. -/
theorem Issued.tokens {after : World} (issued : Issued secret raw user w after) :
    ∃ token, after.store.tokens = w.store.tokens ++ [token] ∧
      token.digest = Token.digestOf secret raw ∧ token.user = user ∧ token.revokedAt = none := by
  cases issued with
  | @directly name token told =>
    obtain ⟨appended, rfl⟩ := tokens_of_creation told
    exact ⟨_, appended, rfl, rfl, rfl⟩
  | @atConsole env t fresh text creation auth settings key given holder wanted told =>
    rcases Admin.createToken_cases env t fresh creation with
      ⟨outcome, ends, unwanted⟩ | ⟨auth', name, user', ready⟩
    · rw [session, ends] at told
      obtain rfl : outcome = (.ok (), text) := Option.some.inj told
      exact absurd (unwanted rfl) wanted
    · obtain rfl := Except.ok.inj (settings.symm.trans ready.settings)
      obtain rfl := Except.ok.inj (holder.symm.trans ready.used)
      subst key given
      rw [session_eq ready] at told ⊢
      obtain ⟨outcome, came, said⟩ := Option.map_eq_some_iff.mp told
      obtain failure | token := outcome
      · cases said
      · obtain ⟨appended, rfl⟩ := tokens_of_creation came
        exact ⟨_, appended, rfl, rfl, rfl⟩

/-- A raw token whose digest is known is not stored again. -/
theorem creation_of_known (known : ∃ t ∈ w.store.tokens, t.digest = Token.digestOf secret raw)
    (name : String) (user : Uuid) :
    (w.creation secret raw name user).world.store.tokens = w.store.tokens ∧
      (w.Stores name → ∃ failure, (w.creation secret raw name user).value = some (.error failure) ∧
        failure.kind = .conflict) := by
  obtain ⟨unchanged, e, refused, conflict⟩ := Store.tokens_of_known known name user
  constructor
  · rcases w.creation_cases secret raw name user with ⟨-, same⟩ | decided
    · rw [same]
    · rw [decided]
      exact unchanged
  · intro stores
    refine ⟨e.toFailure.withOperation "token.create", ?_, ?_⟩
    · rw [stores.creation_eq, decision, refused]
      rfl
    · rw [kind_withOperation]
      exact conflict (Store.valueProblem_createToken stores.plain secret raw user)

/-- A raw token whose digest is known is not issued again. -/
theorem withholds (known : ∃ t ∈ w.store.tokens, t.digest = Token.digestOf secret raw) :
    w.Withholds secret raw where
  directly := creation_of_known known
  atConsole := by
    rintro env t fresh creation auth settings rfl rfl
    by_cases able : ∃ name user, creation.IsReady env t auth name user
    · obtain ⟨name, user, ready⟩ := able
      have refused := creation_of_known known name user
      rw [session_eq ready]
      refine ⟨refused.1, fun name' user' ready' stores => ?_⟩
      obtain rfl := Except.ok.inj (ready.named.symm.trans ready'.named)
      obtain ⟨failure, came, conflict⟩ := refused.2 stores
      exact ⟨failure, _, by rw [came]; rfl, conflict⟩
    · rcases Admin.createToken_cases env t fresh creation with
        ⟨outcome, ends, -⟩ | ⟨auth', name, user, ready⟩
      · rw [session, ends]
        exact ⟨rfl, fun name user ready => absurd ⟨name, user, ready⟩ able⟩
      · obtain rfl := Except.ok.inj (settings.symm.trans ready.settings)
        exact absurd ⟨name, user, ready⟩ able

/-- A world honors a token that was issued raw to a user under a secret: its holder is let in as
long as the token is active, and never after it was revoked; and nobody gets the raw token again. -/
structure Honors (w : World) (secret raw : String) (user : Uuid) (t : Token) : Prop where
  digest : t.digest = Token.digestOf secret raw
  holder : t.user = user
  accepted : t.revokedAt = none → w.LooksUp → w.told secret raw = some (.ok ⟨user⟩)
  excluded : t.revokedAt ≠ none → ∀ last, w.Elapses last →
    ∀ caller, last.told secret raw ≠ some (.ok caller)
  refused : t.revokedAt ≠ none → ∀ last, w.Elapses last → last.LooksUp →
    last.told secret raw = some (.error (Failure.unauthorized "Invalid or revoked token"))
  withheld : w.Withholds secret raw

/-- A digest whose token is revoked stands for nobody. -/
theorem unrecognized_of_revoked {s : Store} (distinct : Token.AreDistinct s.tokens) {t : Token}
    (member : t ∈ s.tokens) (revoked : t.revokedAt ≠ none) (user : Uuid) :
    ¬s.Recognizes t.digest user := by
  rintro ⟨other, there, same, unrevoked, -⟩
  exact revoked (distinct.eq_of_digest there member same ▸ unrevoked)

/-- A digest whose token is revoked stands for nobody ever after. -/
theorem Elapses.unrecognized {last : World} (elapsed : w.Elapses last)
    (distinct : Token.AreDistinct w.store.tokens) {i : Nat} {t : Token}
    (present : w.store.tokens[i]? = some t) (revoked : t.revokedAt ≠ none) (user : Uuid) :
    ¬last.store.Recognizes t.digest user := by
  obtain ⟨t', there, aged⟩ := elapsed.ages present
  obtain rfl := aged.frozen revoked
  have later := elapsed.distinct distinct
  exact unrecognized_of_revoked later (List.mem_of_getElem? there) revoked user

/-- A token of a table with distinct digests is honored. -/
theorem honors {t : Token} (distinct : Token.AreDistinct w.store.tokens) {i : Nat}
    (present : w.store.tokens[i]? = some t) (digested : t.digest = Token.digestOf secret raw) :
    w.Honors secret raw t.user t where
  digest := digested
  holder := rfl
  accepted := by
    intro unrevoked looks
    refine ((looks.letsIn distinct secret raw).accepted t.user).mpr ?_
    exact ⟨t, List.mem_of_getElem? present, digested, unrevoked, rfl⟩
  excluded := by
    intro revoked last elapsed caller told
    exact elapsed.unrecognized distinct present revoked caller.user
      (digested ▸ recognizes_of_told told)
  refused := by
    intro revoked last elapsed looks
    refine (looks.letsIn (elapsed.distinct distinct) secret raw).refused fun user => ?_
    exact digested ▸ elapsed.unrecognized distinct present revoked user
  withheld := withholds ⟨t, List.mem_of_getElem? present, digested⟩

end World

/-- Whatever is called, names and digests stay distinct, every token keeps its place and what it was
issued as, nobody is let in without an active token, and everybody with one is where tokens can be
looked up. A raw token that is issued is honored ever after: its holder is let in until it is
revoked and never again. -/
theorem tokens_live_once {start w : World} (distinct : Token.AreDistinct start.store.tokens)
    (elapsed : start.Elapses w) :
    Token.AreDistinct w.store.tokens ∧
    (∀ (i : Nat) (t : Token), start.store.tokens[i]? = some t →
      ∃ t', w.store.tokens[i]? = some t' ∧ t.Ages t') ∧
    (∀ secret raw user, w.told secret raw = some (.ok ⟨user⟩) →
      w.store.Recognizes (Token.digestOf secret raw) user) ∧
    (w.LooksUp → ∀ secret raw, w.LetsIn secret raw) ∧
    ∀ secret raw user after, World.Issued secret raw user w after →
      ∀ later, after.Elapses later → ∃ t, later.store.tokens[w.store.tokens.length]? = some t ∧
        later.Honors secret raw user t := by
  have unique := elapsed.distinct distinct
  refine ⟨unique, fun i t present => elapsed.ages present,
    fun secret raw user => World.recognizes_of_told,
    fun looks secret raw => looks.letsIn unique secret raw, ?_⟩
  intro secret raw user after issued later passed
  have meanwhile : w.Elapses later := issued.elapses.trans passed
  obtain ⟨token, appended, digested, rfl, -⟩ := issued.tokens
  have present : after.store.tokens[w.store.tokens.length]? = some token := by
    rw [appended, List.getElem?_concat_length]
  obtain ⟨t, there, aged⟩ := passed.ages present
  rw [← aged.user]
  exact ⟨t, there, World.honors (meanwhile.distinct unique) there (aged.digest.trans digested)⟩

namespace Sample

/-- A world without tokens. -/
def tokenless : World := World.make Store.empty .none

/-- The first token of that world. -/
def ticket : Token := Store.empty.newToken "robot" (Token.digestOf "key" "raw") owner

/-- The world after the token has been issued. -/
def issued : World := (tokenless.creation "key" "raw" "robot" owner).world

/-- The world after the token has been revoked. -/
def revoked : World := (issued.answer (.query (.revokeToken 1))).world

/-- The store that has created the token. -/
def stocked : Store :=
  { Store.empty with
    clock := Store.empty.clock + Store.empty.clockStep
    nextToken := 2
    tokens := [ticket] }

/-- The store creates the token, and whoever issues it is told so. -/
theorem creation_ticket :
    (tokenless.creation "key" "raw" "robot" owner).value = some (.ok ticket) ∧
      issued = { tokenless with store := stocked } := by
  have stores : tokenless.Stores "robot" := ⟨rfl, rfl, by decide⟩
  have executed : tokenless.store.execute
      (.createToken "robot" (Token.digestOf "key" "raw") owner) = (.ok ticket, stocked) := by
    rw [Store.execute, Store.valueProblem_createToken (by decide)]
    rfl
  rw [issued, stores.creation_eq, World.decision, executed]
  exact ⟨rfl, rfl⟩

/-- The token is revoked when somebody asks for that, and nothing fails. -/
theorem tokens_revoked :
    revoked.store.tokens = [{ ticket with revokedAt := some stocked.now }] ∧
      revoked.LooksUp ∧ revoked.Stores "spare" := by
  have revocation : revoked = { tokenless with store := { stocked with
      clock := stocked.clock + stocked.clockStep
      tokens := [{ ticket with revokedAt := some stocked.now }] } } := by
    rw [revoked, creation_ticket.2]
    rfl
  rw [revocation]
  exact ⟨rfl, ⟨rfl, rfl, nofun⟩, ⟨rfl, rfl, by decide⟩⟩

end Sample

open Sample in
/-- A token of a new world lets its holder in, once it is revoked it does not, and another token
cannot have the same raw text. -/
theorem revoked_ticket_is_refused :
    Token.AreDistinct tokenless.store.tokens ∧ tokenless.Elapses tokenless ∧
    World.Issued "key" "raw" owner tokenless issued ∧
    issued.told "key" "raw" = some (.ok ⟨owner⟩) ∧
    revoked.told "key" "raw" = some (.error (Failure.unauthorized "Invalid or revoked token")) ∧
    ∃ failure, (revoked.creation "key" "raw" "spare" owner).value = some (.error failure) ∧
      failure.kind = .conflict := by
  have distinct : Token.AreDistinct tokenless.store.tokens := ⟨List.nodup_nil, List.nodup_nil⟩
  have given : World.Issued "key" "raw" owner tokenless issued := .directly creation_ticket.1
  have looks : issued.LooksUp := by
    rw [creation_ticket.2]
    exact ⟨rfl, rfl, nofun⟩
  obtain ⟨-, -, -, -, honored⟩ := tokens_live_once distinct .refl
  obtain ⟨t, active, before⟩ := honored _ _ _ _ given issued .refl
  obtain ⟨t', inactive, after⟩ := honored _ _ _ _ given revoked (.call .refl _)
  rw [creation_ticket.2] at active
  rw [tokens_revoked.1] at inactive
  obtain rfl := Option.some.inj active
  obtain rfl := Option.some.inj inactive
  exact ⟨distinct, .refl, given, before.accepted rfl looks,
    after.refused nofun _ .refl tokens_revoked.2.1,
    (after.withheld.directly "spare" owner).2 tokens_revoked.2.2⟩

end StatusRegistry
