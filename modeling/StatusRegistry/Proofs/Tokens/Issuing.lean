import StatusRegistry.Admin.Run
import StatusRegistry.Proofs.Tokens.Table

/-!
# Issuing tokens

A token is issued by one statement, which the registry makes directly or an administrator makes at
the console. Either way the store gets the digest of the raw token under the signing secret, and
whoever issues is told what the store answered. A session at the console that gets as far as the
statement has a secret, a name, a user who is somebody, and consent, be they told beforehand or at
the terminal.
-/

namespace StatusRegistry

namespace Admin

namespace Console

variable {α β : Type}

/-- What a session comes to after some text has been written. -/
def after (session : Console α) (text : String) : Program (Except Problem α × String) :=
  StateT.run (ExceptT.run session) text

/-- A session goes on with the value of its first part, or ends with the problem of that part. -/
@[simp]
theorem after_bind (session : Console α) (next : α → Console β) (text : String) :
    (session >>= next).after text = (session.after text).bind fun outcome =>
      match outcome.1 with
      | .ok a => (next a).after outcome.2
      | .error problem => .done (.error problem, outcome.2) := by
  refine congrArg ((session.after text).bind) (funext fun outcome => ?_)
  obtain ⟨a | problem, written⟩ := outcome <;> rfl

@[simp]
theorem after_pure (a : α) (text : String) :
    (pure a : Console α).after text = .done (.ok a, text) := rfl

@[simp]
theorem after_say (line text : String) :
    (say line).after text = .done (.ok (), text ++ line ++ "\n") := rfl

@[simp]
theorem after_orFail (result : Except Problem α) (text : String) :
    (orFail result).after text = .done (result, text) := rfl

/-- A program that runs in a session writes nothing. -/
theorem after_ofProgram (p : Program α) (text : String) :
    (ofProgram p).after text = p.bind fun a => .done (.ok a, text) := by
  have lifted : (ofProgram p).after text =
      (p.bind fun a => .done (a, text)).bind fun outcome => .done (.ok outcome.1, outcome.2) := rfl
  rw [lifted, Program.bind_bind]
  rfl

/-- A task writes nothing and ends the session if it fails. -/
@[simp]
theorem after_perform (task : String) (action : Action α) (text : String) :
    (perform task action).after text = (ExceptT.run action).bind fun outcome =>
      .done (outcome.mapError (.failed task), text) := by
  rw [perform, after_bind, after_ofProgram, Program.bind_bind]
  refine congrArg ((ExceptT.run action).bind) (funext fun outcome => ?_)
  cases outcome <;> rfl

end Console

/-- What is written before a token is stored. -/
def creationText (name : String) (user : Uuid) (raw : String) : String :=
  "Create API token\n\n" ++ ("  Name:  " ++ name) ++ "\n" ++ ("  User:  " ++ user.text) ++ "\n" ++
    ("  Token: " ++ raw) ++ "\n" ++ "\nThe token is shown only once; store it now.\n" ++ "\n"

/-- How a session ends that has tried to store a token. -/
def toldCreation (name : String) (user : Uuid) (raw : String) :
    Except Failure Token → Except Problem Unit × String
  | .ok token =>
    (.ok (), creationText name user raw ++ ("Token created (id " ++ toString token.id ++ ")\n") ++
      "\n" ++ sampleRequest raw ++ "\n")
  | .error failure => (.error (.failed "create token" failure), creationText name user raw)

/-- What a session needs to get as far as storing a token, be it told beforehand or at the
terminal. -/
structure Creation.IsReady (creation : Creation) (env : Environment) (t : Terminal)
    (auth : AuthSettings) (name : String) (user : Uuid) : Prop where
  settings : AuthSettings.load env = .ok auth
  valid : auth.validate = .ok ()
  named : creation.nameAt t = .ok name
  used : creation.userAt t = .ok user
  somebody : user.isNil = false
  confirmed : creation.consentAt t = .ok true

variable {env : Environment} {t : Terminal} {fresh : String} {creation : Creation}
  {auth : AuthSettings} {name : String} {user : Uuid}

/-- A session that has what it needs stores the token and tells what came of it. -/
theorem written_createToken (ready : creation.IsReady env t auth name user) :
    (createToken env t fresh creation).written =
      (ExceptT.run (TokenRows.create name
        (Token.digestOf auth.secret (creation.raw.getD fresh)) user)).bind fun outcome =>
          .done (toldCreation name user (creation.raw.getD fresh) outcome) := by
  obtain ⟨settings, valid, named, used, somebody, confirmed⟩ := ready
  show (createToken env t fresh creation).after "" = _
  simp only [createToken, settings, valid, named, used, somebody, confirmed, heading,
    Console.after_bind, Console.after_orFail, Console.after_say, Console.after_perform,
    Except.mapError, Program.bind, Program.bind_bind, Bool.false_eq_true, if_false, if_true]
  refine congrArg _ (funext fun outcome => ?_)
  cases outcome <;> rfl

/-- What is asked for at the terminal is not settings. -/
theorem Terminal.line_ne_settings (t : Terminal) (prompt : String) (problem : SettingsProblem) :
    t.line prompt ≠ .error (.settings problem) := by
  unfold line
  cases t.enter prompt <;> nofun

/-- Neither is an identifier. -/
theorem Terminal.user_ne_settings (t : Terminal) (prompt : String) (problem : SettingsProblem) :
    t.user prompt ≠ .error (.settings problem) := by
  intro failed
  unfold user at failed
  cases entered : t.line prompt with
  | error other =>
    rw [entered] at failed
    cases failed
    exact t.line_ne_settings prompt problem entered
  | ok text =>
    rw [entered] at failed
    simp only [bind, Except.bind] at failed
    split at failed <;> cases failed

/-- Neither is consent. -/
theorem Terminal.consents_ne_settings (t : Terminal) (question : String) (usual : Bool)
    (problem : SettingsProblem) : t.consents question usual ≠ .error (.settings problem) := by
  unfold consents
  cases t.answer question usual <;> nofun

/-- A session that comes to an end without a call, though it has a secret: it has met a problem that
is not about settings, or it was not to issue the token. -/
def Creation.GivesUp (creation : Creation) (t : Terminal) (outcome : Except Problem Unit × String) :
    Prop :=
  (∃ problem, outcome.1 = .error problem ∧ ∀ cause, problem ≠ .settings cause) ∨
    outcome.1 = .ok () ∧ creation.consentAt t = .ok false

/-- A session that has a secret gives up without a call, unless it has all that it needs. -/
theorem createToken_cases_of_secret (settings : AuthSettings.load env = .ok auth)
    (valid : auth.validate = .ok ()) (t : Terminal) (fresh : String) (creation : Creation) :
    (∃ outcome, (createToken env t fresh creation).written = .done outcome ∧
        creation.GivesUp t outcome) ∨
      ∃ name user, creation.IsReady env t auth name user := by
  have start (outcome : Except Problem Unit × String)
      (ends : (createToken env t fresh creation).after "" = .done outcome)
      (gives : creation.GivesUp t outcome) :
      (∃ outcome, (createToken env t fresh creation).written = .done outcome ∧
        creation.GivesUp t outcome) ∨ ∃ name user, creation.IsReady env t auth name user :=
    .inl ⟨outcome, ends, gives⟩
  cases named : creation.nameAt t with
  | error problem =>
    refine start (.error problem, "Create API token\n\n") ?_ (.inl ⟨problem, rfl, ?_⟩)
    · simp [createToken, settings, valid, named, heading, Except.mapError, Program.bind]
    · rintro cause rfl
      unfold Creation.nameAt at named
      split at named
      · cases named
      · exact t.line_ne_settings _ _ named
  | ok name =>
    cases used : creation.userAt t with
    | error problem =>
      refine start (.error problem, "Create API token\n\n") ?_ (.inl ⟨problem, rfl, ?_⟩)
      · simp [createToken, settings, valid, named, used, heading, Except.mapError, Program.bind]
      · rintro cause rfl
        unfold Creation.userAt at used
        split at used
        · cases used
        · exact t.user_ne_settings _ _ used
    | ok user =>
      cases somebody : user.isNil with
      | true =>
        refine start (.error .nilUser, "Create API token\n\n") ?_ (.inl ⟨.nilUser, rfl, ?_⟩)
        · simp [createToken, settings, valid, named, used, heading, somebody, Except.mapError,
            Program.bind]
        · rintro cause ⟨⟩
      | false =>
        cases confirmed : creation.consentAt t with
        | error problem =>
          refine start (.error problem, creationText name user (creation.raw.getD fresh)) ?_
            (.inl ⟨problem, rfl, ?_⟩)
          · simp only [createToken, settings, valid, named, used, somebody, confirmed, heading,
              Console.after_bind, Console.after_orFail, Console.after_say, Except.mapError,
              Program.bind, Bool.false_eq_true, if_false]
            rfl
          · rintro cause rfl
            unfold Creation.consentAt at confirmed
            split at confirmed
            · cases confirmed
            · exact t.consents_ne_settings _ _ _ confirmed
        | ok consent =>
          cases consent with
          | true => exact .inr ⟨name, user, settings, valid, named, used, somebody, confirmed⟩
          | false =>
            refine start (.ok (), creationText name user (creation.raw.getD fresh) ++ "Cancelled" ++
              "\n") ?_ (.inr ⟨rfl, confirmed⟩)
            simp only [createToken, settings, valid, named, used, somebody, confirmed, heading,
              Console.after_bind, Console.after_orFail, Console.after_say, Except.mapError,
              Program.bind, Bool.false_eq_true, if_false]
            rfl

/-- A session that lacks something makes no call. It ends in a problem, unless the token was not to
be issued. -/
theorem createToken_cases (env : Environment) (t : Terminal) (fresh : String)
    (creation : Creation) :
    (∃ outcome, (createToken env t fresh creation).written = .done outcome ∧
        (outcome.1 = .ok () → creation.consentAt t = .ok false)) ∨
      ∃ auth name user, creation.IsReady env t auth name user := by
  cases settings : AuthSettings.load env with
  | error problem =>
    have ends : (createToken env t fresh creation).after "" =
        .done (.error (.settings problem), "") := by
      simp [createToken, settings, Except.mapError, Program.bind]
    exact .inl ⟨_, ends, by rintro ⟨⟩⟩
  | ok auth =>
    cases valid : auth.validate with
    | error problem =>
      have ends : (createToken env t fresh creation).after "" =
          .done (.error (.settings problem), "") := by
        simp [createToken, settings, valid, Except.mapError, Program.bind]
      exact .inl ⟨_, ends, by rintro ⟨⟩⟩
    | ok =>
      rcases createToken_cases_of_secret settings valid t fresh creation with
        ⟨outcome, ends, ⟨problem, failed, -⟩ | ⟨-, refused⟩⟩ | ⟨name, user, ready⟩
      · refine .inl ⟨outcome, ends, fun succeeded => ?_⟩
        cases failed.symm.trans succeeded
      · exact .inl ⟨outcome, ends, fun _ => refused⟩
      · exact .inr ⟨auth, name, user, ready⟩

end Admin

end StatusRegistry
