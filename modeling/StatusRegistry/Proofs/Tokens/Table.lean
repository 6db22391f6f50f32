import Mathlib.Data.List.Nodup
import StatusRegistry.Proofs.Authentication

/-!
# What statements do to the tokens

A statement appends one token with a name and a digest that no other has, notes the use of active
tokens, revokes active tokens, or leaves the table as it is. A token that is revoked is no longer
active, so no statement touches it again. Names and digests are compared with those of all tokens,
the revoked ones included.
-/

namespace StatusRegistry

/-- No two tokens of a table have the same name or the same digest. -/
structure Token.AreDistinct (tokens : List Token) : Prop where
  names : (tokens.map Token.name).Nodup
  digests : (tokens.map Token.digest).Nodup

/-- What may become of a token: it stays what it was issued as, and once it is revoked nothing about
it changes. -/
structure Token.Ages (t t' : Token) : Prop where
  id : t'.id = t.id
  name : t'.name = t.name
  digest : t'.digest = t.digest
  user : t'.user = t.user
  createdAt : t'.createdAt = t.createdAt
  frozen : t.revokedAt ≠ none → t' = t

namespace Token

variable {t middle t' : Token} {tokens : List Token}

/-- A token may stay as it is. -/
theorem Ages.refl (t : Token) : t.Ages t := ⟨rfl, rfl, rfl, rfl, rfl, fun _ => rfl⟩

/-- A token ages by and by. -/
theorem Ages.trans (first : t.Ages middle) (second : middle.Ages t') : t.Ages t' where
  id := second.id.trans first.id
  name := second.name.trans first.name
  digest := second.digest.trans first.digest
  user := second.user.trans first.user
  createdAt := second.createdAt.trans first.createdAt
  frozen := by
    intro revoked
    obtain rfl := first.frozen revoked
    exact second.frozen revoked

/-- Where digests are distinct, two tokens with one digest are the same. -/
theorem AreDistinct.eq_of_digest (distinct : AreDistinct tokens) (member : t ∈ tokens)
    (other : t' ∈ tokens) (same : t.digest = t'.digest) : t = t' :=
  List.inj_on_of_nodup_map distinct.digests member other same

end Token

/-- What a statement writes to a table of tokens. -/
inductive TokenWrites (tokens : List Token) : List Token → Prop where
  | nothing : TokenWrites tokens tokens
  | insertion {t : Token} (named : ∀ other ∈ tokens, other.name ≠ t.name)
      (digested : ∀ other ∈ tokens, other.digest ≠ t.digest) : TokenWrites tokens (tokens ++ [t])
  | change {active : Token → Bool} {mark : Token → Token}
      (unrevoked : ∀ t : Token, active t = true → t.revokedAt = none)
      (marks : ∀ t : Token, t.revokedAt = none → t.Ages (mark t)) :
      TokenWrites tokens (tokens.map fun t => if active t then mark t else t)

namespace TokenWrites

variable {tokens tokens' : List Token}

/-- A token after a statement that changes active tokens. -/
theorem ages_of_change {active : Token → Bool} {mark : Token → Token}
    (unrevoked : ∀ t : Token, active t = true → t.revokedAt = none)
    (marks : ∀ t : Token, t.revokedAt = none → t.Ages (mark t)) (t : Token) :
    t.Ages (if active t then mark t else t) := by
  split
  · rename_i target
    exact marks t (unrevoked t target)
  · exact .refl t

/-- Every token keeps its place and ages. -/
theorem ages (writes : TokenWrites tokens tokens') {i : Nat} {t : Token}
    (present : tokens[i]? = some t) : ∃ t', tokens'[i]? = some t' ∧ t.Ages t' := by
  cases writes with
  | nothing => exact ⟨t, present, .refl t⟩
  | insertion =>
    have within : i < tokens.length := (List.getElem?_eq_some_iff.mp present).1
    exact ⟨t, (List.getElem?_append_left within).trans present, .refl t⟩
  | change unrevoked marks =>
    refine ⟨_, ?_, ages_of_change unrevoked marks t⟩
    rw [List.getElem?_map, present]
    rfl

/-- What is distinct among tokens stays so when a token is added that differs from all of them. -/
theorem nodup_insertion {key : Token → String} {t : Token} (before : (tokens.map key).Nodup)
    (fresh : ∀ other ∈ tokens, key other ≠ key t) : ((tokens ++ [t]).map key).Nodup := by
  rw [List.map_append, List.map_singleton]
  refine List.nodup_append.mpr ⟨before, List.nodup_singleton _, ?_⟩
  intro value member _ last
  obtain ⟨other, there, rfl⟩ := List.mem_map.mp member
  rw [List.mem_singleton.mp last]
  exact fresh other there

/-- Names and digests stay distinct. -/
theorem distinct (writes : TokenWrites tokens tokens') (before : Token.AreDistinct tokens) :
    Token.AreDistinct tokens' := by
  cases writes with
  | nothing => exact before
  | insertion named digested =>
    exact ⟨nodup_insertion before.names named, nodup_insertion before.digests digested⟩
  | @change active mark unrevoked marks =>
    have ages := ages_of_change unrevoked marks
    have keeps : ∀ {key : Token → String}, (∀ t t' : Token, t.Ages t' → key t' = key t) →
        (tokens.map key).Nodup →
        ((tokens.map fun t => if active t then mark t else t).map key).Nodup := by
      intro key same unique
      rw [List.map_map]
      exact (List.map_congr_left fun t _ => same t _ (ages t)) ▸ unique
    exact ⟨keeps (fun _ _ aged => aged.name) before.names,
      keeps (fun _ _ aged => aged.digest) before.digests⟩

end TokenWrites

namespace Store

/-- A token is active under a number that it has while it is not revoked. -/
theorem isActiveId_iff {id : Int64} {token : Token} :
    isActiveId id token = true ↔ token.id = id ∧ token.revokedAt = none := by
  simp [isActiveId, Token.isRevoked]

/-- A new token violates nothing if its name and its digest are new. -/
theorem tokenProblem_eq_none_iff {s : Store} {name digest : String} :
    s.tokenProblem name digest = none ↔
      (∀ other ∈ s.tokens, other.name ≠ name) ∧ ∀ other ∈ s.tokens, other.digest ≠ digest := by
  unfold tokenProblem
  split
  · rename_i known
    obtain ⟨other, member, same⟩ := List.any_eq_true.mp known
    exact ⟨nofun, fun fresh => absurd (of_decide_eq_true same) (fresh.1 other member)⟩
  · rename_i named
    split
    · rename_i known
      obtain ⟨other, member, same⟩ := List.any_eq_true.mp known
      exact ⟨nofun, fun fresh => absurd (of_decide_eq_true same) (fresh.2 other member)⟩
    · rename_i digested
      simp only [List.any_eq_true, decide_eq_true_eq, not_exists, not_and] at named digested
      exact ⟨fun _ => ⟨named, digested⟩, fun _ => rfl⟩

/-- What a new token violates is a conflict. -/
theorem kind_of_tokenProblem {s : Store} {name digest : String} {e : StoreError}
    (problem : s.tokenProblem name digest = some e) : e.toFailure.kind = .conflict := by
  unfold tokenProblem at problem
  split at problem
  · cases problem
    rfl
  · split at problem
    · cases problem
      rfl
    · cases problem

/-- Every statement writes one of these things. -/
theorem tokenWrites_execute (s : Store) (q : Statement) :
    TokenWrites s.tokens (s.execute q).2.tokens := by
  obtain ⟨e, refused⟩ | performed := s.execute_cases q
  · rw [refused]
    exact .nothing
  · rw [performed]
    cases q with
    | touchToken digest =>
      refine .change (fun t active => (isActiveDigest_iff.mp active).2) fun t unrevoked => ?_
      exact ⟨rfl, rfl, rfl, rfl, rfl, fun revoked => absurd unrevoked revoked⟩
    | revokeToken id =>
      refine .change (fun t active => (isActiveId_iff.mp active).2) fun t unrevoked => ?_
      exact ⟨rfl, rfl, rfl, rfl, rfl, fun revoked => absurd unrevoked revoked⟩
    | createToken name digest user =>
      simp only [perform]
      split
      · exact .nothing
      · rename_i fresh
        obtain ⟨named, digested⟩ := tokenProblem_eq_none_iff.mp fresh
        exact .insertion named digested
    | countMigrations =>
      simp only [perform]
      split <;> exact .nothing
    | _ => exact .nothing

/-- A token that was issued stands at the end of the table, active and as it was asked for. -/
theorem tokens_of_issued {s : Store} {name digest : String} {user : Uuid} {token : Token}
    (issued : (s.execute (.createToken name digest user)).1 = .ok token) :
    (s.execute (.createToken name digest user)).2.tokens = s.tokens ++ [token] ∧
      token = s.newToken name digest user := by
  obtain ⟨e, refused⟩ | performed := s.execute_cases (.createToken name digest user)
  · rw [refused] at issued
    cases issued
  · rw [performed] at issued ⊢
    simp only [perform] at issued ⊢
    split at issued
    · cases issued
    · cases issued
      exact ⟨rfl, rfl⟩

/-- A token is not issued again with a digest that is known, and the table stays as it is. -/
theorem tokens_of_known {s : Store} {digest : String} (known : ∃ t ∈ s.tokens, t.digest = digest)
    (name : String) (user : Uuid) :
    (s.execute (.createToken name digest user)).2.tokens = s.tokens ∧
      ∃ e, (s.execute (.createToken name digest user)).1 = .error e ∧
        (valueProblem (.createToken name digest user) = none → e.toFailure.kind = .conflict) := by
  obtain ⟨t, member, same⟩ := known
  cases accepted : valueProblem (.createToken name digest user) with
  | some problem =>
    rw [execute, accepted]
    exact ⟨rfl, problem, rfl, fun none => absurd none (Option.some_ne_none problem)⟩
  | none =>
    rw [execute, accepted]
    simp only [perform]
    split
    · rename_i e problem
      exact ⟨rfl, e, rfl, fun _ => kind_of_tokenProblem problem⟩
    · rename_i fresh
      exact absurd same ((tokenProblem_eq_none_iff.mp fresh).2 t member)

/-- The store takes every name without a null character. -/
theorem valueProblem_createToken {name : String} (plain : '\x00' ∉ name.toList)
    (secret raw : String) (user : Uuid) :
    valueProblem (.createToken name (Token.digestOf secret raw) user) = none := by
  have digits : '\x00' ∉ (Token.digestOf secret raw).toList := Digest.null_not_mem_hex _
  simp [valueProblem, texts, Statement.arguments, plain, digits, lengthProblem]

/-- Where digests are distinct, a digest stands for the user that a lookup finds. -/
theorem recognizes_iff {s : Store} (distinct : Token.AreDistinct s.tokens) {digest : String}
    {user : Uuid} : s.Recognizes digest user ↔
      (s.tokens.find? (isActiveDigest digest)).map Token.user = some user := by
  constructor
  · rintro ⟨t, member, same, unrevoked, rfl⟩
    have active : isActiveDigest digest t = true := isActiveDigest_iff.mpr ⟨same, unrevoked⟩
    cases found : s.tokens.find? (isActiveDigest digest) with
    | none => exact absurd active (List.find?_eq_none.mp found t member)
    | some other =>
      have digested := (isActiveDigest_iff.mp (List.find?_some found)).1
      rw [distinct.eq_of_digest (List.mem_of_find?_eq_some found) member (digested.trans same.symm)]
      rfl
  · intro found
    obtain ⟨t, hit, rfl⟩ := Option.map_eq_some_iff.mp found
    obtain ⟨same, unrevoked⟩ := isActiveDigest_iff.mp (List.find?_some hit)
    exact ⟨t, List.mem_of_find?_eq_some hit, same, unrevoked, rfl⟩

end Store

end StatusRegistry
