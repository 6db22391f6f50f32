import StatusRegistry.Authentication
import StatusRegistry.Proofs.Faults

/-!
# The lookup of a token

A digest is spelled in hexadecimal digits, so the store never refuses to look one up. What it finds
is the user of an active token, and if it finds none there is no such token.
-/

namespace StatusRegistry

/-- No hexadecimal digit is the null character. -/
theorem Digest.hexDigit_ne_null {n : Nat} (small : n < 16) : hexDigit n ≠ '\x00' := by
  have all : ∀ n : Fin 16, hexDigit n.val ≠ '\x00' := by decide
  exact all ⟨n, small⟩

/-- Hexadecimal digits contain no null character. -/
theorem Digest.null_not_mem_hex (octets : List UInt8) : '\x00' ∉ (hex octets).toList := by
  intro member
  rw [hex, String.toList_ofList] at member
  obtain ⟨b, -, digit⟩ := List.mem_flatMap.mp member
  have octet : b.toNat < 256 := UInt8.toNat_lt b
  rcases List.mem_cons.mp digit with high | low
  · exact hexDigit_ne_null (by omega) high.symm
  · exact hexDigit_ne_null (by omega) (List.mem_singleton.mp low).symm

namespace Store

/-- A digest stands for a user while one of the user's tokens has it and is not revoked. -/
def Recognizes (s : Store) (digest : String) (user : Uuid) : Prop :=
  ∃ token ∈ s.tokens, token.digest = digest ∧ token.revokedAt = none ∧ token.user = user

/-- A token is active under a digest that it has while it is not revoked. -/
theorem isActiveDigest_iff {digest : String} {token : Token} :
    isActiveDigest digest token = true ↔ token.digest = digest ∧ token.revokedAt = none := by
  simp [isActiveDigest, Token.isRevoked]

/-- The store looks up every digest. -/
theorem valueProblem_findTokenUser (secret raw : String) :
    valueProblem (.findTokenUser (Token.digestOf secret raw)) = none := by
  have plain : '\x00' ∉ (Token.digestOf secret raw).toList := Digest.null_not_mem_hex _
  simp [valueProblem, texts, Statement.arguments, plain, lengthProblem]

/-- A lookup gives the user of the first active token with the digest, and changes nothing. -/
theorem execute_findTokenUser (s : Store) (secret raw : String) :
    s.execute (.findTokenUser (Token.digestOf secret raw)) =
      (.ok ((s.tokens.find? (isActiveDigest (Token.digestOf secret raw))).map Token.user), s) := by
  rw [execute, valueProblem_findTokenUser]
  rfl

/-- What a digest is found to stand for it does stand for. -/
theorem recognizes_of_found {s : Store} {digest : String} {user : Uuid}
    (found : (s.execute (.findTokenUser digest)).1 = .ok (some user)) :
    s.Recognizes digest user := by
  obtain ⟨e, refused⟩ | performed := s.execute_cases (.findTokenUser digest)
  · rw [refused] at found
    cases found
  · rw [performed] at found
    have given := Except.ok.inj found
    obtain ⟨token, hit, names⟩ := Option.map_eq_some_iff.mp given
    obtain ⟨same, active⟩ := isActiveDigest_iff.mp (List.find?_some hit)
    exact ⟨token, List.mem_of_find?_eq_some hit, same, active, names⟩

/-- A digest that stands for nobody is not found. -/
theorem find?_of_unrecognized {s : Store} {digest : String}
    (unknown : ∀ user, ¬s.Recognizes digest user) :
    s.tokens.find? (isActiveDigest digest) = none := by
  refine List.find?_eq_none.mpr fun token member active => ?_
  obtain ⟨same, unrevoked⟩ := isActiveDigest_iff.mp active
  exact unknown token.user ⟨token, member, same, unrevoked, rfl⟩

end Store

namespace World

variable {w after : World}

/-- A token that a world has found to stand for a user does stand for it. -/
theorem Answers.recognizes {digest : String} {user : Uuid}
    (given : w.Answers (.query (.findTokenUser digest)) (.ok (some user)) after) :
    w.store.Recognizes digest user := by
  obtain ⟨⟨_, ⟨⟩⟩, -⟩ | ⟨answered, -⟩ := given.of_query
  exact Store.recognizes_of_found answered.symm

/-- A world whose connection is free and whose lookups do not fail looks a digest up. -/
theorem answer_lookup (w : World) (free : w.connection = .free)
    (works : w.storeFaults.lookup "token.find_user" = none) (secret raw : String) :
    w.answer (.query (.findTokenUser (Token.digestOf secret raw))) =
      ⟨some (.ok ((w.store.tokens.find?
          (Store.isActiveDigest (Token.digestOf secret raw))).map Token.user)), w,
        [.executed (.findTokenUser (Token.digestOf secret raw))]⟩ := by
  obtain ⟨store, faults, connection, cache, cacheFaults, now⟩ := w
  obtain rfl : connection = .free := free
  have unset : faults.lookup "token.find_user" = none := works
  simp only [answer, answerQuery, Statement.name, unset, Store.execute_findTokenUser]
  rfl

end World

end StatusRegistry
