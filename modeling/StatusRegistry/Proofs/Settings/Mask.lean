import StatusRegistry.Settings.Mask

/-!
# What a masked connection string shows

The mask covers what stands between the first at sign and the last colon before it. A password that
contains neither character is covered whole. Of another one it leaves what stands before its last
colon and what stands from its first at sign on, and it covers nothing of a password whose user name
contains an at sign.
-/

namespace StatusRegistry

/-- No character of a text stops the search for one that it does not contain. -/
theorem all_ne {mark : Char} {cs : List Char} (absent : mark ∉ cs) :
    ∀ c ∈ cs, decide (c ≠ mark) = true := by
  intro c member
  exact decide_eq_true fun same => absent (same ▸ member)

/-- A text without colons has nothing before its last colon. -/
theorem beforeLastColon?_of_not_mem {cs : List Char} (absent : ':' ∉ cs) :
    beforeLastColon? cs = none := by
  have nothing : cs.reverse.dropWhile (· ≠ ':') = [] := by
    rw [← List.append_nil cs.reverse,
      List.dropWhile_append_of_pos (all_ne (mt List.mem_reverse.mp absent))]
    rfl
  simp only [beforeLastColon?, nothing]

/-- What stands before a colon without another one after it. -/
theorem beforeLastColon?_append {front back : List Char} (absent : ':' ∉ back) :
    beforeLastColon? (front ++ ':' :: back) = some front := by
  have found : (front ++ ':' :: back).reverse.dropWhile (· ≠ ':') = ':' :: front.reverse := by
    rw [List.reverse_append, List.reverse_cons, List.append_assoc,
      List.dropWhile_append_of_pos (all_ne (mt List.mem_reverse.mp absent))]
    rfl
  simp only [beforeLastColon?, found, List.reverse_reverse]

/-- A text with a colon ends in its last colon and what follows. -/
theorem eq_append_lastColon {cs : List Char} (present : ':' ∈ cs) :
    ∃ front back, cs = front ++ ':' :: back ∧ ':' ∉ back := by
  obtain ⟨back, front, same, absent⟩ := List.eq_append_cons_of_mem (List.mem_reverse.mpr present)
  refine ⟨front.reverse, back.reverse, ?_, fun member => absent (List.mem_reverse.mp member)⟩
  rw [← List.reverse_reverse cs, same, List.reverse_append, List.reverse_cons, List.append_assoc]
  rfl

/-- What stands before the last colon, with a colon of its own in front of it. -/
def kept (before : Option (List Char)) : List Char :=
  match before with
  | none => []
  | some front => ':' :: front

/-- A text in front of a colon is kept. -/
theorem beforeLastColon?_append_cons (front back : List Char) :
    beforeLastColon? (front ++ ':' :: back) = some (front ++ kept (beforeLastColon? back)) := by
  by_cases present : ':' ∈ back
  · obtain ⟨middle, last, rfl, absent⟩ := eq_append_lastColon present
    rw [beforeLastColon?_append absent, ← List.cons_append, ← List.append_assoc,
      beforeLastColon?_append absent]
    rfl
  · rw [beforeLastColon?_of_not_mem present, beforeLastColon?_append present, kept,
      List.append_nil]

/-- Exactly the texts without colons have nothing before their last colon. -/
theorem beforeLastColon?_eq_none_iff {cs : List Char} : beforeLastColon? cs = none ↔ ':' ∉ cs := by
  refine ⟨fun nothing present => ?_, beforeLastColon?_of_not_mem⟩
  obtain ⟨front, back, rfl, absent⟩ := eq_append_lastColon present
  rw [beforeLastColon?_append absent] at nothing
  cases nothing

/-- What is kept of a text is made of its characters and a colon. -/
theorem mem_of_mem_kept {cs : List Char} {c : Char} (member : c ∈ kept (beforeLastColon? cs)) :
    c = ':' ∨ c ∈ cs := by
  by_cases present : ':' ∈ cs
  · obtain ⟨front, back, rfl, absent⟩ := eq_append_lastColon present
    rw [beforeLastColon?_append absent] at member
    rcases List.mem_cons.mp member with colon | front
    · exact .inl colon
    · exact .inr (List.mem_append_left _ front)
  · rw [beforeLastColon?_of_not_mem present] at member
    cases member

/-- What is kept tells what stood before the last colon. -/
theorem kept_injective {before before' : Option (List Char)} (same : kept before = kept before') :
    before = before' := by
  cases before <;> cases before' <;> simp_all [kept]

/-- What stands before the first at sign has none. -/
theorem sign_not_mem_takeWhile (cs : List Char) : '@' ∉ cs.takeWhile (· ≠ '@') := by
  intro member
  have all := List.all_eq_true.mp (List.all_takeWhile (p := (· ≠ '@')) (l := cs)) '@' member
  cases all

/-- What stands from the first at sign on begins with one. -/
theorem dropWhile_append_sign (cs tail : List Char) :
    ∃ rest, cs.dropWhile (· ≠ '@') ++ '@' :: tail = '@' :: rest := by
  induction cs with
  | nil => exact ⟨tail, rfl⟩
  | cons c cs inductionHypothesis =>
    by_cases sign : c = '@'
    · obtain rfl := sign
      exact ⟨cs ++ '@' :: tail, rfl⟩
    · rw [List.dropWhile_cons_of_pos (by simpa using sign)]
      exact inductionHypothesis

/-- A text is split before its first at sign. -/
theorem takeWhile_append_sign {front : List Char} (plain : '@' ∉ front) (tail : List Char) :
    (front ++ '@' :: tail).takeWhile (· ≠ '@') = front := by
  rw [List.takeWhile_append_of_pos (all_ne plain)]
  exact List.append_nil _

/-- Two texts agree before and from their first at signs on if they agree. -/
theorem append_sign_inj {front front' tail tail' : List Char} (plain : '@' ∉ front)
    (plain' : '@' ∉ front') (same : front ++ '@' :: tail = front' ++ '@' :: tail') :
    front = front' ∧ tail = tail' := by
  have fronts : front = front' := by
    rw [← takeWhile_append_sign plain tail, same, takeWhile_append_sign plain' tail']
  subst fronts
  exact ⟨rfl, (List.cons.inj (List.append_cancel_left same)).2⟩

variable {url : String} {scheme credentials tail : List Char}

/-- A connection string with credentials is masked after the last colon in them. -/
theorem masked_eq
    (opened : splitAfter? "://".toList [] url.toList = some (scheme, credentials ++ '@' :: tail))
    (plain : '@' ∉ credentials) :
    masked url = match beforeLastColon? credentials with
      | none => url
      | some user => String.ofList (scheme ++ user ++ ":***".toList ++ '@' :: tail) := by
  have taken := takeWhile_append_sign plain tail
  have shorter : credentials.length ≠ (credentials ++ '@' :: tail).length := by
    rw [List.length_append, List.length_cons]
    omega
  cases before : beforeLastColon? credentials with
  | none => simp only [masked, opened, taken, if_neg shorter, before]
  | some user => simp only [masked, opened, taken, if_neg shorter, before, List.drop_left]

/-- A connection string with a user, a password, and what follows the at sign. -/
def credentialed (scheme user password tail : List Char) : String :=
  String.ofList (scheme ++ user ++ ':' :: password ++ '@' :: tail)

/-- What a masked connection string shows of the password of a user. -/
def exposed (user password : List Char) : Option (List Char) × List Char :=
  if '@' ∈ user then (some password, [])
  else (beforeLastColon? (password.takeWhile (· ≠ '@')), password.dropWhile (· ≠ '@'))

/-- A text is the scheme of every connection string that begins with it. -/
def IsScheme (scheme : List Char) : Prop :=
  ∀ rest, splitAfter? "://".toList [] (scheme ++ rest) = some (scheme, rest)

variable {user password password' : List Char}

/-- A password whose user has an at sign is shown as it is. -/
theorem masked_of_mem (opens : IsScheme scheme) (sign : '@' ∈ user) (tail : List Char) :
    ∃ front, ∀ password, masked (credentialed scheme user password tail) =
      String.ofList (front ++ (password ++ '@' :: tail)) := by
  obtain ⟨first, last, rfl, plain⟩ := List.eq_append_cons_of_mem sign
  have hides (password : List Char) : masked (credentialed scheme (first ++ '@' :: last) password
      tail) = match beforeLastColon? first with
        | none => credentialed scheme (first ++ '@' :: last) password tail
        | some user => String.ofList (scheme ++ user ++ ":***".toList ++
            '@' :: (last ++ ':' :: password ++ '@' :: tail)) := by
    refine masked_eq ?_ plain
    rw [← opens]
    simp only [credentialed, String.toList_ofList, List.append_assoc, List.cons_append]
  cases before : beforeLastColon? first with
  | none =>
    refine ⟨scheme ++ first ++ '@' :: last ++ [':'], fun password => ?_⟩
    rw [hides, before]
    simp only [credentialed, List.append_assoc, List.cons_append, List.nil_append]
  | some user =>
    refine ⟨scheme ++ user ++ ":***".toList ++ '@' :: last ++ [':'], fun password => ?_⟩
    rw [hides, before]
    simp only [List.append_assoc, List.cons_append, List.nil_append]

/-- A password whose user has no at sign is masked between what stands before its last colon and its
first at sign. -/
theorem masked_of_not_mem (opens : IsScheme scheme) (plain : '@' ∉ user)
    (password tail : List Char) :
    masked (credentialed scheme user password tail) =
      String.ofList (scheme ++ user ++ (kept (exposed user password).1 ++ ":***".toList ++
        ((exposed user password).2 ++ '@' :: tail))) := by
  obtain ⟨rest, signed⟩ := dropWhile_append_sign password tail
  have hidden : masked (credentialed scheme user password tail) =
      match beforeLastColon? (user ++ ':' :: password.takeWhile (· ≠ '@')) with
        | none => credentialed scheme user password tail
        | some before => String.ofList (scheme ++ before ++ ":***".toList ++ '@' :: rest) := by
    refine masked_eq ?_ ?_
    · rw [← opens, ← signed]
      simp only [credentialed, String.toList_ofList, List.append_assoc, List.cons_append]
      rw [← List.append_assoc (password.takeWhile _), List.takeWhile_append_dropWhile]
    · intro member
      rcases List.mem_append.mp member with there | later
      · exact plain there
      · rcases List.mem_cons.mp later with colon | there
        · cases colon
        · exact sign_not_mem_takeWhile password there
  rw [hidden, beforeLastColon?_append_cons, ← signed, exposed, if_neg plain]
  simp only [List.append_assoc]

/-- Two passwords of a user are masked alike if and only if the same is exposed of them. -/
theorem masked_eq_iff (opens : IsScheme scheme) :
    masked (credentialed scheme user password tail) =
        masked (credentialed scheme user password' tail) ↔
      exposed user password = exposed user password' := by
  by_cases sign : '@' ∈ user
  · obtain ⟨front, shows⟩ := masked_of_mem opens sign tail
    rw [shows, shows, String.ofList_inj, List.append_cancel_left_eq, List.append_cancel_right_eq]
    simp [exposed, sign]
  · rw [masked_of_not_mem opens sign, masked_of_not_mem opens sign]
    refine ⟨fun same => ?_, fun same => by rw [same]⟩
    obtain ⟨rest, signed⟩ := dropWhile_append_sign password tail
    obtain ⟨rest', signed'⟩ := dropWhile_append_sign password' tail
    have unsigned (cs : List Char) :
        '@' ∉ kept (beforeLastColon? (cs.takeWhile (· ≠ '@'))) ++ ":***".toList := by
      intro member
      rcases List.mem_append.mp member with front | mask
      · rcases mem_of_mem_kept front with colon | there
        · cases colon
        · exact sign_not_mem_takeWhile cs there
      · exact absurd mask (by decide)
    have shown := List.append_cancel_left (String.ofList_inj.mp same)
    simp only [exposed, if_neg sign] at shown ⊢
    rw [signed, signed'] at shown
    obtain ⟨fronts, rests⟩ := append_sign_inj (unsigned password) (unsigned password') shown
    have before := kept_injective (List.append_cancel_right fronts)
    have after : password.dropWhile (· ≠ '@') = password'.dropWhile (· ≠ '@') := by
      rw [← rests, ← signed] at signed'
      exact (List.append_cancel_right signed').symm
    rw [before, after]

/-- Nothing is exposed of exactly the passwords without colons and at signs of users without at
signs. -/
theorem exposed_eq_nothing_iff :
    exposed user password = (none, []) ↔ '@' ∉ user ∧ '@' ∉ password ∧ ':' ∉ password := by
  by_cases sign : '@' ∈ user
  · simp only [exposed, if_pos sign]
    exact ⟨nofun, fun plain => absurd sign plain.1⟩
  · simp only [exposed, if_neg sign, Prod.mk.injEq]
    have whole := List.takeWhile_append_dropWhile (p := (· ≠ '@')) (l := password)
    constructor
    · rintro ⟨unkept, nothing⟩
      rw [nothing, List.append_nil] at whole
      rw [whole] at unkept
      have unsigned := whole ▸ sign_not_mem_takeWhile password
      exact ⟨sign, unsigned, beforeLastColon?_eq_none_iff.mp unkept⟩
    · rintro ⟨-, unsigned, absent⟩
      have front : password.takeWhile (· ≠ '@') = password := by
        have taken : (password ++ []).takeWhile (· ≠ '@') = password :=
          (List.takeWhile_append_of_pos (all_ne unsigned)).trans (List.append_nil _)
        rwa [List.append_nil] at taken
      have nothing : password.dropWhile (· ≠ '@') = [] := by
        rw [front] at whole
        exact List.append_right_eq_self.mp whole
      exact ⟨by rw [front]; exact beforeLastColon?_eq_none_iff.mpr absent, nothing⟩

end StatusRegistry
