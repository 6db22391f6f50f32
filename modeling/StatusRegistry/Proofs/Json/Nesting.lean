import StatusRegistry.Proofs.Json.Passing

/-!
# Values passed over

Passing over a value is deciding the grammar at any depth. What the list of open brackets says is
what the rest of the input still owes: the entries and the closing octet of each of them. Every
value is passed within twice as many steps as it has octets.
-/

namespace StatusRegistry.Json

variable {b c : UInt8} {input octets rest value : List UInt8}

/-- What is passed as a key is one, and every key is passed. -/
theorem passKey_eq_some_iff :
    passKey input = some rest ↔ ∃ octets, KeyText Unread octets ∧ input = octets ++ rest := by
  constructor
  · intro passed
    rw [passKey] at passed
    obtain ⟨behindQuote, quote, passed⟩ := Option.bind_eq_some_iff.mp passed
    obtain ⟨behindKey, keyPassed, colon⟩ := Option.bind_eq_some_iff.mp passed
    obtain ⟨before, isBefore, rfl⟩ := exists_blank_of_skipBlank (after?_eq_some_iff.mp quote)
    obtain ⟨key, unread, whole⟩ := unread_of_passString .plain keyPassed
    obtain ⟨between, isBetween, rfl⟩ := exists_blank_of_skipBlank (after?_eq_some_iff.mp colon)
    refine ⟨_, ⟨before, key, between, isBefore, unread, isBetween, rfl⟩, ?_⟩
    rw [List.nil_append] at whole
    simp [whole]
  · rintro ⟨_, ⟨before, key, between, isBefore, unread, isBetween, rfl⟩, rfl⟩
    have quote (later : List UInt8) : after? [0x22] (skipBlank (0x22 :: later)) = some later := rfl
    have colon (later : List UInt8) : after? [0x3A] (skipBlank (0x3A :: later)) = some later := rfl
    rw [List.append_assoc, passKey, isBefore.skipBlank_append, List.cons_append, quote]
    simp only [Option.bind_eq_bind, Option.bind_some]
    rw [List.append_assoc, List.cons_append, unread.passString_append]
    simp only [Option.bind_some]
    rw [List.append_assoc, isBetween.skipBlank_append]
    exact colon rest

/-- What follows that part of an entry which stands before its value. -/
def Bracket.passLead : Bracket → List UInt8 → Option (List UInt8)
  | .array => some
  | .object => passKey

/-- A scalar starts with an octet that is neither blank nor a bracket. -/
theorem IsScalar.exists_cons (isScalar : IsScalar octets) :
    ∃ first later, octets = first :: later ∧ isBlankOctet first = false ∧
      first ≠ 0x5B ∧ first ≠ 0x7B ∧ first ≠ 0x5D := by
  cases isScalar with
  | word isWord =>
    simp only [List.map_cons, List.map_nil, List.mem_cons, List.not_mem_nil, or_false] at isWord
    rcases isWord with rfl | rfl | rfl <;> exact ⟨_, _, rfl, by decide⟩
  | string => exact ⟨0x22, _, rfl, by decide⟩
  | number number =>
    cases number with
    | minus => exact ⟨0x2D, _, rfl, by decide⟩
    | plain unsigned =>
      obtain ⟨first, later, rfl, digit⟩ := unsigned.exists_cons
      refine ⟨first, later, rfl, ?_⟩
      have other (b : UInt8) (none : isDigit b = false) : first ≠ b := by
        rintro rfl
        rw [digit] at none
        cases none
      refine ⟨?_, other _ rfl, other _ rfl, other _ rfl⟩
      rw [Bool.eq_false_iff, ne_eq, isBlankOctet_iff]
      simp [other 0x20 rfl, other 0x0A rfl, other 0x09 rfl, other 0x0D rfl]

/-- A value starts with an octet that is neither blank nor a closing bracket. -/
theorem IsValue.exists_cons (isValue : IsValue value) :
    ∃ first later, value = first :: later ∧ isBlankOctet first = false ∧ first ≠ 0x5D := by
  cases isValue with
  | scalar isScalar =>
    obtain ⟨first, later, rfl, visible, -, -, notClosing⟩ := isScalar.exists_cons
    exact ⟨first, later, rfl, visible, notClosing⟩
  | @bracket b => exact ⟨b.opening, _, rfl, by cases b <;> decide⟩

/-- A member starts with a quote, perhaps after blanks, and is a member without them. -/
theorem MemberText.skipped {IsKey : List UInt8 → Prop} (isMember : MemberText IsKey value octets) :
    ∃ later, MemberText IsKey value (0x22 :: later) ∧ later.length < octets.length ∧
      ∀ rest, skipBlank (octets ++ rest) = 0x22 :: (later ++ rest) := by
  obtain ⟨_, item, ⟨before, key, between, isBefore, isKey, isBetween, rfl⟩, isItem, rfl⟩ := isMember
  refine ⟨key ++ 0x22 :: (between ++ [0x3A]) ++ item,
    ⟨_, item, ⟨[], key, between, isBlank_nil, isKey, isBetween, rfl⟩, isItem, by simp⟩, ?_,
    fun rest => ?_⟩
  · simp only [List.length_append, List.length_cons]
    omega
  · rw [List.append_assoc, List.append_assoc, isBefore.skipBlank_append]
    simpa using skipBlank_cons _ (by decide)

/-- Blanks before a member belong to it. -/
theorem MemberText.append {IsKey : List UInt8 → Prop} {blank : List UInt8} (isBlank : IsBlank blank)
    (isMember : MemberText IsKey value octets) : MemberText IsKey value (blank ++ octets) := by
  obtain ⟨_, item, ⟨before, key, between, isBefore, isKey, isBetween, rfl⟩, isItem, rfl⟩ := isMember
  exact ⟨_, item, ⟨blank ++ before, key, between, isBlank.append isBefore, isKey, isBetween, rfl⟩,
    isItem, by simp⟩

/-- Blanks before an item belong to it. -/
theorem ItemText.append {blank : List UInt8} (isBlank : IsBlank blank)
    (isItem : ItemText value octets) : ItemText value (blank ++ octets) := by
  obtain ⟨more, isMore, rfl⟩ := isItem
  exact ⟨blank ++ more, isBlank.append isMore, (List.append_assoc ..).symm⟩

/-- The octets of a value are among those of its item. -/
theorem ItemText.length_le (isItem : ItemText value octets) : value.length ≤ octets.length := by
  obtain ⟨blank, -, rfl⟩ := isItem
  rw [List.length_append]
  exact Nat.le_add_left _ _

/-- An item is skipped to its value. -/
theorem ItemText.skipBlank_append (isItem : ItemText value octets) (isValue : IsValue value)
    (rest : List UInt8) : skipBlank (octets ++ rest) = value ++ rest := by
  obtain ⟨blank, isBlank, rfl⟩ := isItem
  obtain ⟨first, later, rfl, visible, -⟩ := isValue.exists_cons
  rw [List.append_assoc, isBlank.skipBlank_append]
  exact skipBlank_cons _ visible

/-- A value is an item of its own. -/
theorem itemText_self (value : List UInt8) : ItemText value value := ⟨[], isBlank_nil, rfl⟩

/-- What stands before the value of an entry is passed. -/
theorem Bracket.passLead_append {b : Bracket} (text : b.EntryText value octets)
    (rest : List UInt8) :
    ∃ item, ItemText value item ∧ item.length ≤ octets.length ∧
      b.passLead (octets ++ rest) = some (item ++ rest) := by
  cases b with
  | array => exact ⟨octets, text, Nat.le_refl _, rfl⟩
  | object =>
    obtain ⟨key, item, isKey, isItem, rfl⟩ := text
    refine ⟨item, isItem, by rw [List.length_append]; omega, ?_⟩
    exact passKey_eq_some_iff.mpr ⟨key, isKey, List.append_assoc ..⟩

/-- The first entry of a bracket does not start like its end, and blanks before the entry make no
difference to it. -/
theorem Bracket.passLead_first {b : Bracket} (text : b.EntryText value octets)
    (isValue : IsValue value) (rest : List UInt8) :
    ∃ first later item, skipBlank (octets ++ rest) = first :: later ∧ first ≠ b.closing ∧
      ItemText value item ∧ item.length ≤ octets.length ∧
      b.passLead (first :: later) = some (item ++ rest) := by
  cases b with
  | array =>
    have isItem : ItemText value octets := text
    have skipped := isItem.skipBlank_append isValue rest
    have short := isItem.length_le
    obtain ⟨first, later, rfl, -, notClosing⟩ := isValue.exists_cons
    exact ⟨first, later ++ rest, first :: later, skipped, notClosing, itemText_self _, short, rfl⟩
  | object =>
    obtain ⟨later, ⟨key, item, isKey, isItem, whole⟩, short, skipped⟩ := MemberText.skipped text
    have length := congrArg List.length whole
    rw [List.length_cons, List.length_append] at length
    refine ⟨0x22, later ++ rest, item, skipped rest, by decide, isItem, by omega, ?_⟩
    exact passKey_eq_some_iff.mpr
      ⟨key, isKey, by rw [← List.cons_append, whole, List.append_assoc]⟩

/-- What stands before a value makes an entry with it. -/
theorem Bracket.entry_of_passLead {b : Bracket} {middle item : List UInt8}
    (passed : b.passLead input = some middle) (isItem : ItemText value item)
    (whole : middle = item ++ rest) :
    ∃ entry, b.EntryText value entry ∧ input = entry ++ rest := by
  cases b with
  | array =>
    obtain rfl := Option.some.inj passed
    exact ⟨item, isItem, whole⟩
  | object =>
    obtain ⟨key, isKey, rfl⟩ := passKey_eq_some_iff.mp passed
    exact ⟨key ++ item, ⟨key, item, isKey, isItem, rfl⟩, by rw [whole, List.append_assoc]⟩

/-- Blanks before an entry belong to it. -/
theorem Bracket.EntryText.append {b : Bracket} {blank : List UInt8} (isBlank : IsBlank blank)
    (text : b.EntryText value octets) : b.EntryText value (blank ++ octets) := by
  cases b with
  | array => exact ItemText.append isBlank text
  | object => exact MemberText.append isBlank text

variable {steps : Nat} {outer : List Bracket}

/-- Where a bracket has been opened, it is closed or an entry starts. -/
theorem pass_opened (b : Bracket) : pass (steps + 1) .opened (b :: outer) input =
    match skipBlank input with
    | [] => none
    | first :: rest =>
      if first = b.closing then pass steps .ended outer rest
      else
        match b.passLead (first :: rest) with
        | none => none
        | some rest => pass steps .value (b :: outer) rest := by
  cases b <;> rfl

/-- Where an entry has ended, its bracket is closed or a comma stands before another entry. -/
theorem pass_ended (b : Bracket) : pass (steps + 1) .ended (b :: outer) input =
    match skipBlank input with
    | [] => none
    | first :: rest =>
      if first = 0x2C then
        match b.passLead rest with
        | none => none
        | some rest => pass steps .value (b :: outer) rest
      else if first = b.closing then pass steps .ended outer rest
      else none := by
  cases b <;> rfl

/-- The part of a bracket from a place in it, and what follows. -/
def Inside (b : Bracket) (place : Place) (input rest : List UInt8) : Prop :=
  ∃ values inside, Entries b.EntryText b.closing place values inside ∧
    (∀ value ∈ values, IsValue value) ∧ input = inside ++ rest

/-- What some open brackets owe after an entry of the innermost, and what follows them. -/
def Closes : List Bracket → List UInt8 → List UInt8 → Prop
  | [], input, rest => input = rest
  | b :: outer, input, rest => ∃ middle, Inside b .ended input middle ∧ Closes outer middle rest

/-- What is owed at a place, and what follows it. -/
def Owes : Place → List Bracket → List UInt8 → List UInt8 → Prop
  | .value, enclosing, input, rest => ∃ value item middle, IsValue value ∧ ItemText value item ∧
    input = item ++ middle ∧ Closes enclosing middle rest
  | .opened, [], _, _ => False
  | .opened, b :: outer, input, rest =>
    ∃ middle, Inside b .opened input middle ∧ Closes outer middle rest
  | .ended, enclosing, input, rest => Closes enclosing input rest

/-- A value that opens a bracket is what the bracket owes. -/
theorem owes_value {b : Bracket} {blank : List UInt8} (isBlank : IsBlank blank)
    (owes : Owes .opened (b :: outer) input rest) :
    Owes .value outer (blank ++ b.opening :: input) rest := by
  obtain ⟨middle, ⟨values, inside, entries, areValues, rfl⟩, closes⟩ := owes
  exact ⟨_, _, middle, .bracket entries areValues, ⟨blank, isBlank, rfl⟩, by simp, closes⟩

/-- An entry and what its bracket owes after it. -/
theorem exists_entry_of_owes {b : Bracket} {middle : List UInt8}
    (passed : b.passLead input = some middle)
    (owes : Owes .value (b :: outer) middle rest) :
    ∃ value values octets inside behind, b.EntryText value octets ∧
      Entries b.EntryText b.closing .ended values inside ∧
      (∀ each ∈ value :: values, IsValue each) ∧ input = octets ++ (inside ++ behind) ∧
      Closes outer behind rest := by
  obtain ⟨value, item, afterItem, isValue, isItem, whole, closes⟩ := owes
  obtain ⟨behind, ⟨values, inside, entries, areValues, rfl⟩, closes⟩ := closes
  obtain ⟨octets, text, rfl⟩ := b.entry_of_passLead passed isItem whole
  exact ⟨value, values, octets, inside, behind, text, entries,
    List.forall_mem_cons.mpr ⟨isValue, areValues⟩, rfl, closes⟩

/-- What is passed is what was owed. -/
theorem owes_of_pass {place : Place} {enclosing : List Bracket}
    (passed : pass steps place enclosing input = some rest) : Owes place enclosing input rest := by
  -- Every step leads to a place where less is owed: the bound on the steps carries the induction.
  induction steps generalizing place enclosing input with
  | zero => cases passed
  | succ steps ih =>
    cases place with
    | value =>
      rw [pass] at passed
      split at passed
      case h_1 => cases passed
      case h_2 first later skipped =>
        obtain ⟨blank, isBlank, rfl⟩ := exists_blank_of_skipBlank skipped
        split at passed
        case isTrue opens => rw [opens]; exact owes_value (b := .array) isBlank (ih passed)
        split at passed
        case isTrue opens => rw [opens]; exact owes_value (b := .object) isBlank (ih passed)
        split at passed
        case h_1 => cases passed
        case h_2 behind scalarPassed =>
          obtain ⟨octets, isScalar, whole⟩ := isScalar_of_passScalar scalarPassed
          exact ⟨octets, blank ++ octets, behind, .scalar isScalar, ⟨blank, isBlank, rfl⟩,
            by rw [whole, List.append_assoc], ih passed⟩
    | opened =>
      cases enclosing with
      | nil => cases passed
      | cons b outer =>
        rw [pass_opened] at passed
        split at passed
        case h_1 => cases passed
        case h_2 first later skipped =>
          obtain ⟨blank, isBlank, rfl⟩ := exists_blank_of_skipBlank skipped
          split at passed
          case isTrue closing =>
            exact ⟨later, ⟨[], _, .empty isBlank, List.forall_mem_nil _, by simp [closing]⟩,
              ih passed⟩
          split at passed
          case h_1 => cases passed
          case h_2 middle leadPassed =>
            obtain ⟨value, values, octets, inside, behind, text, entries, areValues, whole,
              closes⟩ := exists_entry_of_owes leadPassed (ih passed)
            exact ⟨behind, ⟨value :: values, _, .first (text.append isBlank) entries, areValues,
              by simp [whole]⟩, closes⟩
    | ended =>
      cases enclosing with
      | nil => exact Option.some.inj passed
      | cons b outer =>
        rw [pass_ended] at passed
        split at passed
        case h_1 => cases passed
        case h_2 first later skipped =>
          obtain ⟨blank, isBlank, rfl⟩ := exists_blank_of_skipBlank skipped
          split at passed
          case isTrue comma =>
            split at passed
            case h_1 => cases passed
            case h_2 middle leadPassed =>
              obtain ⟨value, values, octets, inside, behind, text, entries, areValues, whole,
                closes⟩ := exists_entry_of_owes leadPassed (ih passed)
              exact ⟨behind, ⟨value :: values, _, .next isBlank text entries, areValues,
                by simp [whole, comma]⟩, closes⟩
          split at passed
          case isTrue closing =>
            exact ⟨later, ⟨[], _, .last isBlank, List.forall_mem_nil _, by simp [closing]⟩,
              ih passed⟩
          case isFalse => cases passed

/-- A value is passed, within a number of steps that its length bounds. -/
def Passes (value : List UInt8) : Prop :=
  ∃ cost, cost + 1 ≤ 2 * value.length ∧ ∀ (steps : Nat) (enclosing : List Bracket)
    (item rest : List UInt8) (b : UInt8), ItemText value item → endsNumber b = true →
    pass (steps + cost) .value enclosing (item ++ b :: rest) =
      pass steps .ended enclosing (b :: rest)

/-- What is left of a bracket starts with an octet that ends a number. -/
theorem Entries.exists_cons {ε : Type} {Text : ε → List UInt8 → Prop} {entries : List ε}
    (form : Entries Text c .ended entries octets) (closes : endsNumber c = true)
    (rest : List UInt8) :
    ∃ first later, octets ++ rest = first :: later ∧ endsNumber first = true := by
  have starts {blank : List UInt8} (isBlank : IsBlank blank) (first : UInt8)
      (ends : endsNumber first = true) (tail : List UInt8) :
      ∃ b later, blank ++ first :: tail = b :: later ∧ endsNumber b = true := by
    cases blank with
    | nil => exact ⟨first, tail, rfl, ends⟩
    | cons b later =>
      refine ⟨b, later ++ first :: tail, rfl, ?_⟩
      rcases isBlank b List.mem_cons_self with rfl | rfl | rfl | rfl <;> decide
  cases form with
  | last isBlank => simpa using starts isBlank c closes rest
  | next isBlank text later => simpa using starts isBlank 0x2C (by decide) _

/-- The octet that closes a bracket ends a number. -/
theorem Bracket.endsNumber_closing (b : Bracket) : endsNumber b.closing = true := by
  cases b <;> decide

/-- The entries of a bracket are passed if their values are. -/
theorem Entries.pass_append {b : Bracket} {place : Place} {values : List (List UInt8)}
    (form : Entries b.EntryText b.closing place values octets)
    (areValues : ∀ value ∈ values, IsValue value) (passes : ∀ value ∈ values, Passes value) :
    ∃ cost, cost ≤ 2 * octets.length ∧ ∀ (steps : Nat) (outer : List Bracket) (rest : List UInt8),
      pass (steps + cost) place (b :: outer) (octets ++ rest) = pass steps .ended outer rest := by
  induction form with
  | @empty blank isBlank =>
    refine ⟨1, by rw [List.length_append, List.length_singleton]; omega, fun steps outer rest => ?_⟩
    have visible : isBlankOctet b.closing = false := by cases b <;> decide
    rw [pass_opened, List.append_assoc, isBlank.skipBlank_append, List.singleton_append,
      skipBlank_cons _ visible]
    exact if_pos rfl
  | @last blank isBlank =>
    refine ⟨1, by rw [List.length_append, List.length_singleton]; omega, fun steps outer rest => ?_⟩
    have visible : isBlankOctet b.closing = false := by cases b <;> decide
    have noComma : b.closing ≠ 0x2C := by cases b <;> decide
    rw [pass_ended, List.append_assoc, isBlank.skipBlank_append, List.singleton_append,
      skipBlank_cons _ visible]
    simp only [if_neg noComma, if_true]
  | @first value values entry later text form ih =>
    obtain ⟨isValue, areValues⟩ := List.forall_mem_cons.mp areValues
    obtain ⟨⟨cost, short, valuePassed⟩, passes⟩ := List.forall_mem_cons.mp passes
    obtain ⟨others, bounded, othersPassed⟩ := ih areValues passes
    -- One step leads to the value. The value leaves it unspent, since it costs less than its bound.
    refine ⟨others + cost + 1, ?_, fun steps outer rest => ?_⟩
    · obtain ⟨_, _, item, -, -, isItem, fits, -⟩ := b.passLead_first text isValue []
      have := isItem.length_le
      rw [List.length_append]
      omega
    · obtain ⟨first, tail, item, skipped, notClosing, isItem, -, lead⟩ :=
        b.passLead_first text isValue (later ++ rest)
      obtain ⟨next, behind, split, ends⟩ := form.exists_cons b.endsNumber_closing rest
      rw [← Nat.add_assoc, pass_opened, List.append_assoc, skipped]
      simp only [if_neg notClosing, lead]
      rw [split, ← Nat.add_assoc, valuePassed _ _ _ _ _ isItem ends, ← split, othersPassed]
  | @next blank value values entry later isBlank text form ih =>
    obtain ⟨isValue, areValues⟩ := List.forall_mem_cons.mp areValues
    obtain ⟨⟨cost, short, valuePassed⟩, passes⟩ := List.forall_mem_cons.mp passes
    obtain ⟨others, bounded, othersPassed⟩ := ih areValues passes
    refine ⟨others + cost + 1, ?_, fun steps outer rest => ?_⟩
    · obtain ⟨item, isItem, fits, -⟩ := b.passLead_append text []
      have := isItem.length_le
      simp only [List.length_append, List.length_cons]
      omega
    · obtain ⟨item, isItem, -, lead⟩ := b.passLead_append text (later ++ rest)
      obtain ⟨next, behind, split, ends⟩ := form.exists_cons b.endsNumber_closing rest
      rw [← Nat.add_assoc, pass_ended, List.append_assoc, isBlank.skipBlank_append,
        List.cons_append, skipBlank_cons _ (by decide), List.append_assoc]
      simp only [if_true, lead]
      rw [split, ← Nat.add_assoc, valuePassed _ _ _ _ _ isItem ends, ← split, othersPassed]

/-- Every value is passed. -/
theorem IsValue.passes (isValue : IsValue value) : Passes value := by
  induction isValue with
  | @scalar octets isScalar =>
    obtain ⟨first, later, rfl, visible, notArray, notObject, -⟩ := isScalar.exists_cons
    refine ⟨1, by rw [List.length_cons]; omega, ?_⟩
    rintro steps enclosing _ rest b ⟨blank, isBlank, rfl⟩ ends
    have passed := isScalar.passScalar_append ends rest
    rw [List.cons_append] at passed
    rw [pass, List.append_assoc, isBlank.skipBlank_append, List.cons_append,
      skipBlank_cons _ visible]
    simp only [if_neg notArray, if_neg notObject, passed]
  | @bracket b values inside entries areValues ih =>
    obtain ⟨cost, short, passed⟩ := entries.pass_append areValues ih
    refine ⟨cost + 1, by rw [List.length_cons]; omega, ?_⟩
    rintro steps enclosing _ rest next ⟨blank, isBlank, rfl⟩ -
    have visible : isBlankOctet b.opening = false := by cases b <;> decide
    have opens (later : List UInt8) : pass (steps + cost + 1) .value enclosing
        (blank ++ b.opening :: later) = pass (steps + cost) .opened (b :: enclosing) later := by
      rw [pass, isBlank.skipBlank_append, skipBlank_cons _ visible]
      cases b <;> rfl
    rw [← Nat.add_assoc, List.append_assoc, List.cons_append, opens, passed]

/-- A value is passed up to the octet behind it. -/
theorem IsValue.pass_append {bound : Nat} {item : List UInt8} (isValue : IsValue value)
    (long : 2 * value.length ≤ bound) (isItem : ItemText value item) (ends : endsNumber b = true)
    (rest : List UInt8) : pass bound .value [] (item ++ b :: rest) = some (b :: rest) := by
  obtain ⟨cost, short, passed⟩ := isValue.passes
  have split : bound = bound - cost - 1 + 1 + cost := by omega
  rw [split, passed _ _ _ _ _ isItem ends]
  rfl

/-- What is passed where a value may come is one, perhaps after blanks. -/
theorem exists_value_of_pass {bound : Nat} (passed : pass bound .value [] input = some rest) :
    ∃ value item, IsValue value ∧ ItemText value item ∧ input = item ++ rest := by
  obtain ⟨value, item, middle, isValue, isItem, whole, rfl⟩ := owes_of_pass passed
  exact ⟨value, item, isValue, isItem, whole⟩

/-- Where a value ends is settled by its own octets. -/
theorem ItemText.unique {value' item item' rest' : List UInt8} (isValue : IsValue value)
    (isValue' : IsValue value') (isItem : ItemText value item) (isItem' : ItemText value' item')
    (ends : endsNumber b = true) (ends' : endsNumber c = true)
    (same : item ++ b :: rest = item' ++ c :: rest') : value = value' ∧ b :: rest = c :: rest' := by
  have passed := isValue.pass_append (Nat.le_max_left _ (2 * value'.length)) isItem ends rest
  have passed' := isValue'.pass_append (Nat.le_max_right (2 * value.length) _) isItem' ends' rest'
  rw [same, passed'] at passed
  have behind := (Option.some.inj passed).symm
  have skipped := congrArg skipBlank same
  rw [isItem.skipBlank_append isValue, isItem'.skipBlank_append isValue', behind] at skipped
  exact ⟨List.append_cancel_right skipped, behind⟩

end StatusRegistry.Json
