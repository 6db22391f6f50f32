import StatusRegistry.Proofs.Json.Record

/-!
# Reading back printed arrays

A printed array is read item by item, each up to the comma or the bracket behind it. What an item
is printed as never starts with a blank or a closing bracket, so the reader always finds it where it
looks for one.
-/

namespace StatusRegistry.Json

open Utf8 (encode encodeChar)

variable {α : Type}

/-- A printed integer starts with a sign or a digit. -/
theorem integerChars_first (n : Int) :
    ∃ c later, integerChars n = c :: later ∧ (c = '-' ∨ c.isDigit = true) := by
  obtain ⟨first, later, digits, -⟩ := toDigits_first n.natAbs
  have digit := isDigit_of_mem_digits (n := n.natAbs) (c := first) (by simp [digits])
  rw [integerChars]
  split
  · exact ⟨_, _, rfl, .inl rfl⟩
  · exact ⟨first, later, digits, .inr digit⟩

/-- Whether a reader of items takes an octet for the start of one. -/
def startsItem (b : UInt8) : Bool := !isBlankOctet b && b ≠ 0x5D

/-- The octet of a digit starts an item. -/
theorem startsItem_digit {c : Char} (digit : c.isDigit = true) :
    ∃ b, encodeChar c = [b] ∧ startsItem b = true := by
  obtain ⟨b, single, -, number⟩ := digit?_encodeChar digit
  refine ⟨b, single, ?_⟩
  have bounds := (isDigit_iff c).mp digit
  simp only [startsItem, isBlankOctet, Bool.and_eq_true, Bool.not_eq_true', Bool.or_eq_false_iff,
    decide_eq_false_iff_not, decide_eq_true_eq, ne_eq, ← UInt8.toNat_inj, number]
  simp
  omega

/-- The first octet of every printed value starts an item. -/
theorem toChars_first (value : Json) :
    ∃ b later, encode value.toChars = b :: later ∧ startsItem b = true := by
  cases value with
  | null => exact ⟨0x6E, _, rfl, rfl⟩
  | bool value => cases value <;> exact ⟨_, _, rfl, rfl⟩
  | int n =>
    obtain ⟨c, later, chars, rfl | digit⟩ := integerChars_first n
    · exact ⟨0x2D, encode later, by rw [toChars, chars]; rfl, rfl⟩
    · obtain ⟨b, single, starts⟩ := startsItem_digit digit
      exact ⟨b, encode later, by rw [toChars, chars, Utf8.encode_cons, single]; rfl, starts⟩
  | str s => exact ⟨0x22, _, by rw [toChars]; rfl, rfl⟩
  | arr items =>
    cases items with
    | nil => exact ⟨0x5B, _, rfl, rfl⟩
    | cons item later => exact ⟨0x5B, _, by rw [toChars]; rfl, rfl⟩
  | obj members =>
    cases members with
    | nil => exact ⟨0x7B, _, rfl, rfl⟩
    | cons member later => exact ⟨0x7B, _, by rw [encode_obj], rfl⟩

/-- A nonempty array is its first item and what follows it. -/
theorem encode_arr (item : Json) (later : List Json) :
    encode (Json.arr (item :: later)).toChars =
      0x5B :: (encode item.toChars ++ encode (itemsChars later)) := by
  have mark : encodeChar '[' = [0x5B] := rfl
  rw [toChars]
  simp [mark]

/-- The items after the first are each preceded by a comma. -/
theorem encode_itemsChars (item : Json) (later : List Json) :
    encode (itemsChars (item :: later)) =
      0x2C :: (encode item.toChars ++ encode (itemsChars later)) := by
  have mark : encodeChar ',' = [0x2C] := rfl
  rw [itemsChars]
  simp [mark]

/-- The octet that follows a value inside an array ends it. -/
theorem itemsChars_first (items : List Json) (rest : List UInt8) :
    ∃ b later, encode (itemsChars items) ++ rest = b :: later ∧ endsNumber b = true := by
  cases items with
  | nil =>
    rw [itemsChars]
    exact ⟨0x5D, rest, rfl, rfl⟩
  | cons item later =>
    rw [encode_itemsChars]
    exact ⟨0x2C, _, rfl, rfl⟩

/-- An item after a comma is found behind it. -/
theorem readList_comma {reader : Reader α} {a : α} {b : UInt8} {later rest : List UInt8}
    (steps position : Nat) (found : List α) (behind : position ≠ 0) (starts : startsItem b = true)
    (read : reader (b :: later) = .ok (a, rest)) :
    readList reader (steps + 1) position found (0x2C :: b :: later) =
      readList reader steps (position + 1) (a :: found) rest := by
  simp only [startsItem, Bool.and_eq_true, Bool.not_eq_true', decide_eq_true_eq] at starts
  have visible := skipBlank_cons later starts.1
  have comma : skipBlank (0x2C :: b :: later) = 0x2C :: b :: later := rfl
  simp [readList, comma, behind, visible, starts.2, read, under]

/-- The first item is found behind the opening bracket. -/
theorem readList_first {reader : Reader α} {a : α} {b : UInt8} {later rest : List UInt8}
    (steps : Nat) (starts : startsItem b = true) (read : reader (b :: later) = .ok (a, rest)) :
    readList reader (steps + 1) 0 [] (b :: later) = readList reader steps 1 [a] rest := by
  simp only [startsItem, Bool.and_eq_true, Bool.not_eq_true', decide_eq_true_eq] at starts
  have visible := skipBlank_cons later starts.1
  simp [readList, visible, starts.2, read, under]

/-- Printed items are read up to the closing bracket. -/
theorem readList_printed {reader : Reader α} {print : α → Json} {values : List α}
    (reads : ∀ a ∈ values, Reads reader (print a) a) (steps position : Nat)
    (enough : values.length < steps) (behind : position ≠ 0) (found : List α) (rest : List UInt8) :
    readList reader steps position found (encode (itemsChars (values.map print)) ++ rest) =
      .ok (found.reverse ++ values, rest) := by
  induction values generalizing steps position found with
  | nil =>
    cases steps with
    | zero => exact absurd enough (Nat.not_lt_zero _)
    | succ steps =>
      rw [List.append_nil, List.map_nil, itemsChars]
      rfl
  | cons a values inductionHypothesis =>
    cases steps with
    | zero => exact absurd enough (Nat.not_lt_zero _)
    | succ steps =>
      obtain ⟨now, others⟩ := List.forall_mem_cons.mp reads
      obtain ⟨b, tail, split, ends⟩ := itemsChars_first (values.map print) rest
      obtain ⟨c, inside, value, starts⟩ := toChars_first (print a)
      have read := now b tail ends
      rw [value, List.cons_append, ← split] at read
      rw [List.map_cons, encode_itemsChars, value, List.cons_append, List.append_assoc,
        List.cons_append, readList_comma steps position found behind starts read,
        inductionHypothesis others steps _ (Nat.lt_of_succ_lt_succ enough) (Nat.succ_ne_zero _)]
      simp

/-- A printed array is read as the list of its items, if there are steps enough for them. -/
theorem reads_listOf {bound : Nat} {reader : Reader α} {print : α → Json} {values : List α}
    (enough : values.length < bound) (reads : ∀ a ∈ values, Reads reader (print a) a) :
    Reads (listOf bound reader) (.arr (values.map print)) values := by
  intro b rest _
  have opening : ∀ input, token? (0x5B :: input) = some (.openArray, input) := fun _ => rfl
  cases bound with
  | zero => exact absurd enough (Nat.not_lt_zero _)
  | succ steps =>
    cases values with
    | nil => rfl
    | cons a values =>
      obtain ⟨now, others⟩ := List.forall_mem_cons.mp reads
      obtain ⟨d, tail, split, ends⟩ := itemsChars_first (values.map print) (b :: rest)
      obtain ⟨c, inside, value, starts⟩ := toChars_first (print a)
      have read := now d tail ends
      rw [value, List.cons_append, ← split] at read
      rw [List.map_cons, encode_arr, List.cons_append, listOf, opening]
      show readList reader (steps + 1) 0 [] _ = _
      rw [value, List.cons_append, List.cons_append, List.append_assoc,
        readList_first steps starts read,
        readList_printed others steps 1 (Nat.lt_of_succ_lt_succ enough) Nat.one_ne_zero]
      rfl

/-- A printed array has more octets than items. -/
theorem length_lt_encode_arr (items : List Json) :
    items.length < (encode (Json.arr items).toChars).length := by
  have tail : ∀ later, later.length < (encode (itemsChars later)).length := by
    intro later
    induction later with
    | nil => exact Nat.zero_lt_one
    | cons item later inductionHypothesis =>
      rw [encode_itemsChars, List.length_cons, List.length_cons, List.length_append]
      omega
  cases items with
  | nil => exact Nat.zero_lt_two
  | cons item later =>
    have := tail later
    rw [encode_arr, List.length_cons, List.length_cons, List.length_append]
    omega

end StatusRegistry.Json
