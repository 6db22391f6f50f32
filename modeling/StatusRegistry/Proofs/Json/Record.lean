import StatusRegistry.Proofs.Json.Scalars

/-!
# Reading back printed records

A printed object fills the slots its keys name, in the order of its members. What each slot reads is
given per member, so the description of a whole record is a chain of members and follows the printed
text from the left.
-/

namespace StatusRegistry.Json

open Utf8 (encode encodeChar)

variable {α σ : Type}

/-- A reader finds a value wherever a JSON value is printed before an octet that ends it, and stops
at that octet. -/
def Reads (reader : Reader α) (value : Json) (a : α) : Prop :=
  ∀ b rest, endsNumber b = true →
    reader (encode value.toChars ++ b :: rest) = .ok (a, b :: rest)

/-- A reader of tokens finds what its test makes of a printed string. -/
theorem reads_ofToken_str {expected : String} {test : Token → Option (Except Problem α)}
    {s : String} {a : α} (passes : test (.str s) = some (.ok a)) :
    Reads (.ofToken expected test) (.str s) a := by
  intro b rest _
  rw [toChars, Reader.ofToken, token?_quote]
  simp only [passes]

/-- A printed string is read as itself. -/
theorem reads_string (s : String) : Reads string (.str s) s :=
  reads_ofToken_str rfl

/-- A printed string is read as what its format says. -/
theorem reads_formatted {parse? : String → Option α} {s : String} {a : α}
    (expected reason : String) (parsed : parse? s = some a) :
    Reads (formatted expected reason parse?) (.str s) a := by
  apply reads_ofToken_str
  simp only [parsed]

/-- A printed boolean is read as itself. -/
theorem reads_boolean (value : Bool) : Reads boolean (.bool value) value := by
  intro b rest _
  cases value <;> rfl

/-- A printed integer within bounds is read as what it is converted to. -/
theorem reads_integer {low high : Int} {n : Int} (expected : String) (convert : Int → α)
    (least : low ≤ n) (most : n ≤ high)
    (wide : -0x8000000000000000 ≤ n ∧ n ≤ 0xFFFFFFFFFFFFFFFF) :
    Reads (integer expected low high convert) (.int n) (convert n) := by
  intro b rest ends
  rw [toChars, integer, Reader.ofToken, token?_integerChars n b rest wide.1 wide.2 ends]
  simp only [if_pos (And.intro least most)]

/-- A printed 32-bit integer is read as itself. -/
theorem reads_int32 (n : Int32) : Reads int32 (.int n.toInt) n := by
  have least := n.le_toInt
  have most := n.toInt_lt
  have read : Reads int32 (.int n.toInt) (n.toInt.toInt32) :=
    reads_integer "i32" (·.toInt32) (by omega) (by omega) (by omega)
  have back : n.toInt.toInt32 = n := Int32.ofInt_toInt n
  rwa [back] at read

/-- A printed 64-bit integer is read as itself. -/
theorem reads_int64 (n : Int64) : Reads int64 (.int n.toInt) n := by
  have least := n.le_toInt
  have most := n.toInt_lt
  have read : Reads int64 (.int n.toInt) (n.toInt.toInt64) :=
    reads_integer "i64" (·.toInt64) (by omega) (by omega) (by omega)
  have back : n.toInt.toInt64 = n := Int64.ofInt_toInt n
  rwa [back] at read

/-- A printed 32-bit unsigned integer is read as itself. -/
theorem reads_uint32 (n : UInt32) : Reads uint32 (.int n.toNat) n := by
  have most := n.toNat_lt
  have read : Reads uint32 (.int n.toNat) ((n.toNat : Int).toNat.toUInt32) :=
    reads_integer "u32" (·.toNat.toUInt32) (by omega) (by omega) (by omega)
  have back : (n.toNat : Int).toNat.toUInt32 = n := UInt32.ofNat_toNat
  rwa [back] at read

/-- A printed null is read as no value. -/
theorem reads_nullable_null (reader : Reader α) : Reads (nullable reader) .null none := by
  intro b rest _
  rfl

/-- A printed string that is read is read where null could stand. -/
theorem reads_nullable_str {reader : Reader α} {s : String} {a : α}
    (read : Reads reader (.str s) a) : Reads (nullable reader) (.str s) (some a) := by
  intro b rest ends
  have found := read b rest ends
  have start : skipBlank (0x22 :: (encode (s.toList.flatMap escapeChar) ++ 0x22 :: b :: rest)) =
      0x22 :: (encode (s.toList.flatMap escapeChar) ++ 0x22 :: b :: rest) := rfl
  rw [toChars, encode_quote] at found ⊢
  simp only [nullable, start, found]
  rfl

/-- The octets of a key, a colon and a value. -/
def memberOctets (key : String) (value : Json) : List UInt8 :=
  encode (quote key ++ ':' :: value.toChars)

/-- An object is its first member and what follows it. -/
theorem encode_obj (key : String) (value : Json) (later : List (String × Json)) :
    encode (Json.obj ((key, value) :: later)).toChars =
      0x7B :: (memberOctets key value ++ encode (membersChars later)) := by
  have mark : encodeChar '\x7b' = [0x7B] := rfl
  rw [toChars]
  simp [memberOctets, mark]

/-- The members after the first are each preceded by a comma. -/
theorem encode_membersChars (key : String) (value : Json) (later : List (String × Json)) :
    encode (membersChars ((key, value) :: later)) =
      0x2C :: (memberOctets key value ++ encode (membersChars later)) := by
  have mark : encodeChar ',' = [0x2C] := rfl
  rw [membersChars]
  simp [memberOctets, mark]

/-- The octet that follows a value inside an object ends it. -/
theorem membersChars_first (members : List (String × Json)) (rest : List UInt8) :
    ∃ b later, encode (membersChars members) ++ rest = b :: later ∧ endsNumber b = true := by
  cases members with
  | nil =>
    rw [membersChars]
    exact ⟨0x7D, rest, rfl, rfl⟩
  | cons member later =>
    rw [encode_membersChars]
    exact ⟨0x2C, _, rfl, rfl⟩

/-- A printed key is read up to its closing quote. -/
theorem key?_quote (key : String) (rest : List UInt8) :
    key? (encode (quote key) ++ rest) = some (key, rest) := by
  have start : ∀ later, key? (0x22 :: later) = string? later := fun _ => rfl
  rw [encode_quote, start, string?_escaped]

/-- A printed member fills the slot that its key names. -/
theorem readMember_printed (bound : Nat) {slots : List (Slot σ)} {record : σ} {slot : Slot σ}
    {key : String} {value : Json} {fill : σ → σ} (named : slots.find? (·.name == key) = some slot)
    (unfilled : slot.isFilled record = false) (read : Reads slot.fill value fill)
    (b : UInt8) (rest : List UInt8) (ends : endsNumber b = true) :
    readMember bound slots record (memberOctets key value ++ b :: rest) =
      .ok (fill record, b :: rest) := by
  have colon : ∀ later, afterColon? (0x3A :: later) = some later := fun _ => rfl
  have mark : encodeChar ':' = [0x3A] := rfl
  have found := read b rest ends
  rw [memberOctets, Utf8.encode_append, List.append_assoc, Utf8.encode_cons, mark]
  simp only [readMember, key?_quote, named, unfilled, Bool.false_eq_true, if_false,
    List.cons_append, List.nil_append, colon, found, under]

/-- The members of an object fill the slots of a record one after the other. -/
inductive Fills (slots : List (Slot σ)) : σ → List (String × Json) → σ → Prop where
  | nil {record : σ} : Fills slots record [] record
  | cons {record filled : σ} {slot : Slot σ} {key : String} {value : Json} {fill : σ → σ}
      {later : List (String × Json)} :
      slots.find? (·.name == key) = some slot →
      slot.isFilled record = false →
      Reads slot.fill value fill →
      Fills slots (fill record) later filled →
      Fills slots record ((key, value) :: later) filled

/-- Printed members that fill a record are read up to the closing bracket. -/
theorem readMembers_printed (bound : Nat) {slots : List (Slot σ)} {record filled : σ}
    {members : List (String × Json)} (fills : Fills slots record members filled) (steps : Nat)
    (enough : members.length < steps) (rest : List UInt8) :
    readMembers bound slots steps record (encode (membersChars members) ++ rest) =
      .ok (filled, rest) := by
  induction fills generalizing steps with
  | nil =>
    cases steps with
    | zero => exact absurd enough (Nat.not_lt_zero _)
    | succ steps =>
      rw [membersChars]
      rfl
  | @cons record filled slot key value fill later named unfilled read _ ih =>
    cases steps with
    | zero => exact absurd enough (Nat.not_lt_zero _)
    | succ steps =>
      obtain ⟨b, tail, split, ends⟩ := membersChars_first later rest
      have comma : ∀ input next, readMember bound slots record input = .ok next →
          readMembers bound slots (steps + 1) record (0x2C :: input) =
            readMembers bound slots steps next.1 next.2 := by
        intro input next found
        have visible : skipBlank (0x2C :: input) = 0x2C :: input := rfl
        simp [readMembers, visible, found]
      have first := readMember_printed bound named unfilled read b tail ends
      rw [encode_membersChars, List.cons_append, List.append_assoc, split, comma _ _ first, ← split]
      exact ih steps (Nat.lt_of_succ_lt_succ enough)

/-- A printed object is read as the record that its members fill. -/
theorem reader_printed {shape : Shape α} (bound : Nat) {filled : shape.σ} {a : α}
    {members : List (String × Json)} (fills : Fills shape.slots shape.empty members filled)
    (nonempty : members ≠ []) (enough : members.length ≤ bound)
    (complete : firstMissing shape.slots filled = none) (finished : shape.finish? filled = some a)
    (rest : List UInt8) :
    shape.reader bound (encode (Json.obj members).toChars ++ rest) = .ok (a, rest) := by
  cases fills with
  | nil => exact absurd rfl nonempty
  | @cons _ _ slot key value fill later named unfilled read fillsLater =>
    obtain ⟨b, tail, split, ends⟩ := membersChars_first later rest
    have first := readMember_printed bound named unfilled read b tail ends
    have others := readMembers_printed bound fillsLater bound enough rest
    have inside : readObject bound shape.slots shape.empty
        (memberOctets key value ++ b :: tail) = .ok (filled, rest) := by
      rw [memberOctets, Utf8.encode_append, List.append_assoc, encode_quote] at first ⊢
      rw [readObject, skipBlank_cons _ rfl]
      simp only [first]
      rw [← split]
      exact others
    have opening : ∀ input, token? (0x7B :: input) = some (.openObject, input) := fun _ => rfl
    rw [encode_obj, List.cons_append, List.append_assoc, split, Shape.reader, opening]
    simp only [inside, complete, Shape.close, finished]
    rfl

/-- A printed object has more octets than members. -/
theorem length_le_encode_membersChars (members : List (String × Json)) :
    members.length ≤ (encode (membersChars members)).length := by
  induction members with
  | nil => exact Nat.zero_le _
  | cons member later ih =>
    rw [encode_membersChars, List.length_cons, List.length_cons, List.length_append]
    omega

/-- A printed object has no more members than octets. -/
theorem length_le_encode_obj (members : List (String × Json)) :
    members.length ≤ (encode (Json.obj members).toChars).length := by
  cases members with
  | nil => exact Nat.zero_le _
  | cons member later =>
    have := length_le_encode_membersChars later
    rw [encode_obj, List.length_cons, List.length_cons, List.length_append]
    omega

/-- The octets of a member's value are among those of the member. -/
theorem length_encode_le_memberOctets (key : String) (value : Json) :
    (encode value.toChars).length ≤ (memberOctets key value).length := by
  rw [memberOctets, Utf8.encode_append, Utf8.encode_cons, List.length_append, List.length_append]
  omega

/-- The octets of a member's value are among those of its object. -/
theorem length_encode_le_of_mem {members : List (String × Json)} {key : String} {value : Json}
    (member : (key, value) ∈ members) :
    (encode value.toChars).length ≤ (encode (Json.obj members).toChars).length := by
  have inside := length_encode_le_memberOctets key value
  have behind : ∀ later, (key, value) ∈ later →
      (encode value.toChars).length ≤ (encode (membersChars later)).length := by
    intro later member
    induction later with
    | nil => exact absurd member List.not_mem_nil
    | cons first later inductionHypothesis =>
      obtain ⟨_, _⟩ := first
      rw [encode_membersChars, List.length_cons, List.length_append]
      rcases List.mem_cons.mp member with ⟨⟨⟩⟩ | further
      · omega
      · have := inductionHypothesis further
        omega
  cases members with
  | nil => exact absurd member List.not_mem_nil
  | cons first later =>
    obtain ⟨_, _⟩ := first
    rw [encode_obj, List.length_cons, List.length_append]
    rcases List.mem_cons.mp member with ⟨⟨⟩⟩ | further
    · omega
    · have := behind later further
      omega

/-- A document that is read to its end holds what is found. -/
theorem decode_of_read {reader : Nat → Reader α} {document : List UInt8} {a : α}
    (read : reader (stepBound document) document = .ok (a, [])) :
    decode reader document = .ok a := by
  rw [decode, read]
  rfl

/-- A document that is a printed object is read as the record that its members fill. -/
theorem decode_printed {shape : Shape α} {filled : shape.σ} {a : α}
    {members : List (String × Json)} (fills : Fills shape.slots shape.empty members filled)
    (nonempty : members ≠ []) (complete : firstMissing shape.slots filled = none)
    (finished : shape.finish? filled = some a) :
    decode shape.reader (encode (Json.obj members).toChars) = .ok a := by
  have long : members.length ≤ stepBound (encode (Json.obj members).toChars) := by
    have := length_le_encode_obj members
    rw [stepBound]
    omega
  have read := reader_printed _ fills nonempty long complete finished []
  rw [List.append_nil] at read
  exact decode_of_read read

end StatusRegistry.Json
