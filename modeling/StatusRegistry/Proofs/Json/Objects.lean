import StatusRegistry.Proofs.Fields
import StatusRegistry.Proofs.Json.Tokens
import StatusRegistry.Status.Json

/-!
# Reading records exactly

A record is read from an object whose members fill it, or from an array whose items do, and from
nothing else. The members come in any order and may hold unknown keys; the items come in the order
of the slots. An object has one list of members and an array one list of items, so what is read
depends on nothing but these.
-/

namespace StatusRegistry.Json

open Utf8 (octets)

variable {α σ : Type} {b : UInt8} {input text rest value : List UInt8}

/-- A slot with the field of the record that it fills. -/
structure SlotField (σ : Type) extends RecordField (List UInt8) σ where
  slot : Slot σ
  names_eq : names = [slot.name]
  isFilled_eq : ∀ record, slot.isFilled record = (get record).isSome
  exact_fill : slot.fill.Exact fun value fill => ∃ a, Reads value a ∧ put a = fill

namespace SlotField

/-- A slot that keeps what an exact reader finds. -/
def of {reader : Reader α} {Text : List UInt8 → α → Prop} (name : String) (presence : Presence)
    (exact : reader.Exact Text) (get : σ → Option α) (put : α → σ → σ)
    (kept : ∀ a record, get (put a record) = some a) : SlotField σ where
  names := [name]
  Reads := Text
  get := get
  put := put
  get_put := kept
  slot := Json.slot name presence reader get put
  names_eq := rfl
  isFilled_eq _ := rfl
  exact_fill :=
    { isValue := fun ⟨_, text, _⟩ => exact.isValue text
      sound := by
        intro input rest fill read
        have read : (reader input).map (fun found => (put found.1, found.2)) = .ok (fill, rest) :=
         read
        cases found : reader input with
        | error problem => rw [found] at read; cases read
        | ok found' =>
          obtain ⟨a, behind⟩ := found'
          rw [found] at read
          cases read
          obtain ⟨value, item, text, isItem, whole⟩ := exact.sound found
          exact ⟨value, item, ⟨a, text, rfl⟩, isItem, whole⟩
      complete := by
        rintro value item _ ⟨a, text, rfl⟩ isItem b ends rest
        exact congrArg (Except.map fun found => (put found.1, found.2))
          (exact.complete text isItem ends rest) }

variable {fields : List (SlotField σ)} {key : String}

/-- A key finds the slot that it names. -/
theorem named_of_find {s : Slot σ} (found : (fields.map slot).find? (·.name == key) = some s) :
    ∃ field ∈ fields, field.slot = s ∧ key ∈ field.names := by
  obtain ⟨field, member, rfl⟩ := List.mem_map.mp (List.mem_of_find?_eq_some found)
  have named : (field.slot.name == key) = true :=
    List.find?_some (p := fun s : Slot σ => s.name == key) found
  exact ⟨field, member, rfl, by
    rw [field.names_eq, ← beq_iff_eq.mp named]; exact List.mem_singleton_self _⟩

/-- A key that finds no slot names none. -/
theorem find_eq_none_iff : (fields.map slot).find? (·.name == key) = none ↔
    ∀ field ∈ fields.map toRecordField, key ∉ field.names := by
  rw [List.find?_eq_none, List.forall_mem_map, List.forall_mem_map]
  refine forall₂_congr fun field _ => not_congr ?_
  rw [field.names_eq, List.mem_singleton, beq_iff_eq, eq_comm]

end SlotField

/-- A segment changes nothing about what is read. -/
theorem under_eq_ok_iff {segment : Segment} {outcome : Except Problem α} {a : α} :
    under segment outcome = .ok a ↔ outcome = .ok a := by
  cases outcome with
  | ok _ => exact Iff.rfl
  | error problem => cases problem <;> exact ⟨nofun, nofun⟩

/-- What one member makes of a record. -/
inductive Takes (fields : List (RecordField (List UInt8) σ)) (record : σ)
    (member : String × List UInt8) : σ → Prop
  | skip (unknown : ∀ field ∈ fields, member.1 ∉ field.names) : Takes fields record member record
  | fill {field : RecordField (List UInt8) σ} {a : field.α} (present : field ∈ fields)
    (named : member.1 ∈ field.names) (empty : field.get record = none)
    (reads : field.Reads member.2 a) : Takes fields record member (field.put a record)

/-- A record is filled from members one after the other. -/
theorem collects_cons_iff {fields : List (RecordField (List UInt8) σ)} {record result : σ}
    {member : String × List UInt8} {members : List (String × List UInt8)} :
    Collects fields record (member :: members) result ↔
      ∃ taken, Takes fields record member taken ∧ Collects fields taken members result := by
  constructor
  · intro collects
    cases collects with
    | skip unknown later => exact ⟨record, .skip unknown, later⟩
    | fill present named empty reads later => exact ⟨_, .fill present named empty reads, later⟩
  · rintro ⟨taken, takes, later⟩
    cases takes with
    | skip unknown => exact .skip unknown later
    | fill present named empty reads => exact .fill present named empty reads later

/-- What is read as a key with its colon is one. -/
theorem exists_keyText {key : String} {behind : List UInt8}
    (keyed : key? input = some (key, behind))
    (colon : afterColon? behind = some rest) :
    ∃ text, KeyText (Literal (octets key)) text ∧ input = text ++ rest := by
  obtain ⟨behindQuote, quote, keyRead⟩ := Option.bind_eq_some_iff.mp keyed
  obtain ⟨before, isBefore, rfl⟩ := exists_blank_of_skipBlank (after?_eq_some_iff.mp quote)
  obtain ⟨written, literal, rfl⟩ := string?_eq_some_iff.mp keyRead
  obtain ⟨between, isBetween, rfl⟩ := exists_blank_of_skipBlank (after?_eq_some_iff.mp colon)
  exact ⟨_, ⟨before, written, between, isBefore, literal, isBetween, rfl⟩, by simp⟩

/-- A key with its colon is read. -/
theorem key?_append {key : String} (isKey : KeyText (Literal (octets key)) text)
    (rest : List UInt8) :
    ∃ behind, key? (text ++ rest) = some (key, behind) ∧ afterColon? behind = some rest := by
  obtain ⟨before, written, between, isBefore, literal, isBetween, rfl⟩ := isKey
  have quote (later : List UInt8) : key? (0x22 :: later) = string? later := rfl
  have skips (input : List UInt8) : key? (before ++ input) = key? input := by
    rw [key?, key?, isBefore.skipBlank_append]
  refine ⟨between ++ 0x3A :: rest, ?_, ?_⟩
  · rw [List.append_assoc, skips, List.cons_append, quote]
    exact string?_eq_some_iff.mpr ⟨written, literal, by simp⟩
  · rw [afterColon?, isBetween.skipBlank_append]
    rfl

variable {fields : List (SlotField σ)} {bound : Nat} {record result : σ}

/-- What is read as a member is one, and changes the record as it says. -/
theorem takes_of_readMember {taken : σ}
    (read : readMember bound (fields.map SlotField.slot) record input = .ok (taken, rest)) :
    ∃ member text, ReadMember member text ∧ IsValue member.2 ∧ input = text ++ rest ∧
      Takes (fields.map SlotField.toRecordField) record member taken := by
  rw [readMember] at read
  split at read
  case h_1 => cases read
  case h_2 key behind keyed =>
    split at read
    case h_1 missed =>
      split at read
      case h_1 => cases read
      case h_2 after passed =>
        cases read
        obtain ⟨middle, colon, passed⟩ := Option.bind_eq_some_iff.mp passed
        obtain ⟨keyText, isKey, rfl⟩ := exists_keyText keyed colon
        obtain ⟨value, item, isValue, isItem, rfl⟩ := exists_value_of_pass passed
        exact ⟨(key, value), _, ⟨keyText, item, isKey, isItem, rfl⟩, isValue,
          (List.append_assoc ..).symm, .skip (SlotField.find_eq_none_iff.mp missed)⟩
    case h_2 slot found =>
      obtain ⟨field, present, rfl, named⟩ := SlotField.named_of_find found
      split at read
      case isTrue => cases read
      case isFalse unset =>
        have empty : field.get record = none := by
          rwa [field.isFilled_eq, Bool.not_eq_true, Option.isSome_eq_false_iff,
            Option.isNone_iff_eq_none] at unset
        split at read
        case h_1 => cases read
        case h_2 middle colon =>
          split at read
          case h_1 => cases read
          case h_2 fill after filled =>
            cases read
            obtain ⟨keyText, isKey, rfl⟩ := exists_keyText keyed colon
            obtain ⟨value, item, ⟨a, reads, rfl⟩, isItem, rfl⟩ :=
              field.exact_fill.sound (under_eq_ok_iff.mp filled)
            exact ⟨(key, value), _, ⟨keyText, item, isKey, isItem, rfl⟩,
              field.exact_fill.isValue ⟨a, reads, rfl⟩, (List.append_assoc ..).symm,
              .fill (List.mem_map_of_mem present) named empty reads⟩

/-- A member is read. -/
theorem readMember_append (apart : (fields.map SlotField.toRecordField).Pairwise RecordField.Apart)
    {member : String × List UInt8} {taken : σ} (isMember : ReadMember member text)
    (isValue : IsValue member.2) (long : 2 * text.length ≤ bound)
    (takes : Takes (fields.map SlotField.toRecordField) record member taken)
    (ends : endsNumber b = true) (rest : List UInt8) :
    readMember bound (fields.map SlotField.slot) record (text ++ b :: rest) =
      .ok (taken, b :: rest) := by
  obtain ⟨keyText, item, isKey, isItem, rfl⟩ := isMember
  obtain ⟨behind, keyed, colon⟩ := key?_append isKey (item ++ b :: rest)
  rw [List.append_assoc, readMember, keyed]
  cases takes with
  | skip unknown =>
    have fits : 2 * member.2.length ≤ bound := by
      have := isItem.length_le
      rw [List.length_append] at long
      omega
    simp only [SlotField.find_eq_none_iff.mpr unknown, colon, Option.bind_eq_bind, Option.bind_some,
      isValue.pass_append fits isItem ends rest]
  | @fill field a present named empty reads =>
    cases found : (fields.map SlotField.slot).find? (·.name == member.1) with
    | none => exact absurd named (SlotField.find_eq_none_iff.mp found field present)
    | some slot =>
      obtain ⟨slotField, slotPresent, rfl, slotNamed⟩ := SlotField.named_of_find found
      obtain rfl := RecordField.eq_of_named apart present (List.mem_map_of_mem slotPresent) named
        slotNamed
      have unfilled : slotField.slot.isFilled record = false := by
        rw [slotField.isFilled_eq, empty]
        rfl
      have filled := slotField.exact_fill.complete ⟨a, reads, rfl⟩ isItem ends rest
      simp only [found, unfilled, Bool.false_eq_true, if_false, colon, filled, under]

/-- What is read as the members of an object are its members. -/
theorem collects_of_readMembers {steps : Nat}
    (read : readMembers bound (fields.map SlotField.slot) steps record input = .ok (result, rest)) :
    ∃ members text, Entries ReadMember 0x7D .ended members text ∧
      (∀ member ∈ members, IsValue member.2) ∧ input = text ++ rest ∧
      Collects (fields.map SlotField.toRecordField) record members result := by
  induction steps generalizing record input with
  | zero => cases read
  | succ steps ih =>
    rw [readMembers] at read
    split at read
    case h_1 => cases read
    case h_2 first later skipped =>
      obtain ⟨blank, isBlank, rfl⟩ := exists_blank_of_skipBlank skipped
      split at read
      case isTrue closing =>
        cases read
        exact ⟨[], _, .last isBlank, List.forall_mem_nil _, by simp [closing], .nil⟩
      split at read
      case isFalse => cases read
      case isTrue comma =>
        split at read
        case h_1 => cases read
        case h_2 taken behind memberRead =>
          obtain ⟨member, memberText, isMember, isValue, rfl, takes⟩ :=
            takes_of_readMember memberRead
          obtain ⟨members, text, entries, areValues, rfl, collects⟩ := ih read
          exact ⟨member :: members, _, .next isBlank isMember entries,
            List.forall_mem_cons.mpr ⟨isValue, areValues⟩, by simp [comma],
            collects_cons_iff.mpr ⟨taken, takes, collects⟩⟩

/-- What is read as an object after its opening bracket is one. -/
theorem collects_of_readObject
    (read : readObject bound (fields.map SlotField.slot) record input = .ok (result, rest)) :
    ∃ members text, Entries ReadMember 0x7D .opened members text ∧
      (∀ member ∈ members, IsValue member.2) ∧ input = text ++ rest ∧
      Collects (fields.map SlotField.toRecordField) record members result := by
  rw [readObject] at read
  split at read
  case h_1 => cases read
  case h_2 first later skipped =>
    obtain ⟨blank, isBlank, rfl⟩ := exists_blank_of_skipBlank skipped
    split at read
    case isTrue closing =>
      cases read
      exact ⟨[], _, .empty isBlank, List.forall_mem_nil _, by simp [closing], .nil⟩
    split at read
    case h_1 => cases read
    case h_2 taken behind memberRead =>
      obtain ⟨member, memberText, isMember, isValue, whole, takes⟩ := takes_of_readMember memberRead
      obtain ⟨members, text, entries, areValues, rfl, collects⟩ := collects_of_readMembers read
      exact ⟨member :: members, _, .first (isMember.append isBlank) entries,
        List.forall_mem_cons.mpr ⟨isValue, areValues⟩, by simp [whole],
        collects_cons_iff.mpr ⟨taken, takes, collects⟩⟩

/-- The members of an object after the first are read. -/
theorem readMembers_append
    (apart : (fields.map SlotField.toRecordField).Pairwise RecordField.Apart)
    {members : List (String × List UInt8)} (entries : Entries ReadMember 0x7D .ended members text)
    (areValues : ∀ member ∈ members, IsValue member.2)
    (collects : Collects (fields.map SlotField.toRecordField) record members result) {steps : Nat}
    (enough : text.length ≤ steps) (long : 2 * text.length ≤ bound) (rest : List UInt8) :
    readMembers bound (fields.map SlotField.slot) steps record (text ++ rest) =
      .ok (result, rest) := by
  -- Every member has at least the octet of its comma, so the steps last to the closing bracket.
  induction steps generalizing record members text with
  | zero => cases entries <;> simp at enough
  | succ steps ih =>
    cases entries with
    | @last blank isBlank =>
      cases collects
      rw [List.append_assoc, readMembers, isBlank.skipBlank_append, List.singleton_append,
        skipBlank_cons _ (by decide)]
      rfl
    | @next blank member members memberText later isBlank isMember entries =>
      obtain ⟨isValue, areValues⟩ := List.forall_mem_cons.mp areValues
      obtain ⟨taken, takes, collects⟩ := collects_cons_iff.mp collects
      simp only [List.length_append, List.length_cons] at enough long
      obtain ⟨next, behind, split, ends⟩ := entries.exists_cons (by decide) rest
      have read :
          readMember bound (fields.map SlotField.slot) record (memberText ++ next :: behind) =
          .ok (taken, next :: behind) :=
        readMember_append apart isMember isValue (by omega) takes ends behind
      rw [List.append_assoc, readMembers, isBlank.skipBlank_append, List.cons_append,
        skipBlank_cons _ (by decide), List.append_assoc, split]
      dsimp only
      rw [if_neg (by decide), if_pos rfl, read, ← split]
      exact ih entries areValues collects (by omega) (by omega)

/-- An object is read after its opening bracket. -/
theorem readObject_append
    (apart : (fields.map SlotField.toRecordField).Pairwise RecordField.Apart)
    {members : List (String × List UInt8)} (entries : Entries ReadMember 0x7D .opened members text)
    (areValues : ∀ member ∈ members, IsValue member.2)
    (collects : Collects (fields.map SlotField.toRecordField) record members result)
    (long : 2 * text.length ≤ bound) (rest : List UInt8) :
    readObject bound (fields.map SlotField.slot) record (text ++ rest) = .ok (result, rest) := by
  cases entries with
  | @empty blank isBlank =>
    cases collects
    rw [List.append_assoc, readObject, isBlank.skipBlank_append, List.singleton_append,
      skipBlank_cons _ (by decide)]
    rfl
  | @first member members memberText later isMember entries =>
    obtain ⟨isValue, areValues⟩ := List.forall_mem_cons.mp areValues
    obtain ⟨taken, takes, collects⟩ := collects_cons_iff.mp collects
    simp only [List.length_append] at long
    obtain ⟨next, behind, split, ends⟩ := entries.exists_cons (by decide) rest
    obtain ⟨afterQuote, isMember, short, skipped⟩ := isMember.skipped
    have read : readMember bound (fields.map SlotField.slot) record
        (0x22 :: afterQuote ++ next :: behind) = .ok (taken, next :: behind) :=
      readMember_append apart isMember isValue (by rw [List.length_cons]; omega) takes ends behind
    rw [List.append_assoc, readObject, skipped, split]
    dsimp only
    rw [if_neg (by decide), ← List.cons_append, read, ← split]
    exact readMembers_append apart entries areValues collects (by omega) (by omega) rest

end StatusRegistry.Json
