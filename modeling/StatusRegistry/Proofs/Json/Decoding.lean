import StatusRegistry.Proofs.Json.Objects

/-!
# Decoding records exactly

A body is decoded as a record where it holds an object whose members fill the record, or an array
whose items do, and nowhere else. A body holds one object with one list of members, or one array
with one list of items, so what is decoded depends on these alone.
-/

namespace StatusRegistry.Json

variable {α σ : Type} {b : UInt8} {input text rest value : List UInt8}

/-- Items fill fields one after the other. Fields without an item must be optional. -/
inductive Lists : List (SlotField σ) → σ → List (List UInt8) → σ → Prop
  | done {fields record} (spare : ∀ field ∈ fields, field.slot.presence = .optional) :
    Lists fields record [] record
  | next {field fields record value items result} {a : field.α} (reads : field.Reads value a)
    (later : Lists fields (field.put a record) items result) :
    Lists (field :: fields) record (value :: items) result

/-- The place in an array before the item of a position. -/
def placeOf : Nat → Place
  | 0 => .opened
  | _ + 1 => .ended

/-- An array can end at any position. -/
theorem Entries.close {ε : Type} {Text : ε → List UInt8 → Prop} {closing : UInt8}
    (position : Nat) {blank : List UInt8} (isBlank : IsBlank blank) :
    Entries Text closing (placeOf position) [] (blank ++ [closing]) := by
  cases position with
  | zero => exact .empty isBlank
  | succ position => exact .last isBlank

/-- Where no entry is left, the bracket is closed. -/
theorem Entries.exists_blank {ε : Type} {Text : ε → List UInt8 → Prop} {closing : UInt8}
    {place : Place} (entries : Entries Text closing place [] text) :
    ∃ blank, IsBlank blank ∧ text = blank ++ [closing] := by
  cases entries with
  | empty isBlank => exact ⟨_, isBlank, rfl⟩
  | last isBlank => exact ⟨_, isBlank, rfl⟩

variable {fields : List (SlotField σ)} {expected : String} {position : Nat} {record result : σ}

/-- What is read as the items of an array are its items. -/
theorem lists_of_readItems (read : readItems expected position record (fields.map SlotField.slot)
      input = .ok (result, rest)) :
    ∃ items text, Entries ItemText 0x5D (placeOf position) items text ∧
      (∀ item ∈ items, IsValue item) ∧ input = text ++ rest ∧ Lists fields record items result := by
  -- The induction is on the fields that are left; the position only tells the first item apart.
  induction fields generalizing position record input with
  | nil =>
    rw [List.map_nil, readItems] at read
    split at read
    case h_1 => cases read
    case h_2 first later skipped =>
      obtain ⟨blank, isBlank, rfl⟩ := exists_blank_of_skipBlank skipped
      split at read
      case isFalse => cases read
      case isTrue closing =>
        cases read
        exact ⟨[], _, .close position isBlank, List.forall_mem_nil _, by simp [closing],
          .done (List.forall_mem_nil _)⟩
  | cons field fields ih =>
    rw [List.map_cons, readItems] at read
    split at read
    case h_1 => cases read
    case h_2 first later skipped =>
      obtain ⟨blank, isBlank, rfl⟩ := exists_blank_of_skipBlank skipped
      split at read
      case isTrue closing =>
        split at read
        case h_1 => cases read
        case h_2 spare =>
          cases read
          refine ⟨[], _, .close position isBlank, List.forall_mem_nil _, by simp [closing],
            .done fun each member => ?_⟩
          have optional := List.findIdx?_eq_none_iff.mp spare each.slot
            (List.map_cons ▸ List.mem_map_of_mem member)
          simpa using optional
      case isFalse =>
        cases position with
        | zero =>
          simp only [if_true] at read
          split at read
          case h_1 => cases read
          case h_2 fill behind filled =>
            obtain ⟨value, item, ⟨a, reads, rfl⟩, isItem, whole⟩ :=
              field.exact_fill.sound (under_eq_ok_iff.mp filled)
            obtain ⟨items, text, entries, areValues, rfl, lists⟩ := ih read
            exact ⟨value :: items, _, .first (isItem.append isBlank) entries,
              List.forall_mem_cons.mpr ⟨field.exact_fill.isValue ⟨a, reads, rfl⟩, areValues⟩,
              by simp [whole], .next reads lists⟩
        | succ position =>
          rw [if_neg (Nat.succ_ne_zero position)] at read
          split at read
          case isFalse => cases read
          case isTrue comma =>
            dsimp only at read
            by_cases closing : (skipBlank later).head? = some 0x5D
            · rw [if_pos closing] at read
              cases read
            · rw [if_neg closing] at read
              dsimp only at read
              split at read
              case h_1 => cases read
              case h_2 fill behind filled =>
                obtain ⟨value, item, ⟨a, reads, rfl⟩, isItem, whole⟩ :=
                  field.exact_fill.sound (under_eq_ok_iff.mp filled)
                obtain ⟨more, isMore, split⟩ := exists_blank later
                obtain ⟨items, text, entries, areValues, rfl, lists⟩ := ih read
                refine ⟨value :: items, _, .next isBlank (isItem.append isMore) entries,
                  List.forall_mem_cons.mpr ⟨field.exact_fill.isValue ⟨a, reads, rfl⟩, areValues⟩,
                  ?_, .next reads lists⟩
                rw [split, whole]
                simp [comma]

/-- The items of an array are read. -/
theorem readItems_append {items : List (List UInt8)} (lists : Lists fields record items result)
    (entries : Entries ItemText 0x5D (placeOf position) items text) (rest : List UInt8) :
    readItems expected position record (fields.map SlotField.slot) (text ++ rest) =
      .ok (result, rest) := by
  induction lists generalizing position text with
  | @done fields record spare =>
    obtain ⟨blank, isBlank, rfl⟩ := entries.exists_blank
    have skipped : skipBlank (blank ++ [0x5D] ++ rest) = 0x5D :: rest := by
      rw [List.append_assoc, isBlank.skipBlank_append]
      rfl
    cases fields with
    | nil =>
      rw [List.map_nil, readItems, skipped]
      rfl
    | cons field fields =>
      have none : ((field.slot :: fields.map SlotField.slot).findIdx?
          fun slot => slot.presence ≠ .optional) = none := by
        rw [← List.map_cons (f := SlotField.slot), List.findIdx?_eq_none_iff, List.forall_mem_map]
        intro each member
        simp [spare each member]
      rw [List.map_cons, readItems, skipped]
      simp only [if_true, none]
  | @next field fields record value items result a reads later ih =>
    have isValue : IsValue value := field.exact_fill.isValue ⟨a, reads, rfl⟩
    have fills {next : UInt8} (ends : endsNumber next = true) (behind : List UInt8) :
        under (.index position) (field.slot.fill (value ++ next :: behind)) =
          .ok (field.put a, next :: behind) :=
      under_eq_ok_iff.mpr
        (field.exact_fill.complete ⟨a, reads, rfl⟩ (itemText_self value) ends behind)
    obtain ⟨first, tail, rfl, -, notClosing⟩ := isValue.exists_cons
    cases position with
    | zero =>
      cases entries with
      | @first _ _ _ others isItem entries =>
        obtain ⟨next, behind, split, ends⟩ := entries.exists_cons (by decide) rest
        rw [List.map_cons, readItems, List.append_assoc, split, isItem.skipBlank_append isValue,
          List.cons_append]
        dsimp only
        rw [if_neg notClosing, if_pos rfl, ← List.cons_append]
        dsimp only
        rw [fills ends, ← split]
        exact ih (show Entries ItemText 0x5D (placeOf 1) items others from entries)
    | succ position =>
      cases entries with
      | @next blank _ _ _ others isBlank isItem entries =>
        obtain ⟨next, behind, split, ends⟩ := entries.exists_cons (by decide) rest
        rw [List.map_cons, readItems, List.append_assoc, isBlank.skipBlank_append, List.cons_append,
          skipBlank_cons _ (by decide), List.append_assoc, split]
        have inside : some first ≠ some (0x5D : UInt8) :=
          fun same => notClosing (Option.some.inj same)
        dsimp only
        rw [if_neg (by decide), if_neg (Nat.succ_ne_zero position), if_pos rfl,
          isItem.skipBlank_append isValue, List.cons_append, List.head?_cons, if_neg inside,
          ← List.cons_append]
        dsimp only
        rw [fills ends, ← split]
        exact ih (show Entries ItemText 0x5D (placeOf (position + 2)) items others from entries)

/-- The fields of a record whose slots are known: no two share a name or a place, the record is
nothing but them, and it is finished only where no required one is empty. -/
structure ShapeFields (shape : Shape α) where
  fields : List (SlotField shape.σ)
  slots_eq : fields.map SlotField.slot = shape.slots
  apart : (fields.map SlotField.toRecordField).Pairwise RecordField.Apart
  whole : ∀ a b : shape.σ,
    (∀ field ∈ fields.map SlotField.toRecordField, field.get a = field.get b) → a = b
  empty : ∀ field ∈ fields.map SlotField.toRecordField, field.get shape.empty = none
  full : ∀ record a, shape.finish? record = some a → firstMissing shape.slots record = none

section

variable {shape : Shape α} {own : ShapeFields shape} {a : α} {bound : Nat}
  {body document item : List UInt8} {members : List (String × List UInt8)}
  {items : List (List UInt8)}

/-- Members give a value: they give its fields what makes it up. -/
def ShapeFields.GivenBy (own : ShapeFields shape) (a : α)
    (members : List (String × List UInt8)) : Prop :=
  ∃ record, (∀ field ∈ own.fields.map SlotField.toRecordField,
    Gives field.Reads field.names members (field.get record)) ∧ shape.finish? record = some a

/-- Items list a value: in their order they fill its fields with what makes it up. -/
def ShapeFields.ListedBy (own : ShapeFields shape) (a : α) (items : List (List UInt8)) : Prop :=
  ∃ record, Lists own.fields shape.empty items record ∧ shape.finish? record = some a

/-- A document says what a value is: it is an object whose members give it, or an array whose items
list it. -/
def ReadsAs (own : ShapeFields shape) (a : α) (document : List UInt8) : Prop :=
  (∃ members, IsObject members document ∧ own.GivenBy a members) ∨
    ∃ items, IsArray items document ∧ own.ListedBy a items

/-- A record that is finished is closed. -/
theorem Shape.close_eq_ok_iff {record : shape.σ} :
    shape.close record = .ok a ↔ shape.finish? record = some a := by
  rw [Shape.close]
  cases shape.finish? record with
  | none => simp
  | some finished => simp

/-- What is kept of a reading that only changes its value. -/
theorem exists_of_map_eq_ok {outcome : Except Problem α} (same : outcome.map (fun a => (a, text)) =
    .ok (a, rest)) : outcome = .ok a ∧ text = rest := by
  cases outcome with
  | error problem => cases same
  | ok found =>
    cases same
    exact ⟨rfl, rfl⟩

/-- What is read as a record is an object or an array that says so. -/
theorem readsAs_of_reader (own : ShapeFields shape)
    (read : shape.reader bound input = .ok (a, rest)) :
    ∃ document item, ReadsAs own a document ∧ ItemText document item ∧ input = item ++ rest := by
  rw [Shape.reader, ← own.slots_eq] at read
  split at read
  case h_1 => cases read
  case h_2 behind found =>
    obtain ⟨_, _, opening, ⟨blank, isBlank, rfl⟩, rfl⟩ :=
      tokenText_of_token? found fun _ _ => Token.noConfusion
    cases opening
    split at read
    case h_1 => cases read
    case h_2 record after objectRead =>
      split at read
      case h_1 => cases read
      case h_2 =>
        obtain ⟨closed, rfl⟩ := exists_of_map_eq_ok read
        obtain ⟨members, inside, entries, areValues, rfl, collects⟩ :=
          collects_of_readObject objectRead
        have gives := (collects_iff_gives own.apart own.whole own.empty).mp collects
        exact ⟨_, _, .inl ⟨members, ⟨inside, rfl, entries, areValues⟩, record, gives,
          Shape.close_eq_ok_iff.mp closed⟩, ⟨blank, isBlank, rfl⟩, by simp⟩
  case h_3 behind found =>
    obtain ⟨_, _, opening, ⟨blank, isBlank, rfl⟩, rfl⟩ :=
      tokenText_of_token? found fun _ _ => Token.noConfusion
    cases opening
    split at read
    case h_1 => cases read
    case h_2 record after itemsRead =>
      obtain ⟨closed, rfl⟩ := exists_of_map_eq_ok read
      obtain ⟨items, inside, entries, areValues, rfl, lists⟩ := lists_of_readItems itemsRead
      exact ⟨_, _, .inr ⟨items, ⟨inside, rfl, entries, areValues⟩, record, lists,
        Shape.close_eq_ok_iff.mp closed⟩, ⟨blank, isBlank, rfl⟩, by simp⟩
  case h_4 => cases read

/-- A document is read as what it says. -/
theorem ReadsAs.reader_append (readsAs : ReadsAs own a document)
    (long : 2 * document.length ≤ bound)
    (isItem : ItemText document item) (rest : List UInt8) :
    shape.reader bound (item ++ rest) = .ok (a, rest) := by
  obtain ⟨blank, isBlank, rfl⟩ := isItem
  rw [Shape.reader, List.append_assoc, token?_append isBlank]
  rcases readsAs with ⟨members, ⟨inside, rfl, entries, areValues⟩, record, gives, finished⟩ |
    ⟨items, ⟨inside, rfl, entries, areValues⟩, record, lists, finished⟩
  · have collects := (collects_iff_gives own.apart own.whole own.empty).mpr gives
    have opening (later : List UInt8) : token? (0x7B :: later) = some (.openObject, later) := rfl
    have read : readObject bound shape.slots shape.empty (inside ++ rest) = .ok (record, rest) := by
      rw [List.length_cons] at long
      rw [← own.slots_eq]
      exact readObject_append own.apart entries areValues collects (by omega) rest
    rw [List.cons_append, opening]
    simp only [read, own.full record a finished, Shape.close_eq_ok_iff.mpr finished]
    rfl
  · have opening (later : List UInt8) : token? (0x5B :: later) = some (.openArray, later) := rfl
    have read : readItems shape.expectedLength 0 shape.empty shape.slots (inside ++ rest) =
        .ok (record, rest) := by
      rw [← own.slots_eq]
      exact readItems_append lists
        (show Entries ItemText 0x5D (placeOf 0) items inside from entries)
        rest
    rw [List.cons_append, opening]
    simp only [read, Shape.close_eq_ok_iff.mpr finished]
    rfl

/-- A body is decoded as a record exactly where it holds a document that says so. -/
theorem decode_eq_ok_iff (own : ShapeFields shape) :
    decode shape.reader body = .ok a ↔ Holds (ReadsAs own a) body := by
  constructor
  · intro decoded
    rw [decode] at decoded
    split at decoded
    case h_1 => cases decoded
    case h_2 found rest read =>
      split at decoded
      case isFalse => cases decoded
      case isTrue blank =>
        cases decoded
        obtain ⟨document, item, readsAs, ⟨before, isBefore, rfl⟩, rfl⟩ :=
          readsAs_of_reader own read
        obtain ⟨after, isAfter, split⟩ := exists_blank rest
        rw [List.isEmpty_iff.mp blank, List.append_nil] at split
        exact ⟨before, document, after, isBefore, readsAs, isAfter, by simp [split]⟩
  · rintro ⟨before, document, after, isBefore, readsAs, isAfter, rfl⟩
    have long : 2 * document.length ≤ stepBound (before ++ (document ++ after)) := by
      simp only [stepBound, List.length_append]
      omega
    have ended : (skipBlank after).isEmpty = true := by
      have skipped := isAfter.skipBlank_append []
      rw [List.append_nil] at skipped
      rw [skipped]
      rfl
    have read := readsAs.reader_append long ⟨before, isBefore, rfl⟩ after
    rw [List.append_assoc] at read
    rw [decode, read]
    exact if_pos ended

end

/-- The entries of a bracket are settled by their octets, if each entry is settled by its own. -/
theorem Entries.unique {ε : Type} {Text : ε → List UInt8 → Prop} {Valid : ε → Prop}
    (bracket : Bracket) {place : Place} {entries entries' : List ε} {text' rest' : List UInt8}
    (one : ∀ {e e' : ε} {text text' rest rest' : List UInt8} {b c : UInt8}, Valid e → Valid e' →
      Text e text → Text e' text' → endsNumber b = true → endsNumber c = true →
      text ++ b :: rest = text' ++ c :: rest' → e = e' ∧ b :: rest = c :: rest')
    (starts : ∀ {e : ε} {text : List UInt8}, Valid e → Text e text → ∀ rest,
      ∃ first later, skipBlank (text ++ rest) = first :: later ∧ first ≠ bracket.closing)
    (form : Entries Text bracket.closing place entries text)
    (form' : Entries Text bracket.closing place entries' text')
    (valid : ∀ e ∈ entries, Valid e) (valid' : ∀ e ∈ entries', Valid e)
    (same : text ++ rest = text' ++ rest') : entries = entries' ∧ rest = rest' := by
  have visible : isBlankOctet bracket.closing = false := by cases bracket <;> decide
  have noComma : bracket.closing ≠ 0x2C := by cases bracket <;> decide
  have skips {blank : List UInt8} (isBlank : IsBlank blank) (rest : List UInt8) :
      skipBlank (blank ++ [bracket.closing] ++ rest) = bracket.closing :: rest := by
    rw [List.append_assoc, isBlank.skipBlank_append]
    exact skipBlank_cons _ visible
  have skipsComma {blank : List UInt8} (isBlank : IsBlank blank) (later rest : List UInt8) :
      skipBlank (blank ++ 0x2C :: later ++ rest) = 0x2C :: (later ++ rest) := by
    rw [List.append_assoc, isBlank.skipBlank_append]
    rfl
  have head {e e' : ε} {es es' : List ε} {octets octets' later later' rest rest' : List UInt8}
      (isValid : Valid e) (isValid' : Valid e') (isEntry : Text e octets)
      (isEntry' : Text e' octets')
      (form : Entries Text bracket.closing .ended es later)
      (form' : Entries Text bracket.closing .ended es' later')
      (same : octets ++ later ++ rest = octets' ++ later' ++ rest') :
      e = e' ∧ later ++ rest = later' ++ rest' := by
    obtain ⟨b, tail, split, ends⟩ := form.exists_cons bracket.endsNumber_closing rest
    obtain ⟨c, tail', split', ends'⟩ := form'.exists_cons bracket.endsNumber_closing rest'
    rw [List.append_assoc, List.append_assoc, split, split'] at same
    rw [split, split']
    exact one isValid isValid' isEntry isEntry' ends ends' same
  -- Both forms are skipped to their first octet, which says which of them they are.
  have skipped := congrArg skipBlank same
  induction form generalizing entries' text' rest' with
  | empty isBlank =>
    rw [skips isBlank] at skipped
    cases form' with
    | empty isBlank' =>
      rw [skips isBlank'] at skipped
      exact ⟨rfl, (List.cons.inj skipped).2⟩
    | @first entry entries octets later isEntry form' =>
      obtain ⟨first, tail, begins, notClosing⟩ :=
        starts (valid' entry List.mem_cons_self) isEntry (later ++ rest')
      rw [List.append_assoc, begins] at skipped
      exact absurd (List.cons.inj skipped).1.symm notClosing
  | @first entry entries octets later isEntry form ih =>
    cases form' with
    | empty isBlank' =>
      obtain ⟨first, tail, begins, notClosing⟩ :=
        starts (valid entry List.mem_cons_self) isEntry (later ++ rest)
      rw [List.append_assoc, begins, skips isBlank'] at skipped
      exact absurd (List.cons.inj skipped).1 notClosing
    | @first entry' entries' octets' later' isEntry' form' =>
      obtain ⟨isValid, othersValid⟩ := List.forall_mem_cons.mp valid
      obtain ⟨isValid', othersValid'⟩ := List.forall_mem_cons.mp valid'
      obtain ⟨rfl, behind⟩ := head isValid isValid' isEntry isEntry' form form' same
      obtain ⟨rfl, done⟩ := ih form' othersValid othersValid' behind (congrArg skipBlank behind)
      exact ⟨rfl, done⟩
  | last isBlank =>
    rw [skips isBlank] at skipped
    cases form' with
    | last isBlank' =>
      rw [skips isBlank'] at skipped
      exact ⟨rfl, (List.cons.inj skipped).2⟩
    | next isBlank' =>
      rw [skipsComma isBlank'] at skipped
      exact absurd (List.cons.inj skipped).1 noComma
  | @next blank entry entries octets later isBlank isEntry form ih =>
    rw [skipsComma isBlank] at skipped
    cases form' with
    | last isBlank' =>
      rw [skips isBlank'] at skipped
      exact absurd (List.cons.inj skipped).1.symm noComma
    | @next blank' entry' entries' octets' later' isBlank' isEntry' form' =>
      rw [skipsComma isBlank'] at skipped
      obtain ⟨isValid, othersValid⟩ := List.forall_mem_cons.mp valid
      obtain ⟨isValid', othersValid'⟩ := List.forall_mem_cons.mp valid'
      obtain ⟨rfl, behind⟩ :=
        head isValid isValid' isEntry isEntry' form form' (List.cons.inj skipped).2
      obtain ⟨rfl, done⟩ := ih form' othersValid othersValid' behind (congrArg skipBlank behind)
      exact ⟨rfl, done⟩

/-- An object has one list of members. -/
theorem IsObject.unique {members members' : List (String × List UInt8)}
    {document document' rest' : List UInt8} (isObject : IsObject members document)
    (isObject' : IsObject members' document') (same : document ++ rest = document' ++ rest') :
    members = members' := by
  obtain ⟨inside, rfl, entries, areValues⟩ := isObject
  obtain ⟨inside', rfl, entries', areValues'⟩ := isObject'
  refine (Entries.unique .object ?_ ?_ entries entries' areValues areValues'
    (List.cons.inj same).2).1
  · intro member member' text text' rest rest' b c isValue isValue' isMember isMember' ends ends'
      same
    obtain ⟨key, item, isKey, isItem, rfl⟩ := isMember
    obtain ⟨key', item', isKey', isItem', rfl⟩ := isMember'
    obtain ⟨behind, keyed, colon⟩ := key?_append isKey (item ++ b :: rest)
    obtain ⟨behind', keyed', colon'⟩ := key?_append isKey' (item' ++ c :: rest')
    rw [List.append_assoc, List.append_assoc] at same
    rw [same, keyed'] at keyed
    obtain ⟨keys, rfl⟩ := Prod.mk.inj (Option.some.inj keyed)
    rw [colon'] at colon
    obtain ⟨values, done⟩ :=
      isItem.unique isValue isValue' isItem' ends ends' (Option.some.inj colon).symm
    exact ⟨Prod.ext keys.symm values, done⟩
  · intro member text _ isMember rest
    obtain ⟨later, -, -, skipped⟩ := isMember.skipped
    exact ⟨0x22, later ++ rest, skipped rest, by decide⟩

/-- An array has one list of items. -/
theorem IsArray.unique {items items' : List (List UInt8)} {document document' rest' : List UInt8}
    (isArray : IsArray items document) (isArray' : IsArray items' document')
    (same : document ++ rest = document' ++ rest') : items = items' := by
  obtain ⟨inside, rfl, entries, areValues⟩ := isArray
  obtain ⟨inside', rfl, entries', areValues'⟩ := isArray'
  refine (Entries.unique .array ?_ ?_ entries entries' areValues areValues'
    (List.cons.inj same).2).1
  · intro value value' text text' rest rest' b c isValue isValue' isItem isItem' ends ends' same
    exact isItem.unique isValue isValue' isItem' ends ends' same
  · intro value text isValue isItem rest
    have skipped := isItem.skipBlank_append isValue rest
    obtain ⟨first, later, rfl, -, notClosing⟩ := isValue.exists_cons
    exact ⟨first, later ++ rest, skipped, notClosing⟩

/-- A document that starts with no blank. -/
def Visible (document : List UInt8) : Prop :=
  ∃ first later, document = first :: later ∧ isBlankOctet first = false

/-- Two documents that one body holds start at the same octet. -/
theorem Holds.both {P Q : List UInt8 → Prop} {body : List UInt8}
    (visible : ∀ document, P document → Visible document)
    (visible' : ∀ document, Q document → Visible document) (holds : Holds P body)
    (holds' : Holds Q body) : ∃ document document' rest rest', P document ∧ Q document' ∧
      document ++ rest = document' ++ rest' := by
  obtain ⟨before, document, after, isBefore, isDocument, -, rfl⟩ := holds
  obtain ⟨before', document', after', isBefore', isDocument', -, same⟩ := holds'
  refine ⟨document, document', after, after', isDocument, isDocument', ?_⟩
  obtain ⟨first, later, rfl, firstVisible⟩ := visible document isDocument
  obtain ⟨first', later', rfl, firstVisible'⟩ := visible' document' isDocument'
  have skipped := congrArg skipBlank same
  rwa [isBefore.skipBlank_append, isBefore'.skipBlank_append, List.cons_append, List.cons_append,
    skipBlank_cons _ firstVisible, skipBlank_cons _ firstVisible'] at skipped

section

variable {shape : Shape α} {own : ShapeFields shape} {a : α} {body document : List UInt8}
  {members : List (String × List UInt8)} {items : List (List UInt8)}

/-- An object starts with its bracket. -/
theorem IsObject.visible (isObject : IsObject members document) : Visible document := by
  obtain ⟨inside, rfl, -⟩ := isObject
  exact ⟨0x7B, inside, rfl, by decide⟩

/-- An array starts with its bracket. -/
theorem IsArray.visible (isArray : IsArray items document) : Visible document := by
  obtain ⟨inside, rfl, -⟩ := isArray
  exact ⟨0x5B, inside, rfl, by decide⟩

/-- A document that is read starts with a bracket. -/
theorem ReadsAs.visible (readsAs : ReadsAs own a document) : Visible document := by
  rcases readsAs with ⟨members, isObject, -⟩ | ⟨items, isArray, -⟩
  · exact isObject.visible
  · exact isArray.visible

/-- A body that holds an object is decoded as what its members give. -/
theorem decode_object_iff (own : ShapeFields shape) (holds : Holds (IsObject members) body) :
    decode shape.reader body = .ok a ↔ own.GivenBy a members := by
  rw [decode_eq_ok_iff own]
  constructor
  · intro holdsRecord
    obtain ⟨document, document', rest, rest', isObject, readsAs, same⟩ :=
      holds.both (fun _ => IsObject.visible) (fun _ => ReadsAs.visible) holdsRecord
    rcases readsAs with ⟨others, isObject', given⟩ | ⟨items, isArray, -⟩
    · exact isObject.unique isObject' same ▸ given
    · obtain ⟨_, rfl, -⟩ := isObject
      obtain ⟨_, rfl, -⟩ := isArray
      exact absurd (List.cons.inj same).1 (by decide)
  · intro given
    obtain ⟨before, document, after, isBefore, isObject, isAfter, rfl⟩ := holds
    exact ⟨before, document, after, isBefore, .inl ⟨members, isObject, given⟩, isAfter, rfl⟩

/-- A body that holds an array is decoded as what its items list. -/
theorem decode_array_iff (own : ShapeFields shape) (holds : Holds (IsArray items) body) :
    decode shape.reader body = .ok a ↔ own.ListedBy a items := by
  rw [decode_eq_ok_iff own]
  constructor
  · intro holdsRecord
    obtain ⟨document, document', rest, rest', isArray, readsAs, same⟩ :=
      holds.both (fun _ => IsArray.visible) (fun _ => ReadsAs.visible) holdsRecord
    rcases readsAs with ⟨members, isObject, -⟩ | ⟨others, isArray', listed⟩
    · obtain ⟨_, rfl, -⟩ := isObject
      obtain ⟨_, rfl, -⟩ := isArray
      exact absurd (List.cons.inj same).1 (by decide)
    · exact isArray.unique isArray' same ▸ listed
  · intro listed
    obtain ⟨before, document, after, isBefore, isArray, isAfter, rfl⟩ := holds
    exact ⟨before, document, after, isBefore, .inr ⟨items, isArray, listed⟩, isAfter, rfl⟩

/-- What members give depends only on those with known keys, and not on their order. -/
theorem ShapeFields.givenBy_perm_iff (own : ShapeFields shape) {names : List String}
    (known : ∀ field ∈ own.fields.map SlotField.toRecordField, ∀ name ∈ field.names, name ∈ names)
    {others : List (String × List UInt8)}
    (perm : (members.filter fun member => member.1 ∈ names).Perm
      (others.filter fun member => member.1 ∈ names)) :
    own.GivenBy a members ↔ own.GivenBy a others := by
  refine exists_congr fun record => and_congr_left fun _ => forall₂_congr fun field member => ?_
  exact ⟨Gives.of_perm (known field member) perm, Gives.of_perm (known field member) perm.symm⟩

end

end StatusRegistry.Json
