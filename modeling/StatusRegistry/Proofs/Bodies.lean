import StatusRegistry.Proofs.Json.Decoding
import StatusRegistry.Status.Body

/-!
# Request bodies

Which bodies create and revise a status, and what they say. A body is an object whose members give
the fields in any order, among any others, or an array that lists them in their order. Nobody reads
the other members, so they need to have the form of JSON and nothing more.
-/

namespace StatusRegistry

open Json

variable {members : List (String × List UInt8)} {items : List (List UInt8)} {body : List UInt8}

/-- Members give a draft: a new status is active and comes first unless they say otherwise. -/
structure Draft.IsGivenBy (d : Draft) (members : List (String × List UInt8)) : Prop where
  name : Gives StringText ["name"] members (some d.name)
  description : Gives StringText ["description"] members (some d.description)
  active : ∃ given, Gives BooleanText ["active"] members given ∧ d.active = given.getD true
  orderNumber : ∃ given, Gives Int32Text ["order_number"] members given ∧
    d.orderNumber = given.getD 0

/-- Items list a draft; the last two may be left out. -/
inductive Draft.IsListedBy (d : Draft) : List (List UInt8) → Prop
  | two {name description} (isName : StringText name d.name)
    (isDescription : StringText description d.description) (active : d.active = true)
    (orderNumber : d.orderNumber = 0) : IsListedBy d [name, description]
  | three {name description active} (isName : StringText name d.name)
    (isDescription : StringText description d.description) (isActive : BooleanText active d.active)
    (orderNumber : d.orderNumber = 0) : IsListedBy d [name, description, active]
  | four {name description active orderNumber} (isName : StringText name d.name)
    (isDescription : StringText description d.description) (isActive : BooleanText active d.active)
    (isOrderNumber : Int32Text orderNumber d.orderNumber) :
    IsListedBy d [name, description, active, orderNumber]

/-- A draft of which some members have been read is finished once it has a name and a
description. -/
theorem Draft.finish?_eq_some_iff {p : PartialDraft} {d : Draft} :
    Draft.shape.finish? p = some d ↔ p.name = some d.name ∧ p.description = some d.description ∧
      d.active = p.active.getD true ∧ d.orderNumber = p.orderNumber.getD 0 := by
  obtain ⟨name, description, active, orderNumber⟩ := p
  obtain ⟨ofName, ofDescription, ofActive, ofOrderNumber⟩ := d
  cases name <;> cases description <;> simp [Draft.shape, eq_comm]

/-- The fields of a draft. -/
def draftFields : ShapeFields Draft.shape where
  fields := [
    .of "name" .required exact_string (·.name) (fun v p => { p with name := some v })
      fun _ _ => rfl,
    .of "description" .required exact_string (·.description)
      (fun v p => { p with description := some v }) fun _ _ => rfl,
    .of "active" .optional exact_boolean (·.active) (fun v p => { p with active := some v })
      fun _ _ => rfl,
    .of "order_number" .optional exact_int32 (·.orderNumber)
      (fun v p => { p with orderNumber := some v }) fun _ _ => rfl]
  slots_eq := rfl
  apart := by
    simp only [List.map_cons, List.map_nil, List.pairwise_cons, List.forall_mem_cons,
      List.Pairwise.nil]
    refine ⟨⟨?_, ?_, ?_, List.forall_mem_nil _⟩, ⟨?_, ?_, List.forall_mem_nil _⟩,
      ⟨?_, List.forall_mem_nil _⟩, List.forall_mem_nil _, trivial⟩ <;>
      exact ⟨by decide, fun _ _ => rfl, fun _ _ => rfl⟩
  whole a b same := by
    simp only [List.map_cons, List.map_nil, List.forall_mem_cons] at same
    obtain ⟨name, description, active, orderNumber, -⟩ := same
    exact PartialDraft.mk.injEq .. ▸ ⟨name, description, active, orderNumber⟩
  empty := by
    simp only [List.map_cons, List.map_nil, List.forall_mem_cons]
    exact ⟨rfl, rfl, rfl, rfl, List.forall_mem_nil _⟩
  full p d finished := by
    obtain ⟨name, description, -⟩ := Draft.finish?_eq_some_iff.mp finished
    simp [firstMissing, Draft.shape, Json.slot, name, description]

/-- Members give the fields of a draft where they give the draft. -/
theorem draftFields_givenBy_iff {d : Draft} :
    draftFields.GivenBy d members ↔ d.IsGivenBy members := by
  constructor
  · rintro ⟨p, gives, finished⟩
    simp only [draftFields, List.map_cons, List.map_nil, List.forall_mem_cons] at gives
    obtain ⟨name, description, active, orderNumber, -⟩ := gives
    obtain ⟨sameName, sameDescription, sameActive, sameOrderNumber⟩ :=
      Draft.finish?_eq_some_iff.mp finished
    exact ⟨sameName ▸ name, sameDescription ▸ description, ⟨_, active, sameActive⟩,
      ⟨_, orderNumber, sameOrderNumber⟩⟩
  · rintro ⟨name, description, ⟨active, activeGiven, sameActive⟩,
      ⟨orderNumber, orderNumberGiven, sameOrderNumber⟩⟩
    refine ⟨⟨some d.name, some d.description, active, orderNumber⟩, ?_,
      Draft.finish?_eq_some_iff.mpr ⟨rfl, rfl, sameActive, sameOrderNumber⟩⟩
    simp only [draftFields, List.map_cons, List.map_nil, List.forall_mem_cons]
    exact ⟨name, description, activeGiven, orderNumberGiven, List.forall_mem_nil _⟩

/-- Items fill the fields of a draft where they list the draft. -/
theorem draftFields_listedBy_iff {d : Draft} :
    draftFields.ListedBy d items ↔ d.IsListedBy items := by
  constructor
  · rintro ⟨p, lists, finished⟩
    obtain ⟨sameName, sameDescription, sameActive, sameOrderNumber⟩ :=
      Draft.finish?_eq_some_iff.mp finished
    simp only [draftFields] at lists
    cases lists with
    | done spare => exact Presence.noConfusion (spare _ List.mem_cons_self)
    | next isName lists =>
      cases lists with
      | done spare => exact Presence.noConfusion (spare _ List.mem_cons_self)
      | next isDescription lists =>
        cases lists with
        | done =>
          cases Option.some.inj sameName
          cases Option.some.inj sameDescription
          exact .two isName isDescription sameActive sameOrderNumber
        | next isActive lists =>
          cases lists with
          | done =>
            cases Option.some.inj sameName
            cases Option.some.inj sameDescription
            cases sameActive
            exact .three isName isDescription isActive sameOrderNumber
          | next isOrderNumber lists =>
            cases lists
            cases Option.some.inj sameName
            cases Option.some.inj sameDescription
            cases sameActive
            cases sameOrderNumber
            exact .four isName isDescription isActive isOrderNumber
  · intro listed
    cases listed with
    | two isName isDescription active orderNumber =>
      exact ⟨⟨some d.name, some d.description, none, none⟩,
        .next isName (.next isDescription (.done (by simp [SlotField.of, Json.slot]))),
        Draft.finish?_eq_some_iff.mpr ⟨rfl, rfl, active, orderNumber⟩⟩
    | three isName isDescription isActive orderNumber =>
      exact ⟨⟨some d.name, some d.description, some d.active, none⟩,
        .next isName (.next isDescription (.next isActive
          (.done (by simp [SlotField.of, Json.slot])))),
        Draft.finish?_eq_some_iff.mpr ⟨rfl, rfl, rfl, orderNumber⟩⟩
    | four isName isDescription isActive isOrderNumber =>
      exact ⟨⟨some d.name, some d.description, some d.active, some d.orderNumber⟩,
        .next isName (.next isDescription (.next isActive (.next isOrderNumber
          (.done (List.forall_mem_nil _))))),
        Draft.finish?_eq_some_iff.mpr ⟨rfl, rfl, rfl, rfl⟩⟩

/-- A body is decoded as a draft exactly where it holds an object that gives it or an array that
lists it. -/
theorem Draft.decode_eq_ok_iff {d : Draft} : Draft.decode body = .ok d ↔ Holds (fun document =>
    (∃ members, IsObject members document ∧ d.IsGivenBy members) ∨
      ∃ items, IsArray items document ∧ d.IsListedBy items) body := by
  simp only [← draftFields_givenBy_iff, ← draftFields_listedBy_iff]
  exact Json.decode_eq_ok_iff draftFields

/-- Members give a revision, which must say whether the status is active. -/
structure Revision.IsGivenBy (r : Revision) (members : List (String × List UInt8)) : Prop where
  description : Gives StringText ["description"] members (some r.description)
  active : Gives BooleanText ["active"] members (some r.active)
  orderNumber : ∃ given, Gives Int32Text ["order_number"] members given ∧
    r.orderNumber = given.getD 0

/-- Items list a revision; the last may be left out. -/
inductive Revision.IsListedBy (r : Revision) : List (List UInt8) → Prop
  | two {description active} (isDescription : StringText description r.description)
    (isActive : BooleanText active r.active) (orderNumber : r.orderNumber = 0) :
    IsListedBy r [description, active]
  | three {description active orderNumber} (isDescription : StringText description r.description)
    (isActive : BooleanText active r.active) (isOrderNumber : Int32Text orderNumber r.orderNumber) :
    IsListedBy r [description, active, orderNumber]

/-- A revision of which some members have been read is finished once it has a description and says
whether the status is active. -/
theorem Revision.finish?_eq_some_iff {p : PartialRevision} {r : Revision} :
    Revision.shape.finish? p = some r ↔ p.description = some r.description ∧
      p.active = some r.active ∧ r.orderNumber = p.orderNumber.getD 0 := by
  obtain ⟨description, active, orderNumber⟩ := p
  obtain ⟨ofDescription, ofActive, ofOrderNumber⟩ := r
  cases description <;> cases active <;> simp [Revision.shape, eq_comm]

/-- The fields of a revision. -/
def revisionFields : ShapeFields Revision.shape where
  fields := [
    .of "description" .required exact_string (·.description)
      (fun v p => { p with description := some v }) fun _ _ => rfl,
    .of "active" .required exact_boolean (·.active) (fun v p => { p with active := some v })
      fun _ _ => rfl,
    .of "order_number" .optional exact_int32 (·.orderNumber)
      (fun v p => { p with orderNumber := some v }) fun _ _ => rfl]
  slots_eq := rfl
  apart := by
    simp only [List.map_cons, List.map_nil, List.pairwise_cons, List.forall_mem_cons,
      List.Pairwise.nil]
    refine ⟨⟨?_, ?_, List.forall_mem_nil _⟩, ⟨?_, List.forall_mem_nil _⟩, List.forall_mem_nil _,
      trivial⟩ <;>
      exact ⟨by decide, fun _ _ => rfl, fun _ _ => rfl⟩
  whole a b same := by
    simp only [List.map_cons, List.map_nil, List.forall_mem_cons] at same
    obtain ⟨description, active, orderNumber, -⟩ := same
    exact PartialRevision.mk.injEq .. ▸ ⟨description, active, orderNumber⟩
  empty := by
    simp only [List.map_cons, List.map_nil, List.forall_mem_cons]
    exact ⟨rfl, rfl, rfl, List.forall_mem_nil _⟩
  full p r finished := by
    obtain ⟨description, active, -⟩ := Revision.finish?_eq_some_iff.mp finished
    simp [firstMissing, Revision.shape, Json.slot, description, active]

/-- Members give the fields of a revision where they give the revision. -/
theorem revisionFields_givenBy_iff {r : Revision} :
    revisionFields.GivenBy r members ↔ r.IsGivenBy members := by
  constructor
  · rintro ⟨p, gives, finished⟩
    simp only [revisionFields, List.map_cons, List.map_nil, List.forall_mem_cons] at gives
    obtain ⟨description, active, orderNumber, -⟩ := gives
    obtain ⟨sameDescription, sameActive, sameOrderNumber⟩ :=
      Revision.finish?_eq_some_iff.mp finished
    exact ⟨sameDescription ▸ description, sameActive ▸ active, ⟨_, orderNumber, sameOrderNumber⟩⟩
  · rintro ⟨description, active, ⟨orderNumber, orderNumberGiven, sameOrderNumber⟩⟩
    refine ⟨⟨some r.description, some r.active, orderNumber⟩, ?_,
      Revision.finish?_eq_some_iff.mpr ⟨rfl, rfl, sameOrderNumber⟩⟩
    simp only [revisionFields, List.map_cons, List.map_nil, List.forall_mem_cons]
    exact ⟨description, active, orderNumberGiven, List.forall_mem_nil _⟩

/-- Items fill the fields of a revision where they list the revision. -/
theorem revisionFields_listedBy_iff {r : Revision} :
    revisionFields.ListedBy r items ↔ r.IsListedBy items := by
  constructor
  · rintro ⟨p, lists, finished⟩
    obtain ⟨sameDescription, sameActive, sameOrderNumber⟩ :=
      Revision.finish?_eq_some_iff.mp finished
    simp only [revisionFields] at lists
    cases lists with
    | done spare => exact Presence.noConfusion (spare _ List.mem_cons_self)
    | next isDescription lists =>
      cases lists with
      | done spare => exact Presence.noConfusion (spare _ List.mem_cons_self)
      | next isActive lists =>
        cases lists with
        | done =>
          cases Option.some.inj sameDescription
          cases Option.some.inj sameActive
          exact .two isDescription isActive sameOrderNumber
        | next isOrderNumber lists =>
          cases lists
          cases Option.some.inj sameDescription
          cases Option.some.inj sameActive
          cases sameOrderNumber
          exact .three isDescription isActive isOrderNumber
  · intro listed
    cases listed with
    | two isDescription isActive orderNumber =>
      exact ⟨⟨some r.description, some r.active, none⟩,
        .next isDescription (.next isActive (.done (by simp [SlotField.of, Json.slot]))),
        Revision.finish?_eq_some_iff.mpr ⟨rfl, rfl, orderNumber⟩⟩
    | three isDescription isActive isOrderNumber =>
      exact ⟨⟨some r.description, some r.active, some r.orderNumber⟩,
        .next isDescription (.next isActive (.next isOrderNumber (.done (List.forall_mem_nil _)))),
        Revision.finish?_eq_some_iff.mpr ⟨rfl, rfl, rfl⟩⟩

/-- A body is decoded as a revision exactly where it holds an object that gives it or an array that
lists it. -/
theorem Revision.decode_eq_ok_iff {r : Revision} :
    Revision.decode body = .ok r ↔ Holds (fun document =>
      (∃ members, IsObject members document ∧ r.IsGivenBy members) ∨
        ∃ items, IsArray items document ∧ r.IsListedBy items) body := by
  simp only [← revisionFields_givenBy_iff, ← revisionFields_listedBy_iff]
  exact Json.decode_eq_ok_iff revisionFields

/-- The keys that give the fields of a draft. -/
def draftKeys : List String := ["name", "description", "active", "order_number"]

/-- The keys that give the fields of a revision. -/
def revisionKeys : List String := ["description", "active", "order_number"]

/-- Every body is decoded as what it says and nothing else is decoded. Members of an object with
other keys make no difference, nor does the order of the members, and what stands between tokens is
in no member. A revision that does not say whether the status is active is refused. -/
theorem bodies_are_decoded_exactly :
    (∀ (body : List UInt8) (d : Draft), Draft.decode body = .ok d ↔ Holds (fun document =>
      (∃ members, IsObject members document ∧ d.IsGivenBy members) ∨
        ∃ items, IsArray items document ∧ d.IsListedBy items) body) ∧
    (∀ (body : List UInt8) (r : Revision), Revision.decode body = .ok r ↔ Holds (fun document =>
      (∃ members, IsObject members document ∧ r.IsGivenBy members) ∨
        ∃ items, IsArray items document ∧ r.IsListedBy items) body) ∧
    (∀ (members others : List (String × List UInt8)) (body other : List UInt8),
      Holds (IsObject members) body → Holds (IsObject others) other →
      ((members.filter fun member => member.1 ∈ draftKeys).Perm
          (others.filter fun member => member.1 ∈ draftKeys) →
        ∀ d, Draft.decode body = .ok d ↔ Draft.decode other = .ok d) ∧
      ((members.filter fun member => member.1 ∈ revisionKeys).Perm
          (others.filter fun member => member.1 ∈ revisionKeys) →
        ∀ r, Revision.decode body = .ok r ↔ Revision.decode other = .ok r)) ∧
    (∀ (members : List (String × List UInt8)) (body : List UInt8), Holds (IsObject members) body →
      (∀ member ∈ members, member.1 ≠ "active") → ∀ r, Revision.decode body ≠ .ok r) ∧
    ∀ (items : List (List UInt8)) (body : List UInt8), Holds (IsArray items) body →
      items.length < 2 → ∀ r, Revision.decode body ≠ .ok r := by
  refine ⟨fun body d => Draft.decode_eq_ok_iff, fun body r => Revision.decode_eq_ok_iff,
    fun members others body other holds holdsOther => ⟨?draft, ?revision⟩, ?silent, ?short⟩
  case draft =>
    intro perm d
    have known : ∀ field ∈ draftFields.fields.map SlotField.toRecordField, ∀ name ∈ field.names,
        name ∈ draftKeys := by
      simp [draftFields, SlotField.of, draftKeys]
    exact (decode_object_iff draftFields holds).trans
      ((draftFields.givenBy_perm_iff known perm).trans
        (decode_object_iff draftFields holdsOther).symm)
  case revision =>
    intro perm r
    have known : ∀ field ∈ revisionFields.fields.map SlotField.toRecordField, ∀ name ∈ field.names,
        name ∈ revisionKeys := by
      simp [revisionFields, SlotField.of, revisionKeys]
    exact (decode_object_iff revisionFields holds).trans
      ((revisionFields.givenBy_perm_iff known perm).trans
        (decode_object_iff revisionFields holdsOther).symm)
  case silent =>
    intro members body holds absent r decoded
    have given := revisionFields_givenBy_iff.mp
      ((decode_object_iff revisionFields holds).mp decoded)
    obtain ⟨value, one, -⟩ := given.active
    have nothing : valuesOf ["active"] members = [] := by
      rw [valuesOf, List.map_eq_nil_iff, List.filter_eq_nil_iff]
      simpa using absent
    rw [nothing] at one
    cases one
  case short =>
    intro items body holds short r decoded
    have listed := revisionFields_listedBy_iff.mp
      ((decode_array_iff revisionFields holds).mp decoded)
    cases listed <;> simp at short

namespace Sample

/-- Members that give a draft, one of them among them that nobody reads. -/
def scatteredMembers : List (String × List UInt8) := [("order_number", Utf8.octets "-5"),
  ("id", Utf8.octets "[7]"), ("name", Utf8.octets "\"a\""), ("description", Utf8.octets "\"b\"")]

/-- A body with these members. -/
def scattered : List UInt8 :=
  Utf8.octets " \x7b\"order_number\":-5,\"id\":[7],\"name\":\"a\",\"description\":\"b\"\x7d"

/-- The members that are read, in another order. -/
def gatheredMembers : List (String × List UInt8) := [("name", Utf8.octets "\"a\""),
  ("description", Utf8.octets "\"b\""), ("order_number", Utf8.octets "-5")]

/-- A body with these members. -/
def gathered : List UInt8 :=
  Utf8.octets "\x7b\"name\":\"a\",\"description\":\"b\",\"order_number\":-5\x7d"

/-- A member whose key is written as it is. -/
theorem readMember_plain {key : String} (value : List UInt8)
    (plain : ((Utf8.octets key).all fun b => b ≠ 0x22 ∧ b ≠ 0x5C ∧ ¬b < 0x20) = true) :
    ReadMember (key, value) (0x22 :: (Utf8.octets key ++ 0x22 :: 0x3A :: value)) := by
  have literal : Literal (Utf8.octets key) (Utf8.octets key) := by
    generalize Utf8.octets key = octets at plain
    induction octets with
    | nil => exact .nil
    | cons b later ih =>
      rw [List.all_cons, Bool.and_eq_true, decide_eq_true_eq] at plain
      exact .plain plain.1 (ih plain.2)
  exact ⟨_, value, ⟨[], _, [], isBlank_nil, literal, isBlank_nil, rfl⟩, ⟨[], isBlank_nil, rfl⟩,
    by simp⟩

/-- A string of one plain character. -/
theorem stringText_single {b : UInt8} {s : String} (plain : b ≠ 0x22 ∧ b ≠ 0x5C ∧ ¬b < 0x20)
    (single : Utf8.octets s = [b]) : StringText [0x22, b, 0x22] s :=
  ⟨[b], single ▸ .plain plain .nil, rfl⟩

/-- The members of the first body are values. -/
theorem scattered_values : ∀ member ∈ scatteredMembers, IsValue member.2 := by
  have number : IsValue (Utf8.octets "-5") := exact_int32.isValue (a := -5) (by rfl)
  have inner : IsValue (Utf8.octets "7") := exact_int32.isValue (a := 7) (by rfl)
  have form : Entries ItemText 0x5D .opened [Utf8.octets "7"] (Utf8.octets "7" ++ [0x5D]) :=
    .first ⟨[], isBlank_nil, rfl⟩ (.last isBlank_nil)
  have list : IsValue (0x5B :: (Utf8.octets "7" ++ [0x5D])) :=
    .bracket (b := .array) form (List.forall_mem_singleton.mpr inner)
  have name : IsValue (Utf8.octets "\"a\"") :=
    exact_string.isValue (stringText_single (s := "a") (by decide) rfl)
  have description : IsValue (Utf8.octets "\"b\"") :=
    exact_string.isValue (stringText_single (s := "b") (by decide) rfl)
  simp only [scatteredMembers, List.forall_mem_cons]
  exact ⟨number, list, name, description, List.forall_mem_nil _⟩

/-- The first body holds its members. -/
theorem scattered_holds : Holds (IsObject scatteredMembers) scattered := by
  have form : Entries ReadMember 0x7D .opened scatteredMembers _ :=
    .first (readMember_plain _ (by decide)) (.next isBlank_nil (readMember_plain _ (by decide))
      (.next isBlank_nil (readMember_plain _ (by decide)) (.next isBlank_nil
        (readMember_plain _ (by decide)) (.last isBlank_nil))))
  exact ⟨[0x20], _, [], by simp [IsBlank], ⟨_, rfl, form, scattered_values⟩, isBlank_nil, by decide⟩

/-- The second body holds its members. -/
theorem gathered_holds : Holds (IsObject gatheredMembers) gathered := by
  have form : Entries ReadMember 0x7D .opened gatheredMembers _ :=
    .first (readMember_plain _ (by decide)) (.next isBlank_nil (readMember_plain _ (by decide))
      (.next isBlank_nil (readMember_plain _ (by decide)) (.last isBlank_nil)))
  have values : ∀ member ∈ gatheredMembers, IsValue member.2 := by
    obtain ⟨number, -, name, description, -⟩ := by
      simpa only [scatteredMembers, List.forall_mem_cons] using scattered_values
    simp only [gatheredMembers, List.forall_mem_cons]
    exact ⟨name, description, number, List.forall_mem_nil _⟩
  exact ⟨[], _, [], isBlank_nil, ⟨_, rfl, form, values⟩, isBlank_nil, by decide⟩

/-- A body with too few items. -/
def lonely : List UInt8 := Utf8.octets "[\"b\"]"

/-- The body holds its item. -/
theorem lonely_holds : Holds (IsArray [Utf8.octets "\"b\""]) lonely := by
  have form : Entries ItemText 0x5D .opened [Utf8.octets "\"b\""] (Utf8.octets "\"b\"" ++ [0x5D]) :=
    .first ⟨[], isBlank_nil, rfl⟩ (.last isBlank_nil)
  have value : IsValue (Utf8.octets "\"b\"") :=
    exact_string.isValue (stringText_single (s := "b") (by decide) rfl)
  exact ⟨[], _, [], isBlank_nil, ⟨_, rfl, form, List.forall_mem_singleton.mpr value⟩, isBlank_nil,
    by decide⟩

/-- A body with an octet that belongs to no text, in a member that nobody reads. -/
def stray : List UInt8 :=
  Utf8.octets "\x7b\"name\":\"a\",\"description\":\"b\",\"x\":\"" ++ [0xFF, 0x22, 0x7D]

/-- A body with a key that has half of a surrogate pair. -/
def unpaired : List UInt8 :=
  Utf8.octets "\x7b\"name\":\"a\",\"description\":\"b\",\"\\ud800\":0\x7d"

end Sample

open Sample in
/-- Two bodies with the same members in different orders are decoded as one draft, and neither is a
revision; an array without an item for every required field is none either. -/
theorem scattered_body_is_decoded :
    (Holds (IsObject scatteredMembers) scattered ∧ Holds (IsObject gatheredMembers) gathered ∧
      (scatteredMembers.filter fun member => member.1 ∈ draftKeys).Perm
        (gatheredMembers.filter fun member => member.1 ∈ draftKeys) ∧
      Draft.decode scattered = .ok ⟨"a", "b", true, -5⟩) ∧
    ((scatteredMembers.filter fun member => member.1 ∈ revisionKeys).Perm
        (gatheredMembers.filter fun member => member.1 ∈ revisionKeys) ∧
      ∀ r, Revision.decode scattered = .ok r ↔ Revision.decode gathered = .ok r) ∧
    ((∀ member ∈ scatteredMembers, member.1 ≠ "active") ∧
      ∀ r, Revision.decode scattered ≠ .ok r) ∧
    Holds (IsArray [Utf8.octets "\"b\""]) lonely ∧ [Utf8.octets "\"b\""].length < 2 ∧
      ∀ r, Revision.decode lonely ≠ .ok r := by
  obtain ⟨-, -, alike, silent, short⟩ := bodies_are_decoded_exactly
  obtain ⟨draft, revision⟩ := alike _ _ _ _ scattered_holds gathered_holds
  have draftPerm : (scatteredMembers.filter fun member => member.1 ∈ draftKeys).Perm
      (gatheredMembers.filter fun member => member.1 ∈ draftKeys) := by decide
  have revisionPerm : (scatteredMembers.filter fun member => member.1 ∈ revisionKeys).Perm
      (gatheredMembers.filter fun member => member.1 ∈ revisionKeys) := by decide
  have decoded : Draft.decode gathered = .ok ⟨"a", "b", true, -5⟩ := rfl
  exact ⟨⟨scattered_holds, gathered_holds, draftPerm, (draft draftPerm _).mpr decoded⟩,
    ⟨revisionPerm, revision revisionPerm⟩,
    ⟨by decide, silent _ _ scattered_holds (by decide)⟩,
    lonely_holds, by decide, short _ _ lonely_holds (by decide)⟩

/-- A body that is decoded need not be a text, because nobody reads what other members hold; and a
body with the form of JSON is refused if one of its keys stands for no text. -/
theorem unread_strings_need_not_be_text :
    (Draft.decode Sample.stray = .ok ⟨"a", "b", true, 0⟩ ∧ ¬∃ s, Sample.stray = Utf8.octets s) ∧
      Holds IsValue Sample.unpaired ∧ ∀ d, Draft.decode Sample.unpaired ≠ .ok d := by
  refine ⟨⟨rfl, ?_⟩, ?_, fun d decoded => ?_⟩
  · rintro ⟨s, same⟩
    have read := Utf8.string?_eq_some_iff.mpr same
    have refused : Utf8.string? Sample.stray = none := by decide
    rw [refused] at read
    cases read
  · have passed : pass 20 .value [] Sample.unpaired = some [] := rfl
    obtain ⟨value, _, isValue, ⟨blank, isBlank, rfl⟩, whole⟩ := exists_value_of_pass passed
    exact ⟨blank, value, [], isBlank, isValue, isBlank_nil, by simpa using whole⟩
  · have refused : Draft.decode Sample.unpaired = .error .malformed := rfl
    rw [refused] at decoded
    cases decoded

end StatusRegistry
