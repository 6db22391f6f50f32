import Mathlib.Data.List.Pairwise

/-!
# Records filled by key

A record is filled from a list of keyed values, one after the other, and values with unknown keys
are passed over. What that leaves in a field depends only on the values with a key of the field:
none leaves the field as it was, one is read into an empty field, and there may not be two.
-/

namespace StatusRegistry

variable {α β σ : Type} {key : String} {pairs : List (String × β)}

/-- The values that some pairs give to a field of some names, in the order of the pairs. -/
def valuesOf (names : List String) (pairs : List (String × β)) : List β :=
  (pairs.filter fun pair => pair.1 ∈ names).map Prod.snd

/-- A pair with one of the names gives its value first. -/
theorem valuesOf_cons_of_mem {names : List String} (member : key ∈ names)
    (value : β) (pairs : List (String × β)) :
    valuesOf names ((key, value) :: pairs) = value :: valuesOf names pairs := by
  rw [valuesOf, List.filter_cons_of_pos (by simpa using member), List.map_cons, valuesOf]

/-- A pair with another key gives nothing. -/
theorem valuesOf_cons_of_not_mem {names : List String} (absent : key ∉ names)
    (value : β) (pairs : List (String × β)) :
    valuesOf names ((key, value) :: pairs) = valuesOf names pairs := by
  rw [valuesOf, List.filter_cons_of_neg (by simpa using absent), valuesOf]

/-- Some pairs give a field of some names a value, written in one way or another, or give it
none. -/
def Gives (Reads : β → α → Prop) (names : List String) (pairs : List (String × β)) :
    Option α → Prop
  | none => valuesOf names pairs = []
  | some a => ∃ value, valuesOf names pairs = [value] ∧ Reads value a

/-- What is given under one reading is given under a wider one. -/
theorem Gives.imp {Reads Wider : β → α → Prop} (wider : ∀ value a, Reads value a → Wider value a)
    {names : List String} {given : Option α} (gives : Gives Reads names pairs given) :
    Gives Wider names pairs given := by
  cases given with
  | none => exact gives
  | some a =>
    obtain ⟨value, one, reads⟩ := gives
    exact ⟨value, one, wider value a reads⟩

/-- The order of the pairs does not matter, nor do pairs with keys that are not known. -/
theorem Gives.of_perm {Reads : β → α → Prop} {names known : List String} {given : Option α}
    {others : List (String × β)} (among : ∀ name ∈ names, name ∈ known)
    (perm : (pairs.filter fun pair => pair.1 ∈ known).Perm
      (others.filter fun pair => pair.1 ∈ known)) (gives : Gives Reads names pairs given) :
    Gives Reads names others given := by
  have values (pairs : List (String × β)) : valuesOf names pairs =
      valuesOf names (pairs.filter fun pair => pair.1 ∈ known) := by
    rw [valuesOf, valuesOf, List.filter_filter]
    refine congrArg (List.map Prod.snd) (List.filter_congr fun pair _ => ?_)
    by_cases named : pair.1 ∈ names
    · simp [named, among _ named]
    · simp [named]
  have same : (valuesOf names pairs).Perm (valuesOf names others) := by
    rw [values pairs, values others]
    exact (perm.filter _).map _
  cases given with
  | none =>
    have nothing : valuesOf names pairs = [] := gives
    rw [nothing] at same
    exact List.nil_perm.mp same
  | some a =>
    obtain ⟨value, one, reads⟩ := gives
    rw [one] at same
    exact ⟨value, (List.singleton_perm.mp same).symm, reads⟩

variable {Reads : β → α → Prop} {before after : Option α} {values : List β}

/-- What becomes of a field that is given some values, one after the other. -/
def Settles (Reads : β → α → Prop) : Option α → List β → Option α → Prop
  | before, [], after => before = after
  | before, value :: later, after =>
    before = none ∧ ∃ a, Reads value a ∧ Settles Reads (some a) later after

/-- A field is given at most one value. -/
theorem Settles.length_le (settles : Settles Reads before values after) : values.length ≤ 1 := by
  rcases values with _ | ⟨value, _ | ⟨next, later⟩⟩
  · exact Nat.zero_le 1
  · exact Nat.le_refl 1
  · obtain ⟨-, a, -, full, -⟩ := settles
    cases full

/-- An empty field becomes what the pairs give it. -/
theorem settles_none_iff {names : List String} :
    Settles Reads none (valuesOf names pairs) after ↔ Gives Reads names pairs after := by
  cases after with
  | none =>
    constructor
    · intro settles
      cases values : valuesOf names pairs with
      | nil => exact values
      | cons value later =>
        rw [values] at settles
        obtain ⟨-, a, -, settles⟩ := settles
        cases later with
        | nil => cases settles
        | cons next later => cases settles.1
    · intro nothing
      rw [show valuesOf names pairs = [] from nothing]
      rfl
  | some a =>
    constructor
    · intro settles
      cases values : valuesOf names pairs with
      | nil => rw [values] at settles; cases settles
      | cons value later =>
        rw [values] at settles
        obtain ⟨-, b, reads, settles⟩ := settles
        cases later with
        | nil => cases settles; exact ⟨value, values, reads⟩
        | cons next later => cases settles.1
    · rintro ⟨value, one, reads⟩
      rw [one]
      exact ⟨rfl, a, reads, rfl⟩

/-- A field of a record: the keys it answers to, what it reads, and where it keeps it. -/
structure RecordField (β σ : Type) where
  names : List String
  {α : Type}
  /-- What a value is read as. -/
  Reads : β → α → Prop
  get : σ → Option α
  put : α → σ → σ
  get_put : ∀ a record, get (put a record) = some a

/-- Two fields share neither a name nor a place. -/
structure RecordField.Apart (field other : RecordField β σ) : Prop where
  names : ∀ name ∈ field.names, name ∉ other.names
  left : ∀ a record, other.get (field.put a record) = other.get record
  right : ∀ a record, field.get (other.put a record) = field.get record

/-- Being apart goes both ways. -/
instance : Std.Symm (RecordField.Apart (β := β) (σ := σ)) where
  symm _ _ apart := ⟨fun name inOther inField => apart.names name inField inOther, apart.right,
    apart.left⟩

/-- A record is filled from pairs, in their order. -/
inductive Collects (fields : List (RecordField β σ)) : σ → List (String × β) → σ → Prop
  | nil {record} : Collects fields record [] record
  | skip {record result key value pairs} (unknown : ∀ field ∈ fields, key ∉ field.names)
    (later : Collects fields record pairs result) :
    Collects fields record ((key, value) :: pairs) result
  | fill {record result key value pairs} {field : RecordField β σ} {a : field.α}
    (member : field ∈ fields) (named : key ∈ field.names) (empty : field.get record = none)
    (reads : field.Reads value a) (later : Collects fields (field.put a record) pairs result) :
    Collects fields record ((key, value) :: pairs) result

variable {fields : List (RecordField β σ)} {record result : σ}

/-- Fields are the same or apart. -/
theorem RecordField.eq_or_apart (apart : fields.Pairwise RecordField.Apart)
    {field other : RecordField β σ} (member : field ∈ fields) (otherMember : other ∈ fields) :
    field = other ∨ field.Apart other := by
  by_cases same : field = other
  · exact .inl same
  · exact .inr (apart.forall member otherMember same)

/-- Only one field answers to a key. -/
theorem RecordField.eq_of_named (apart : fields.Pairwise RecordField.Apart)
    {field other : RecordField β σ} (member : field ∈ fields) (otherMember : other ∈ fields)
    (named : key ∈ field.names) (otherNamed : key ∈ other.names) : field = other := by
  rcases RecordField.eq_or_apart apart member otherMember with same | apart
  · exact same
  · exact absurd otherNamed (apart.names key named)

/-- Every field of a filled record is settled by the values that the pairs give to it. -/
theorem Collects.settles (apart : fields.Pairwise RecordField.Apart)
    (collects : Collects fields record pairs result) :
    ∀ field ∈ fields, Settles field.Reads (field.get record) (valuesOf field.names pairs)
      (field.get result) := by
  induction collects with
  | nil => exact fun field _ => rfl
  | skip unknown later ih =>
    intro field member
    rw [valuesOf_cons_of_not_mem (unknown field member)]
    exact ih field member
  | @fill record result key value pairs filled a present named empty reads later ih =>
    intro field member
    have settles := ih field member
    rcases RecordField.eq_or_apart apart present member with rfl | apart
    · rw [valuesOf_cons_of_mem named, empty]
      rw [filled.get_put] at settles
      exact ⟨rfl, a, reads, settles⟩
    · rw [valuesOf_cons_of_not_mem (apart.names key named)]
      rw [apart.left] at settles
      exact settles

/-- A record is filled as soon as every field of it is settled, if it is nothing but its fields. -/
theorem collects_of_settles (apart : fields.Pairwise RecordField.Apart)
    (whole : ∀ a b : σ, (∀ field ∈ fields, field.get a = field.get b) → a = b)
    (settles : ∀ field ∈ fields,
      Settles field.Reads (field.get record) (valuesOf field.names pairs) (field.get result)) :
    Collects fields record pairs result := by
  induction pairs generalizing record with
  | nil =>
    obtain rfl := whole record result settles
    exact .nil
  | cons pair pairs ih =>
    obtain ⟨key, value⟩ := pair
    by_cases known : ∃ field ∈ fields, key ∈ field.names
    · obtain ⟨filled, present, named⟩ := known
      have settled := settles filled present
      rw [valuesOf_cons_of_mem named] at settled
      obtain ⟨empty, a, reads, settled⟩ := settled
      refine .fill present named empty reads (ih fun field member => ?_)
      rcases RecordField.eq_or_apart apart present member with rfl | apart
      · rw [filled.get_put]
        exact settled
      · have settles := settles field member
        rw [valuesOf_cons_of_not_mem (apart.names key named)] at settles
        rw [apart.left]
        exact settles
    · have unknown : ∀ field ∈ fields, key ∉ field.names :=
        fun field member named => known ⟨field, member, named⟩
      refine .skip unknown (ih fun field member => ?_)
      have settles := settles field member
      rwa [valuesOf_cons_of_not_mem (unknown field member)] at settles

/-- An empty record is filled exactly where the pairs give every field what it then keeps. -/
theorem collects_iff_gives (apart : fields.Pairwise RecordField.Apart)
    (whole : ∀ a b : σ, (∀ field ∈ fields, field.get a = field.get b) → a = b)
    (empty : ∀ field ∈ fields, field.get record = none) :
    Collects fields record pairs result ↔
      ∀ field ∈ fields, Gives field.Reads field.names pairs (field.get result) := by
  constructor
  · intro collects field member
    have settles := collects.settles apart field member
    rwa [empty field member, settles_none_iff] at settles
  · intro gives
    refine collects_of_settles apart whole fun field member => ?_
    rw [empty field member]
    exact settles_none_iff.mpr (gives field member)

end StatusRegistry
