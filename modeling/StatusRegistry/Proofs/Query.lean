import StatusRegistry.Proofs.Fields
import StatusRegistry.Proofs.Page
import StatusRegistry.Proofs.Text.Form
import StatusRegistry.Proofs.Text.Integer
import StatusRegistry.Status.Query

/-!
# Query strings

What a caller chooses comes back out of the query string that says so: neither the order of the
pairs, nor how their texts are written, nor pairs with other keys make a difference. Every page that
is asked for is within bounds, and no parameter may be given twice under any of its names.
-/

namespace StatusRegistry

variable {α σ : Type} {pairs : List (String × String)}

/-- A parameter with the field of the record that it fills. -/
structure ParameterField (σ : Type) extends RecordField String σ where
  parameter : Parameter σ
  names_eq : names = parameter.name :: parameter.aliases
  isSet_eq : ∀ record, parameter.isSet record = (get record).isSome
  set_eq_ok_iff : ∀ value set, parameter.set value = .ok set ↔ ∃ a, Reads value a ∧ put a = set

namespace ParameterField

/-- A parameter that is set to what a function reads. -/
def of (parameter : Parameter σ) (read : String → Except ValueProblem α) (get : σ → Option α)
    (put : α → σ → σ) (isSet : ∀ record, parameter.isSet record = (get record).isSome)
    (set : ∀ value, parameter.set value = (read value).map put)
    (kept : ∀ a record, get (put a record) = some a) : ParameterField σ where
  names := parameter.name :: parameter.aliases
  Reads value a := read value = .ok a
  get := get
  put := put
  get_put := kept
  parameter := parameter
  names_eq := rfl
  isSet_eq := isSet
  set_eq_ok_iff := by
    intro value filled
    rw [set]
    cases read value with
    | error problem => exact ⟨nofun, nofun⟩
    | ok a =>
      constructor
      · exact fun same => ⟨a, rfl, Except.ok.inj same⟩
      · rintro ⟨_, ⟨⟩, rfl⟩
        rfl

/-- A parameter answers to its names. -/
theorem answersTo_iff {field : ParameterField σ} {key : String} :
    field.parameter.answersTo key = true ↔ key ∈ field.names := by
  rw [Parameter.answersTo, field.names_eq, List.mem_cons, Bool.or_eq_true, beq_iff_eq,
    List.contains_iff_mem]

variable {fields : List (ParameterField σ)} {record result : σ}

/-- A key finds a parameter that it names. -/
theorem named_of_find {key : String} {p : Parameter σ}
    (found : (fields.map parameter).find? (·.answersTo key) = some p) :
    ∃ field ∈ fields, field.parameter = p ∧ key ∈ field.names := by
  obtain ⟨field, member, rfl⟩ := List.mem_map.mp (List.mem_of_find?_eq_some found)
  have answers : field.parameter.answersTo key = true :=
    List.find?_some (p := fun q : Parameter σ => q.answersTo key) found
  exact ⟨field, member, rfl, answersTo_iff.mp answers⟩

/-- A key that finds no parameter is a name of none. -/
theorem find_eq_none_iff {key : String} :
    (fields.map parameter).find? (·.answersTo key) = none ↔
      ∀ field ∈ fields.map toRecordField, key ∉ field.names := by
  rw [List.find?_eq_none, List.forall_mem_map, List.forall_mem_map]
  exact forall₂_congr fun field _ => not_congr answersTo_iff

/-- Reading the parameters among some pairs fills the record with those pairs. -/
theorem readParameters_eq_ok_iff
    (apart : (fields.map toRecordField).Pairwise RecordField.Apart) :
    readParameters (fields.map parameter) pairs record = .ok result ↔
      Collects (fields.map toRecordField) record pairs result := by
  constructor
  case mp =>
    -- The pairs are read one by one; `record` is what those before have left.
    intro read
    induction pairs generalizing record with
    | nil =>
      obtain rfl := Except.ok.inj read
      exact .nil
    | cons pair pairs ih =>
      obtain ⟨key, value⟩ := pair
      rw [readParameters] at read
      split at read
      case h_1 missed => exact .skip (find_eq_none_iff.mp missed) (ih read)
      case h_2 p found =>
        obtain ⟨field, member, rfl, named⟩ := named_of_find found
        split at read
        case isTrue => cases read
        case isFalse unset =>
          rw [field.isSet_eq, Bool.not_eq_true, Option.isSome_eq_false_iff,
            Option.isNone_iff_eq_none] at unset
          split at read
          case h_1 => cases read
          case h_2 set given =>
            obtain ⟨a, reads, rfl⟩ := (field.set_eq_ok_iff value set).mp given
            exact .fill (List.mem_map_of_mem member) named unset reads (ih read)
  case mpr =>
    intro collects
    induction collects with
    | nil => rfl
    | @skip record result key value pairs unknown later ih =>
      rw [readParameters, find_eq_none_iff.mpr unknown]
      exact ih
    | @fill record result key value pairs field a member named empty reads later ih =>
      cases found : (fields.map parameter).find? (·.answersTo key) with
      | none => exact absurd named (find_eq_none_iff.mp found field member)
      | some p =>
        obtain ⟨read, present, rfl, answers⟩ := named_of_find found
        obtain rfl :=
          RecordField.eq_of_named apart member (List.mem_map_of_mem present) named answers
        rw [readParameters, found]
        dsimp only
        rw [read.isSet_eq, empty, (read.set_eq_ok_iff value _).mpr ⟨a, reads, rfl⟩]
        exact ih

/-- A record cannot be read from two values for one parameter. -/
theorem error_of_twice (apart : (fields.map toRecordField).Pairwise RecordField.Apart)
    {field : ParameterField σ} (member : field ∈ fields)
    (twice : 2 ≤ (valuesOf field.names pairs).length) (record : σ) :
    ∃ problem, readParameters (fields.map parameter) pairs record = .error problem := by
  cases read : readParameters (fields.map parameter) pairs record with
  | error problem => exact ⟨problem, rfl⟩
  | ok result =>
    have collects := (readParameters_eq_ok_iff apart).mp read
    have once := (collects.settles apart _ (List.mem_map_of_mem member)).length_le
    exact absurd (Nat.le_trans twice once) (by decide)

end ParameterField

/-- The texts that spell an unsigned word. -/
def SpellsUInt32 (text : String) (n : UInt32) : Prop := SpellsNat text.toList n.toNat

/-- The texts that spell a signed word. -/
def SpellsInt32 (text : String) (n : Int32) : Prop := SpellsInt text.toList n.toInt

/-- The text that spells a boolean. -/
def SpellsBool (text : String) (b : Bool) : Prop := text = if b then "true" else "false"

/-- Some pairs give the parameters of a page. -/
structure PageParameters.AreGiven (chosen : PageParameters) (pairs : List (String × String)) :
    Prop where
  page : Gives SpellsUInt32 ["page"] pairs chosen.page
  size : Gives SpellsUInt32 ["size"] pairs chosen.size
  orderBy : Gives (· = ·) ["order_by", "orderBy"] pairs chosen.orderBy

/-- Some pairs give the parameters of a filter. -/
structure Filter.IsGiven (chosen : Filter) (pairs : List (String × String)) : Prop where
  name : Gives (· = ·) ["name"] pairs chosen.name
  description : Gives (· = ·) ["description"] pairs chosen.description
  active : Gives SpellsBool ["active"] pairs chosen.active
  orderNumber : Gives SpellsInt32 ["order_number"] pairs chosen.orderNumber

/-- The parameters of a page with their fields. -/
def pageFields : List (ParameterField PageParameters) := [
  .of pageParameters[0] (fun v => asValue (readUInt32 v)) (·.page)
    (fun n r => { r with page := some n }) (fun _ => rfl) (fun _ => rfl) (fun _ _ => rfl),
  .of pageParameters[1] (fun v => asValue (readUInt32 v)) (·.size)
    (fun n r => { r with size := some n }) (fun _ => rfl) (fun _ => rfl) (fun _ _ => rfl),
  .of pageParameters[2] .ok (·.orderBy)
    (fun v r => { r with orderBy := some v }) (fun _ => rfl) (fun _ => rfl) (fun _ _ => rfl)]

/-- No two parameters of a page share a name or a field. -/
theorem pageFields_apart :
    (pageFields.map ParameterField.toRecordField).Pairwise RecordField.Apart := by
  simp only [pageFields, List.map_cons, List.map_nil, List.pairwise_cons, List.forall_mem_cons,
    List.Pairwise.nil]
  refine ⟨⟨?_, ?_, List.forall_mem_nil _⟩, ⟨?_, List.forall_mem_nil _⟩, List.forall_mem_nil _,
    trivial⟩ <;>
    exact ⟨by decide, fun _ _ => rfl, fun _ _ => rfl⟩

/-- The page that some pairs give is read. -/
theorem readPage_of_areGiven {chosen : PageParameters} (given : chosen.AreGiven pairs) :
    readPage pairs = .ok (PageRequest.make chosen.page chosen.size chosen.orderBy) := by
  have whole (a b : PageParameters) (same : ∀ field ∈ pageFields.map ParameterField.toRecordField,
      field.get a = field.get b) : a = b := by
    simp only [pageFields, List.map_cons, List.map_nil, List.forall_mem_cons] at same
    obtain ⟨page, size, orderBy, -⟩ := same
    cases a
    cases b
    exact PageParameters.mk.injEq .. ▸ ⟨page, size, orderBy⟩
  have read : readParameters (pageFields.map ParameterField.parameter) pairs {} = .ok chosen := by
    refine (ParameterField.readParameters_eq_ok_iff pageFields_apart).mpr ?_
    refine (collects_iff_gives pageFields_apart whole ?_).mpr ?_
    · simp [pageFields, ParameterField.of]
    simp only [pageFields, List.map_cons, List.map_nil, List.forall_mem_cons]
    refine ⟨given.page.imp ?_, given.size.imp ?_, given.orderBy.imp ?_,
      List.forall_mem_nil _⟩
    · exact fun text n spells => congrArg asValue spells.readUInt32_eq
    · exact fun text n spells => congrArg asValue spells.readUInt32_eq
    · exact fun text _ same => congrArg Except.ok same
  exact congrArg (Except.map _) read

/-- The parameters of a filter with their fields. -/
def filterFields : List (ParameterField Filter) := [
  .of filterParameters[0] .ok (·.name)
    (fun v r => { r with name := some v }) (fun _ => rfl) (fun _ => rfl) (fun _ _ => rfl),
  .of filterParameters[1] .ok (·.description)
    (fun v r => { r with description := some v }) (fun _ => rfl) (fun _ => rfl) (fun _ _ => rfl),
  .of filterParameters[2] readBoolean (·.active)
    (fun b r => { r with active := some b }) (fun _ => rfl) (fun _ => rfl) (fun _ _ => rfl),
  .of filterParameters[3] (fun v => asValue (readInt32 v)) (·.orderNumber)
    (fun n r => { r with orderNumber := some n }) (fun _ => rfl) (fun _ => rfl) (fun _ _ => rfl)]

/-- No two parameters of a filter share a name or a field. -/
theorem filterFields_apart :
    (filterFields.map ParameterField.toRecordField).Pairwise RecordField.Apart := by
  simp only [filterFields, List.map_cons, List.map_nil, List.pairwise_cons, List.forall_mem_cons,
    List.Pairwise.nil]
  refine ⟨⟨?_, ?_, ?_, List.forall_mem_nil _⟩, ⟨?_, ?_, List.forall_mem_nil _⟩,
    ⟨?_, List.forall_mem_nil _⟩, List.forall_mem_nil _, trivial⟩ <;>
    exact ⟨by decide, fun _ _ => rfl, fun _ _ => rfl⟩

/-- A boolean is read as it is spelled. -/
theorem readBoolean_of_spells {text : String} {b : Bool} (spells : SpellsBool text b) :
    readBoolean text = .ok b := by
  subst spells
  cases b <;> rfl

/-- The filter that some pairs give is read. -/
theorem readFilter_of_isGiven {chosen : Filter} (given : chosen.IsGiven pairs) :
    readParameters filterParameters pairs Filter.all = .ok chosen := by
  have whole (a b : Filter) (same : ∀ field ∈ filterFields.map ParameterField.toRecordField,
      field.get a = field.get b) : a = b := by
    simp only [filterFields, List.map_cons, List.map_nil, List.forall_mem_cons] at same
    obtain ⟨name, description, active, orderNumber, -⟩ := same
    cases a
    cases b
    exact Filter.mk.injEq .. ▸ ⟨name, description, active, orderNumber⟩
  refine (ParameterField.readParameters_eq_ok_iff filterFields_apart).mpr ?_
  refine (collects_iff_gives filterFields_apart whole ?_).mpr ?_
  · simp [filterFields, ParameterField.of, Filter.all]
  simp only [filterFields, List.map_cons, List.map_nil, List.forall_mem_cons]
  refine ⟨given.name.imp ?_, given.description.imp ?_, given.active.imp ?_,
    given.orderNumber.imp ?_, List.forall_mem_nil _⟩
  · exact fun text _ same => congrArg Except.ok same
  · exact fun text _ same => congrArg Except.ok same
  · exact fun text b => readBoolean_of_spells
  · exact fun text n spells => congrArg asValue spells.readInt32_eq

/-- The parameter of a search with its field. -/
def searchFields : List (ParameterField (Option String)) := [
  .of searchParameters[0] .ok id (fun v _ => some v) (fun _ => rfl) (fun _ => rfl) (fun _ _ => rfl)]

/-- The parameter of a search is alone. -/
theorem searchFields_apart :
    (searchFields.map ParameterField.toRecordField).Pairwise RecordField.Apart :=
  List.pairwise_singleton _ _

/-- The text that some pairs give is read. -/
theorem readText_of_gives {chosen : Option String}
    (given : Gives (· = ·) ["text", "title"] pairs chosen) :
    readParameters searchParameters pairs none = .ok chosen := by
  have whole (a b : Option String) (same : ∀ field ∈ searchFields.map ParameterField.toRecordField,
      field.get a = field.get b) : a = b := same _ (List.mem_singleton.mpr rfl)
  refine (ParameterField.readParameters_eq_ok_iff searchFields_apart).mpr ?_
  refine (collects_iff_gives searchFields_apart whole ?_).mpr ?_
  · simp [searchFields, ParameterField.of]
  simp only [searchFields, List.map_cons, List.map_nil, List.forall_mem_cons]
  exact ⟨given.imp fun text _ same => congrArg Except.ok same, List.forall_mem_nil _⟩

variable {query : List UInt8} {request : PageRequest}

/-- A page is read within bounds. -/
theorem isBounded_of_readPage (read : readPage pairs = .ok request) : request.IsBounded := by
  rw [readPage] at read
  cases given : readParameters pageParameters pairs {} with
  | error problem => rw [given] at read; cases read
  | ok chosen =>
    rw [given] at read
    obtain rfl := Except.ok.inj read
    exact PageRequest.make_isBounded _ _ _

/-- A record and a page are read one after the other, from the same pairs. -/
theorem both_eq_ok_iff {σ β : Type} {record : Except QueryProblem σ}
    {page : Except QueryProblem PageRequest} {finish : σ → β} {result : β} :
    (do let given ← record; let request ← page; pure (request, finish given)) =
        Except.ok (request, result) ↔
      ∃ given, record = .ok given ∧ page = .ok request ∧ finish given = result := by
  cases record with
  | error problem => exact ⟨nofun, nofun⟩
  | ok given =>
    cases page with
    | error problem => exact ⟨nofun, nofun⟩
    | ok asked =>
      constructor
      · intro read
        cases Except.ok.inj read
        exact ⟨given, rfl, rfl, rfl⟩
      · rintro ⟨_, ⟨⟩, ⟨⟩, rfl⟩
        rfl

/-- The query string of a listing is a filter and a page. -/
theorem readListQuery_eq_ok_iff {filter : Filter} : readListQuery query = .ok (request, filter) ↔
    ∃ given, readParameters filterParameters (Form.pairs query) Filter.all = .ok given ∧
      readPage (Form.pairs query) = .ok request ∧ given.withoutEmpty = filter :=
  both_eq_ok_iff

/-- The query string of a search is a text and a page. -/
theorem readSearchQuery_eq_ok_iff {text : String} :
    readSearchQuery query = .ok (request, text) ↔
      ∃ given, readParameters searchParameters (Form.pairs query) none = .ok given ∧
        readPage (Form.pairs query) = .ok request ∧ given.getD "" = text :=
  both_eq_ok_iff

/-- Neither a record nor a page can be read from two values for one parameter. -/
theorem both_of_twice {σ β : Type} {fields : List (ParameterField σ)} {start : σ} {finish : σ → β}
    (apart : (fields.map ParameterField.toRecordField).Pairwise RecordField.Apart)
    {names : List String}
    (known : names ∈ (pageFields.map (·.names)) ++ fields.map (·.names))
    (twice : 2 ≤ (valuesOf names pairs).length) :
    ∃ problem, (do
      let given ← readParameters (fields.map ParameterField.parameter) pairs start
      let request ← readPage pairs
      pure (request, finish given)) = Except.error problem := by
  rcases List.mem_append.mp known with ofPage | ofRecord
  · obtain ⟨field, member, rfl⟩ := List.mem_map.mp ofPage
    obtain ⟨problem, failed⟩ := ParameterField.error_of_twice pageFields_apart member twice {}
    have page : readPage pairs = .error problem :=
      congrArg (Except.map fun p : PageParameters => PageRequest.make p.page p.size p.orderBy)
        failed
    rw [page]
    cases readParameters (fields.map ParameterField.parameter) pairs start with
    | error first => exact ⟨first, rfl⟩
    | ok given => exact ⟨problem, rfl⟩
  · obtain ⟨field, member, rfl⟩ := List.mem_map.mp ofRecord
    obtain ⟨problem, failed⟩ := ParameterField.error_of_twice apart member twice start
    rw [failed]
    exact ⟨problem, rfl⟩

/-- The names of the parameters of a listing. -/
def listNames : List (List String) :=
  [["page"], ["size"], ["order_by", "orderBy"], ["name"], ["description"], ["active"],
    ["order_number"]]

/-- The names of the parameters of a search. -/
def searchNames : List (List String) :=
  [["page"], ["size"], ["order_by", "orderBy"], ["text", "title"]]

/-- What is chosen comes back out of every query string that gives it, in whatever order and
spelling, with whatever other pairs in between. An empty name or description restricts nothing. A
query string that gives a parameter twice, under one of its names or under two, is refused. Every
page that a query string asks for is within bounds. -/
theorem queries_are_read_back :
    (∀ (pairs : List (String × String)) (query : List UInt8), Form.WritesPairs pairs query →
      (∀ (page : PageParameters) (filter : Filter), page.AreGiven pairs → filter.IsGiven pairs →
        readListQuery query = .ok (PageRequest.make page.page page.size page.orderBy,
          ⟨filter.name.filter (· ≠ ""), filter.description.filter (· ≠ ""), filter.active,
            filter.orderNumber⟩)) ∧
      (∀ (page : PageParameters) (text : Option String), page.AreGiven pairs →
        Gives (· = ·) ["text", "title"] pairs text →
        readSearchQuery query =
          .ok (PageRequest.make page.page page.size page.orderBy, text.getD "")) ∧
      (∀ names ∈ listNames, 2 ≤ (valuesOf names pairs).length →
        ∃ problem, readListQuery query = .error problem) ∧
      ∀ names ∈ searchNames, 2 ≤ (valuesOf names pairs).length →
        ∃ problem, readSearchQuery query = .error problem) ∧
    ∀ (query : List UInt8) (request : PageRequest),
      (∃ filter, readListQuery query = .ok (request, filter)) ∨
        (∃ text, readSearchQuery query = .ok (request, text)) →
      1 ≤ request.page.toNat ∧ 1 ≤ request.size.toNat ∧ request.size.toNat ≤ 100 := by
  refine ⟨fun pairs query writes => ?_, fun query request read => ?bounds⟩
  · obtain rfl := writes.pairs_eq
    refine ⟨?list, ?search, fun names known twice => both_of_twice filterFields_apart known twice,
      fun names known twice => both_of_twice searchFields_apart known twice⟩
    case list =>
      intro page filter pageGiven filterGiven
      exact readListQuery_eq_ok_iff.mpr
        ⟨filter, readFilter_of_isGiven filterGiven, readPage_of_areGiven pageGiven, rfl⟩
    case search =>
      intro page text pageGiven textGiven
      exact readSearchQuery_eq_ok_iff.mpr
        ⟨text, readText_of_gives textGiven, readPage_of_areGiven pageGiven, rfl⟩
  case bounds =>
    have page : readPage (Form.pairs query) = .ok request := by
      rcases read with ⟨filter, read⟩ | ⟨text, read⟩
      · obtain ⟨-, -, page, -⟩ := readListQuery_eq_ok_iff.mp read
        exact page
      · obtain ⟨-, -, page, -⟩ := readSearchQuery_eq_ok_iff.mp read
        exact page
    have bounded := isBounded_of_readPage page
    exact ⟨bounded.page_pos, bounded.size_pos, bounded.size_le⟩

namespace Sample

/-- Pairs that choose a listing, with two that mean nothing. -/
def choices : List (String × String) := [("orderBy", "name"), ("name", "a&b"), ("hue", " "),
  ("hue", ""), ("page", "007"), ("title", "a"), ("order_number", "-5")]

/-- A query string with these pairs. -/
def choicesQuery : List UInt8 :=
  Utf8.octets "orderBy=name&name=a%26b&hue=+&hue=&page=007&title=%61&order_number=-5"

/-- Pairs that give one parameter under two names. -/
def twofold : List (String × String) := [("order_by", "name"), ("orderBy", "name")]

/-- A query string with these pairs. -/
def twofoldQuery : List UInt8 := Utf8.octets "order_by=name&orderBy=name"

/-- The first query string writes its pairs. -/
theorem writes_choices : Form.WritesPairs choices choicesQuery := by
  refine ⟨["orderBy=name", "name=a%26b", "hue=+", "hue=", "page=007", "title=%61",
    "order_number=-5"].map Utf8.octets, ?_, by decide⟩
  refine .cons ⟨_, _, .free (by decide), .free (by decide), rfl⟩ ?_
  refine .cons ⟨Utf8.octets "name", Utf8.octets "a%26b", .free (by decide), ?_, by decide⟩ ?_
  · exact .plain (by decide) (.escape (by decide) (by decide) (.plain (by decide) .nil))
  refine .cons ⟨Utf8.octets "hue", Utf8.octets "+", .free (by decide), .space .nil, by decide⟩ ?_
  refine .cons ⟨_, _, .free (by decide), .free (by decide), rfl⟩ ?_
  refine .cons ⟨_, _, .free (by decide), .free (by decide), rfl⟩ ?_
  refine .cons ⟨Utf8.octets "title", Utf8.octets "%61", .free (by decide), ?_, by decide⟩ ?_
  · exact .escape (by decide) (by decide) .nil
  exact .cons ⟨_, _, .free (by decide), .free (by decide), rfl⟩ .nil

/-- The second query string writes its pairs. -/
theorem writes_twofold : Form.WritesPairs twofold twofoldQuery := by
  refine ⟨["order_by=name", "orderBy=name"].map Utf8.octets, ?_, by decide⟩
  refine .cons ⟨_, _, .free (by decide), .free (by decide), rfl⟩ ?_
  exact .cons ⟨_, _, .free (by decide), .free (by decide), rfl⟩ .nil

/-- The pairs give the seventh page by name. -/
theorem choices_give_page : PageParameters.AreGiven ⟨some 7, none, some "name"⟩ choices where
  page := ⟨"007", by decide, .plain ⟨by decide, List.all_eq_true.mp (by decide), by decide⟩⟩
  size := show valuesOf _ _ = [] by decide
  orderBy := ⟨"name", by decide, rfl⟩

/-- The pairs give a name and a number. -/
theorem choices_give_filter : Filter.IsGiven ⟨some "a&b", none, none, some (-5)⟩ choices where
  name := ⟨"a&b", by decide, rfl⟩
  description := show valuesOf _ _ = [] by decide
  active := show valuesOf _ _ = [] by decide
  orderNumber := ⟨"-5", by decide,
    .minus (n := 5) ⟨by decide, List.all_eq_true.mp (by decide), by decide⟩⟩

end Sample

open Sample in
/-- A listing and a search are read from one query string, and two names of one parameter are
refused. -/
theorem choices_are_read :
    (Form.WritesPairs choices choicesQuery ∧
      PageParameters.AreGiven ⟨some 7, none, some "name"⟩ choices ∧
      Filter.IsGiven ⟨some "a&b", none, none, some (-5)⟩ choices ∧
      readListQuery choicesQuery = .ok (PageRequest.make (some 7) none (some "name"),
        ⟨some "a&b", none, none, some (-5)⟩) ∧
      (PageRequest.make (some 7) none (some "name")).size.toNat ≤ 100) ∧
    (Gives (· = ·) ["text", "title"] choices (some "a") ∧
      readSearchQuery choicesQuery = .ok (PageRequest.make (some 7) none (some "name"), "a")) ∧
    (Form.WritesPairs twofold twofoldQuery ∧
      2 ≤ (valuesOf ["order_by", "orderBy"] twofold).length ∧
      (∃ problem, readListQuery twofoldQuery = .error problem) ∧
      ∃ problem, readSearchQuery twofoldQuery = .error problem) := by
  obtain ⟨list, search, -, -⟩ := queries_are_read_back.1 choices choicesQuery writes_choices
  obtain ⟨-, -, listTwice, searchTwice⟩ :=
    queries_are_read_back.1 twofold twofoldQuery writes_twofold
  have text : Gives (· = ·) ["text", "title"] choices (some "a") := ⟨"a", by decide, rfl⟩
  have twice : 2 ≤ (valuesOf ["order_by", "orderBy"] twofold).length := by decide
  have listed := list _ _ choices_give_page choices_give_filter
  have bounded := queries_are_read_back.2 _ _ (.inl ⟨_, listed⟩)
  exact ⟨⟨writes_choices, choices_give_page, choices_give_filter, listed, bounded.2.2⟩,
    ⟨text, search _ _ choices_give_page text⟩,
    writes_twofold, twice, listTwice _ (by decide) twice, searchTwice _ (by decide) twice⟩

end StatusRegistry
