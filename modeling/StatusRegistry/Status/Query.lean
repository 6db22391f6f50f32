import StatusRegistry.Status
import StatusRegistry.Text.Form
import StatusRegistry.Text.Integer

/-!
# Query parameters

The parameters of listings and searches, read from the pairs of a query string. A parameter may
have several names but may come only once; pairs with other names are passed over. The parameters
of the listing itself are read first, those of its page after them, each in the order of the pairs.
-/

namespace StatusRegistry

/-- Why a value does not suit its parameter. -/
inductive ValueProblem where
  | integer (problem : IntegerProblem)
  | notBoolean
  deriving DecidableEq

/-- The wording of a problem with a value. -/
def ValueProblem.message : ValueProblem → String
  | .integer problem => problem.message
  | .notBoolean => "provided string was not `true` or `false`"

/-- Why a query string was refused. A problem names its parameter only where the parameter is read
in place. -/
inductive QueryProblem where
  | duplicate (parameter : String)
  | badValue (parameter : Option String) (problem : ValueProblem)
  deriving DecidableEq

/-- The wording of a refusal. -/
def QueryProblem.message : QueryProblem → String
  | .duplicate parameter => "duplicate field `" ++ parameter ++ "`"
  | .badValue (some parameter) problem => parameter ++ ": " ++ problem.message
  | .badValue none problem => problem.message

/-- How a response names a refused query string. -/
def QueryProblem.reason (problem : QueryProblem) : String :=
  "Failed to deserialize query string: " ++ problem.message

/-- A parameter of a record `σ`: its names, whether its problems name it, whether it has been read,
and how to read it. -/
structure Parameter (σ : Type) where
  name : String
  aliases : List String
  isNamed : Bool
  isSet : σ → Bool
  set : String → Except ValueProblem (σ → σ)

/-- Whether a key names a parameter. -/
def Parameter.answersTo {σ : Type} (p : Parameter σ) (key : String) : Bool :=
  key == p.name || p.aliases.contains key

/-- Reads the parameters among some pairs, in the order of the pairs. -/
def readParameters {σ : Type} (parameters : List (Parameter σ)) :
    List (String × String) → σ → Except QueryProblem σ
  | [], record => .ok record
  | (key, value) :: later, record =>
    match parameters.find? (·.answersTo key) with
    | none => readParameters parameters later record
    | some p =>
      if p.isSet record then .error (.duplicate p.name)
      else
        match p.set value with
        | .error problem => .error (.badValue (if p.isNamed then some p.name else none) problem)
        | .ok set => readParameters parameters later (set record)

/-- A boolean, spelled out. -/
def readBoolean (s : String) : Except ValueProblem Bool :=
  if s = "true" then .ok true else if s = "false" then .ok false else .error .notBoolean

/-- Turns an integer problem into a problem with a value. -/
def asValue {α : Type} : Except IntegerProblem α → Except ValueProblem α
  | .ok a => .ok a
  | .error problem => .error (.integer problem)

/-- The page parameters as they were given. -/
structure PageParameters where
  page : Option UInt32 := none
  size : Option UInt32 := none
  orderBy : Option String := none

/-- The parameters of a page. -/
def pageParameters : List (Parameter PageParameters) := [
  { name := "page", aliases := [], isNamed := false, isSet := (·.page.isSome),
    set := fun v => (asValue (readUInt32 v)).map fun n r => { r with page := some n } },
  { name := "size", aliases := [], isNamed := false, isSet := (·.size.isSome),
    set := fun v => (asValue (readUInt32 v)).map fun n r => { r with size := some n } },
  { name := "order_by", aliases := ["orderBy"], isNamed := false, isSet := (·.orderBy.isSome),
    set := fun v => .ok fun r => { r with orderBy := some v } }]

/-- The page that a query string asks for. -/
def readPage (pairs : List (String × String)) : Except QueryProblem PageRequest :=
  (readParameters pageParameters pairs {}).map fun p => PageRequest.make p.page p.size p.orderBy

/-- The parameters of a filter. -/
def filterParameters : List (Parameter Filter) := [
  { name := "name", aliases := [], isNamed := true, isSet := (·.name.isSome),
    set := fun v => .ok fun r => { r with name := some v } },
  { name := "description", aliases := [], isNamed := true, isSet := (·.description.isSome),
    set := fun v => .ok fun r => { r with description := some v } },
  { name := "active", aliases := [], isNamed := true, isSet := (·.active.isSome),
    set := fun v => (readBoolean v).map fun b r => { r with active := some b } },
  { name := "order_number", aliases := [], isNamed := true, isSet := (·.orderNumber.isSome),
    set := fun v => (asValue (readInt32 v)).map fun n r => { r with orderNumber := some n } }]

/-- The filter without restrictions. -/
def Filter.all : Filter := ⟨none, none, none, none⟩

/-- A filter in which an empty text does not restrict. -/
def Filter.withoutEmpty (f : Filter) : Filter :=
  { f with name := f.name.filter (· ≠ ""), description := f.description.filter (· ≠ "") }

/-- The page and filter that the query string of a listing asks for. -/
def readListQuery (query : List UInt8) : Except QueryProblem (PageRequest × Filter) := do
  let pairs := Form.pairs query
  let filter ← readParameters filterParameters pairs Filter.all
  let page ← readPage pairs
  pure (page, filter.withoutEmpty)

/-- The parameter of a search. -/
def searchParameters : List (Parameter (Option String)) := [
  { name := "text", aliases := ["title"], isNamed := true, isSet := Option.isSome,
    set := fun v => .ok fun _ => some v }]

/-- The page and text that the query string of a search asks for; no text matches everything. -/
def readSearchQuery (query : List UInt8) : Except QueryProblem (PageRequest × String) := do
  let pairs := Form.pairs query
  let text ← readParameters searchParameters pairs none
  let page ← readPage pairs
  pure (page, text.getD "")

end StatusRegistry
