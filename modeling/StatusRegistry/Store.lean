import StatusRegistry.Store.Collation
import StatusRegistry.Store.Error
import StatusRegistry.Store.Like
import StatusRegistry.Store.Statement

/-!
# The store

Two tables and a clock, and the meaning of every statement over them. A statement either gives its
result and the store after it, or an error; an error leaves both tables as they were. How texts are
sorted and searched is up to the collation that the store was set up with.

No status ever leaves its table. The clock moves on after every statement that could change data,
so the times of changes tell their order.
-/

namespace StatusRegistry

/-- The state of the store. The clock counts microseconds from the start of 1970; new statuses are
numbered by their place in the table, new tokens by a sequence. -/
structure Store where
  clock : Int
  clockStep : Int
  statuses : List Status
  tokens : List Token
  nextToken : Nat
  migrations : Option Nat
  version : String
  collation : Collation

namespace Store

/-- A store with empty tables that compares texts by code point. -/
def empty : Store :=
  ⟨1704067200000000, 1000000, [], [], 1, none, "PostgreSQL 16.0", .codePoints⟩

/-- The current time. -/
def now (s : Store) : Instant := Instant.ofMicros s.clock

/-- The store after a statement that could change data. -/
def tick (s : Store) : Store := { s with clock := s.clock + s.clockStep }

/-- Whether an absent or equal value is wanted. -/
def wanted {α : Type} [DecidableEq α] (condition : Option α) (value : α) : Bool :=
  match condition with
  | none => true
  | some a => a = value

/-- Whether a status is live and passes a filter. -/
def passes (f : Filter) (s : Status) : Bool :=
  s.isLive && wanted f.name s.name && wanted f.description s.description &&
    wanted f.active s.active && wanted f.orderNumber s.orderNumber

/-- Whether a status is live and its name or description contains a pattern. -/
def matchesPattern (c : Collation) (pattern : String) (s : Status) : Bool :=
  s.isLive && (Like.contains c.fold pattern s.name || Like.contains c.fold pattern s.description)

/-- The order of instants. -/
def compareInstants (a b : Instant) : Ordering :=
  (compare a.seconds b.seconds).then (compare a.nanos b.nanos)

/-- The order of digits. -/
def compareDigits : List (Fin 16) → List (Fin 16) → Ordering
  | [], [] => .eq
  | [], _ :: _ => .lt
  | _ :: _, [] => .gt
  | a :: as, b :: bs => (compare a.val b.val).then (compareDigits as bs)

/-- How two statuses compare in an order. -/
def compareStatuses (c : Collation) (order : Order) (a b : Status) : Ordering :=
  let byNumber := compare a.orderNumber.toInt b.orderNumber.toInt
  let byCreation := compareInstants a.createdAt b.createdAt
  let byUpdate := compareInstants a.updatedAt b.updatedAt
  let byId := compareDigits a.id.digits b.id.digits
  match order with
  | .orderNumber => ((byNumber.then byCreation).then byUpdate).then byId
  | .name => (((c.compareTexts a.name b.name).then byCreation).then byUpdate).then byId
  | .createdAt => (byCreation.then byNumber).then byId
  | .updatedAt => (byUpdate.swap.then byNumber).then byId

/-- The rows that satisfy a condition, in an order, from an offset on and no more than a limit. -/
def page (c : Collation) (rows : List Status) (order : Order) (offset limit : Int64) :
    List Status :=
  let sorted := rows.mergeSort fun a b => (compareStatuses c order a b).isLE
  (sorted.drop offset.toNatClampNeg).take limit.toNatClampNeg

/-- The tokens, latest first. -/
def latestTokens (tokens : List Token) : List Token :=
  tokens.mergeSort fun a b =>
    ((compareInstants b.createdAt a.createdAt).then (compare b.id.toInt a.id.toInt)).isLE

/-- The number of rows as the store gives it. -/
def count {α : Type} (rows : List α) : Int64 := Int64.ofNat rows.length

/-- The row of a new status. -/
def newStatus (s : Store) (draft : Draft) (owner : Uuid) : Status where
  id := Uuid.ofOrdinal (s.statuses.length + 1)
  createdBy := owner
  updatedBy := owner
  createdAt := s.now
  updatedAt := s.now
  deletedAt := none
  name := draft.name
  description := draft.description
  active := draft.active
  orderNumber := draft.orderNumber

/-- A row with new content. -/
def revised (now : Instant) (updater : Uuid) (r : Revision) (s : Status) : Status :=
  { s with
    description := r.description
    active := r.active
    orderNumber := r.orderNumber
    updatedBy := updater
    updatedAt := now }

/-- A row marked as deleted. -/
def deleted (now : Instant) (s : Status) : Status :=
  { s with deletedAt := some now, updatedAt := now }

/-- Whether a row is the live one with the given identifier. -/
def isTarget (id : Uuid) (s : Status) : Bool := s.id = id && s.isLive

/-- The row of a new token. -/
def newToken (s : Store) (name digest : String) (user : Uuid) : Token where
  id := Int64.ofNat s.nextToken
  name := name
  digest := digest
  user := user
  createdAt := s.now
  lastUsedAt := none
  revokedAt := none

/-- Whether a token is active and has the given digest. -/
def isActiveDigest (digest : String) (t : Token) : Bool := t.digest = digest && !t.isRevoked

/-- Whether a token is active and has the given number. -/
def isActiveId (id : Int64) (t : Token) : Bool := t.id = id && !t.isRevoked

/-- The texts among some values. -/
def texts (arguments : List Argument) : List String :=
  arguments.filterMap fun
    | .text value => value
    | _ => none

/-- The refusal of a text with a null character. -/
def nullCharacter : StoreError :=
  .rejected "22021" "invalid byte sequence for encoding \"UTF8\": 0x00" none

/-- The refusal of a text longer than its column. -/
def tooLong (length : Nat) : StoreError :=
  .rejected "22001" ("value too long for type character varying(" ++ toString length ++ ")") none

/-- The refusal of a second row with a unique value. -/
def violates (name : String) : StoreError :=
  .rejected StoreError.uniqueViolation
    ("duplicate key value violates unique constraint \"" ++ name ++ "\"") (some name)

/-- The first text longer than its column. -/
def lengthProblem : Statement → Option StoreError
  | .createStatus draft _ =>
    if draft.name.length > maxNameLength then some (tooLong maxNameLength)
    else if draft.description.length > maxDescriptionLength then
      some (tooLong maxDescriptionLength)
    else none
  | .updateStatus _ _ revision =>
    if revision.description.length > maxDescriptionLength then some (tooLong maxDescriptionLength)
    else none
  | _ => none

/-- Why the store refuses the values of a statement, if it does. -/
def valueProblem (q : Statement) : Option StoreError :=
  if (texts q.arguments).any (·.contains '\x00') then some nullCharacter else lengthProblem q

/-- The unique constraint that a new token would violate. -/
def tokenProblem (s : Store) (name digest : String) : Option StoreError :=
  if s.tokens.any (·.name = name) then some (violates "api_tokens_name_key")
  else if s.tokens.any (·.digest = digest) then some (violates "api_tokens_token_hash_key")
  else none

/-- The result of a statement whose values are acceptable, and the store after it. -/
def perform (s : Store) : (q : Statement) → Except StoreError q.Result × Store
  | .createStatus draft owner =>
    let row := s.newStatus draft owner
    (.ok row, { s with statuses := s.statuses ++ [row] }.tick)
  | .updateStatus id updater revision =>
    let after := s.statuses.map fun row =>
      if isTarget id row then revised s.now updater revision row else row
    (.ok (after.find? (isTarget id)), { s with statuses := after }.tick)
  | .findStatus id => (.ok (s.statuses.find? (isTarget id)), s)
  | .deleteStatus id =>
    let after := s.statuses.map fun row => if isTarget id row then deleted s.now row else row
    (.ok (s.statuses.countP (isTarget id)), { s with statuses := after }.tick)
  | .countFiltered filter => (.ok (count (s.statuses.filter (passes filter))), s)
  | .pageFiltered filter order offset limit =>
    (.ok (page s.collation (s.statuses.filter (passes filter)) order offset limit), s)
  | .countMatching pattern =>
    (.ok (count (s.statuses.filter (matchesPattern s.collation pattern))), s)
  | .pageMatching pattern order offset limit =>
    (.ok (page s.collation (s.statuses.filter (matchesPattern s.collation pattern)) order offset
      limit), s)
  | .health => (.ok (), s)
  | .findTokenUser digest => (.ok ((s.tokens.find? (isActiveDigest digest)).map Token.user), s)
  | .touchToken digest =>
    let after := s.tokens.map fun t =>
      if isActiveDigest digest t then { t with lastUsedAt := some s.now } else t
    (.ok (s.tokens.countP (isActiveDigest digest)), { s with tokens := after }.tick)
  | .createToken name digest user =>
    let counted := { s with nextToken := s.nextToken + 1 }.tick
    match s.tokenProblem name digest with
    | some problem => (.error problem, counted)
    | none =>
      let row := s.newToken name digest user
      (.ok row, { counted with tokens := s.tokens ++ [row] })
  | .listTokens => (.ok (latestTokens s.tokens), s)
  | .findTokenById id => (.ok (s.tokens.find? (·.id = id)), s)
  | .findTokenByName name => (.ok (s.tokens.find? (·.name = name)), s)
  | .revokeToken id =>
    let after := s.tokens.map fun t =>
      if isActiveId id t then { t with revokedAt := some s.now } else t
    (.ok (s.tokens.countP (isActiveId id)), { s with tokens := after }.tick)
  | .countStatuses =>
    (.ok (count (s.statuses.filter (·.isLive)), count (s.statuses.filter (!·.isLive))), s)
  | .countTokens => (.ok (count (s.tokens.filter (!·.isRevoked))), s)
  | .version => (.ok s.version, s)
  | .countMigrations =>
    match s.migrations with
    | some n => (.ok (Int64.ofNat n), s)
    | none => (.error (.rejected "42P01" "relation \"_sqlx_migrations\" does not exist" none), s)

/-- The result of a statement and the store after it. Values are checked before anything else. -/
def execute (s : Store) (q : Statement) : Except StoreError q.Result × Store :=
  match valueProblem q with
  | some problem => (.error problem, s)
  | none => s.perform q

end Store

end StatusRegistry
