import StatusRegistry.Status
import StatusRegistry.Token

/-!
# Statements

Everything the registry asks of its store, as data. A statement has one text for each of its
constructors and orders, and carries every value separately, so no value can become part of a text.
The type of its result is fixed by the statement.
-/

namespace StatusRegistry

/-- A statement with its values. -/
inductive Statement where
  | createStatus (draft : Draft) (owner : Uuid)
  | updateStatus (id updater : Uuid) (revision : Revision)
  | findStatus (id : Uuid)
  | deleteStatus (id : Uuid)
  | countFiltered (filter : Filter)
  | pageFiltered (filter : Filter) (order : Order) (offset limit : Int64)
  | countMatching (pattern : String)
  | pageMatching (pattern : String) (order : Order) (offset limit : Int64)
  | health
  | findTokenUser (digest : String)
  | touchToken (digest : String)
  | createToken (name digest : String) (user : Uuid)
  | listTokens
  | findTokenById (id : Int64)
  | findTokenByName (name : String)
  | revokeToken (id : Int64)
  | countStatuses
  | countTokens
  | version
  | countMigrations
  deriving DecidableEq

/-- A value that accompanies a statement; an absent one is null. -/
inductive Argument where
  | text (value : Option String)
  | flag (value : Option Bool)
  | int32 (value : Option Int32)
  | int64 (value : Int64)
  | uuid (value : Uuid)
  deriving DecidableEq

namespace Statement

/-- The type of a statement's result. A number counts rows. -/
def Result : Statement → Type
  | .createStatus .. => Status
  | .updateStatus .. => Option Status
  | .findStatus _ => Option Status
  | .deleteStatus _ => Nat
  | .countFiltered _ => Int64
  | .pageFiltered .. => List Status
  | .countMatching _ => Int64
  | .pageMatching .. => List Status
  | .health => Unit
  | .findTokenUser _ => Option Uuid
  | .touchToken _ => Nat
  | .createToken .. => Token
  | .listTokens => List Token
  | .findTokenById _ => Option Token
  | .findTokenByName _ => Option Token
  | .revokeToken _ => Nat
  | .countStatuses => Int64 × Int64
  | .countTokens => Int64
  | .version => String
  | .countMigrations => Int64

/-- The name of a statement. -/
def name : Statement → String
  | .createStatus .. => "status.create"
  | .updateStatus .. => "status.update"
  | .findStatus _ => "status.get_by_id"
  | .deleteStatus _ => "status.delete"
  | .countFiltered _ => "status.list.count"
  | .pageFiltered .. => "status.list.page"
  | .countMatching _ => "status.search.count"
  | .pageMatching .. => "status.search.page"
  | .health => "health"
  | .findTokenUser _ => "token.find_user"
  | .touchToken _ => "token.update_last_used"
  | .createToken .. => "token.create"
  | .listTokens => "token.list"
  | .findTokenById _ => "token.find_by_id"
  | .findTokenByName _ => "token.find_by_name"
  | .revokeToken _ => "token.revoke"
  | .countStatuses => "stats.status"
  | .countTokens => "stats.tokens"
  | .version => "db.version"
  | .countMigrations => "db.migrations"

/-- The columns of a status. -/
def statusColumns : String :=
  "id, created_by, updated_by, created_at, updated_at, deleted_at, " ++
    "name, description, active, order_number"

/-- The columns of a token. -/
def tokenColumns : String :=
  "id, name, token_hash, user_id, created_at, last_used_at, revoked_at"

/-- The condition of a listing. A null value disables the condition on its column, so one text
serves every filter. -/
def filterCondition : String :=
  "deleted_at IS NULL AND ($1::text IS NULL OR name = $1) AND " ++
    "($2::text IS NULL OR description = $2) AND ($3::boolean IS NULL OR active = $3) AND " ++
    "($4::integer IS NULL OR order_number = $4)"

/-- The condition of a search. -/
def searchCondition : String :=
  "deleted_at IS NULL AND (name ILIKE '%' || $1 || '%' OR description ILIKE '%' || $1 || '%')"

/-- The text of a statement. -/
def sql : Statement → String
  | .createStatus .. =>
    "INSERT INTO status (name, description, active, order_number, created_by, updated_by) " ++
      "VALUES ($1, $2, $3, $4, $5, $5) RETURNING " ++ statusColumns
  | .updateStatus .. =>
    "UPDATE status SET description = $1, active = $2, order_number = $3, updated_by = $4, " ++
      "updated_at = NOW() WHERE id = $5 AND deleted_at IS NULL RETURNING " ++ statusColumns
  | .findStatus _ =>
    "SELECT " ++ statusColumns ++ " FROM status WHERE id = $1 AND deleted_at IS NULL"
  | .deleteStatus _ =>
    "UPDATE status SET deleted_at = NOW(), updated_at = NOW() WHERE id = $1 AND deleted_at IS NULL"
  | .countFiltered _ => "SELECT COUNT(*) FROM status WHERE " ++ filterCondition
  | .pageFiltered _ order _ _ =>
    "SELECT " ++ statusColumns ++ " FROM status WHERE " ++ filterCondition ++ " ORDER BY " ++
      order.sql ++ " OFFSET $5 LIMIT $6"
  | .countMatching _ => "SELECT COUNT(*) FROM status WHERE " ++ searchCondition
  | .pageMatching _ order _ _ =>
    "SELECT " ++ statusColumns ++ " FROM status WHERE " ++ searchCondition ++ " ORDER BY " ++
      order.sql ++ " OFFSET $2 LIMIT $3"
  | .health => "SELECT 1"
  | .findTokenUser _ =>
    "SELECT user_id FROM api_tokens WHERE token_hash = $1 AND revoked_at IS NULL"
  | .touchToken _ =>
    "UPDATE api_tokens SET last_used_at = NOW() WHERE token_hash = $1 AND revoked_at IS NULL"
  | .createToken .. =>
    "INSERT INTO api_tokens (name, token_hash, user_id) VALUES ($1, $2, $3) RETURNING " ++
      tokenColumns
  | .listTokens =>
    "SELECT " ++ tokenColumns ++ " FROM api_tokens ORDER BY created_at DESC, id DESC"
  | .findTokenById _ => "SELECT " ++ tokenColumns ++ " FROM api_tokens WHERE id = $1"
  | .findTokenByName _ => "SELECT " ++ tokenColumns ++ " FROM api_tokens WHERE name = $1"
  | .revokeToken _ =>
    "UPDATE api_tokens SET revoked_at = NOW() WHERE id = $1 AND revoked_at IS NULL"
  | .countStatuses =>
    "SELECT COUNT(*) FILTER (WHERE deleted_at IS NULL), " ++
      "COUNT(*) FILTER (WHERE deleted_at IS NOT NULL) FROM status"
  | .countTokens => "SELECT COUNT(*) FROM api_tokens WHERE revoked_at IS NULL"
  | .version => "SELECT version()"
  | .countMigrations => "SELECT COUNT(*) FROM _sqlx_migrations WHERE success"

/-- The values of a filter in the order of its columns. -/
def filterArguments (f : Filter) : List Argument :=
  [.text f.name, .text f.description, .flag f.active, .int32 f.orderNumber]

/-- The values of a statement, in the order of their numbers in its text. -/
def arguments : Statement → List Argument
  | .createStatus draft owner =>
    [.text (some draft.name), .text (some draft.description), .flag (some draft.active),
      .int32 (some draft.orderNumber), .uuid owner]
  | .updateStatus id updater revision =>
    [.text (some revision.description), .flag (some revision.active),
      .int32 (some revision.orderNumber), .uuid updater, .uuid id]
  | .findStatus id => [.uuid id]
  | .deleteStatus id => [.uuid id]
  | .countFiltered filter => filterArguments filter
  | .pageFiltered filter _ offset limit =>
    filterArguments filter ++ [.int64 offset, .int64 limit]
  | .countMatching pattern => [.text (some pattern)]
  | .pageMatching pattern _ offset limit => [.text (some pattern), .int64 offset, .int64 limit]
  | .health => []
  | .findTokenUser digest => [.text (some digest)]
  | .touchToken digest => [.text (some digest)]
  | .createToken name digest user => [.text (some name), .text (some digest), .uuid user]
  | .listTokens => []
  | .findTokenById id => [.int64 id]
  | .findTokenByName name => [.text (some name)]
  | .revokeToken id => [.int64 id]
  | .countStatuses => []
  | .countTokens => []
  | .version => []
  | .countMigrations => []

end Statement

end StatusRegistry
