import StatusRegistry.Json.Reader
import StatusRegistry.Json.Value
import StatusRegistry.Status

/-!
# Statuses as JSON

The form in which statuses leave the registry and in which the cache keeps them. Printing writes
every member in a fixed order; reading takes them in any order, passes over others, and accepts the
positional form.
-/

namespace StatusRegistry

/-- The JSON object of a status. -/
def Status.toJson (s : Status) : Json :=
  .obj [
    ("id", .str s.id.text),
    ("created_by", .str s.createdBy.text),
    ("updated_by", .str s.updatedBy.text),
    ("created_at", .str s.createdAt.text),
    ("updated_at", .str s.updatedAt.text),
    ("deleted_at", match s.deletedAt with | some t => .str t.text | none => .null),
    ("name", .str s.name),
    ("description", .str s.description),
    ("active", .bool s.active),
    ("order_number", .int s.orderNumber.toInt)]

/-- The JSON object of a page. -/
def Listing.toJson (l : Listing) : Json :=
  .obj [
    ("total_count", .int l.totalCount.toInt),
    ("total_pages", .int l.totalPages.toInt),
    ("page", .int l.page.toNat),
    ("size", .int l.size.toNat),
    ("has_more", .bool l.hasMore),
    ("data", .arr (l.items.map Status.toJson))]

namespace Json

/-- An identifier in any of its forms. -/
def uuid : Reader Uuid :=
  formatted "a formatted UUID string" "UUID parsing failed" fun s => Uuid.parse? s.toList

/-- An instant with any offset. -/
def instant : Reader Instant :=
  formatted "an RFC 3339 formatted date and time string" "invalid date and time" Instant.parse?

/-- A slot that keeps its value in one field of the record under construction. -/
def slot {α σ : Type} (name : String) (presence : Presence) (reader : Reader α)
    (get : σ → Option α) (set : α → σ → σ) : Slot σ where
  name := name
  presence := presence
  isFilled record := (get record).isSome
  fill input := (reader input).map fun found => (set found.1, found.2)

end Json

/-- A status of which some members have been read. -/
structure PartialStatus where
  id : Option Uuid := none
  createdBy : Option Uuid := none
  updatedBy : Option Uuid := none
  createdAt : Option Instant := none
  updatedAt : Option Instant := none
  deletedAt : Option (Option Instant) := none
  name : Option String := none
  description : Option String := none
  active : Option Bool := none
  orderNumber : Option Int32 := none

/-- The status whose members have all been read; one that was never deleted may say nothing about
it. -/
def PartialStatus.finish? (p : PartialStatus) : Option Status := do
  pure {
    id := ← p.id
    createdBy := ← p.createdBy
    updatedBy := ← p.updatedBy
    createdAt := ← p.createdAt
    updatedAt := ← p.updatedAt
    deletedAt := p.deletedAt.join
    name := ← p.name
    description := ← p.description
    active := ← p.active
    orderNumber := ← p.orderNumber }

open Json in
/-- The members of a status. -/
def Status.shape : Shape Status where
  σ := PartialStatus
  name := "Status"
  slots := [
    slot "id" .required uuid (·.id) fun v p => { p with id := some v },
    slot "created_by" .required uuid (·.createdBy) fun v p => { p with createdBy := some v },
    slot "updated_by" .required uuid (·.updatedBy) fun v p => { p with updatedBy := some v },
    slot "created_at" .required instant (·.createdAt) fun v p => { p with createdAt := some v },
    slot "updated_at" .required instant (·.updatedAt) fun v p => { p with updatedAt := some v },
    slot "deleted_at" .optionalMember (nullable instant) (·.deletedAt)
      fun v p => { p with deletedAt := some v },
    slot "name" .required string (·.name) fun v p => { p with name := some v },
    slot "description" .required string (·.description)
      fun v p => { p with description := some v },
    slot "active" .required boolean (·.active) fun v p => { p with active := some v },
    slot "order_number" .required int32 (·.orderNumber)
      fun v p => { p with orderNumber := some v }]
  empty := {}
  finish? := PartialStatus.finish?

/-- A page of which some members have been read. -/
structure PartialListing where
  totalCount : Option Int64 := none
  totalPages : Option Int64 := none
  page : Option UInt32 := none
  size : Option UInt32 := none
  hasMore : Option Bool := none
  items : Option (List Status) := none

/-- The page whose members have all been read. -/
def PartialListing.finish? (p : PartialListing) : Option Listing := do
  pure {
    totalCount := ← p.totalCount
    totalPages := ← p.totalPages
    page := ← p.page
    size := ← p.size
    hasMore := ← p.hasMore
    items := ← p.items }

open Json in
/-- The members of a page. -/
def Listing.shape (bound : Nat) : Shape Listing where
  σ := PartialListing
  name := "StatusList"
  slots := [
    slot "total_count" .required int64 (·.totalCount) fun v p => { p with totalCount := some v },
    slot "total_pages" .required int64 (·.totalPages) fun v p => { p with totalPages := some v },
    slot "page" .required uint32 (·.page) fun v p => { p with page := some v },
    slot "size" .required uint32 (·.size) fun v p => { p with size := some v },
    slot "has_more" .required boolean (·.hasMore) fun v p => { p with hasMore := some v },
    slot "data" .required (listOf bound (Status.shape.reader bound)) (·.items)
      fun v p => { p with items := some v }]
  empty := {}
  finish? := PartialListing.finish?

/-- The status that a document holds. -/
def Status.decode (document : List UInt8) : Except Json.Problem Status :=
  Json.decode Status.shape.reader document

/-- The page that a document holds. -/
def Listing.decode (document : List UInt8) : Except Json.Problem Listing :=
  Json.decode (fun bound => (Listing.shape bound).reader bound) document

end StatusRegistry
