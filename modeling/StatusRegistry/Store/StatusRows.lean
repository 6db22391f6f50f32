import StatusRegistry.Program
import StatusRegistry.Store.Like

/-!
# Status rows

The operations on the table of statuses. Each issues its statements and turns an empty result into
the failure that a caller sees. A listing first counts; where nothing is found no page is read. Its
page count is that of a released build, which does not check for overflow.
-/

namespace StatusRegistry.StatusRows

/-- Inserts a row that belongs to its creator. -/
def create (owner : Uuid) (draft : Draft) : Action Status :=
  Action.query (.createStatus draft owner)

/-- The row that a statement found. -/
def orNotFound (id : Uuid) : Option Status → Except Failure Status
  | some row => .ok row
  | none => .error (Failure.statusNotFound id)

/-- Replaces the content of a live row. -/
def update (id updater : Uuid) (revision : Revision) : Action Status := do
  let row ← Action.query (.updateStatus id updater revision)
  Action.ofExcept (orNotFound id row)

/-- The live row with an identifier. -/
def find (id : Uuid) : Action Status := do
  let row ← Action.query (.findStatus id)
  Action.ofExcept (orNotFound id row)

/-- Marks a live row as deleted. -/
def delete (id : Uuid) : Action Unit := do
  let (changed : Nat) ← Action.query (.deleteStatus id)
  Action.ofExcept (if changed = 0 then .error (Failure.statusGone id) else .ok ())

/-- One page of the live rows that pass a filter. -/
def list (request : PageRequest) (filter : Filter) : Action Listing := do
  let (total : Int64) ← Action.query (.countFiltered filter)
  if total = 0 then return Listing.empty request
  let items ← Action.query (.pageFiltered filter request.order request.offset request.limit)
  return Listing.make items total request

/-- One page of the live rows whose name or description contains a text. -/
def search (text : String) (request : PageRequest) : Action Listing := do
  let pattern := String.ofList (Like.escape text.toList)
  let (total : Int64) ← Action.query (.countMatching pattern)
  if total = 0 then return Listing.empty request
  let items ← Action.query (.pageMatching pattern request.order request.offset request.limit)
  return Listing.make items total request

/-- Whether the store answers. -/
def isReachable : Program Bool :=
  .call (.query .health) fun answer => .done answer.toBool

end StatusRegistry.StatusRows
