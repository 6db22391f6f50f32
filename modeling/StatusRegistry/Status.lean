import StatusRegistry.Failure
import StatusRegistry.Instant
import StatusRegistry.Page

/-!
# Statuses

A status is a named row with its history: who created and last changed it, when, and whether it has
been deleted. A draft is what a caller gives to create one, a revision what it gives to replace its
content. Lengths are counted in characters.
-/

namespace StatusRegistry

/-- A status as the store holds it. A deleted one keeps its row and is invisible to every read. -/
structure Status where
  id : Uuid
  createdBy : Uuid
  updatedBy : Uuid
  createdAt : Instant
  updatedAt : Instant
  deletedAt : Option Instant
  name : String
  description : String
  active : Bool
  orderNumber : Int32
  deriving DecidableEq

/-- Whether a user created a status. -/
def Status.isOwnedBy (s : Status) (user : Uuid) : Bool := s.createdBy = user

/-- Whether a status has not been deleted. -/
def Status.isLive (s : Status) : Bool := s.deletedAt.isNone

/-- The greatest length of a name. -/
def maxNameLength : Nat := 36

/-- The greatest length of a description. -/
def maxDescriptionLength : Nat := 255

/-- The message about a name out of bounds, with its field. -/
def nameProblem (name : String) : List (String × String) :=
  if 1 ≤ name.length ∧ name.length ≤ maxNameLength then []
  else [("name", "name is required and must be at most 36 characters")]

/-- The message about a description out of bounds, with its field. -/
def descriptionProblem (description : String) : List (String × String) :=
  if 1 ≤ description.length ∧ description.length ≤ maxDescriptionLength then []
  else [("description", "description is required and must be at most 255 characters")]

/-- A failure about the given fields, if there are any. -/
def checkFields (problems : List (String × String)) : Except Failure Unit :=
  if problems.isEmpty then .ok () else .error (Failure.invalidFields problems)

/-- What a caller gives to create a status. -/
structure Draft where
  name : String
  description : String
  active : Bool := true
  orderNumber : Int32 := 0
  deriving DecidableEq

/-- Refuses a draft with a field out of bounds. -/
def Draft.validate (d : Draft) : Except Failure Unit :=
  checkFields (nameProblem d.name ++ descriptionProblem d.description)

/-- What a caller gives to replace the content of a status. -/
structure Revision where
  description : String
  active : Bool
  orderNumber : Int32
  deriving DecidableEq

/-- Refuses a revision with a field out of bounds. -/
def Revision.validate (r : Revision) : Except Failure Unit :=
  checkFields (descriptionProblem r.description)

/-- The values that listed statuses must have; an absent one does not restrict the list. -/
structure Filter where
  name : Option String
  description : Option String
  active : Option Bool
  orderNumber : Option Int32
  deriving DecidableEq

/-- One page of statuses with the totals of the whole result. -/
structure Listing where
  totalCount : Int64
  totalPages : Int64
  page : UInt32
  size : UInt32
  hasMore : Bool
  items : List Status
  deriving DecidableEq

/-- The page of a result of `total` rows that holds the given items, in a released build. -/
def Listing.make (items : List Status) (total : Int64) (request : PageRequest) : Listing where
  totalCount := total
  totalPages := request.totalPages total
  page := request.page
  size := request.size
  hasMore := request.hasMore total
  items := items

/-- The page of a result of `total` rows that holds the given items, in a build with overflow checks:
`none` is a panic. -/
def Listing.make? (items : List Status) (total : Int64) (request : PageRequest) :
    Option Listing := do
  return {
    totalCount := total
    totalPages := ← request.totalPages? total
    page := request.page
    size := request.size
    hasMore := ← request.hasMore? total
    items := items }

/-- The page of an empty result. -/
def Listing.empty (request : PageRequest) : Listing := Listing.make [] 0 request

/-- Who acts, as far as the registry knows. -/
structure Caller where
  user : Uuid
  deriving DecidableEq

/-- The user that acts; the nil identifier names nobody. -/
def Caller.identified (c : Caller) : Except Failure Uuid :=
  if c.user.isNil then .error (Failure.unauthorized "No caller identity") else .ok c.user

end StatusRegistry
