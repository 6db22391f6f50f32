import StatusRegistry.Status.Json

/-!
# Request bodies

The documents that create and revise a status. Who acts is never read from a document: members
other than those named here are passed over.
-/

namespace StatusRegistry

/-- A draft of which some members have been read. -/
structure PartialDraft where
  name : Option String := none
  description : Option String := none
  active : Option Bool := none
  orderNumber : Option Int32 := none

open Json in
/-- The members of a draft: a new status is active and comes first unless it says otherwise. -/
def Draft.shape : Shape Draft where
  σ := PartialDraft
  name := "CreateStatusRequest"
  slots := [
    slot "name" .required string (·.name) fun v p => { p with name := some v },
    slot "description" .required string (·.description)
      fun v p => { p with description := some v },
    slot "active" .optional boolean (·.active) fun v p => { p with active := some v },
    slot "order_number" .optional int32 (·.orderNumber)
      fun v p => { p with orderNumber := some v }]
  empty := {}
  finish? p := do
    pure {
      name := ← p.name
      description := ← p.description
      active := p.active.getD true
      orderNumber := p.orderNumber.getD 0 }

/-- A revision of which some members have been read. -/
structure PartialRevision where
  description : Option String := none
  active : Option Bool := none
  orderNumber : Option Int32 := none

open Json in
/-- The members of a revision. Whether the status is active must be said, so that leaving it out
cannot change it. -/
def Revision.shape : Shape Revision where
  σ := PartialRevision
  name := "UpdateStatusRequest"
  slots := [
    slot "description" .required string (·.description)
      fun v p => { p with description := some v },
    slot "active" .required boolean (·.active) fun v p => { p with active := some v },
    slot "order_number" .optional int32 (·.orderNumber)
      fun v p => { p with orderNumber := some v }]
  empty := {}
  finish? p := do
    pure {
      description := ← p.description
      active := ← p.active
      orderNumber := p.orderNumber.getD 0 }

/-- The draft that a body holds. -/
def Draft.decode (body : List UInt8) : Except Json.Problem Draft :=
  Json.decode Draft.shape.reader body

/-- The revision that a body holds. -/
def Revision.decode (body : List UInt8) : Except Json.Problem Revision :=
  Json.decode Revision.shape.reader body

/-- How a response names a problem with a body. -/
def bodyReason : Json.Problem → String
  | .malformed => "Failed to parse the request body as JSON"
  | .mismatch path cause =>
    "Failed to deserialize the JSON body into the target type: " ++ Json.mismatchText path cause

end StatusRegistry
