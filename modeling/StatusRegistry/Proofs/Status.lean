import StatusRegistry.Proofs.Instant
import StatusRegistry.Proofs.Json.Record
import StatusRegistry.Proofs.Uuid
import StatusRegistry.Status.Json

/-!
# Reading back printed statuses

The form in which the cache keeps a status stands for that status in every field. The only
condition is on its times, which must lie in the years that a printed instant can name.
-/

namespace StatusRegistry

namespace Status

/-- Every time of a status is read back from its text. -/
structure IsDated (s : Status) : Prop where
  created : s.createdAt.IsPlain
  updated : s.updatedAt.IsPlain
  deleted : ∀ t, s.deletedAt = some t → t.IsPlain

end Status

namespace Json

/-- A printed identifier is read as itself. -/
theorem reads_uuid (u : Uuid) : Reads uuid (.str u.text) u := by
  apply reads_formatted
  rw [Uuid.text, String.toList_ofList]
  exact Uuid.parse?_toChars u

/-- A printed instant is read as itself. -/
theorem reads_instant {t : Instant} (plain : t.IsPlain) : Reads instant (.str t.text) t :=
  reads_formatted _ _ (Instant.parse?_text plain)

/-- The time of a deletion is read as itself, and so is its absence. -/
theorem reads_deletedAt {s : Status} (dated : s.IsDated) :
    Reads (nullable instant) (match s.deletedAt with | some t => .str t.text | none => .null)
      s.deletedAt := by
  have deleted := dated.deleted
  cases time : s.deletedAt with
  | none => exact reads_nullable_null instant
  | some t => exact reads_nullable_str (reads_instant (deleted t time))

/-- A slot is filled by what its reader finds. -/
theorem reads_slot {α σ : Type} {name : String} {presence : Presence} {reader : Reader α}
    {get : σ → Option α} {set : α → σ → σ} {value : Json} {a : α} (read : Reads reader value a) :
    Reads (slot name presence reader get set).fill value (set a) := by
  intro b rest ends
  simp only [slot, read b rest ends]
  rfl

end Json

namespace Status

open Json

/-- The status all of whose members have been read. -/
def asPartial (s : Status) : PartialStatus where
  id := some s.id
  createdBy := some s.createdBy
  updatedBy := some s.updatedBy
  createdAt := some s.createdAt
  updatedAt := some s.updatedAt
  deletedAt := some s.deletedAt
  name := some s.name
  description := some s.description
  active := some s.active
  orderNumber := some s.orderNumber

/-- The members of a printed status. -/
def members (s : Status) : List (String × Json) :=
  match s.toJson with
  | .obj members => members
  | _ => []

/-- The members of a printed status fill every slot with its field. -/
theorem fills_members {s : Status} (dated : s.IsDated) :
    Fills shape.slots shape.empty s.members s.asPartial := by
  refine .cons rfl rfl (reads_slot (reads_uuid s.id)) ?_
  refine .cons rfl rfl (reads_slot (reads_uuid s.createdBy)) ?_
  refine .cons rfl rfl (reads_slot (reads_uuid s.updatedBy)) ?_
  refine .cons rfl rfl (reads_slot (reads_instant dated.created)) ?_
  refine .cons rfl rfl (reads_slot (reads_instant dated.updated)) ?_
  refine .cons rfl rfl (reads_slot (reads_deletedAt dated)) ?_
  refine .cons rfl rfl (reads_slot (reads_string s.name)) ?_
  refine .cons rfl rfl (reads_slot (reads_string s.description)) ?_
  refine .cons rfl rfl (reads_slot (reads_boolean s.active)) ?_
  refine .cons rfl rfl (reads_slot (reads_int32 s.orderNumber)) ?_
  exact .nil

/-- A status is read back from its printed form. -/
theorem decode_text {s : Status} (dated : s.IsDated) :
    decode (Utf8.octets s.toJson.text) = .ok s := by
  have printed : Utf8.octets s.toJson.text = Utf8.encode (Json.obj s.members).toChars := by
    rw [Json.text, Utf8.octets, String.toList_ofList]
    rfl
  rw [printed]
  exact decode_printed (fills_members dated) (List.cons_ne_nil _ _) rfl rfl

end Status

end StatusRegistry
