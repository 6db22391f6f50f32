import StatusRegistry.Proofs.Json.Array
import StatusRegistry.Proofs.Status

/-!
# Reading back documents

A printed status and a printed page stand for themselves in every field, whatever characters their
texts are made of. So printing a status that was read, in whichever form, and reading it again
changes nothing.
-/

namespace StatusRegistry

open Json

namespace Status

/-- A printed status is read as itself inside any document. -/
theorem reads_toJson {s : Status} (dated : s.IsDated) {bound : Nat} (room : 10 ≤ bound) :
    Reads (shape.reader bound) s.toJson s := by
  intro b rest _
  exact reader_printed bound (fills_members dated) (List.cons_ne_nil _ _) room rfl rfl (b :: rest)

end Status

namespace Listing

/-- The page all of whose members have been read. -/
def asPartial (l : Listing) : PartialListing where
  totalCount := some l.totalCount
  totalPages := some l.totalPages
  page := some l.page
  size := some l.size
  hasMore := some l.hasMore
  items := some l.items

/-- The members of a printed page. -/
def members (l : Listing) : List (String × Json) :=
  match l.toJson with
  | .obj members => members
  | _ => []

/-- A page has six members. -/
theorem length_members (l : Listing) : l.members.length = 6 := rfl

/-- The members of a printed page fill every slot with its field. -/
theorem fills_members {l : Listing} (dated : ∀ s ∈ l.items, s.IsDated) {bound : Nat}
    (room : 10 ≤ bound) (enough : l.items.length < bound) :
    Fills (shape bound).slots (shape bound).empty l.members l.asPartial := by
  have items : Reads (listOf bound (Status.shape.reader bound)) (.arr (l.items.map Status.toJson))
      l.items :=
    reads_listOf enough fun s member => Status.reads_toJson (dated s member) room
  refine .cons rfl rfl (reads_slot (reads_int64 l.totalCount)) ?_
  refine .cons rfl rfl (reads_slot (reads_int64 l.totalPages)) ?_
  refine .cons rfl rfl (reads_slot (reads_uint32 l.page)) ?_
  refine .cons rfl rfl (reads_slot (reads_uint32 l.size)) ?_
  refine .cons rfl rfl (reads_slot (reads_boolean l.hasMore)) ?_
  refine .cons rfl rfl (reads_slot items) ?_
  exact .nil

/-- A printed page has steps enough for its members and its items. -/
theorem stepBound_members (l : Listing) :
    10 ≤ stepBound (Utf8.encode (Json.obj l.members).toChars) ∧
      l.items.length < stepBound (Utf8.encode (Json.obj l.members).toChars) := by
  have members := length_le_encode_obj l.members
  have six := l.length_members
  have items := length_lt_encode_arr (l.items.map Status.toJson)
  have inside := length_encode_le_of_mem
    (show ("data", .arr (l.items.map Status.toJson)) ∈ l.members by simp [Listing.members, toJson])
  rw [List.length_map] at items
  rw [stepBound]
  omega

/-- A page is read back from its printed form. -/
theorem decode_text {l : Listing} (dated : ∀ s ∈ l.items, s.IsDated) :
    decode (Utf8.octets l.toJson.text) = .ok l := by
  have printed : Utf8.octets l.toJson.text = Utf8.encode (Json.obj l.members).toChars := by
    rw [Json.text, Utf8.octets, String.toList_ofList]
    rfl
  obtain ⟨room, enough⟩ := l.stepBound_members
  have few : l.members.length ≤ stepBound (Utf8.encode (Json.obj l.members).toChars) := by
    rw [l.length_members]
    omega
  have read := reader_printed _ (fills_members dated room enough) (List.cons_ne_nil _ _) few
    rfl rfl []
  rw [List.append_nil] at read
  rw [printed]
  exact decode_of_read read

end Listing

/-- Documents are read back: a printed status is read as itself, a printed page is read as itself,
and a status that was read from any document is read again from what it is printed as. -/
theorem documents_are_read_back :
    (∀ s : Status, s.IsDated → Status.decode (Utf8.octets s.toJson.text) = .ok s) ∧
    (∀ l : Listing, (∀ s ∈ l.items, s.IsDated) →
      Listing.decode (Utf8.octets l.toJson.text) = .ok l) ∧
    (∀ document s, Status.decode document = .ok s → s.IsDated →
      Status.decode (Utf8.octets s.toJson.text) = Status.decode document) := by
  refine ⟨fun s dated => Status.decode_text dated, fun l dated => Listing.decode_text dated, ?_⟩
  intro document s read dated
  rw [read, Status.decode_text dated]

namespace Sample

/-- A status with texts that need escapes and dates at both ends of the calendar. -/
def quotedRow : Status where
  id := Uuid.ofOrdinal 1
  createdBy := Uuid.ofOrdinal 7
  updatedBy := Uuid.nil
  createdAt := ⟨-62167219200, 1⟩
  updatedAt := ⟨253402300799, 999999999⟩
  deletedAt := some ⟨-1, 500000000⟩
  name := "\"\\\n\x01é😀"
  description := ""
  active := false
  orderNumber := -2147483648

/-- The dates of the status can be written down. -/
theorem quotedRow_isDated : quotedRow.IsDated := by
  refine ⟨⟨by decide, by decide⟩, ⟨by decide, by decide⟩, ?_⟩
  rintro _ ⟨⟩
  exact ⟨by decide, by decide⟩

/-- A page that holds the status twice, with counts at both ends of their range. -/
def quotedPage : Listing :=
  ⟨9223372036854775807, -9223372036854775808, 4294967295, 0, true, [quotedRow, quotedRow]⟩

/-- The printed status with its members in reverse. -/
def reversedDocument : List UInt8 := Utf8.encode (Json.obj quotedRow.members.reverse).toChars

/-- The members of the status are read in reverse too. -/
theorem decode_reversedDocument : Status.decode reversedDocument = .ok quotedRow := by
  have fills : Fills Status.shape.slots Status.shape.empty quotedRow.members.reverse
      quotedRow.asPartial := by
    refine .cons rfl rfl (reads_slot (reads_int32 quotedRow.orderNumber)) ?_
    refine .cons rfl rfl (reads_slot (reads_boolean quotedRow.active)) ?_
    refine .cons rfl rfl (reads_slot (reads_string quotedRow.description)) ?_
    refine .cons rfl rfl (reads_slot (reads_string quotedRow.name)) ?_
    refine .cons rfl rfl (reads_slot (reads_deletedAt quotedRow_isDated)) ?_
    refine .cons rfl rfl (reads_slot (reads_instant quotedRow_isDated.updated)) ?_
    refine .cons rfl rfl (reads_slot (reads_instant quotedRow_isDated.created)) ?_
    refine .cons rfl rfl (reads_slot (reads_uuid quotedRow.updatedBy)) ?_
    refine .cons rfl rfl (reads_slot (reads_uuid quotedRow.createdBy)) ?_
    refine .cons rfl rfl (reads_slot (reads_uuid quotedRow.id)) ?_
    exact .nil
  exact decode_printed fills (List.cons_ne_nil _ _) rfl rfl

end Sample

open Sample in
/-- The status, the page that holds it and the document with its members in reverse are read
back. -/
theorem quoted_status_is_read_back :
    quotedRow.IsDated ∧ Status.decode (Utf8.octets quotedRow.toJson.text) = .ok quotedRow ∧
    (∀ s ∈ quotedPage.items, s.IsDated) ∧
    Listing.decode (Utf8.octets quotedPage.toJson.text) = .ok quotedPage ∧
    Status.decode reversedDocument = .ok quotedRow ∧
    Status.decode (Utf8.octets quotedRow.toJson.text) = Status.decode reversedDocument := by
  obtain ⟨statuses, pages, again⟩ := documents_are_read_back
  have items : ∀ s ∈ quotedPage.items, s.IsDated := by
    intro s member
    simp only [quotedPage, List.mem_cons, List.not_mem_nil, or_false, or_self] at member
    rw [member]
    exact quotedRow_isDated
  exact ⟨quotedRow_isDated, statuses _ quotedRow_isDated, items, pages _ items,
    decode_reversedDocument, again _ _ decode_reversedDocument quotedRow_isDated⟩

end StatusRegistry
