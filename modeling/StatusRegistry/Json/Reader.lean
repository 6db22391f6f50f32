import StatusRegistry.Json.Skip
import StatusRegistry.Text.Quoted

/-!
# Reading JSON into records

A document is read once from the front and the first problem ends the reading. A problem is either
in the form of the document, whatever it was meant to be, or a mismatch between a well-formed value
and the record asked for, which carries the path to the value.

A record is described by its slots in declaration order. An object fills slots by key and passes
over every other member; an array fills them by position. What is missing is checked once the
object ends, so a problem in a value is found before an absent slot.
-/

namespace StatusRegistry.Json

/-- A step from a value to one inside it. -/
inductive Segment where
  | field (name : String)
  | index (position : Nat)
  deriving DecidableEq, Repr

/-- How a well-formed value differs from what was asked for. -/
inductive Mismatch where
  | missing (field : String)
  | duplicate (field : String)
  | wrongType (found : Token) (expected : String)
  | outOfRange (value : Int) (expected : String)
  | tooShort (count : Nat) (expected : String)
  | unreadable (reason : String)

/-- Why a document is not the record asked for. -/
inductive Problem where
  | malformed
  | mismatch (path : List Segment) (cause : Mismatch)

/-- Magnitudes in messages are positional from 0.00001 up to sixteen digits before the point. -/
def numberStyle : Shortest.Style := ⟨-5, 15, "e+", "e-"⟩

/-- How a message names the first token of a value. -/
def Token.description : Token → String
  | .null => "null"
  | .bool value => "boolean `" ++ (if value then "true" else "false") ++ "`"
  | .integer value => "integer `" ++ toString value ++ "`"
  | .float negative magnitude =>
    "floating point `" ++ (if negative then "-" else "") ++
      String.ofList (Shortest.chars numberStyle magnitude) ++ "`"
  | .str value => "string " ++ Quoted.quoted value
  | .openArray => "sequence"
  | .openObject => "map"

/-- The wording of a mismatch. -/
def Mismatch.message : Mismatch → String
  | .missing field => "missing field `" ++ field ++ "`"
  | .duplicate field => "duplicate field `" ++ field ++ "`"
  | .wrongType found expected => "invalid type: " ++ found.description ++ ", expected " ++ expected
  | .outOfRange value expected =>
    "invalid value: integer `" ++ toString value ++ "`, expected " ++ expected
  | .tooShort count expected => "invalid length " ++ toString count ++ ", expected " ++ expected
  | .unreadable reason => reason

/-- The text of a path: names joined by points, positions in brackets. -/
def pathText : List Segment → String
  | [] => ""
  | .field name :: later =>
    name ++ (match later with | .field _ :: _ => "." | _ => "") ++ pathText later
  | .index position :: later =>
    "[" ++ toString position ++ "]" ++ (match later with | .field _ :: _ => "." | _ => "") ++
      pathText later

/-- A path and what is wrong at its end. -/
def mismatchText (path : List Segment) (cause : Mismatch) : String :=
  match path with
  | [] => cause.message
  | _ => pathText path ++ ": " ++ cause.message

/-- Reads a value from the front of an input. -/
abbrev Reader (α : Type) := List UInt8 → Except Problem (α × List UInt8)

/-- A mismatch at the value being read. -/
def mismatch {α : Type} (cause : Mismatch) : Except Problem α :=
  .error (.mismatch [] cause)

/-- Places the mismatches of a reading under a segment. -/
def under {α : Type} (segment : Segment) : Except Problem α → Except Problem α
  | .error (.mismatch path cause) => .error (.mismatch (segment :: path) cause)
  | outcome => outcome

/-- The value that a test finds in a token; any other token has the wrong type. -/
def Reader.ofToken {α : Type} (expected : String) (test : Token → Option (Except Problem α)) :
    Reader α := fun input =>
  match token? input with
  | none => .error .malformed
  | some (token, rest) =>
    match test token with
    | some (.ok a) => .ok (a, rest)
    | some (.error problem) => .error problem
    | none => mismatch (.wrongType token expected)

/-- A string. -/
def string : Reader String :=
  .ofToken "a string" fun
    | .str value => some (.ok value)
    | _ => none

/-- A boolean. -/
def boolean : Reader Bool :=
  .ofToken "a boolean" fun
    | .bool value => some (.ok value)
    | _ => none

/-- An integer within bounds. -/
def integer {α : Type} (expected : String) (low high : Int) (convert : Int → α) : Reader α :=
  .ofToken expected fun
    | .integer value =>
      some (if low ≤ value ∧ value ≤ high then .ok (convert value)
        else mismatch (.outOfRange value expected))
    | _ => none

/-- A 32-bit signed integer. -/
def int32 : Reader Int32 := integer "i32" (-0x80000000) 0x7FFFFFFF (·.toInt32)

/-- A 64-bit signed integer. -/
def int64 : Reader Int64 :=
  integer "i64" (-0x8000000000000000) 0x7FFFFFFFFFFFFFFF (·.toInt64)

/-- A 32-bit unsigned integer. -/
def uint32 : Reader UInt32 := integer "u32" 0 0xFFFFFFFF (·.toNat.toUInt32)

/-- A string in a format of its own. -/
def formatted {α : Type} (expected reason : String) (parse? : String → Option α) : Reader α :=
  .ofToken expected fun
    | .str value =>
      some (match parse? value with
        | some a => .ok a
        | none => mismatch (.unreadable reason))
    | _ => none

/-- A value or null. -/
def nullable {α : Type} (reader : Reader α) : Reader (Option α) := fun input =>
  match skipBlank input with
  | b :: rest =>
    if b = 0x6E then
      match after? [0x75, 0x6C, 0x6C] rest with
      | some rest => .ok (none, rest)
      | none => .error .malformed
    else (reader input).map fun found => (some found.1, found.2)
  | [] => .error .malformed

/-- Whether a slot may stay empty: never, only in an object, or in an array too. -/
inductive Presence where
  | required
  | optionalMember
  | optional
  deriving DecidableEq

/-- A slot of a record under construction `σ`: its key, whether it is filled, and how to fill it. -/
structure Slot (σ : Type) where
  name : String
  presence : Presence
  isFilled : σ → Bool
  fill : Reader (σ → σ)

/-- A record: its name in messages, its slots in declaration order, an empty record, and the
finished value, which exists once every required slot is filled. -/
structure Shape (α : Type) where
  σ : Type
  name : String
  slots : List (Slot σ)
  empty : σ
  finish? : σ → Option α

/-- How a message names the record in general, and as a sequence. -/
def Shape.expected {α : Type} (shape : Shape α) : String := "struct " ++ shape.name

/-- How a message names the record where a sequence is too short for it. -/
def Shape.expectedLength {α : Type} (shape : Shape α) : String :=
  shape.expected ++ " with " ++ toString shape.slots.length ++ " elements"

/-- A key: a quoted text before a colon. -/
def key? (input : List UInt8) : Option (String × List UInt8) := do
  let rest ← after? [0x22] (skipBlank input)
  string? rest

/-- What follows a colon. -/
def afterColon? (input : List UInt8) : Option (List UInt8) :=
  after? [0x3A] (skipBlank input)

/-- Reads one member. A key that comes twice is refused before its value is read. -/
def readMember {σ : Type} (bound : Nat) (slots : List (Slot σ)) (record : σ) : Reader σ :=
  fun input =>
    match key? input with
    | none => .error .malformed
    | some (key, rest) =>
      match slots.find? (·.name == key) with
      | none =>
        match afterColon? rest >>= pass bound .value [] with
        | none => .error .malformed
        | some rest => .ok (record, rest)
      | some slot =>
        if slot.isFilled record then mismatch (.duplicate slot.name)
        else
          match afterColon? rest with
          | none => .error .malformed
          | some rest =>
            match under (.field slot.name) (slot.fill rest) with
            | .error problem => .error problem
            | .ok (filled, rest) => .ok (filled record, rest)

/-- Reads the members after the first, up to the closing bracket. Each member has at least one
octet, so the number of octets bounds their number. -/
def readMembers {σ : Type} (bound : Nat) (slots : List (Slot σ)) :
    Nat → σ → Reader σ
  | 0, _, _ => .error .malformed
  | members + 1, record, input =>
    match skipBlank input with
    | [] => .error .malformed
    | b :: rest =>
      if b = 0x7D then .ok (record, rest)
      else if b = 0x2C then
        match readMember bound slots record rest with
        | .error problem => .error problem
        | .ok (record, rest) => readMembers bound slots members record rest
      else .error .malformed

/-- The first required slot that a finished object left empty. -/
def firstMissing {σ : Type} (slots : List (Slot σ)) (record : σ) : Option (Slot σ) :=
  slots.find? fun slot => slot.presence == .required && !slot.isFilled record

/-- An object after its opening bracket, without the check for missing members. -/
def readObject {σ : Type} (bound : Nat) (slots : List (Slot σ)) (record : σ) : Reader σ :=
  fun input =>
    match skipBlank input with
    | [] => .error .malformed
    | b :: rest =>
      if b = 0x7D then .ok (record, rest)
      else
        match readMember bound slots record (b :: rest) with
        | .error problem => .error problem
        | .ok (record, rest) => readMembers bound slots bound record rest

/-- Fills slots by position from an array whose next item has the given position. When the array
ends early, the slots that are left must be optional. -/
def readItems {σ : Type} (expectedLength : String) (position : Nat) (record : σ) :
    List (Slot σ) → Reader σ
  | [], input =>
    match skipBlank input with
    | [] => .error .malformed
    | b :: rest => if b = 0x5D then .ok (record, rest) else .error .malformed
  | slot :: later, input =>
    match skipBlank input with
    | [] => .error .malformed
    | b :: rest =>
      if b = 0x5D then
        match (slot :: later).findIdx? fun slot => slot.presence ≠ .optional with
        | some ahead => mismatch (.tooShort (position + ahead) expectedLength)
        | none => .ok (record, rest)
      else
        let item :=
          if position = 0 then some (b :: rest)
          else if b = 0x2C then
            let next := skipBlank rest
            if next.head? = some 0x5D then none else some next
          else none
        match item with
        | none => .error .malformed
        | some item =>
          match under (.index position) (slot.fill item) with
          | .error problem => .error problem
          | .ok (filled, rest) =>
            readItems expectedLength (position + 1) (filled record) later rest

/-- The finished value of a record. -/
def Shape.close {α : Type} (shape : Shape α) (record : shape.σ) : Except Problem α :=
  match shape.finish? record with
  | some a => .ok a
  | none => .error .malformed

/-- Reads a record from an object or an array. -/
def Shape.reader {α : Type} (shape : Shape α) (bound : Nat) : Reader α := fun input =>
  match token? input with
  | none => .error .malformed
  | some (.openObject, rest) =>
    match readObject bound shape.slots shape.empty rest with
    | .error problem => .error problem
    | .ok (record, rest) =>
      match firstMissing shape.slots record with
      | some slot => mismatch (.missing slot.name)
      | none => (shape.close record).map fun a => (a, rest)
  | some (.openArray, rest) =>
    match readItems shape.expectedLength 0 shape.empty shape.slots rest with
    | .error problem => .error problem
    | .ok (record, rest) => (shape.close record).map fun a => (a, rest)
  | some (token, _) => mismatch (.wrongType token shape.expected)

/-- Reads the items of an array after the first `position`, collected in reverse. -/
def readList {α : Type} (item : Reader α) : Nat → Nat → List α → Reader (List α)
  | 0, _, _, _ => .error .malformed
  | items + 1, position, found, input =>
    match skipBlank input with
    | [] => .error .malformed
    | b :: rest =>
      if b = 0x5D then .ok (found.reverse, rest)
      else
        let next :=
          if position = 0 then some (b :: rest)
          else if b = 0x2C then
            let next := skipBlank rest
            if next.head? = some 0x5D then none else some next
          else none
        match next with
        | none => .error .malformed
        | some next =>
          match under (.index position) (item next) with
          | .error problem => .error problem
          | .ok (a, rest) => readList item items (position + 1) (a :: found) rest

/-- An array of values of one type. -/
def listOf {α : Type} (bound : Nat) (item : Reader α) : Reader (List α) := fun input =>
  match token? input with
  | none => .error .malformed
  | some (.openArray, rest) => readList item bound 0 [] rest
  | some (token, _) => mismatch (.wrongType token "a sequence")

/-- Reads a whole document: after the value only blanks may follow. -/
def decode {α : Type} (reader : Nat → Reader α) (document : List UInt8) : Except Problem α :=
  match reader (stepBound document) document with
  | .error problem => .error problem
  | .ok (a, rest) => if (skipBlank rest).isEmpty then .ok a else .error .malformed

end StatusRegistry.Json
