import StatusRegistry.Json.Token

/-!
# Values passed over

A member that nobody asked for must still be a JSON value, of any depth. Passing over it checks the
form of its tokens but not the text they stand for: its strings may hold lone surrogates and its
numbers may be of any size.

Open brackets stand on a list, not on the call stack, so depth costs no recursion.
-/

namespace StatusRegistry.Json

/-- Where the reader of an unread string stands: between characters, after a backslash, or before
a number of hexadecimal digits. -/
inductive UnreadState where
  | plain
  | escape
  | code (left : Nat)

/-- What follows the closing quote of an unread string. -/
def passString (state : UnreadState) : List UInt8 → Option (List UInt8)
  | [] => none
  | b :: rest =>
    match state with
    | .plain =>
      if b = 0x22 then some rest
      else if b = 0x5C then passString .escape rest
      else if b < 0x20 then none
      else passString .plain rest
    | .escape =>
      if b = 0x75 then passString (.code 4) rest
      else if (shortEscape? b).isSome then passString .plain rest
      else none
    | .code left =>
      if (Percent.hexValue? b).isNone then none
      else if left ≤ 1 then passString .plain rest
      else passString (.code (left - 1)) rest

/-- What follows a run of at least one digit. -/
def passDigits (input : List UInt8) : Option (List UInt8) :=
  if (input.head?.bind digit?).isSome then some (input.dropWhile isDigit) else none

/-- What follows an exponent, if there is one. -/
def passExponent (input : List UInt8) : Option (List UInt8) :=
  match input with
  | [] => some []
  | b :: rest =>
    if b = 0x65 ∨ b = 0x45 then
      match rest with
      | [] => none
      | c :: digits => passDigits (if c = 0x2B ∨ c = 0x2D then digits else rest)
    else some input

/-- What follows a number after its sign. -/
def passUnsigned (input : List UInt8) : Option (List UInt8) := do
  let rest ← passDigits input
  if input.head? = some 0x30 ∧ ((input.drop 1).head?.bind digit?).isSome then none
  match rest with
  | [] => some []
  | b :: fraction =>
    if b = 0x2E then
      let rest ← passDigits fraction
      passExponent rest
    else passExponent rest

/-- What follows a scalar whose first octet is not blank. -/
def passScalar (input : List UInt8) : Option (List UInt8) :=
  match input with
  | [] => none
  | b :: rest =>
    match b.toNat with
    | 0x22 => passString .plain rest
    | 0x6E => after? [0x75, 0x6C, 0x6C] rest
    | 0x74 => after? [0x72, 0x75, 0x65] rest
    | 0x66 => after? [0x61, 0x6C, 0x73, 0x65] rest
    | 0x2D => passUnsigned rest
    | _ => passUnsigned input

/-- What follows the key of a member and its colon. -/
def passKey (input : List UInt8) : Option (List UInt8) := do
  let rest ← after? [0x22] (skipBlank input)
  let rest ← passString .plain rest
  after? [0x3A] (skipBlank rest)

/-- The kind of an open bracket. -/
inductive Bracket where
  | array
  | object
  deriving DecidableEq

/-- What may come next: a value, the first item of a bracket just opened, or what follows a
value. -/
inductive Place where
  | value
  | opened
  | ended

/-- What follows a value, with the brackets that enclose it innermost first. Each step passes an
octet or turns from one place to another, so twice the number of octets bounds the steps. -/
def pass : Nat → Place → List Bracket → List UInt8 → Option (List UInt8)
  | 0, _, _, _ => none
  | steps + 1, .value, enclosing, input =>
    match skipBlank input with
    | [] => none
    | b :: rest =>
      if b = 0x5B then pass steps .opened (.array :: enclosing) rest
      else if b = 0x7B then pass steps .opened (.object :: enclosing) rest
      else
        match passScalar (b :: rest) with
        | none => none
        | some rest => pass steps .ended enclosing rest
  | _ + 1, .opened, [], _ => none
  | steps + 1, .opened, .array :: outer, input =>
    match skipBlank input with
    | [] => none
    | b :: rest =>
      if b = 0x5D then pass steps .ended outer rest
      else pass steps .value (.array :: outer) (b :: rest)
  | steps + 1, .opened, .object :: outer, input =>
    match skipBlank input with
    | [] => none
    | b :: rest =>
      if b = 0x7D then pass steps .ended outer rest
      else
        match passKey (b :: rest) with
        | none => none
        | some rest => pass steps .value (.object :: outer) rest
  | _ + 1, .ended, [], input => some input
  | steps + 1, .ended, .array :: outer, input =>
    match skipBlank input with
    | [] => none
    | b :: rest =>
      if b = 0x2C then pass steps .value (.array :: outer) rest
      else if b = 0x5D then pass steps .ended outer rest
      else none
  | steps + 1, .ended, .object :: outer, input =>
    match skipBlank input with
    | [] => none
    | b :: rest =>
      if b = 0x2C then
        match passKey rest with
        | none => none
        | some rest => pass steps .value (.object :: outer) rest
      else if b = 0x7D then pass steps .ended outer rest
      else none

/-- The number of steps that suffice to pass over any value of an input. -/
def stepBound (input : List UInt8) : Nat := 2 * input.length + 2

end StatusRegistry.Json
