import StatusRegistry.Text.Blank

/-!
# Scanning text

A scan reads some characters from the front of a text and yields a value, or refuses. A refused
scan reads nothing, so an alternative starts where the refused one did.
-/

namespace StatusRegistry

/-- A reader of the front of a text; the state is what remains. -/
abbrev Scan (α : Type) : Type := StateT (List Char) Option α

namespace Scan

/-- The value of a scan that reads a whole text. -/
def whole? {α : Type} (scan : Scan α) (cs : List Char) : Option α :=
  match scan cs with
  | some (a, []) => some a
  | _ => none

/-- One given character. -/
def expect (c : Char) : Scan Unit := fun cs =>
  match cs with
  | [] => none
  | d :: rest => if d = c then some ((), rest) else none

/-- The next character if it passes a test. -/
def one (p : Char → Bool) : Scan Char := fun cs =>
  match cs with
  | [] => none
  | d :: rest => if p d then some (d, rest) else none

/-- The longest run of characters that pass a test. -/
def run (p : Char → Bool) : Scan (List Char) := fun cs =>
  some (cs.takeWhile p, cs.dropWhile p)

/-- The longest run of at most `limit` characters that pass a test. -/
def runUpTo (limit : Nat) (p : Char → Bool) : Scan (List Char) := fun cs =>
  let taken := (cs.take limit).takeWhile p
  some (taken, cs.drop taken.length)

/-- A scan that may be absent. -/
def optional {α : Type} (scan : Scan α) : Scan (Option α) := fun cs =>
  match scan cs with
  | some (a, rest) => some (some a, rest)
  | none => some (none, cs)

/-- Passes over blank characters. -/
def skipBlank : Scan Unit := fun cs => some ((), cs.dropWhile isBlank)

/-- The natural number that digits of a base spell. -/
def natOfDigits (base : Nat) (digits : List Nat) : Nat :=
  digits.foldl (fun n d => n * base + d) 0

end Scan

end StatusRegistry
