/-!
# Patterns

Patterns match a whole text: a percent sign stands for any sequence of characters, an underscore
for any one, and a backslash makes the next character stand for itself. A character stands for those
that a folding of letter case takes for the same. `escape` turns a text into a pattern that stands
for that text alone.
-/

namespace StatusRegistry.Like

/-- Whether a character has a meaning of its own in a pattern. -/
def isSpecial (c : Char) : Bool := c = '\\' || c = '%' || c = '_'

/-- The pattern that stands for a text. -/
def escape (cs : List Char) : List Char :=
  cs.flatMap fun c => if isSpecial c then ['\\', c] else [c]

/-- The ends of a text, from the whole to the empty one. -/
def suffixes : List Char → List (List Char)
  | [] => [[]]
  | c :: rest => (c :: rest) :: suffixes rest

/-- Whether a pattern matches a text, up to a folding of letter case. -/
def isMatch (fold : Char → Char) : List Char → List Char → Bool
  | [], text => text.isEmpty
  | '%' :: pattern, text => (suffixes text).any (isMatch fold pattern)
  | '_' :: pattern, text =>
    match text with
    | [] => false
    | _ :: rest => isMatch fold pattern rest
  | '\\' :: c :: pattern, text =>
    match text with
    | [] => false
    | d :: rest => fold d = fold c && isMatch fold pattern rest
  | c :: pattern, text =>
    match text with
    | [] => false
    | d :: rest => fold d = fold c && isMatch fold pattern rest

/-- Whether a pattern occurs in a text, up to a folding of letter case. -/
def contains (fold : Char → Char) (pattern text : String) : Bool :=
  isMatch fold ('%' :: pattern.toList ++ ['%']) text.toList

end StatusRegistry.Like
