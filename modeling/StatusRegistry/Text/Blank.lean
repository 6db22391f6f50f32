/-!
# Blank text

Blank characters are those with the Unicode property White_Space. Every trimming in the registry
uses this set, so a name made of ideographic spaces counts as blank too.
-/

namespace StatusRegistry

/-- Whether a character has the property White_Space. -/
def isBlank (c : Char) : Bool :=
  let v := c.toNat
  (9 ≤ v && v ≤ 13) || v == 0x20 || v == 0x85 || v == 0xA0 || v == 0x1680 ||
    (0x2000 ≤ v && v ≤ 0x200A) || v == 0x2028 || v == 0x2029 || v == 0x202F || v == 0x205F ||
    v == 0x3000

/-- Core's whitespace is blank. -/
theorem isBlank_of_isWhitespace {c : Char} (h : c.isWhitespace = true) : isBlank c = true := by
  simp only [Char.isWhitespace, Bool.or_eq_true, decide_eq_true_eq] at h
  rcases h with ((rfl | rfl) | rfl) | rfl <;> decide

/-- A text without the given characters at both ends. -/
def trimBoth (p : Char → Bool) (cs : List Char) : List Char :=
  ((cs.dropWhile p).reverse.dropWhile p).reverse

/-- Characters without the blank ones at both ends. -/
def trimBlank (cs : List Char) : List Char := trimBoth isBlank cs

/-- A text without the blank characters at both ends. -/
def trimmed (s : String) : String :=
  String.ofList (trimBlank s.toList)

/-- Whether a text holds nothing but blank characters. -/
def isBlankText (s : String) : Bool :=
  s.toList.all isBlank

end StatusRegistry
