/-!
# JSON values and their compact text

Values with integers only, since the registry writes no fractions. Members keep their order.
Printing puts nothing between tokens and escapes quotes, backslashes and control characters.
-/

namespace StatusRegistry

/-- A JSON value. -/
inductive Json where
  | null
  | bool (value : Bool)
  | int (value : Int)
  | str (value : String)
  | arr (items : List Json)
  | obj (members : List (String × Json))
  deriving Inhabited

namespace Json

/-- Four lower-case hexadecimal digits. -/
def hex4 (n : Nat) : List Char :=
  [n / 4096 % 16, n / 256 % 16, n / 16 % 16, n % 16].map fun d =>
    Char.ofNat (if d < 10 then 0x30 + d else 0x57 + d)

/-- The form of a character inside a JSON string. -/
def escapeChar (c : Char) : List Char :=
  if c = '"' then ['\\', '"']
  else if c = '\\' then ['\\', '\\']
  else if 0x20 ≤ c.toNat then [c]
  else if c = '\n' then ['\\', 'n']
  else if c = '\r' then ['\\', 'r']
  else if c = '\t' then ['\\', 't']
  else if c = '\x08' then ['\\', 'b']
  else if c = '\x0c' then ['\\', 'f']
  else ['\\', 'u'] ++ hex4 c.toNat

/-- A JSON string with its quotes. -/
def quote (s : String) : List Char :=
  '"' :: s.toList.flatMap escapeChar ++ ['"']

/-- A decimal integer. -/
def integerChars (n : Int) : List Char :=
  if n < 0 then '-' :: Nat.toDigits 10 n.natAbs else Nat.toDigits 10 n.natAbs

mutual

/-- The compact characters of a value. -/
def toChars : Json → List Char
  | .null => ['n', 'u', 'l', 'l']
  | .bool true => ['t', 'r', 'u', 'e']
  | .bool false => ['f', 'a', 'l', 's', 'e']
  | .int n => integerChars n
  | .str s => quote s
  | .arr [] => ['[', ']']
  | .arr (item :: later) => '[' :: item.toChars ++ itemsChars later
  | .obj [] => ['\x7b', '\x7d']
  | .obj ((key, value) :: later) =>
    '\x7b' :: quote key ++ ':' :: value.toChars ++ membersChars later

/-- The characters of the items after the first, and of the closing bracket. -/
def itemsChars : List Json → List Char
  | [] => [']']
  | item :: later => ',' :: item.toChars ++ itemsChars later

/-- The characters of the members after the first, and of the closing bracket. -/
def membersChars : List (String × Json) → List Char
  | [] => ['\x7d']
  | (key, value) :: later => ',' :: quote key ++ ':' :: value.toChars ++ membersChars later

end

/-- The compact text of a value. -/
def text (value : Json) : String := String.ofList value.toChars

/-- Replaces the member of the given key, or adds it at the end. -/
def setMember (key : String) (value : Json) : List (String × Json) → List (String × Json)
  | [] => [(key, value)]
  | (k, v) :: later => if k = key then (k, value) :: later else (k, v) :: setMember key value later

end Json

end StatusRegistry
