import Mathlib.Data.List.Dedup
import StatusRegistry.Store.Statement

/-!
# Placeholders

The text of a statement has a numbered placeholder wherever a value belongs. What a placeholder
stands for is read off the text: the column that it is compared with, assigned to or inserted into,
the offset or the limit. The values that accompany a statement are exactly those that its
placeholders stand for, each under the number of its own.
-/

namespace StatusRegistry

/-- A lexeme of the text of a statement. -/
inductive Lexeme where
  | word (letters : List Char)
  | placeholder (number : Nat)
  | sign (c : Char)
  deriving DecidableEq

namespace Lexeme

/-- The lexeme that some characters form, given in reverse, if there are any. -/
def ofReversed (cs : List Char) : List Lexeme :=
  match cs.reverse with
  | [] => []
  | '$' :: digits => [.placeholder (Nat.ofDigitChars 10 digits 0)]
  | letters => [.word letters]

/-- The lexemes of a text behind the characters of one that has been begun. -/
def scanOnto (begun : List Char) : List Char → List Lexeme
  | [] => ofReversed begun
  | c :: rest =>
    if c.isAlphanum || c = '_' then scanOnto (c :: begun) rest
    else if c = '$' then ofReversed begun ++ scanOnto [c] rest
    else if c = ' ' then ofReversed begun ++ scanOnto [] rest
    else ofReversed begun ++ .sign c :: scanOnto [] rest

/-- The lexemes of a text. -/
def scan (text : List Char) : List Lexeme := scanOnto [] text

end Lexeme

example : Lexeme.scan "SET a_b = $12".toList =
    [.word "SET".toList, .word "a_b".toList, .sign '=', .placeholder 12] := by decide +kernel

/-- The letters of a lexeme that is a word. -/
def Lexeme.word? : Lexeme → Option String
  | .word letters => some (String.ofList letters)
  | _ => none

/-- The number of a lexeme that is a placeholder. -/
def Lexeme.placeholder? : Lexeme → Option Nat
  | .placeholder n => some n
  | _ => none

/-- The numbers of the placeholders of a text, in order. -/
def placeholders (text : List Char) : List Nat := (Lexeme.scan text).filterMap Lexeme.placeholder?

/-- The placeholders that columns are compared with or set to, or that give an extent. -/
def assigned : List Lexeme → List (String × Nat)
  | .word column :: .sign '=' :: .placeholder n :: rest =>
    (String.ofList column, n) :: assigned rest
  | .word column :: .word like :: .sign '\'' :: .sign '%' :: .sign '\'' :: .sign '|' :: .sign '|' ::
      .placeholder n :: rest =>
    if like = "ILIKE".toList then (String.ofList column, n) :: assigned rest else assigned rest
  | .word extent :: .placeholder n :: rest => (String.ofList extent, n) :: assigned rest
  | _ :: rest => assigned rest
  | [] => []

/-- The lexemes between the next brackets. -/
def bracketed (lexemes : List Lexeme) : List Lexeme :=
  (lexemes.dropWhile (· ≠ .sign '(')).takeWhile (· ≠ .sign ')')

/-- The placeholders that are inserted into columns, which stand in the order of the columns. -/
def inserted : List Lexeme → List (String × Nat)
  | .word verb :: rest =>
    if verb = "INSERT".toList then
      ((bracketed rest).filterMap Lexeme.word?).zip
        ((bracketed (rest.dropWhile (· ≠ .sign ')'))).filterMap Lexeme.placeholder?)
    else []
  | _ => []

/-- What the placeholders of a text stand for. -/
def slots (text : List Char) : List (String × Nat) :=
  inserted (Lexeme.scan text) ++ assigned (Lexeme.scan text)

namespace Statement

/-- The values that a filter wants of the columns. -/
def filterValues (f : Filter) : List (String × Argument) :=
  [("name", .text f.name), ("description", .text f.description), ("active", .flag f.active),
    ("order_number", .int32 f.orderNumber)]

/-- The values that a pattern is wanted of the columns. -/
def patternValues (pattern : String) : List (String × Argument) :=
  [("name", .text (some pattern)), ("description", .text (some pattern))]

/-- The values of the extent of a page. -/
def extentValues (offset limit : Int64) : List (String × Argument) :=
  [("OFFSET", .int64 offset), ("LIMIT", .int64 limit)]

/-- The value that a statement has for each column that it uses, and for its extent. -/
def values : Statement → List (String × Argument)
  | .createStatus draft owner =>
    [("name", .text (some draft.name)), ("description", .text (some draft.description)),
      ("active", .flag (some draft.active)), ("order_number", .int32 (some draft.orderNumber)),
      ("created_by", .uuid owner), ("updated_by", .uuid owner)]
  | .updateStatus id updater revision =>
    [("description", .text (some revision.description)), ("active", .flag (some revision.active)),
      ("order_number", .int32 (some revision.orderNumber)), ("updated_by", .uuid updater),
      ("id", .uuid id)]
  | .findStatus id => [("id", .uuid id)]
  | .deleteStatus id => [("id", .uuid id)]
  | .countFiltered filter => filterValues filter
  | .pageFiltered filter _ offset limit => filterValues filter ++ extentValues offset limit
  | .countMatching pattern => patternValues pattern
  | .pageMatching pattern _ offset limit => patternValues pattern ++ extentValues offset limit
  | .findTokenUser digest => [("token_hash", .text (some digest))]
  | .touchToken digest => [("token_hash", .text (some digest))]
  | .createToken name digest user =>
    [("name", .text (some name)), ("token_hash", .text (some digest)), ("user_id", .uuid user)]
  | .findTokenById id => [("id", .int64 id)]
  | .findTokenByName name => [("name", .text (some name))]
  | .revokeToken id => [("id", .int64 id)]
  | _ => []

/-- The columns that the placeholders of a statement stand for, each with its number. -/
def columns : Statement → List (String × Nat)
  | .createStatus .. =>
    [("name", 1), ("description", 2), ("active", 3), ("order_number", 4), ("created_by", 5),
      ("updated_by", 5)]
  | .updateStatus .. =>
    [("description", 1), ("active", 2), ("order_number", 3), ("updated_by", 4), ("id", 5)]
  | .countFiltered _ => [("name", 1), ("description", 2), ("active", 3), ("order_number", 4)]
  | .pageFiltered .. =>
    [("name", 1), ("description", 2), ("active", 3), ("order_number", 4), ("OFFSET", 5),
      ("LIMIT", 6)]
  | .countMatching _ => [("name", 1), ("description", 1)]
  | .pageMatching .. => [("name", 1), ("description", 1), ("OFFSET", 2), ("LIMIT", 3)]
  | .createToken .. => [("name", 1), ("token_hash", 2), ("user_id", 3)]
  | .findStatus _ | .deleteStatus _ | .findTokenById _ | .revokeToken _ => [("id", 1)]
  | .findTokenUser _ | .touchToken _ => [("token_hash", 1)]
  | .findTokenByName _ => [("name", 1)]
  | _ => []

/-- The placeholders of a text have the numbers from one to some number, and stand for given
columns. -/
def HasSlots (text : List Char) (count : Nat) (columns : List (String × Nat)) : Prop :=
  (placeholders text).dedup = List.range' 1 count ∧ slots text = columns ∧
    ∀ n ∈ placeholders text, ∃ slot ∈ columns, slot.2 = n

instance (text : List Char) (count : Nat) (columns : List (String × Nat)) :
    Decidable (HasSlots text count columns) :=
  inferInstanceAs (Decidable (_ ∧ _ ∧ _))

/-- The text of a statement has as many placeholders as the statement has values. -/
theorem hasSlots_columns (q : Statement) :
    HasSlots q.sql.toList q.arguments.length q.columns := by
  -- The parts of a text are turned into characters one by one, since reading a text that has been
  -- put together from them takes the kernel far too long.
  unfold sql statusColumns tokenColumns filterCondition searchCondition
  cases q with
  | pageFiltered filter order offset limit =>
    cases order <;>
    · simp only [Order.sql, String.toList_append, columns, arguments, filterArguments,
        List.length_append, List.length_cons, List.length_nil]
      repeat rw [String.toList_ofList]
      decide +kernel
  | pageMatching pattern order offset limit =>
    cases order <;>
    · simp only [Order.sql, String.toList_append, columns, arguments, List.length_cons,
        List.length_nil]
      repeat rw [String.toList_ofList]
      decide +kernel
  | _ =>
    simp only [String.toList_append, columns, arguments, filterArguments, List.length_cons,
      List.length_nil]
    repeat rw [String.toList_ofList]
    decide +kernel

/-- The value under the number of a column is the one that the statement has for the column. -/
theorem arguments_columns (q : Statement) :
    q.columns.map (fun slot => (slot.1, q.arguments[slot.2 - 1]?)) =
      q.values.map fun value => (value.1, some value.2) := by
  cases q <;> rfl

/-- The values that accompany a statement are those that its placeholders stand for. -/
structure IsAligned (q : Statement) : Prop where
  /-- The placeholders are numbered from one, without a gap, up to the number of values. -/
  numbered : (placeholders q.sql.toList).dedup = List.range' 1 q.arguments.length
  /-- It can be read off the text what a placeholder stands for. -/
  bound : ∀ n ∈ placeholders q.sql.toList, ∃ column, (column, n) ∈ slots q.sql.toList
  /-- A placeholder stands for the value of its own column, and every value has one. -/
  own : (slots q.sql.toList).map (fun slot => (slot.1, q.arguments[slot.2 - 1]?)) =
    q.values.map fun value => (value.1, some value.2)

/-- Every statement is aligned. -/
theorem isAligned (q : Statement) : q.IsAligned := by
  obtain ⟨numbered, read, bound⟩ := q.hasSlots_columns
  rw [← read] at bound
  refine ⟨numbered, ?_, ?_⟩
  · rintro n member
    obtain ⟨⟨column, _⟩, found, rfl⟩ := bound n member
    exact ⟨column, found⟩
  · rw [read]
    exact q.arguments_columns

end Statement

end StatusRegistry
