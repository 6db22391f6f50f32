/-!
# Divided sequences

A sequence divided at a separator has one part more than the separator occurs in it.
-/

namespace StatusRegistry

/-- The parts of a sequence between the occurrences of a separator, collected in reverse. -/
def splitOnto {α : Type} [DecidableEq α] (separator : α) (parts : List (List α)) (part : List α) :
    List α → List (List α)
  | [] => (part.reverse :: parts).reverse
  | a :: rest =>
    if a = separator then splitOnto separator (part.reverse :: parts) [] rest
    else splitOnto separator parts (a :: part) rest

/-- The parts of a sequence between the occurrences of a separator, at least one. -/
def splitAt {α : Type} [DecidableEq α] (separator : α) (sequence : List α) : List (List α) :=
  splitOnto separator [] [] sequence

example : splitAt ',' "a,,b".toList = [['a'], [], ['b']] := by decide

end StatusRegistry
