/-!
# Collations

A store compares texts in two ways: it sorts rows by a name, and it looks for a text in another
without regard to letter case. Both are settings of a database. The order has to be one, and the
folding of case may be any that folds each character by itself.
-/

namespace StatusRegistry

open Std

/-- How a store compares texts. -/
structure Collation where
  /-- How two texts compare where rows are sorted. -/
  compareTexts : String → String → Ordering
  /-- Texts are in an order, in which different ones may tie. -/
  isOrder : TransCmp compareTexts
  /-- The character that stands for all its letter cases where texts are searched. -/
  fold : Char → Char

namespace Collation

/-- The order of code points. -/
def compareCodePoints : List Char → List Char → Ordering
  | [], [] => .eq
  | [], _ :: _ => .lt
  | _ :: _, [] => .gt
  | a :: as, b :: bs => (compare a.toNat b.toNat).then (compareCodePoints as bs)

/-- Code points compare as lists of numbers. -/
theorem compareCodePoints_eq : compareCodePoints = List.compareLex (compareOn Char.toNat) := by
  funext as bs
  induction as generalizing bs with
  | nil => cases bs <;> rfl
  | cons a as ih =>
    cases bs with
    | nil => rfl
    | cons b bs => rw [compareCodePoints, ih, List.compareLex_cons_cons, compareOn]

instance : TransCmp compareCodePoints := compareCodePoints_eq ▸ inferInstance

/-- Texts are sorted by code point, and only ASCII letters have a case. -/
def codePoints : Collation where
  compareTexts a b := compareCodePoints a.toList b.toList
  isOrder := {
    eq_swap := OrientedCmp.eq_swap
    isLE_trans := TransCmp.isLE_trans }
  fold := Char.toLower

instance (c : Collation) : TransCmp c.compareTexts := c.isOrder

end Collation

end StatusRegistry
