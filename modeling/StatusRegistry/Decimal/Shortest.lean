import StatusRegistry.Decimal.Binary64

/-!
# Shortest decimal text

A magnitude is written with the fewest digits that round back to it, and among those with the
decimal nearest to it. Where positional notation begins and ends is a decision of the format that
uses the digits; see `Style`.
-/

namespace StatusRegistry.Shortest

/-- The decimal `digits * 10 ^ exponent`. -/
structure Decimal where
  digits : Nat
  exponent : Int
  deriving DecidableEq, Repr

/-- How the quotient `num / den` compares with `digits * 10 ^ exponent`. -/
def compareWith (num den digits : Nat) (exponent : Int) : Ordering :=
  if 0 ≤ exponent then compare num (digits * Nat.pow 10 exponent.toNat * den)
  else compare (num * Nat.pow 10 (-exponent).toNat) (digits * den)

/-- The numbers that round to a magnitude, in quarters of its unit: the two ends, and whether they
belong to it. Below a power of two the magnitudes lie twice as close. -/
def ends (x : Binary64) : Nat × Nat × Bool :=
  let m := x.mantissa
  let isPower : Bool := m = Binary64.leastNormal ∧ x.exponent > Binary64.leastExponent
  let low := if isPower then 4 * m - 1 else 4 * m - 2
  (low, 4 * m + 2, m % 2 = 0)

/-- A count of quarter units of a magnitude as a quotient of natural numbers. -/
def quarters (x : Binary64) (count : Nat) : Nat × Nat :=
  Binary64.shifted count 1 (-(x.exponent - 2))

/-- Whether a decimal rounds to a magnitude. -/
def roundsTo (x : Binary64) (d : Decimal) : Bool :=
  let (low, high, closed) := ends x
  let (ln, ld) := quarters x low
  let (hn, hd) := quarters x high
  match compareWith ln ld d.digits d.exponent, compareWith hn hd d.digits d.exponent with
  | .lt, .gt => true
  | .eq, _ => closed
  | _, .eq => closed
  | _, _ => false

/-- The exponent of the power of ten at or below a positive quotient. -/
def decimalExponent (num den : Nat) : Int :=
  let guess := ((Nat.log2 num : Int) - Nat.log2 den) * 30103 / 100000 - 1
  if compareWith num den 1 (guess + 2) ≠ .lt then guess + 2
  else if compareWith num den 1 (guess + 1) ≠ .lt then guess + 1
  else guess

/-- The decimal below a quotient on the grid of a power of ten. -/
def floorOn (num den : Nat) (exponent : Int) : Nat :=
  if 0 ≤ exponent then num / (den * Nat.pow 10 exponent.toNat)
  else num * Nat.pow 10 (-exponent).toNat / den

/-- Whether the upper neighbour on a grid is nearer than the lower one; the even one wins a tie. -/
def upperNearer (num den lower : Nat) (exponent : Int) : Bool :=
  let (n, d) := if 0 ≤ exponent then (num, den * Nat.pow 10 exponent.toNat)
    else (num * Nat.pow 10 (-exponent).toNat, den)
  match compare (2 * n) ((2 * lower + 1) * d) with
  | .gt => true
  | .eq => lower % 2 = 1
  | .lt => false

/-- The decimal of a grid that rounds to a magnitude and is nearest to it, if there is one. -/
def onGrid? (x : Binary64) (exponent : Int) : Option Decimal :=
  let (num, den) := x.ratio
  let lower := floorOn num den exponent
  let down : Decimal := ⟨lower, exponent⟩
  let up : Decimal := ⟨lower + 1, exponent⟩
  match roundsTo x down, roundsTo x up with
  | true, true => some (if upperNearer num den lower exponent then up else down)
  | true, false => some down
  | false, true => some up
  | false, false => none

/-- Moves trailing zeros of the digits into the exponent. -/
def stripZeros : Nat → Decimal → Decimal
  | 0, d => d
  | fuel + 1, d =>
    if d.digits ≠ 0 ∧ d.digits % 10 = 0 then stripZeros fuel ⟨d.digits / 10, d.exponent + 1⟩ else d

/-- The shortest decimal that rounds to a positive magnitude. -/
def ofMagnitude (x : Binary64) : Decimal :=
  let (num, den) := x.ratio
  let top := decimalExponent num den
  let grids := (List.range 17).map fun (i : Nat) => top - (i : Int)
  stripZeros 20 ((grids.findSome? (onGrid? x)).getD ⟨0, 0⟩)

/-- Where positional notation ends: the least and greatest exponent of the first digit, and the
mark and sign in front of other exponents. -/
structure Style where
  least : Int
  greatest : Int
  positiveMark : String
  negativeMark : String

/-- The digits of a decimal with a point after the first `count` of them. -/
def pointed (digits : List Char) (count : Nat) : List Char :=
  digits.take count ++ '.' :: digits.drop count

/-- The characters of a positive decimal. -/
def Decimal.toChars (style : Style) (d : Decimal) : List Char :=
  let digits := Nat.toDigits 10 d.digits
  let top := d.exponent + digits.length - 1
  if style.least ≤ top ∧ top ≤ style.greatest then
    if 0 ≤ d.exponent then digits ++ List.replicate d.exponent.toNat '0' ++ ['.', '0']
    else if 0 ≤ top then pointed digits (top.toNat + 1)
    else '0' :: '.' :: List.replicate (-top - 1).toNat '0' ++ digits
  else
    let shown := if digits.length = 1 then digits else pointed digits 1
    let mark := if top < 0 then style.negativeMark else style.positiveMark
    shown ++ mark.toList ++ Nat.toDigits 10 top.natAbs

/-- The characters of a magnitude. -/
def chars (style : Style) (x : Binary64) : List Char :=
  if x.isZero then ['0', '.', '0'] else (ofMagnitude x).toChars style

end StatusRegistry.Shortest
