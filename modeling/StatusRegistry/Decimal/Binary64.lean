/-!
# Binary floating-point magnitudes

The nonnegative finite numbers of the 64-bit binary format, as exact values. Every operation takes
the exact result as a quotient of natural numbers and rounds it once, to the nearest magnitude and
to the even one of two equally near, so no operation depends on a processor.
-/

namespace StatusRegistry

/-- The number `mantissa * 2 ^ exponent`. Magnitudes made by rounding have a mantissa below
`2 ^ 53`, and one of at least `2 ^ 52` unless the exponent is least. -/
structure Binary64 where
  mantissa : Nat
  exponent : Int
  deriving DecidableEq, Repr

namespace Binary64

/-- The least exponent. -/
def leastExponent : Int := -1074

/-- The greatest exponent. -/
def greatestExponent : Int := 971

/-- The least mantissa of a magnitude whose exponent is not least: the 52nd power of two. -/
def leastNormal : Nat := 0x10000000000000

/-- The magnitude zero. -/
def zero : Binary64 := ⟨0, leastExponent⟩

/-- Whether a magnitude is zero. -/
def isZero (x : Binary64) : Bool := x.mantissa = 0

/-- The quotient of natural numbers nearest to the exact one; a tie goes to the even neighbour. -/
def divideToEven (num den : Nat) : Nat :=
  let q := num / den
  let twice := 2 * (num % den)
  if twice > den ∨ (twice = den ∧ q % 2 = 1) then q + 1 else q

/-- A quotient of natural numbers after division by a power of two, again as a quotient. -/
def shifted (num den : Nat) (exponent : Int) : Nat × Nat :=
  if 0 ≤ exponent then (num, den * Nat.pow 2 exponent.toNat)
  else (num * Nat.pow 2 (-exponent).toNat, den)

/-- The magnitude nearest to `num / den`, if it is finite. -/
def ofRatio? (num den : Nat) : Option Binary64 :=
  if num = 0 then some zero
  else
    let fine := max ((Nat.log2 num : Int) - Nat.log2 den - 53) leastExponent
    let (n, d) := shifted num den fine
    let exponent := if n / d < 2 * leastNormal then fine else fine + 1
    let (n, d) := shifted num den exponent
    let mantissa := divideToEven n d
    let rounded : Binary64 :=
      if mantissa = 2 * leastNormal then ⟨leastNormal, exponent + 1⟩ else ⟨mantissa, exponent⟩
    if rounded.exponent > greatestExponent then none else some rounded

/-- A magnitude as a quotient of natural numbers. -/
def ratio (x : Binary64) : Nat × Nat :=
  if 0 ≤ x.exponent then (x.mantissa * Nat.pow 2 x.exponent.toNat, 1)
  else (x.mantissa, Nat.pow 2 (-x.exponent).toNat)

/-- The product of two magnitudes, rounded. -/
def mul? (x y : Binary64) : Option Binary64 :=
  ofRatio? (x.ratio.1 * y.ratio.1) (x.ratio.2 * y.ratio.2)

/-- The quotient of two magnitudes, rounded. -/
def div? (x y : Binary64) : Option Binary64 :=
  ofRatio? (x.ratio.1 * y.ratio.2) (x.ratio.2 * y.ratio.1)

/-- The magnitude nearest to a natural number. -/
def ofNat? (n : Nat) : Option Binary64 := ofRatio? n 1

end Binary64

end StatusRegistry
