import Mathlib.Order.Bounds.Defs
import StatusRegistry.Proofs.Page
import StatusRegistry.Status

/-!
# Where the arithmetic of pages overflows

The number of rows before a page and the question whether rows follow it pass the checks of a build
with overflow checks for every request and every total. The page count adds the page size before it
divides, and that sum does not fit for totals within a page of the largest word. A build with
overflow checks panics there. A released build wraps around: the first of these totals still has the
right count, since one is taken away again, and for the rest the count is negative.
-/

namespace StatusRegistry.PageRequest

variable {q : PageRequest} {total : Int64}

/-- An operation passes the check if its result is the one among the integers. -/
theorem checked_eq_some {onIntegers : Int → Int → Int} {onWords : Int64 → Int64 → Int64}
    {a b : Int64} (same : (onWords a b).toInt = onIntegers a.toInt b.toInt) :
    checked onIntegers onWords a b = some (onWords a b) :=
  if_pos same

/-- An operation fails the check if its result is not the one among the integers. -/
theorem checked_eq_none {onIntegers : Int → Int → Int} {onWords : Int64 → Int64 → Int64}
    {a b : Int64} (differs : (onWords a b).toInt ≠ onIntegers a.toInt b.toInt) :
    checked onIntegers onWords a b = none :=
  if_neg differs

/-- The number before a page is exact. -/
theorem toInt_widen_sub_one (bounded : q.IsBounded) :
    (widen q.page - 1).toInt = (widen q.page).toInt - 1 := by
  have pos := bounded.page_pos
  have lt := q.page.toNat_lt
  rw [Int64.toInt_sub, toInt_widen, Int64.toInt_one]
  exact bmod_eq_self (by omega) (by omega)

/-- The number of rows up to the end of a page is exact. -/
theorem toInt_widen_mul (bounded : q.IsBounded) :
    (widen q.page * widen q.size).toInt = (widen q.page).toInt * (widen q.size).toInt := by
  have few := bounded.mul_le q.page.toNat (Nat.le_refl _)
  rw [Int64.toInt_mul, toInt_widen, toInt_widen, ← Int.natCast_mul]
  exact bmod_eq_self (by omega) (by omega)

/-- The number of rows before a page passes the checks. -/
theorem offset?_eq (bounded : q.IsBounded) : q.offset? = some q.offset := by
  have before := toInt_widen_sub_one bounded
  have product : ((widen q.page - 1) * widen q.size).toInt =
      (widen q.page - 1).toInt * (widen q.size).toInt := by
    have pos := bounded.page_pos
    have value := offset_toInt bounded
    rw [offset] at value
    rw [value, before, toInt_widen, toInt_widen, Int.natCast_mul]
    congr 1
    omega
  have first : checked (· - ·) (· - ·) (widen q.page) 1 = some (widen q.page - 1) :=
    checked_eq_some before
  rw [offset?, first]
  exact checked_eq_some product

/-- The end of a page passes the checks. -/
theorem hasMore?_eq (bounded : q.IsBounded) (total : Int64) :
    q.hasMore? total = some (q.hasMore total) := by
  have product : checked (· * ·) (· * ·) (widen q.page) (widen q.size) =
      some (widen q.page * widen q.size) := checked_eq_some (toInt_widen_mul bounded)
  rw [hasMore?, product]
  rfl

/-- Rows follow a page if there are more of them than up to its end. -/
theorem hasMore_iff_lt (bounded : q.IsBounded) (total : Int64) :
    q.hasMore total = true ↔ (q.page.toNat * q.size.toNat : Int) < total.toInt := by
  rw [hasMore, decide_eq_true_iff, Int64.lt_iff_toInt_lt, toInt_widen_mul bounded, toInt_widen,
    toInt_widen]

/-- Adding the page size to a total, and taking one away again, wraps around once at most. -/
theorem toInt_rounded (q : PageRequest) (total : Int64) :
    (total + widen q.size - 1).toInt =
      (total.toInt + q.size.toNat - 1).bmod 18446744073709551616 := by
  rw [Int64.toInt_sub, Int64.toInt_add, toInt_widen, Int64.toInt_one]
  exact Int.bmod_sub_bmod

/-- A wrapped page count divides by the page size. -/
theorem totalPages_of_pos (q : PageRequest) (positive : 0 < total.toInt) :
    (q.totalPages total).toInt =
      (total + widen q.size - 1).toInt.tdiv q.size.toNat := by
  have zero : (0 : Int64).toInt = 0 := rfl
  have some : ¬total ≤ 0 := by
    rw [Int64.le_iff_toInt_le, zero]
    omega
  have ne : widen q.size ≠ -1 := by
    intro same
    have value := congrArg Int64.toInt same
    have minus : (-1 : Int64).toInt = -1 := rfl
    rw [toInt_widen, minus] at value
    omega
  rw [totalPages, if_neg some, Int64.toInt_div_of_ne_right _ _ ne, toInt_widen]

/-- A count that rounds up is the least number of pages that hold all rows. -/
theorem isLeast_pages {rows size : Int} (positive : 0 < size) :
    IsLeast {n : Int | rows ≤ n * size} ((rows + size - 1) / size) := by
  have bound (n : Int) : (rows + size - 1) / size ≤ n ↔ rows ≤ n * size := by
    rw [Int.ediv_le_iff_le_mul positive]
    omega
  exact ⟨(bound _).mp (Int.le_refl _), fun n enough => (bound n).mpr enough⟩

/-- A wrapped page count is exact unless total and page size together pass the largest word by more
than one. -/
theorem totalPages_isLeast (bounded : q.IsBounded) (positive : 0 < total.toInt)
    (fits : total.toInt + q.size.toNat ≤ 9223372036854775808) :
    IsLeast {n : Int | total.toInt ≤ n * q.size.toNat} (q.totalPages total).toInt := by
  have pos := bounded.size_pos
  have sum : (total + widen q.size - 1).toInt = total.toInt + q.size.toNat - 1 := by
    rw [toInt_rounded]
    exact bmod_eq_self (by omega) (by omega)
  rw [totalPages_of_pos q positive, sum, Int.tdiv_eq_ediv_of_nonneg (by omega)]
  exact isLeast_pages (by omega)

/-- Beyond, a wrapped page count is negative. -/
theorem totalPages_neg (bounded : q.IsBounded)
    (passes : 9223372036854775808 < total.toInt + q.size.toNat) :
    (q.totalPages total).toInt < 0 := by
  have pos := bounded.size_pos
  have le := bounded.size_le
  have lt := total.toInt_lt
  have sum : (total + widen q.size - 1).toInt =
      -(18446744073709551616 - (total.toInt + q.size.toNat - 1)) := by
    rw [toInt_rounded, ← Int.add_neg_bmod_self]
    refine (bmod_eq_self ?_ ?_).trans ?_ <;> omega
  rw [totalPages_of_pos q (by omega), sum, Int.neg_tdiv, Int.tdiv_eq_ediv_of_nonneg (by omega)]
  have one : 1 ≤ (18446744073709551616 - (total.toInt + q.size.toNat - 1)) / q.size.toNat := by
    rw [Int.le_ediv_iff_mul_le (by omega)]
    omega
  omega

/-- No rows fill no page. -/
theorem totalPages_of_nonpos (q : PageRequest) (nothing : total.toInt ≤ 0) :
    q.totalPages total = 0 :=
  if_pos (Int64.le_iff_toInt_le.mpr nothing)

/-- A page count passes the checks exactly as long as total and page size together are a word. -/
theorem totalPages?_eq (bounded : q.IsBounded) (total : Int64) : q.totalPages? total =
    if total.toInt + q.size.toNat < 9223372036854775808 then some (q.totalPages total)
    else none := by
  have pos := bounded.size_pos
  have le := bounded.size_le
  have lt := total.toInt_lt
  have zero : (0 : Int64).toInt = 0 := rfl
  by_cases nothing : total ≤ 0
  · have fits : total.toInt + q.size.toNat < 9223372036854775808 := by
      have nonpos := Int64.le_iff_toInt_le.mp nothing
      omega
    rw [if_pos fits, totalPages?, totalPages, if_pos nothing, if_pos nothing]
  have positive : 0 < total.toInt := by
    rw [Int64.le_iff_toInt_le, zero] at nothing
    omega
  have sum : (total + widen q.size).toInt =
      (total.toInt + q.size.toNat).bmod 18446744073709551616 := by
    rw [Int64.toInt_add, toInt_widen]
  rw [totalPages?, if_neg nothing]
  by_cases fits : total.toInt + q.size.toNat < 9223372036854775808
  · rw [bmod_eq_self (by omega) (by omega)] at sum
    have first : checked (· + ·) (· + ·) total (widen q.size) = some (total + widen q.size) :=
      checked_eq_some (by rw [sum, toInt_widen])
    have second : checked (· - ·) (· - ·) (total + widen q.size) 1 =
        some (total + widen q.size - 1) := by
      refine checked_eq_some ?_
      rw [toInt_rounded, bmod_eq_self (by omega) (by omega), sum]
      rfl
    have third : checked Int.tdiv (· / ·) (total + widen q.size - 1) (widen q.size) =
        some (q.totalPages total) := by
      have quotient := totalPages_of_pos q positive
      rw [totalPages, if_neg nothing] at quotient ⊢
      refine checked_eq_some ?_
      rw [quotient, toInt_widen]
    rw [if_pos fits, first]
    exact (congrArg (Option.bind · _) second).trans third
  · have wraps : checked (· + ·) (· + ·) total (widen q.size) = none := by
      refine checked_eq_none ?_
      rw [sum, toInt_widen, ← Int.add_neg_bmod_self, bmod_eq_self (by omega) (by omega)]
      omega
    rw [if_neg fits, wraps]
    rfl

/-- The page of a listing passes the checks exactly as long as its page count does. -/
theorem make?_eq (bounded : q.IsBounded) (items : List Status) (total : Int64) :
    Listing.make? items total q =
      if total.toInt + q.size.toNat < 9223372036854775808 then some (Listing.make items total q)
      else none := by
  rw [Listing.make?, totalPages?_eq bounded, hasMore?_eq bounded]
  split <;> rfl

/-- Rows follow a page exactly if more pages follow it, where the wrapped page count is exact. -/
theorem hasMore_iff_lt_totalPages (bounded : q.IsBounded)
    (fits : total.toInt + q.size.toNat ≤ 9223372036854775808) :
    q.hasMore total = true ↔ (q.page.toNat : Int) < (q.totalPages total).toInt := by
  have pos := bounded.page_pos
  rw [hasMore_iff_lt bounded]
  by_cases positive : 0 < total.toInt
  · obtain ⟨enough, least⟩ := totalPages_isLeast bounded positive fits
    constructor
    · intro more
      refine Int.lt_of_not_ge fun few => ?_
      have within : (q.totalPages total).toInt * q.size.toNat ≤ q.page.toNat * q.size.toNat :=
        Int.mul_le_mul_of_nonneg_right few (by omega)
      exact absurd (Int.le_trans enough within) (by omega)
    · intro more
      refine Int.lt_of_not_ge fun few => ?_
      exact absurd (least few) (by omega)
  · rw [totalPages_of_nonpos q (by omega)]
    have zero : (0 : Int64).toInt = 0 := rfl
    have product : (0 : Int) ≤ q.page.toNat * q.size.toNat := by
      rw [← Int.natCast_mul]
      omega
    rw [zero]
    omega

/-- For every request and every total, the offset and the question whether rows follow the page pass
the checks of a build with overflow checks, so they are the same in either build, and both are what
they are among the integers. The page count, and with it the page of a listing, is the same in
either build as long as total and page size together are a word; for every total beyond, a build
with overflow checks panics. In a released build the count is the least number of pages that hold
all rows, and tells which pages others follow, also for one total more. For the totals beyond that
one it is negative. -/
theorem pages_are_exact_in_range (page size : Option UInt32) (hint : Option String)
    (total : Int64) (items : List Status) :
    let q := make page size hint
    let last := total.toInt + q.size.toNat
    (q.offset? = some q.offset ∧ q.offset.toInt = (q.page.toNat - 1) * q.size.toNat ∧
      0 ≤ q.offset.toInt) ∧
    (q.hasMore? total = some (q.hasMore total) ∧
      (q.hasMore total = true ↔ (q.page.toNat * q.size.toNat : Int) < total.toInt)) ∧
    (last < 9223372036854775808 →
      q.totalPages? total = some (q.totalPages total) ∧
      Listing.make? items total q = some (Listing.make items total q)) ∧
    (9223372036854775808 ≤ last →
      q.totalPages? total = none ∧ Listing.make? items total q = none) ∧
    (total.toInt ≤ 0 → q.totalPages total = 0) ∧
    (0 < total.toInt → last ≤ 9223372036854775808 →
      IsLeast {n : Int | total.toInt ≤ n * q.size.toNat} (q.totalPages total).toInt) ∧
    (last ≤ 9223372036854775808 →
      (q.hasMore total = true ↔ (q.page.toNat : Int) < (q.totalPages total).toInt)) ∧
    (9223372036854775808 < last → (q.totalPages total).toInt < 0) := by
  intro q last
  have bounded : q.IsBounded := make_isBounded page size hint
  have pos := bounded.page_pos
  have offset : q.offset.toInt = (q.page.toNat - 1) * q.size.toNat := by
    rw [offset_toInt bounded, Int.natCast_mul]
    congr 1
    omega
  refine ⟨⟨offset?_eq bounded, offset, ?natural⟩,
    ⟨hasMore?_eq bounded total, hasMore_iff_lt bounded total⟩, fun fits => ?alike,
    fun passes => ?panic, q.totalPages_of_nonpos, totalPages_isLeast bounded,
    hasMore_iff_lt_totalPages bounded, totalPages_neg bounded⟩
  case natural =>
    rw [offset_toInt bounded]
    exact Int.natCast_nonneg _
  case alike =>
    exact ⟨(totalPages?_eq bounded total).trans (if_pos fits),
      (make?_eq bounded items total).trans (if_pos fits)⟩
  case panic =>
    have unfit : ¬total.toInt + q.size.toNat < 9223372036854775808 := Int.not_lt.mpr passes
    exact ⟨(totalPages?_eq bounded total).trans (if_neg unfit),
      (make?_eq bounded items total).trans (if_neg unfit)⟩

/-- Fifty-one rows fill three pages of twenty-five in either build, and no rows follow the third. -/
theorem third_page_is_last :
    0 < (51 : Int64).toInt ∧ (51 : Int64).toInt + 25 < 9223372036854775808 ∧
    (make (some 3) (some 25) none).totalPages? 51 =
      some ((make (some 3) (some 25) none).totalPages 51) ∧
    IsLeast {n : Int | (51 : Int64).toInt ≤ n * 25}
      ((make (some 3) (some 25) none).totalPages 51).toInt ∧
    ((make (some 3) (some 25) none).hasMore 51 = true ↔
      (3 : Int) < ((make (some 3) (some 25) none).totalPages 51).toInt) := by
  obtain ⟨-, -, alike, -, -, least, follows, -⟩ :=
    pages_are_exact_in_range (some 3) (some 25) none 51 []
  exact ⟨by decide, by decide, (alike (by decide)).1, least (by decide) (by decide),
    follows (by decide)⟩

/-- The largest total overflows: on pages of ten, its rows would fill 922337203685477581. A build
with overflow checks panics. In a released build the count is negative although rows follow the
first page. -/
theorem largest_total_is_miscounted :
    let q := make (some 1) (some 10) none
    let total : Int64 := 9223372036854775807
    0 < total.toInt ∧
    IsLeast {n : Int | total.toInt ≤ n * q.size.toNat} 922337203685477581 ∧
    q.totalPages? total = none ∧ Listing.make? [] total q = none ∧
    (q.totalPages total).toInt = -922337203685477580 ∧
    q.hasMore total = true ∧ ¬(q.page.toNat : Int) < (q.totalPages total).toInt := by
  refine ⟨by decide, ?_, by decide, by decide, by decide, by decide, by decide⟩
  exact @isLeast_pages 9223372036854775807 10 (by decide)

end StatusRegistry.PageRequest
