import StatusRegistry.Page

/-!
# The arithmetic of pages

A request that was made within bounds asks for at least one row and for at most a hundred, and its
page number fits into half a machine word. So every product and sum behind a page is exact: it is
the same among the integers, and a result of any length that a page count of half a word can hold
is counted without loss.
-/

namespace StatusRegistry

/-- The number of pages that some rows fill. -/
def pageCount (rows size : Nat) : Nat := (rows + size - 1) / size

/-- A page holds rows exactly when its number is among those of the pages. -/
theorem lt_pageCount_iff {rows size : Nat} (positive : 0 < size) (k : Nat) :
    k < pageCount rows size ↔ k * size < rows := by
  rw [pageCount, Nat.lt_div_iff_mul_lt positive]
  omega

namespace PageRequest

/-- A request within bounds. -/
structure IsBounded (q : PageRequest) : Prop where
  page_pos : 0 < q.page.toNat
  size_pos : 0 < q.size.toNat
  size_le : q.size.toNat ≤ 100

/-- The greater of two words has the greater value. -/
theorem toNat_max (n m : UInt32) : (max n m).toNat = max n.toNat m.toNat := by
  by_cases le : n ≤ m
  · rw [Nat.max_eq_right (UInt32.le_iff_toNat_le.mp le)]
    exact congrArg UInt32.toNat (if_pos le)
  · have lt : m.toNat < n.toNat := Nat.lt_of_not_le fun above => le (UInt32.le_iff_toNat_le.mpr above)
    rw [Nat.max_eq_left (Nat.le_of_lt lt)]
    exact congrArg UInt32.toNat (if_neg le)

/-- The lesser of two words has the lesser value. -/
theorem toNat_min (n m : UInt32) : (min n m).toNat = min n.toNat m.toNat := by
  by_cases le : n ≤ m
  · rw [Nat.min_eq_left (UInt32.le_iff_toNat_le.mp le)]
    exact congrArg UInt32.toNat (if_pos le)
  · have lt : m.toNat < n.toNat := Nat.lt_of_not_le fun above => le (UInt32.le_iff_toNat_le.mpr above)
    rw [Nat.min_eq_right (Nat.le_of_lt lt)]
    exact congrArg UInt32.toNat (if_neg le)

/-- A request is made within bounds. -/
theorem make_isBounded (page size : Option UInt32) (hint : Option String) :
    (make page size hint).IsBounded := by
  have one : (1 : UInt32).toNat = 1 := rfl
  have most : maxSize.toNat = 100 := rfl
  constructor
  · simp only [make, toNat_max, one]
    omega
  · simp only [make, toNat_min, toNat_max, one, most]
    omega
  · simp only [make, toNat_min, toNat_max, one, most]
    omega

/-- A page from the first on is asked for as it is. -/
theorem make_page {page : UInt32} (positive : 0 < page.toNat) (size : Option UInt32)
    (hint : Option String) : (make (some page) size hint).page = page := by
  apply UInt32.toNat_inj.mp
  simp only [make, Option.getD_some, toNat_max]
  exact Nat.max_eq_left positive

/-- A half word keeps its value. -/
theorem toInt_widen (n : UInt32) : (widen n).toInt = n.toNat :=
  Int64.toInt_ofNat_of_lt (Nat.lt_trans n.toNat_lt (by decide))

/-- Reduction to a machine word keeps every integer of its range. -/
theorem bmod_eq_self {n : Int} (lower : -9223372036854775808 ≤ n)
    (upper : n < 9223372036854775808) : n.bmod 18446744073709551616 = n :=
  Int.bmod_eq_of_le lower upper

/-- A number of rows that fits into a machine word keeps its value. -/
theorem toInt_rows {rows : Nat} (small : rows + 100 < 9223372036854775808) :
    (Int64.ofNat rows).toInt = rows :=
  Int64.toInt_ofNat_of_lt (by omega)

variable {q : PageRequest}

/-- Rows up to the end of a page are few enough for a machine word. -/
theorem IsBounded.mul_le (bounded : q.IsBounded) (k : Nat) (within : k ≤ q.page.toNat) :
    k * q.size.toNat ≤ 429496729600 :=
  Nat.mul_le_mul (Nat.le_trans within (Nat.le_of_lt q.page.toNat_lt)) bounded.size_le

/-- The rows before a page are counted without loss. -/
theorem offset_toInt (bounded : q.IsBounded) :
    q.offset.toInt = ((q.page.toNat - 1) * q.size.toNat : Nat) := by
  have few := bounded.mul_le (q.page.toNat - 1) (Nat.sub_le _ _)
  have pos := bounded.page_pos
  have lt := q.page.toNat_lt
  have before : (widen q.page - 1).toInt = (q.page.toNat - 1 : Nat) := by
    rw [Int64.toInt_sub, toInt_widen, Int64.toInt_one]
    refine (bmod_eq_self ?_ ?_).trans ?_ <;> omega
  rw [offset, Int64.toInt_mul, before, toInt_widen, ← Int.natCast_mul]
  exact bmod_eq_self (by omega) (by omega)

/-- The number of pages is counted without loss. -/
theorem totalPages_toInt (bounded : q.IsBounded) {rows : Nat}
    (small : rows + 100 < 9223372036854775808) :
    (q.totalPages (Int64.ofNat rows)).toInt = pageCount rows q.size.toNat := by
  have zero : (0 : Int64).toInt = 0 := rfl
  have pos := bounded.size_pos
  have le := bounded.size_le
  unfold totalPages pageCount
  simp only [Int64.le_iff_toInt_le, toInt_rows small, zero]
  by_cases none : (rows : Int) ≤ 0
  · have none : rows = 0 := by omega
    subst none
    rw [if_pos (by omega), Nat.div_eq_of_lt (by omega)]
    rfl
  · rw [if_neg none]
    have sum : (Int64.ofNat rows + widen q.size - 1).toInt = (rows + q.size.toNat - 1 : Nat) := by
      have inner : (Int64.ofNat rows + widen q.size).toInt = (rows + q.size.toNat : Nat) := by
        rw [Int64.toInt_add, toInt_rows small, toInt_widen]
        refine (bmod_eq_self ?_ ?_).trans ?_ <;> omega
      rw [Int64.toInt_sub, inner, Int64.toInt_one]
      refine (bmod_eq_self ?_ ?_).trans ?_ <;> omega
    have ne : widen q.size ≠ -1 := by
      intro same
      have value := congrArg Int64.toInt same
      rw [toInt_widen] at value
      have minus : (-1 : Int64).toInt = -1 := rfl
      omega
    rw [Int64.toInt_div_of_ne_right _ _ ne, sum, toInt_widen]
    exact Int.ofNat_tdiv _ _

/-- Rows follow a page exactly when another page does. -/
theorem hasMore_iff (bounded : q.IsBounded) {rows : Nat}
    (small : rows + 100 < 9223372036854775808) :
    q.hasMore (Int64.ofNat rows) = true ↔ q.page.toNat < pageCount rows q.size.toNat := by
  have few := bounded.mul_le q.page.toNat (Nat.le_refl _)
  have product : (widen q.page * widen q.size).toInt = (q.page.toNat * q.size.toNat : Nat) := by
    rw [Int64.toInt_mul, toInt_widen, toInt_widen, ← Int.natCast_mul]
    exact bmod_eq_self (by omega) (by omega)
  rw [lt_pageCount_iff bounded.size_pos, hasMore, decide_eq_true_iff, Int64.lt_iff_toInt_lt,
    product, toInt_rows small]
  exact Int.ofNat_lt

end PageRequest

end StatusRegistry
