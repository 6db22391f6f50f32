import StatusRegistry.Calendar

/-!
# Dates and day numbers

Every day number has a valid date, and the date has that day number. The guess at the year by the
average length of a year misses by at most one, which the three cases of `yearOf` repair.
-/

namespace StatusRegistry.Calendar

/-- A leap year is one day longer than a common one. -/
theorem daysBeforeYear_succ (year : Int) :
    daysBeforeYear (year + 1) = daysBeforeYear year + 365 + if isLeap year then 1 else 0 := by
  simp only [daysBeforeYear, isLeap, Bool.and_eq_true, Bool.or_eq_true, decide_eq_true_eq, ne_eq]
  split <;> omega

/-- The days before a year stay close to the average. -/
theorem daysBeforeYear_bounds (year : Int) :
    146097 * year - 396 ≤ 400 * daysBeforeYear year ∧
      400 * daysBeforeYear year ≤ 146097 * year + 699 := by
  unfold daysBeforeYear
  omega

/-- A day lies in its year. -/
theorem yearOf_spec (day : Int) :
    daysBeforeYear (yearOf day) ≤ day ∧ day < daysBeforeYear (yearOf day + 1) := by
  have guess : 146097 * (day * 400 / 146097) ≤ day * 400 ∧
      day * 400 < 146097 * (day * 400 / 146097) + 146097 := by omega
  unfold yearOf
  generalize day * 400 / 146097 = year at guess
  dsimp only
  have earlier := daysBeforeYear_bounds (year - 1)
  have later := daysBeforeYear_bounds (year + 1 + 1)
  split
  · rw [Int.sub_add_cancel]
    omega
  · split <;> omega

/-- The days of the given months, as many as a month and day are counted in. -/
theorem monthAndDay_spec (lengths : List Nat) (month days : Nat) (within : days < lengths.foldl (· + ·) 0) :
    ∃ passed < lengths.length,
      monthAndDay month days lengths =
        (month + passed, days - ((lengths.take passed).foldl (· + ·) 0) + 1) ∧
      (lengths.take passed).foldl (· + ·) 0 ≤ days ∧
      days - ((lengths.take passed).foldl (· + ·) 0) < lengths.getD passed 0 := by
  simp only [← List.sum_eq_foldl_nat] at within ⊢
  induction lengths generalizing month days with
  | nil => simp at within
  | cons length later ih =>
    simp only [List.sum_cons] at within
    by_cases here : days < length
    · exact ⟨0, by simp, by simp [monthAndDay, here], by simp, by simpa using here⟩
    · have nonempty : later ≠ [] := by
        rintro rfl
        simp at within
        omega
      obtain ⟨passed, inside, step, low, high⟩ := ih (month + 1) (days - length) (by omega)
      refine ⟨passed + 1, by simpa using inside, ?_, ?_, ?_⟩
      · simp only [monthAndDay, here, nonempty, or_self, if_false, step, List.take_succ_cons,
          List.sum_cons, Nat.sub_sub, Prod.mk.injEq, and_true]
        omega
      · simp only [List.take_succ_cons, List.sum_cons]
        omega
      · simpa [Nat.sub_sub] using high

/-- The months of a year have all of its days. -/
theorem foldl_monthLengths (leap : Bool) :
    (monthLengths leap).foldl (· + ·) 0 = 365 + if leap then 1 else 0 := by
  cases leap <;> rfl

/-- The date of a day number is valid and has that day number. -/
theorem dateOf_spec (day : Int) : (dateOf day).isValid = true ∧ (dateOf day).dayNumber = day := by
  obtain ⟨start, finish⟩ := yearOf_spec day
  rw [daysBeforeYear_succ] at finish
  have within : (day - daysBeforeYear (yearOf day)).toNat <
      (monthLengths (isLeap (yearOf day))).foldl (· + ·) 0 := by
    rw [foldl_monthLengths]
    split at finish <;> simp_all <;> omega
  obtain ⟨passed, inside, found, low, high⟩ := monthAndDay_spec _ 1 _ within
  have twelve : (monthLengths (isLeap (yearOf day))).length = 12 := rfl
  rw [twelve] at inside
  simp only [dateOf, found, Date.isValid, Date.dayNumber, daysBeforeMonth,
    Nat.add_sub_cancel_left, Bool.and_eq_true, decide_eq_true_eq]
  refine ⟨⟨⟨⟨by omega, by omega⟩, by omega⟩, by omega⟩, ?_⟩
  omega

/-- A valid month has two digits. -/
theorem month_lt {d : Date} (valid : d.isValid = true) : d.month < 100 := by
  simp only [Date.isValid, Bool.and_eq_true, decide_eq_true_eq] at valid
  omega

/-- A valid day has two digits. -/
theorem day_lt {d : Date} (valid : d.isValid = true) : d.day < 100 := by
  simp only [Date.isValid, Bool.and_eq_true, decide_eq_true_eq] at valid
  have longest : ∀ leap : Bool, ∀ month < 12, (monthLengths leap).getD month 0 ≤ 31 := by decide
  have := longest (isLeap d.year) (d.month - 1) (by omega)
  omega

end StatusRegistry.Calendar
