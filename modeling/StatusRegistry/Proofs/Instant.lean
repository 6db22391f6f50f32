import StatusRegistry.Proofs.Calendar
import StatusRegistry.Proofs.Text.Digits

/-!
# Reading back printed instants

An instant that is no leap second and lies in a year that has instants is read back from its
canonical text exactly. Each scan is described by what it does to the front of a text, and the
reader of instants is the composition of those descriptions.
-/

namespace StatusRegistry

namespace Scan

variable {α β : Type}

/-- A scan followed by another. -/
theorem bind_eq {scan : Scan α} {next : α → Scan β} {cs rest : List Char} {a : α}
    (read : scan cs = some (a, rest)) : (scan >>= next) cs = next a rest := by
  simp [bind, StateT.bind, read]

/-- Nothing is passed over before a character that is not blank. -/
theorem skipBlank_cons {c : Char} (rest : List Char) (visible : isBlank c = false) :
    skipBlank (c :: rest) = some ((), c :: rest) := by
  simp [skipBlank, visible]

/-- The expected character is passed. -/
theorem expect_cons (c : Char) (rest : List Char) : expect c (c :: rest) = some ((), rest) := by
  simp [expect]

/-- A character that passes the test is read. -/
theorem one_cons {p : Char → Bool} {c : Char} (rest : List Char) (passes : p c = true) :
    one p (c :: rest) = some (c, rest) := by
  simp [one, passes]

/-- A run ends before the first character that fails the test. -/
theorem run_append {p : Char → Bool} {taken : List Char} {c : Char} (rest : List Char)
    (all : ∀ d ∈ taken, p d = true) (stop : p c = false) :
    run p (taken ++ c :: rest) = some (taken, c :: rest) := by
  simp [run, List.takeWhile_append_of_pos all, List.dropWhile_append_of_pos all, stop]

/-- A bounded run may also end because it is full. -/
theorem runUpTo_full {p : Char → Bool} {taken : List Char} (rest : List Char)
    (all : ∀ d ∈ taken, p d = true) :
    runUpTo taken.length p (taken ++ rest) = some (taken, rest) := by
  have whole : (taken ++ []).takeWhile p = taken ++ [].takeWhile p :=
    List.takeWhile_append_of_pos all
  rw [List.append_nil, List.takeWhile_nil, List.append_nil] at whole
  simp [runUpTo, whole]

/-- A bounded run that is not full ends before the first character that fails the test. -/
theorem runUpTo_append {limit : Nat} {p : Char → Bool} {taken : List Char} {c : Char}
    (rest : List Char) (fits : taken.length ≤ limit) (all : ∀ d ∈ taken, p d = true)
    (stop : p c = false) :
    runUpTo limit p (taken ++ c :: rest) = some (taken, c :: rest) := by
  have front : ((taken ++ c :: rest).take limit).takeWhile p = taken := by
    rw [List.take_append, List.take_of_length_le fits, List.takeWhile_append_of_pos all]
    cases limit - taken.length with
    | zero => simp
    | succ more => simp [stop]
  simp [runUpTo, front]

end Scan

namespace Instant

/-- A digit is not blank. -/
theorem isBlank_of_isDigit {c : Char} (digit : isDigit c = true) : isBlank c = false := by
  rw [isDigit_eq, isDigit_iff] at digit
  simp only [isBlank, Bool.or_eq_false_iff, Bool.and_eq_false_iff, decide_eq_false_iff_not,
    beq_eq_false_iff_ne]
  omega

/-- A number printed in the full width is read back whatever follows it. -/
theorem scanNumber_padded {width n : Nat} (rest : List Char) (positive : 0 < width)
    (fits : n < Nat.pow 10 width) :
    scanNumber width (padded width n ++ rest) = some (n, rest) := by
  have length := length_padded positive fits
  have digits : ∀ c ∈ padded width n, isDigit c = true := fun _ => isDigit_of_mem_padded
  have front := Scan.runUpTo_full rest digits
  have value := numberOf_padded width n
  have nonempty := padded_ne_nil width n
  rw [length] at front
  generalize padded width n = printed at digits front value nonempty
  obtain _ | ⟨first, later⟩ := printed
  · exact absurd rfl nonempty
  · have visible := isBlank_of_isDigit (digits first (by simp))
    rw [List.cons_append] at front ⊢
    rw [scanNumber, Scan.bind_eq (Scan.skipBlank_cons _ visible), Scan.bind_eq front,
      if_neg nonempty, value]
    rfl

/-- A separator is passed. -/
theorem scanSeparator_cons {c : Char} (rest : List Char) (visible : isBlank c = false) :
    scanSeparator c (c :: rest) = some ((), rest) := by
  rw [scanSeparator, Scan.bind_eq (Scan.skipBlank_cons rest visible), Scan.expect_cons]

/-- A printed year is read back before a hyphen. -/
theorem scanYear_yearText (year : Int) (rest : List Char) :
    scanYear (yearText year ++ '-' :: rest) = some (year, '-' :: rest) := by
  have digits : ∀ n, ∀ c ∈ padded 4 n, isDigit c = true := fun _ _ => isDigit_of_mem_padded
  by_cases short : 0 ≤ year ∧ year ≤ 9999
  · have fits : year.toNat < Nat.pow 10 4 := by
      simp only [Nat.pow_eq, Nat.reducePow]
      omega
    have number : scanNumber 4 (padded 4 year.toNat ++ '-' :: rest) =
        some (year.toNat, '-' :: rest) := scanNumber_padded _ (by decide) fits
    have all := digits year.toNat
    have nonempty := padded_ne_nil 4 year.toNat
    rw [yearText, if_pos short]
    generalize padded 4 year.toNat = printed at number all nonempty
    obtain _ | ⟨first, later⟩ := printed
    · exact absurd rfl nonempty
    · have digit := all first (by simp)
      have unsigned : (first = '-' || first = '+') = false := by
        rw [Bool.eq_false_iff]
        intro sign
        rcases Bool.or_eq_true_iff.mp sign with minus | plus
        · rw [of_decide_eq_true minus] at digit
          revert digit
          decide
        · rw [of_decide_eq_true plus] at digit
          revert digit
          decide
      have absent : Scan.optional (Scan.one fun c => c = '-' || c = '+')
          (first :: (later ++ '-' :: rest)) = some (none, first :: (later ++ '-' :: rest)) := by
        simp only [Scan.optional, Scan.one, unsigned, Bool.false_eq_true, if_false]
      rw [scanYear, List.cons_append,
        Scan.bind_eq (Scan.skipBlank_cons _ (isBlank_of_isDigit digit)), Scan.bind_eq absent]
      rw [List.cons_append] at number
      simp only
      rw [Scan.bind_eq number]
      have back : (year.toNat : Int) = year := by omega
      rw [back]
      rfl
  · rw [yearText, if_neg short]
    have run := Scan.run_append (c := '-') rest (digits year.natAbs) (by decide)
    have nonempty := padded_ne_nil 4 year.natAbs
    have value := numberOf_padded 4 year.natAbs
    by_cases negative : year < 0
    · have sign : Scan.optional (Scan.one fun c => c = '-' || c = '+')
          ('-' :: (padded 4 year.natAbs ++ '-' :: rest)) =
            some (some '-', padded 4 year.natAbs ++ '-' :: rest) := rfl
      rw [if_pos negative, scanYear, List.cons_append,
        Scan.bind_eq (Scan.skipBlank_cons _ (by decide)), Scan.bind_eq sign]
      simp only
      rw [Scan.bind_eq run, if_neg nonempty, if_pos trivial, value]
      have back : -(year.natAbs : Int) = year := by omega
      rw [back]
      rfl
    · have sign : Scan.optional (Scan.one fun c => c = '-' || c = '+')
          ('+' :: (padded 4 year.natAbs ++ '-' :: rest)) =
            some (some '+', padded 4 year.natAbs ++ '-' :: rest) := rfl
      rw [if_neg negative, scanYear, List.cons_append,
        Scan.bind_eq (Scan.skipBlank_cons _ (by decide)), Scan.bind_eq sign]
      simp only
      rw [Scan.bind_eq run, if_neg nonempty, if_neg (by decide), value]
      have back : (year.natAbs : Int) = year := by omega
      rw [back]
      rfl

/-- Digits of a fraction are scaled to nanoseconds. -/
theorem scanFraction_digits {width n : Nat} (rest : List Char) (positive : 0 < width)
    (short : width ≤ 9) (fits : n < Nat.pow 10 width) :
    scanFraction ('.' :: padded width n ++ 'Z' :: rest) =
      some (n * Nat.pow 10 (9 - width), 'Z' :: rest) := by
  have length := length_padded positive fits
  have digits : ∀ c ∈ padded width n, isDigit c = true := fun _ => isDigit_of_mem_padded
  have front : Scan.runUpTo 9 isDigit (padded width n ++ 'Z' :: rest) =
      some (padded width n, 'Z' :: rest) := Scan.runUpTo_append rest (by omega) digits (by decide)
  have point : Scan.optional (Scan.expect '.') ('.' :: (padded width n ++ 'Z' :: rest)) =
      some (some (), padded width n ++ 'Z' :: rest) := rfl
  have more : Scan.run isDigit ('Z' :: rest) = some ([], 'Z' :: rest) := rfl
  rw [scanFraction, List.cons_append, Scan.bind_eq point]
  simp only
  rw [Scan.bind_eq front, if_neg (padded_ne_nil width n), Scan.bind_eq more, numberOf_padded,
    length]
  rfl

/-- A printed fraction is read back before the letter of universal time. -/
theorem scanFraction_fractionText {nanos : Nat} (rest : List Char) (fits : nanos < 1000000000) :
    scanFraction (fractionText nanos ++ 'Z' :: rest) = some (nanos, 'Z' :: rest) := by
  unfold fractionText
  by_cases zero : nanos = 0
  · rw [if_pos zero, zero]
    rfl
  · rw [if_neg zero]
    by_cases millis : nanos % 1000000 = 0
    · have fits : nanos / 1000000 < Nat.pow 10 3 := by
        simp only [Nat.pow_eq, Nat.reducePow]
        omega
      rw [if_pos millis, scanFraction_digits rest (by decide) (by decide) fits]
      have whole : nanos / 1000000 * Nat.pow 10 (9 - 3) = nanos :=
        Nat.div_mul_cancel (Nat.dvd_of_mod_eq_zero millis)
      rw [whole]
    rw [if_neg millis]
    by_cases micros : nanos % 1000 = 0
    · have fits : nanos / 1000 < Nat.pow 10 6 := by
        simp only [Nat.pow_eq, Nat.reducePow]
        omega
      rw [if_pos micros, scanFraction_digits rest (by decide) (by decide) fits]
      have whole : nanos / 1000 * Nat.pow 10 (9 - 6) = nanos :=
        Nat.div_mul_cancel (Nat.dvd_of_mod_eq_zero micros)
      rw [whole]
    · rw [if_neg micros, scanFraction_digits rest (by decide) (by decide) fits]
      simp

/-- The letter of universal time is no offset. -/
theorem scanOffset_universal : scanOffset ['Z'] = some (0, []) := by decide

/-- An instant that has a text of its own: no leap second, in a year that has instants. -/
structure IsPlain (t : Instant) : Prop where
  nanos : t.nanos < 1000000000
  year : inBounds t.date.year = true

/-- A plain instant is read back from its canonical text. -/
theorem parse?_text {t : Instant} (plain : t.IsPlain) : parse? t.text = some t := by
  obtain ⟨nanos, year⟩ := plain
  obtain ⟨valid, number⟩ := Calendar.dateOf_spec (t.seconds / 86400 + Calendar.epochDay)
  have second : t.secondOfDay < 86400 := by
    unfold secondOfDay
    omega
  have instant : (t.date.dayNumber - Calendar.epochDay) * 86400 + (t.secondOfDay : Int) =
      t.seconds := by
    unfold secondOfDay
    rw [date, number]
    omega
  have whole : t.nanos / 1000000000 = 0 ∧ t.nanos % 1000000000 = t.nanos := by omega
  have month : t.date.month < Nat.pow 10 2 := Calendar.month_lt valid
  have day : t.date.day < Nat.pow 10 2 := Calendar.day_lt valid
  have hour : t.secondOfDay / 3600 < Nat.pow 10 2 := by
    simp only [Nat.pow_eq, Nat.reducePow]
    omega
  have minute : t.secondOfDay / 60 % 60 < Nat.pow 10 2 := by
    simp only [Nat.pow_eq, Nat.reducePow]
    omega
  have last : t.secondOfDay % 60 < Nat.pow 10 2 := by
    simp only [Nat.pow_eq, Nat.reducePow]
    omega
  have checked : (inBounds t.date.year && t.date.isValid && decide (t.secondOfDay / 3600 < 24) &&
      decide (t.secondOfDay / 60 % 60 < 60) && decide (t.secondOfDay % 60 ≤ 60)) = true := by
    simp only [Bool.and_eq_true, decide_eq_true_eq]
    exact ⟨⟨⟨⟨year, valid⟩, by omega⟩, by omega⟩, by omega⟩
  have noLeap : t.secondOfDay % 60 / 60 = 0 := by omega
  have total : t.secondOfDay / 3600 * 3600 + t.secondOfDay / 60 % 60 * 60 +
      (t.secondOfDay % 60 - 0) = t.secondOfDay := by omega
  have back : (⟨t.seconds - 0, t.nanos + 0 * 1000000000⟩ : Instant) = t := by simp
  rw [parse?, Scan.whole?, text, String.toList_ofList]
  unfold scan toChars
  simp only [whole, Nat.add_zero, List.append_assoc, List.cons_append]
  rw [Scan.bind_eq (scanYear_yearText _ _), Scan.bind_eq (scanSeparator_cons _ (by decide)),
    Scan.bind_eq (scanNumber_padded _ (by decide) month),
    Scan.bind_eq (scanSeparator_cons _ (by decide)),
    Scan.bind_eq (scanNumber_padded _ (by decide) day),
    Scan.bind_eq (Scan.one_cons _ (by decide)),
    Scan.bind_eq (scanNumber_padded _ (by decide) hour),
    Scan.bind_eq (scanSeparator_cons _ (by decide)),
    Scan.bind_eq (scanNumber_padded _ (by decide) minute),
    Scan.bind_eq (scanSeparator_cons _ (by decide)),
    Scan.bind_eq (scanNumber_padded _ (by decide) last),
    Scan.bind_eq (scanFraction_fractionText _ nanos),
    Scan.bind_eq (Scan.skipBlank_cons _ (by decide)),
    Scan.bind_eq scanOffset_universal, Scan.bind_eq (show Scan.skipBlank [] = some ((), []) from rfl)]
  have eta : (⟨t.date.year, t.date.month, t.date.day⟩ : Calendar.Date) = t.date := rfl
  simp only [eta, checked, noLeap, total, instant, back, Bool.not_true, Bool.false_eq_true,
    if_false]
  simp only [year, Bool.not_true, Bool.false_eq_true, if_false]
  rfl

end Instant

end StatusRegistry
