/-!
# Calendar

The proleptic Gregorian calendar as a numbering of days. Day 0 is the first of January of year 0,
years may be negative, and a civil date and its day number determine each other.
-/

namespace StatusRegistry.Calendar

/-- A day by year, month and day of the month, both counted from one. -/
structure Date where
  year : Int
  month : Nat
  day : Nat
  deriving DecidableEq, Repr

/-- Whether a year has a twenty-ninth of February. -/
def isLeap (year : Int) : Bool :=
  year % 4 = 0 && (year % 100 ≠ 0 || year % 400 = 0)

/-- The days of the months of a common or leap year. -/
def monthLengths (leap : Bool) : List Nat :=
  [31, if leap then 29 else 28, 31, 30, 31, 30, 31, 31, 30, 31, 30, 31]

/-- The days before the first of January of a year. -/
def daysBeforeYear (year : Int) : Int :=
  365 * year + ((year - 1) / 4 - (year - 1) / 100 + (year - 1) / 400 + 1)

/-- The days of a year before a month. -/
def daysBeforeMonth (leap : Bool) (month : Nat) : Nat :=
  ((monthLengths leap).take (month - 1)).foldl (· + ·) 0

/-- Whether a month has a day of the given number. -/
def Date.isValid (d : Date) : Bool :=
  1 ≤ d.month && d.month ≤ 12 && 1 ≤ d.day &&
    d.day ≤ (monthLengths (isLeap d.year)).getD (d.month - 1) 0

/-- The number of a day. -/
def Date.dayNumber (d : Date) : Int :=
  daysBeforeYear d.year + (daysBeforeMonth (isLeap d.year) d.month + (d.day - 1) : Nat)

/-- The year a day lies in: the average length of a year gives it up to one. -/
def yearOf (dayNumber : Int) : Int :=
  let guess := dayNumber * 400 / 146097
  if dayNumber < daysBeforeYear guess then guess - 1
  else if daysBeforeYear (guess + 1) ≤ dayNumber then guess + 1
  else guess

/-- The month and day, counted from `month` on, of the day with the given number of days before
it. -/
def monthAndDay (month : Nat) (days : Nat) : List Nat → Nat × Nat
  | [] => (month, days + 1)
  | length :: later =>
    if days < length ∨ later = [] then (month, days + 1)
    else monthAndDay (month + 1) (days - length) later

/-- The date of a day number. -/
def dateOf (dayNumber : Int) : Date :=
  let year := yearOf dayNumber
  let within := (dayNumber - daysBeforeYear year).toNat
  let (month, day) := monthAndDay 1 within (monthLengths (isLeap year))
  ⟨year, month, day⟩

/-- The day number of the first of January 1970. -/
def epochDay : Int := 719528

example : (Date.mk 1970 1 1).dayNumber = epochDay := by decide

example : dateOf 719468 = ⟨1969, 11, 2⟩ ∧ dateOf (-1) = ⟨-1, 12, 31⟩ := by decide

end StatusRegistry.Calendar
