import StatusRegistry.Calendar
import StatusRegistry.Text.Scan

/-!
# Instants

An instant counts seconds from the first of January 1970 in universal time, with nanoseconds. A
leap second shares the number of the second before it and has a nanosecond count of a whole second
or more.

Reading is lenient: blanks may stand around the parts of a date, numbers may be short, and the
offset may be a name, a letter or hours and minutes. Printing is canonical.
-/

namespace StatusRegistry

/-- A point in universal time. -/
structure Instant where
  seconds : Int
  nanos : Nat
  deriving DecidableEq, Repr

namespace Instant

/-- The instant a number of microseconds after the start of 1970. -/
def ofMicros (micros : Int) : Instant :=
  ⟨micros / 1000000, (micros % 1000000).toNat * 1000⟩

/-- The microseconds from the start of 1970, rounded down. -/
def micros (t : Instant) : Int :=
  t.seconds * 1000000 + (t.nanos / 1000 : Nat)

/-- Whether an instant is earlier than another. -/
def before (s t : Instant) : Bool :=
  s.seconds < t.seconds || (s.seconds = t.seconds && s.nanos < t.nanos)

/-- The day an instant lies in. -/
def date (t : Instant) : Calendar.Date :=
  Calendar.dateOf (t.seconds / 86400 + Calendar.epochDay)

/-- The second of the day, from 0 to 86399. -/
def secondOfDay (t : Instant) : Nat :=
  (t.seconds % 86400).toNat

/-- A number in at least `width` decimal digits. -/
def padded (width n : Nat) : List Char :=
  let digits := Nat.toDigits 10 n
  List.replicate (width - digits.length) '0' ++ digits

/-- A year: four digits from 0 to 9999, otherwise a sign and at least four. -/
def yearText (year : Int) : List Char :=
  if 0 ≤ year ∧ year ≤ 9999 then padded 4 year.toNat
  else (if year < 0 then '-' else '+') :: padded 4 year.natAbs

/-- A fraction of a second in the fewest of 0, 3, 6 or 9 digits that lose nothing. -/
def fractionText (nanos : Nat) : List Char :=
  if nanos = 0 then []
  else if nanos % 1000000 = 0 then '.' :: padded 3 (nanos / 1000000)
  else if nanos % 1000 = 0 then '.' :: padded 6 (nanos / 1000)
  else '.' :: padded 9 nanos

/-- The canonical characters of an instant. -/
def toChars (t : Instant) : List Char :=
  let d := t.date
  let s := t.secondOfDay
  yearText d.year ++ '-' :: padded 2 d.month ++ '-' :: padded 2 d.day ++
    'T' :: padded 2 (s / 3600) ++ ':' :: padded 2 (s / 60 % 60) ++
    ':' :: padded 2 (s % 60 + t.nanos / 1000000000) ++ fractionText (t.nanos % 1000000000) ++ ['Z']

/-- The canonical text of an instant. -/
def text (t : Instant) : String := String.ofList t.toChars

/-- The date and minute of an instant. -/
def minuteText (t : Instant) : String :=
  let d := t.date
  let s := t.secondOfDay
  String.ofList (yearText d.year ++ '-' :: padded 2 d.month ++ '-' :: padded 2 d.day ++
    ' ' :: padded 2 (s / 3600) ++ ':' :: padded 2 (s / 60 % 60))

/-- Whether a character is a decimal digit. -/
def isDigit (c : Char) : Bool := '0' ≤ c && c ≤ '9'

/-- The number that decimal digits spell. -/
def numberOf (digits : List Char) : Nat :=
  Scan.natOfDigits 10 (digits.map fun c => c.toNat - '0'.toNat)

/-- A number of one to `width` digits, after blanks. -/
def scanNumber (width : Nat) : Scan Nat := do
  Scan.skipBlank
  let digits ← Scan.runUpTo width isDigit
  if digits = [] then failure
  pure (numberOf digits)

/-- A year: up to four digits, or a sign and any number of digits, after blanks. -/
def scanYear : Scan Int := do
  Scan.skipBlank
  match ← Scan.optional (Scan.one fun c => c = '-' || c = '+') with
  | none =>
    let year ← scanNumber 4
    pure (year : Int)
  | some sign =>
    let digits ← Scan.run isDigit
    if digits = [] then failure
    pure (if sign = '-' then -(numberOf digits : Int) else numberOf digits)

/-- A separator after blanks. -/
def scanSeparator (c : Char) : Scan Unit := do
  Scan.skipBlank
  Scan.expect c

/-- The nanoseconds of a fraction; digits after the ninth are passed over. -/
def scanFraction : Scan Nat := do
  match ← Scan.optional (Scan.expect '.') with
  | none => pure 0
  | some () =>
    let digits ← Scan.runUpTo 9 isDigit
    if digits = [] then failure
    let _ ← Scan.run isDigit
    pure (numberOf digits * Nat.pow 10 (9 - digits.length))

/-- Two digits, the first of them below `tens`. -/
def scanTwoDigits (tens : Char) : Scan Nat := do
  let high ← Scan.one fun c => '0' ≤ c && c ≤ tens
  let low ← Scan.one isDigit
  pure (numberOf [high, low])

/-- The letters of the name of universal time. -/
def scanUniversal : Scan Unit := do
  let _ ← Scan.one fun c => c = 'U' || c = 'u'
  let _ ← Scan.one fun c => c = 'T' || c = 't'
  let _ ← Scan.one fun c => c = 'C' || c = 'c'

/-- The seconds by which local time is ahead of universal time. -/
def scanOffset : Scan Int := do
  if (← Scan.optional scanUniversal).isSome then return 0
  match ← Scan.one fun c => c = 'Z' || c = 'z' || c = '+' || c = '-' || c = '\u2212' with
  | 'Z' | 'z' => return 0
  | sign =>
    let hours ← scanTwoDigits '9'
    let _ ← Scan.run fun c => c = ':' || isBlank c
    let minutes ← scanTwoDigits '5'
    let ahead : Int := (hours * 3600 + minutes * 60 : Nat)
    if ahead ≥ 86400 then failure
    pure (if sign = '+' then ahead else -ahead)

/-- The first and last years that have instants. -/
def yearBounds : Int × Int := (-262143, 262142)

/-- Whether a year has instants. -/
def inBounds (year : Int) : Bool :=
  yearBounds.1 ≤ year && year ≤ yearBounds.2

/-- A date, a time and an offset. -/
def scan : Scan Instant := do
  let year ← scanYear
  scanSeparator '-'
  let month ← scanNumber 2
  scanSeparator '-'
  let day ← scanNumber 2
  let _ ← Scan.one fun c => c = 'T' || c = 't' || c = ' '
  let hour ← scanNumber 2
  scanSeparator ':'
  let minute ← scanNumber 2
  scanSeparator ':'
  let second ← scanNumber 2
  let nanos ← scanFraction
  Scan.skipBlank
  let offset ← scanOffset
  Scan.skipBlank
  let date : Calendar.Date := ⟨year, month, day⟩
  if !(inBounds year && date.isValid && hour < 24 && minute < 60 && second ≤ 60) then failure
  let leap := second / 60
  let localSeconds : Int := (date.dayNumber - Calendar.epochDay) * 86400 +
    (hour * 3600 + minute * 60 + (second - leap) : Nat)
  let t : Instant := ⟨localSeconds - offset, nanos + leap * 1000000000⟩
  if !inBounds t.date.year then failure
  pure t

/-- The instant that a text names. -/
def parse? (s : String) : Option Instant :=
  scan.whole? s.toList

end Instant

end StatusRegistry
