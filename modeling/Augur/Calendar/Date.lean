/-
# Calendar dates

Dates of the Gregorian calendar in the years 1 to 9999. A `Date` carries the
proof that it exists. Dates are numbered from 1, the first day of year 1;
arithmetic goes through these numbers and has no result outside the range.

Key definitions: `Date`, `Date.ordinal`, `Date.ofOrdinal?`, `Date.addDays?`,
`Date.weekday`, `Date.iso`.
-/

namespace Augur

/-- `n` in decimal with zeros in front up to `width` digits. -/
def padded (width n : Nat) : String :=
  let ds := Nat.toDigits 10 n
  String.ofList (List.replicate (width - ds.length) '0' ++ ds)

/-- Whether the year `y` has a 29 February. -/
def isLeapYear (y : Nat) : Bool := y % 4 == 0 && (y % 100 != 0 || y % 400 == 0)

/-- The number of days of the month `m` of the year `y`. -/
def monthLength (y m : Nat) : Nat :=
  if m = 2 then if isLeapYear y then 29 else 28
  else if m = 4 ∨ m = 6 ∨ m = 9 ∨ m = 11 then 30
  else 31

/-- Dates of the years 1 to 9999. -/
structure Date where
  year : Nat
  month : Nat
  day : Nat
  year_pos : 1 ≤ year
  year_le : year ≤ 9999
  month_pos : 1 ≤ month
  month_le : month ≤ 12
  day_pos : 1 ≤ day
  day_le : day ≤ monthLength year month
  deriving DecidableEq

namespace Date

/-- The date of a year, month and day, if there is one. -/
def ofYMD? (year month day : Nat) : Option Date :=
  if h : (1 ≤ year ∧ year ≤ 9999) ∧ (1 ≤ month ∧ month ≤ 12)
      ∧ (1 ≤ day ∧ day ≤ monthLength year month) then
    some ⟨year, month, day, h.1.1, h.1.2, h.2.1.1, h.2.1.2, h.2.2.1, h.2.2.2⟩
  else none

/-- The number of days in the years before `y`. -/
def daysBeforeYear (y : Nat) : Nat := 365 * (y - 1) + (y - 1) / 4 - (y - 1) / 100 + (y - 1) / 400

/-- The number of days of the first `m` months of the year `y`. -/
def daysOfMonths (y : Nat) : Nat → Nat
  | 0 => 0
  | m + 1 => daysOfMonths y m + monthLength y (m + 1)

/-- The number of a date: 1 for the first day of year 1. -/
def ordinal (d : Date) : Nat := daysBeforeYear d.year + daysOfMonths d.year (d.month - 1) + d.day

/-- The year of the day number `n`. -/
def yearOfOrdinal (n : Nat) : Nat :=
  let guess := 400 * n / 146097 + 1
  if n ≤ daysBeforeYear guess then guess - 1
  else if daysBeforeYear (guess + 1) < n then guess + 1
  else guess

/-- The month and day of the `n`-th day from the first of month `m` on, where `count` more
months may be tried. -/
def monthAndDay (y m n : Nat) : Nat → Nat × Nat
  | 0 => (m, n)
  | count + 1 =>
    if n ≤ monthLength y m then (m, n) else monthAndDay y (m + 1) (n - monthLength y m) count

/-- The date of a day number, if it is in range. -/
def ofOrdinal? (n : Nat) : Option Date :=
  let y := yearOfOrdinal n
  let md := monthAndDay y 1 (n - daysBeforeYear y) 11
  if n = 0 then none else ofYMD? y md.1 md.2

/-- The date `k` days later, or earlier for a negative `k`. -/
def addDays? (d : Date) (k : Int) : Option Date :=
  let n := (d.ordinal : Int) + k
  if n < 1 then none else ofOrdinal? n.toNat

/-- The first day of the month. -/
def monthStart (d : Date) : Date :=
  ⟨d.year, d.month, 1, d.year_pos, d.year_le, d.month_pos, d.month_le, Nat.le_refl 1,
    Nat.le_trans d.day_pos d.day_le⟩

/-- The first day of the year. -/
def yearStart (d : Date) : Date :=
  ⟨d.year, 1, 1, d.year_pos, d.year_le, Nat.le_refl 1, by decide, Nat.le_refl 1, by
    simp [monthLength]⟩

/-- The day of the week, Monday as 0. -/
def weekday (d : Date) : Nat := (d.ordinal + 6) % 7

/-- Earlier than. -/
def before (a b : Date) : Bool := a.ordinal < b.ordinal

/-- The standard form `YYYY-MM-DD`. -/
def iso (d : Date) : String :=
  padded 4 d.year ++ "-" ++ padded 2 d.month ++ "-" ++ padded 2 d.day

/-- The English names of the days of the week, Monday first. -/
def weekdayNames : List String :=
  ["Monday", "Tuesday", "Wednesday", "Thursday", "Friday", "Saturday", "Sunday"]

/-- The English names of the months. -/
def monthNames : List String :=
  ["January", "February", "March", "April", "May", "June", "July", "August", "September",
    "October", "November", "December"]

def weekdayName (d : Date) : String := (weekdayNames[d.weekday]?).getD ""

def monthName (d : Date) : String := (monthNames[d.month - 1]?).getD ""

/-- The first three letters of a name. -/
def shortName (name : String) : String := String.ofList (name.toList.take 3)

/-- A date as `Wednesday, 15 January 2025`. -/
def long (d : Date) : String :=
  d.weekdayName ++ ", " ++ toString d.day ++ " " ++ d.monthName ++ " " ++ toString d.year

/-- A date as `Wed, 15 Jan`. -/
def short (d : Date) : String :=
  shortName d.weekdayName ++ ", " ++ toString d.day ++ " " ++ shortName d.monthName

end Date

end Augur
