/-
# Timestamps

A date and a time of day to the microsecond, with the offset from UTC where it
is known. Moving a timestamp to UTC may leave the range of dates.

Key definitions: `Timestamp`, `Timestamp.toUtc?`, `Timestamp.publishedText?`.
-/
import Augur.Calendar.Date

namespace Augur

/-- The microseconds of a day. -/
def microsPerDay : Nat := 86400000000

/-- A time of day to the microsecond. -/
structure TimeOfDay where
  micros : Nat
  micros_lt : micros < microsPerDay
  deriving DecidableEq

namespace TimeOfDay

/-- The time of an hour, minute, second and microsecond, if there is one. -/
def ofHMS? (hour minute second micro : Nat) : Option TimeOfDay :=
  if h : hour < 24 ∧ minute < 60 ∧ second < 60 ∧ micro < 1000000 then
    some ⟨((hour * 60 + minute) * 60 + second) * 1000000 + micro, by
      unfold microsPerDay; omega⟩
  else none

def midnight : TimeOfDay := ⟨0, by decide⟩

def hour (t : TimeOfDay) : Nat := t.micros / 3600000000
def minute (t : TimeOfDay) : Nat := t.micros / 60000000 % 60
def second (t : TimeOfDay) : Nat := t.micros / 1000000 % 60
def micro (t : TimeOfDay) : Nat := t.micros % 1000000

/-- `HH:MM:SS`. -/
def clockText (t : TimeOfDay) : String :=
  padded 2 t.hour ++ ":" ++ padded 2 t.minute ++ ":" ++ padded 2 t.second

end TimeOfDay

/-- A date and time; `offset` is how many microseconds the clock is ahead of UTC, if known. -/
structure Timestamp where
  date : Date
  time : TimeOfDay
  offset : Option Int
  deriving DecidableEq

namespace Timestamp

/-- Midnight of a date, offset unknown. -/
def ofDate (d : Date) : Timestamp := ⟨d, .midnight, none⟩

/-- The timestamp with its offset taken as UTC if it is unknown. -/
def assumeUtc (t : Timestamp) : Timestamp := ⟨t.date, t.time, some (t.offset.getD 0)⟩

/-- Microseconds since the start of day number 0, on the timestamp's own clock. -/
def localMicros (t : Timestamp) : Int := t.date.ordinal * microsPerDay + t.time.micros

/-- The UTC timestamp of a count of microseconds since the start of day number 0. -/
def ofUtcMicros? (n : Int) : Option Timestamp :=
  if n < 0 then none
  else
    (Date.ofOrdinal? (n.toNat / microsPerDay)).map fun d =>
      ⟨d, ⟨n.toNat % microsPerDay, Nat.mod_lt _ (by decide)⟩, some 0⟩

/-- The microseconds from the start of day number 0 to the start of 1970. -/
def epochMicros : Int := 719163 * microsPerDay

/-- The UTC timestamp of a count of microseconds since the start of 1970. -/
def ofUnixMicros? (n : Int) : Option Timestamp := ofUtcMicros? (epochMicros + n)

/-- The same moment in UTC, an unknown offset taken as UTC; nothing when it leaves the range
of dates. -/
def toUtc? (t : Timestamp) : Option Timestamp :=
  match t.offset with
  | some o => if o = 0 then some t else ofUtcMicros? (t.localMicros - o)
  | none => some t.assumeUtc

/-- The date in UTC, or the date itself when the offset is unknown. -/
def utcDate? (t : Timestamp) : Option Date := t.toUtc?.map (·.date)

/-- How a publish time in UTC is stored: `YYYY-MM-DDTHH:MM:SS.mmmZ`. The year is not padded. -/
def storedText (t : Timestamp) : String :=
  toString t.date.year ++ "-" ++ padded 2 t.date.month ++ "-" ++ padded 2 t.date.day ++ "T"
    ++ t.time.clockText ++ "." ++ padded 3 (t.time.micro / 1000) ++ "Z"

/-- The stored form of a publish time, moved to UTC. -/
def publishedText? (t : Timestamp) : Option String := t.toUtc?.map storedText

/-- The standard form of a UTC timestamp, with the offset; microseconds only if there are any. -/
def utcIso (t : Timestamp) : String :=
  t.date.iso ++ "T" ++ t.time.clockText
    ++ (if t.time.micro = 0 then "" else "." ++ padded 6 t.time.micro) ++ "+00:00"

end Timestamp

end Augur
