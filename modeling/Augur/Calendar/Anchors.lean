/-
# Calendar anchors

The dates that a prompt may name relative to today: tomorrow, the week from
Sunday to Saturday, the month before and the start of the year.

Key definitions: `Date.anchors?`.
-/
import Augur.Calendar.Date

namespace Augur.Date

/-- The names of the anchors and their dates; nothing when one of them is out of range. -/
def anchors? (today : Date) : Option (List (String × Date)) := do
  let weekStart ← today.addDays? (-((today.weekday + 1) % 7 : Nat))
  let weekEnd ← weekStart.addDays? 6
  let lastMonthEnd ← today.monthStart.addDays? (-1)
  let tomorrow ← today.addDays? 1
  return [("TODAY_DATE", today), ("TOMORROW_DATE", tomorrow), ("WEEK_START", weekStart),
    ("WEEK_END", weekEnd), ("LAST_MONTH_START", lastMonthEnd.monthStart),
    ("LAST_MONTH_END", lastMonthEnd), ("YEAR_START", today.yearStart)]

end Augur.Date
