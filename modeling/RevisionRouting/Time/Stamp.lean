/-!
# Instants and time stamps

Dates are those of the proleptic Gregorian calendar. Years count from year 0, which
is a leap year, and `Date.dayNumber` numbers the days so that 1 January 1970 is day 0.

An `Instant` is a point of universal time. A leap second is held as a stretched
second 59: its count of nanoseconds runs on from 10 ^ 9. A `Stamp` is a date and a
time of day with the offset from universal time that they were written with.

`Instant.nanosSince` is the time between two instants. Leap seconds make it more
than a difference of counts: the extra second counts only when a later second of
a day stands against a leap second.
-/

namespace RevisionRouting.Time

/-! ### Dates -/

/-- Whether the year has a 29 February. -/
def isLeapYear (year : Nat) : Bool :=
  year % 4 = 0 && (year % 100 ≠ 0 || year % 400 = 0)

/-- The lengths of the months of a year. -/
def monthLengths (year : Nat) : List Nat :=
  [31, if isLeapYear year then 29 else 28, 31, 30, 31, 30, 31, 31, 30, 31, 30, 31]

/-- The number of leap years before a year. -/
def leapYearsBefore (year : Nat) : Nat :=
  (year + 3) / 4 - (year + 99) / 100 + (year + 399) / 400

/-- The number of days of a year before a month. -/
def daysBeforeMonth (year month : Nat) : Nat :=
  ((monthLengths year).take (month - 1)).foldl (· + ·) 0

/-- A day of the calendar. -/
structure Date where
  year : Nat
  month : Nat
  day : Nat
  deriving DecidableEq, Repr

namespace Date

/-- Whether the calendar has the date. -/
def Exists (d : Date) : Prop :=
  1 ≤ d.month ∧ d.month ≤ 12 ∧ 1 ≤ d.day ∧ d.day ≤ (monthLengths d.year).getD (d.month - 1) 0

instance (d : Date) : Decidable d.Exists := by unfold Exists; infer_instance

/-- The number of days from 1 January of year 0 to 1 January 1970. -/
def epochDay : Nat := 719528

/-- The number of days from 1 January 1970 to the date. -/
def dayNumber (d : Date) : Int :=
  (365 * d.year + leapYearsBefore d.year + daysBeforeMonth d.year d.month + d.day : Nat) - 1 -
    epochDay

example : dayNumber ⟨1970, 1, 1⟩ = 0 := by decide
example : dayNumber ⟨2000, 3, 1⟩ = dayNumber ⟨2000, 2, 29⟩ + 1 := by decide
example : dayNumber ⟨0, 1, 1⟩ = -719528 := by decide
example : ¬ Exists ⟨2023, 2, 29⟩ ∧ Exists ⟨2024, 2, 29⟩ ∧ Exists ⟨0, 2, 29⟩ := by decide

end Date

/-! ### Times of day -/

/-- A time of day. -/
structure TimeOfDay where
  hour : Nat
  minute : Nat
  second : Nat
  /-- The nanoseconds within the second; a leap second runs on beyond 10 ^ 9. -/
  nanos : Nat
  hour_lt : hour < 24
  minute_lt : minute < 60
  second_lt : second < 60
  nanos_lt : nanos < 2000000000
  /-- Only the last second of a minute is stretched. -/
  second_of_leap : 1000000000 ≤ nanos → second = 59
  deriving DecidableEq

/-- The number of whole seconds since midnight. -/
def TimeOfDay.secondOfDay (t : TimeOfDay) : Nat := (t.hour * 60 + t.minute) * 60 + t.second

/-- The time of day with the given fields; second 60 is a leap second. -/
def TimeOfDay.ofFields? (hour minute second nanos : Nat) : Option TimeOfDay :=
  if h : hour < 24 ∧ minute < 60 ∧ second ≤ 60 ∧ nanos < 1000000000 then
    if hs : second = 60 then
      some ⟨hour, minute, 59, nanos + 1000000000, by omega, by omega, by omega, by omega, by omega⟩
    else
      some ⟨hour, minute, second, nanos, by omega, by omega, by omega, by omega, by omega⟩
  else none

/-! ### Instants -/

/-- A point of universal time. -/
structure Instant where
  /-- The whole seconds since the beginning of 1970; a leap second has the count of the second
  before it. -/
  seconds : Int
  /-- The nanoseconds within the second, from 10 ^ 9 on in a leap second. -/
  nanos : Nat
  nanos_lt : nanos < 2000000000
  deriving DecidableEq

namespace Instant

/-- A whole second has no nanoseconds, and none are within the limit. -/
theorem zero_nanos_lt : 0 < 2000000000 := by decide

/-- Whether the instant lies in a leap second. -/
def IsLeap (t : Instant) : Prop := 1000000000 ≤ t.nanos

instance (t : Instant) : Decidable t.IsLeap := inferInstanceAs (Decidable (1000000000 ≤ t.nanos))

/-- The second of the day. -/
def secondOfDay (t : Instant) : Int := t.seconds % 86400

/-- The extra second that lies between two instants: one forwards after a leap second at an
earlier time of day, one backwards after one at a later time of day. -/
def leapBetween (now past : Instant) : Int :=
  if past.secondOfDay < now.secondOfDay ∧ past.IsLeap then 1
  else if now.secondOfDay < past.secondOfDay ∧ now.IsLeap then -1
  else 0

/-- The nanoseconds from `past` to `now`. -/
def nanosSince (now past : Instant) : Int :=
  (now.seconds - past.seconds + leapBetween now past) * 1000000000 + (now.nanos - past.nanos : Int)

/-- The whole milliseconds from `past` to `now`, cut toward zero. -/
def millisSince (now past : Instant) : Int := (nanosSince now past).tdiv 1000000

end Instant

/-! ### Stamps -/

/-- A date and a time of day with their offset from universal time. -/
structure Stamp where
  date : Date
  time : TimeOfDay
  /-- The minutes by which the written time is ahead of universal time. -/
  offset : Int
  deriving DecidableEq

namespace Stamp

/-- The instant that a stamp denotes. -/
def instant (s : Stamp) : Instant :=
  ⟨s.date.dayNumber * 86400 + s.time.secondOfDay - s.offset * 60, s.time.nanos, s.time.nanos_lt⟩

end Stamp

end RevisionRouting.Time
