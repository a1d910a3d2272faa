import GuidedTour.Text.Basic

/-!
# Dates and moments

Days of the calendar, and moments of a day with an optional distance from universal time. `Date.valid`
and `Moment.valid` say which of them exist. Both have a plain form for readers and a literal one.
-/

set_option autoImplicit false

namespace GuidedTour.Data

/-- A day of the calendar. -/
structure Date where
  year : Nat
  month : Nat
  day : Nat
deriving DecidableEq, Repr, Inhabited

namespace Date

/-- Whether a year has a leap day. -/
def isLeap (year : Nat) : Bool := year % 4 = 0 && (year % 100 ≠ 0 || year % 400 = 0)

/-- The number of days of a month. -/
def monthLength (year month : Nat) : Nat :=
  if month = 2 then (if isLeap year then 29 else 28)
  else if month = 4 ∨ month = 6 ∨ month = 9 ∨ month = 11 then 30 else 31

/-- Whether the calendar has the day; it goes from year one to year 9999. -/
def valid (date : Date) : Bool :=
  1 ≤ date.year && date.year ≤ 9999 && 1 ≤ date.month && date.month ≤ 12
    && 1 ≤ date.day && date.day ≤ monthLength date.year date.month

/-- The number of days since the day before the first one of year one. -/
def ordinal (date : Date) : Nat :=
  let y := date.year - 1
  let months := (List.range (date.month - 1)).map fun m => monthLength date.year (m + 1)
  y * 365 + y / 4 - y / 100 + y / 400 + months.foldl (· + ·) 0 + date.day

end Date

/-- A number with zeros in front up to a width. -/
def padded (width n : Nat) : Text :=
  List.replicate (width - (Text.ofNat n).length) '0' ++ Text.ofNat n

/-- A day as year, month and day with hyphens. -/
def Date.shown (date : Date) : Text :=
  padded 4 date.year ++ '-' :: padded 2 date.month ++ '-' :: padded 2 date.day

/-- Numbers as a literal form lists them. -/
def numbered (numbers : List Nat) : Text := Text.join [',', ' '] (numbers.map Text.ofNat)

/-- A day in its literal form. -/
def Date.literal (date : Date) : Text :=
  "datetime.date(".toList ++ numbered [date.year, date.month, date.day] ++ [')']

/-- A moment of a day. The offset from universal time is in minutes; without one the moment is local. -/
structure Moment where
  date : Date
  hour : Nat
  minute : Nat
  second : Nat
  microsecond : Nat
  offset : Option Int
deriving DecidableEq, Repr, Inhabited

namespace Moment

/-- Whether the moment exists and its offset is less than a day. -/
def valid (m : Moment) : Bool :=
  m.date.valid && m.hour < 24 && m.minute < 60 && m.second < 60 && m.microsecond < 1000000
    && m.offset.all fun offset => offset.natAbs < 1440

/-- The microseconds since the beginning of the calendar, in universal time where there is an offset. -/
def instant (m : Moment) : Int :=
  ((((m.date.ordinal * 24 + m.hour) * 60 + m.minute : Nat) - m.offset.getD 0 : Int) * 60
    + m.second) * 1000000 + m.microsecond

/-- Whether two moments are the same. A local moment is never the same as one with an offset. -/
def same (a b : Moment) : Bool := a.offset.isSome == b.offset.isSome && a.instant == b.instant

/-- An offset as sign, hours and minutes. -/
def offsetShown (offset : Int) : Text :=
  (if offset < 0 then '-' else '+')
    :: padded 2 (offset.natAbs / 60) ++ ':' :: padded 2 (offset.natAbs % 60)

/-- A moment as date, blank and time, with six digits behind the seconds if they are not whole. -/
def shown (m : Moment) : Text :=
  m.date.shown ++ ' ' :: padded 2 m.hour ++ ':' :: padded 2 m.minute ++ ':' :: padded 2 m.second
    ++ (if m.microsecond = 0 then [] else '.' :: padded 6 m.microsecond)
    ++ (m.offset.map offsetShown).getD []

/-- An offset in its literal form: as days and seconds, the seconds counted forward, and without those of
the two that are zero. -/
def offsetLiteral (offset : Int) : Text :=
  if offset = 0 then "datetime.timezone.utc".toList
  else
    let days := offset.fdiv 1440
    let seconds := offset.fmod 1440 * 60
    let parts : List Text :=
      (if days = 0 then [] else ["days=".toList ++ Text.ofInt days])
        ++ (if seconds = 0 then [] else ["seconds=".toList ++ Text.ofInt seconds])
    "datetime.timezone(datetime.timedelta(".toList ++ Text.join [',', ' '] parts ++ [')', ')']

/-- A moment in its literal form. Seconds and microseconds are left out from the end if they are zero. -/
def literal (m : Moment) : Text :=
  let fine : List Nat :=
    if m.microsecond ≠ 0 then [m.second, m.microsecond] else if m.second ≠ 0 then [m.second] else []
  "datetime.datetime(".toList
    ++ numbered ([m.date.year, m.date.month, m.date.day, m.hour, m.minute] ++ fine)
    ++ ((m.offset.map fun offset => ", tzinfo=".toList ++ offsetLiteral offset).getD []) ++ [')']

end Moment

end GuidedTour.Data
