/-!
# Dates and times

Days of the Gregorian calendar from year 1 on, and times of such days with microseconds and, if
known, the distance from universal time in minutes.
-/

namespace ActivityScript.Settings

/-- A day. -/
structure Date where
  year : Nat
  month : Nat
  day : Nat
  deriving DecidableEq, Repr

/-- A time of a day. -/
structure Moment where
  date : Date
  hour : Nat
  minute : Nat
  second : Nat
  micros : Nat
  /-- Minutes ahead of universal time. -/
  offset? : Option Int
  deriving DecidableEq, Repr

/-- Why numbers are no date or time. -/
inductive CalendarFault where
  | year (year : Nat)
  | month
  | day
  | hour
  | minute
  | second
  /-- A distance from universal time of a day or more. -/
  | offset (minutes : Int)
  deriving DecidableEq, Repr

/-- Whole days and the minutes after them. -/
def daysAndMinutes (minutes : Int) : Int × Int := (minutes / 1440, minutes % 1440)

/-- A distance of minutes as it is quoted. -/
def quotedDistance (minutes : Int) : String :=
  let (days, rest) := daysAndMinutes minutes
  let seconds := toString (rest * 60)
  let parts := (if days = 0 then [] else ["days=" ++ toString days])
    ++ (if rest = 0 then [] else ["seconds=" ++ seconds])
  "datetime.timedelta(" ++ (if parts = [] then "0" else ", ".intercalate parts) ++ ")"

/-- A fault in words. -/
def CalendarFault.text : CalendarFault → String
  | .year n => "year " ++ toString n ++ " is out of range"
  | .month => "month must be in 1..12"
  | .day => "day is out of range for month"
  | .hour => "hour must be in 0..23"
  | .minute => "minute must be in 0..59"
  | .second => "second must be in 0..59"
  | .offset minutes =>
    "offset must be a timedelta strictly between -timedelta(hours=24) and "
      ++ "timedelta(hours=24), not " ++ quotedDistance minutes ++ "."

/-- Whether a year has a day more in February. -/
def isLeap (year : Nat) : Bool := year % 4 = 0 && (year % 100 ≠ 0 || year % 400 = 0)

/-- The number of days of a month. -/
def daysIn (year month : Nat) : Nat :=
  if month = 2 then (if isLeap year then 29 else 28)
  else if [4, 6, 9, 11].contains month then 30
  else 31

/-- The number of days in the first months of a year. -/
def daysBefore (year : Nat) : Nat → Nat
  | 0 => 0
  | months + 1 => daysBefore year months + daysIn year (months + 1)

/-- The number of a day, from the first day of year 1 on. -/
def Date.ordinal (date : Date) : Nat :=
  let years := date.year - 1
  years * 365 + years / 4 - years / 100 + years / 400 + daysBefore date.year (date.month - 1)
    + date.day

/-- The microseconds from the beginning of the calendar to a time, in universal time if that is
known. -/
def Moment.instant (moment : Moment) : Int :=
  let minutes : Int := (moment.date.ordinal * 24 + moment.hour) * 60 + moment.minute
  ((minutes - moment.offset?.getD 0) * 60 + moment.second) * 1000000 + moment.micros

/-- Whether the distance from universal time is known. -/
def Moment.isZoned (moment : Moment) : Bool := moment.offset?.isSome

/-- The day with these numbers. -/
def Date.of (year month day : Nat) : Except CalendarFault Date :=
  if year = 0 then .error (.year year)
  else if month = 0 ∨ 12 < month then .error .month
  else if day = 0 ∨ daysIn year month < day then .error .day
  else .ok ⟨year, month, day⟩

/-- The time with these numbers. -/
def Moment.of (year month day hour minute second micros : Nat) (offset? : Option Int) :
    Except CalendarFault Moment :=
  match offset?.filter fun minutes => 1440 ≤ minutes.natAbs with
  | some minutes => .error (.offset minutes)
  | none => do
    let date ← Date.of year month day
    if 23 < hour then throw .hour
    if 59 < minute then throw .minute
    if 59 < second then throw .second
    return ⟨date, hour, minute, second, micros, offset?⟩

/-- A number with zeros in front. -/
def padded (width n : Nat) : String :=
  let digits := Nat.toDigits 10 n
  String.ofList (List.replicate (width - digits.length) '0' ++ digits)

/-- A day as a text. -/
def Date.text (date : Date) : String :=
  padded 4 date.year ++ "-" ++ padded 2 date.month ++ "-" ++ padded 2 date.day

/-- A day as it is quoted. -/
def Date.quoted (date : Date) : String :=
  "datetime.date(" ++ ", ".intercalate ([date.year, date.month, date.day].map toString) ++ ")"

/-- A distance from universal time as a text. -/
def offsetText (minutes : Int) : String :=
  (if minutes < 0 then "-" else "+") ++ padded 2 (minutes.natAbs / 60) ++ ":"
    ++ padded 2 (minutes.natAbs % 60)

/-- A time as a text. -/
def Moment.text (moment : Moment) : String :=
  moment.date.text ++ " " ++ padded 2 moment.hour ++ ":" ++ padded 2 moment.minute ++ ":"
    ++ padded 2 moment.second
    ++ (if moment.micros = 0 then "" else "." ++ padded 6 moment.micros)
    ++ (moment.offset?.map offsetText).getD ""

/-- A distance from universal time as it is quoted. -/
def quotedOffset (minutes : Int) : String :=
  "tzinfo=" ++
    if minutes = 0 then "datetime.timezone.utc"
    else "datetime.timezone(" ++ quotedDistance minutes ++ ")"

/-- A time as it is quoted. -/
def Moment.quoted (moment : Moment) : String :=
  let date := moment.date
  let fine :=
    if moment.micros ≠ 0 then [moment.second, moment.micros]
    else if moment.second ≠ 0 then [moment.second]
    else []
  let numbers := [date.year, date.month, date.day, moment.hour, moment.minute] ++ fine
  let offset := (moment.offset?.map quotedOffset).toList
  "datetime.datetime(" ++ ", ".intercalate (numbers.map toString ++ offset) ++ ")"

end ActivityScript.Settings
