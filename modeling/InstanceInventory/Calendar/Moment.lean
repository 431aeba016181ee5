import InstanceInventory.Number.Basic

/-! # Dates and times

* `Date`: a day that exists, from year 1 to year 9999.
* `Time`: a time of a day, which may tell its distance from universal time.
* `Date.text`, `Time.text`: as a person writes them.
* `Date.shown`, `Time.shown`: as parts of a larger value.
* `Time.instant`: the microseconds of universal time, by which times with a zone are compared.
-/

namespace InstanceInventory.Calendar
set_option autoImplicit false

/-- A number with zeros before it up to a width. -/
def padded (width n : Nat) : String :=
  let ds := Nat.toDigits 10 n
  String.ofList (List.replicate (width - ds.length) '0' ++ ds)

/-! ## Dates -/

def daysInMonth (year month : Nat) : Nat :=
  if month = 2 then
    if year % 4 = 0 ∧ (year % 100 ≠ 0 ∨ year % 400 = 0) then 29 else 28
  else if month = 4 ∨ month = 6 ∨ month = 9 ∨ month = 11 then 30 else 31

/-- A day. -/
structure Date where
  year : Nat
  month : Nat
  day : Nat
  deriving DecidableEq, Repr

namespace Date

def of? (year month day : Nat) : Option Date :=
  if 1 ≤ year ∧ year ≤ 9999 ∧ 1 ≤ month ∧ month ≤ 12 ∧ 1 ≤ day ∧ day ≤ daysInMonth year month then
    some ⟨year, month, day⟩
  else none

def text (d : Date) : String :=
  padded 4 d.year ++ "-" ++ padded 2 d.month ++ "-" ++ padded 2 d.day

/-- The number of days before a day, from the beginning of year 1 on. -/
def daysBefore (d : Date) : Nat :=
  let y := d.year - 1
  365 * y + y / 4 - y / 100 + y / 400 +
    ((List.range (d.month - 1)).map fun m => daysInMonth d.year (m + 1)).foldl (· + ·) 0 +
    (d.day - 1)

end Date

/-- Numbers between parentheses after the name of what they make. -/
def call (name : String) (arguments : List String) : String :=
  name ++ "(" ++ ", ".intercalate arguments ++ ")"

def Date.shown (d : Date) : String :=
  call "datetime.date" ([d.year, d.month, d.day].map countText)

/-! ## Times -/

/-- A time of a day; the zone is the distance from universal time in minutes. -/
structure Time where
  date : Date
  hour : Nat
  minute : Nat
  second : Nat
  micro : Nat
  zone : Option Int
  deriving DecidableEq, Repr

namespace Time

/-- A time of a day, if it exists; a zone is less than a day away. -/
def of? (date : Date) (hour minute second micro : Nat) (zone : Option Int) : Option Time :=
  if hour < 24 ∧ minute < 60 ∧ second < 60 ∧ micro < 1000000 ∧ zone.all (·.natAbs < 1440) then
    some ⟨date, hour, minute, second, micro, zone⟩
  else none

def zoneText (minutes : Int) : String :=
  (if minutes < 0 then "-" else "+") ++ padded 2 (minutes.natAbs / 60) ++ ":" ++
    padded 2 (minutes.natAbs % 60)

/-- The date, the time of the day, the fraction of the second if there is one, and the zone. -/
def text (t : Time) : String :=
  t.date.text ++ " " ++ padded 2 t.hour ++ ":" ++ padded 2 t.minute ++ ":" ++ padded 2 t.second ++
    (if t.micro = 0 then "" else "." ++ padded 6 t.micro) ++ (t.zone.map zoneText).getD ""

/-- A zone as a part of a larger value; what lies behind universal time is written as a day less and
the seconds of that day. -/
def zoneShown (minutes : Int) : String :=
  if minutes = 0 then "datetime.timezone.utc"
  else
    let parts := if minutes < 0 then ["days=-1", "seconds=" ++ integerText (86400 + 60 * minutes)]
      else ["seconds=" ++ integerText (60 * minutes)]
    call "datetime.timezone" [call "datetime.timedelta" parts]

/-- A time as a part of a larger value; the second and its fraction are left out where they and what
follows are zero. -/
def shown (t : Time) : String :=
  let seconds :=
    if t.micro ≠ 0 then [t.second, t.micro] else if t.second ≠ 0 then [t.second] else []
  call "datetime.datetime"
    (([t.date.year, t.date.month, t.date.day, t.hour, t.minute] ++ seconds).map countText ++
      (t.zone.map fun z => "tzinfo=" ++ zoneShown z).toList)

/-- The microseconds of a time from the beginning of year 1 on, less its zone. -/
def instant (t : Time) : Int :=
  let seconds : Nat := 86400 * t.date.daysBefore + 3600 * t.hour + 60 * t.minute + t.second
  1000000 * ((seconds : Int) - 60 * t.zone.getD 0) + t.micro

/-- Whether two times are the same: with a zone by the instant, without one by their parts. -/
def same (a b : Time) : Bool :=
  a.zone.isSome == b.zone.isSome && a.instant == b.instant

end Time
end InstanceInventory.Calendar
