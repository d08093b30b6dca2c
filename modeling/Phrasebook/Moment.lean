import Phrasebook.Number.Digits

set_option autoImplicit false

/-!
Dates, with or without a time of the day.
-/
namespace Phrasebook

/-- A time of the day. The offset from universal time is in minutes. -/
structure Clock where
  hour : Nat
  minute : Nat
  second : Nat
  microsecond : Nat
  offset : Option Int
  deriving DecidableEq, Repr

structure Moment where
  year : Nat
  month : Nat
  day : Nat
  clock : Option Clock
  deriving DecidableEq, Repr

namespace Moment

def isLeap (year : Nat) : Bool := year % 4 = 0 && (year % 100 ≠ 0 || year % 400 = 0)

def daysIn (year month : Nat) : Nat :=
  if month = 2 then (if isLeap year then 29 else 28)
  else if [4, 6, 9, 11].contains month then 30
  else 31

/-- The day and the time exist. -/
def isValid (moment : Moment) : Bool :=
  1 ≤ moment.year && moment.year ≤ 9999 && 1 ≤ moment.month && moment.month ≤ 12 &&
    1 ≤ moment.day && moment.day ≤ daysIn moment.year moment.month &&
    match moment.clock with
    | none => true
    | some clock =>
      clock.hour < 24 && clock.minute < 60 && clock.second < 60 &&
        (clock.offset.getD 0).natAbs < 24 * 60

/-- A number with zeros in front up to a width. -/
def padded (width n : Nat) : String :=
  let digits := Number.digits n
  String.ofList (List.replicate (width - digits.length) '0' ++ digits)

def offsetText (offset : Int) : String :=
  (if offset < 0 then "-" else "+") ++ padded 2 (offset.natAbs / 60) ++ ":" ++
    padded 2 (offset.natAbs % 60)

def Clock.text (clock : Clock) : String :=
  padded 2 clock.hour ++ ":" ++ padded 2 clock.minute ++ ":" ++ padded 2 clock.second ++
    (if clock.microsecond = 0 then "" else "." ++ padded 6 clock.microsecond) ++
    (clock.offset.map offsetText).getD ""

def text (moment : Moment) : String :=
  padded 4 moment.year ++ "-" ++ padded 2 moment.month ++ "-" ++ padded 2 moment.day ++
    (moment.clock.map fun clock => " " ++ Clock.text clock).getD ""

/-- How error texts show an offset. -/
def offsetQuoted (offset : Int) : String :=
  if offset = 0 then "datetime.timezone.utc"
  else
    let seconds := offset * 60
    let days := Int.fdiv seconds 86400
    let rest := Int.fmod seconds 86400
    "datetime.timezone(datetime.timedelta(" ++
      (if days = 0 then "" else "days=" ++ Number.intText days ++ ", ") ++
      "seconds=" ++ Number.intText rest ++ "))"

/-- How error texts show a moment inside a list. -/
def quoted (moment : Moment) : String :=
  let number (n : Nat) : String := String.ofList (Number.digits n)
  let date := [number moment.year, number moment.month, number moment.day]
  match moment.clock with
  | none => "datetime.date(" ++ String.intercalate ", " date ++ ")"
  | some clock =>
    let fine :=
      if clock.microsecond ≠ 0 then [number clock.second, number clock.microsecond]
      else if clock.second ≠ 0 then [number clock.second]
      else []
    let zone := (clock.offset.map fun o => "tzinfo=" ++ offsetQuoted o).toList
    "datetime.datetime(" ++
      String.intercalate ", " (date ++ [number clock.hour, number clock.minute] ++ fine ++ zone) ++
      ")"

end Moment

end Phrasebook
