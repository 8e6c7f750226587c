import Listing.Text.Digit
set_option autoImplicit false

/-!
# Dates and times of day

Moments of the proleptic Gregorian calendar, years 1 to 9999, to the microsecond, with or without
an offset from universal time. The text of a moment is the extended ISO form; the fraction of a
second is written, with six digits, only when it is not zero.
-/

namespace Listing

namespace Calendar

def isLeap (year : Nat) : Bool := year % 4 == 0 && (year % 100 != 0 || year % 400 == 0)

def daysInMonth (year month : Nat) : Nat :=
  if month = 2 then (if isLeap year then 29 else 28)
  else if month = 4 ∨ month = 6 ∨ month = 9 ∨ month = 11 then 30 else 31

def daysBeforeYear (year : Nat) : Nat :=
  let y := year - 1
  y * 365 + y / 4 - y / 100 + y / 400

def daysBeforeMonth (year month : Nat) : Nat :=
  (List.range (month - 1)).foldl (fun days m => days + daysInMonth year (m + 1)) 0

/-- The number of a date, one for the first of January of the year 1. -/
def ordinal (year month day : Nat) : Nat :=
  daysBeforeYear year + daysBeforeMonth year month + day

def monthDay (year : Nat) : Nat → Nat → Nat → Nat × Nat
  | 0, month, day => (month, day)
  | fuel + 1, month, day =>
    let size := daysInMonth year month
    if day ≤ size then (month, day) else monthDay year fuel (month + 1) (day - size)

def weekday (year month day : Nat) : Nat := (ordinal year month day + 6) % 7

/-- Number of the Monday that begins the first week of a year, the week with its first
Thursday. -/
def firstMonday (year : Nat) : Int :=
  let first : Int := ordinal year 1 1
  let w := weekday year 1 1
  if w > 3 then first - w + 7 else first - w

def weeksInYear (year : Nat) : Nat :=
  let w := weekday year 1 1
  if w = 3 ∨ (w = 2 ∧ isLeap year) then 53 else 52

/-- The date with an ordinal that lies in `year` or in the year before or after it. -/
def dateNear (year : Nat) (n : Int) : Nat × Nat × Nat :=
  let y := if n ≤ daysBeforeYear year then year - 1
    else if n > daysBeforeYear (year + 1) then year + 1 else year
  let (m, d) := monthDay y 12 1 (n - daysBeforeYear y).toNat
  (y, m, d)

def ofWeek? (year week day : Nat) : Option (Nat × Nat × Nat) :=
  if 1 ≤ year ∧ 1 ≤ week ∧ week ≤ weeksInYear year ∧ 1 ≤ day ∧ day ≤ 7 then
    some (dateNear year (firstMonday year + (week - 1) * 7 + day - 1))
  else none

end Calendar

/-- A date and a time of day. The offset from universal time is in microseconds. -/
structure DateTime where
  year : Nat
  month : Nat
  day : Nat
  hour : Nat
  minute : Nat
  second : Nat
  microsecond : Nat
  offset : Option Int
deriving DecidableEq, Repr

namespace DateTime
open Listing.Text

def isValid (t : DateTime) : Bool :=
  1 ≤ t.year && t.year ≤ 9999 && 1 ≤ t.month && t.month ≤ 12 && 1 ≤ t.day &&
    t.day ≤ Calendar.daysInMonth t.year t.month && t.hour < 24 && t.minute < 60 && t.second < 60 &&
    t.microsecond < 1000000

/-- Whether a moment has a text: an offset of a day or more has none. -/
def hasText (t : DateTime) : Bool :=
  match t.offset with
  | none => true
  | some o => o.natAbs < 86400 * 1000000

def check (t : DateTime) : Option DateTime := if t.isValid && t.hasText then some t else none

def dateText (t : DateTime) : List Char :=
  padded 4 t.year ++ '-' :: padded 2 t.month ++ '-' :: padded 2 t.day

def clockText (t : DateTime) : List Char :=
  padded 2 t.hour ++ ':' :: padded 2 t.minute ++ ':' :: padded 2 t.second

def offsetText (offset : Int) : List Char :=
  let n := offset.natAbs
  let seconds := n / 1000000
  let fraction := n % 1000000
  (if offset < 0 then '-' else '+') :: padded 2 (seconds / 3600) ++
    ':' :: padded 2 (seconds / 60 % 60) ++
    (if seconds % 60 = 0 ∧ fraction = 0 then [] else ':' :: padded 2 (seconds % 60)) ++
    (if fraction = 0 then [] else '.' :: padded 6 fraction)

def textWith (separator : Char) (t : DateTime) : String :=
  String.ofList (t.dateText ++ separator :: t.clockText ++
    (if t.microsecond = 0 then [] else '.' :: padded 6 t.microsecond) ++
    (match t.offset with
     | none => []
     | some o => offsetText o))

def text (t : DateTime) : String := t.textWith 'T'

def storedText (t : DateTime) : String :=
  String.ofList (t.dateText ++ ' ' :: t.clockText ++ '.' :: padded 6 t.microsecond)

end DateTime
end Listing
