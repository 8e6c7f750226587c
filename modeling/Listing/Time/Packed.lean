import Listing.Time.DateTime
set_option autoImplicit false

/-!
# Packed dates and clock times

A date can be packed into four characters and a clock time into six, each character standing for
one byte: a number of two bytes for the year and of three bytes for the microsecond, of one byte for
every other part. Only the month of a date and the hour of a time are looked at when they are
unpacked.
-/

namespace Listing
open Listing.Text

/-- A day by its parts, which need not exist in any calendar. -/
structure Day where
  year : Nat
  month : Nat
  day : Nat
deriving DecidableEq, Repr

structure Clock where
  hour : Nat
  minute : Nat
  second : Nat
  microsecond : Nat
deriving DecidableEq, Repr

def bytesOf? (cs : List Char) : Option (List Nat) :=
  if cs.all fun c => c.toNat < 0x100 then some (cs.map Char.toNat) else none

namespace Day

def ofPacked? (cs : List Char) : Option Day :=
  match bytesOf? cs with
  | some [high, low, month, day] =>
    if 1 ≤ month ∧ month ≤ 12 then some ⟨256 * high + low, month, day⟩ else none
  | _ => none

def text (d : Day) : String :=
  String.ofList (padded 4 d.year ++ '-' :: padded 2 d.month ++ '-' :: padded 2 d.day)

end Day

namespace Clock

/-- Unpack a time of day. The high bit of the hour belongs to no part. -/
def ofPacked? (cs : List Char) : Option Clock :=
  match bytesOf? cs with
  | some [hour, minute, second, high, middle, low] =>
    if hour % 128 < 24 then
      some ⟨hour % 128, minute, second, 65536 * high + 256 * middle + low⟩
    else none
  | _ => none

def text (t : Clock) : String :=
  String.ofList (padded 2 t.hour ++ ':' :: padded 2 t.minute ++ ':' :: padded 2 t.second ++
    (if t.microsecond = 0 then [] else '.' :: padded 6 t.microsecond))

end Clock
end Listing
