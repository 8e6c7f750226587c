import Listing.Time.DateTime
set_option autoImplicit false

/-!
# Reading ISO dates

The date is a calendar date or a week date, with or without hyphens; one character of any kind
separates it from the time; the time has two digits each for hours, minutes and seconds, with or
without colons, a fraction, and an offset or `Z`. The text is read as its UTF-8 units, one
character each; past its end stands the character zero.
-/

namespace Listing.IsoDate
open Listing.Text

def units (cs : List Char) : List Char :=
  (cs.flatMap String.utf8EncodeChar).map fun b => Char.ofNat b.toNat

def charAt (cs : List Char) (i : Nat) : Char := cs.getD i '\x00'

def takeNumber? (n : Nat) (cs : List Char) : Option (Nat × List Char) :=
  let ds := cs.take n
  if ds.length = n ∧ ds.all Char.isDigit then
    some (valueOfDigits (ds.map fun c => c.toNat - 0x30), cs.drop n)
  else none

/-- Length of the date at the head of a text: it is told by where hyphens, the letter `W` and
digits stand. After a week without hyphens an even number of digits belongs to the time. -/
def dateLength (cs : List Char) : Nat :=
  if cs.length = 7 then 7
  else if charAt cs 4 = '-' then
    if charAt cs 5 = 'W' then
      if charAt cs 8 = '-' then
        if (charAt cs 10).isDigit then 8 else 10
      else 8
    else 10
  else if charAt cs 4 = 'W' then
    let stop := 7 + ((cs.drop 7).takeWhile Char.isDigit).length
    if stop < 9 then stop else if stop % 2 = 0 then 7 else 8
  else 8

def takeHyphen? (hyphens : Bool) (cs : List Char) : Option (List Char) :=
  if hyphens then
    match cs with
    | '-' :: rest => some rest
    | _ => none
  else some cs

def readDate? (size : Nat) (cs : List Char) : Option (Nat × Nat × Nat) := do
  let (year, rest) ← takeNumber? 4 cs
  let hyphens := rest.head? == some '-'
  let rest := if hyphens then rest.drop 1 else rest
  if rest.head? = some 'W' then
    let (week, rest) ← takeNumber? 2 (rest.drop 1)
    if cs.length - rest.length < size then
      let rest ← takeHyphen? hyphens rest
      let (day, _) ← takeNumber? 1 rest
      Calendar.ofWeek? year week day
    else
      Calendar.ofWeek? year week 1
  else
    let (month, rest) ← takeNumber? 2 rest
    let rest ← takeHyphen? hyphens rest
    let (day, _) ← takeNumber? 2 rest
    some (year, month, day)

structure Clock where
  hour : Nat
  minute : Nat
  second : Nat
  microsecond : Nat
  finished : Bool

/-- Up to six digits of a fraction; more digits are dropped. -/
def readFraction? (cs : List Char) (after : Char) : Option (Nat × Bool) :=
  let size := min cs.length 6
  match takeNumber? size cs with
  | none => none
  | some (n, rest) =>
    some (n * Nat.pow 10 (6 - size), (rest.dropWhile Char.isDigit).headD after == '\x00')

/-- The parts of a clock time. `cs` is the text of the clock and `after` the character that
follows it, zero at the end of the whole text. `values` are the parts read so far and `colons`
tells whether colons are in use. -/
def readParts? (after : Char) : Nat → Bool → List Nat → List Char → Option (List Nat × Nat × Bool)
  | 0, _, values, cs => (readFraction? cs after).map fun (n, done) => (values, n, done)
  | left + 1, colons, values, cs => do
    let (n, rest) ← takeNumber? 2 cs
    let values := values ++ [n]
    match rest with
    | [] => some (values, 0, after == '\x00')
    | [c] =>
      some (values, 0, c == '\x00')
    | c :: rest' =>
      let colons := if left = 2 then c == ':' else colons
      if colons && c == ':' then readParts? after left true values rest'
      else if c = '.' ∨ c = ',' then
        (readFraction? rest' after).map fun (n, done) => (values, n, done)
      else if colons then none
      else readParts? after left false values rest

def readClock? (after : Char) (cs : List Char) : Option Clock :=
  (readParts? after 3 true [] cs).map fun (values, fraction, done) =>
    ⟨values.getD 0 0, values.getD 1 0, values.getD 2 0, fraction, done⟩

def startsOffset (c : Char) : Bool := c == '+' || c == '-' || c == 'Z'

/-- An offset, from its sign on. An offset of less than one second is no offset. -/
def readOffset? (cs : List Char) : Option Int :=
  match cs with
  | ['Z'] => some 0
  | 'Z' :: '\x00' :: _ => some 0
  | 'Z' :: _ => none
  | sign :: rest => do
    let clock ← readClock? '\x00' rest
    if clock.finished then
      let seconds := clock.hour * 3600 + clock.minute * 60 + clock.second
      let size : Int := if seconds = 0 then 0 else seconds * 1000000 + clock.microsecond
      some (if sign = '-' then -size else size)
    else none
  | [] => none

def readTime? (cs : List Char) : Option (Clock × Option Int) := do
  let clockChars := cs.takeWhile (!startsOffset ·)
  let offsetChars := cs.dropWhile (!startsOffset ·)
  let clock ← readClock? (offsetChars.headD '\x00') clockChars
  if offsetChars.isEmpty then
    if clock.finished then some (clock, none) else none
  else
    let offset ← readOffset? offsetChars
    some (clock, some offset)

def unitCount (c : Char) : Nat :=
  let n := c.toNat
  if n < 0x80 then 1 else if n / 16 = 0xE then 3 else if n / 16 = 0xF then 4 else 2

def read? (text : List Char) : Option DateTime := do
  let cs := units text
  if cs.length < 7 ∨ (cs.length = 9 ∧ dateLength cs = 10) then none
  else
    let size := dateLength cs
    let (year, month, day) ← readDate? size cs
    if cs.length ≤ size then
      DateTime.check ⟨year, month, day, 0, 0, 0, 0, none⟩
    else
      let rest := cs.drop size
      let (clock, offset) ← readTime? (rest.drop (unitCount (rest.headD '\x00')))
      DateTime.check
        ⟨year, month, day, clock.hour, clock.minute, clock.second, clock.microsecond, offset⟩

end Listing.IsoDate
