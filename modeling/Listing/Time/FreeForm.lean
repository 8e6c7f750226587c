import Listing.Number.Binary64
import Listing.Number.Numeral
import Listing.Text.Letter
import Listing.Time.DateTime
set_option autoImplicit false

/-!
# Reading dates in everyday notation

A text is cut into words, numbers and single signs. Numbers and month names are collected as parts
of the date; which of them is the year, the month and the day is told by month names, by size and
by position, months before days in doubtful cases. Clock times, unit letters, halves of the day,
weekday names and offsets are understood between them; anything else makes the text no date. Only
a text that gives year, month and day is read. Fractions of hours and minutes are decimals of 28
digits, and no fraction can be told from a number with more digits before its point.
-/

namespace Listing.FreeForm
open Listing.Text

/-! ## Tokens -/

inductive Mode where
  | word
  | number
  | dottedWord
  | dottedNumber
deriving DecidableEq

/-- The mode after one more character, if the character belongs to the token. `token` holds the
characters so far, the last one first. -/
def Mode.next? (mode : Mode) (token : List Char) (c : Char) : Option Mode :=
  match mode with
  | .word => if isLetter c then some .word else if c = '.' then some .dottedWord else none
  | .number =>
    if isDigitSign c then some .number
    else if c = '.' ∨ (c = ',' ∧ 2 ≤ token.length) then some .dottedNumber else none
  | .dottedWord =>
    if c = '.' ∨ isLetter c then some .dottedWord
    else if isDigitSign c ∧ token.head? = some '.' then some .dottedNumber else none
  | .dottedNumber =>
    if c = '.' ∨ isDigitSign c then some .dottedNumber
    else if isLetter c ∧ token.head? = some '.' then some .dottedWord else none

def splitPoints : List Char → List Char → List (List Char)
  | acc, [] => [acc.reverse]
  | acc, c :: cs =>
    if c = '.' ∨ c = ',' then acc.reverse :: [c] :: splitPoints [] cs else splitPoints (c :: acc) cs

/-- The tokens of a finished run. A run with points is cut at them when it holds letters, several
points, or ends in one; a single comma in a number is its decimal point. -/
def finish (mode : Mode) (token : List Char) (letters : Bool) : List (List Char) :=
  let dotted := mode = .dottedWord ∨ mode = .dottedNumber
  let last := token.headD ' '
  let run := token.reverse
  if dotted ∧ (letters || 1 < run.count '.' || last == '.' || last == ',') then
    match splitPoints [] run with
    | [] => []
    | first :: more => first :: more.filter (!·.isEmpty)
  else if mode = .dottedNumber ∧ run.count '.' = 0 then
    [run.map fun c => if c = ',' then '.' else c]
  else [run]

structure Run where
  mode : Mode
  token : List Char
  letters : Bool

def begin (c : Char) : Run ⊕ List Char :=
  if isLetter c then .inl ⟨.word, [c], false⟩
  else if isDigitSign c then .inl ⟨.number, [c], false⟩
  else .inr (if isBlank c then [' '] else [c])

def tokensFrom : Option Run → List Char → List (List Char)
  | none, [] => []
  | some r, [] => finish r.mode r.token r.letters
  | none, c :: cs =>
    match begin c with
    | .inl r => tokensFrom (some r) cs
    | .inr t => t :: tokensFrom none cs
  | some r, c :: cs =>
    let letters := r.letters || r.mode == .word || r.mode == .dottedWord
    match r.mode.next? r.token c with
    | some mode => tokensFrom (some ⟨mode, c :: r.token, letters⟩) cs
    | none =>
      finish r.mode r.token letters ++
        match begin c with
        | .inl r => tokensFrom (some r) cs
        | .inr t => t :: tokensFrom none cs

def tokens (cs : List Char) : List String :=
  (tokensFrom none (cs.filter (· != '\x00'))).map String.ofList

/-! ## Vocabulary -/

def isJump (t : String) : Bool :=
  [" ", ".", ",", ";", "-", "/", "'", "at", "on", "and", "ad", "m", "t", "of", "st", "nd", "rd",
    "th"].contains (lowered t)

def isWeekday (t : String) : Bool :=
  ["mon", "monday", "tue", "tuesday", "wed", "wednesday", "thu", "thursday", "fri", "friday", "sat",
    "saturday", "sun", "sunday"].contains (lowered t)

def months : List (List String) :=
  [["jan", "january"], ["feb", "february"], ["mar", "march"], ["apr", "april"], ["may"],
    ["jun", "june"], ["jul", "july"], ["aug", "august"], ["sep", "sept", "september"],
    ["oct", "october"], ["nov", "november"], ["dec", "december"]]

def month? (t : String) : Option Nat :=
  (months.findIdx? (·.contains (lowered t))).map (· + 1)

def unit? (t : String) : Option Nat :=
  [["h", "hour", "hours"], ["m", "minute", "minutes"], ["s", "second", "seconds"]].findIdx?
    (·.contains (lowered t))

def half? (t : String) : Option Nat :=
  [["am", "a"], ["pm", "p"]].findIdx? (·.contains (lowered t))

def isUniversal (t : String) : Bool := ["utc", "gmt", "z"].contains (lowered t)

/-! ## Parts of the date -/

/-- Numbers that may be year, month or day, in order, with the places of those already told. -/
structure Parts where
  values : List Nat := []
  yearAt : Option Nat := none
  monthAt : Option Nat := none
  centuryGiven : Bool := false

namespace Parts

def push (p : Parts) (n : Nat) : Parts := { p with values := p.values ++ [n] }

def pushMonth? (p : Parts) (n : Nat) : Option Parts :=
  if p.monthAt.isSome then none
  else some { p.push n with monthAt := some p.values.length }

def pushYear? (p : Parts) (n : Nat) : Option Parts :=
  if p.yearAt.isSome then none else some { p.push n with yearAt := some p.values.length }

def pushNumber? (p : Parts) (n : Nat) (isYear : Bool) : Option Parts :=
  if isYear then { p with centuryGiven := true }.pushYear? n else some (p.push n)

def part (p : Parts) (i : Nat) : Nat := p.values.getD i 0

def admitsDay (p : Parts) (value : Rat) : Bool :=
  match p.monthAt, p.yearAt with
  | none, _ => 1 ≤ value && value ≤ 31
  | some m, none => 1 ≤ value && value ≤ Calendar.daysInMonth 2000 (p.part m)
  | some m, some y => 1 ≤ value && value ≤ Calendar.daysInMonth (p.part y) (p.part m)

def resolve? (p : Parts) : Option (Nat × Nat × Nat) :=
  match p.values with
  | [a, b, c] =>
    match p.yearAt, p.monthAt with
    | some y, some m => some (p.part y, p.part m, p.part (3 - y - m))
    | _, some 0 => some (if b > 31 then (b, a, c) else (c, a, b))
    | _, some 1 => some (if a > 31 then (a, b, c) else (c, b, a))
    | _, some _ => some (if b > 31 then (b, c, a) else (a, c, b))
    | y, none =>
      if a > 31 ∨ y = some 0 then some (a, b, c)
      else if a > 12 then some (c, b, a) else some (c, a, b)
  | _ => none

end Parts

/-! ## Reading -/

/-- Why a text is not read: it is no date, or it asks for the fraction of a number that has too many
digits. -/
inductive Refusal where
  | notADate
  | indivisible
deriving DecidableEq, Repr

abbrev Attempt (α : Type) := Except Refusal α

instance : MonadLift Option Attempt where
  monadLift x := x.elim (.error .notADate) .ok

structure Reading where
  parts : Parts := {}
  hour : Option Nat := none
  minute : Option Nat := none
  second : Option Nat := none
  microsecond : Option Nat := none
  zone : Option String := none
  /-- Seconds east of universal time. -/
  offset : Option Int := none
  /-- Whether the sign of the next offset is to be turned round. -/
  reversed : Bool := false

def digitsValue? (t : String) : Option Nat :=
  match t.toList.mapM digitValue? with
  | some (d :: ds) => some (valueOfDigits (d :: ds))
  | _ => none

def slice? (t : String) (start stop : Nat) : Option Nat :=
  digitsValue? (String.ofList ((t.toList.take stop).drop start))

def fractionDigits (t : String) : List Char := (t.toList.dropWhile (· != '.')).drop 1

def value? (t : String) : Option Rat := do
  let cs := t.toList
  let whole ← (cs.takeWhile (· != '.')).mapM digitValue?
  let fraction ← (fractionDigits t).mapM digitValue?
  if whole.isEmpty then none
  else if cs.contains '.' && fraction.isEmpty then none
  else some (mkRat (valueOfDigits (whole ++ fraction)) (Nat.pow 10 fraction.length))

def whole (x : Rat) : Nat := x.floor.toNat

def keptDigits : Nat := 28

def rounded (n : Nat) : Nat × Nat :=
  let dropped := (digits n).length - keptDigits
  (Binary64.roundHalfEven n (Nat.pow 10 dropped), dropped)

def sixtieths? (t : String) : Option Nat :=
  let ds := (fractionDigits t).filterMap digitValue?
  let (n, dropped) := rounded (valueOfDigits ds)
  if n = 0 then none
  else
    let (m, more) := rounded (60 * n)
    some (m * Nat.pow 10 more / Nat.pow 10 (ds.length - dropped))

def inSixtieths (t : String) : Attempt (Nat × Option Nat) := do
  let x ← value? t
  if keptDigits < (digits (whole x)).length then .error .indivisible
  else .ok (whole x, sixtieths? t)

def secondFraction? (t : String) : Option (Nat × Nat) :=
  if t.contains '.' then do
    let s ← digitsValue? (String.ofList (t.toList.takeWhile (· != '.')))
    let fraction := (fractionDigits t).take 6
    let f ← digitsValue? (String.ofList (fraction ++ List.replicate (6 - fraction.length) '0'))
    some (s, f)
  else (digitsValue? t).map (·, 0)

def adjustHour (hour half : Nat) : Nat :=
  if hour < 12 ∧ half = 1 then hour + 12 else if hour = 12 ∧ half = 0 then 0 else hour

def pushToken? (p : Parts) (t : String) : Option Parts := do
  let n ← digitsValue? t
  p.pushNumber? n (2 < t.length)

def assignUnit (r : Reading) (t : String) (unit : Nat) : Attempt Reading := do
  match unit with
  | 0 =>
    let (h, m) ← inSixtieths t
    .ok { r with hour := some h, minute := m.or r.minute }
  | 1 =>
    let (m, s) ← inSixtieths t
    .ok { r with minute := some m, second := s }
  | 2 =>
    let (s, f) ← secondFraction? t
    .ok { r with second := some s, microsecond := some f }
  | _ => .ok r

section
variable (ts : List String)

def token? (i : Nat) : Option String := ts[i]?

def unitAt? (i : Nat) : Option Nat := ts[i]?.bind unit?

def isAt (i : Nat) (t : String) : Bool := ts[i]? == some t

/-- Where the unit of the number at a place stands, and which unit the number has: the unit that
follows it, or the one after the unit before it. -/
def unitFor? (i : Nat) : Option (Nat × Nat) :=
  match unitAt? ts (i + 1) with
  | some u => some (i + 1, u)
  | none =>
    match (if isAt ts (i + 1) " " then unitAt? ts (i + 2) else none) with
    | some u => some (i + 2, u)
    | none =>
      match (if 0 < i then unitAt? ts (i - 1) else none) with
      | some u => some (i, u + 1)
      | none =>
        if 1 < i ∧ i + 1 = ts.length ∧ isAt ts (i - 1) " " then
          (unitAt? ts (i - 2)).map (i, · + 1)
        else none

/-- A numeric token before a hyphen, slash or point: two or three parts of a date. -/
def readSeparated? (i : Nat) (t : String) (p : Parts) : Option (Nat × Parts) := do
  let p ← pushToken? p t
  match ts[i + 2]? with
  | none => some (i + 1, p)
  | some next =>
    if isJump next then some (i + 1, p)
    else
      let p ← match digitsValue? next with
        | some _ => pushToken? p next
        | none => do p.pushMonth? (← month? next)
      if ts[i + 3]? = ts[i + 1]? then
        let last ← ts[i + 4]?
        let p ← match month? last with
          | some m => p.pushMonth? m
          | none => pushToken? p last
        some (i + 4, p)
      else some (i + 2, p)

def readNumber (i : Nat) (t : String) (x : Rat) (r : Reading) : Attempt (Nat × Reading) :=
  let size := t.length
  let next := ts[i + 1]?
  let p := r.parts
  if p.values.length = 3 ∧ (size = 2 ∨ size = 4) ∧ r.hour = none ∧
      next ≠ some ":" ∧ next.bind unit? = none then do
    let h ← slice? t 0 2
    if size = 4 then
      let m ← slice? t 2 4
      .ok (i, { r with hour := some h, minute := some m })
    else .ok (i, { r with hour := some h })
  else if size = 6 ∨ (6 < size ∧ t.toList.findIdx? (· == '.') = some 6) then
    if p.values.isEmpty ∧ !t.contains '.' then do
      let p := ((p.push (← slice? t 0 2)).push (← slice? t 2 4)).push (← slice? t 4 6)
      .ok (i, { r with parts := p })
    else do
      let h ← slice? t 0 2
      let m ← slice? t 2 4
      let (s, f) ← secondFraction? (String.ofList (t.toList.drop 4))
      .ok (i, { r with hour := some h, minute := some m, second := some s, microsecond := some f })
  else if size = 8 ∨ size = 12 ∨ size = 14 then do
    let p ← { p with centuryGiven := true }.pushYear? (← slice? t 0 4)
    let p := (p.push (← slice? t 4 6)).push (← slice? t 6 8)
    let r := { r with parts := p }
    if size = 8 then .ok (i, r)
    else
      let r := { r with hour := some (← slice? t 8 10), minute := some (← slice? t 10 12) }
      if size = 12 then .ok (i, r)
      else .ok (i, { r with second := some (← slice? t 12 14) })
  else
    match unitFor? ts i with
    | some (j, u) => (assignUnit r t u).map (j, ·)
    | none =>
      if next = some ":" ∧ i + 2 < ts.length then do
        let (m, s) ← inSixtieths (← ts[i + 2]?)
        let r := { r with hour := some (whole x), minute := some m, second := s }
        if isAt ts (i + 3) ":" ∧ i + 4 < ts.length then
          let (s, f) ← secondFraction? (← ts[i + 4]?)
          .ok (i + 4, { r with second := some s, microsecond := some f })
        else .ok (i + 2, r)
      else if next = some "-" ∨ next = some "/" ∨ next = some "." then do
        let (j, p) ← readSeparated? ts i t p
        .ok (j, { r with parts := p })
      else
        match next with
        | none => do
          let p ← p.pushNumber? (whole x) (100 < x)
          .ok (i + 1, { r with parts := p })
        | some next =>
          if isJump next then
            match ts[i + 2]?.bind half? with
            | some half => .ok (i + 2, { r with hour := some (adjustHour (whole x) half) })
            | none => do
              let p ← p.pushNumber? (whole x) (100 < x)
              .ok (i + 1, { r with parts := p })
          else
            match (if x < 24 then half? next else none) with
            | some half => .ok (i + 1, { r with hour := some (adjustHour (whole x) half) })
            | none => do
              if p.admitsDay x then
                let p ← p.pushNumber? (whole x) (100 < x)
                .ok (i, { r with parts := p })
              else .error .notADate

def readMonth? (i : Nat) (m : Nat) (r : Reading) : Option (Nat × Reading) := do
  let p ← r.parts.pushMonth? m
  if isAt ts (i + 1) "-" ∨ isAt ts (i + 1) "/" then
    let p ← pushToken? p (← ts[i + 2]?)
    if ts[i + 3]? = ts[i + 1]? then
      let p ← pushToken? p (← ts[i + 4]?)
      some (i + 4, { r with parts := p })
    else some (i + 2, { r with parts := p })
  else if isAt ts (i + 1) " " ∧ isAt ts (i + 3) " " ∧ (ts[i + 2]?.map lowered) = some "of" ∧
      i + 4 < ts.length then
    let t ← ts[i + 4]?
    if t.all isDigitSign then
      let y ← digitsValue? t
      let y := if y < 100 then (if y < 76 then 2000 + y else 1900 + y) else y
      let p ← { p with centuryGiven := p.centuryGiven || 2 < (digits y).length }.pushYear? y
      some (i + 4, { r with parts := p })
    else some (i + 4, { r with parts := p })
  else some (i, { r with parts := p })

def namesZone (r : Reading) (zone : Option String) (t : String) : Bool :=
  r.hour.isSome && zone.isNone && t.length ≤ 5 &&
    (t.all Char.isUpper || t == "UTC" || t == "GMT" || t == "Z" || t == "z")

/-- Read a time zone name. A sign after it is turned round. -/
def readZone (i : Nat) (t : String) (r : Reading) : Reading :=
  let r := { r with zone := some t, offset := if t = "z" then some 0 else none }
  if isAt ts (i + 1) "+" ∨ isAt ts (i + 1) "-" then
    { r with reversed := true, offset := none, zone := if isUniversal t then none else some t }
  else r

def readOffset? (i : Nat) (sign : String) (r : Reading) : Option (Nat × Reading) := do
  let positive := (sign == "+") != r.reversed
  let t ← ts[i + 1]?
  let (j, h, m) ←
    if t.length = 4 then do some (i + 1, ← slice? t 0 2, ← slice? t 2 4)
    else if isAt ts (i + 2) ":" then
      do some (i + 3, ← digitsValue? t, ← digitsValue? (← ts[i + 3]?))
    else if t.length ≤ 2 then do some (i + 1, ← digitsValue? t, 0)
    else none
  let size : Int := h * 3600 + m * 60
  let r := { r with offset := some (if positive then size else -size), reversed := false }
  match ts[j + 3]? with
  | some name =>
    if (ts[j + 1]?.map isJump) = some true ∧ isAt ts (j + 2) "(" ∧ isAt ts (j + 4) ")" ∧
        3 ≤ name.length ∧ namesZone r r.zone name then
      some (j + 4, { r with zone := some name })
    else some (j, r)
  | none => some (j, r)

def step (i : Nat) (t : String) (r : Reading) : Attempt (Nat × Reading) :=
  match value? t with
  | some x => readNumber ts i t x r
  | none =>
    if lowered t = "nan" ∨ lowered t = "inf" ∨ lowered t = "infinity" then .error .notADate
    else if isWeekday t then .ok (i, r)
    else
      match month? t with
      | some m => liftM (readMonth? ts i m r)
      | none =>
        match half? t with
        | some half =>
          match r.hour with
          | some h =>
            if h ≤ 12 then .ok (i, { r with hour := some (adjustHour h half) })
            else .error .notADate
          | none => .error .notADate
        | none =>
          if r.offset.isNone && namesZone r r.zone t then .ok (i, readZone ts i t r)
          else if r.hour.isSome && (t == "+" || t == "-") then liftM (readOffset? ts i t r)
          else if isJump t then .ok (i, r)
          else .error .notADate

/-- Read from a place on. Every step uses a token, so as many steps as tokens are enough. -/
def readFrom : Nat → Nat → Reading → Attempt Reading
  | 0, _, r => .ok r
  | fuel + 1, i, r =>
    match ts[i]? with
    | none => .ok r
    | some t => do
      let (j, r) ← step ts i t r
      readFrom fuel (j + 1) r

end

/-- The full year of a part: one of two digits lies in the hundred years that end in 2075. -/
def fullYear (year : Nat) (centuryGiven : Bool) : Nat :=
  if year < 100 ∧ !centuryGiven then (if year < 76 then 2000 + year else 1900 + year) else year

/-- The offset in microseconds. Universal time by name has offset zero; other names of zones tell
no offset. -/
def Reading.offsetMicros (r : Reading) : Option Int :=
  match r.zone with
  | some z => if isUniversal z then some 0 else r.offset.map (· * 1000000)
  | none => r.offset.map (· * 1000000)

def isSpan (micros : Int) : Bool := (micros.fdiv (86400 * 1000000)).natAbs ≤ 999999999

def read (cs : List Char) : Attempt DateTime := do
  let ts := tokens cs
  let r ← readFrom ts ts.length 0 {}
  let (year, month, day) ← r.parts.resolve?
  let t : DateTime := ⟨fullYear year r.parts.centuryGiven, month, day, r.hour.getD 0,
    r.minute.getD 0, r.second.getD 0, r.microsecond.getD 0, r.offsetMicros⟩
  if t.isValid && t.offset.all isSpan then .ok t else .error .notADate

end Listing.FreeForm
