import Listing.Number.Extended
import Listing.Number.Numeral
import Listing.Number.Shortest
import Listing.Number.Word64
set_option autoImplicit false

/-!
# Texts of floating point numbers

How the database reads a floating point number from decimal digits and writes one with fifteen of
them. Both ways compute with significands of 64 bits, so that the last digit is not always the
nearest one.
-/

namespace Listing.Sql.RealText
open Listing.Text

/-- A significand that has reached this bound takes no more digits. -/
def full : Nat := 922337203685477579

def takeWhole : Nat → List Nat → Nat × Nat
  | s, [] => (s, 0)
  | s, d :: ds => if full ≤ 10 * s + d then (10 * s + d, ds.length) else takeWhole (10 * s + d) ds

def takeFraction : Nat → List Nat → Nat × Nat
  | s, [] => (s, 0)
  | s, d :: ds =>
    if full ≤ s then (s, 0)
    else
      let (s, n) := takeFraction (10 * s + d) ds
      (s, n + 1)

def exponentOf (ds : List Nat) : Nat :=
  ds.foldl (fun e d => if e < 10000 then 10 * e + d else 10000) 0

/-- Move powers of ten from the scale into the significand, as long as it stays an integer of 64
bits: the significand and the scale that is left. -/
def absorb (up : Bool) : Nat → Nat → Nat × Nat
  | 0, s => (s, 0)
  | e + 1, s =>
    if up then if 922337203685477580 ≤ s then (s, e + 1) else absorb up e (10 * s)
    else if s % 10 = 0 then absorb up e (s / 10) else (s, e + 1)

def rounded (negative : Bool) (x : Rat) : Binary64 :=
  .ofRat negative (if negative then -x else x)

def greatestPower : Nat := 308

def scaled (negative up : Bool) (s e : Nat) : Binary64 :=
  let (s, e) := absorb up e s
  let shifted (e : Nat) : Rat :=
    if up then Extended.mul s (Extended.powerOfTen e) else Extended.div s (Extended.powerOfTen e)
  if s = 0 then .finite negative 0 (-1074)
  else if e = 0 then rounded negative s
  else if e < greatestPower then rounded negative (shifted e)
  else if e < 342 then
    let x := rounded negative (shifted (e - greatestPower))
    let power := Binary64.ofQuotient false (Nat.pow 10 greatestPower) 1
    if up then x.mul power else (x.div? power).getD x
  else if up then .infinite negative
  else .finite negative 0 (-1074)

def ofDigits (negative : Bool) (whole fraction : List Nat) (negativeExponent : Bool)
    (exponent : List Nat) : Binary64 :=
  let (s, skipped) := takeWhole 0 whole
  let (s, taken) := takeFraction s fraction
  let e : Int := Numeral.signed negativeExponent (exponentOf exponent) + skipped - taken
  scaled negative (0 ≤ e) s e.natAbs

/-- Make a scale greater in steps until the number is less than one step of it. The exponent of ten
is counted along. -/
def scaleUp (x step : Rat) (size : Int) : Nat → Rat × Int → Rat × Int
  | 0, scale => scale
  | fuel + 1, (scale, e) =>
    if Extended.mul step scale ≤ x then
      scaleUp x step size fuel (Extended.mul scale step, e + size)
    else (scale, e)

def raise (bound step : Rat) (size : Int) : Nat → Rat × Int → Rat × Int
  | 0, x => x
  | fuel + 1, (x, e) =>
    if x < bound then raise bound step size fuel (Extended.mul x step, e - size) else (x, e)

def constant (n : Nat) (e : Int) : Rat := ((Numeral.ofScientific false n e).toRat?).getD 0

def halfUnit : Rat :=
  (((Numeral.ofScientific false 5 (-5)).mul (Numeral.ofScientific false 1 (-10))).toRat?).getD 0

/-- A positive number between one and ten, with half a unit of the fifteenth digit added, and the
exponent of ten. -/
def normalized (x : Rat) : Rat × Int :=
  let scale := scaleUp x (constant 1 100) 100 4 (1, 0)
  let scale := scaleUp x (constant 1 10) 10 11 scale
  let (scale, e) := scaleUp x 10 1 11 scale
  let small := raise (constant 1 (-8)) (constant 1 8) 8 50 (Extended.div x scale, e)
  let (x, e) := raise 1 10 1 9 small
  let x := Extended.add x halfUnit
  if 10 ≤ x then (Extended.mul x (constant 1 (-1)), e + 1) else (x, e)

def takeDigits : Nat → Rat → List Char
  | 0, _ => []
  | n + 1, x =>
    let d := x.floor.toNat
    Char.ofNat (0x30 + d) :: takeDigits n (Extended.mul (Extended.sub x d) 10)

/-- A positive number with fifteen significant digits, without trailing zeros, and always with a
point. -/
def positive (x : Rat) : List Char :=
  let (x, lead) := normalized x
  let ds := ((takeDigits 15 x).reverse.dropWhile (· == '0')).reverse
  if -4 ≤ lead ∧ lead < 15 then Binary64.positional ds lead
  else Binary64.scientific (if ds.length = 1 then ds ++ ['0'] else ds) lead

def write (x : Binary64) : String :=
  match x.toRat? with
  | some r =>
    if r = 0 then "0.0"
    else String.ofList (if r < 0 then '-' :: positive (-r) else positive r)
  | none => if x.isNegative then "-Inf" else "Inf"

end Listing.Sql.RealText
