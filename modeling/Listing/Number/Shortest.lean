import Listing.Number.Numeral
set_option autoImplicit false

/-!
# Shortest decimal text of a number

The text of a number has the fewest significant digits that read back as the number, and among
those the nearest. The point is written out when the first digit stands between the fourth place
after the point and the sixteenth before it; otherwise the number has an exponent of at least two
digits.
-/

namespace Listing.Binary64
open Listing.Text

/-- The exponent `k` with `10 ^ k ≤ x < 10 ^ (k + 1)`, searched downward from a bound. -/
def decimalExponent (x : Rat) : Nat → Int → Int
  | 0, k => k
  | fuel + 1, k => if (10 : Rat) ^ k ≤ x then k else decimalExponent x fuel (k - 1)

def readsBack (a : Binary64) (d : Nat × Int) : Bool := Numeral.ofScientific false d.1 d.2 == a

/-- Of the two neighbours of `x` on the grid of multiples of `10 ^ scale`, those that read back
as `a`, the nearer first; of two equally near the even one. -/
def candidates (a : Binary64) (x : Rat) (scale : Int) : List (Nat × Int) :=
  let y := x / (10 : Rat) ^ scale
  let n := y.floor.toNat
  let rest := y - (n : Rat)
  let lowerFirst := if rest = 1 / 2 then n % 2 = 0 else rest < 1 / 2
  let pair := if lowerFirst then [n, n + 1] else [n + 1, n]
  (pair.map (·, scale)).filter (readsBack a)

def shortestFrom (a : Binary64) (x : Rat) (exponent : Int) : Nat → Nat → Nat × Int
  | 0, _ => (0, 0)
  | fuel + 1, size =>
    match candidates a x (exponent + 1 - size) with
    | d :: _ => d
    | [] => shortestFrom a x exponent fuel (size + 1)

def stripZeros : Nat → Nat → Int → Nat × Int
  | 0, n, e => (n, e)
  | fuel + 1, n, e => if n ≠ 0 ∧ n % 10 = 0 then stripZeros fuel (n / 10) (e + 1) else (n, e)

def shortest (m : Nat) (e : Int) : Nat × Int :=
  let a := finite false m e
  let x := a.toRat?.getD 0
  let (n, k) := shortestFrom a x (decimalExponent x 700 309) 17 1
  stripZeros 20 n k

/-- Digits with a point so that the first digit has the weight `10 ^ lead`. -/
def positional (ds : List Char) (lead : Int) : List Char :=
  if lead < 0 then '0' :: '.' :: List.replicate (-lead - 1).toNat '0' ++ ds
  else
    let whole := lead.toNat + 1
    let fraction := ds.drop whole
    ds.take whole ++ List.replicate (whole - ds.length) '0' ++
      '.' :: (if fraction.isEmpty then ['0'] else fraction)

def scientific (ds : List Char) (lead : Int) : List Char :=
  let fraction := ds.drop 1
  ds.take 1 ++ (if fraction.isEmpty then [] else '.' :: fraction) ++
    'e' :: (if lead < 0 then '-' else '+') :: padded 2 lead.natAbs

def text : Binary64 → String
  | nan => "nan"
  | infinite s => if s then "-inf" else "inf"
  | finite s m e =>
    let body :=
      if m = 0 then ['0', '.', '0']
      else
        let (n, k) := shortest m e
        let ds := digits n
        let lead := k + ds.length - 1
        if -4 ≤ lead ∧ lead < 16 then positional ds lead else scientific ds lead
    String.ofList (if s then '-' :: body else body)

end Listing.Binary64
