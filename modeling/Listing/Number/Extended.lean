import Listing.Number.Binary64
set_option autoImplicit false

/-!
# Arithmetic with significands of 64 bits

Numbers are rationals, and every operation rounds its exact result to the nearest one with a
significand of 64 bits, ties to even. Exponents have no bounds.
-/

namespace Listing.Extended

/-- The number with a significand of 64 bits nearest to a rational. -/
def round (x : Rat) : Rat :=
  if x = 0 then 0
  else
    let e := Binary64.floorLog2 x.num.natAbs x.den - 63
    let m := Binary64.scaledRound x.num.natAbs x.den e
    let a : Rat := if 0 ≤ e then (m <<< e.toNat : Nat) else mkRat m (1 <<< (-e).toNat)
    if x < 0 then -a else a

def add (x y : Rat) : Rat := round (x + y)
def sub (x y : Rat) : Rat := round (x - y)
def mul (x y : Rat) : Rat := round (x * y)
def div (x y : Rat) : Rat := round (x / y)

def timesPower (r x : Rat) (e : Nat) : Rat :=
  if e = 0 then r
  else
    let r := if e % 2 = 1 then mul r x else r
    if e < 2 then r else timesPower r (mul x x) (e / 2)
termination_by e

def powerOfTen (e : Nat) : Rat := timesPower 1 10 e

end Listing.Extended
