set_option autoImplicit false

/-!
# Estimates

Numbers of rows and costs are estimated by their binary logarithms, in tenths. The product of two
amounts is the sum of their estimates. For a sum of amounts the larger one counts, and a gain that
falls with the distance of the two.
-/

namespace Listing.Sql.Estimate

/-- Tenths that the three digits after the leading one add to a logarithm. -/
def fraction : Nat → Int
  | 0 => 0
  | 1 => 2
  | 2 => 3
  | 3 => 5
  | 4 => 6
  | 5 => 7
  | 6 => 8
  | _ => 9

def ofNat (n : Nat) : Int :=
  if n < 2 then 0
  else 10 * (n.log2 : Int) + fraction (8 * n / Nat.pow 2 n.log2 - 8)

/-- What a second amount adds to the larger one, by the distance of their estimates. -/
def gain (distance : Nat) : Int :=
  if distance < 2 then 10
  else if distance < 4 then 9
  else if distance < 6 then 8
  else if distance < 9 then 7
  else if distance < 12 then 6
  else if distance < 15 then 5
  else if distance < 19 then 4
  else if distance < 25 then 3
  else if distance < 32 then 2
  else if distance < 50 then 1
  else 0

def together (a b : Int) : Int := max a b + gain (a - b).natAbs

/-- The estimate of the depth of a tree with as many rows as estimated. -/
def depth (rows : Int) : Int := if rows ≤ 10 then 0 else ofNat rows.toNat - 33

end Listing.Sql.Estimate
