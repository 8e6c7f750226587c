import Listing.Sql.Bind
import Listing.Sql.Like
import Listing.Sql.Scope
set_option autoImplicit false

namespace Listing.Sql

abbrev Truth := Option Bool

namespace Truth

/-- True if one of them is, else unknown if one of them is. -/
def anyOf (ts : List Truth) : Truth :=
  if ts.contains (some true) then some true else if ts.contains none then none else some false

end Truth

inductive Test where
  | compare (op : Comparison) (target : Target) (operand : Cell)
  | null (negated : Bool) (target : Target)
  | like (target : Target) (pattern : String)
  | within (target : Target) (operands : List Cell)
deriving Repr

def Comparison.holds (op : Comparison) (o : Ordering) : Bool :=
  match op with
  | eq => o.isEq
  | ne => o.isNe
  | gt => o.isGT
  | ge => o.isGE
  | lt => o.isLT
  | le => o.isLE

def Target.affinity : Target → Affinity
  | field _ _ type => affinityOf type
  | _ => .none

namespace Test

def target : Test → Target
  | compare _ t _ => t
  | null _ t => t
  | like t _ => t
  | within t _ => t

def ofCondition (t : Target) (c : Condition) : Outcome Test :=
  match c with
  | .compare op _ v => compare op t <$> Bind.cell v
  | .null negated _ => .ok (null negated t)
  | .flag negated _ b => .ok (compare (if negated then .ne else .eq) t (.int b.toNat))
  | .like _ pattern => .ok (like t pattern)
  | .contains _ _ pattern => .ok (like t pattern)
  | .within _ vs => within t <$> vs.mapM Bind.cell

def eval (cell : Target → Cell) (test : Test) : Truth :=
  match test with
  | compare op t x => (Cell.compare? t.affinity .none (cell t) x).map op.holds
  | null negated t => some ((cell t == .null) != negated)
  | like t pattern => (cell t).text?.map (Like.isMatch pattern)
  | within t xs =>
    Truth.anyOf (xs.map fun x => (Cell.compare? t.affinity .none (cell t) x).map Ordering.isEq)

def isTooLong : Test → Bool
  | like _ pattern => 50000 < pattern.utf8ByteSize
  | _ => false

/-- Whether a pattern that is too long is reached. Groups, and the tests in a group, are looked at
one after the other until one is settled. -/
def fails (cell : Target → Cell) : List (List Test) → Bool
  | [] => false
  | tests :: groups =>
    match tests.find? fun t => t.isTooLong || eval cell t == some true with
    | some t => t.isTooLong || fails cell groups
    | none => false

def allHold (cell : Target → Cell) (groups : List (List Test)) : Bool :=
  groups.all fun tests => Truth.anyOf (tests.map (eval cell)) == some true

end Test
end Listing.Sql
