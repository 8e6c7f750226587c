import Listing.Sql.Cell
import Listing.Words
set_option autoImplicit false

/-!
# Summaries

The aggregates of a row of cells. Cells that hold nothing do not count; over none the number of
rows is zero and every other aggregate is nothing. A sum of integers is an exact integer and must
fit into 64 bits at every step, any other sum is a floating point number, and so is every average.
-/

namespace Listing.Sql.Summary

def toReal (c : Cell) : Binary64 :=
  let n := match c with
    | .text s => (Cell.numberOfText? s).getD (Cell.leadingNumber s)
    | c => c
  match n with
  | .int n => .ofInt n
  | .real x => x
  | _ => .ofInt 0

def integerSum? (ns : List Int) : Option Int :=
  ns.foldl (fun sum n => sum.bind fun m =>
    if Word64.holds (m + n) then some (m + n) else none) (some 0)

def realSum (cs : List Cell) : Binary64 := cs.foldl (fun x c => x.add (toReal c)) (.ofInt 0)

def ofReal (x : Binary64) : Cell := if x.isNan then .null else .real x

/-- A text that is an integer counts as one. -/
def integerOf? : Cell → Option Int
  | .int n => some n
  | .text s =>
    match Cell.numberOfText? s with
    | some (.int n) => some n
    | _ => none
  | _ => none

/-- The sum of cells that hold something; none when it leaves its range. -/
def sum? (cs : List Cell) : Option Cell :=
  match cs.mapM integerOf? with
  | some ns => (integerSum? ns).map .int
  | none => some (ofReal (realSum cs))

def average (cs : List Cell) : Cell :=
  (((realSum cs).div? (.ofInt cs.length)).map ofReal).getD .null

def least (precedes : Cell → Cell → Bool) : List Cell → Cell
  | [] => .null
  | c :: cs => cs.foldl (fun best c => if precedes c best then c else best) c

def of? (kind : AggregateKind) (cs : List Cell) : Option Cell :=
  let present := cs.filter (· != .null)
  match kind with
  | .count => some (.int cs.length)
  | .min => some (least (fun a b => (a.order b).isLT) present)
  | .max => some (least (fun a b => (a.order b).isGT) present)
  | kind =>
    if present.isEmpty then some .null
    else if kind = .avg then some (average present)
    else sum? present

theorem of?_count (cs : List Cell) : of? .count cs = some (.int cs.length) := rfl

end Listing.Sql.Summary
