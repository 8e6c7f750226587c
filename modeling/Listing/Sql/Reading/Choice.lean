import Listing.Sql.Reading.Way
set_option autoImplicit false

/-!
# Choices of ways

For every table the ways are kept that no rival beats. A rival beats a way if it needs no more
tables, costs no more and gives no more rows. A way along the key costs no more and gives fewer
rows than one that uses only some of its terms.
-/

namespace Listing.Sql.Reading

def within (a b : List String) : Bool := a.all b.contains

namespace Way

/-- Whether a way uses fewer terms than another and only such as it uses, and is better in some
respect. -/
def isPart (x y : Way) : Bool :=
  decide (x.terms.length < y.terms.length) && (x.run ≤ y.run || x.out ≤ y.out) &&
    x.terms.all (fun t => y.terms.any fun u => u.group == t.group && u.part == t.part) &&
    (!x.isCovered || y.isCovered)

/-- A way along the key in line with those that use some of its terms or more than these. -/
def aligned (ways : List Way) (w : Way) : Way :=
  if w.access = .key then
    ways.foldl (fun w p =>
      if p.table != w.table || p.access != .key then w
      else if p.isPart w then { w with run := min p.run w.run, out := min (p.out - 1) w.out }
      else if w.isPart p then { w with run := max p.run w.run, out := max (p.out + 1) w.out }
      else w) w
  else w

inductive Standing where
  | apart
  | better
  | beaten
deriving DecidableEq, Repr

def standing (p w : Way) : Standing :=
  if p.table != w.table || p.rank != w.rank then .apart
  else if p.access = .made && w.access = .key && w.hasUse .equal && within w.needs p.needs then
    .beaten
  else if within p.needs w.needs && p.setup ≤ w.setup && p.run ≤ w.run && p.out ≤ w.out then
    .better
  else if within w.needs p.needs && w.run ≤ p.run && w.out ≤ p.out then .beaten
  else .apart

/-- The ways without those that a new one beats, up to one that is better. -/
def cleared (w : Way) : List Way → List Way
  | [] => []
  | p :: ps =>
    match p.standing w with
    | .apart => p :: cleared w ps
    | .better => p :: ps
    | .beaten => cleared w ps

/-- The ways with a new one, at the place of the first one that it beats. -/
def placed (w : Way) : List Way → List Way
  | [] => [w]
  | p :: ps =>
    match p.standing w with
    | .apart => p :: placed w ps
    | .better => p :: ps
    | .beaten => w :: cleared w ps

def added (ways : List Way) (w : Way) : List Way := (w.aligned ways).placed ways

end Way

/-- What it takes to find the rows of alternatives. -/
structure Toll where
  needs : List String
  run : Int
  out : Int
deriving Repr

namespace Toll

def least? (tolls : List Toll) : Option Toll :=
  tolls.foldl (fun best t =>
    match best with
    | none => some t
    | some b => if t.run < b.run then some t else some b) none

def replaceFirst (test : Toll → Bool) (f : Toll → Toll) : List Toll → List Toll
  | [] => []
  | t :: ts => if test t then f t :: ts else t :: replaceFirst test f ts

/-- The tolls with a new one. Once there are three, it has to be cheaper than all. -/
def added (tolls : List Toll) (new : Toll) : List Toll :=
  let beats (t : Toll) : Bool := decide (new.run ≤ t.run) && within new.needs t.needs
  let isBeaten (t : Toll) : Bool := decide (t.run ≤ new.run) && within t.needs new.needs
  let joined (t : Toll) : Toll := { new with out := min t.out new.out }
  match tolls.find? fun t => beats t || isBeaten t with
  | some t => if beats t then replaceFirst (fun t => beats t) joined tolls else tolls
  | none =>
    if tolls.length < 3 then tolls ++ [new]
    else
      match least? tolls with
      | some t =>
        if t.run ≤ new.run then tolls else replaceFirst (fun u => u.run == t.run) joined tolls
      | none => tolls

def crossed (xs ys : List Toll) : List Toll :=
  (xs.flatMap fun x => ys.map fun y =>
    { needs := (x.needs ++ y.needs).eraseDups, run := Estimate.together x.run y.run
      out := Estimate.together x.out y.out : Toll }).foldl added []

end Toll

namespace Source

def partWays (s : Source) (wanted : List Field) (before : List String) (ts : Terms)
    (ways : List Way) : List Way :=
  ts.own.flatMap fun t =>
    let parts := ts.partsOf t.group
    if t.use == some .parts && Term.partsTable? parts == some s.name then
      let tolls := parts.map fun p =>
        ((s.plainWays wanted before [p] (p :: ts.all) ts.all).filter (!·.terms.isEmpty)).foldl
          (fun tolls w =>
            let w := w.aligned ways
            Toll.added tolls { needs := w.needs, run := w.run, out := w.out }) []
      let total := match tolls with
        | [] => []
        | first :: rest =>
          if tolls.any (·.isEmpty) then [] else rest.foldl Toll.crossed first
      total.map fun toll =>
        { table := s.name, access := .parts, needs := toll.needs, terms := [t]
          run := toll.run + 1, out := toll.out }
    else []

/-- The ways to read a table beside those of the tables before it. The rank of an index that is made
is left over from them. -/
def addWays (wanted : List Field) (ts : Terms) (before : List String) (s : Source)
    (ways : List Way) (rank : Nat) : List Way × Nat :=
  let plain := s.plainWays wanted before ts.own ts.all ts.all
  let ways := (s.madeWays rank before ts.all ++ plain).foldl Way.added ways
  let parts := s.partWays wanted before ts ways
  let hasParts := ts.own.any fun t =>
    t.use == some .parts && Term.partsTable? (ts.partsOf t.group) == some s.name
  let rank := if hasParts then 0 else ((plain.getLast?).map (·.rank)).getD 0
  (parts.foldl Way.added ways, rank)

/-- The tables that have to be read before each source: all others before one that is joined from
the left, and before that one's successors of the same kind. -/
def befores : List Source → List String → List String → List (Source × List String)
  | [], _, _ => []
  | s :: rest, prior, needed =>
    let needed := if s.outer then (needed ++ prior).eraseDups else []
    (s, needed) :: befores rest (prior ++ [s.name]) needed

def allWays (sources : List Source) (wanted : List Field) (ts : Terms) : List Way :=
  ((befores sources [] []).foldl (fun (ways, rank) (s, before) =>
    addWays wanted ts before s ways rank) ([], 0)).1

end Source
end Listing.Sql.Reading
