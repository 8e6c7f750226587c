import Listing.Sql.Reading.Sorted
set_option autoImplicit false

/-!
# Routes

A route is a way for each source, one inside the other. Routes are built table by table. Of those
that read the same tables the cheapest one is kept, apart for those whose order is still open, and
of all only a few. What a route costs is what its ways cost, and what it costs to bring its rows
into the wanted order.
-/

namespace Listing.Sql.Reading

structure Route where
  ways : List Way := []
  /-- The numbers of ways that are read backwards. -/
  back : List Nat := []
  out : Int := 0
  cost : Int := 0
  /-- The cost without bringing the rows into order. -/
  bare : Int := 0
  /-- How many wanted orders are met, unless that is still open. -/
  met : Option Nat := some 0
deriving Repr

namespace Route

def tables (r : Route) : List String := r.ways.map (·.table)

def sortCost (rows : Int) (wanted met : Nat) : Int :=
  rows + (Estimate.ofNat ((wanted - met) * 100 / wanted) - 66) + 16 + Estimate.depth rows

/-- The routes that are kept, and the place of the dearest one with its cost once there are as many
as can be. -/
structure Kept where
  routes : List Route := []
  worst : Nat := 0
  cost : Int := 0
  bare : Int := 0

def Kept.weighed (k : Kept) (limit : Nat) : Kept :=
  match k.routes with
  | [] => k
  | first :: _ =>
    if k.routes.length < limit then k
    else
      k.routes.zipIdx.foldl (fun k (r, i) =>
        if 0 < i && (k.cost < r.cost || (r.cost == k.cost && k.bare < r.bare)) then
          { k with worst := i, cost := r.cost, bare := r.bare }
        else k) { k with worst := 0, cost := first.cost, bare := first.out }

def beats (old new : Route) : Bool :=
  old.cost < new.cost || (old.cost == new.cost &&
    (old.out < new.out || (old.out == new.out && old.bare ≤ new.bare)))

def Kept.add (k : Kept) (limit : Nat) (r : Route) : Kept :=
  let same (old : Route) : Bool :=
    within old.tables r.tables && within r.tables old.tables && old.met.isSome == r.met.isSome
  match k.routes.zipIdx.find? fun (old, _) => same old with
  | some (old, i) =>
    if old.beats r then k else { k with routes := k.routes.set i r }.weighed limit
  | none =>
    if k.routes.length < limit then { k with routes := k.routes ++ [r] }.weighed limit
    else if k.cost < r.cost || (r.cost == k.cost && k.bare ≤ r.bare) then k
    else { k with routes := k.routes.set k.worst r }.weighed limit

structure Problem where
  sources : List Source
  terms : Terms
  wants : List Want
  /-- The number of rows to bring into order. -/
  rows : Int

/-- The route with one more way, unless a table is missing or an index would hardly be used. -/
def extend? (p : Problem) (r : Route) (w : Way) : Option Route :=
  if !within w.needs r.tables || r.tables.contains w.table || (w.access = .made && r.out < 3) then
    none
  else
    let bare := Estimate.together (Estimate.together w.setup (w.run + r.out)) r.bare
    let ways := r.ways ++ [w]
    let out := r.out + w.out
    let (met, back) := match r.met with
      | none => Want.metBy p.wants p.sources p.terms false ways
      | some n => (some n, r.back)
    match met with
    | some n =>
      if n < p.wants.length then
        let sorting := sortCost p.rows p.wants.length n
        some { ways, back, out, cost := Estimate.together bare sorting + 5, bare, met }
      else some { ways, back, out, cost := bare, bare := bare - 2, met }
    | none => some { ways, back, out, cost := bare, bare := bare - 2, met }

def step (p : Problem) (ways : List Way) (limit : Nat) (routes : List Route) : List Route :=
  ((routes.flatMap fun r => ways.filterMap (extend? p r)).foldl (Kept.add · limit ·) {}).routes

def cheapest? : List Route → Option Route
  | [] => none
  | r :: rest => some (rest.foldl (fun best r => if r.cost < best.cost then r else best) r)

def best? (p : Problem) (ways : List Way) : Option Route :=
  let n := p.sources.length
  let limit := if n ≤ 1 then 1 else if n = 2 then 5 else 10
  let start : Route := { met := if p.wants.isEmpty then some 0 else none }
  cheapest? (Nat.repeat (step p ways limit) n [start])

/-- A route that meets no wanted order may still read its last table in that order. -/
def turned (p : Problem) (r : Route) : Route :=
  match r.ways.getLast? with
  | some w =>
    if p.wants.isEmpty || 0 < r.met.getD 0 || w.isSingle ||
        (w.access = .number && w.hasUse .among) then r
    else
      match Want.metBy p.wants p.sources p.terms true r.ways with
      | (some n, back) => if n = p.wants.length then { r with back } else r
      | _ => r
  | none => r

/-- The route of a statement. How many rows there are to order is seen from the route that would be
taken if no order were wanted. -/
def choose? (sources : List Source) (terms : Terms) (wants : List Want) : Option Route := do
  let ways := Source.allWays sources (wants.filterMap (·.field)) terms
  let plain ← best? { sources, terms, wants := [], rows := 0 } ways
  if wants.isEmpty then some plain
  else
    let p : Problem := { sources, terms, wants, rows := plain.out + 1 }
    (best? p ways).map (turned p)

end Route
end Listing.Sql.Reading
