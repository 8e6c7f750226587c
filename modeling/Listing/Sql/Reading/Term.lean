import Listing.Sql.Reading.Clause
set_option autoImplicit false

/-!
# Terms

A term is a clause from the view of one table: what it needs of other tables before it can find
rows of that one. A join has two terms, one for each side, and alternatives that all equal one
column with values are a list of values as well.
-/

namespace Listing.Sql.Reading

inductive Use where
  | equal
  | among
  | above
  | below
  | null
  | parts
deriving DecidableEq, Repr

structure Term where
  /-- The number of the clause. -/
  group : Nat
  /-- Zero for the clause itself, one for what is drawn from it, more for its alternatives. -/
  part : Nat
  field : Option Field
  affinity : Affinity
  use : Option Use
  /-- The tables that have to be read before. -/
  needs : List String
  /-- The tables that the clause depends on. -/
  tables : List String
  fields : List Field
  /-- The column that it equals. -/
  other : Option Field := none
  /-- Whether the two columns stand for each other. -/
  linked : Bool := false
  join : Option String := none
  isFlag : Bool := false
  count : Nat := 0
deriving Repr

namespace Term

def useOf (c : Clause) : Option Use :=
  match c.field, c.demand with
  | none, _ => none
  | some _, .compared .eq _ => some .equal
  | some _, .compared .ne _ => none
  | some _, .compared .gt _ => some .above
  | some _, .compared .ge _ => some .above
  | some _, .compared .lt _ => some .below
  | some _, .compared .le _ => some .below
  | some _, .among _ => some .among
  | some _, .null => some .null
  | some _, .present => none
  | some _, .joined _ _ _ => some .equal
  | some _, .other => none

def common (a b : Affinity) : Affinity := if a = .number || b = .number then .number else .none

def ofClause (group part : Nat) (c : Clause) : Term :=
  let own : Term := {
    group, part, field := c.field, affinity := c.affinity, use := useOf c, needs := []
    tables := c.tables ++ c.join.toList, fields := c.fields, join := c.join }
  match c.demand with
  | .compared _ isFlag => { own with isFlag }
  | .among count => { own with count }
  | .joined other affinity isKnown =>
    let needs := if isKnown then [] else [other.table]
    { own with
      affinity := common c.affinity affinity, needs, tables := own.tables ++ needs,
      other := some other
      linked := c.join.isNone && c.affinity == affinity && !isKnown }
  | _ => own

/-- The term for the other side of a join. It needs the tables before one that is joined from the
left. -/
def turned? (sources : List Source) (group : Nat) (c : Clause) : Option Term :=
  match c.demand, c.field with
  | .joined other _ false, some _ =>
    let own := ofClause group 1 c
    let before := match c.join with
      | some table => (sources.map Source.name).takeWhile (· != table)
      | none => []
    some { own with
      field := some other, needs := c.tables ++ before, other := c.field
      linked := own.linked && !c.tables.isEmpty }
  | _, _ => none

/-- Alternatives that equal one column with values are a list of values. -/
def listed? (group : Nat) (parts : List Term) : Option Term :=
  match parts with
  | p :: q :: rest =>
    if (p :: q :: rest).all fun t => t.use == some .equal && t.field == p.field then
      some { p with group, part := 1, use := some .among, count := (p :: q :: rest).length }
    else none
  | _ => none

def partsTable? (parts : List Term) : Option String :=
  match parts with
  | p :: _ =>
    if parts.all fun t => t.use.isSome && (t.field.map (·.table)) == p.field.map (·.table) then
      p.field.map (·.table)
    else none
  | [] => none

def ofParts (group : Nat) (parts : List Term) : Term :=
  { group, part := 0, field := none, affinity := .none, use := some .parts, needs := []
    tables := (parts.flatMap Term.tables).eraseDups, fields := parts.flatMap Term.fields }

end Term

structure Terms where
  /-- A term for each clause. -/
  own : List Term
  drawn : List Term
  /-- The alternatives of clauses that have several. -/
  parts : List (Nat × List Term)
deriving Repr

namespace Terms

def partsOf (ts : Terms) (group : Nat) : List Term :=
  (Entries.lookup? ts.parts group).getD []

def all (ts : Terms) : List Term := ts.own ++ ts.drawn

/-- The terms of clauses. What is drawn from the last one comes first. -/
def ofClauses (sources : List Source) (cs : Clauses) : Terms :=
  let groups := cs.groups ++ cs.joins.map ([·])
  let made := groups.mapIdx fun i group =>
    match group with
    | [] => (Term.ofClause i 0 .constant, none, [])
    | [c] => (Term.ofClause i 0 c, Term.turned? sources i c, [])
    | cs =>
      let parts := cs.mapIdx fun j c => Term.ofClause i (j + 2) c
      (Term.ofParts i parts, Term.listed? i parts, [(i, parts)])
  { own := made.map (·.1)
    drawn := made.reverse.filterMap (·.2.1)
    parts := made.flatMap (·.2.2) }

end Terms

/-- Columns that stand for each other as far as terms link them, in the order of being found. -/
def linkedFields (ts : List Term) : Nat → List Field → List Field → List Field
  | 0, seen, _ => seen
  | _, seen, [] => seen
  | fuel + 1, seen, f :: todo =>
    let found := (ts.filterMap fun t =>
      if t.linked && t.field == some f then t.other else none).eraseDups
    let fresh := found.filter (!seen.contains ·)
    linkedFields ts fuel (seen ++ fresh) (todo ++ fresh)

def termsOn (ts : List Term) (f : Field) (uses : List Use) : List Term :=
  (linkedFields ts (ts.length + 1) [f] [f]).flatMap fun g =>
    ts.filter fun t =>
      t.field == some g && (g == f || t.join.isNone) && t.use.any uses.contains &&
        !(t.use == some .equal && t.other == some f)

end Listing.Sql.Reading
