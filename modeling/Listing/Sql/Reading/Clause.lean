import Listing.Sql.Reading.Source
set_option autoImplicit false

/-!
# Clauses

A clause is what a condition tells about the rows that can meet it: which column it is about, and
how that column is bound. A statement has groups of clauses, which are alternatives, and a clause
for each join. Two rules make them say more. A table that is joined from the left may as well be
joined from both sides where a clause fails on an empty row. And a column that one clause equals
with a value is as good as that value in all others.
-/

namespace Listing.Sql.Reading

inductive Demand where
  /-- It is compared with a value, which may stand in the text as a truth value. -/
  | compared (op : Comparison) (isFlag : Bool)
  | among (count : Nat)
  | null
  | present
  /-- It equals a column of another table, which may be known. -/
  | joined (other : Field) (affinity : Affinity) (known : Bool)
  | other
deriving DecidableEq, Repr

structure Clause where
  /-- The column that stands alone on the left side. -/
  field : Option Field
  affinity : Affinity
  /-- The tables that the left side depends on. None are left for a known column. -/
  tables : List String
  demand : Demand
  /-- The table that the clause joins from the left. -/
  join : Option String := none
deriving Repr

namespace Clause

def constant : Clause := { field := none, affinity := .none, tables := [], demand := .other }

def ofCondition (base : String) (t : Target) (c : Condition) : Clause :=
  let demand : Demand := match c with
    | .compare op _ _ => .compared op false
    | .flag negated _ _ => .compared (if negated then .ne else .eq) true
    | .null negated _ => if negated then .present else .null
    | .like _ _ => .other
    | .contains _ _ _ => .other
    | .within _ vs => if vs.length = 1 then .compared .eq false else .among vs.length
  match t with
  | .field table column type =>
    { field := some ⟨table, column⟩, affinity := affinityOf type, tables := [table], demand }
  | .aggregate _ => { constant with tables := [base], demand }
  | _ => { constant with demand }

def ofJoin (table : String) (left right : Target) : Clause :=
  match left, right with
  | .field base own ownType, .field other column type =>
    { field := some ⟨base, own⟩, affinity := affinityOf ownType, tables := [base],
      demand := .joined ⟨other, column⟩ (affinityOf type) false, join := some table }
  | _, _ => { constant with join := some table }

def fields (c : Clause) : List Field :=
  match c.demand with
  | .joined other _ _ => c.field.toList ++ [other]
  | _ => c.field.toList

/-- Whether a clause fails on an empty row of a table. Only the first of all clauses is looked at
for being present. -/
def rejectsEmpty (table : String) (isFirst : Bool) (c : Clause) : Bool :=
  c.join.isNone && (c.field.map (·.table)) == some table &&
    match c.demand with
    | .compared _ _ => true
    | .present => isFirst
    | _ => false

/-- A clause about whether a column is null says nothing if it never is. -/
def settled (sources : List Source) (c : Clause) : Clause :=
  match c.field, c.demand with
  | some f, .null => if isSettled f then constant else c
  | some f, .present => if isSettled f then constant else c
  | _, _ => c
where
  isSettled (f : Field) : Bool :=
    sources.any fun s => s.name == f.table && !s.outer && s.isNeverNull f.column

def equated? (c : Clause) : Option Field :=
  match c.demand with
  | .compared .eq _ => if c.join.isNone then c.field else none
  | _ => none

def knowing (known : Field → Bool) (c : Clause) : Clause :=
  if c.join.isSome then c
  else
    let tables := if c.field.any known then [] else c.tables
    match c.demand with
    | .joined other affinity _ => { c with tables, demand := .joined other affinity (known other) }
    | _ => { c with tables }

end Clause

structure Clauses where
  groups : List (List Clause)
  joins : List Clause
deriving Repr

namespace Clauses

def rejectEmpty (cs : Clauses) (table : String) : Bool :=
  cs.groups.mapIdx (fun i group =>
    match group with
    | [c] => c.rejectsEmpty table (i == 0)
    | _ => false) |>.contains true

/-- Sources that no row can be without are joined from both sides. -/
def tightenSources (cs : Clauses) (sources : List Source) : List Source :=
  sources.map fun s => { s with outer := s.outer && !cs.rejectEmpty s.name }

/-- The clauses, where joins from the left are those of the sources. -/
def tightened (cs : Clauses) (sources : List Source) : Clauses :=
  { cs with joins := cs.joins.map fun c =>
      if sources.any fun s => c.join == some s.name && s.outer then c
      else { c with join := none } }

def settled (cs : Clauses) (sources : List Source) : Clauses :=
  { cs with groups := cs.groups.map (·.map (Clause.settled sources)) }

/-- Columns that a group alone equals with a value, each with the number of the last such group. -/
def equated (cs : Clauses) : List (Field × Nat) :=
  (cs.groups.mapIdx fun i group =>
    match group with
    | [c] => (c.equated?.map fun f => (f, i)).toList
    | _ => []).flatten.reverse

/-- The clauses with known columns. The clause that makes a column known stays as it is. -/
def known (cs : Clauses) : Clauses :=
  if cs.groups.length + cs.joins.length < 2 then cs
  else
    let source (f : Field) : Option Nat := Entries.lookup? cs.equated f
    { groups := cs.groups.mapIdx fun i group =>
        group.map (Clause.knowing fun f => (source f).any (group.length != 1 || · != i))
      joins := cs.joins.map (Clause.knowing fun f => (source f).isSome) }

end Clauses
end Listing.Sql.Reading
