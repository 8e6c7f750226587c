import Listing.Sql.Reading
import Listing.Sql.Summary
set_option autoImplicit false

/-!
# Evaluation

A statement is evaluated on a database in this order: bound values are converted, names are looked
up, and values become cells; each of these may fail, whether there are rows or not. Then the rows
of the base table are joined, selected and ordered. Rows that an order does not tell apart stand in
the order in which they are read.
-/

namespace Listing.Sql

abbrev Binding := List (String × Row)

namespace Binding

def row (b : Binding) (table : String) : Row := (Entries.lookup? b table).getD []

def cell (b : Binding) (table column : String) : Cell := (b.row table).cell column

end Binding

structure FoundJoin where
  table : String
  left : Target
  right : Target
deriving Repr

def fieldCell (b : Binding) : Target → Cell
  | .field table name _ => b.cell table name
  | .constant text => .text text
  | _ => .null

/-- A binding beside each row of a table that meets it, or beside an empty row. -/
def leftJoin (db : Database) (j : FoundJoin) (b : Binding) : List Binding :=
  let beside (r : Row) : Binding := b ++ [(j.table, r)]
  let meets (b : Binding) : Bool :=
    Cell.compare? j.left.affinity j.right.affinity (fieldCell b j.left) (fieldCell b j.right) ==
      some .eq
  match ((db.rows j.table).map beside).filter meets with
  | [] => [beside (db.emptyRow j.table)]
  | met => met

def bindings (db : Database) (base : String) (rows : List Row) (joins : List FoundJoin)
    (extra : List String) : List Binding :=
  let start := rows.map fun r => [(base, r)]
  let joined := joins.foldl (fun bs j => bs.flatMap (leftJoin db j)) start
  extra.foldl (fun bs t => bs.flatMap fun b => (db.rows t).map fun r => b ++ [(t, r)]) joined

namespace Aggregate

/-- Whether the aggregate is over the base table itself. It then sees the base row alone. -/
def isOwn (base : Table) (a : Aggregate) : Bool := a.target.name == base.name

/-- Whether the aggregate runs over all rows of the statement, which become one. -/
def collapses (base : Table) (a : Aggregate) : Bool := a.isOwn base && a.kind != .count

def meetsItself (a : Aggregate) (r : Row) : Bool :=
  a.pairs.all fun (own, other) =>
    r.cell own != .null && (r.cell own).order (r.cell other) == .eq

def rowsFor (db : Database) (base : Table) (a : Aggregate) (r : Row) : List Row :=
  if a.isOwn base then (if a.meetsItself r then [r] else [])
  else db.matching a.target.name (a.pairs.map fun (own, other) => (other, r.cell own))

def cellsOf (a : Aggregate) (rows : List Row) : List Cell :=
  match a.column with
  | none => rows.map fun _ => .int 1
  | some (name, _) => rows.map (·.cell name)

/-- The aggregate for a row of the base table; none when a sum leaves its range. -/
def cellFor? (db : Database) (base : Table) (a : Aggregate) (r : Row) : Option Cell :=
  Summary.of? a.kind (a.cellsOf (a.rowsFor db base r))

def type? (a : Aggregate) : Option ColumnType :=
  match a.kind with
  | .count => none
  | .avg => none
  | _ => a.column.map (·.2)

/-- The value of an aggregate. A moment cannot be read from a number. -/
def toValue (a : Aggregate) (c : Cell) : Outcome Value :=
  match a.type?, c with
  | none, c => .ok c.plain
  | some .datetime, .int _ => .error .momentNotText
  | some .datetime, .real _ => .error .momentNotText
  | some type, c => .ok (c.toValue type)

end Aggregate

structure Fetched where
  row : Option Row
  cells : List (Aggregate × Cell)
deriving Repr

structure Result where
  row : Option Row
  aggregates : List (String × Value)
deriving Repr

def Fetched.result (f : Fetched) : Outcome Result := do
  let aggregates ← f.cells.mapM fun (a, c) => do .ok (a.label, ← a.toValue c)
  .ok { row := f.row, aggregates }

/-- A statement whose values are converted and whose tables and names have been found, those of its
orders apart. -/
structure Resolved where
  base : Table
  joined : List Table
  extra : List Table
  joins : List FoundJoin
  groups : List (List (Condition × Target))
deriving Repr

structure Prepared where
  joins : List FoundJoin
  extra : List String
  groups : List (List Test)
  orders : List (Target × SortOrder × Option NullsPosition)
  readings : List Reading
deriving Repr

namespace Resolved

def tables (r : Resolved) : List Table := r.base :: r.joined ++ r.extra

def tests (r : Resolved) : Outcome (List (List Test)) :=
  r.groups.mapM (·.mapM fun (c, t) => Test.ofCondition t c)

def clauses (r : Resolved) : Reading.Clauses where
  groups := r.groups.map (·.map fun (c, t) => .ofCondition r.base.name t c)
  joins := r.joins.map fun j => .ofJoin j.table j.left j.right

end Resolved

namespace Statement

def collapses (s : Statement) : Bool := s.aggregates.any (·.collapses s.base)

def scope (s : Statement) (tables : List Table) : Scope :=
  { tables, labels := s.aggregates.map (·.label) }

def foundJoins (s : Statement) (scope : Scope) (joined : List Table) : Outcome (List FoundJoin) :=
  (s.joins.zip joined).mapM fun (j, t) => do
    let left ← scope.qualified s.base.name j.foreignKey
    let right ← scope.qualified t.name (Scope.spoken j.relatedKey)
    .ok { table := t.name, left, right }

def resolve (db : Database) (s : Statement) : Outcome Resolved := do
  let groups ← s.groups.mapM (·.mapM Bind.converted)
  let base ← Scope.table db s.base.name
  let joined ← s.joins.mapM fun j => Scope.table db j.table
  let extra ← s.extraTables.mapM (Scope.table db)
  let scope := s.scope (base :: joined ++ extra)
  let _ ← s.base.columns.mapM fun c => scope.qualified s.base.name c.1
  let joins ← s.foundJoins scope joined
  let groups ← groups.mapM (·.mapM fun c => do .ok (c, ← scope.column c.column))
  .ok { base, joined, extra, joins, groups }

def foundOrders (s : Statement) (tables : List Table) (counted : Bool) :
    Outcome (List (Target × SortOrder × Option NullsPosition)) :=
  s.orders.mapM fun o => do
    .ok (← { s.scope tables with counted }.orderColumn o.column, o.order, o.nulls)

/-- The orders that a route may serve. Rows that become one have none. -/
def wants (s : Statement) (base : String)
    (orders : List (Target × SortOrder × Option NullsPosition)) : List Reading.Want :=
  if s.collapses then []
  else orders.map fun (t, order, nulls) => Reading.wantOf base t order nulls

/-- Make a statement ready: convert values, look up names, make cells. The limits of a page are
bound last. A total cannot be counted along with rows that become one. -/
def prepare (db : Database) (s : Statement) (counted : Bool) (limits : List Int) :
    Outcome Prepared := do
  let r ← s.resolve db
  let orders ← s.foundOrders r.tables counted
  if counted && s.collapses then Scope.fault
  let tests ← r.tests
  let _ ← limits.mapM fun n => Bind.cell (.int n)
  let readings := Reading.choose r.base r.joined r.extra r.clauses (s.wants r.base.name orders)
    counted tests
  .ok { joins := r.joins, extra := r.extra.map (·.name), groups := tests, orders, readings }

def targetCell (db : Database) (s : Statement) (b : Binding) (t : Target) : Cell :=
  match t with
  | .aggregate label =>
    ((s.aggregates.find? (·.label == label)).bind fun a =>
      a.cellFor? db s.base (b.row s.base.name)).getD .null
  | t => fieldCell b t

def candidates (db : Database) (s : Statement) (p : Prepared) : List Binding :=
  bindings db s.base.name (db.rows s.base.name) p.joins p.extra

def checkPatterns (db : Database) (s : Statement) (p : Prepared) : Outcome Unit :=
  if (s.candidates db p).any fun b => Test.fails (s.targetCell db b) p.groups then Scope.fault
  else .ok ()

def selected (db : Database) (s : Statement) (p : Prepared) : List Binding :=
  (s.candidates db p).filter fun b => Test.allHold (s.targetCell db b) p.groups

def readBindings (readings : List Reading) (a b : Binding) : Ordering :=
  readings.foldr (fun r o => (r.order (a.row r.table) (b.row r.table)).then o) .eq

def read (db : Database) (s : Statement) (p : Prepared) : List Binding :=
  (s.selected db p).mergeSort fun a b => (readBindings p.readings a b).isLE

def orderCells (order : SortOrder) (nulls : Option NullsPosition) (x y : Cell) : Ordering :=
  let nullsFirst : Bool := match nulls with
    | some .first => true
    | some .last => false
    | none => order == .asc
  match x, y with
  | .null, .null => .eq
  | .null, _ => if nullsFirst then .lt else .gt
  | _, .null => if nullsFirst then .gt else .lt
  | x, y => if order = .asc then x.order y else y.order x

def orderBindings (cell : Binding → Target → Cell)
    (orders : List (Target × SortOrder × Option NullsPosition)) (a b : Binding) : Ordering :=
  match orders with
  | [] => .eq
  | (t, order, nulls) :: rest =>
    (orderCells order nulls (cell a t) (cell b t)).then (orderBindings cell rest a b)

def ordered (db : Database) (s : Statement) (p : Prepared) : List Binding :=
  (s.read db p).mergeSort fun a b => (orderBindings (s.targetCell db) p.orders a b).isLE

def fetched (db : Database) (s : Statement) (b : Binding) : Outcome Fetched := do
  let row := b.row s.base.name
  let cells ← s.aggregates.mapM fun a =>
    match a.cellFor? db s.base row with
    | some c => .ok (a, c)
    | none => Scope.fault
  .ok { row := some row, cells }

/-! ### Statements that collapse

An aggregate over the base table that is no count runs over all selected rows at once, so that one
row is left of them. It is the first one, or the one where the last least or greatest value is
found. -/

/-- The row in which a least or greatest value is found; the last row when there is no value. -/
def extremal? (precedes : Cell → Cell → Bool) (column : String) (rows : List Row) : Option Row :=
  rows.foldl (fun best r =>
    match best with
    | none => some r
    | some b =>
      if b.cell column = .null then some r
      else if r.cell column != .null && precedes (r.cell column) (b.cell column) then some r
      else some b) none

def remaining? (s : Statement) (rows : List Row) : Option Row :=
  let extremes := s.aggregates.filter fun a =>
    a.collapses s.base && (a.kind == .min || a.kind == .max)
  match extremes.getLast? with
  | some { kind := .min, column := some (name, _), .. } =>
    extremal? (fun a b => (a.order b).isLT) name rows
  | some { kind := .max, column := some (name, _), .. } =>
    extremal? (fun a b => (a.order b).isGT) name rows
  | _ => rows.head?

def collapsed (db : Database) (s : Statement) (rows : List Row) : Outcome Fetched := do
  let row := s.remaining? rows
  let own := row.getD []
  let cells ← s.aggregates.mapM fun a =>
    let cell := if a.collapses s.base then
        (Summary.of? a.kind (a.cellsOf rows)).map fun c => if a.meetsItself own then c else .null
      else a.cellFor? db s.base own
    match cell with
    | some c => .ok (a, c)
    | none => Scope.fault
  .ok { row, cells }

def total (db : Database) (s : Statement) (p : Prepared) : Nat :=
  if s.collapses then 1 else (s.selected db p).length

def count (db : Database) (s : Statement) : Outcome Nat := do
  let p ← prepare db { s with orders := [] } false []
  s.checkPatterns db p
  .ok (s.total db p)

/-- Part of a list: a negative limit is none, and a negative offset is zero. -/
def slice {α : Type} (limit offset : Int) (xs : List α) : List α :=
  let rest := xs.drop offset.toNat
  if limit < 0 then rest else rest.take limit.toNat

def fetchedPart (db : Database) (s : Statement) (p : Prepared) (limit offset : Int) :
    Outcome (List Fetched) :=
  if s.collapses then do
    .ok (slice limit offset [← s.collapsed db ((s.read db p).map (·.row s.base.name))])
  else (slice limit offset (s.ordered db p)).mapM (s.fetched db)

/-- The rows of one page, and the number of all rows. All of them are read before the first value
is made. -/
def page (db : Database) (s : Statement) (counted : Bool) (limit offset : Int) :
    Outcome (List Result × Nat) := do
  let p ← s.prepare db counted [limit, offset]
  s.checkPatterns db p
  let fetched ← s.fetchedPart db p limit offset
  .ok (← fetched.mapM Fetched.result, s.total db p)

end Statement
end Listing.Sql
