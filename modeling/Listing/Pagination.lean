import Listing.Paging
import Listing.Query
import Listing.Record
import Listing.Sql.Evaluate
set_option autoImplicit false

/-!
# Pagination

A page is taken in one of two ways. Either the rows are counted first, and the rows of the page
are read only if the page begins before the last row; or the total is read along with the rows,
and counted by itself only if the page has none. Offsets beyond 64 bits are left to the first way.
-/

namespace Listing

/-- An item of a page: a plain row of the model, or columns, relations and aggregates together. -/
inductive Item where
  | entity (columns : List (String × Value))
  | merged (fields : List (String × Datum))
deriving Repr

namespace Paging

def maxOffset : Int := Word64.greatest

/-- What is needed to take a page: the number of all rows; the rows of a page; and the rows of a
page with the number of all rows. -/
structure Source (α : Type) where
  count : Outcome Nat
  rows : Int → Int → Outcome (List α)
  counted : Int → Int → Outcome (List α × Nat)

def paginateCounting {α : Type} (s : Source α) (limit number : Int) : Outcome (Page α) := do
  let total ← s.count
  if (total : Int) ≤ offset limit number then page [] total limit number
  else page (← s.rows limit (offset limit number)) total limit number

def paginateAlong {α : Type} (s : Source α) (limit number : Int) : Outcome (Page α) := do
  let (data, total) ← s.counted limit (offset limit number)
  let total ← if data.isEmpty then s.count else .ok total
  page data total limit number

def paginate {α : Type} (s : Source α) (along : Bool) (limit number : Int) : Outcome (Page α) :=
  if along && offset limit number ≤ maxOffset then paginateAlong s limit number
  else paginateCounting s limit number

/-! ### Page sizes that are no integers

A page size may be a truth value or a floating point number. Page, size and offset are then cut to
integers where rows are read, and only there. -/

def isPast (offset : Quantity) (total : Int) : Bool :=
  (offset.compare? (.whole total)).any Ordering.isGE

def read {α : Type} (s : Source α) (along : Bool) (size : Quantity) (number : Int) :
    Outcome (List α × Int) := do
  let offset ← (Quantity.whole (number - 1)).mul size
  if along && (offset.compare? (.whole maxOffset)).any Ordering.isLE then
    let start ← offset.toInteger
    let (data, total) ← s.counted (← size.toInteger) start
    if data.isEmpty then .ok (data, ← s.count) else .ok (data, total)
  else
    let total ← s.count
    if isPast offset total then .ok ([], total)
    else
      let start ← offset.toInteger
      .ok (← s.rows (← size.toInteger) start, total)

end Paging

namespace Query

def relationTree (q : Query) : RelationTree :=
  .ofPaths (q.loaded.map RelationTree.steps)

/-- Values by the key that they have in a row of a result: of equal labels all but the first are
numbered. -/
def keyed : List String → List (String × Value) → List (String × Value)
  | _, [] => []
  | seen, (label, v) :: rest =>
    let n := seen.count label
    (if n = 0 then label else label ++ s!"_{n}", v) :: keyed (label :: seen) rest

/-- What stands beside the row of the model: the aggregates, and at the end the total if it was
counted along. -/
def beside (r : Sql.Result) (total : Option Nat) : List (String × Value) :=
  keyed [] (r.aggregates ++ total.toList.map fun n => (Sql.totalLabel, .int n))

def extras (r : Sql.Result) (total : Option Nat) : List (String × Value) :=
  (beside r total).filter (·.1 != Sql.totalLabel)

def totalIn (r : Sql.Result) (total : Nat) : Nat :=
  match (beside r (some total)).find? (·.1 == Sql.totalLabel) with
  | some (_, .int n) => n.toNat
  | _ => total

/-- The item of a result. It is a plain row unless relations or aggregates were asked for. -/
def item (db : Sql.Database) (q : Query) (total : Option Nat) (r : Sql.Result) : Outcome Item :=
  match r.row with
  | none => .error (.notIterable .null)
  | some row =>
    if (extras r total).isEmpty && q.loaded.isEmpty then
      .ok (.entity (Record.columns q.model.table row))
    else
      let record := Record.ofRow q.catalog db q.model row q.relationTree
      .ok (.merged ((extras r total).foldl
        (fun fields e => Entries.insert fields e.1 (.scalar e.2)) record))

def items (db : Sql.Database) (q : Query) (total : Option Nat) (rs : List Sql.Result) :
    Outcome (List Item) :=
  rs.mapM (q.item db total)

/-- The pages of a query on a database. The total that is counted along is read off the first row
of a page. -/
def source (db : Sql.Database) (q : Query) : Paging.Source Item :=
  { count := q.statement.count db
    rows := fun limit offset => do
      q.items db none (← q.statement.page db false limit offset).1
    counted := fun limit offset => do
      let (rs, total) ← q.statement.page db true limit offset
      .ok (← q.items db (some total) rs, (rs.head?.map (totalIn · total)).getD total) }

def paginate (db : Sql.Database) (q : Query) (along : Bool) (limit number : Int) :
    Outcome (Page Item) :=
  Paging.paginate (q.source db) along limit number

end Query
end Listing
