import Listing.Catalog
import Listing.Sql.Cell
set_option autoImplicit false

namespace Listing.Sql

abbrev Row := List (String × Cell)

def Row.cell (r : Row) (column : String) : Cell :=
  (Entries.lookup? r column).getD .null

/-- The column with the number of a row: the key if it is a single column, else a column that is in
no selection. -/
def Database.rowNumberColumn (t : Table) : String :=
  match t.key with
  | [column] => column
  | _ => "rowid"

structure Database where
  tables : List (Table × List Row)
deriving Repr

namespace Database

def rowOf (t : Table) (values : List Value) : Row :=
  (t.columns.zip values).map fun (column, v) => (column.1, Cell.ofValue column.2 v)

/-- Rows with their numbers, counted from one as they were put in. A row with a single key column
has its number there. -/
def numbered (t : Table) (rows : List Row) : List Row :=
  if t.key.length = 1 then rows
  else rows.mapIdx fun i r => r ++ [(rowNumberColumn t, .int (i + 1))]

def orderBy (columns : List String) (a b : Row) : Ordering :=
  columns.foldr (fun column o => ((a.cell column).order (b.cell column)).then o) .eq

def byKey (t : Table) (rows : List Row) : List Row :=
  rows.mergeSort fun a b => (orderBy t.key a b).isLE

def placed (t : Table) (rows : List Row) : List Row :=
  if t.key.length = 1 then byKey t rows else rows

def ofRows (catalogs : List Catalog) (rows : List (String × List (List Value))) : Database :=
  { tables := (catalogs.flatMap Catalog.tables).map fun t =>
      let values := (Entries.lookup? rows t.name).getD []
      (t, placed t (numbered t (values.map (rowOf t)))) }

def find? (db : Database) (name : String) : Option (Table × List Row) :=
  db.tables.find? (·.1.name == name)

def rows (db : Database) (name : String) : List Row := ((db.find? name).map (·.2)).getD []

def emptyRow (db : Database) (name : String) : Row :=
  ((db.find? name).map fun t => t.1.columns.map fun c => (c.1, Cell.null)).getD []

/-- Rows of a table whose cells equal given ones. Nothing equals nothing. -/
def matching (db : Database) (name : String) (cells : List (String × Cell)) : List Row :=
  (db.rows name).filter fun r => cells.all fun (column, cell) =>
    cell != .null && (r.cell column).order cell == .eq

end Database
end Listing.Sql
