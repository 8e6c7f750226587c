import Listing.Sql.Reading.Estimate
import Listing.Sql.Scope
set_option autoImplicit false

/-!
# Sources

A source is a table that a statement reads from, as far as it matters for the way it is read: which
of its columns are read, whether it is joined from the left, and how wide its rows are. Rows are
found by their number or along the key if that has several columns.
-/

namespace Listing.Sql.Reading

structure Field where
  table : String
  column : String
deriving DecidableEq, Repr

structure Source where
  table : Table
  /-- The columns that are read, apart from the number of the row, in the order of the table. -/
  used : List String
  /-- Whether a row may stand beside no row of the table. -/
  outer : Bool
deriving Repr

/-- A number of units for the room that a column takes. -/
def room : ColumnType → Nat
  | .enum e => min 255 (e.nameLength / 4 + 1)
  | .text => 5
  | .binary => 5
  | .uuid => 9
  | _ => 1

namespace Source

def name (s : Source) : String := s.table.name

def number (s : Source) : String := Database.rowNumberColumn s.table

def key (s : Source) : List String := if s.table.key.length = 1 then [] else s.table.key

def affinity (s : Source) (column : String) : Affinity :=
  ((s.table.columnType? column).map affinityOf).getD .number

def roomOf (s : Source) (columns : List String) : Nat :=
  columns.foldl (fun total c => total + ((s.table.columnType? c).map room).getD 1) 0

/-- The width of a row. A number of its own takes room. -/
def width (s : Source) : Int :=
  Estimate.ofNat
    (4 * (s.roomOf (s.table.columns.map (·.1)) + if s.table.key.length = 1 then 0 else 1))

def keyWidth (s : Source) : Int := Estimate.ofNat (4 * (s.roomOf s.key + 1))

def keyCovers (s : Source) : Bool := s.used.all s.key.contains

def isNeverNull (s : Source) (column : String) : Bool :=
  column == s.number || s.table.key.contains column

end Source
end Listing.Sql.Reading
