import Listing.Sql.Reading.Route
import Listing.Sql.Test
set_option autoImplicit false

/-!
# Readings

The order in which rows are read is seen wherever a statement does not tell rows apart. A statement
reads its tables inside each other, each in a manner of its own: by the number of the row, along
columns, or alternative after alternative. Which table comes first and how it is read is the
cheapest route.
-/

namespace Listing.Sql

/-- How the rows of a table are read. Rows that are alike in the columns follow their numbers. -/
inductive Manner where
  | along (columns : List String)
  /-- First the rows of the first alternative, then those that only the next one finds. -/
  | parts (alternatives : List (Test × List String))
deriving Repr

structure Reading where
  table : String
  /-- The column with the number of a row. -/
  number : String
  manner : Manner
  isBackward : Bool
deriving Repr

namespace Reading

def rowCell (r : Row) : Target → Cell
  | .field _ name _ => r.cell name
  | _ => .null

def part (alternatives : List (Test × List String)) (r : Row) : Nat :=
  alternatives.findIdx fun (test, _) => test.eval (rowCell r) == some true

def order (reading : Reading) (a b : Row) : Ordering :=
  let forward := match reading.manner with
    | .along columns => Database.orderBy (columns ++ [reading.number]) a b
    | .parts alternatives =>
      let i := part alternatives a
      let columns := ((alternatives[i]?).map (·.2)).getD []
      (compare i (part alternatives b)).then
        (Database.orderBy (columns ++ [reading.number]) a b)
  if reading.isBackward then forward.swap else forward

def columnsFor (s : Source) (test : Test) : List String :=
  match test.target with
  | .field _ name _ => if name == s.number then [] else s.key
  | _ => []

def ofRoute (sources : List Source) (groups : List (List Test)) (r : Route) : List Reading :=
  r.ways.zipIdx.filterMap fun (w, i) =>
    (sources.find? (·.name == w.table)).map fun s =>
      let manner : Manner := match w.access with
        | .number => .along []
        | .key => .along s.key
        | .made => .along s.used
        | .parts =>
          let tests := ((w.terms.head?).bind fun t => groups[t.group]?).getD []
          .parts (tests.map fun test => (test, columnsFor s test))
      { table := w.table, number := s.number, manner, isBackward := r.back.contains i }

def wantOf (base : String) (t : Target) (order : SortOrder) (nulls : Option NullsPosition) : Want :=
  let descends := order == .desc
  let movesNull := match nulls with
    | none => false
    | some .first => descends
    | some .last => !descends
  match t with
  | .field table column _ =>
    { field := some ⟨table, column⟩, tables := [table], descends, movesNull }
  | .aggregate _ => { field := none, tables := [base], descends, movesNull }
  | _ => { field := none, tables := [], descends, movesNull }

/-- A table as a source. All columns of the base table are read, and of others those that fields
name. -/
def sourceOf (isBase isOuter : Bool) (fields : List Field) (t : Table) : Source :=
  let used := (t.columns.map (·.1)).filter fun c =>
    c != Database.rowNumberColumn t && (isBase || fields.contains ⟨t.name, c⟩)
  { table := t, used, outer := isOuter }

/-- The readings of a statement: its base table, the tables that are joined and those beside them,
its clauses, and the orders that it wants. Orders for which rows are counted are met later. -/
def choose (base : Table) (joined extra : List Table) (clauses : Clauses) (wants : List Want)
    (isLate : Bool) (groups : List (List Test)) : List Reading :=
  let fields := (clauses.groups.flatten ++ clauses.joins).flatMap Clause.fields ++
    wants.filterMap (·.field)
  let loose := sourceOf true false fields base :: joined.map (sourceOf false true fields) ++
    extra.map (sourceOf false false fields)
  let clauses := clauses.settled loose
  let sources := clauses.tightenSources loose
  let clauses := (clauses.tightened sources).known
  let wants := if isLate then [] else wants
  let route := Route.choose? sources (Terms.ofClauses sources clauses) wants
  (route.map (ofRoute sources groups)).getD []

end Reading
end Listing.Sql
