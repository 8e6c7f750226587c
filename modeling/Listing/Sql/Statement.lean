import Listing.Catalog
import Listing.Sql.ConditionText
import Listing.Words
set_option autoImplicit false

/-!
# Statements

A statement selects the columns of a base table, with aggregates over related tables beside them.
Tables are joined from the left; conditions are groups, each an alternative, all of which have to
hold; and there is an order. A table that a condition names and no join brings in stands beside
the base table.
-/

namespace Listing.Sql

structure Join where
  table : String
  foreignKey : String
  relatedKey : String
deriving DecidableEq, Repr

/-- An aggregate over the rows of a target table whose columns equal those of the base row. Pairs
are a base column and a target column. Without a column the rows are counted. -/
structure Aggregate where
  kind : AggregateKind
  target : Table
  column : Option (String × ColumnType)
  pairs : List (String × String)
  label : String
deriving Repr

structure Order where
  column : Column
  order : SortOrder
  nulls : Option NullsPosition
deriving Repr

/-- What a statement selects, and the chains of relations along which related rows are loaded with
what it selects. -/
structure Statement where
  base : Table
  joins : List Join := []
  groups : List (List Condition) := []
  orders : List Order := []
  aggregates : List Aggregate := []
  loads : List (List Attribute) := []
deriving Repr

def totalLabel : String := "_total_count"

namespace Statement

def extraTables (s : Statement) : List String :=
  let named := s.groups.flatten.filterMap fun c => c.column.table?
  let known := s.base.name :: s.joins.map (·.table)
  (named.filter (!known.contains ·)).eraseDups

def columnText (d : Dialect) (table name : String) : Outcome String :=
  (Column.ofTable table name .unknown).render d

def aggregateCall (d : Dialect) (a : Aggregate) : Outcome String :=
  match a.column with
  | none => .ok "count(*)"
  | some (name, _) => do .ok (a.kind.word ++ "(" ++ (← columnText d a.target.name name) ++ ")")

/-- The aggregate as a column of the statement. The base table is not named again. -/
def aggregatePieces (d : Dialect) (base : Table) (a : Aggregate) : Outcome (List Piece) := do
  let call ← aggregateCall d a
  let target ← Name.render d a.target.name
  let matching ← a.pairs.mapM fun p => do
    .ok ((← columnText d a.target.name p.2) ++ " = " ++ (← columnText d base.name p.1))
  let label ← Name.render d a.label
  let source := if a.target.name == base.name then "" else "\nFROM " ++ target ++ " "
  .ok [.text ("(SELECT " ++ call ++ " AS "), .label a.kind.word,
    .text (" " ++ source ++ "\nWHERE " ++ String.intercalate " AND " matching ++ ") AS " ++ label)]

/-- The columns of the base table, named again where the statement is a part of another. -/
def basePieces (d : Dialect) (s : Statement) (named : Bool) : Outcome (List (List Piece)) :=
  s.base.columns.mapM fun c => do
    let column ← columnText d s.base.name c.1
    let name ← Name.render d c.1
    .ok [.text (if named then column ++ " AS " ++ name else column)]

def joinText (d : Dialect) (s : Statement) (j : Join) : Outcome String := do
  let table ← Name.render d j.table
  let left ← columnText d s.base.name j.foreignKey
  let right ← columnText d j.table j.relatedKey
  .ok (" LEFT OUTER JOIN " ++ table ++ " ON " ++ left ++ " = " ++ right)

def fromText (d : Dialect) (s : Statement) : Outcome String := do
  let base ← Name.render d s.base.name
  let joins ← s.joins.mapM (joinText d s)
  let extra ← s.extraTables.mapM fun t => do .ok (", " ++ (← Name.render d t))
  .ok (" \nFROM " ++ base ++ String.join joins ++ String.join extra)

/-- A group of alternatives, in parentheses if there are several and it is not alone. Without
alternatives it holds of no row. -/
def groupPieces (d : Dialect) (alone : Bool) (group : List Condition) : Outcome (List Piece) := do
  let alternatives ← group.mapM (Condition.pieces d)
  let ps := if group.isEmpty then [.text "NULL"] else Piece.joined " OR " alternatives
  .ok (if alone || group.length ≤ 1 then ps else .text "(" :: ps ++ [.text ")"])

def wherePieces (d : Dialect) (s : Statement) : Outcome (List Piece) :=
  if s.groups.isEmpty then .ok []
  else do
    let groups ← s.groups.mapM (groupPieces d (s.groups.length == 1))
    .ok (.text " \nWHERE " :: Piece.joined " AND " groups)

def orderText (d : Dialect) (o : Order) : Outcome String := do
  let column ← o.column.render d
  let direction := match o.order with
    | .asc => " ASC"
    | .desc => " DESC"
  let nulls := match o.nulls with
    | none => ""
    | some .first => " NULLS FIRST"
    | some .last => " NULLS LAST"
  .ok (column ++ direction ++ nulls)

def orderPieces (d : Dialect) (s : Statement) : Outcome (List Piece) :=
  if s.orders.isEmpty then .ok []
  else do
    let orders ← s.orders.mapM (orderText d)
    .ok [.text (" ORDER BY " ++ String.intercalate ", " orders)]

def piecesWith (d : Dialect) (s : Statement) (named : Bool) (more : List (List Piece)) :
    Outcome (List Piece) := do
  let columns ← s.basePieces d named
  let aggregates ← s.aggregates.mapM (aggregatePieces d s.base)
  let source ← s.fromText d
  let conditions ← s.wherePieces d
  let orders ← s.orderPieces d
  .ok (.text "SELECT " :: Piece.joined ", " (columns ++ aggregates ++ more) ++
    .text source :: conditions ++ orders)

def limitPieces (d : Dialect) (limit offset : Int) : List Piece :=
  let opening := match d with
    | .sqlite => "\n LIMIT "
    | _ => " \n LIMIT "
  [.text opening, .bind "param" "" (.int limit), .text " OFFSET ",
    .bind "param" "" (.int offset)]

def written (d : Dialect) (s : Statement) : Outcome Written := do
  .ok (Piece.write d (← s.piecesWith d false []))

def countWritten (d : Dialect) (s : Statement) : Outcome Written := do
  let inner ← piecesWith d { s with orders := [] } true []
  .ok (Piece.write d (.text "SELECT count(*) AS " :: .label "count" :: .text " \nFROM (" ::
    .reserved "anon" :: inner ++ [.text ") AS anon_1"]))

def pageWritten (d : Dialect) (s : Statement) (limit offset : Int) : Outcome Written := do
  .ok (Piece.write d ((← s.piecesWith d false []) ++ limitPieces d limit offset))

def windowWritten (d : Dialect) (s : Statement) (limit offset : Int) : Outcome Written := do
  let total := [.text ("count(*) OVER () AS " ++ totalLabel)]
  .ok (Piece.write d ((← s.piecesWith d false [total]) ++ limitPieces d limit offset))

end Statement
end Listing.Sql
