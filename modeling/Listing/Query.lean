import Listing.Filter.Strategy
import Listing.Plan.Build
import Listing.Sql.Statement
set_option autoImplicit false

/-!
# Query handles

A query handle builds the statement of a listing over a model, one call at a time. Columns are
looked up in the catalog; a dotted name that is no column of it is placed in the statement as it
is. Relations to be loaded are accepted only if every part of their path is a relation.
-/

namespace Listing

structure Query where
  catalog : Catalog
  model : Model
  statement : Sql.Statement
  loaded : List String := []
deriving Repr

namespace Query

def ofModel (c : Catalog) (m : Model) : Query :=
  { catalog := c, model := m, statement := { base := m.table } }

def tableName (q : Query) : String := q.model.table.name

def splitDot? (name : String) : Option (String × String) :=
  let cs := name.toList
  if cs.contains '.' then
    some (String.ofList (cs.takeWhile (· != '.')), String.ofList ((cs.dropWhile (· != '.')).drop 1))
  else none

/-- The column of a name. A name without a dot is a column of the base table, qualified if asked
for; names that are no column stay bare. -/
def column (q : Query) (c : ColumnRef) : Sql.Column :=
  match splitDot? c.name with
  | some (table, name) =>
    match (q.catalog.table? table).bind (·.columnType? name) with
    | some type => .ofTable table name type
    | none => .literal c.name
  | none =>
    match q.model.table.columnType? c.name with
    | some type => if c.qualified then .ofTable q.tableName c.name type else .bare c.name type
    | none => .bare c.name .unknown

/-- The condition of a predicate; none for an unknown operator. -/
def condition? (r : Registry) (q : Query) : Predicate → Outcome (Option Sql.Condition)
  | .contains c term asText =>
    .ok (some (.contains (q.column c) asText (Sql.Condition.patternOf term)))
  | .compare c operator operand => r.condition (q.column c) operator operand none

def conditions (r : Registry) (q : Query) (ps : List Predicate) :
    Outcome (List Sql.Condition) := do
  .ok ((← ps.mapM (q.condition? r)).filterMap id)

def restrict (q : Query) (groups : List (List Sql.Condition)) : Query :=
  { q with statement.groups := q.statement.groups ++ groups }

/-- Join a table. A table outside the catalog is taken to have the related key. -/
def leftJoin (q : Query) (table foreignKey relatedKey : String) : Outcome Query :=
  if !q.model.table.hasColumn foreignKey then .error (.missingKey (.text foreignKey))
  else if (q.catalog.table? table).any (!·.hasColumn relatedKey) then
    .error (.missingKey (.text relatedKey))
  else .ok { q with statement.joins := q.statement.joins ++ [⟨table, foreignKey, relatedKey⟩] }

def partsOf (path : String) : List String := (path.toList.splitOn '.').map String.ofList

/-- The relations that a path leads along; none if one of its parts is no relation. -/
def loader? (q : Query) (path : String) : Option (List Attribute) :=
  q.catalog.attributes? q.model (partsOf path)

def accepts (q : Query) (path : String) : Bool := (q.loader? path).isSome

def withRelations (q : Query) (paths : List String) : Query :=
  { q with
    statement.loads := q.statement.loads ++ paths.filterMap q.loader?
    loaded := q.loaded ++ paths.filter q.accepts }

def aggregateLabel (kind : AggregateKind) (relation : String) : Option String → String
  | none => relation ++ "_" ++ kind.word
  | some column => relation ++ "_" ++ kind.word ++ "_" ++ column

def aggregateColumn (kind : AggregateKind) (target : Table) (column : Option String) :
    Outcome (Option (String × ColumnType)) :=
  if kind = .count then .ok none
  else
    match column with
    | none => .error (.missingKey .null)
    | some name =>
      match target.columnType? name with
      | some type => .ok (some (name, type))
      | none => .error (.missingKey (.text name))

def withAggregate (q : Query) (kind : AggregateKind) (relation : String) (column : Option String) :
    Outcome Query := do
  let some r := q.model.relation? relation | throw (.missingKey (.text relation))
  if r.link.isSome then throw (.aggregateOverMany relation)
  let some target := q.catalog.targetOf? r | throw (.missingKey (.text relation))
  let column ← aggregateColumn kind target.table column
  let aggregate : Sql.Aggregate :=
    { kind, target := target.table, column, pairs := r.pairs
      label := aggregateLabel kind relation (column.map (·.1)) }
  .ok { q with statement.aggregates := q.statement.aggregates ++ [aggregate] }

def orderBy (q : Query) (c : ColumnRef) (order : SortOrder) (nulls : Option NullsPosition) :
    Query :=
  { q with statement.orders := q.statement.orders ++ [⟨q.column c, order, nulls⟩] }

def step (r : Registry) (q : Query) (call : Call) : Outcome Query :=
  match call with
  | .leftJoin table foreignKey relatedKey => q.leftJoin table foreignKey relatedKey
  | .selectBase => .ok { q with statement.aggregates := [] }
  | .withAggregate kind relation column => q.withAggregate kind relation column
  | .withRelations paths => .ok (q.withRelations paths)
  | .whereAny ps => do
    let cs ← q.conditions r ps
    .ok (if cs.isEmpty then q else q.restrict [cs])
  | .whereAll ps => do
    let cs ← q.conditions r ps
    .ok (q.restrict (cs.map fun c => [c]))
  | .orderBy c order => .ok (q.orderBy c order none)
  | .orderByNulls c order nulls => .ok (q.orderBy c order (some nulls))

def receiver (r : Registry) : Receiver Query where
  step := step r
  tableName := tableName
  knows operator := ((FilterOperator.ofValue? operator).bind r.strategy?).isSome

end Query
end Listing
