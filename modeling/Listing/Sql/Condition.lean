import Listing.Sql.ColumnType
import Listing.Fault
set_option autoImplicit false

/-!
# Columns and conditions

Columns are known by their table, by a bare name, or by a text that is placed in the statement as
it is. A condition compares a column with values. Null and truth values are never compared as
values: equality with them is a condition of its own and has no bound parameter.
-/

namespace Listing.Sql

inductive Column where
  | ofTable (table name : String) (type : ColumnType)
  | bare (name : String) (type : ColumnType)
  | literal (sql : String)
deriving DecidableEq, Repr

namespace Column

def type : Column → ColumnType
  | ofTable _ _ t => t
  | bare _ t => t
  | literal _ => .unknown

def key : Column → String
  | ofTable _ name _ => name
  | bare name _ => name
  | literal sql => sql

/-- The table that a column brings into a statement. -/
def table? : Column → Option String
  | ofTable table _ _ => some table
  | _ => none

end Column

inductive Comparison where
  | eq
  | ne
  | gt
  | ge
  | lt
  | le
deriving DecidableEq, Repr

def Comparison.sign : Comparison → String
  | eq => "="
  | ne => "!="
  | gt => ">"
  | ge => ">="
  | lt => "<"
  | le => "<="

inductive Condition where
  /-- The column stands in a relation to a value. -/
  | compare (op : Comparison) (column : Column) (operand : Value)
  /-- The column is null, or is not. -/
  | null (negated : Bool) (column : Column)
  /-- The column is a truth value, or is different from it. -/
  | flag (negated : Bool) (column : Column) (b : Bool)
  /-- The text of the column matches a pattern. -/
  | like (column : Column) (pattern : String)
  /-- The text of the column, or of its conversion to text, matches a pattern in any case. -/
  | contains (column : Column) (asText : Bool) (pattern : String)
  /-- The column is one of some values. -/
  | within (column : Column) (operands : List Value)
deriving Repr

namespace Condition

def column : Condition → Column
  | compare _ c _ => c
  | null _ c => c
  | flag _ c _ => c
  | like c _ => c
  | contains c _ _ => c
  | within c _ => c

/-- Compare a column with a value. Null and truth values have no order, except that a truth value
is an ordinary value beside a span of time. -/
def ofComparison (op : Comparison) (c : Column) (v : Value) : Outcome Condition :=
  match op, v with
  | .eq, .null => .ok (null false c)
  | .ne, .null => .ok (null true c)
  | _, .null => .error (.sql .argument)
  | op, .bool b =>
    if c.type = .interval then .ok (compare op c (.bool b))
    else
      match op with
      | .eq => .ok (flag false c b)
      | .ne => .ok (flag true c b)
      | _ => .error (.sql .argument)
  | op, v => .ok (compare op c v)

/-- The pattern of texts that hold a term. Wild cards of the term keep their meaning. -/
def patternOf (term : String) : String := "%" ++ term ++ "%"

end Condition
end Listing.Sql
