import Listing.Sql.Condition
import Listing.Sql.Piece
set_option autoImplicit false

/-!
# The text of conditions

Every operand of a condition is a bound value; only null and truth values stand in the text. A
search in any case is `ILIKE` where the database has it and compares small letters elsewhere. On
PostgreSQL some bound values are followed by the type they are converted to.
-/

namespace Listing.Sql

namespace Column

def render (d : Dialect) : Column → Outcome String
  | ofTable table name _ => do
    let t ← Name.render d table
    let n ← Name.render d name
    .ok (t ++ "." ++ n)
  | bare name _ => Name.render d name
  | literal sql => .ok (d.verbatim sql)

/-- The column on its own: known columns are never quoted. -/
def text : Column → Outcome String
  | ofTable table name _ => .ok (table ++ "." ++ name)
  | c => c.render .standard

end Column

namespace Condition

def suffix (d : Dialect) (t : ColumnType) (v : Value) : String :=
  match d, t.bindType v with
  | .postgresql, .uuid => "::UUID"
  | .postgresql, .json => "::JSON"
  | .postgresql, .array => "::VARCHAR[]"
  | _, _ => ""

def bound (d : Dialect) (c : Column) (v : Value) : Piece :=
  .bind (Piece.bindName c.key) (suffix d c.type v) v

def flagText (d : Dialect) (b : Bool) : String :=
  match d with
  | .sqlite => if b then "1" else "0"
  | _ => if b then "true" else "false"

def anyCase (d : Dialect) (subject : String) (pattern : Piece) : List Piece :=
  match d with
  | .postgresql => [.text (subject ++ " ILIKE "), pattern]
  | _ => [.text ("lower(" ++ subject ++ ") LIKE lower("), pattern, .text ")"]

def pieces (d : Dialect) (condition : Condition) : Outcome (List Piece) := do
  let subject ← condition.column.render d
  .ok <| match condition with
    | compare op c v => [.text (subject ++ " " ++ op.sign ++ " "), bound d c v]
    | null negated _ => [.text (subject ++ if negated then " IS NOT NULL" else " IS NULL")]
    | flag negated _ b =>
      [.text (subject ++ (if negated then " != " else " = ") ++ flagText d b)]
    | like c pattern => [.text (subject ++ " LIKE "), bound d c (.text pattern)]
    | contains c false pattern => anyCase d subject (bound d c (.text pattern))
    | contains _ true pattern =>
      anyCase d ("CAST(" ++ subject ++ " AS TEXT)") (.bind "param" "" (.text pattern))
    | within c vs => [.text (subject ++ " IN "), .items (Piece.bindName c.key) vs]

def written (d : Dialect) (condition : Condition) : Outcome Written := do
  .ok (Piece.write d (← condition.pieces d))

end Condition
end Listing.Sql
