import Listing.Value.Text
set_option autoImplicit false

namespace Listing

inductive ColumnType where
  | integer
  | bigInteger
  | string
  | text
  | labels
  | boolean
  | datetime
  | date
  | time
  | interval
  | float
  | numericFloat
  | numeric
  | enum (e : Enumeration)
  | uuid
  | binary
  | json
  | array
  | unknown
deriving DecidableEq, Repr

namespace ColumnType

def kind? : ColumnType → Option Kind
  | integer => some .int
  | bigInteger => some .int
  | string => some .text
  | text => some .text
  | labels => some .text
  | boolean => some .bool
  | datetime => some .datetime
  | date => some .date
  | time => some .time
  | interval => some .duration
  | float => some .float
  | numericFloat => some .float
  | numeric => some .decimal
  | enum e => some (.enum e)
  | uuid => some .uuid
  | binary => some .bytes
  | json => some .map
  | array => some .list
  | unknown => none

inductive Family where
  | integer
  | string
  | boolean
  | moment
  | day
  | clock
  | interval
  | numeric
  | uuid
  | binary
  | json
  | array
  | none
deriving DecidableEq, Repr

def family : ColumnType → Family
  | integer => .integer
  | bigInteger => .integer
  | string => .string
  | text => .string
  | labels => .string
  | enum _ => .string
  | boolean => .boolean
  | datetime => .moment
  | date => .day
  | time => .clock
  | interval => .interval
  | float => .numeric
  | numericFloat => .numeric
  | numeric => .numeric
  | uuid => .uuid
  | binary => .binary
  | json => .json
  | array => .array
  | unknown => .none

def ofValue? : Value → Option ColumnType
  | .bool _ => some boolean
  | .int _ => some integer
  | .float _ => some float
  | .text _ => some string
  | .datetime _ => some datetime
  | .date _ => some date
  | .time _ => some time
  | .decimal _ => some numeric
  | .uuid _ => some uuid
  | _ => none

/-- The type under which a value compared with a column is bound: the type of the column for a
value of its family or of no type, else the type of the value. A text stays a text of a uuid
column. -/
def bindType (t : ColumnType) (v : Value) : ColumnType :=
  match t, v with
  | uuid, .text _ => uuid
  | t, v =>
    match ofValue? v with
    | none => t
    | some own => if own.family = t.family then t else own

end ColumnType
end Listing
