import Listing.Quantity
import Listing.Sql.Cell
import Listing.Sql.Condition
set_option autoImplicit false

/-!
# Binding values

Before a statement runs, every bound value is converted by the type it is bound under, and then
turned into a cell. A type refuses values that it cannot convert; a cell cannot hold lists, maps,
or integers beyond 64 bits.
-/

namespace Listing.Sql.Bind

def refused {α : Type} : Outcome α := .error (.sql .statement)

def real (v : Value) : Outcome Value :=
  match v with
  | .null => .ok .null
  | .text s => ((Numeral.readBinary64? s.toList).map Value.float).elim refused .ok
  | v =>
    match Quantity.ofValue? v with
    | some q => .float <$> q.toReal
    | none => refused

def flag (v : Value) : Outcome Value :=
  match v with
  | .null => .ok .null
  | v =>
    match v.toRat? with
    | some x => if x = 0 then .ok (.int 0) else if x = 1 then .ok (.int 1) else refused
    | none => refused

def moment (v : Value) : Outcome Value :=
  match v with
  | .null => .ok .null
  | .datetime t => .ok (.text t.storedText)
  | _ => refused

def member (e : Enumeration) (v : Value) : Outcome Value :=
  match v with
  | .null => .ok .null
  | .member m => if m.enumeration = e then .ok (.text m.name) else refused
  | .text s => .ok (.text s)
  | _ => refused

def convert (t : ColumnType) (v : Value) : Outcome Value :=
  match t with
  | .float => real v
  | .boolean => flag v
  | .datetime => moment v
  | .enum e => member e v
  | _ => .ok v

/-- Convert the operands of a condition. Items of a list are bound under the type of the first. -/
def converted (condition : Condition) : Outcome Condition :=
  match condition with
  | .compare op c v => do .ok (.compare op c (← convert (c.type.bindType v) v))
  | .within c vs => do
    let t := match vs with
      | [] => c.type
      | v :: _ => c.type.bindType v
    .ok (.within c (← vs.mapM (convert t)))
  | condition => .ok condition

def cell (v : Value) : Outcome Cell :=
  match v with
  | .null => .ok .null
  | .bool b => .ok (.int b.toNat)
  | .int n => if Word64.holds n then .ok (.int n) else .error .integerTooLarge
  | .float x => .ok (if x.isNan then .null else .real x)
  | .text s => .ok (.text s)
  | .datetime t => .ok (.text (t.textWith ' '))
  | _ => .error (.sql .programming)

end Listing.Sql.Bind
