import Listing.Filter.Coercion
import Listing.Sql.Condition
import Listing.Words
set_option autoImplicit false

/-!
# Filter strategies

A strategy makes a condition from a column and an operand. Every operator has one; a registry maps
operators to strategies, and an operator without one makes no condition.
-/

namespace Listing
open Sql

/-- How an operator makes its condition. The kind is what texts are coerced to. -/
abbrev Strategy := Column → Value → Option Kind → Outcome (Option Condition)

namespace Strategy

def operand (c : Column) (k : Option Kind) (v : Value) : Outcome Value :=
  Coercion.coerce (Coercion.kindFor c.type k) v

def comparing (op : Comparison) : Strategy := fun c v k => do
  some <$> Condition.ofComparison op c (← operand c k v)

def within : Strategy := fun c v k => do
  let items ← (Coercion.splitItems v).mapM fun s => operand c k (.text s)
  .ok (some (.within c items))

def equal : Strategy := fun c v k =>
  match v with
  | .list _ => within c v k
  | v => comparing .eq c v k

def like : Strategy := fun c v _ => .ok (some (.like c (Condition.patternOf v.display)))

def builtin : FilterOperator → Strategy
  | .eq => equal
  | .ne => comparing .ne
  | .gt => comparing .gt
  | .gte => comparing .ge
  | .lt => comparing .lt
  | .lte => comparing .le
  | .like => like
  | .within => within

end Strategy

/-- Operators with their strategies, each operator at most once. -/
abbrev Registry := List (FilterOperator × Strategy)

namespace Registry

def builtin : Registry := FilterOperator.all.map fun o => (o, Strategy.builtin o)

def strategy? (r : Registry) (o : FilterOperator) : Option Strategy :=
  (List.find? (·.1 == o) r).map (·.2)

def drop (r : Registry) (o : FilterOperator) : Registry := r.filter (·.1 != o)

def register (r : Registry) (o : FilterOperator) (s : Strategy) : Registry :=
  (o, s) :: r.drop o

def words (r : Registry) : List String := (r.map (·.1.word)).mergeSort

/-- The condition of a filter; none for an unknown operator and for one without a strategy. -/
def condition (r : Registry) (c : Column) (operator operand : Value) (k : Option Kind) :
    Outcome (Option Condition) :=
  match (FilterOperator.ofValue? operator).bind r.strategy? with
  | none => .ok none
  | some strategy => strategy c operand (Coercion.kindFor c.type k)

theorem strategy?_builtin (o : FilterOperator) :
    builtin.strategy? o = some (Strategy.builtin o) := by
  cases o <;> rfl

end Registry
end Listing
