import Listing.Plan
set_option autoImplicit false

/-!
# Building a query

A plan is carried out on anything that takes calls. A hook may step in after the filters: it is
told the column searches and, if a table is joined, the base table, and it may give another handle
that receives the order.
-/

namespace Listing

/-- What takes calls: how it takes one, the name of its base table, and the operators it knows. -/
structure Receiver (H : Type) where
  step : H → Call → Outcome H
  tableName : H → String
  knows : Value → Bool

/-- What a hook is told: the column searches, and the base table if another table is joined. -/
structure HookArguments where
  columnSearch : List (String × String)
  table : Option String
deriving DecidableEq, Repr

/-- A hook gives another handle, or none to go on with the one it got. -/
abbrev Hook (H : Type) := H → HookArguments → Outcome (Option H)

namespace Plan
variable {H : Type}

/-- Carry out calls one after the other; the first fault ends it. -/
def carryOut (receiver : Receiver H) (calls : List Call) (h : H) : Outcome H :=
  calls.foldlM receiver.step h

theorem carryOut_append (receiver : Receiver H) (xs ys : List Call) (h : H) :
    carryOut receiver (xs ++ ys) h = carryOut receiver xs h >>= carryOut receiver ys := by
  unfold carryOut
  rw [List.foldlM_append]

def hookArguments (receiver : Receiver H) (p : Policy) (r : ListRequest) (h : H) : HookArguments :=
  ⟨r.columnSearch, if isJoined p r then some (receiver.tableName h) else none⟩

def select (receiver : Receiver H) (p : Policy) (r : ListRequest) (h : H) : Outcome H :=
  carryOut receiver (selection receiver.knows p r) h

def finish (receiver : Receiver H) (hook : Option (Hook H)) (p : Policy) (r : ListRequest)
    (h : H) : Outcome H := do
  let h ← match hook with
    | none => .ok h
    | some f => do .ok ((← f h (hookArguments receiver p r h)).getD h)
  carryOut receiver (orderCalls p r) h

def build (receiver : Receiver H) (hook : Option (Hook H)) (p : Policy) (r : ListRequest)
    (h : H) : Outcome H := do
  finish receiver hook p r (← select receiver p r h)

theorem build_none (receiver : Receiver H) (p : Policy) (r : ListRequest) (h : H) :
    build receiver none p r h = carryOut receiver (calls receiver.knows p r) h := by
  unfold build finish select calls
  rw [carryOut_append]
  rfl

end Plan
end Listing
