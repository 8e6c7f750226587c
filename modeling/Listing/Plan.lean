import Listing.Diagnostics
import Listing.ListRequest.Basic
import Listing.Policy
set_option autoImplicit false

/-!
# Plans

A request and a policy make a plan: the calls that a query handle receives, in a fixed order.
Joins come first, then aggregates, relations, the search, the column searches, the filters, and
the order at the end. Only columns of the policy appear in it; what the policy does not name is
left out, and an unknown sort key gives way to the first sortable field.
-/

namespace Listing

structure ColumnRef where
  name : String
  qualified : Bool
deriving DecidableEq, Repr

inductive Predicate where
  /-- The column, or its conversion to text, holds a term. -/
  | contains (column : ColumnRef) (term : String) (asText : Bool)
  /-- The column stands in a relation to an operand. -/
  | compare (column : ColumnRef) (operator operand : Value)
deriving Repr

inductive Call where
  | leftJoin (table foreignKey relatedKey : String)
  | selectBase
  | withAggregate (kind : AggregateKind) (relation : String) (column : Option String)
  | withRelations (relations : List String)
  | whereAny (predicates : List Predicate)
  | whereAll (predicates : List Predicate)
  | orderBy (column : ColumnRef) (order : SortOrder)
  | orderByNulls (column : ColumnRef) (order : SortOrder) (nulls : NullsPosition)
deriving Repr

namespace Plan

/-- The alias and the column to sort by: those asked for, else the first sortable field. -/
def sortField? (p : Policy) (r : ListRequest) : Option (String × String) :=
  match Policy.columnOf? p.sortableFields r.sortBy with
  | some column => some (r.sortBy, column)
  | none => p.defaultSort?

def isUnknownSort (p : Policy) (r : ListRequest) : Bool :=
  !p.sortableFields.isEmpty && (Policy.columnOf? p.sortableFields r.sortBy).isNone &&
    !r.sortBy.isEmpty

def unknownSort (p : Policy) (r : ListRequest) : Diagnostic :=
  { message := "Invalid sortBy parameter"
    context := [
      (.text "provided", .text r.sortBy),
      (.text "using", (p.defaultSort?.map fun e => Value.text e.2).getD .null),
      (.text "allowed", .list (p.sortableFields.map fun e => .text e.1))] }

def diagnostics (p : Policy) (r : ListRequest) : List Diagnostic :=
  if isUnknownSort p r then [unknownSort p r] else []

def join? (p : Policy) (r : ListRequest) : Option RelationJoin :=
  (sortField? p r).bind fun e => p.joinFor? e.1

/-- Whether columns are qualified: they are as soon as a table is joined. -/
def isJoined (p : Policy) (r : ListRequest) : Bool := (join? p r).isSome

def joinCalls (p : Policy) (r : ListRequest) : List Call :=
  match join? p r with
  | some j => [.leftJoin j.table j.foreignKey j.relatedKey, .selectBase]
  | none => []

/-- Where nulls go in an order: last when it descends, first when it ascends. -/
def nullsFor : SortOrder → NullsPosition
  | .desc => .last
  | .asc => .first

def orderCalls (p : Policy) (r : ListRequest) : List Call :=
  match sortField? p r with
  | none => []
  | some (_, name) =>
    let column : ColumnRef := ⟨name, isJoined p r⟩
    if p.isNullable name then [.orderByNulls column r.sortOrder (nullsFor r.sortOrder)]
    else [.orderBy column r.sortOrder]

def aggregateCalls (p : Policy) : List Call :=
  p.aggregates.flatMap fun a => a.2.map fun e => .withAggregate a.1 e.1 e.2

def relationCalls (r : ListRequest) : List Call :=
  if r.relations.isEmpty then [] else [.withRelations r.relations]

def searchCalls (p : Policy) (r : ListRequest) : List Call :=
  if r.search.isEmpty || p.searchFields.isEmpty then []
  else [.whereAny (p.searchFields.map fun name =>
    .contains ⟨name, isJoined p r⟩ r.search (p.isNumeric [name]))]

def columnSearchCalls (p : Policy) (r : ListRequest) : List Call :=
  r.columnSearch.filterMap fun (field, term) =>
    match Policy.columnOf? p.columnFields field with
    | none => none
    | some name =>
      if term.isEmpty then none
      else some (.whereAll [.contains ⟨name, isJoined p r⟩ term (p.isNumeric [field, name])])

def takesList (operator : Value) : Bool :=
  match FilterOperator.ofValue? operator with
  | some .eq => true
  | some .within => true
  | _ => false

/-- The operand of an operator; of a list only the last item, unless the operator takes lists.
Empty operands do not count. -/
def operandFor? (operator operand : Value) : Option Value :=
  match operand with
  | .list items =>
    if takesList operator then some (.list items)
    else
      match items.getLast? with
      | none => none
      | some .null => none
      | some v => if v.sameKey (.text "") then none else some v
  | .null => none
  | v => if v.sameKey (.text "") then none else some v

/-- The operators and operands of a filter. A plain value is compared by equality, a list by
membership. -/
def terms : Value → List (Value × Value)
  | .map entries => entries.filterMap fun (operator, operand) =>
    (operandFor? operator operand).map (operator, ·)
  | .list [] => []
  | .list items => [(.text FilterOperator.within.word, .list items)]
  | v => [(.text FilterOperator.eq.word, v)]

def comparisons (p : Policy) (r : ListRequest) (filter : String × Value) : List Predicate :=
  match Policy.columnOf? p.filterableFields filter.1 with
  | none => []
  | some name =>
    (terms filter.2).map fun (operator, operand) =>
      .compare ⟨name, isJoined p r⟩ operator operand

/-- One call with all comparisons whose operators the handle knows. -/
def filterCalls (knows : Value → Bool) (p : Policy) (r : ListRequest) : List Call :=
  let known := (r.filters.flatMap (comparisons p r)).filter fun
    | .compare _ operator _ => knows operator
    | .contains .. => true
  if known.isEmpty then [] else [.whereAll known]

def selection (knows : Value → Bool) (p : Policy) (r : ListRequest) : List Call :=
  joinCalls p r ++ aggregateCalls p ++ relationCalls r ++ searchCalls p r ++
    columnSearchCalls p r ++ filterCalls knows p r

def calls (knows : Value → Bool) (p : Policy) (r : ListRequest) : List Call :=
  selection knows p r ++ orderCalls p r

end Plan
end Listing
