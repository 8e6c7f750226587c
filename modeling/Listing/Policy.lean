import Listing.Words
set_option autoImplicit false

/-!
# Field policies

A policy says which columns a listing may search, filter and sort by, which joins sorting needs,
and which aggregates are attached. Every column, table, key and relation in it is an identifier:
a word, or two words with a dot between them. Nothing else is ever accepted as one.
-/

namespace Listing

namespace Identifier

def isStart (c : Char) : Bool := c.isAlpha || c == '_'
def isPart (c : Char) : Bool := c.isAlphanum || c == '_'

def isWord : List Char → Bool
  | [] => false
  | c :: cs => isStart c && cs.all isPart

def isDotted (cs : List Char) : Bool :=
  let (first, rest) := cs.span (· != '.')
  isWord first && match rest with
    | [] => true
    | _ :: second => isWord second

/-- Whether a text is an identifier. A line break may follow it. -/
def isIdentifier (s : String) : Bool :=
  let cs := s.toList
  isDotted (if cs.getLast? = some '\n' then cs.dropLast else cs)

def check (role : Role) (v : Value) : Outcome String :=
  match v with
  | .text s => if isIdentifier s then .ok s else .error (.invalidIdentifier role v)
  | v => .error (.invalidIdentifier role v)

theorem check_eq_ok_iff {role : Role} {v : Value} {s : String} :
    check role v = .ok s ↔ v = .text s ∧ isIdentifier s = true := by
  cases v with
  | text t =>
    by_cases h : isIdentifier t = true
    · simp only [check, h, if_true, Except.ok.injEq, Value.text.injEq]
      constructor
      · rintro rfl
        exact ⟨rfl, h⟩
      · exact And.left
    · simp only [check, h, Bool.false_eq_true, if_false, reduceCtorEq, Value.text.injEq, false_iff,
        not_and]
      rintro rfl
      exact h
  | _ => simp [check]

end Identifier

/-- A join that sorting by a column of another table needs: the foreign key of the base table
meets the key of the other table. -/
structure RelationJoin where
  relation : String
  foreignKey : String
  table : String
  relatedKey : String
deriving DecidableEq, Repr

namespace RelationJoin

def argumentNames : List String := ["relation", "foreign_key", "table", "related_key"]
def requiredNames : List String := ["relation", "foreign_key", "table"]

def ofArguments (args : List (String × Value)) : Outcome RelationJoin :=
  match args.find? (!argumentNames.contains ·.1) with
  | some (name, _) => .error (.unexpectedArgument .join name)
  | none =>
    match requiredNames.filter fun name => !args.any (·.1 == name) with
    | first :: more => .error (.missingArguments .join first more)
    | [] => do
      let arg (name : String) : Value :=
        (Entries.lookup? args name).getD (.text "id")
      let relation ← Identifier.check .relation (arg "relation")
      let foreignKey ← Identifier.check .foreignKey (arg "foreign_key")
      let table ← Identifier.check .table (arg "table")
      let relatedKey ← Identifier.check .relatedKey (arg "related_key")
      .ok { relation, foreignKey, table, relatedKey }

end RelationJoin

abbrev AggregateEntry := String × Option String

/-- What a listing allows. Aliases are what requests name, each once, in order. -/
structure Policy where
  searchFields : List String := []
  numericFields : List String := []
  nullableColumns : List String := []
  columnFields : List (String × String) := []
  sortableFields : List (String × String) := []
  filterableFields : List (String × String) := []
  relationJoins : List (String × RelationJoin) := []
  aggregates : List (AggregateKind × List AggregateEntry) := []
deriving Repr

namespace Policy

def argumentNames : List String :=
  ["search_fields", "numeric_fields", "column_fields", "sortable_fields", "nullable_columns",
    "relation_joins", "aggregates", "filterable_fields"]

/-- The items of a value that has some: those of a list, the characters of a text, the keys of a
map. -/
def itemsOf : Value → Outcome (List Value)
  | .list items => .ok items
  | .text s => .ok (s.toList.map fun c => .text (String.singleton c))
  | .map entries => .ok (entries.map (·.1))
  | v => .error (.notIterable v.kind)

def columns (v : Value) : Outcome (List String) := do
  (← itemsOf v).mapM (Identifier.check .column)

def columnsByAlias (entries : List (String × Value)) : Outcome (List (String × String)) :=
  entries.mapM fun e => (e.1, ·) <$> Identifier.check .column e.2

/-- Relation and column of an entry: a text is a relation alone, anything else a pair. -/
def splitEntry (v : Value) : Outcome (Value × Value) :=
  match v with
  | .text _ => .ok (v, .null)
  | v => do
    match ← itemsOf v with
    | [relation, column] => .ok (relation, column)
    | items => if items.length < 2 then .error (.tooFewItems items.length) else .error .tooManyItems

def aggregateEntry (kind : AggregateKind) (v : Value) : Outcome AggregateEntry := do
  let (relation, column) ← splitEntry v
  let relation ← Identifier.check .relation relation
  match column with
  | .null =>
    if kind = .count then .ok (relation, none)
    else .error (.aggregateWithoutColumn kind.word relation)
  | column => do .ok (relation, some (← Identifier.check .column column))

def aggregatesOf (entries : List (Value × Value)) :
    Outcome (List (AggregateKind × List AggregateEntry)) :=
  entries.mapM fun e => do
    let kind ← AggregateKind.ofValue e.1
    let items ← itemsOf e.2
    .ok (kind, ← items.mapM (aggregateEntry kind))

structure Arguments where
  searchFields : Value := .list []
  numericFields : Value := .list []
  nullableColumns : Value := .list []
  columnFields : List (String × Value) := []
  sortableFields : List (String × Value) := []
  filterableFields : List (String × Value) := []
  relationJoins : List (String × List (String × Value)) := []
  aggregates : List (Value × Value) := []
  others : List String := []

/-- Accept a policy if all of its identifiers are valid; the first fault is reported. -/
def ofArguments (args : Arguments) : Outcome Policy := do
  if let name :: _ := args.others then throw (.unexpectedArgument .policy name)
  let searchFields ← columns args.searchFields
  let numericFields ← columns args.numericFields
  let nullableColumns ← columns args.nullableColumns
  let columnFields ← columnsByAlias (Entries.ofList args.columnFields)
  let sortableFields ← columnsByAlias (Entries.ofList args.sortableFields)
  let filterableFields ← columnsByAlias (Entries.ofList args.filterableFields)
  let relationJoins ← (Entries.ofList args.relationJoins).mapM fun e =>
    (e.1, ·) <$> RelationJoin.ofArguments e.2
  let aggregates ← aggregatesOf (Entries.ofList args.aggregates)
  .ok { searchFields, numericFields, nullableColumns, columnFields, sortableFields,
        filterableFields, relationJoins, aggregates }

def defaultSort? (p : Policy) : Option (String × String) := p.sortableFields.head?

def columnOf? (fields : List (String × String)) (field : String) : Option String :=
  Entries.lookup? fields field

def isNumeric (p : Policy) (names : List String) : Bool := names.any p.numericFields.contains

def isNullable (p : Policy) (column : String) : Bool := p.nullableColumns.contains column

def joinFor? (p : Policy) (field : String) : Option RelationJoin :=
  if field.isEmpty then none else Entries.lookup? p.relationJoins field

end Policy
end Listing
