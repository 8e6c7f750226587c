import Listing.Sql.Database
import Listing.Sql.Statement
set_option autoImplicit false

/-!
# Scopes

A scope is made of the tables that a statement reads from and of its labels. Names are looked up
in it without regard to case, before anything is evaluated. A name that fits several columns is
ambiguous, and one that fits none is a fault, unless it is written in quotes: then it is a text.
-/

namespace Listing.Sql
open Listing.Text

inductive Target where
  | field (table name : String) (type : ColumnType)
  | aggregate (label : String)
  | total
  | constant (text : String)
deriving DecidableEq, Repr

structure Scope where
  tables : List Table
  labels : List String := []
  counted : Bool := false
deriving Repr

namespace Scope

def fault {α : Type} : Outcome α := .error (.sql .operational)

def sameName (a b : String) : Bool := lowered a == lowered b

/-- A name as it is read: one that needs no quotes ends before a line break. -/
def spoken (name : String) : String :=
  if Name.needsQuotes .sqlite name then name
  else String.ofList (name.toList.filter (· != '\n'))

def fieldsOf (name : String) (t : Table) : List Target :=
  (t.columns.filter fun c => sameName c.1 name).map fun c => .field t.name c.1 c.2

def tablesNamed (s : Scope) (name : String) : List Table := s.tables.filter (sameName ·.name name)

def isRowNumber (name : String) : Bool := ["rowid", "oid", "_rowid_"].contains (lowered name)

/-- The number of a row in its table. A single key column holds it. -/
def rowNumber (t : Table) : Target := .field t.name (Database.rowNumberColumn t) .integer

/-- The columns of some tables that a name fits. A name that fits none may stand for the number of
the row, if there is one table only. -/
def fieldsIn (name : String) (ts : List Table) : List Target :=
  match ts.flatMap (fieldsOf name), ts with
  | [], [t] => if isRowNumber name then [rowNumber t] else []
  | targets, _ => targets

def label? (s : Scope) (name : String) : Option Target :=
  match s.labels.find? (sameName · name) with
  | some label => some (.aggregate label)
  | none => if s.counted && sameName name totalLabel then some .total else none

def qualified (s : Scope) (table name : String) : Outcome Target :=
  match fieldsIn name (s.tablesNamed table) with
  | [target] => .ok target
  | _ => fault

/-- A name without a table: a column, a label, or a text in quotes. -/
def bare (s : Scope) (name : String) : Outcome Target :=
  let word := spoken name
  match fieldsIn word s.tables with
  | [target] => .ok target
  | [] =>
    match s.label? word with
    | some target => .ok target
    | none => if Name.needsQuotes .sqlite name then .ok (.constant name) else fault
  | _ => fault

/-- A text that stands in a statement as it is: two words with a dot between them. -/
def literal (s : Scope) (sql : String) : Outcome Target :=
  match (sql.toList.filter (· != '\n')).splitOn '.' with
  | [table, name] =>
    if [table, name].any fun cs => Name.needsQuotes .sqlite (String.ofList (lowerAscii cs)) then
      fault
    else s.qualified (String.ofList table) (String.ofList name)
  | _ => fault

def column (s : Scope) : Column → Outcome Target
  | .ofTable table name _ => s.qualified table name
  | .bare name _ => s.bare name
  | .literal sql => s.literal sql

/-- A column to order by: a label comes before a column of the same name. -/
def orderColumn (s : Scope) (c : Column) : Outcome Target :=
  match c with
  | .bare name _ =>
    match s.label? (spoken name) with
    | some target => .ok target
    | none => s.bare name
  | c => s.column c

def table (db : Database) (name : String) : Outcome Table :=
  match db.tables.find? fun t => sameName t.1.name (spoken name) with
  | some t => .ok t.1
  | none => fault

end Scope
end Listing.Sql
