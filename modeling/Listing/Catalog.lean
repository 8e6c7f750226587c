import Listing.Sql.ColumnType
set_option autoImplicit false

namespace Listing

structure Table where
  name : String
  columns : List (String × ColumnType)
  key : List String
deriving Repr

namespace Table

def columnType? (t : Table) (column : String) : Option ColumnType :=
  Entries.lookup? t.columns column

def hasColumn (t : Table) (column : String) : Bool := (t.columnType? column).isSome

end Table

structure Link where
  table : String
  pairs : List (String × String)
deriving Repr

/-- A relation to a target model. Its pairs are an own column and the column that equals it, of
the target or of the link. -/
structure Relation where
  name : String
  target : String
  many : Bool
  pairs : List (String × String)
  link : Option Link := none
deriving Repr

structure Model where
  name : String
  table : Table
  relations : List Relation
deriving Repr

namespace Model

def relation? (m : Model) (name : String) : Option Relation := m.relations.find? (·.name == name)

end Model

structure Catalog where
  models : List Model
deriving Repr

structure Attribute where
  model : String
  relation : String
deriving DecidableEq, Repr

namespace Catalog

def model? (c : Catalog) (name : String) : Option Model := c.models.find? (·.name == name)

def tables (c : Catalog) : List Table := c.models.map (·.table)

def table? (c : Catalog) (name : String) : Option Table := c.tables.find? (·.name == name)

def targetOf? (c : Catalog) (r : Relation) : Option Model := c.model? r.target

def follow? (c : Catalog) (m : Model) : List String → Option Model
  | [] => some m
  | name :: rest => do
    let r ← m.relation? name
    let target ← c.targetOf? r
    c.follow? target rest

theorem follow?_append (c : Catalog) (m : Model) (xs ys : List String) :
    c.follow? m (xs ++ ys) = (c.follow? m xs).bind fun n => c.follow? n ys := by
  induction xs generalizing m with
  | nil => rfl
  | cons x xs ih =>
    simp only [List.cons_append, follow?, Option.bind_eq_bind, Option.bind_assoc]
    congr 1
    funext r
    congr 1
    funext n
    exact ih n

def attributes? (c : Catalog) (m : Model) : List String → Option (List Attribute)
  | [] => some []
  | name :: rest => do
    let r ← m.relation? name
    let target ← c.targetOf? r
    let onward ← c.attributes? target rest
    some (⟨m.name, name⟩ :: onward)

end Catalog
end Listing
