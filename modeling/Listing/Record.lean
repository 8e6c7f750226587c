import Listing.Catalog
import Listing.Sql.Database
set_option autoImplicit false

namespace Listing
open Sql

inductive Datum where
  | scalar (v : Value)
  | record (fields : List (String × Datum))
  | records (items : List (List (String × Datum)))
deriving Repr

inductive RelationTree where
  | node (branches : List (String × RelationTree))
deriving Repr

namespace RelationTree

def empty : RelationTree := node []

def branches : RelationTree → List (String × RelationTree)
  | node bs => bs

mutual

def insert (path : List String) : RelationTree → RelationTree
  | node bs =>
    match path with
    | [] => node bs
    | name :: rest => node (insertBranch name rest bs)

/-- Branches with a path added: to the branch of its first part if there is one, else at the
end. -/
def insertBranch (name : String) (rest : List String) :
    List (String × RelationTree) → List (String × RelationTree)
  | [] => [(name, rest.foldr (fun part tree => node [(part, tree)]) empty)]
  | (other, tree) :: bs =>
    if other == name then (other, insert rest tree) :: bs
    else (other, tree) :: insertBranch name rest bs

end

def ofPaths (paths : List (List String)) : RelationTree :=
  paths.foldl (fun tree path => tree.insert path) empty

/-- The names that dots part. What comes after the last dot is a name only if it is not empty. -/
def namesIn : List Char → List (List Char)
  | [] => [[]]
  | c :: cs =>
    if c == '.' then [] :: (if cs.isEmpty then [] else namesIn cs)
    else
      match namesIn cs with
      | [] => [[c]]
      | name :: names => (c :: name) :: names

def steps (path : String) : List String := (namesIn path.toList).map String.ofList

end RelationTree

namespace Record

def columns (t : Table) (r : Row) : List (String × Value) :=
  t.columns.map fun c => (c.1, (r.cell c.1).toValue c.2)

def related (db : Database) (target : Table) (relation : Relation) (r : Row) : List Row :=
  let met := relation.pairs.map fun (own, other) => (other, r.cell own)
  match relation.link with
  | none => db.matching target.name met
  | some link =>
    let links := db.matching link.table met
    (db.rows target.name).filter fun t =>
      links.any fun l => link.pairs.all fun (own, other) => l.cell own == t.cell other

mutual

def ofRow (c : Catalog) (db : Database) (m : Model) (r : Row) :
    RelationTree → List (String × Datum)
  | .node branches =>
    ofBranches c db m r ((columns m.table r).map fun f => (f.1, .scalar f.2)) branches

def ofBranches (c : Catalog) (db : Database) (m : Model) (r : Row)
    (fields : List (String × Datum)) : List (String × RelationTree) → List (String × Datum)
  | [] => fields
  | (name, tree) :: branches =>
    let fields := match m.relation? name with
      | none => fields
      | some relation =>
        match c.targetOf? relation with
        | none => fields
        | some target =>
          let rows := related db target.table relation r
          Entries.insert fields name
            (if relation.many then .records (rows.map fun t => ofRow c db target t tree)
             else match rows with
               | [] => .scalar .null
               | t :: _ => .record (ofRow c db target t tree))
    ofBranches c db m r fields branches

end

end Record
end Listing
